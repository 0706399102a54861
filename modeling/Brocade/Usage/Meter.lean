/-
The meter behind a head.

A head and the readings that follow it are a small machine of their own: each reading
leaves a head and books some bytes.  This file says what a whole sequence of readings
books, epoch by epoch, without any database.  Within an epoch the meter books exactly up
to its head, and the head stands at the first reading of the epoch's last second, so what
is lost at a restart is what grew within that second.
-/
import Mathlib.Data.List.Induction
import Brocade.Usage.Conserve

namespace Brocade.Usage

instance (head : UsageHead) (reading : UsageReading) : Decidable (Moves head reading) :=
  inferInstanceAs (Decidable (_ ∧ (_ → _) ∧ ¬ _))

/-- What a process opens with: its whole counter, if it is older than the reading. -/
def UsageReading.opening (reading : UsageReading) : Bytes :=
  if reading.xrayStartedAtUnixSecs < reading.readAtUnixSecs then reading.bytes else 0

/-- One reading against a head: the head it leaves and the bytes it books. -/
def UsageHead.take (head : UsageHead) (reading : UsageReading) : UsageHead × Bytes :=
  if Moves head reading then
    (reading.head reading.generationId,
      if head.xrayEpoch = reading.xrayEpoch then reading.bytes - head.bytes else reading.opening)
  else (head, 0)

/-- A sequence of readings against a head. -/
def UsageHead.meter (head : UsageHead) : List UsageReading → UsageHead × Bytes
  | [] => (head, 0)
  | reading :: rest =>
    (((head.take reading).1.meter rest).1,
      (head.take reading).2 + ((head.take reading).1.meter rest).2)

theorem meter_append (head : UsageHead) (xs ys : List UsageReading) : head.meter (xs ++ ys)
      = (((head.meter xs).1.meter ys).1, (head.meter xs).2 + ((head.meter xs).1.meter ys).2) := by
  induction xs generalizing head with
  | nil => simp [UsageHead.meter]
  | cons x xs ih => simp only [List.cons_append, UsageHead.meter, ih, add_assoc]

/-! ### Within an epoch -/

/-- A later reading of the same process. -/
def UsageReading.Precedes (x y : UsageReading) : Prop :=
  x.readAtUnixSecs ≤ y.readAtUnixSecs ∧ x.bytes ≤ y.bytes

/-- The second and the bytes a sequence of readings ends with. -/
def lastRead (head : UsageHead) (xs : List UsageReading) : Int × Bytes :=
  (xs.getLast?.map fun x => (x.readAtUnixSecs, x.bytes)).getD (head.readAtUnixSecs, head.bytes)

/-- Nothing grows within the last second of the sequence. -/
def Quiet (head : UsageHead) (xs : List UsageReading) : Prop :=
  (head.readAtUnixSecs = (lastRead head xs).1 → head.bytes = (lastRead head xs).2) ∧
    ∀ x ∈ xs, x.readAtUnixSecs = (lastRead head xs).1 → x.bytes = (lastRead head xs).2

@[simp] theorem lastRead_nil (head : UsageHead) :
    lastRead head [] = (head.readAtUnixSecs, head.bytes) := rfl

@[simp] theorem lastRead_append_singleton (head : UsageHead) (xs : List UsageReading)
    (x : UsageReading) : lastRead head (xs ++ [x]) = (x.readAtUnixSecs, x.bytes) := by
  simp [lastRead]

/-- Readings of the head's own process, in order. -/
structure Continues (head : UsageHead) (xs : List UsageReading) : Prop where
  epoch : ∀ x ∈ xs, x.xrayEpoch = head.xrayEpoch
  after : ∀ x ∈ xs, head.readAtUnixSecs ≤ x.readAtUnixSecs ∧ head.bytes ≤ x.bytes
  ordered : xs.Pairwise UsageReading.Precedes

variable {head : UsageHead} {xs : List UsageReading} {x : UsageReading}

theorem Continues.init (h : Continues head (xs ++ [x])) : Continues head xs where
  epoch y hy := h.epoch y (List.mem_append_left _ hy)
  after y hy := h.after y (List.mem_append_left _ hy)
  ordered := (List.pairwise_append.mp h.ordered).1

/-- Where the meter stands after readings of the head's own process. -/
structure Metered (head : UsageHead) (xs : List UsageReading) (r : UsageHead × Bytes) : Prop where
  epoch : r.1.xrayEpoch = head.xrayEpoch
  readAt : r.1.readAtUnixSecs = (lastRead head xs).1
  booked : r.2 + head.bytes = r.1.bytes
  le : r.1.bytes ≤ (lastRead head xs).2
  quiet : r.1.bytes = (lastRead head xs).2 ↔ Quiet head xs

theorem Continues.le_last (h : Continues head xs) :
    (head.readAtUnixSecs ≤ (lastRead head xs).1 ∧ head.bytes ≤ (lastRead head xs).2) ∧
      ∀ x ∈ xs, x.readAtUnixSecs ≤ (lastRead head xs).1 ∧ x.bytes ≤ (lastRead head xs).2 := by
  rcases List.eq_nil_or_concat xs with rfl | ⟨ys, y, rfl⟩
  · exact ⟨⟨le_rfl, le_rfl⟩, nofun⟩
  · rw [List.concat_eq_append] at h ⊢
    rw [lastRead_append_singleton]
    refine ⟨h.after y (by simp), fun x hx => ?_⟩
    rcases List.mem_append.mp hx with hx | hx
    · exact (List.pairwise_append.mp h.ordered).2.2 x hx y (List.mem_singleton_self y)
    · rw [List.mem_singleton.mp hx]
      exact ⟨le_rfl, le_rfl⟩

/-- **Within an epoch the meter books up to its head, and its head stands at the first
reading of the last second.** -/
theorem meter_continues (h : Continues head xs) : Metered head xs (head.meter xs) := by
  induction xs using List.reverseRecOn with
  | nil => exact ⟨rfl, rfl, zero_add _, le_rfl, iff_of_true rfl ⟨fun _ => rfl, nofun⟩⟩
  | append_singleton xs x ih =>
    obtain ⟨hepoch, hreadAt, hbooked, hle, hquiet⟩ := ih h.init
    obtain ⟨⟨hheadAt, hheadLe⟩, hall⟩ := h.init.le_last
    have hx : x.xrayEpoch = head.xrayEpoch := h.epoch x (by simp)
    have hlast : (lastRead head xs).1 ≤ x.readAtUnixSecs ∧ (lastRead head xs).2 ≤ x.bytes := by
      rcases List.eq_nil_or_concat xs with rfl | ⟨ys, y, rfl⟩
      · exact h.after x (by simp)
      · rw [List.concat_eq_append, lastRead_append_singleton]
        exact (List.pairwise_append.mp h.ordered).2.2 y (by simp) x (List.mem_singleton_self x)
    have hstep : (head.meter xs).1.take x
        = if (head.meter xs).1.readAtUnixSecs < x.readAtUnixSecs then
            (x.head x.generationId, x.bytes - (head.meter xs).1.bytes)
          else ((head.meter xs).1, 0) := by
      have hmoves : Moves (head.meter xs).1 x
          ↔ (head.meter xs).1.readAtUnixSecs < x.readAtUnixSecs := by
        refine ⟨fun hm => hm.1, fun hlt => ⟨hlt, fun _ => hle.trans hlast.2, ?_⟩⟩
        rw [hepoch, hx]
        rintro ⟨hj, hnj, -⟩
        rw [hj] at hnj
        cases hnj
      unfold UsageHead.take
      simp only [hmoves, hepoch, hx, if_true]
    rw [meter_append]
    simp only [UsageHead.meter, add_zero, hstep]
    by_cases hlater : (head.meter xs).1.readAtUnixSecs < x.readAtUnixSecs
    · -- a later second: the head moves to the reading
      rw [if_pos hlater]
      refine ⟨hx, ?_, ?_, ?_, ?_⟩
      · rw [lastRead_append_singleton]; rfl
      · show (head.meter xs).2 + (x.bytes - (head.meter xs).1.bytes) + head.bytes = x.bytes
        rw [add_right_comm, hbooked, add_tsub_cancel_of_le (hle.trans hlast.2)]
      · rw [lastRead_append_singleton]; exact le_rfl
      · rw [Quiet, lastRead_append_singleton]
        refine iff_of_true rfl ⟨fun heq => ?_, fun y hy heq => ?_⟩
        · simp only at heq
          omega
        · rcases List.mem_append.mp hy with hy | hy
          · have hyle := (hall y hy).1
            simp only at heq
            omega
          · rw [List.mem_singleton.mp hy]
    · -- the same second: the head stays
      have hsame : x.readAtUnixSecs = (lastRead head xs).1 := by omega
      rw [if_neg hlater]
      refine ⟨hepoch, ?_, ?_, ?_, ?_⟩
      · rw [lastRead_append_singleton, hreadAt]; exact hsame.symm
      · simpa using hbooked
      · rw [lastRead_append_singleton]; exact hle.trans hlast.2
      · rw [Quiet, lastRead_append_singleton]
        simp only
        constructor
        · intro heq
          have hbytes : (lastRead head xs).2 = x.bytes :=
            le_antisymm hlast.2 (heq ▸ hle)
          obtain ⟨hhead, hreadings⟩ := hquiet.mp (heq.trans hbytes.symm)
          refine ⟨fun h' => (hhead (h'.trans hsame)).trans hbytes, fun y hy h' => ?_⟩
          rcases List.mem_append.mp hy with hy | hy
          · exact (hreadings y hy (h'.trans hsame)).trans hbytes
          · rw [List.mem_singleton.mp hy]
        · rintro ⟨hhead, hreadings⟩
          have hbytes : (lastRead head xs).2 = x.bytes := by
            rcases List.eq_nil_or_concat xs with rfl | ⟨ys, y, rfl⟩
            · exact hhead hsame.symm
            · rw [List.concat_eq_append, lastRead_append_singleton] at hsame ⊢
              exact hreadings y (by simp) hsame.symm
          rw [← hbytes]
          refine hquiet.mpr ⟨fun h' => ?_, fun y hy h' => ?_⟩
          · rw [hbytes]
            exact hhead (h'.trans hsame.symm)
          · rw [hbytes]
            exact hreadings y (List.mem_append_left _ hy) (h'.trans hsame.symm)

/-! ### Across a restart -/

/-- The readings of one process, in order. -/
structure Epoch where
  name : String
  readings : List UsageReading
  nonempty : readings ≠ []
  own : ∀ x ∈ readings, x.xrayEpoch = name
  ordered : readings.Pairwise UsageReading.Precedes

/-- The last delivered reading of a process. -/
def Epoch.last (self : Epoch) : UsageReading := self.readings.getLast self.nonempty

/-- A reading of another process the head does not move for: not later than the head's
second, or leaving the journal namespace without a restart after it. -/
def refused (second : Int) (journal : Bool) (x : UsageReading) : Bool :=
  decide (x.readAtUnixSecs ≤ second)
    || (journal && !isJournal x.xrayEpoch && decide (x.xrayStartedAtUnixSecs ≤ second))

/-- The readings of a process from the first one its predecessor's head moves for. -/
def Epoch.counted (self : Epoch) (second : Int) (journal : Bool) : List UsageReading :=
  self.readings.dropWhile (refused second journal)

theorem take_refused (hx : refused head.readAtUnixSecs (isJournal head.xrayEpoch) x = true) :
    head.take x = (head, 0) := by
  refine if_neg fun hmoves => ?_
  simp only [refused, Bool.or_eq_true, Bool.and_eq_true, decide_eq_true_eq, Bool.not_eq_true']
    at hx
  rcases hx with hearlier | ⟨⟨hjournal, hlegacy⟩, hstarted⟩
  · exact absurd hmoves.1 (not_lt.mpr hearlier)
  · exact hmoves.2.2 ⟨hjournal, hlegacy, hstarted⟩

theorem take_counted (hx : refused head.readAtUnixSecs (isJournal head.xrayEpoch) x = false)
    (hepoch : head.xrayEpoch ≠ x.xrayEpoch) : head.take x = (x.head x.generationId, x.opening) := by
  simp only [refused, Bool.or_eq_false_iff, decide_eq_false_iff_not, not_le] at hx
  have hmoves : Moves head x := by
    refine ⟨hx.1, fun heq => absurd heq hepoch, fun hguard => ?_⟩
    have hnot := hx.2
    rw [hguard.1, hguard.2.1, decide_eq_true hguard.2.2] at hnot
    cases hnot
  rw [UsageHead.take, if_pos hmoves, if_neg hepoch]

theorem meter_refused
    (hxs : ∀ x ∈ xs, refused head.readAtUnixSecs (isJournal head.xrayEpoch) x = true) :
    head.meter xs = (head, 0) := by
  induction xs with
  | nil => rfl
  | cons x xs ih =>
    have hx := take_refused (hxs x List.mem_cons_self)
    have hrest := ih fun y hy => hxs y (List.mem_cons_of_mem _ hy)
    simp only [UsageHead.meter, hx, hrest, add_zero]

/-- The first counted reading of a process books its whole counter. -/
def Opens (x : UsageReading) : Prop :=
  x.xrayStartedAtUnixSecs < x.readAtUnixSecs ∨ x.bytes = 0

theorem opening_le (x : UsageReading) : x.opening ≤ x.bytes := by
  unfold UsageReading.opening
  split
  · exact le_rfl
  · exact zero_le

theorem opening_eq_iff (x : UsageReading) : x.opening = x.bytes ↔ Opens x := by
  unfold UsageReading.opening Opens
  by_cases h : x.xrayStartedAtUnixSecs < x.readAtUnixSecs
  · simp [h]
  · simp [h, eq_comm]

/-- Nothing grows within the last second of the process. -/
def Epoch.Settled (self : Epoch) (counted : List UsageReading) : Prop :=
  ∀ x ∈ counted, x.readAtUnixSecs = self.last.readAtUnixSecs → x.bytes = self.last.bytes

theorem lastRead_head (x : UsageReading) (generationId : Int) (xs : List UsageReading)
    {last : UsageReading} (h : (x :: xs).getLast? = some last) :
    lastRead (x.head generationId) xs = (last.readAtUnixSecs, last.bytes) := by
  rcases List.eq_nil_or_concat xs with rfl | ⟨ys, y, rfl⟩
  · cases h
    rfl
  · rw [List.concat_eq_append] at h ⊢
    rw [← List.cons_append, List.getLast?_concat, Option.some.injEq] at h
    rw [lastRead_append_singleton, h]

theorem meter_epoch {epoch : Epoch} (hne : head.xrayEpoch ≠ epoch.name) :
    match epoch.counted head.readAtUnixSecs (isJournal head.xrayEpoch) with
    | [] => head.meter epoch.readings = (head, 0)
    | x :: xs =>
      let r := head.meter epoch.readings
      r.1.xrayEpoch = epoch.name ∧ r.1.readAtUnixSecs = epoch.last.readAtUnixSecs ∧
        r.2 ≤ r.1.bytes ∧ (r.2 = r.1.bytes ↔ Opens x) ∧ r.1.bytes ≤ epoch.last.bytes ∧
        (r.1.bytes = epoch.last.bytes ↔ epoch.Settled (x :: xs)) := by
  have hforeign : ∀ x ∈ epoch.readings, head.xrayEpoch ≠ x.xrayEpoch := by
    intro x hx
    rw [epoch.own x hx]
    exact hne
  set skip := refused head.readAtUnixSecs (isJournal head.xrayEpoch) with hskip
  have hsplit : epoch.readings.takeWhile skip ++ epoch.readings.dropWhile skip = epoch.readings :=
    List.takeWhile_append_dropWhile
  have hprefix : head.meter (epoch.readings.takeWhile skip) = (head, 0) :=
    meter_refused fun x hx => List.mem_takeWhile_imp hx
  have hmeter : head.meter epoch.readings = head.meter (epoch.readings.dropWhile skip) := by
    conv_lhs => rw [← hsplit, meter_append, hprefix]
    simp only [zero_add]
  unfold Epoch.counted
  rw [← hskip]
  cases hcounted : epoch.readings.dropWhile skip with
  | nil =>
    rw [hcounted] at hmeter
    exact hmeter
  | cons x xs =>
    rw [hcounted] at hmeter hsplit
    have hmem : ∀ y ∈ x :: xs, y ∈ epoch.readings := by
      intro y hy
      rw [← hsplit]
      exact List.mem_append_right _ hy
    have hordered : (x :: xs).Pairwise UsageReading.Precedes := by
      have hall := epoch.ordered
      rw [← hsplit] at hall
      exact (List.pairwise_append.mp hall).2.1
    have hx : refused head.readAtUnixSecs (isJournal head.xrayEpoch) x = false := by
      have hhead := List.head?_dropWhile_not skip epoch.readings
      rw [hcounted] at hhead
      exact hhead
    have htake := take_counted hx (hforeign x (hmem x List.mem_cons_self))
    have hcontinues : Continues (x.head x.generationId) xs := by
      refine ⟨fun y hy => ?_, fun y hy => ?_, hordered.of_cons⟩
      · show y.xrayEpoch = x.xrayEpoch
        rw [epoch.own y (hmem y (List.mem_cons_of_mem _ hy)), epoch.own x (hmem x List.mem_cons_self)]
      · exact List.rel_of_pairwise_cons hordered hy
    have hlast : lastRead (x.head x.generationId) xs
        = (epoch.last.readAtUnixSecs, epoch.last.bytes) := by
      refine lastRead_head x _ xs ?_
      have hlast : epoch.readings.getLast? = some epoch.last :=
        List.getLast?_eq_some_getLast epoch.nonempty
      rw [← hsplit, List.getLast?_append_of_ne_nil _ (List.cons_ne_nil x xs)] at hlast
      exact hlast
    obtain ⟨hepoch, hreadAt, hbooked, hle, hquiet⟩ := meter_continues hcontinues
    rw [hlast] at hreadAt hle hquiet
    simp only [hmeter, UsageHead.meter, htake]
    set r := (x.head x.generationId).meter xs
    have hbooked : r.2 + x.bytes = r.1.bytes := hbooked
    have hopens : x.opening + r.2 = r.1.bytes ↔ Opens x := by
      rw [← hbooked, add_comm r.2, add_left_inj, opening_eq_iff]
    refine ⟨?_, hreadAt, ?_, hopens, hle, hquiet.trans ?_⟩
    · rw [hepoch]
      exact epoch.own x (hmem x List.mem_cons_self)
    · rw [← hbooked, add_comm r.2]
      exact add_le_add_left (opening_le x) r.2
    · simp only [Quiet, hlast, Epoch.Settled, List.mem_cons, forall_eq_or_imp]
      rfl

/-! ### Across a run -/

/-- A run of processes is metered whole: each finished one is quiet in its last second and
its first counted reading books it, or it brought no byte at all; the last one is opened. -/
def Recoverable (last : Epoch) : Int → Bool → List Epoch → Prop
  | second, journal, [] => ∀ x ∈ (last.counted second journal).head?, Opens x
  | second, journal, epoch :: rest =>
    match epoch.counted second journal with
    | [] => epoch.last.bytes = 0 ∧ Recoverable last second journal rest
    | x :: xs => Opens x ∧ epoch.Settled (x :: xs) ∧
        Recoverable last epoch.last.readAtUnixSecs (isJournal epoch.name) rest

/-- The readings of a run of processes, in order. -/
def readingsOf (between : List Epoch) (last : Epoch) : List UsageReading :=
  between.flatMap Epoch.readings ++ last.readings

/-- What the finished processes counted to. -/
def finished (between : List Epoch) : Bytes := (between.map fun epoch => epoch.last.bytes).sum

/-- **The processes after the head are metered whole exactly when they are recoverable.** -/
theorem meter_restarts {between : List Epoch} {last : Epoch}
    (hnames : (head.xrayEpoch :: (between.map Epoch.name ++ [last.name])).Nodup)
    (hmoved : (head.meter (readingsOf between last)).1.xrayEpoch = last.name) :
    (head.meter (readingsOf between last)).2
        ≤ finished between + (head.meter (readingsOf between last)).1.bytes ∧
      ((head.meter (readingsOf between last)).2
          = finished between + (head.meter (readingsOf between last)).1.bytes ↔
        Recoverable last head.readAtUnixSecs (isJournal head.xrayEpoch) between) := by
  induction between generalizing head with
  | nil =>
    have hne : head.xrayEpoch ≠ last.name := by
      simpa using hnames
    have h := meter_epoch hne
    simp only [readingsOf, List.flatMap_nil, List.nil_append, finished, List.map_nil,
      List.sum_nil, zero_add, Recoverable] at hmoved ⊢
    cases hcounted : last.counted head.readAtUnixSecs (isJournal head.xrayEpoch) with
    | nil =>
      rw [hcounted] at h
      rw [h] at hmoved
      exact absurd hmoved hne
    | cons x xs =>
      rw [hcounted] at h
      obtain ⟨-, -, hle, hopens, -, -⟩ := h
      exact ⟨hle, by simpa using hopens⟩
  | cons epoch rest ih =>
    have hne : head.xrayEpoch ≠ epoch.name := by
      intro heq
      simp [heq] at hnames
    have h := meter_epoch hne
    have hreadings : readingsOf (epoch :: rest) last = epoch.readings ++ readingsOf rest last := by
      simp [readingsOf]
    have hfinished : finished (epoch :: rest) = epoch.last.bytes + finished rest := by
      simp [finished]
    rw [hreadings, meter_append] at hmoved ⊢
    rw [hfinished, Recoverable]
    cases hcounted : epoch.counted head.readAtUnixSecs (isJournal head.xrayEpoch) with
    | nil =>
      rw [hcounted] at h
      simp only [h, zero_add] at hmoved ⊢
      have hnames' : (head.xrayEpoch :: (rest.map Epoch.name ++ [last.name])).Nodup := by
        refine hnames.sublist ?_
        simp
      obtain ⟨hle, hiff⟩ := ih hnames' hmoved
      rw [add_assoc]
      refine ⟨hle.trans le_add_self, ?_⟩
      have hsplit := add_eq_add_iff_eq_and_eq (zero_le : 0 ≤ epoch.last.bytes) hle
      rw [zero_add] at hsplit
      rw [hsplit, hiff, eq_comm]
    | cons x xs =>
      rw [hcounted] at h
      obtain ⟨hepoch, hreadAt, hbookedLe, hopens, hcountedLe, hsettled⟩ := h
      have hnames' : ((head.meter epoch.readings).1.xrayEpoch
          :: (rest.map Epoch.name ++ [last.name])).Nodup := by
        rw [hepoch]
        exact hnames.of_cons
      obtain ⟨hle, hiff⟩ := ih hnames' hmoved
      rw [hreadAt, hepoch] at hiff
      simp only [add_assoc]
      have hwhole : (head.meter epoch.readings).2 = epoch.last.bytes
          ↔ Opens x ∧ epoch.Settled (x :: xs) := by
        rw [← hopens, ← hsettled]
        refine ⟨fun heq => ?_, fun hand => hand.1.trans hand.2⟩
        have hreached : (head.meter epoch.readings).1.bytes = epoch.last.bytes :=
          le_antisymm hcountedLe (heq ▸ hbookedLe)
        exact ⟨heq.trans hreached.symm, hreached⟩
      refine ⟨add_le_add (hbookedLe.trans hcountedLe) hle, ?_⟩
      rw [add_eq_add_iff_eq_and_eq (hbookedLe.trans hcountedLe) hle, hwhole, hiff, and_assoc]

theorem meter_whole {old : List UsageReading} {between : List Epoch} {last : Epoch}
    (hold : Continues head old)
    (hnames : (head.xrayEpoch :: (between.map Epoch.name ++ [last.name])).Nodup)
    (hmoved : (head.meter (old ++ readingsOf between last)).1.xrayEpoch = last.name) :
    (head.meter (old ++ readingsOf between last)).2
        = (lastRead head old).2 - head.bytes + finished between
          + (head.meter (old ++ readingsOf between last)).1.bytes ↔
      Quiet head old ∧
        Recoverable last (lastRead head old).1 (isJournal head.xrayEpoch) between := by
  obtain ⟨hepoch, hreadAt, hbooked, hle, hquiet⟩ := meter_continues hold
  rw [meter_append] at hmoved ⊢
  simp only at hmoved ⊢
  rw [← hepoch] at hnames
  obtain ⟨hrestLe, hrest⟩ := meter_restarts hnames hmoved
  rw [hreadAt, hepoch] at hrest
  have hgrowth : (head.meter old).2 ≤ (lastRead head old).2 - head.bytes :=
    le_tsub_of_add_le_right (hbooked.trans_le hle)
  have hreached : (head.meter old).2 = (lastRead head old).2 - head.bytes ↔ Quiet head old := by
    rw [← hquiet, ← hbooked, eq_tsub_iff_add_eq_of_le hold.le_last.1.2]
  rw [add_assoc, add_eq_add_iff_eq_and_eq hgrowth hrestLe, hreached, hrest]

end Brocade.Usage
