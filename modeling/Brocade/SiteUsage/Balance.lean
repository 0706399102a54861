/-
The hours of a user and a site hold what the user's counters gained.

A report adds to the hours exactly what its counters gained since their heads, and the heads move
there; so over a run of reports the hours grow by the difference of the last counters and the
first.  Only what a counter gained before the first hour of the view is missing, and a run in
which no read lies so long before the next has no such loss.
-/
import Brocade.SiteUsage.Record
import Mathlib.Tactic.Abel

namespace Brocade.SiteUsage

open Fallible

/-! ### Sums -/

section Sums

variable (tenant user site : String)

/-- What the rows of a user and a site add up to. -/
def siteTotal (table : HourlyTotals) : ℤ × ℤ :=
  table.total (fun key => decide (key.2 = (tenant, user, site))) id

/-- A quantity of the user's labels at the site, added up. -/
def labelTotal (owners : OrdMap String (String × String)) (value : CounterKey → ℤ × ℤ) : ℤ × ℤ :=
  ((owners.entries.filter fun entry => decide (entry.2 = (tenant, user))).map fun entry =>
    value (entry.1, site)).sum

/-- What an amount of `owner` at `place` adds. -/
def onto (owner : String × String) (place : String) (amount : ℤ × ℤ) : ℤ × ℤ :=
  if owner = (tenant, user) ∧ place = site then amount else 0

variable {tenant user site}

theorem siteTotal_upsert (table : HourlyTotals) (key : HourKey) (amount : ℤ × ℤ) :
    siteTotal tenant user site (table.upsert key fun row => row.getD 0 + amount)
      = siteTotal tenant user site table + onto tenant user site (key.2.1, key.2.2.1) key.2.2.2
        amount := by
  unfold siteTotal onto
  rw [Table.total_upsert table key _ _ (d := amount) (zero_add _) fun _ => rfl]
  congr 1
  refine if_congr ?_ rfl rfl
  obtain ⟨bucket, t, u, s⟩ := key
  simp only [decide_eq_true_eq, Prod.mk.injEq]
  tauto

theorem onto_add (owner : String × String) (place : String) (a b : ℤ × ℤ) :
    onto tenant user site owner place (a + b)
      = onto tenant user site owner place a + onto tenant user site owner place b := by
  unfold onto
  by_cases h : owner = (tenant, user) ∧ place = site
  · rw [if_pos h, if_pos h, if_pos h]
  · rw [if_neg h, if_neg h, if_neg h, add_zero]

theorem onto_zero (owner : String × String) (place : String) :
    onto tenant user site owner place 0 = 0 := ite_self 0

variable {totals after table : HourlyTotals}

theorem addPart_total {owner place : String} {who : String} {part : Part}
    (h : addPart owner who place totals part = .ok after) :
    siteTotal tenant user site after = siteTotal tenant user site totals
        + onto tenant user site (owner, who) place (part.up, part.down) := by
  unfold addPart at h
  by_cases hzero : part.up = 0 ∧ part.down = 0
  · rw [if_pos hzero] at h
    rw [← Except.ok.inj h, hzero.1, hzero.2]
    exact ((add_zero _).symm.trans (congrArg _ (onto_zero _ _).symm))
  · rw [if_neg hzero] at h
    obtain ⟨-, -, h⟩ := bind_eq_ok.mp h
    obtain ⟨-, -, h⟩ := bind_eq_ok.mp h
    rw [← Except.ok.inj h]
    exact siteTotal_upsert _ _ _

theorem addParts_total {owner place : String} {who : String} {parts : List Part}
    (h : parts.foldlM (addPart owner who place) totals = .ok after) :
    siteTotal tenant user site after = siteTotal tenant user site totals
        + onto tenant user site (owner, who) place
            ((parts.map (·.up)).sum, (parts.map (·.down)).sum) := by
  induction parts generalizing totals with
  | nil =>
    rw [List.foldlM_nil, pure_eq_ok] at h
    rw [h]
    exact ((add_zero _).symm.trans (congrArg _ (onto_zero _ _).symm))
  | cons part parts ih =>
    rw [List.foldlM_cons, bind_eq_ok] at h
    obtain ⟨middle, hpart, hrest⟩ := h
    rw [ih hrest, addPart_total hpart, add_assoc, ← onto_add]
    rfl

theorem insertHour_total {row : HourKey × (ℤ × ℤ)} (h : insertHour table row = .ok after) :
    siteTotal tenant user site after = siteTotal tenant user site table
        + if row.1.2 = (tenant, user, site) then row.2 else 0 := by
  unfold insertHour at h
  split at h
  · cases h
  · obtain ⟨-, -, h⟩ := bind_eq_ok.mp h
    obtain ⟨-, -, h⟩ := bind_eq_ok.mp h
    rw [← Except.ok.inj h, siteTotal, Table.total_upsert table row.1 _ _ (d := row.2)
      (zero_add _) fun _ => rfl]
    congr 1
    exact if_congr (decide_eq_true_iff) rfl rfl

theorem flushHourly_total (h : flushHourly totals table = .ok after) :
    siteTotal tenant user site after
      = siteTotal tenant user site table + siteTotal tenant user site totals := by
  have hrows : ∀ (rows : List (HourKey × (ℤ × ℤ))) {table after : HourlyTotals},
      rows.foldlM insertHour table = .ok after →
      siteTotal tenant user site after = siteTotal tenant user site table
        + ((rows.filter fun row => decide (row.1.2 = (tenant, user, site))).map
            fun row => id row.2).sum := by
    intro rows
    induction rows with
    | nil =>
      intro table after h
      rw [List.foldlM_nil, pure_eq_ok] at h
      rw [h]
      exact (add_zero _).symm
    | cons row rows ih =>
      intro table after h
      rw [List.foldlM_cons, bind_eq_ok] at h
      obtain ⟨middle, hrow, hrest⟩ := h
      rw [ih hrest, insertHour_total hrow, add_assoc]
      by_cases hours : row.1.2 = (tenant, user, site)
      · rw [List.filter_cons_of_pos (by simpa using hours), if_pos hours]
        rfl
      · rw [List.filter_cons_of_neg (by simpa using hours), if_neg hours, zero_add]
  exact hrows totals.rows h

theorem flushLong_total {flushed : HourlyTotals × HourlyTotals}
    (h : flushLong totals table = .ok flushed) :
    siteTotal tenant user site flushed.1 + siteTotal tenant user site flushed.2
      = siteTotal tenant user site totals + siteTotal tenant user site table := by
  unfold flushLong at h
  by_cases hlong : 1024 ≤ totals.rows.length
  · rw [if_pos hlong] at h
    cases hflush : flushHourly totals table with
    | error e =>
      rw [hflush] at h
      cases h
    | ok after =>
      rw [hflush] at h
      rw [← Except.ok.inj h, flushHourly_total hflush]
      show 0 + _ = _
      rw [zero_add, add_comm]
  · rw [if_neg hlong] at h
    rw [← Except.ok.inj h]

theorem labelTotal_update (tenant user site : String) {owners : OrdMap String (String × String)}
    {value value' : CounterKey → ℤ × ℤ} {key : CounterKey} {owner : String × String}
    {amount : ℤ × ℤ} (howner : owners.get? key.1 = some owner) (hkey : value' key = value key + amount)
    (hothers : ∀ other, other ≠ key → value' other = value other) :
    labelTotal tenant user site owners value'
      = labelTotal tenant user site owners value + onto tenant user site owner key.2 amount := by
  have hrows : ∀ entries : List (String × (String × String)), (entries.map Prod.fst).Nodup →
      (∀ entry ∈ entries, entry.1 = key.1 → entry.2 = owner) →
      ((entries.filter fun entry => decide (entry.2 = (tenant, user))).map fun entry =>
          value' (entry.1, site)).sum
        = ((entries.filter fun entry => decide (entry.2 = (tenant, user))).map fun entry =>
          value (entry.1, site)).sum
          + if key.1 ∈ entries.map Prod.fst then onto tenant user site owner key.2 amount else 0 := by
    intro entries
    induction entries with
    | nil => exact fun _ _ => (add_zero _).symm
    | cons entry entries ih =>
      intro hnodup honly
      rw [List.map_cons, List.nodup_cons] at hnodup
      have hrest := ih hnodup.2 fun other hother => honly other (List.mem_cons_of_mem _ hother)
      have hchange : entry.2 = (tenant, user) → value' (entry.1, site) = value (entry.1, site)
            + if key.1 = entry.1 then onto tenant user site owner key.2 amount else 0 := by
        intro hmine
        by_cases hlabel : key.1 = entry.1
        · have howned := (honly entry List.mem_cons_self hlabel.symm).symm.trans hmine
          rw [if_pos hlabel]
          unfold onto
          by_cases hsite : key.2 = site
          · rw [if_pos ⟨howned, hsite⟩, ← hlabel, ← hsite]
            exact hkey
          · rw [if_neg fun h => hsite h.2, add_zero]
            exact hothers _ fun heq => hsite (congrArg Prod.snd heq).symm
        · rw [if_neg hlabel, add_zero]
          exact hothers _ fun heq => hlabel (congrArg Prod.fst heq).symm
      have honto : entry.2 ≠ (tenant, user) → key.1 = entry.1 →
          onto tenant user site owner key.2 amount = 0 := by
        intro hother hlabel
        have howned := honly entry List.mem_cons_self hlabel.symm
        exact if_neg fun h => hother (howned.trans h.1)
      rw [List.map_cons]
      by_cases hlabel : key.1 = entry.1
      · have hnot : key.1 ∉ entries.map Prod.fst := hlabel ▸ hnodup.1
        rw [if_neg hnot, add_zero] at hrest
        rw [if_pos (List.mem_cons.mpr (.inl hlabel))]
        by_cases hmine : entry.2 = (tenant, user)
        · rw [List.filter_cons_of_pos (by simpa using hmine), List.map_cons, List.map_cons,
            List.sum_cons, List.sum_cons, hchange hmine, if_pos hlabel, hrest, add_right_comm]
        · rw [List.filter_cons_of_neg (by simpa using hmine), hrest, honto hmine hlabel, add_zero]
      · have hiff : key.1 ∈ entry.1 :: entries.map Prod.fst ↔ key.1 ∈ entries.map Prod.fst :=
          ⟨fun h => (List.mem_cons.mp h).resolve_left hlabel, List.mem_cons_of_mem _⟩
        rw [if_congr hiff rfl rfl]
        by_cases hmine : entry.2 = (tenant, user)
        · rw [List.filter_cons_of_pos (by simpa using hmine), List.map_cons, List.map_cons,
            List.sum_cons, List.sum_cons, hchange hmine, if_neg hlabel, hrest, add_zero,
            add_assoc]
        · rw [List.filter_cons_of_neg (by simpa using hmine), hrest]
  have hmem : (key.1, owner) ∈ owners.entries := OrdMap.mem_entries.mpr howner
  have h := hrows owners.entries (Assoc.nodup_of_sorted owners.sorted) fun entry hentry heq => by
    have hget := OrdMap.mem_entries.mp (show (entry.1, entry.2) ∈ owners.entries from hentry)
    rw [heq, howner] at hget
    exact (Option.some.inj hget).symm
  rw [if_pos (List.mem_map_of_mem hmem)] at h
  exact h

end Sums

/-! ### One counter -/

/-- What a counter is at by the heads, and by `unseen` where it has none. -/
def valueOf (unseen : CounterKey → ℤ × ℤ) (heads : Heads) (key : CounterKey) : ℤ × ℤ :=
  ((heads.get? key).map Head.bytes).getD (unseen key)

/-- Reads are at moments from zero on, and no head is later than the node's own. -/
structure Sound (db : SiteDb) : Prop where
  heads : ∀ key head, db.heads.get? key = some head →
    0 ≤ head.readAt ∧ 0 ≤ head.uplinkBytes ∧ 0 ≤ head.downlinkBytes
  before : ∀ row, db.state = some row → ∀ key head, db.heads.get? key = some head →
    head.readAt ≤ row.readAt
  state : ∀ row, db.state = some row → 0 < row.readAt

theorem putAll_concat (heads : Heads) (kept : List (CounterKey × Head)) (row : CounterKey × Head) :
    putAll heads (kept ++ [row]) = (putAll heads kept).put row.1 row.2 := by
  unfold putAll
  rw [List.foldl_append]
  rfl

variable {heads : Heads} {kept : List (CounterKey × Head)} {key : CounterKey}

theorem get?_putAll_of_not_mem (h : key ∉ kept.map Prod.fst) :
    (putAll heads kept).get? key = heads.get? key := by
  induction kept generalizing heads with
  | nil => rfl
  | cons row kept ih =>
    rw [List.map_cons, List.mem_cons, not_or] at h
    show (putAll (heads.put row.1 row.2) kept).get? key = _
    rw [ih h.2, Table.get?_put, if_neg h.1]

theorem get?_putAll {head : Head} (h : (putAll heads kept).get? key = some head) :
    (key, head) ∈ kept ∨ heads.get? key = some head := by
  induction kept generalizing heads with
  | nil => exact .inr h
  | cons row kept ih =>
    rcases ih (show (putAll (heads.put row.1 row.2) kept).get? key = _ from h) with hmem | hget
    · exact .inl (List.mem_cons_of_mem _ hmem)
    · rcases Table.of_get?_put hget with ⟨rfl, rfl⟩ | ⟨-, hget⟩
      · exact .inl List.mem_cons_self
      · exact .inr hget

theorem get?_putAll_of_mem (heads : Heads) {head : Head} (hnodup : (kept.map Prod.fst).Nodup)
    (h : (key, head) ∈ kept) : (putAll heads kept).get? key = some head := by
  induction kept generalizing heads with
  | nil => cases h
  | cons row kept ih =>
    rw [List.map_cons, List.nodup_cons] at hnodup
    show (putAll (heads.put row.1 row.2) kept).get? key = _
    rcases List.mem_cons.mp h with rfl | hin
    · rw [get?_putAll_of_not_mem hnodup.1, Table.get?_put, if_pos rfl]
    · exact ih _ hnodup.2 hin

theorem get?_of_putAll_none (h : (putAll heads kept).get? key = none) : heads.get? key = none := by
  induction kept generalizing heads with
  | nil => exact h
  | cons row kept ih =>
    have hput := ih (show (putAll (heads.put row.1 row.2) kept).get? key = none from h)
    rw [Table.get?_put] at hput
    by_cases hkey : key = row.1
    · rw [if_pos hkey] at hput
      cases hput
    · rwa [if_neg hkey] at hput

section Counter

variable {owners : OrdMap String (String × String)} {db : SiteDb} {generationId readAt : ℤ}
  {report : SiteUsageReport} {unseen : CounterKey → ℤ × ℤ} {tenant user site : String}

/-- No owned counter fell, and none was read last before the first hour of the view. -/
def inView (readAt : ℤ) (head : Head) : Bool := decide ((readAt / 3600 - 744) * 3600 ≤ head.readAt)

/-- Neither counter fell. -/
def risen (counter : SiteUsageCounter) (head : Head) : Bool :=
  decide (head.uplinkBytes ≤ counter.uplinkBytes) && decide (head.downlinkBytes ≤ counter.downlinkBytes)

theorem origin_range (generationId : ℤ) (report : SiteUsageReport) (hsound : Sound db)
    (haccepted : delayed db readAt = false) (counter : SiteUsageCounter) (hread : 0 < readAt) :
    let head := origin db generationId readAt report counter
    0 ≤ head.readAt ∧ 0 ≤ head.uplinkBytes ∧ 0 ≤ head.downlinkBytes
      ∧ (head.readAt < readAt ∨ head.readAt = readAt ∧ head.bytes = counter.bytes) := by
  have hlater : ∀ row, db.state = some row → row.readAt < readAt := by
    intro row hrow
    rw [delayed, hrow] at haccepted
    exact not_le.mp (of_decide_eq_false haccepted)
  simp only [origin]
  cases hget : (resumed db report).get? counter.key with
  | some head =>
    unfold resumed at hget
    by_cases hsame : sameEpoch db report = true
    · rw [if_pos hsame] at hget
      obtain ⟨row, hrow⟩ : ∃ row, db.state = some row := by
        unfold sameEpoch at hsame
        cases hstate : db.state with
        | none =>
          rw [hstate] at hsame
          cases hsame
        | some row => exact ⟨row, rfl⟩
      obtain ⟨h₁, h₂, h₃⟩ := hsound.heads _ _ hget
      exact ⟨h₁, h₂, h₃, .inl (lt_of_le_of_lt (hsound.before row hrow _ _ hget) (hlater row hrow))⟩
    · rw [if_neg hsame] at hget
      cases hget
  | none =>
    simp only
    by_cases hcontinues : (sameEpoch db report && sameGeneration db generationId) = true
    · rw [if_pos hcontinues]
      rw [Bool.and_eq_true] at hcontinues
      cases hstate : db.state with
      | none =>
        rw [sameEpoch, hstate] at hcontinues
        cases hcontinues.1
      | some row =>
        have hpos := hsound.state row hstate
        exact ⟨le_of_lt hpos, le_refl _, le_refl _, .inl (hlater row hstate)⟩
    · rw [if_neg hcontinues]
      exact ⟨le_of_lt hread, Int.natCast_nonneg _, Int.natCast_nonneg _, .inr ⟨rfl, rfl⟩⟩

theorem hourlyParts_sum {start stop up down : ℤ} {parts : List Part} (hstart : 0 ≤ start)
    (hstop : stop < 2 ^ 40) (hup : 0 ≤ up ∧ up < 2 ^ 63) (hdown : 0 ≤ down ∧ down < 2 ^ 63)
    (hview : (stop / 3600 - 744) * 3600 ≤ start) (hbehind : start < stop ∨ (up, down) = 0)
    (h : hourlyParts start stop up down = some parts) :
    ((parts.map (·.up)).sum, (parts.map (·.down)).sum) = (up, down) := by
  by_cases hnothing : up = 0 ∧ down = 0
  · rw [hourlyParts, if_pos (.inr hnothing)] at h
    rw [← Option.some.inj h, hnothing.1, hnothing.2]
    rfl
  · have hlt : start < stop := by
      refine hbehind.resolve_right fun hzero => hnothing ?_
      exact ⟨congrArg Prod.fst hzero, congrArg Prod.snd hzero⟩
    have hreadable : Readable start stop up down := ⟨hstart, hlt, hstop, hup, hdown⟩
    obtain ⟨parts', hrun, hsplit⟩ := hourlyParts_spec hreadable (by omega)
    rw [h] at hrun
    rw [← Option.some.inj hrun] at hsplit
    obtain ⟨hups, hdowns⟩ := hsplit.all hview
    rw [hups, hdowns]

/-- What is gathered and flushed, less what the counters are at. -/
def surplus (tenant user site : String) (owners : OrdMap String (String × String))
    (unseen : CounterKey → ℤ × ℤ) (heads : Heads) (hourly table : HourlyTotals) : ℤ × ℤ :=
  siteTotal tenant user site hourly + siteTotal tenant user site table
    - labelTotal tenant user site owners (valueOf unseen heads)

variable {progress progress' : Progress}

/-- **A counter moves the hours by as much as its head.** -/
theorem recordCounter_surplus (hsound : Sound db) (haccepted : delayed db readAt = false)
    (hread : 0 < readAt ∧ readAt < 2 ^ 40) {counter : SiteUsageCounter}
    (hwidth : counter.uplinkBytes ≤ I64_MAX ∧ counter.downlinkBytes ≤ I64_MAX)
    (hview : inView readAt (origin db generationId readAt report counter) = true)
    (hfresh : counter.key ∉ progress.kept.map Prod.fst)
    (hunseen : owners.get? counter.label ≠ none → (resumed db report).get? counter.key = none →
      unseen counter.key = (origin db generationId readAt report counter).bytes)
    (h : recordCounter owners db generationId readAt report progress counter = .ok progress') :
    surplus tenant user site owners unseen (putAll (resumed db report) progress'.kept)
        progress'.hourly progress'.table
      = surplus tenant user site owners unseen (putAll (resumed db report) progress.kept)
          progress.hourly progress.table := by
  unfold recordCounter at h
  cases howner : owners.get? counter.label with
  | none =>
    rw [howner] at h
    rw [← Except.ok.inj h]
  | some owner =>
    obtain ⟨t, u⟩ := owner
    rw [howner] at h
    simp only at h
    obtain ⟨head, hhead⟩ : ∃ head, origin db generationId readAt report counter = head := ⟨_, rfl⟩
    obtain ⟨hstart, hup, hdown, hbehind⟩ :=
      origin_range generationId report hsound haccepted counter hread.1
    rw [hhead] at h hview hunseen hstart hup hdown hbehind
    by_cases hfell : (counter.uplinkBytes : ℤ) < head.uplinkBytes
        ∨ (counter.downlinkBytes : ℤ) < head.downlinkBytes
    · rw [if_pos hfell] at h
      rw [← Except.ok.inj h]
    · rw [if_neg hfell] at h
      cases hparts : hourlyParts head.readAt readAt (counter.uplinkBytes - head.uplinkBytes)
          (counter.downlinkBytes - head.downlinkBytes) with
      | none =>
        rw [hparts] at h
        cases h
      | some parts =>
        rw [hparts] at h
        obtain ⟨hourly, hgathered, h⟩ := bind_eq_ok.mp h
        obtain ⟨flushed, hflushed, h⟩ := bind_eq_ok.mp h
        rw [not_or, not_lt, not_lt] at hfell
        have hamount : ((counter.uplinkBytes : ℤ) - head.uplinkBytes,
            (counter.downlinkBytes : ℤ) - head.downlinkBytes)
            = counter.bytes - head.bytes := rfl
        have hsum := hourlyParts_sum hstart hread.2 (by unfold I64_MAX at hwidth; omega)
          (by unfold I64_MAX at hwidth; omega) (of_decide_eq_true hview)
          (hbehind.imp_right fun hsame => hamount.trans (sub_eq_zero.mpr hsame.2.symm)) hparts
        rw [hamount] at hsum
        have hbefore : valueOf unseen (putAll (resumed db report) progress.kept) counter.key
            = head.bytes := by
          unfold valueOf
          rw [get?_putAll_of_not_mem hfresh]
          cases hget : (resumed db report).get? counter.key with
          | none => exact hunseen (by rw [howner]; nofun) hget
          | some there =>
            rw [origin, hget] at hhead
            rw [← hhead]
            rfl
        have hafter : valueOf unseen ((putAll (resumed db report) progress.kept).put counter.key
              ⟨readAt, counter.uplinkBytes, counter.downlinkBytes⟩) counter.key
            = valueOf unseen (putAll (resumed db report) progress.kept) counter.key
              + (counter.bytes - head.bytes) := by
          rw [hbefore, add_sub_cancel]
          unfold valueOf
          rw [Table.get?_put, if_pos rfl]
          rfl
        have hlabels := labelTotal_update tenant user site howner hafter fun other hother => by
          unfold valueOf
          rw [Table.get?_put, if_neg hother]
        have hhours : siteTotal tenant user site hourly
            = siteTotal tenant user site progress.hourly + onto tenant user site (t, u)
              counter.siteId (counter.bytes - head.bytes) := by
          rw [← hsum]
          exact addParts_total hgathered
        rw [← Except.ok.inj h]
        unfold surplus
        rw [putAll_concat, flushLong_total hflushed, hlabels, hhours]
        show _ + onto tenant user site (t, u) counter.siteId _ + _ - (_ + onto tenant user site
          (t, u) counter.siteId _) = _
        abel

/-- A counter whose head moves. -/
def taken (owners : OrdMap String (String × String)) (db : SiteDb) (generationId readAt : ℤ)
    (report : SiteUsageReport) (counter : SiteUsageCounter) : Bool :=
  (owners.get? counter.label).isSome && risen counter (origin db generationId readAt report counter)

/-- The head a counter leaves. -/
def headRow (readAt : ℤ) (counter : SiteUsageCounter) : CounterKey × Head :=
  (counter.key, ⟨readAt, counter.uplinkBytes, counter.downlinkBytes⟩)

theorem recordCounter_kept {counter : SiteUsageCounter}
    (h : recordCounter owners db generationId readAt report progress counter = .ok progress') :
    progress'.kept = progress.kept
      ++ ([counter].filter (taken owners db generationId readAt report)).map (headRow readAt) := by
  unfold recordCounter at h
  cases howner : owners.get? counter.label with
  | none =>
    rw [howner] at h
    have hnot : taken owners db generationId readAt report counter = false := by
      rw [taken, howner]
      rfl
    rw [← Except.ok.inj h, List.filter_cons_of_neg (by rw [hnot]; nofun), List.filter_nil,
      List.map_nil, List.append_nil]
  | some owner =>
    obtain ⟨t, u⟩ := owner
    rw [howner] at h
    simp only at h
    by_cases hfell : (counter.uplinkBytes : ℤ)
          < (origin db generationId readAt report counter).uplinkBytes
        ∨ (counter.downlinkBytes : ℤ) < (origin db generationId readAt report counter).downlinkBytes
    · rw [if_pos hfell] at h
      have hnot : taken owners db generationId readAt report counter = false := by
        unfold taken risen
        rw [howner, Option.isSome_some, Bool.true_and, Bool.and_eq_false_iff]
        exact hfell.imp (fun h => decide_eq_false (not_le.mpr h))
          fun h => decide_eq_false (not_le.mpr h)
      rw [← Except.ok.inj h, List.filter_cons_of_neg (by rw [hnot]; nofun), List.filter_nil,
        List.map_nil, List.append_nil]
    · rw [if_neg hfell] at h
      have htaken : taken owners db generationId readAt report counter = true := by
        rw [not_or, not_lt, not_lt] at hfell
        unfold taken risen
        rw [howner, Option.isSome_some, Bool.true_and, decide_eq_true hfell.1,
          decide_eq_true hfell.2]
        rfl
      cases hparts : hourlyParts (origin db generationId readAt report counter).readAt readAt
          (counter.uplinkBytes - (origin db generationId readAt report counter).uplinkBytes)
          (counter.downlinkBytes
            - (origin db generationId readAt report counter).downlinkBytes) with
      | none =>
        rw [hparts] at h
        cases h
      | some parts =>
        rw [hparts] at h
        obtain ⟨hourly, -, h⟩ := bind_eq_ok.mp h
        obtain ⟨flushed, -, h⟩ := bind_eq_ok.mp h
        rw [← Except.ok.inj h, List.filter_cons_of_pos htaken, List.filter_nil]
        rfl

theorem recordCounters_kept {counters : List SiteUsageCounter}
    (h : counters.foldlM (recordCounter owners db generationId readAt report) progress
      = .ok progress') : progress'.kept = progress.kept
      ++ (counters.filter (taken owners db generationId readAt report)).map (headRow readAt) := by
  induction counters generalizing progress with
  | nil =>
    rw [List.foldlM_nil, pure_eq_ok] at h
    rw [h, List.filter_nil, List.map_nil, List.append_nil]
  | cons counter counters ih =>
    rw [List.foldlM_cons, bind_eq_ok] at h
    obtain ⟨middle, hcounter, hrest⟩ := h
    rw [ih hrest, recordCounter_kept hcounter, List.append_assoc, ← List.map_append,
      ← List.filter_append]
    rfl

/-- What a report's counters must be to be followed. -/
structure Followed (owners : OrdMap String (String × String)) (db : SiteDb)
    (generationId readAt : ℤ) (report : SiteUsageReport) (unseen : CounterKey → ℤ × ℤ)
    (counter : SiteUsageCounter) : Prop where
  width : counter.uplinkBytes ≤ I64_MAX ∧ counter.downlinkBytes ≤ I64_MAX
  view : inView readAt (origin db generationId readAt report counter) = true
  unseen : owners.get? counter.label ≠ none → (resumed db report).get? counter.key = none →
    unseen counter.key = (origin db generationId readAt report counter).bytes

theorem recordCounters_surplus (hsound : Sound db) (haccepted : delayed db readAt = false)
    (hread : 0 < readAt ∧ readAt < 2 ^ 40) {counters : List SiteUsageCounter}
    (hfollowed : ∀ counter ∈ counters, Followed owners db generationId readAt report unseen counter)
    (hnodup : (progress.kept.map Prod.fst ++ counters.map (·.key)).Nodup)
    (h : counters.foldlM (recordCounter owners db generationId readAt report) progress
      = .ok progress') :
    surplus tenant user site owners unseen (putAll (resumed db report) progress'.kept)
        progress'.hourly progress'.table
      = surplus tenant user site owners unseen (putAll (resumed db report) progress.kept)
          progress.hourly progress.table := by
  induction counters generalizing progress with
  | nil =>
    rw [List.foldlM_nil, pure_eq_ok] at h
    rw [h]
  | cons counter counters ih =>
    rw [List.foldlM_cons, bind_eq_ok] at h
    obtain ⟨middle, hcounter, hrest⟩ := h
    have hmine := hfollowed counter List.mem_cons_self
    have hfresh : counter.key ∉ progress.kept.map Prod.fst := fun hmem =>
      (List.nodup_append.mp hnodup).2.2 _ hmem _ List.mem_cons_self rfl
    have hmiddle : (middle.kept.map Prod.fst ++ counters.map (·.key)).Nodup := by
      rw [recordCounter_kept hcounter, List.map_append, List.append_assoc]
      refine hnodup.sublist ((List.Sublist.refl _).append ?_)
      by_cases htaken : taken owners db generationId readAt report counter = true
      · rw [List.filter_cons_of_pos htaken]
        exact List.Sublist.refl _
      · rw [List.filter_cons_of_neg htaken]
        exact List.sublist_cons_self _ _
    rw [ih (fun other hother => hfollowed other (List.mem_cons_of_mem _ hother)) hmiddle hrest]
    exact recordCounter_surplus hsound haccepted hread hmine.width hmine.view hfresh hmine.unseen
      hcounter

end Counter

end Brocade.SiteUsage
