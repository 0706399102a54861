/-
Bytes by the hour.

What a counter gained between two reads is spread over the hours in between, in proportion to
the time each of them takes.  What an hour gets is the difference of two cumulative amounts, so
the hours together get every byte, whatever the divisions round away.  Hours older than the
longest view are left out with their bytes.

Every operation is checked for the width the code computes it in.
-/
import Mathlib.Tactic.Ring

namespace Brocade.SiteUsage

/-! ### Machine integers -/

def i64? (x : ℤ) : Option ℤ := if -2 ^ 63 ≤ x ∧ x < 2 ^ 63 then some x else none

def i128? (x : ℤ) : Option ℤ := if -2 ^ 127 ≤ x ∧ x < 2 ^ 127 then some x else none

theorem i64?_eq {x : ℤ} (hlow : -2 ^ 63 ≤ x) (hhigh : x < 2 ^ 63) : i64? x = some x :=
  if_pos ⟨hlow, hhigh⟩

theorem i128?_eq {x : ℤ} (hlow : -2 ^ 127 ≤ x) (hhigh : x < 2 ^ 127) : i128? x = some x :=
  if_pos ⟨hlow, hhigh⟩

/-! ### The split -/

/-- An hour, and what it gets of either direction. -/
structure Part where
  (bucket up down : ℤ)

/-- What falls before a moment. -/
def allocated (start stop bytes moment : ℤ) : Option ℤ := do
  let elapsed ← i64? (moment - start)
  let duration ← i64? (stop - start)
  let product ← i128? (bytes * elapsed)
  i64? (product.tdiv duration)

/-- The end of the hour. -/
def nextHour (cursor stop : ℤ) : Option ℤ := do
  let hour ← i64? (cursor.tdiv 3600 + 1)
  let next ← i64? (hour * 3600)
  some (min next stop)

/-- The part of one hour. -/
def hourlyPart (start stop up down cursor next : ℤ) : Option Part := do
  let bucket ← i64? (cursor.tdiv 3600 * 3600)
  let upNext ← allocated start stop up next
  let upCursor ← allocated start stop up cursor
  let deltaUp ← i64? (upNext - upCursor)
  let downNext ← allocated start stop down next
  let downCursor ← allocated start stop down cursor
  let deltaDown ← i64? (downNext - downCursor)
  some ⟨bucket, deltaUp, deltaDown⟩

/-- Hour by hour. -/
def hourlyLoop (start stop up down : ℤ) : ℕ → ℤ → Option (List Part)
  | 0, _ => none
  | fuel + 1, cursor =>
    if cursor < stop then do
      let next ← nextHour cursor stop
      let part ← hourlyPart start stop up down cursor next
      let rest ← hourlyLoop start stop up down fuel next
      some (part :: rest)
    else some []

/-- The first hour of the longest view. -/
def firstHour (stop : ℤ) : Option ℤ := do
  let hours ← i64? (stop.tdiv 3600 - 31 * 24)
  i64? (hours * 3600)

/-- The hours of an interval. -/
def hourlyParts (start stop up down : ℤ) : Option (List Part) :=
  if stop ≤ start ∨ (up = 0 ∧ down = 0) then some []
  else do
    let first ← firstHour stop
    hourlyLoop start stop up down ((stop - max start first).toNat + 1) (max start first)

/-! ### Cumulative amounts -/

/-- What falls before a moment, in whole numbers. -/
def share (start stop bytes moment : ℤ) : ℤ := bytes * (moment - start) / (stop - start)

section Share

variable {start stop bytes moment : ℤ}

theorem share_start : share start stop bytes start = 0 := by
  unfold share
  rw [Int.sub_self, Int.mul_zero, Int.zero_ediv]

theorem share_stop (h : start < stop) : share start stop bytes stop = bytes := by
  unfold share
  exact Int.mul_ediv_cancel _ (by omega)

theorem share_mono (hbytes : 0 ≤ bytes) (h : start < stop) {later : ℤ} (hle : moment ≤ later) :
    share start stop bytes moment ≤ share start stop bytes later := by
  unfold share
  refine Int.ediv_le_ediv (by omega) (Int.mul_le_mul_of_nonneg_left (by omega) hbytes)

theorem share_nonneg (hbytes : 0 ≤ bytes) (h : start < stop) (hmoment : start ≤ moment) :
    0 ≤ share start stop bytes moment := by
  have hzero : share start stop bytes start = 0 := share_start
  exact le_of_eq_of_le hzero.symm (share_mono hbytes h hmoment)

theorem share_le (hbytes : 0 ≤ bytes) (h : start < stop) (hmoment : moment ≤ stop) :
    share start stop bytes moment ≤ bytes := by
  have hall : share start stop bytes stop = bytes := share_stop h
  exact le_of_le_of_eq (share_mono hbytes h hmoment) hall

end Share

/-- The domain: two moments of this age, and the bytes of a column. -/
structure Readable (start stop up down : ℤ) : Prop where
  nonneg : 0 ≤ start
  lt : start < stop
  bound : stop < 2 ^ 40
  ups : 0 ≤ up ∧ up < 2 ^ 63
  downs : 0 ≤ down ∧ down < 2 ^ 63

section Loop

variable {start stop up down : ℤ}

theorem allocated_eq {bytes moment : ℤ} (hstart : 0 ≤ start) (hlt : start < stop)
    (hstop : stop < 2 ^ 40) (hbytes : 0 ≤ bytes ∧ bytes < 2 ^ 63) (hafter : start ≤ moment)
    (hbefore : moment ≤ stop) :
    allocated start stop bytes moment = some (share start stop bytes moment) := by
  have hproduct : bytes * (moment - start) < 2 ^ 127 := by
    calc bytes * (moment - start) ≤ bytes * 2 ^ 40 :=
          Int.mul_le_mul_of_nonneg_left (by omega) hbytes.1
      _ < 2 ^ 127 := by omega
  have hnonneg : 0 ≤ bytes * (moment - start) := Int.mul_nonneg hbytes.1 (by omega)
  have hshare : (bytes * (moment - start)).tdiv (stop - start) = share start stop bytes moment :=
    Int.tdiv_eq_ediv_of_nonneg hnonneg
  unfold allocated
  rw [i64?_eq (by omega) (by omega), i64?_eq (by omega) (by omega)]
  simp only [Option.bind_eq_bind, Option.bind_some]
  rw [i128?_eq (by omega) hproduct, Option.bind_some, hshare]
  have hlow := share_nonneg hbytes.1 hlt hafter
  have hhigh := share_le hbytes.1 hlt hbefore
  exact i64?_eq (by omega) (by omega)

theorem nextHour_eq {cursor : ℤ} (hcursor : 0 ≤ cursor) (hlt : cursor < stop)
    (hstop : stop < 2 ^ 40) :
    nextHour cursor stop = some (min ((cursor / 3600 + 1) * 3600) stop) := by
  unfold nextHour
  rw [Int.tdiv_eq_ediv_of_nonneg hcursor, i64?_eq (by omega) (by omega)]
  simp only [Option.bind_eq_bind, Option.bind_some]
  rw [i64?_eq (by omega) (by omega), Option.bind_some]

theorem hourlyPart_eq (h : Readable start stop up down) {cursor next : ℤ}
    (hcursor : start ≤ cursor) (hnext : cursor ≤ next) (hstop : next ≤ stop) :
    hourlyPart start stop up down cursor next = some ⟨cursor / 3600 * 3600,
          share start stop up next - share start stop up cursor,
          share start stop down next - share start stop down cursor⟩ := by
  have hstart := h.nonneg
  have hend := h.bound
  have hu₁ := share_nonneg h.ups.1 h.lt hcursor
  have hu₂ := share_mono h.ups.1 h.lt hnext
  have hu₃ := share_le h.ups.1 h.lt hstop
  have hd₁ := share_nonneg h.downs.1 h.lt hcursor
  have hd₂ := share_mono h.downs.1 h.lt hnext
  have hd₃ := share_le h.downs.1 h.lt hstop
  have hup := h.ups.2
  have hdown := h.downs.2
  have hcursor' := hnext.trans hstop
  have hnext' := hcursor.trans hnext
  unfold hourlyPart
  rw [allocated_eq h.nonneg h.lt h.bound h.ups hnext' hstop,
    allocated_eq h.nonneg h.lt h.bound h.ups hcursor hcursor',
    allocated_eq h.nonneg h.lt h.bound h.downs hnext' hstop,
    allocated_eq h.nonneg h.lt h.bound h.downs hcursor hcursor',
    Int.tdiv_eq_ediv_of_nonneg (hstart.trans hcursor), i64?_eq (by omega) (by omega)]
  simp only [Option.bind_eq_bind, Option.bind_some]
  rw [i64?_eq (by omega) (by omega), i64?_eq (by omega) (by omega)]
  rfl

/-- How the hours from a moment on share what falls after it. -/
structure Split (start stop up down cursor : ℤ) (parts : List Part) : Prop where
  hours : ∀ bucket, bucket ∈ parts.map (·.bucket)
    ↔ ∃ moment, cursor ≤ moment ∧ moment < stop ∧ bucket = moment / 3600 * 3600
  ascending : (parts.map (·.bucket)).Pairwise (· < ·)
  nonneg : ∀ part ∈ parts, 0 ≤ part.up ∧ 0 ≤ part.down
  ups : (parts.map (·.up)).sum = up - share start stop up cursor
  downs : (parts.map (·.down)).sum = down - share start stop down cursor

theorem Split.nil (h : Readable start stop up down) : Split start stop up down stop [] where
  hours bucket := by
    refine ⟨fun hmem => absurd hmem List.not_mem_nil, ?_⟩
    rintro ⟨moment, hle, hlt, -⟩
    omega
  ascending := .nil
  nonneg _ hmem := absurd hmem List.not_mem_nil
  ups := by
    rw [share_stop h.lt]
    exact (Int.sub_self _).symm
  downs := by
    rw [share_stop h.lt]
    exact (Int.sub_self _).symm

theorem Split.cons (h : Readable start stop up down) {cursor : ℤ} {rest : List Part}
    (hlt : cursor < stop)
    (hrest : Split start stop up down (min ((cursor / 3600 + 1) * 3600) stop) rest) :
    Split start stop up down cursor
      (⟨cursor / 3600 * 3600, share start stop up (min ((cursor / 3600 + 1) * 3600) stop)
            - share start stop up cursor,
          share start stop down (min ((cursor / 3600 + 1) * 3600) stop)
            - share start stop down cursor⟩ :: rest) where
  hours bucket := by
    rw [List.map_cons, List.mem_cons, hrest.hours]
    refine ⟨?_, ?_⟩
    · rintro (rfl | ⟨moment, hle, hbefore, rfl⟩)
      · exact ⟨cursor, le_refl _, hlt, rfl⟩
      · exact ⟨moment, by omega, hbefore, rfl⟩
    · rintro ⟨moment, hle, hbefore, rfl⟩
      by_cases hsame : moment / 3600 = cursor / 3600
      · exact .inl (by rw [hsame])
      · exact .inr ⟨moment, by omega, hbefore, rfl⟩
  ascending := by
    rw [List.map_cons, List.pairwise_cons]
    refine ⟨fun bucket hbucket => ?_, hrest.ascending⟩
    obtain ⟨moment, hle, hbefore, rfl⟩ := (hrest.hours bucket).mp hbucket
    show cursor / 3600 * 3600 < moment / 3600 * 3600
    omega
  nonneg := by
    intro part hpart
    rcases List.mem_cons.mp hpart with rfl | hin
    · have hnext : cursor ≤ min ((cursor / 3600 + 1) * 3600) stop := by omega
      exact ⟨Int.sub_nonneg.mpr (share_mono h.ups.1 h.lt hnext),
        Int.sub_nonneg.mpr (share_mono h.downs.1 h.lt hnext)⟩
    · exact hrest.nonneg part hin
  ups := by
    rw [List.map_cons, List.sum_cons, hrest.ups]
    ring
  downs := by
    rw [List.map_cons, List.sum_cons, hrest.downs]
    ring

theorem hourlyLoop_spec (h : Readable start stop up down) {fuel : ℕ} {cursor : ℤ}
    (hcursor : start ≤ cursor) (hle : cursor ≤ stop) (hfuel : (stop - cursor).toNat < fuel) :
    ∃ parts, hourlyLoop start stop up down fuel cursor = some parts
      ∧ Split start stop up down cursor parts := by
  induction fuel generalizing cursor with
  | zero => omega
  | succ fuel ih =>
    unfold hourlyLoop
    by_cases hlt : cursor < stop
    · have hstart := h.nonneg
      have hnext : start ≤ min ((cursor / 3600 + 1) * 3600) stop := by omega
      obtain ⟨rest, hrun, hrest⟩ := ih hnext (by omega) (by omega)
      refine ⟨_, ?_, Split.cons h hlt hrest⟩
      rw [if_pos hlt, nextHour_eq (by omega) hlt h.bound]
      simp only [Option.bind_eq_bind, Option.bind_some]
      rw [hourlyPart_eq h hcursor (by omega) (by omega), Option.bind_some, hrun, Option.bind_some]
    · have heq : cursor = stop := by omega
      rw [if_neg hlt, heq]
      exact ⟨[], rfl, Split.nil h⟩

theorem firstHour_eq (hstop : 0 ≤ stop ∧ stop < 2 ^ 40) :
    firstHour stop = some ((stop / 3600 - 744) * 3600) := by
  unfold firstHour
  rw [Int.tdiv_eq_ediv_of_nonneg hstop.1, i64?_eq (by omega) (by omega)]
  simp only [Option.bind_eq_bind, Option.bind_some]
  exact i64?_eq (by omega) (by omega)

/-- **The hours of an interval get all its bytes**, from the first hour of the view on. -/
theorem hourlyParts_spec (h : Readable start stop up down) (hbytes : up ≠ 0 ∨ down ≠ 0) :
    ∃ parts, hourlyParts start stop up down = some parts
      ∧ Split start stop up down (max start ((stop / 3600 - 744) * 3600)) parts := by
  have hstart := h.nonneg
  have hlt := h.lt
  unfold hourlyParts
  rw [if_neg (by omega), firstHour_eq ⟨by omega, h.bound⟩]
  exact hourlyLoop_spec h (le_max_left _ _) (by omega) (Nat.lt_succ_self _)

theorem Split.all {parts : List Part}
    (hsplit : Split start stop up down (max start ((stop / 3600 - 744) * 3600)) parts)
    (hview : (stop / 3600 - 744) * 3600 ≤ start) :
    (parts.map (·.up)).sum = up ∧ (parts.map (·.down)).sum = down := by
  rw [max_eq_left hview] at hsplit
  rw [hsplit.ups, hsplit.downs, share_start, share_start, Int.sub_zero, Int.sub_zero]
  exact ⟨rfl, rfl⟩

theorem hourlyParts_zero (start stop : ℤ) : hourlyParts start stop 0 0 = some [] :=
  if_pos (.inr ⟨rfl, rfl⟩)

end Loop

end Brocade.SiteUsage
