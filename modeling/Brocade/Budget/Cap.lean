/-
A user's speed cap holds across machines.

What is issued in an interval is what the rate gives in it and one second's worth more, since
receipts are paced.  What the machines let through in it was issued in it or in the two seconds
before, since they charge it to receipts (`rate_cap`).
-/
import Brocade.Budget.Charge
import Mathlib.Data.Nat.Cast.Order.Field

namespace Brocade.Budget

open Pacing (within Paced)

variable {scope : Scope} {rate : ℕ}

/-- The scope's policy comes to the limit now. -/
def World.Limited (scope : Scope) (rate : ℕ) (w : World) : Prop :=
  (w.console.scopes scope).effect = some (.limited rate)

instance (scope : Scope) (rate : ℕ) (w : World) : Decidable (w.Limited scope rate) :=
  inferInstanceAs (Decidable (_ = _))

/-- A run along which it does so all the time. -/
def StaysLimited (scope : Scope) (rate : ℕ) : World → List Event → Prop
  | w, [] => w.Limited scope rate
  | w, event :: events => w.Limited scope rate ∧ StaysLimited scope rate (w.step event) events

instance decidableStaysLimited (scope : Scope) (rate : ℕ) :
    (w : World) → (events : List Event) → Decidable (StaysLimited scope rate w events)
  | _, [] => inferInstanceAs (Decidable (World.Limited scope rate _))
  | w, event :: events =>
    have := decidableStaysLimited scope rate (w.step event) events
    inferInstanceAs (Decidable (_ ∧ _))

theorem StaysLimited.head {w : World} {events : List Event}
    (h : StaysLimited scope rate w events) : w.Limited scope rate := by
  cases events with
  | nil => exact h
  | cons event events => exact h.1

namespace Inv

/-- **A step keeps everything**, as long as the limit is in force before and after it. -/
theorem step {w : World} (h : Inv scope rate w) (hbefore : w.Limited scope rate) {event : Event}
    (hafter : (w.step event).Limited scope rate) : Inv scope rate (w.step event) := by
  cases event with
  | tick elapsed =>
    show Inv scope rate (if elapsed < 0 then w else { w with now := w.now + elapsed })
    split
    · exact h
    · rename_i helapsed
      exact h.server_step (by linarith [not_lt.mp helapsed]) rfl
  | update edited policy replaceBaseRate exhausted =>
    exact h.server_step le_rfl (update_budgets hafter)
  | setUserAppQuota edited limitBytes => exact h.server_step le_rfl (setUserAppQuota_budgets hafter)
  | evaluate edited exhausted => exact h.server_step le_rfl rfl
  | budget dir i =>
    show Inv scope rate ((w.sent[i]?.map (w.call dir)).getD w)
    cases hsent : w.sent[i]? with
    | none => exact h
    | some sent => exact h.call hbefore dir (List.mem_of_getElem? hsent)
  | serve node client source bytes => exact h.serve node client source bytes
  | pass node client requestId => exact h.pass node client requestId
  | answer node client i remembered => exact h.answer node client i remembered
  | fail node client => exact h.setService ((h.service node).dropClient client)
  | synchronize node =>
    exact h.setService ((h.service node).clients (fun _ _ _ hfetch => hfetch) rfl rfl)
  | restart node => exact h.setService (.new scope node _ _ _)

theorem run {w : World} {events : List Event} (h : Inv scope rate w)
    (hlimited : StaysLimited scope rate w events) : Inv scope rate (w.run events) := by
  induction events generalizing w with
  | nil => exact h
  | cons event events ih => exact ih (h.step hlimited.head hlimited.2.head) hlimited.2

end Inv

theorem ServerOk.issued_le {w : World} (h : ServerOk scope rate w) (hrate : 1000 ≤ rate) {a b : ℚ}
    (hab : a ≤ b) :
    (within a b (onAccount scope w.issued) : ℚ) ≤ rate * (b - a) / 8 + rate / 8 := by
  have hpos : (0 : ℚ) < rate := by
    have : (1000 : ℚ) ≤ rate := by exact_mod_cast hrate
    linarith
  have hmost : ∀ t ∈ onAccount scope w.issued, t.amount ≤ rate / 8 := by
    intro t ht
    have hle := h.amount t ht
    rwa [max_eq_left (by omega)] at hle
  have hpaced := h.paced.within_le (by positivity) hmost hab
  have hsecond : ((rate / 8 : ℕ) : ℚ) ≤ rate / 8 := Nat.cast_div_le
  calc (within a b (onAccount scope w.issued) : ℚ)
      = rate / 8 * (8 / rate * within a b (onAccount scope w.issued)) := by field_simp
    _ ≤ rate / 8 * ((b - a) + 8 / rate * (rate / 8 : ℕ)) :=
        mul_le_mul_of_nonneg_left hpaced (by positivity)
    _ = rate * (b - a) / 8 + (rate / 8 : ℕ) := by field_simp
    _ ≤ rate * (b - a) / 8 + rate / 8 := by linarith

/-- **A user's cap holds across machines.**  While a scope's effect stays a limit, whatever the
nodes, the calls and their losses: the bytes of the receipts inserted during `T` seconds are at
most what the rate gives in them and one second more, and the bytes `admit` lets through on all
machines are at most that for two seconds longer. -/
theorem rate_cap (now : ℚ) (scopes : Scope → ScopeRows) (events : List Event) (scope : Scope)
    (R : ℕ) (hR : 1000 ≤ R) (hlimited : StaysLimited scope R (World.start now scopes) events)
    (from' T : ℚ) (hT : 0 ≤ T) : let w := (World.start now scopes).run events
    (within from' (from' + T) (onAccount scope w.issued) : ℚ) ≤ R * T / 8 + R / 8
      ∧ (within from' (from' + T) (onAccount scope w.admitted) : ℚ) ≤ R * (T + 2) / 8 + R / 8 := by
  intro w
  have h : Inv scope R w := (Inv.start now scopes).run hlimited
  constructor
  · have hissued := h.server.issued_le hR (show from' ≤ from' + T by linarith)
    rwa [add_sub_cancel_left] at hissued
  · have hcharged : (within from' (from' + T) (onAccount scope w.admitted) : ℚ)
        ≤ within (from' - 2) (from' + T) (onAccount scope w.issued) :=
      Nat.cast_le.mpr (h.charged.within_le from' (from' + T))
    have hissued := h.server.issued_le hR (show from' - 2 ≤ from' + T by linarith)
    have hspan : from' + T - (from' - 2) = T + 2 := by ring
    rw [hspan] at hissued
    exact hcharged.trans hissued

/-! ### A second of a slow cap -/

def aliceScope : Scope := ⟨"acme", "alice", "app"⟩

/-- 8000 bits a second for one user, no limit for the others. -/
def aliceRows (scope : Scope) : ScopeRows :=
  if scope = aliceScope then ⟨none, some 8000⟩ else ⟨none, none⟩

/-- Alice's access. -/
def aliceDirectory : Directory where
  grants := [⟨"acme", "alice", "in", "app"⟩]
  ingresses := Table.empty.put "in" ⟨"app", "n1"⟩
  forwarding := .empty
  available := [("acme", "alice")]

def firstRequest : String := "0123456789abcdef0123456789abcdef"

/-- The machine asks, the answer is lost once and repeated, and the first bytes go through. -/
def aliceEvents : List Event :=
  [.serve "n1" 0 "alice@acme#in" 100, .pass "n1" 0 firstRequest, .budget aliceDirectory 0,
    .tick (1 / 2), .budget aliceDirectory 0, .answer "n1" 0 0 true, .pass "n1" 0 firstRequest]

def aliceAccount : Account := ⟨some aliceScope, "n1", firstRequest⟩

theorem rate_cap_alice :
    ((World.start 0 aliceRows).run aliceEvents).issued = [⟨aliceAccount, 0, 1000⟩]
      ∧ ((World.start 0 aliceRows).run aliceEvents).admitted = [⟨aliceAccount, 1 / 2, 10⟩]
      ∧ (within 0 (0 + 1) (onAccount aliceScope ((World.start 0 aliceRows).run
          aliceEvents).admitted) : ℚ) ≤ (8000 : ℕ) * (1 + 2) / 8 + (8000 : ℕ) / 8 := by
  refine ⟨by decide +kernel, by decide +kernel, ?_⟩
  exact (rate_cap 0 aliceRows aliceEvents aliceScope 8000 (by decide) (by decide +kernel) 0 1
    (by decide +kernel)).2

end Brocade.Budget
