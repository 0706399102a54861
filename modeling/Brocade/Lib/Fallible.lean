/-
Computations that end in a value or an error.

A computation that ended well went through each of its parts (`bind_eq_ok`), and a fold
that ended well kept whatever each of its steps keeps (`foldlM_invariant`).
-/
import Mathlib.Data.List.Forall2

namespace Fallible

variable {ε α β σ : Type}

theorem bind_eq_ok {x : Except ε α} {f : α → Except ε β} {b : β} :
    (x >>= f) = .ok b ↔ ∃ a, x = .ok a ∧ f a = .ok b := by
  cases x with
  | error e =>
    show Except.error e = .ok b ↔ _
    simp
  | ok a =>
    show f a = .ok b ↔ _
    simp

theorem bind_eq_error {x : Except ε α} {f : α → Except ε β} {e : ε} :
    (x >>= f) = .error e ↔ x = .error e ∨ ∃ a, x = .ok a ∧ f a = .error e := by
  cases x with
  | error e' =>
    show Except.error e' = .error e ↔ _
    simp
  | ok a =>
    show f a = .error e ↔ _
    simp

@[simp] theorem pure_eq_ok {a b : α} : (pure a : Except ε α) = .ok b ↔ a = b := by
  show Except.ok a = .ok b ↔ a = b
  simp

theorem foldlM_invariant {f : σ → α → Except ε σ} {P : σ → Prop} {as : List α}
    (hstep : ∀ s a s', a ∈ as → P s → f s a = .ok s' → P s') {s s' : σ} (hs : P s)
    (h : as.foldlM f s = .ok s') : P s' := by
  induction as generalizing s with
  | nil =>
    rw [List.foldlM_nil, pure_eq_ok] at h
    exact h ▸ hs
  | cons a as ih =>
    rw [List.foldlM_cons, bind_eq_ok] at h
    obtain ⟨m, ha, hrest⟩ := h
    refine ih (fun s a' s' ha' => hstep s a' s' (List.mem_cons_of_mem _ ha')) ?_ hrest
    exact hstep s a m List.mem_cons_self hs ha

theorem foldlM_split {f : σ → α → Except ε σ} {before after : List α} {a : α} {s s' : σ}
    (h : (before ++ a :: after).foldlM f s = .ok s') :
    ∃ m m', before.foldlM f s = .ok m ∧ f m a = .ok m' ∧ after.foldlM f m' = .ok s' := by
  rw [List.foldlM_append, bind_eq_ok] at h
  obtain ⟨m, hbefore, h⟩ := h
  rw [List.foldlM_cons, bind_eq_ok] at h
  obtain ⟨m', ha, hafter⟩ := h
  exact ⟨m, m', hbefore, ha, hafter⟩

theorem mapM_eq_ok {f : α → Except ε β} {as : List α} : ∀ {bs : List β},
    as.mapM f = .ok bs ↔ List.Forall₂ (fun a b => f a = .ok b) as bs := by
  induction as with
  | nil =>
    intro bs
    rw [List.mapM_nil, pure_eq_ok, List.forall₂_nil_left_iff, eq_comm]
  | cons a as ih =>
    intro bs
    rw [List.mapM_cons, bind_eq_ok, List.forall₂_cons_left_iff]
    constructor
    · intro h
      obtain ⟨b, hb, h⟩ := h
      obtain ⟨rest, hrest, h⟩ := bind_eq_ok.mp h
      exact ⟨b, rest, hb, ih.mp hrest, (pure_eq_ok.mp h).symm⟩
    · intro h
      obtain ⟨b, rest, hb, hrest, rfl⟩ := h
      exact ⟨b, hb, bind_eq_ok.mpr ⟨rest, ih.mpr hrest, pure_eq_ok.mpr rfl⟩⟩

theorem mapM_ok_of_mem {f : α → Except ε β} {as : List α} {bs : List β} (h : as.mapM f = .ok bs)
    {a : α} (ha : a ∈ as) : ∃ b, f a = .ok b := by
  have hall := mapM_eq_ok.mp h
  clear h
  induction hall with
  | nil => cases ha
  | cons hb _ ih =>
    rcases List.mem_cons.mp ha with heq | ha
    · exact ⟨_, heq ▸ hb⟩
    · exact ih ha

theorem mapM_eq_error {f : α → Except ε β} {as : List α} {e : ε} (h : as.mapM f = .error e) :
    ∃ a ∈ as, f a = .error e := by
  induction as with
  | nil => cases h
  | cons a as ih =>
    rw [List.mapM_cons, bind_eq_error] at h
    rcases h with ha | ⟨b, -, h⟩
    · exact ⟨a, List.mem_cons_self, ha⟩
    · rcases bind_eq_error.mp h with hrest | ⟨bs, -, hpure⟩
      · obtain ⟨c, hc, herror⟩ := ih hrest
        exact ⟨c, List.mem_cons_of_mem _ hc, herror⟩
      · cases hpure

end Fallible
