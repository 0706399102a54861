/-
Authenticated encryption, as it is used.

A text is sealed under a context with a number that is drawn for it.  It opens again under that
context, and nothing sealed under one context opens under another.  The numbers are drawn one after
the other, so a computation that seals is one that draws, and it may fail.
-/
import Mathlib.Control.Monad.Basic
import Mathlib.Data.List.Forall2

/-- What sealing promises: a number, a context and a text give a sealed one. -/
structure Aead where
  seal_ : ℕ → String → String → String
  open_ : String → String → Option String
  opens : ∀ number context text, open_ context (seal_ number context text) = some text
  bound : ∀ number context text other text',
    open_ other (seal_ number context text) = some text' → other = context

namespace Aead

theorem refuses (aead : Aead) (number : ℕ) {context other : String} (text : String)
    (h : other ≠ context) : aead.open_ other (aead.seal_ number context text) = none := by
  by_contra hopens
  obtain ⟨text', htext'⟩ := Option.ne_none_iff_exists'.mp hopens
  exact h (aead.bound number context text other text' htext')

end Aead

/-- A computation that draws numbers and may fail. -/
abbrev Drawing (ε α : Type) : Type := StateT ℕ (Except ε) α

namespace Drawing

variable {ε α β : Type}

theorem bind_eq_ok {x : Drawing ε α} {f : α → Drawing ε β} {n m : ℕ} {b : β} :
    (x >>= f) n = .ok (b, m) ↔ ∃ a k, x n = .ok (a, k) ∧ f a k = .ok (b, m) := by
  show (x n >>= fun r => f r.1 r.2) = .ok (b, m) ↔ _
  cases hx : x n with
  | error e =>
    show Except.error e = .ok (b, m) ↔ _
    simp
  | ok r =>
    show f r.1 r.2 = .ok (b, m) ↔ _
    constructor
    · intro h
      exact ⟨r.1, r.2, rfl, h⟩
    · intro h
      obtain ⟨a, k, hr, h⟩ := h
      cases hr
      exact h

@[simp] theorem pure_eq_ok {a b : α} {n m : ℕ} :
    (pure a : Drawing ε α) n = .ok (b, m) ↔ a = b ∧ n = m := by
  show Except.ok (a, n) = .ok (b, m) ↔ _
  simp

@[simp] theorem throw_ne_ok {e : ε} {r : α × ℕ} {n : ℕ} : (throw e : Drawing ε α) n ≠ .ok r := by
  show (Except.error e : Except ε (α × ℕ)) ≠ .ok r
  simp

/-- What needs no number. -/
def ofExcept (x : Except ε α) : Drawing ε α := fun n => x.map fun a => (a, n)

@[simp] theorem ofExcept_eq_ok {x : Except ε α} {a : α} {n m : ℕ} :
    ofExcept x n = .ok (a, m) ↔ x = .ok a ∧ n = m := by
  cases x with
  | error e => simp [ofExcept, Except.map]
  | ok b => simp [ofExcept, Except.map]

theorem related_of_mem {R : α → β → Prop} {as : List α} {bs : List β} (h : List.Forall₂ R as bs)
    {a : α} (ha : a ∈ as) : ∃ b ∈ bs, R a b := by
  induction h with
  | nil => simp at ha
  | @cons a' b as bs hab _ ih =>
    rcases List.mem_cons.mp ha with rfl | ha
    · exact ⟨b, List.mem_cons_self, hab⟩
    · obtain ⟨b', hb', hrel⟩ := ih ha
      exact ⟨b', List.mem_cons_of_mem _ hb', hrel⟩

theorem forall₂_of_mapM {f : α → Drawing ε β} {as : List α} : ∀ {bs : List β} {n m : ℕ},
    as.mapM f n = .ok (bs, m) → List.Forall₂ (fun a b => ∃ k l, f a k = .ok (b, l)) as bs := by
  induction as with
  | nil =>
    intro bs n m h
    rw [List.mapM_nil, pure_eq_ok] at h
    rw [← h.1]
    exact .nil
  | cons a as ih =>
    intro bs n m h
    rw [List.mapM_cons, bind_eq_ok] at h
    obtain ⟨b, k, hb, h⟩ := h
    obtain ⟨rest, l, hrest, h⟩ := bind_eq_ok.mp h
    rw [← (pure_eq_ok.mp h).1]
    exact .cons ⟨n, k, hb⟩ (ih hrest)

/-- Where what was made of every element can be gone on with, whatever was drawn before, the list
can: what comes of it is related to where it began. -/
theorem mapM_related {γ : Type} {f : β → Drawing ε γ} {R : α → β → Prop} {S : α → γ → Prop}
    {as : List α} {bs : List β} (h : List.Forall₂ R as bs)
    (hstep : ∀ a b, R a b → ∀ n, ∃ c m, f b n = .ok (c, m) ∧ S a c) :
    ∀ n, ∃ cs m, bs.mapM f n = .ok (cs, m) ∧ List.Forall₂ S as cs := by
  induction h with
  | nil => exact fun n => ⟨[], n, by simp, .nil⟩
  | cons hab _ ih =>
    intro n
    obtain ⟨c, k, hc, hac⟩ := hstep _ _ hab n
    obtain ⟨cs, m, hcs, hrest⟩ := ih k
    refine ⟨c :: cs, m, ?_, .cons hac hrest⟩
    rw [List.mapM_cons]
    exact bind_eq_ok.mpr ⟨c, k, hc, bind_eq_ok.mpr ⟨cs, m, hcs, pure_eq_ok.mpr ⟨rfl, rfl⟩⟩⟩

end Drawing
