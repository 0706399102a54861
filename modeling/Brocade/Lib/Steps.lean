/-
Runs of a machine whose steps can fail.

`Along step P as s t` says that the actions `as` apply one after another from `s`,
that `P` holds after every single one of them, and that the run ends in `t`.  It is
the shape of a safety statement about a plan: nothing in it is ever rejected, and
no prefix of it leaves the system in a state `P` excludes.
-/
import Mathlib.Data.List.Basic

namespace Steps

variable {σ α : Type} (step : σ → α → Option σ)

/-- Every action applies in turn, `P` holds after each, and the run ends in `t`. -/
def Along (P : σ → Prop) : List α → σ → σ → Prop
  | [], s, t => s = t
  | a :: as, s, t => ∃ m, step s a = some m ∧ P m ∧ Along P as m t

variable {step} {P Q : σ → Prop}

theorem Along.nil (s : σ) : Along step P [] s s := rfl

theorem Along.cons {a : α} {as : List α} {s m t : σ} (hstep : step s a = some m) (hm : P m)
    (hrest : Along step P as m t) : Along step P (a :: as) s t :=
  ⟨m, hstep, hm, hrest⟩

theorem Along.single {a : α} {s t : σ} (hstep : step s a = some t) (ht : P t) :
    Along step P [a] s t :=
  ⟨t, hstep, ht, rfl⟩

theorem Along.append {as bs : List α} {s m t : σ} (h₁ : Along step P as s m)
    (h₂ : Along step P bs m t) : Along step P (as ++ bs) s t := by
  induction as generalizing s with
  | nil => exact (show s = m from h₁) ▸ h₂
  | cons a as ih =>
    obtain ⟨n, hstep, hn, hrest⟩ := h₁
    exact ⟨n, hstep, hn, ih hrest⟩

theorem along_iff_foldlM {as : List α} {s t : σ} :
    Along step (fun _ => True) as s t ↔ as.foldlM step s = some t := by
  induction as generalizing s with
  | nil => simp [Along]
  | cons a as ih => simp [Along, ih, Option.bind_eq_some_iff]

/-! ### Runs whose steps meet a condition -/

variable (step) in
/-- Every step of a run meets a condition on the state it starts in and its action. -/
def Meets (R : σ → α → Prop) : List α → σ → Prop
  | [], _ => True
  | a :: as, s => R s a ∧ ∀ m, step s a = some m → Meets R as m

instance decidableMeets (R : σ → α → Prop) [∀ s a, Decidable (R s a)] :
    (as : List α) → (s : σ) → Decidable (Meets step R as s)
  | [], _ => inferInstanceAs (Decidable True)
  | a :: as, s =>
    have hrest : Decidable (∀ m, step s a = some m → Meets step R as m) :=
      match hstep : step s a with
      | none => .isTrue (by simp)
      | some m =>
        match decidableMeets R as m with
        | .isTrue hmeets => .isTrue (by simpa using hmeets)
        | .isFalse hmeets => .isFalse (by simpa using hmeets)
    inferInstanceAs (Decidable (_ ∧ _))

/-- **What the steps that meet the condition keep holds at the end of the run.** -/
theorem Meets.keeps {R : σ → α → Prop} (hkeep : ∀ s a m, P s → R s a → step s a = some m → P m) :
    ∀ {as : List α} {s t : σ}, P s → Meets step R as s → as.foldlM step s = some t → P t := by
  intro as
  induction as with
  | nil =>
    intro s t hs _ hrun
    rw [← Option.some.inj hrun]
    exact hs
  | cons a as ih =>
    intro s t hs hmeets hrun
    rw [List.foldlM_cons, Option.bind_eq_bind, Option.bind_eq_some_iff] at hrun
    obtain ⟨m, hstep, hrest⟩ := hrun
    exact ih (hkeep s a m hs hmeets.1 hstep) (hmeets.2 m hstep) hrest

/-! ### What a run writes down -/

variable (step) in
/-- What the steps of a run write. -/
def log {β : Type} (write : σ → α → List β) : List α → σ → List β
  | [], _ => []
  | a :: as, s => write s a ++ (step s a).elim [] (log write as)

/-- **An invariant of state and log that every step keeps holds at the end of the run.** -/
theorem log_keeps {β : Type} {write : σ → α → List β} {P : List β → σ → Prop}
    (hkeep : ∀ l s a m, P l s → step s a = some m → P (l ++ write s a) m) :
    ∀ {as : List α} {l : List β} {s t : σ}, P l s → as.foldlM step s = some t →
      P (l ++ log step write as s) t := by
  intro as
  induction as with
  | nil =>
    intro l s t hs hrun
    rw [log, List.append_nil, ← Option.some.inj hrun]
    exact hs
  | cons a as ih =>
    intro l s t hs hrun
    rw [List.foldlM_cons, Option.bind_eq_bind, Option.bind_eq_some_iff] at hrun
    obtain ⟨m, hstep, hrest⟩ := hrun
    rw [log, hstep, Option.elim_some, ← List.append_assoc]
    exact ih (hkeep l s a m hs hstep) hrest

end Steps
