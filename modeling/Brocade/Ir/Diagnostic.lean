/-
What the compiler reports.

A pass returns its diagnostics in the order it found them, and passes are put together by
appending.  Only errors block publication, so what publication guarantees is that no pass
reported one: `Clean`, which goes through appending and through every loop that collects.
-/
import Mathlib.Data.List.Nodup

namespace Brocade.Ir

/-- How serious a diagnostic is. -/
inductive Level where
  | error
  | warn
  | info
deriving DecidableEq

/-- One finding of the compiler. -/
structure Diagnostic where
  level : Level
  (code location message : String)

namespace Diagnostic

def error (code location message : String) : Diagnostic := ⟨.error, code, location, message⟩

def warn (code location message : String) : Diagnostic := ⟨.warn, code, location, message⟩

def info (code location message : String) : Diagnostic := ⟨.info, code, location, message⟩

@[simp] theorem error_level (code location message : String) :
    (error code location message).level = .error := rfl

@[simp] theorem warn_level (code location message : String) :
    (warn code location message).level = .warn := rfl

@[simp] theorem info_level (code location message : String) :
    (info code location message).level = .info := rfl

end Diagnostic

/-- How many there are of each level. -/
structure DiagnosticSummary where
  (errors warnings infos : ℕ)
  canPublish : Bool

/-- Neither info nor warn blocks. -/
def summarizeDiagnostics (diagnostics : List Diagnostic) : DiagnosticSummary :=
  let count := fun level => (diagnostics.filter fun diagnostic => diagnostic.level = level).length
  ⟨count .error, count .warn, count .info, count .error == 0⟩

/-- No error was reported. -/
def Clean (diagnostics : List Diagnostic) : Prop :=
  ∀ diagnostic ∈ diagnostics, diagnostic.level ≠ .error

theorem canPublish_iff {diagnostics : List Diagnostic} :
    (summarizeDiagnostics diagnostics).canPublish = true ↔ Clean diagnostics := by
  simp [summarizeDiagnostics, Clean]

@[simp] theorem clean_nil : Clean [] := fun _ h => absurd h List.not_mem_nil

variable {ds : List Diagnostic} {code location : String}

@[simp] theorem clean_append {es : List Diagnostic} : Clean (ds ++ es) ↔ Clean ds ∧ Clean es :=
  List.forall_mem_append

@[simp] theorem clean_cons {d : Diagnostic} : Clean (d :: ds) ↔ d.level ≠ .error ∧ Clean ds := by
  simp [Clean]

@[simp] theorem clean_flatMap {α : Type} {as : List α} {f : α → List Diagnostic} :
    Clean (as.flatMap f) ↔ ∀ a ∈ as, Clean (f a) := by
  simp only [Clean, List.mem_flatMap]
  constructor
  · intro h a ha d hd
    exact h d ⟨a, ha, hd⟩
  · rintro h d ⟨a, ha, hd⟩
    exact h a ha d hd

@[simp] theorem not_clean_error {message : String} : ¬ Clean (.error code location message :: ds) :=
  fun h => (clean_cons.mp h).1 rfl

@[simp] theorem clean_map {α : Type} {as : List α} {f : α → Diagnostic} :
    Clean (as.map f) ↔ ∀ a ∈ as, (f a).level ≠ .error := by
  simp [Clean]

/-- An error where something is wrong, nothing where not. -/
def errorIf (bad : Bool) (code location message : String) : List Diagnostic :=
  if bad then [.error code location message] else []

@[simp] theorem clean_errorIf {bad : Bool} {message : String} :
    Clean (errorIf bad code location message) ↔ bad = false := by
  cases bad <;> simp [errorIf]

def warnIf (bad : Bool) (code location message : String) : List Diagnostic :=
  if bad then [.warn code location message] else []

/-- Names claimed in order; a later claimant is reported together with the last holder. -/
def clashes {κ : Type} [DecidableEq κ] (report : κ → String → String → Diagnostic) :
    List (κ × String) → List (κ × String) → List Diagnostic
  | _, [] => []
  | held, (key, what) :: claims =>
    ((held.lookup key).map fun previous => report key previous what).toList
      ++ clashes report ((key, what) :: held) claims

/-- Names claimed by several projects; the first claimant keeps the name, and a later one is
reported if it belongs to another project. -/
def crossClashes {κ : Type} [DecidableEq κ] (report : κ → String → String → Diagnostic) :
    List (κ × ℕ × String) → List (κ × ℕ × String) → List Diagnostic
  | _, [] => []
  | held, (key, owner, what) :: claims =>
    match held.lookup key with
    | none => crossClashes report (held ++ [(key, owner, what)]) claims
    | some previous =>
      (if previous.1 ≠ owner then [report key previous.2 what] else [])
        ++ crossClashes report held claims

/-- Every value that occurred before is reported. -/
def uniqueBy (code location : String) : List String → List String → List Diagnostic
  | _, [] => []
  | seen, value :: values =>
    if value ∈ seen then
      .error code location s!"{value} 重复" :: uniqueBy code location seen values
    else uniqueBy code location (seen ++ [value]) values

/-- **Nothing is reported only of values that are all different.** -/
theorem nodup_of_clean_uniqueBy {values : List String}
    (h : Clean (uniqueBy code location [] values)) : values.Nodup := by
  have hgo : ∀ (values seen : List String), Clean (uniqueBy code location seen values) →
      values.Nodup ∧ ∀ value ∈ values, value ∉ seen := by
    intro values
    induction values with
    | nil => exact fun _ _ => ⟨List.nodup_nil, fun _ h => absurd h List.not_mem_nil⟩
    | cons value values ih =>
      intro seen h
      unfold uniqueBy at h
      by_cases hseen : value ∈ seen
      · rw [if_pos hseen] at h
        exact absurd h not_clean_error
      · rw [if_neg hseen] at h
        obtain ⟨hnodup, hfresh⟩ := ih _ h
        refine ⟨List.nodup_cons.mpr ⟨fun hmem => ?_, hnodup⟩, fun v hv => ?_⟩
        · exact hfresh value hmem (by simp)
        · rcases List.mem_cons.mp hv with rfl | hv
          · exact hseen
          · exact fun hmem => hfresh v hv (List.mem_append_left _ hmem)
  exact (hgo values [] h).1

end Brocade.Ir
