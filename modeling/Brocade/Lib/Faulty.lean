/-
Computations whose operations can fail.

An operation on the outside world can fail before or after it took effect, and the program
can be cut off at either point.  A failure is an answer: the program may handle it and go on
with what it remembers.  A crash is none: only the outside world is left.

A triple therefore has three ends.  `Triple P x Q F C` says of a computation begun in `P`
that it ends in `Q` when it returns, in `F` when it fails and in `C` when it is cut off.
-/
import Mathlib.Data.List.Induction

namespace Faulty

variable {σ ε α β : Type}

/-- Why a computation ended without a value. -/
inductive Stop (ε : Type) where
  | failed (error : ε)
  | crashed

/-- What an operation meets. -/
inductive Fault (ε : Type) where
  | none
  | fails (effect : Bool) (error : ε)
  | crashes (effect : Bool)

/-- The operation answers with an error. -/
def Fault.Fails : Fault ε → Prop
  | .fails _ _ => True
  | _ => False

instance (fault : Fault ε) : Decidable fault.Fails := by
  cases fault <;> unfold Fault.Fails <;> infer_instance

/-- Say the error in other words. -/
def Fault.map {δ : Type} (wrap : ε → δ) : Fault ε → Fault δ
  | .none => .none
  | .fails effect error => .fails effect (wrap error)
  | .crashes effect => .crashes effect

/-- The operation takes effect, whatever it answers. -/
def Fault.effective : Fault ε → Bool
  | .none => true
  | .fails effect _ => effect
  | .crashes effect => effect

/-- A computation over `σ`: its answer, and the state it leaves. -/
def Act (σ ε α : Type) : Type := σ → Except (Stop ε) α × σ

namespace Act

protected def pure (a : α) : Act σ ε α := fun s => (.ok a, s)

protected def bind (x : Act σ ε α) (f : α → Act σ ε β) : Act σ ε β := fun s =>
  match x s with
  | (.ok a, s') => f a s'
  | (.error stop, s') => (.error stop, s')

instance : Monad (Act σ ε) where
  pure := Act.pure
  bind := Act.bind

def get : Act σ ε σ := fun s => (.ok s, s)

def modify (f : σ → σ) : Act σ ε Unit := fun s => (.ok (), f s)

def fail (error : ε) : Act σ ε α := fun s => (.error (.failed error), s)

/-- Handle a failure as a value; a crash stays one. -/
def attempt (x : Act σ ε α) : Act σ ε (Except ε α) := fun s =>
  match x s with
  | (.ok a, s') => (.ok (.ok a), s')
  | (.error (.failed error), s') => (.ok (.error error), s')
  | (.error .crashed, s') => (.error .crashed, s')

/-- An operation that takes the state along `f`. -/
def perform (fault : Fault ε) (f : σ → σ) : Act σ ε Unit := fun s =>
  match fault with
  | .none => (.ok (), f s)
  | .fails effect error => (.error (.failed error), if effect then f s else s)
  | .crashes effect => (.error .crashed, if effect then f s else s)

/-- Do `f` for each in turn. -/
def each (f : α → Act σ ε Unit) : List α → Act σ ε Unit
  | [] => pure ()
  | a :: as => do
      f a
      each f as

end Act

/-! ### Runs

What a computation comes to from one state, when it is known what its operations meet. -/

namespace Act

theorem bind_assoc {γ : Type} (x : Act σ ε α) (f : α → Act σ ε β) (g : β → Act σ ε γ) :
    (x >>= f) >>= g = x >>= fun a => f a >>= g := by
  funext s
  show Act.bind (Act.bind x f) g s = Act.bind x (fun a => Act.bind (f a) g) s
  unfold Act.bind
  rcases x s with ⟨stop | a, s'⟩
  · rfl
  · rfl

theorem run_bind {x : Act σ ε α} {f : α → Act σ ε β} {a : α} {s s' : σ} (h : x s = (.ok a, s')) :
    (x >>= f) s = f a s' := by
  show Act.bind x f s = f a s'
  unfold Act.bind
  rw [h]

end Act

/-- From `s` it returns, in `Q`. -/
def Returns (x : Act σ ε α) (s : σ) (Q : α → σ → Prop) : Prop :=
  ∃ a s', x s = (.ok a, s') ∧ Q a s'

/-- From `s` it fails, in `F`. -/
def FailsIn (x : Act σ ε α) (s : σ) (F : ε → σ → Prop) : Prop :=
  ∃ error s', x s = (.error (.failed error), s') ∧ F error s'

section Runs

variable {s : σ} {Q : α → σ → Prop} {R : β → σ → Prop} {F : ε → σ → Prop}

theorem Returns.weaken {Q' : α → σ → Prop} {x : Act σ ε α} (h : Returns x s Q')
    (hQ : ∀ a t, Q' a t → Q a t) : Returns x s Q := by
  obtain ⟨a, t, hrun, ht⟩ := h
  exact ⟨a, t, hrun, hQ a t ht⟩

theorem Returns.pure {a : α} (h : Q a s) : Returns (Act.pure a : Act σ ε α) s Q := ⟨a, s, rfl, h⟩

theorem Returns.get {Q : σ → σ → Prop} (h : Q s s) : Returns (Act.get : Act σ ε σ) s Q :=
  ⟨s, s, rfl, h⟩

theorem Returns.modify {f : σ → σ} {Q : Unit → σ → Prop} (h : Q () (f s)) :
    Returns (Act.modify f : Act σ ε Unit) s Q :=
  ⟨(), f s, rfl, h⟩

theorem Returns.perform {fault : Fault ε} {f : σ → σ} {Q : Unit → σ → Prop} (hfault : fault = .none)
    (h : Q () (f s)) : Returns (Act.perform fault f : Act σ ε Unit) s Q := by
  rw [hfault]
  exact ⟨(), f s, rfl, h⟩

theorem FailsIn.perform {error : ε} {fault : Fault ε} {f : σ → σ}
    (hfault : fault = .fails false error) (h : F error s) :
    FailsIn (Act.perform fault f : Act σ ε Unit) s F := by
  rw [hfault]
  exact ⟨error, s, rfl, h⟩

theorem Returns.bind {x : Act σ ε α} {f : α → Act σ ε β} (hx : Returns x s Q)
    (hf : ∀ a t, Q a t → Returns (f a) t R) : Returns (x >>= f) s R := by
  obtain ⟨a, t, hrun, ht⟩ := hx
  obtain ⟨b, u, hrest, hu⟩ := hf a t ht
  refine ⟨b, u, ?_, hu⟩
  show Act.bind x f s = _
  unfold Act.bind
  rw [hrun]
  exact hrest

theorem Returns.bind_fails {x : Act σ ε α} {f : α → Act σ ε β} (hx : Returns x s Q)
    (hf : ∀ a t, Q a t → FailsIn (f a) t F) : FailsIn (x >>= f) s F := by
  obtain ⟨a, t, hrun, ht⟩ := hx
  obtain ⟨error, u, hrest, hu⟩ := hf a t ht
  refine ⟨error, u, ?_, hu⟩
  show Act.bind x f s = _
  unfold Act.bind
  rw [hrun]
  exact hrest

theorem Returns.handle {x : Act σ ε α} {f : Except ε α → Act σ ε β} (hx : Returns x s Q)
    (hf : ∀ a t, Q a t → Returns (f (.ok a)) t R) : Returns (x.attempt >>= f) s R := by
  obtain ⟨a, t, hrun, ht⟩ := hx
  refine Returns.bind (Q := fun answer u => answer = .ok a ∧ u = t) ⟨.ok a, t, ?_, rfl, rfl⟩ ?_
  · unfold Act.attempt
    rw [hrun]
  · rintro _ _ ⟨rfl, rfl⟩
    exact hf a _ ht

theorem FailsIn.handle {x : Act σ ε α} {f : Except ε α → Act σ ε β} (hx : FailsIn x s F)
    (hf : ∀ error t, F error t → Returns (f (.error error)) t R) :
    Returns (x.attempt >>= f) s R := by
  obtain ⟨error, t, hrun, ht⟩ := hx
  refine Returns.bind (Q := fun answer u => answer = .error error ∧ u = t)
    ⟨.error error, t, ?_, rfl, rfl⟩ ?_
  · unfold Act.attempt
    rw [hrun]
  · rintro _ _ ⟨rfl, rfl⟩
    exact hf error _ ht

theorem FailsIn.handle_fails {G : ε → σ → Prop} {x : Act σ ε α} {f : Except ε α → Act σ ε β}
    (hx : FailsIn x s F) (hf : ∀ error t, F error t → FailsIn (f (.error error)) t G) :
    FailsIn (x.attempt >>= f) s G := by
  obtain ⟨error, t, hrun, ht⟩ := hx
  refine Returns.bind_fails (Q := fun answer u => answer = .error error ∧ u = t)
    ⟨.error error, t, ?_, rfl, rfl⟩ ?_
  · unfold Act.attempt
    rw [hrun]
  · rintro _ _ ⟨rfl, rfl⟩
    exact hf error _ ht

/-- A loop: each turn takes what holds of the elements done to what holds with one more, from
the state in which the loop has come to it. -/
theorem Returns.each {f : α → Act σ ε Unit} {I : List α → σ → Prop} {as : List α} (hbegin : I [] s)
    (hturn : ∀ done a rest, done ++ a :: rest = as → ∀ t,
      Act.each f done s = (.ok (), t) → I done t → Returns (f a) t fun _ => I (done ++ [a])) :
    Returns (Act.each f as) s fun _ => I as := by
  have happend : ∀ (bs cs : List α) (t : σ), Act.each f bs s = (.ok (), t) →
      Act.each f (bs ++ cs) s = Act.each f cs t := by
    intro bs cs t ht
    have hloop : ∀ (bs : List α) (u : σ), Act.each f bs u = (.ok (), t) →
        Act.each f (bs ++ cs) u = Act.each f cs t := by
      intro bs
      induction bs with
      | nil =>
        intro u hu
        have heq : u = t := congrArg Prod.snd hu
        rw [List.nil_append, heq]
      | cons b bs ih =>
        intro u hu
        have hcons : ∀ rest, Act.each f (b :: rest) u
            = Act.bind (f b) (fun _ => Act.each f rest) u := fun _ => rfl
        rw [List.cons_append, hcons]
        rw [hcons] at hu
        unfold Act.bind at hu ⊢
        rcases hrun : f b u with ⟨stop | answer, v⟩
        · rw [hrun] at hu
          cases hu
        · rw [hrun] at hu
          exact ih v hu
    exact hloop bs s ht
  have hprefix : ∀ done rest, done ++ rest = as →
      ∃ t, Act.each f done s = (.ok (), t) ∧ I done t := by
    intro done
    induction done using List.reverseRecOn with
    | nil => exact fun _ _ => ⟨s, rfl, hbegin⟩
    | append_singleton done a ih =>
      intro rest hsplit
      rw [List.append_assoc, List.singleton_append] at hsplit
      obtain ⟨t, hrun, ht⟩ := ih (a :: rest) hsplit
      obtain ⟨answer, u, hstep, hu⟩ := hturn done a rest hsplit t hrun ht
      refine ⟨u, ?_, hu⟩
      rw [happend done [a] t hrun]
      show Act.bind (f a) (fun _ => Act.pure ()) t = _
      unfold Act.bind
      rw [hstep]
      rfl
  obtain ⟨t, hrun, ht⟩ := hprefix as [] (List.append_nil as)
  exact ⟨(), t, hrun, ht⟩

end Runs

/-! ### Triples -/

/-- Begun in `P`: it returns in `Q`, fails in `F` or is cut off in `C`. -/
def Triple (P : σ → Prop) (x : Act σ ε α) (Q : α → σ → Prop) (F : ε → σ → Prop)
    (C : σ → Prop) : Prop :=
  ∀ s, P s → match x s with
    | (.ok a, s') => Q a s'
    | (.error (.failed error), s') => F error s'
    | (.error .crashed, s') => C s'

namespace Triple

variable {P P' : σ → Prop} {Q Q' : α → σ → Prop} {F F' : ε → σ → Prop} {C C' : σ → Prop}

theorem weaken {x : Act σ ε α} (h : Triple P' x Q' F' C') (hP : ∀ s, P s → P' s)
    (hQ : ∀ a s, Q' a s → Q a s) (hF : ∀ error s, F' error s → F error s)
    (hC : ∀ s, C' s → C s) : Triple P x Q F C := by
  intro s hs
  have hend := h s (hP s hs)
  revert hend
  rcases x s with ⟨⟨error⟩ | a, s'⟩
  · cases error with
    | failed error => exact hF error s'
    | crashed => exact hC s'
  · exact hQ a s'

theorem pre {x : Act σ ε α} (h : Triple P' x Q F C) (hP : ∀ s, P s → P' s) : Triple P x Q F C :=
  h.weaken hP (fun _ _ hs => hs) (fun _ _ hs => hs) fun _ hs => hs

theorem post {x : Act σ ε α} (h : Triple P x Q' F C) (hQ : ∀ a s, Q' a s → Q a s) :
    Triple P x Q F C :=
  h.weaken (fun _ hs => hs) hQ (fun _ _ hs => hs) fun _ hs => hs

theorem failing {x : Act σ ε α} (h : Triple P x Q F' C) (hF : ∀ error s, F' error s → F error s) :
    Triple P x Q F C :=
  h.weaken (fun _ hs => hs) (fun _ _ hs => hs) hF fun _ hs => hs

theorem assume {x : Act σ ε α} (h : ∀ s, P s → Triple (fun t => t = s) x Q F C) :
    Triple P x Q F C :=
  fun s hs => h s hs s rfl

theorem bind {x : Act σ ε α} {f : α → Act σ ε β} {R : β → σ → Prop} (hx : Triple P x Q F C)
    (hf : ∀ a, Triple (Q a) (f a) R F C) : Triple P (x >>= f) R F C := by
  intro s hs
  have hend := hx s hs
  show match Act.bind x f s with
    | (.ok a, s') => R a s'
    | (.error (.failed error), s') => F error s'
    | (.error .crashed, s') => C s'
  unfold Act.bind
  revert hend
  rcases x s with ⟨⟨error⟩ | a, s'⟩
  · cases error with
    | failed error => exact id
    | crashed => exact id
  · exact fun hend => hf a s' hend

theorem get : Triple P (Act.get : Act σ ε σ) (fun a s => a = s ∧ P s) F C :=
  fun _ hs => ⟨rfl, hs⟩

theorem modify {f : σ → σ} {R : Unit → σ → Prop} (h : ∀ s, P s → R () (f s)) :
    Triple P (Act.modify f : Act σ ε Unit) R F C :=
  h

theorem attempt {x : Act σ ε α} {R : Except ε α → σ → Prop} {F : ε → σ → Prop}
    (h : Triple P x (fun a => R (.ok a)) (fun error => R (.error error)) C) :
    Triple P x.attempt R F C := by
  intro s hs
  have hend := h s hs
  unfold Act.attempt
  revert hend
  rcases x s with ⟨⟨error⟩ | a, s'⟩
  · cases error with
    | failed error => exact id
    | crashed => exact id
  · exact id

theorem handle {x : Act σ ε α} {f : Except ε α → Act σ ε β} {R : β → σ → Prop}
    {G : ε → σ → Prop} (hx : Triple P x Q G C) (hok : ∀ a, Triple (Q a) (f (.ok a)) R F C)
    (herror : ∀ error, Triple (G error) (f (.error error)) R F C) :
    Triple P (x.attempt >>= f) R F C := by
  let ended : Except ε α → σ → Prop := fun answer s =>
    match answer with
    | .ok a => Q a s
    | .error error => G error s
  refine bind (Q := ended) (attempt (R := ended) hx) fun answer => ?_
  cases answer with
  | error error => exact herror error
  | ok a => exact hok a

theorem perform {fault : Fault ε} {f : σ → σ} {R : Unit → σ → Prop} (hok : ∀ s, P s → R () (f s))
    (hfail : fault.Fails → ∀ error s, P s → F error s ∧ F error (f s))
    (hcrash : ∀ s, P s → C s ∧ C (f s)) : Triple P (Act.perform fault f) R F C := by
  intro s hs
  unfold Act.perform
  cases fault with
  | none => exact hok s hs
  | fails effect error =>
    have hends := hfail trivial error s hs
    cases effect with
    | false => exact hends.1
    | true => exact hends.2
  | crashes effect =>
    have hends := hcrash s hs
    cases effect with
    | false => exact hends.1
    | true => exact hends.2

/-- An operation whose errors are reworded, and whose effect is known from the fault. -/
theorem perform_map {δ : Type} {fault : Fault δ} {wrap : δ → ε} {f : σ → σ}
    {R : Unit → σ → Prop} (hok : fault = .none → ∀ s, P s → R () (f s))
    (hfail : ∀ error s, P s → F error (if fault.effective then f s else s))
    (hcrash : ∀ s, P s → C (if fault.effective then f s else s)) :
    Triple P (Act.perform (fault.map wrap) f) R F C := by
  intro s hs
  cases fault with
  | none => exact hok rfl s hs
  | fails effect error => exact hfail (wrap error) s hs
  | crashes effect => exact hcrash s hs

/-- A loop: what holds with `as` still to do, each turn takes to what holds of the rest. -/
theorem each {f : α → Act σ ε Unit} {I : List α → σ → Prop} {as : List α}
    (hturn : ∀ a rest, (∃ before, before ++ a :: rest = as) →
      Triple (I (a :: rest)) (f a) (fun _ => I rest) F C) :
    Triple (I as) (Act.each f as) (fun _ => I []) F C := by
  induction as with
  | nil => exact fun _ hs => hs
  | cons a rest ih =>
    refine bind (hturn a rest ⟨[], rfl⟩) fun _ => ih fun b more hmem => ?_
    obtain ⟨before, hsplit⟩ := hmem
    exact hturn b more ⟨a :: before, by rw [List.cons_append, hsplit]⟩

end Triple

end Faulty
