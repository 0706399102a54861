/-
One budget for all connections.

Reservations never overlap as long as the shared instant is only moved on, and it is moved back
by a change of the rate alone.  What was reserved, or whose rate was read, before the change was
complete, is one part for a connection at most: a connection sleeps until its part is over.

The bytes of an interval follow from lengths: reservations one behind another that end in it have
together no more time than it has, the first of them apart, and each loses less than a nanosecond
to the division.
-/
import Brocade.MachineLimit.Budget
import Mathlib.Algebra.BigOperators.Group.List.Basic
import Mathlib.Tactic.Ring

namespace Brocade.MachineLimit

/-! ### What a connection is up to -/

/-- Every part the connection reserved is over. -/
def Ended (w : World) (conn : ℕ) : Prop :=
  ∀ r ∈ w.reservations, r.conn = conn → r.ends ≤ w.now

/-- The parts of a request that are over make up what is not left of it. -/
structure Served (w : World) (request : Request) : Prop where
  total : (request.parts.map Reservation.part).sum + request.remaining = request.count
  past : ∀ r ∈ request.parts, r ∈ w.reservations ∧ r.ends ≤ w.now

/-- What holds of a connection in a phase. -/
def PhaseOk (w : World) (conn : ℕ) : Phase → Prop
  | .idle => Ended w conn
  | .looping request => Ended w conn ∧ Served w request
  | .loaded request rate => Ended w conn ∧ Served w request ∧ 0 < rate
  | .sleeping request reservation =>
    Served w request ∧ reservation ∈ w.reservations ∧ reservation.part ≤ request.remaining
      ∧ ∀ r ∈ w.reservations, r.conn = conn → r = reservation ∨ r.ends ≤ w.now
  | .finished request zeroRead =>
    Ended w conn ∧ Served w request ∧ (zeroRead = true ∨ request.remaining = 0)

/-- The parts of a connection that are not over. -/
def pending (w : World) (conn : ℕ) : List Reservation :=
  w.reservations.filter fun r => r.conn = conn ∧ w.now < r.ends

/-- A reservation is for a bounded part and for the time it costs. -/
structure Measured (r : Reservation) : Prop where
  part : r.part ≤ partLimit r.rate
  ends : r.ends = r.starts + partDuration r.part r.rate

/-- An answer comes after all its parts, or after a zero rate. -/
def Answered (w : World) (answer : Answer) : Prop :=
  answer.zeroRead = true ∨ (answer.request.parts.map Reservation.part).sum = answer.request.count
      ∧ ∀ r ∈ answer.request.parts, r ∈ w.reservations ∧ r.ends ≤ answer.answeredAt

/-- The invariant of the shared instant. -/
structure Inv (w : World) : Prop where
  phases : ∀ conn, PhaseOk w conn (w.conns conn)
  /-- one part for a connection -/
  pending : ∀ conn, (pending w conn).length ≤ 1
  measured : ∀ r ∈ w.reservations, Measured r
  answered : ∀ answer ∈ w.answers, Answered w answer

section Preserve

variable {w w' : World} {conn : ℕ}

theorem inv_started (now : ℕ) (control : ApplicationControl) : Inv (started now control) where
  phases := fun _ _ hr => absurd hr List.not_mem_nil
  pending := fun _ => Nat.zero_le _
  measured := fun _ hr => absurd hr List.not_mem_nil
  answered := fun _ hanswer => absurd hanswer List.not_mem_nil

theorem Served.later {request : Request} (h : Served w request) (hnow : w.now ≤ w'.now)
    (hsub : ∀ r ∈ w.reservations, r ∈ w'.reservations) : Served w' request :=
  ⟨h.total, fun r hr => ⟨hsub r (h.past r hr).1, (h.past r hr).2.trans hnow⟩⟩

theorem PhaseOk.later {phase : Phase} (h : PhaseOk w conn phase) (hnow : w.now ≤ w'.now)
    (hsub : ∀ r ∈ w.reservations, r ∈ w'.reservations)
    (hown : ∀ r ∈ w'.reservations, r.conn = conn → r ∈ w.reservations) : PhaseOk w' conn phase := by
  have hended : Ended w conn → Ended w' conn := fun hend r hr hconn =>
    (hend r (hown r hr hconn) hconn).trans hnow
  cases phase with
  | idle => exact hended h
  | looping request => exact ⟨hended h.1, h.2.later hnow hsub⟩
  | loaded request rate => exact ⟨hended h.1, h.2.1.later hnow hsub, h.2.2⟩
  | sleeping request reservation =>
    obtain ⟨hserved, hmem, hpart, honly⟩ := h
    refine ⟨hserved.later hnow hsub, hsub _ hmem, hpart, fun r hr hconn => ?_⟩
    rcases honly r (hown r hr hconn) hconn with heq | hover
    · exact Or.inl heq
    · exact Or.inr (hover.trans hnow)
  | finished request zeroRead => exact ⟨hended h.1, h.2.1.later hnow hsub, h.2.2⟩

theorem Answered.later {answer : Answer} (h : Answered w answer)
    (hsub : ∀ r ∈ w.reservations, r ∈ w'.reservations) : Answered w' answer := by
  rcases h with hzero | ⟨hsum, hover⟩
  · exact Or.inl hzero
  · exact Or.inr ⟨hsum, fun r hr => ⟨hsub r (hover r hr).1, (hover r hr).2⟩⟩

theorem Inv.setPhase (h : Inv w) {phase : Phase} (hphase : PhaseOk w conn phase) :
    Inv (w.setPhase conn phase) where
  phases := by
    intro c
    show PhaseOk (w.setPhase conn phase) c (if c = conn then phase else w.conns c)
    by_cases hc : c = conn
    · rw [if_pos hc, hc]
      exact hphase.later (le_refl _) (fun _ hr => hr) fun _ hr _ => hr
    · rw [if_neg hc]
      exact (h.phases c).later (le_refl _) (fun _ hr => hr) fun _ hr _ => hr
  pending := h.pending
  measured := h.measured
  answered := h.answered

theorem Inv.unserved (h : Inv w) (hnow : w'.now = w.now) (hconns : w'.conns = w.conns)
    (hreservations : w'.reservations = w.reservations) (hanswers : w'.answers = w.answers) :
    Inv w' where
  phases := by
    intro c
    rw [hconns]
    refine (h.phases c).later (le_of_eq hnow.symm) ?_ ?_
    · exact fun r hr => hreservations.symm ▸ hr
    · exact fun r hr _ => hreservations ▸ hr
  pending := by
    intro c
    unfold MachineLimit.pending
    rw [hreservations, hnow]
    exact h.pending c
  measured := hreservations.symm ▸ h.measured
  answered := by
    intro answer hanswer
    rw [hanswers] at hanswer
    exact (h.answered answer hanswer).later fun r hr => hreservations.symm ▸ hr

theorem Inv.ticked (h : Inv w) (elapsed : ℕ) : Inv { w with now := w.now + elapsed } where
  phases := fun c => (h.phases c).later (Nat.le_add_right _ _) (fun _ hr => hr) fun _ hr _ => hr
  pending := by
    intro c
    refine le_trans (List.Sublist.length_le ?_) (h.pending c)
    refine List.monotone_filter_right _ fun r hr => ?_
    simp only [decide_eq_true_eq] at hr ⊢
    exact ⟨hr.1, lt_of_le_of_lt (Nat.le_add_right _ _) hr.2⟩
  measured := h.measured
  answered := h.answered

theorem Inv.reserved (h : Inv w) {request : Request} {rate : ℕ}
    (hphase : w.conns conn = .loaded request rate) :
    Inv { w.setPhase conn (.sleeping request (w.reservation conn request rate)) with
      next := (w.reservation conn request rate).ends
      reservations := w.reservation conn request rate :: w.reservations } := by
  obtain ⟨hended, hserved, -⟩ : PhaseOk w conn (.loaded request rate) := hphase ▸ h.phases conn
  have hsub : ∀ r ∈ w.reservations, r ∈ w.reservation conn request rate :: w.reservations :=
    fun r hr => List.mem_cons_of_mem _ hr
  refine ⟨fun c => ?_, fun c => ?_, ?_, fun answer hanswer => (h.answered answer hanswer).later hsub⟩
  · show PhaseOk _ c (if c = conn then _ else w.conns c)
    by_cases hc : c = conn
    · rw [if_pos hc, hc]
      refine ⟨hserved.later (le_refl _) hsub, List.mem_cons_self, Nat.min_le_left _ _, ?_⟩
      intro r hr hconn
      rcases List.mem_cons.mp hr with heq | hold
      · exact Or.inl heq
      · exact Or.inr (hended r hold hconn)
    · rw [if_neg hc]
      refine (h.phases c).later (le_refl _) hsub fun r hr hconn => ?_
      rcases List.mem_cons.mp hr with rfl | hold
      · exact absurd hconn.symm hc
      · exact hold
  · show (List.filter _ (_ :: w.reservations)).length ≤ 1
    by_cases hc : c = conn
    · subst hc
      have hnone : w.reservations.filter (fun r => decide (r.conn = c ∧ w.now < r.ends)) = [] := by
        refine List.filter_eq_nil_iff.mpr fun r hr => ?_
        simp only [decide_eq_true_eq, not_and, not_lt]
        exact hended r hr
      rw [List.filter_cons]
      split
      · exact le_of_eq (congrArg (· + 1) (congrArg List.length hnone))
      · exact le_of_le_of_eq (le_of_eq (congrArg List.length hnone)) rfl |>.trans (Nat.zero_le 1)
    · rw [List.filter_cons_of_neg]
      · exact h.pending c
      · simp only [decide_eq_true_eq, not_and]
        exact fun hconn => absurd hconn.symm hc
  · intro r hr
    rcases List.mem_cons.mp hr with rfl | hold
    · exact ⟨Nat.min_le_right _ _, rfl⟩
    · exact h.measured r hold

theorem Inv.answer (h : Inv w) {request : Request} {zeroRead : Bool}
    (hphase : w.conns conn = .finished request zeroRead) : Inv { w.setPhase conn .idle with
      answers := { conn, request, zeroRead, answeredAt := w.now, rate := w.rate } :: w.answers } := by
  obtain ⟨hended, hserved, hdone⟩ : PhaseOk w conn (.finished request zeroRead) :=
    hphase ▸ h.phases conn
  have hidle : Inv (w.setPhase conn .idle) := h.setPhase hended
  have hphases : ∀ c, PhaseOk { w.setPhase conn .idle with
      answers := { conn, request, zeroRead, answeredAt := w.now, rate := w.rate } :: w.answers }
      c ((w.setPhase conn .idle).conns c) := fun c =>
    (hidle.phases c).later (le_refl _) (fun _ hr => hr) fun _ hr _ => hr
  refine ⟨hphases, hidle.pending, hidle.measured, fun answer hanswer => ?_⟩
  rcases List.mem_cons.mp hanswer with rfl | hold
  · rcases hdone with hzero | hremaining
    · exact Or.inl hzero
    · refine Or.inr ⟨?_, hserved.past⟩
      have htotal := hserved.total
      rw [hremaining] at htotal
      exact htotal
  · exact (h.answered answer hold).later fun _ hr => hr

theorem Inv.step {event : Event} (h : Inv w) (hstep : step w event = some w') : Inv w' := by
  cases event with
  | tick elapsed =>
    cases hstep
    exact h.ticked elapsed
  | request conn token count =>
    simp only [MachineLimit.step, serveRequest] at hstep
    split at hstep
    · next hidle =>
        split at hstep
        · cases hstep
          refine h.setPhase ⟨?_, Nat.zero_add count, fun r hr => absurd hr List.not_mem_nil⟩
          have hphase := h.phases conn
          rw [hidle] at hphase
          exact hphase
        · cases hstep
          exact h
    · cases hstep
  | load conn =>
    simp only [MachineLimit.step, serveLoad] at hstep
    split at hstep
    · next request hlooping =>
        have hphase := h.phases conn
        rw [hlooping] at hphase
        split at hstep
        · next hremaining =>
            cases hstep
            exact h.setPhase ⟨hphase.1, hphase.2, Or.inr hremaining⟩
        · split at hstep
          · cases hstep
            exact h.setPhase ⟨hphase.1, hphase.2, Or.inl rfl⟩
          · next hrate =>
              cases hstep
              exact h.setPhase ⟨hphase.1, hphase.2, Nat.pos_of_ne_zero hrate⟩
    · cases hstep
  | reserve conn =>
    simp only [MachineLimit.step, serveReserve] at hstep
    split at hstep
    · next request rate hloaded =>
        cases hstep
        exact h.reserved hloaded
    · cases hstep
  | wake conn =>
    simp only [MachineLimit.step, serveWake] at hstep
    split at hstep
    · next request reservation hsleeping =>
        have hphase := h.phases conn
        rw [hsleeping] at hphase
        obtain ⟨hserved, hmem, hpart, honly⟩ := hphase
        split at hstep
        · next hover =>
            cases hstep
            refine h.setPhase ⟨fun r hr hconn => ?_, ?_, fun r hr => ?_⟩
            · rcases honly r hr hconn with rfl | hr
              · exact hover
              · exact hr
            · have htotal := hserved.total
              show (List.map _ (reservation :: request.parts)).sum + _ = request.count
              rw [List.map_cons, List.sum_cons]
              show reservation.part + _ + (request.remaining - reservation.part) = request.count
              omega
            · rcases List.mem_cons.mp hr with rfl | hr
              · exact ⟨hmem, hover⟩
              · exact hserved.past r hr
        · cases hstep
    · cases hstep
  | answer conn =>
    simp only [MachineLimit.step, serveAnswer] at hstep
    split at hstep
    · next request zeroRead hfinished =>
        cases hstep
        exact h.answer hfinished
    · cases hstep
  | drop conn =>
    simp only [MachineLimit.step, serveDrop] at hstep
    have hphase := h.phases conn
    cases hconn : w.conns conn with
    | idle =>
      rw [hconn] at hstep hphase
      cases hstep
      exact h.setPhase hphase
    | looping request =>
      rw [hconn] at hstep hphase
      cases hstep
      exact h.setPhase hphase.1
    | loaded request rate =>
      rw [hconn] at hstep
      cases hstep
    | sleeping request reservation =>
      rw [hconn] at hstep
      cases hstep
    | finished request zeroRead =>
      rw [hconn] at hstep hphase
      cases hstep
      exact h.setPhase hphase.1
  | configure enabled rate written =>
    simp only [MachineLimit.step, changeRate] at hstep
    split at hstep
    · split at hstep
      · cases hstep
        exact h
      · split at hstep
        · cases hstep
          exact h.unserved rfl rfl rfl rfl
        · cases hstep
          exact h
    · cases hstep
  | readClock =>
    simp only [MachineLimit.step] at hstep
    split at hstep
    · cases hstep
      exact h.unserved rfl rfl rfl rfl
    · cases hstep
  | resetNext =>
    simp only [MachineLimit.step] at hstep
    split at hstep
    · cases hstep
      exact h.unserved rfl rfl rfl rfl
    · cases hstep

theorem Inv.run {events : List Event} (h : Inv w) (hrun : events.foldlM MachineLimit.step w = some w') :
    Inv w' := by
  induction events generalizing w with
  | nil =>
    cases hrun
    exact h
  | cons event events ih =>
    obtain ⟨m, hstep, hrest⟩ := Option.bind_eq_some_iff.mp hrun
    exact ih (h.step hstep) hrest

end Preserve

/-! ### A period of one rate -/

/-- The rate is set, and no change of it is under way. -/
def Constant (rate : ℕ) (w : World) : Prop := w.rate = rate ∧ w.change = .none

/-- The parts of a connection at another rate. -/
def stale (rate conn : ℕ) (made : List Reservation) : List Reservation :=
  made.filter fun r => r.conn = conn ∧ r.rate ≠ rate

/-- What holds at `w` of a period that began at `s`, in which `made` was reserved. -/
structure During (rate : ℕ) (s : World) (made : List Reservation) (w : World) : Prop where
  reservations : w.reservations = made ++ s.reservations
  apart : made.Pairwise fun later earlier => earlier.ends ≤ later.starts
  behind : ∀ r ∈ made, r.ends ≤ w.next
  exempt : ∀ conn, (pending s conn).length + (stale rate conn made).length ≤ 1
  /-- a rate of before the period is reserved with once at most -/
  fresh : ∀ conn request other, w.conns conn = .loaded request other → other ≠ rate →
    (pending s conn).length + (stale rate conn made).length = 0

section Period

variable {rate : ℕ} {s w w' : World} {made : List Reservation}

theorem during_start (h : Inv s) : During rate s [] s where
  reservations := rfl
  apart := List.Pairwise.nil
  behind := fun r hr => absurd hr List.not_mem_nil
  exempt := h.pending
  fresh := by
    intro conn request other hloaded _
    obtain ⟨hended, -⟩ : PhaseOk s conn (.loaded request other) := hloaded ▸ h.phases conn
    refine List.length_eq_zero_iff.mpr (List.filter_eq_nil_iff.mpr fun r hr => ?_)
    simp only [decide_eq_true_eq, not_and, not_lt]
    exact hended r hr

section

variable (h : During rate s made w)

include h

theorem During.unreserved (hreservations : w'.reservations = w.reservations)
    (hnext : w'.next = w.next)
    (hloaded : ∀ conn request other, w'.conns conn = .loaded request other →
      w.conns conn = .loaded request other ∨ other = rate) : During rate s made w' where
  reservations := hreservations.trans h.reservations
  apart := h.apart
  behind := hnext.symm ▸ h.behind
  exempt := h.exempt
  fresh := by
    intro conn request other hphase hother
    rcases hloaded conn request other hphase with hold | hsame
    · exact h.fresh conn request other hold hother
    · exact absurd hsame hother

theorem During.setPhase {conn : ℕ} {phase : Phase}
    (hphase : ∀ request other, phase = .loaded request other → other = rate) :
    During rate s made (w.setPhase conn phase) := by
  refine h.unreserved rfl rfl fun c request other hloaded => ?_
  have hcases : (if c = conn then phase else w.conns c) = .loaded request other := hloaded
  by_cases hc : c = conn
  · rw [if_pos hc] at hcases
    exact Or.inr (hphase request other hcases)
  · rw [if_neg hc] at hcases
    exact Or.inl hcases

theorem During.reserved {conn : ℕ} {request : Request} {other : ℕ}
    (hphase : w.conns conn = .loaded request other) :
    During rate s (w.reservation conn request other :: made)
      { w.setPhase conn (.sleeping request (w.reservation conn request other)) with
        next := (w.reservation conn request other).ends
        reservations := w.reservation conn request other :: w.reservations } := by
  have hnext : w.next ≤ (w.reservation conn request other).starts := Nat.le_max_left _ _
  have hends : (w.reservation conn request other).starts
      ≤ (w.reservation conn request other).ends := Nat.le_add_right _ _
  have hstale : ∀ c, c ≠ conn ∨ other = rate →
      stale rate c (w.reservation conn request other :: made) = stale rate c made := by
    intro c hc
    refine List.filter_cons_of_neg ?_
    simp only [decide_eq_true_eq, not_and, not_not]
    intro hconn
    exact hc.resolve_left fun hne => hne hconn.symm
  refine ⟨congrArg _ h.reservations, ?_, ?_, ?_, ?_⟩
  · exact List.pairwise_cons.mpr ⟨fun r hr => (h.behind r hr).trans hnext, h.apart⟩
  · intro r hr
    rcases List.mem_cons.mp hr with rfl | hold
    · exact le_refl _
    · exact ((h.behind r hold).trans hnext).trans hends
  · intro c
    by_cases hc : c ≠ conn ∨ other = rate
    · rw [hstale c hc]
      exact h.exempt c
    · obtain ⟨hsame, hother⟩ := not_or.mp hc
      have hfresh := h.fresh conn request other hphase hother
      have hconn : c = conn := not_not.mp hsame
      subst hconn
      have hone : (stale rate c (w.reservation c request other :: made)).length
          ≤ (stale rate c made).length + 1 := by
        unfold stale
        rw [List.filter_cons]
        split
        · exact le_refl _
        · exact Nat.le_succ _
      omega
  · intro c request' other' hloaded hother'
    have hcases : (if c = conn then .sleeping request (w.reservation conn request other)
        else w.conns c) = Phase.loaded request' other' := hloaded
    by_cases hc : c = conn
    · rw [if_pos hc] at hcases
      cases hcases
    · rw [if_neg hc] at hcases
      rw [hstale c (Or.inl hc)]
      exact h.fresh c request' other' hcases hother'

theorem During.step (hconstant : Constant rate w) (hconstant' : Constant rate w') {event : Event}
    (hstep : MachineLimit.step w event = some w') : ∃ more, During rate s (more ++ made) w' := by
  have hsame : ∀ {m : World}, During rate s made m → ∃ more, During rate s (more ++ made) m :=
    fun hm => ⟨[], hm⟩
  cases event with
  | tick elapsed =>
    cases hstep
    exact hsame (h.unreserved rfl rfl fun _ _ _ hloaded => Or.inl hloaded)
  | request conn token count =>
    simp only [MachineLimit.step, serveRequest] at hstep
    split at hstep
    · split at hstep
      · cases hstep
        exact hsame (h.setPhase fun _ _ heq => by cases heq)
      · cases hstep
        exact hsame h
    · cases hstep
  | load conn =>
    simp only [MachineLimit.step, serveLoad] at hstep
    split at hstep
    · split at hstep
      · cases hstep
        exact hsame (h.setPhase fun _ _ heq => by cases heq)
      · split at hstep
        · cases hstep
          exact hsame (h.setPhase fun _ _ heq => by cases heq)
        · cases hstep
          refine hsame (h.setPhase fun _ _ heq => ?_)
          cases heq
          exact hconstant.1
    · cases hstep
  | reserve conn =>
    simp only [MachineLimit.step, serveReserve] at hstep
    split at hstep
    · next request other hloaded =>
        cases hstep
        exact ⟨[w.reservation conn request other], h.reserved hloaded⟩
    · cases hstep
  | wake conn =>
    simp only [MachineLimit.step, serveWake] at hstep
    split at hstep
    · split at hstep
      · cases hstep
        exact hsame (h.setPhase fun _ _ heq => by cases heq)
      · cases hstep
    · cases hstep
  | answer conn =>
    simp only [MachineLimit.step, serveAnswer] at hstep
    split at hstep
    · cases hstep
      have hidle : During rate s made (w.setPhase conn .idle) :=
        h.setPhase fun _ _ heq => by cases heq
      exact hsame (hidle.unreserved rfl rfl fun _ _ _ hloaded => Or.inl hloaded)
    · cases hstep
  | drop conn =>
    simp only [MachineLimit.step, serveDrop] at hstep
    split at hstep
    · cases hstep
    · cases hstep
    · cases hstep
      exact hsame (h.setPhase fun _ _ heq => by cases heq)
  | configure enabled asked written =>
    simp only [MachineLimit.step, changeRate] at hstep
    split at hstep
    · split at hstep
      · cases hstep
        exact hsame h
      · split at hstep
        · cases hstep
          cases hconstant'.2
        · cases hstep
          exact hsame h
    · cases hstep
  | readClock =>
    simp only [MachineLimit.step] at hstep
    rw [hconstant.2] at hstep
    cases hstep
  | resetNext =>
    simp only [MachineLimit.step] at hstep
    rw [hconstant.2] at hstep
    cases hstep

theorem During.run {events : List Event} (hconstant : Constant rate w)
    (hrun : Steps.Along MachineLimit.step (Constant rate) events w w') :
    ∃ made', During rate s made' w' := by
  induction events generalizing w made with
  | nil => exact ⟨made, (show w = w' from hrun) ▸ h⟩
  | cons event events ih =>
    obtain ⟨m, hstep, hm, hrest⟩ := hrun
    obtain ⟨more, hmore⟩ := h.step hconstant hm hstep
    exact ih hmore hm hrest

end

end Period

/-! ### Bytes and time -/

/-- The reservations at a rate that end in an interval, its ends included. -/
def endingIn (rate a b : ℕ) (made : List Reservation) : List Reservation :=
  made.filter fun r => r.rate = rate ∧ a ≤ r.ends ∧ r.ends ≤ b

theorem Measured.bytes_lt {r : Reservation} (h : Measured r) (hrate : 0 < r.rate) :
    r.part * 8000000000 < r.rate * (r.ends - r.starts + 1) := by
  have hlength : r.ends - r.starts = r.part * 8000000000 / r.rate := by
    rw [h.ends, Nat.add_sub_cancel_left]
    rfl
  rw [hlength]
  exact Nat.lt_mul_div_succ _ hrate

theorem bytes_le {rate a b : ℕ} {made : List Reservation} (hrate : 0 < rate) (hab : a ≤ b)
    (hsame : ∀ r ∈ made, r.rate = rate) (hmeasured : ∀ r ∈ made, Measured r)
    (hin : ∀ r ∈ made, a ≤ r.ends ∧ r.ends ≤ b)
    (hapart : made.Pairwise fun later earlier => earlier.ends ≤ later.starts) :
    8000000000 * (made.map Reservation.part).sum
      ≤ rate * (b - a) + 8000000000 * partLimit rate + rate * made.length := by
  induction made generalizing b with
  | nil => simp
  | cons r rest ih =>
    obtain ⟨hbehind, hrest⟩ := List.pairwise_cons.mp hapart
    have hr := hmeasured r List.mem_cons_self
    have hrrate := hsame r List.mem_cons_self
    have hpart : r.part ≤ partLimit rate := hrrate ▸ hr.part
    have hrin := hin r List.mem_cons_self
    rw [List.map_cons, List.sum_cons, List.length_cons]
    by_cases hnil : rest = []
    · subst hnil
      simp only [List.map_nil, List.sum_nil, List.length_nil, Nat.add_zero]
      have := Nat.mul_le_mul_left 8000000000 hpart
      omega
    · -- what is left ends before this one starts
      obtain ⟨earlier, hearlier⟩ := List.exists_mem_of_ne_nil rest hnil
      have hstarts : a ≤ r.starts := (hin earlier (List.mem_cons_of_mem _ hearlier)).1.trans
        (hbehind earlier hearlier)
      have hends : r.starts ≤ r.ends := hr.ends ▸ Nat.le_add_right _ _
      have hbefore := ih hstarts (fun x hx => hsame x (List.mem_cons_of_mem _ hx))
        (fun x hx => hmeasured x (List.mem_cons_of_mem _ hx))
        (fun x hx => ⟨(hin x (List.mem_cons_of_mem _ hx)).1, hbehind x hx⟩) hrest
      have hown := hr.bytes_lt (hrrate ▸ hrate)
      rw [hrrate] at hown
      have hspan : rate * (r.starts - a) + rate * (r.ends - r.starts) ≤ rate * (b - a) := by
        rw [← Nat.mul_add]
        exact Nat.mul_le_mul_left rate (by omega)
      calc 8000000000 * (r.part + (rest.map Reservation.part).sum)
          = r.part * 8000000000 + 8000000000 * (rest.map Reservation.part).sum := by ring
        _ ≤ rate * (r.ends - r.starts + 1) + (rate * (r.starts - a)
              + 8000000000 * partLimit rate + rate * rest.length) :=
            Nat.add_le_add hown.le hbefore
        _ = (rate * (r.starts - a) + rate * (r.ends - r.starts)) + 8000000000 * partLimit rate
              + rate * (rest.length + 1) := by ring
        _ ≤ rate * (b - a) + 8000000000 * partLimit rate + rate * (rest.length + 1) := by
            exact Nat.add_le_add_right (Nat.add_le_add_right hspan _) _

/-- What a period of one rate keeps to, with `made` reserved in it. -/
structure Shared (rate : ℕ) (s t : World) (made : List Reservation) : Prop where
  /-- one reservation ends before the next one starts -/
  apart : made.Pairwise fun later earlier => earlier.ends ≤ later.starts
  /-- of what was reserved before, or at a rate of before, a connection has one part at most -/
  exempt : ∀ conn, (pending s conn).length + (stale rate conn made).length ≤ 1
  measured : ∀ r ∈ made, r.part ≤ partLimit r.rate ∧ r.ends = r.starts + partDuration r.part r.rate
  answered : ∀ answer ∈ t.answers, Answered t answer
  bytes : ∀ a b, a ≤ b → 8000000000 * ((endingIn rate a b made).map Reservation.part).sum
    ≤ rate * (b - a) + 8000000000 * partLimit rate + rate * (endingIn rate a b made).length

/-- **One budget for all.**  In a period of one rate, from when the change to it is complete, the
reservations of all connections are one behind another, and what ends in any interval of it is
what the rate gives in that time, but for one part and what division loses. -/
theorem budget_shared (origin : ℕ) (control : ApplicationControl) (before events : List Event)
    (s t : World) (rate : ℕ) (hreach : before.foldlM step (started origin control) = some s)
    (hrate : 1000 ≤ rate) (hconstant : Constant rate s)
    (hrun : Steps.Along step (Constant rate) events s t) :
    ∃ made, t.reservations = made ++ s.reservations ∧ Shared rate s t made := by
  have hs : Inv s := (inv_started origin control).run hreach
  have ht : Inv t := by
    have hend : events.foldlM step s = some t := ?_
    · exact hs.run hend
    clear hs hreach hconstant
    induction events generalizing s with
    | nil => exact congrArg some (show s = t from hrun)
    | cons event events ih =>
      obtain ⟨m, hstep, -, hrest⟩ := hrun
      exact Option.bind_eq_some_iff.mpr ⟨m, hstep, ih m hrest⟩
  have hstart : During rate s [] s := during_start hs
  obtain ⟨made, hmade⟩ := hstart.run hconstant hrun
  have hmeasured : ∀ r ∈ made, Measured r := fun r hr =>
    ht.measured r (hmade.reservations.symm ▸ List.mem_append_left _ hr)
  refine ⟨made, hmade.reservations, hmade.apart, hmade.exempt,
    fun r hr => ⟨(hmeasured r hr).part, (hmeasured r hr).ends⟩, ht.answered, fun a b hab => ?_⟩
  have hin : ∀ r ∈ endingIn rate a b made, r ∈ made ∧ r.rate = rate ∧ a ≤ r.ends ∧ r.ends ≤ b := by
    intro r hr
    obtain ⟨hmem, hfilter⟩ := List.mem_filter.mp hr
    exact ⟨hmem, by simpa using hfilter⟩
  exact bytes_le (by omega) hab (fun r hr => (hin r hr).2.1)
    (fun r hr => hmeasured r (hin r hr).1) (fun r hr => (hin r hr).2.2)
    (hmade.apart.sublist List.filter_sublist)

/-- A control with the cap `rate`, or none. -/
def controlAt (rate : ℕ) : ApplicationControl where
  enabled := rate ≠ 0
  rateBps := rate
  progress := true
  endpoint := "127.0.0.1:1024"
  token := "0123456789abcdef0123456789abcdef"

/-- A connection asks for a thousand bytes, and reserves them. -/
def reserving (conn : ℕ) : List Event :=
  [.request conn (controlAt 0).token 1000, .load conn, .reserve conn]

theorem budget_shared_two : ∃ t made, t.reservations = made ∧ Shared 80000
    (started 0 (controlAt 80000)) t made
      ∧ made.map (fun r => (r.conn, r.starts, r.ends)) = [(2, 100000000, 200000000), (1, 0, 100000000)] := by
  obtain ⟨made, hmade, hshared⟩ := budget_shared 0 (controlAt 80000) [] (reserving 1 ++ reserving 2)
    (started 0 (controlAt 80000)) _ 80000 rfl (by decide) ⟨rfl, rfl⟩
    ⟨_, rfl, ⟨rfl, rfl⟩, _, rfl, ⟨rfl, rfl⟩, _, rfl, ⟨rfl, rfl⟩, _, rfl, ⟨rfl, rfl⟩,
      _, rfl, ⟨rfl, rfl⟩, _, rfl, ⟨rfl, rfl⟩, rfl⟩
  refine ⟨_, made, hmade.trans (List.append_nil _), hshared, ?_⟩
  rw [← hmade.trans (List.append_nil _)]
  rfl

/-- While a change is not complete, what a request that was there before it reserves at the new rate
is not reckoned with: the same time is reserved twice, and twice the part ends at one instant. -/
theorem change_overlaps : ∃ r s t,
    step (started 0 (controlAt 0)) (.request 1 (controlAt 0).token 1000) = some r
      ∧ step r (.configure true (some 80000) true) = some s
      ∧ Steps.Along step (fun w => w.rate = 80000 ∧ w.control.rateBps = 80000)
        ([.load 1, .reserve 1, .readClock, .resetNext] ++ reserving 2) s t
      ∧ t.reservations = [⟨2, 80000, 1000, 0, 100000000⟩, ⟨1, 80000, 1000, 0, 100000000⟩]
      ∧ 80000 * 0 + 8000000000 * partLimit 80000 + 80000 * 2
        < 8000000000 * ((endingIn 80000 100000000 100000000 t.reservations).map Reservation.part).sum :=
  ⟨_, _, _, rfl, rfl, ⟨_, rfl, ⟨rfl, rfl⟩, _, rfl, ⟨rfl, rfl⟩, _, rfl, ⟨rfl, rfl⟩, _, rfl,
    ⟨rfl, rfl⟩, _, rfl, ⟨rfl, rfl⟩, _, rfl, ⟨rfl, rfl⟩, _, rfl, ⟨rfl, rfl⟩, rfl⟩, by decide, by decide⟩

end Brocade.MachineLimit
