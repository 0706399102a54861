/-
Strongly connected components by search.

`search` looks for one vertex from a stack of others.  The entry on top is looked at first,
one seen before is dropped, and the successors of any other go on top of the rest.  Every
vertex puts its successors up once, so the fuel that suffices is known beforehand, and the
search answers reachability (`search_iff`).

`sourceComponent` takes the first vertex whose component no edge enters from outside.  There
is always one: the predecessors of an entering edge reach strictly fewer vertices backwards
(`sourceComponent_spec`).
-/
import Brocade.Lib.Worklist

namespace Scc

open Worklist

variable {α : Type} [DecidableEq α] (succ : α → List α)

/-- Look for `wanted`; the head of the list is the top of the stack. -/
def search (wanted : α) : ℕ → List α → List α → Bool
  | 0, _, _ => false
  | _ + 1, [], _ => false
  | fuel + 1, a :: stack, seen =>
    if a = wanted then true
    else if a ∈ seen then search wanted fuel stack seen
    else search wanted fuel ((succ a).reverse ++ stack) (a :: seen)

/-- How much a search can look at: one entry, and the successors of all that have any. -/
def searchBudget (dom : List α) : ℕ := 2 + (dom.map fun a => (succ a).length).sum

def reaches (dom : List α) (start wanted : α) : Bool :=
  search succ wanted (searchBudget succ dom) [start] []

variable {succ}

/-- What `search` has yet to put up. -/
private def pendingOut (succ : α → List α) (dom seen : List α) : ℕ :=
  ((dom.filter (· ∉ seen)).map fun a => (succ a).length).sum

private theorem pendingOut_take (dom : List α) {seen : List α} {a : α} (hdom : succ a ≠ [] → a ∈ dom)
    (ha : a ∉ seen) :
    (succ a).length + pendingOut succ dom (a :: seen) ≤ pendingOut succ dom seen := by
  have hcons : ∀ (b : α) (dom seen : List α), pendingOut succ (b :: dom) seen
      = (if b ∈ seen then 0 else (succ b).length) + pendingOut succ dom seen := by
    intro b dom seen
    unfold pendingOut
    by_cases hb : b ∈ seen <;> simp [hb]
  have hcount : ∀ dom : List α, (if a ∈ dom then (succ a).length else 0)
      + pendingOut succ dom (a :: seen) ≤ pendingOut succ dom seen := by
    intro dom
    induction dom with
    | nil => simp [pendingOut]
    | cons b dom ih =>
      rw [hcons, hcons]
      by_cases hba : b = a
      · subst hba
        simp only [List.mem_cons, true_or, ha, if_true, if_false]
        split at ih <;> omega
      · simp only [List.mem_cons, Ne.symm hba, hba, false_or]
        omega
  by_cases hsucc : succ a = []
  · have h := hcount dom
    rw [hsucc] at h ⊢
    simpa using h
  · simpa [hdom hsucc] using hcount dom

/-- **The search finds what the stack reaches.**  Everything seen was put up with its
successors, so what it reaches is the wanted vertex only through the stack. -/
private theorem search_iff {wanted : α} {dom : List α} (hdom : ∀ a, succ a ≠ [] → a ∈ dom) :
    ∀ {fuel : ℕ} {stack seen : List α}, stack.length + pendingOut succ dom seen < fuel →
      (∀ a ∈ seen, a ≠ wanted ∧ ∀ b ∈ succ a, b ∈ stack ∨ b ∈ seen) →
      (search succ wanted fuel stack seen = true ↔ ∃ a ∈ stack, Reaches succ a wanted) := by
  intro fuel
  induction fuel with
  | zero => intro _ _ hfuel; omega
  | succ fuel ih =>
    intro stack seen hfuel hseen
    cases stack with
    | nil => simp [search]
    | cons a stack =>
      unfold search
      by_cases hwanted : a = wanted
      · subst hwanted
        simp only [if_true, List.mem_cons, true_iff]
        exact ⟨a, .inl rfl, .refl⟩
      rw [if_neg hwanted]
      by_cases ha : a ∈ seen
      · rw [if_pos ha, ih (by simp at hfuel; omega)]
        · constructor
          · rintro ⟨b, hb, hreach⟩
            exact ⟨b, List.mem_cons_of_mem a hb, hreach⟩
          · rintro ⟨b, hb, hreach⟩
            -- a walk out of what was seen leaves it through the rest of the stack
            rcases List.mem_cons.mp hb with rfl | hb
            · have hleave : ∀ c, c ∈ seen → Reaches succ c wanted →
                  ∃ d ∈ stack, Reaches succ d wanted := by
                intro c hc hwalk
                induction hwalk using Relation.ReflTransGen.head_induction_on with
                | refl => exact absurd rfl (hseen _ hc).1
                | @head c d hcd hdw ihw =>
                  rcases (hseen c hc).2 d hcd with hd | hd
                  · rcases List.mem_cons.mp hd with rfl | hd
                    · exact ihw ha
                    · exact ⟨d, hd, hdw⟩
                  · exact ihw hd
              exact hleave b ha hreach
            · exact ⟨b, hb, hreach⟩
        · intro b hb
          refine ⟨(hseen b hb).1, fun c hc => ?_⟩
          rcases (hseen b hb).2 c hc with hc | hc
          · rcases List.mem_cons.mp hc with rfl | hc
            · exact .inr ha
            · exact .inl hc
          · exact .inr hc
      · have hless := pendingOut_take dom (hdom a) ha
        rw [if_neg ha, ih (by simp at hfuel ⊢; omega)]
        · constructor
          · rintro ⟨b, hb, hreach⟩
            rcases List.mem_append.mp hb with hb | hb
            · exact ⟨a, List.mem_cons_self, .head (List.mem_reverse.mp hb) hreach⟩
            · exact ⟨b, List.mem_cons_of_mem a hb, hreach⟩
          · rintro ⟨b, hb, hreach⟩
            rcases List.mem_cons.mp hb with rfl | hb
            · rcases Relation.ReflTransGen.cases_head hreach with heq | ⟨c, hc, hcw⟩
              · exact absurd heq hwanted
              · exact ⟨c, List.mem_append_left _ (List.mem_reverse.mpr hc), hcw⟩
            · exact ⟨b, List.mem_append_right _ hb, hreach⟩
        · intro b hb
          rcases List.mem_cons.mp hb with rfl | hb
          · refine ⟨hwanted, fun c hc => ?_⟩
            exact .inl (List.mem_append_left _ (List.mem_reverse.mpr hc))
          · refine ⟨(hseen b hb).1, fun c hc => ?_⟩
            rcases (hseen b hb).2 c hc with hc | hc
            · rcases List.mem_cons.mp hc with rfl | hc
              · exact .inr List.mem_cons_self
              · exact .inl (List.mem_append_right _ hc)
            · exact .inr (List.mem_cons_of_mem a hc)

theorem reaches_iff {dom : List α} (hdom : ∀ a, succ a ≠ [] → a ∈ dom) {start wanted : α} :
    reaches succ dom start wanted = true ↔ Reaches succ start wanted := by
  have hfilter : dom.filter (· ∉ ([] : List α)) = dom := by simp
  have hfuel : [start].length + pendingOut succ dom [] < searchBudget succ dom := by
    rw [pendingOut, hfilter, searchBudget, List.length_singleton]
    omega
  rw [reaches, search_iff hdom hfuel fun _ h => absurd h List.not_mem_nil]
  simp

/-! ### Components -/

/-- The vertices a vertex reaches and is reached from. -/
def component (succ : α → List α) (dom : List α) (a : α) : List α :=
  dom.filter fun b => reaches succ dom a b && reaches succ dom b a

/-- An edge enters the component from another one. -/
def entered (incoming : α → List α) (dom component : List α) : Bool :=
  component.any fun a => (incoming a).any fun p => decide (p ∈ dom) && decide (p ∉ component)

/-- The first component no edge enters; the first vertex if there were none. -/
def sourceComponent (succ incoming : α → List α) (dom : List α) : List α :=
  match dom.find? fun a => !entered incoming dom (component succ dom a) with
  | some a => component succ dom a
  | none => dom.head?.toList

/-- A component that nothing outside it precedes. -/
structure Source (succ incoming : α → List α) (dom component : List α) : Prop where
  nonempty : component ≠ []
  subset : component ⊆ dom
  joined : ∀ a ∈ component, ∀ b ∈ component, Reaches succ a b
  closed : ∀ a ∈ component, ∀ p ∈ incoming a, p ∈ dom → p ∈ component

variable {incoming : α → List α} {dom : List α}

theorem mem_component (hdom : ∀ a, succ a ≠ [] → a ∈ dom) {a b : α} :
    b ∈ component succ dom a ↔ b ∈ dom ∧ Reaches succ a b ∧ Reaches succ b a := by
  simp only [component, List.mem_filter, Bool.and_eq_true, reaches_iff hdom]

theorem source_of_not_entered (hdom : ∀ a, succ a ≠ [] → a ∈ dom) {a : α} (ha : a ∈ dom)
    (h : entered incoming dom (component succ dom a) = false) :
    Source succ incoming dom (component succ dom a) where
  nonempty := List.ne_nil_of_mem ((mem_component hdom).mpr ⟨ha, .refl, .refl⟩)
  subset _ hb := ((mem_component hdom).mp hb).1
  joined b hb c hc :=
    ((mem_component hdom).mp hb).2.2.trans ((mem_component hdom).mp hc).2.1
  closed b hb p hp hpdom := by
    by_contra hout
    have hyes : entered incoming dom (component succ dom a) = true :=
      List.any_eq_true.mpr ⟨b, hb, List.any_eq_true.mpr ⟨p, hp, by simp [hpdom, hout]⟩⟩
    rw [h] at hyes
    cases hyes

/-- **There is a component no edge enters, and it is the one found.** -/
theorem sourceComponent_spec (hdom : ∀ a, succ a ≠ [] → a ∈ dom)
    (hedge : ∀ a ∈ dom, ∀ p ∈ incoming a, p ∈ dom → a ∈ succ p) (hne : dom ≠ []) :
    Source succ incoming dom (sourceComponent succ incoming dom) := by
  -- going back along an entering edge loses the vertex it was left for
  have hexists : ∀ (n : ℕ) (a : α), a ∈ dom →
      (dom.filter fun b => reaches succ dom b a).length ≤ n →
      ∃ b ∈ dom, entered incoming dom (component succ dom b) = false := by
    intro n
    induction n with
    | zero =>
      intro a ha hcount
      have hself : a ∈ dom.filter fun b => reaches succ dom b a :=
        List.mem_filter.mpr ⟨ha, (reaches_iff hdom).mpr .refl⟩
      rw [List.length_eq_zero_iff.mp (Nat.le_zero.mp hcount)] at hself
      exact absurd hself List.not_mem_nil
    | succ n ih =>
      intro a ha hcount
      cases hentered : entered incoming dom (component succ dom a) with
      | false => exact ⟨a, ha, hentered⟩
      | true =>
        obtain ⟨b, hb, hany⟩ := List.any_eq_true.mp hentered
        obtain ⟨p, hp, hout⟩ := List.any_eq_true.mp hany
        obtain ⟨hpdom, hpout⟩ : p ∈ dom ∧ p ∉ component succ dom a := by simpa using hout
        obtain ⟨hbdom, hab, hba⟩ := (mem_component hdom).mp hb
        have hpa : Reaches succ p a := .head (hedge b hbdom p hp hpdom) hba
        have hap : ¬ Reaches succ a p := fun hap =>
          hpout ((mem_component hdom).mpr ⟨hpdom, hap, hpa⟩)
        refine ih p hpdom (Nat.lt_succ_iff.mp (lt_of_lt_of_le ?_ hcount))
        have hsub : (dom.filter fun b => reaches succ dom b p).Sublist
            (dom.filter fun b => reaches succ dom b a) := by
          refine List.monotone_filter_right dom fun c hc => ?_
          exact (reaches_iff hdom).mpr (((reaches_iff hdom).mp hc).trans hpa)
        refine lt_of_le_of_ne hsub.length_le fun hlen => hap ?_
        have hself : a ∈ dom.filter fun b => reaches succ dom b p := by
          rw [hsub.eq_of_length hlen]
          exact List.mem_filter.mpr ⟨ha, (reaches_iff hdom).mpr .refl⟩
        exact (reaches_iff hdom).mp (List.mem_filter.mp hself).2
  obtain ⟨a, ha⟩ := List.exists_mem_of_ne_nil dom hne
  obtain ⟨b, hb, hfree⟩ := hexists _ a ha le_rfl
  unfold sourceComponent
  cases hfind : dom.find? fun a => !entered incoming dom (component succ dom a) with
  | none => exact absurd (by simp [hfree]) (List.find?_eq_none.mp hfind b hb)
  | some c =>
    refine source_of_not_entered hdom (List.mem_of_find?_eq_some hfind) ?_
    simpa using List.find?_some hfind

end Scc
