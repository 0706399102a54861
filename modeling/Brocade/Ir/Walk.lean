/-
A request ends.

Whatever the selectors of a publishable compilation match, a request that enters at a table takes
the first rule that matches, goes on where the rule leads, and after finitely many tables, none of
them twice, leaves the fleet, is handed to a tunnel or is blocked.

Nothing is missing on the way: every table ends in Any, and every rule finds the table it names.
Nothing comes back either.  A cycle of tables stays within a chain's forwards, which the search
from the chain's head and its entered listeners would have met; or it enters a listener within one
project, whose subtree was searched for the rule that enters it; or it leaves the project, and the
same search was made among all projects' tables.
-/
import Brocade.Ir.Tables

namespace Brocade.Ir

open Model Relation

/-! ### Requests -/

/-- What the selectors of each table match. -/
structure Valuation where
  holds : Step → DestMatch → Bool
  any_holds : ∀ step, holds step .any = true

/-- The action of the first rule that matches. -/
def Valuation.choose (matched : Valuation) (step : Step) : Option Action :=
  (step.rules.find? fun rule => matched.holds step rule.destMatch).map (·.action)

/-- How a walk ends. -/
inductive Stop where
  | done (action : Action)
  | noTable
  | noRule
  | unfinished

/-- From table to table, as far as the fuel goes: the tables come to, and the end. -/
def walk (tables : List Step) (matched : Valuation) : ℕ → String × String →
    List (String × String) × Stop
  | 0, _ => ([], .unfinished)
  | fuel + 1, key =>
    match findStep tables key with
    | none => ([key], .noTable)
    | some step =>
      match matched.choose step with
      | none => ([key], .noRule)
      | some action =>
        match action.forwardRef step.chain with
        | none => ([key], .done action)
        | some forward =>
          let rest := walk tables matched fuel forward.key
          (key :: rest.1, rest.2)

/-- An action that leads nowhere else. -/
def Action.isLast : Action → Bool
  | .egress _ | .proxy _ | .block => true
  | .forward _ _ _ | .reuseListener _ _ _ => false

theorem isLast_of_forwardRef {action : Action} {chain : String}
    (h : action.forwardRef chain = none) : Action.isLast action = true := by
  cases action <;> simp_all [Action.forwardRef, Action.isLast]

/-! ### Edges -/

theorem forward_cases {step : Step} {forward : ForwardActionRef} (h : forward ∈ step.forwards) :
    (forward.targetChain = step.chain
        ∧ forward.targetNode ∈ step.rules.filterMap (·.action.forwardTarget?))
      ∨ forward.key ∈ step.rules.filterMap (·.action.reused?) := by
  obtain ⟨rule, hrule, haction⟩ := List.mem_filterMap.mp h
  cases hkind : rule.action with
  | forward target dial pool =>
    rw [hkind] at haction
    cases haction
    exact Or.inl ⟨rfl, List.mem_filterMap.mpr ⟨rule, hrule, by rw [hkind]; rfl⟩⟩
  | reuseListener listener dial pool =>
    rw [hkind] at haction
    cases haction
    exact Or.inr (List.mem_filterMap.mpr ⟨rule, hrule, by rw [hkind]; rfl⟩)
  | egress sendThrough => exact absurd (hkind ▸ haction) nofun
  | proxy outbound => exact absurd (hkind ▸ haction) nofun
  | block => exact absurd (hkind ▸ haction) nofun

theorem mem_tableNext {find : String × String → Option Step} {a b : String × String} :
    b ∈ tableNext find a ↔ ∃ step, find a = some step
      ∧ ∃ forward ∈ step.forwards, forward.key = b := by
  cases hfind : find a with
  | none => simp [tableNext, hfind]
  | some step => simp [tableNext, hfind]

theorem tableNext_dom {steps : List Step} {a : String × String}
    (h : tableNext (findStep steps) a ≠ []) : a ∈ steps.map Step.key := by
  obtain ⟨b, hb⟩ := List.exists_mem_of_ne_nil _ h
  obtain ⟨step, hstep, -⟩ := mem_tableNext.mp hb
  obtain ⟨hmem, hkey⟩ := findStep_eq_some hstep
  exact hkey ▸ List.mem_map_of_mem hmem

/-! ### What the checks say -/

theorem not_cyclic_of_clean {before : ListenerEdge → List Diagnostic}
    {cyclic : ListenerEdge → Bool} {message : String} {edges : List ListenerEdge}
    (h : Clean (validateListenerEdges before cyclic message [] edges)) :
    ∀ edge ∈ edges, cyclic edge = false := by
  induction edges with
  | nil => simp
  | cons edge rest ih =>
    unfold validateListenerEdges at h
    simp only [clean_append, clean_errorIf] at h
    have hedge : cyclic edge = false := by simpa using h.1.2
    rw [if_neg (by simp [hedge])] at h
    exact List.forall_mem_cons.mpr ⟨hedge, ih h.2⟩

theorem mem_listenerEdges {steps : List Step} {step : Step} (hstep : step ∈ steps)
    {listener : String × String} (h : listener ∈ step.rules.filterMap (·.action.reused?)) :
    ⟨step, listener⟩ ∈ listenerEdges steps :=
  List.mem_flatMap.mpr ⟨step, hstep, List.mem_map.mpr ⟨listener, h, rfl⟩⟩

theorem mem_chainForwards {steps : List Step} {a b : String} (h : b ∈ chainForwards steps a) :
    (∃ step ∈ steps, step.node = a)
      ∧ b ∈ (steps.flatMap (·.rules)).filterMap (·.action.forwardTarget?) := by
  unfold chainForwards at h
  cases hfind : steps.find? (·.node = a) with
  | none => simp [hfind] at h
  | some found =>
    have hnode : found.node = a := by simpa using List.find?_some hfind
    have hmem := List.mem_of_find?_eq_some hfind
    rw [hfind] at h
    obtain ⟨rule, hrule, htarget⟩ := List.mem_filterMap.mp h
    have hown : rule ∈ found.rules := by simpa using hrule
    exact ⟨⟨found, hmem, hnode⟩,
      List.mem_filterMap.mpr ⟨rule, List.mem_flatMap.mpr ⟨found, hmem, hown⟩, htarget⟩⟩

/-- Where nothing is reported of a chain, every path of its forwards from an entry ends. -/
theorem ends_of_topology {app : AppIr} (h : Clean (validateTopology app)) {chain : Chain}
    (hchain : chain ∈ app.chains) {id : String} (hid : chain.id = id) {root : String}
    (hroot : chain.root = some root) {node : String}
    (hfrom : Worklist.From (chainForwards (app.steps.filter (·.chain = id)))
      (chainEntries app id root) node) :
    Dfs.Ends (chainForwards (app.steps.filter (·.chain = id))) node := by
  subst hid
  obtain ⟨r, hr, hreach⟩ := hfrom
  simp only [validateTopology, clean_append, clean_flatMap] at h
  have htopology := h.1 chain hchain root (by simp [hroot])
  simp only [validateChainTopology, clean_append, clean_map] at htopology
  have hnone : detectCycle app (app.steps.filter (·.chain = chain.id)) chain.id root = [] := by
    refine List.eq_nil_iff_forall_not_mem.mpr fun node hnode => ?_
    exact htopology.1.2 node hnode rfl
  have hdom : ∀ a, chainForwards (app.steps.filter (·.chain = chain.id)) a ≠ [] →
      a ∈ (app.steps.filter (·.chain = chain.id)).map (·.node) := by
    intro a ha
    obtain ⟨b, hb⟩ := List.exists_mem_of_ne_nil _ ha
    obtain ⟨⟨found, hfound, rfl⟩, -⟩ := mem_chainForwards hb
    exact List.mem_map_of_mem hfound
  exact (Dfs.cycles_acc hdom (by simp) hnone r hr).of_reaches hreach

/-! ### No cycles -/

section Publishable

variable {checks : Checks} {doc : ModelSnapshot}

/-- A table leads to another one. -/
def Leads (output : CompileOutput) (a b : String × String) : Prop :=
  b ∈ tableNext (findStep output.targetSteps) a

/-- By a rule that forwards. -/
def Forwards (output : CompileOutput) (a b : String × String) : Prop :=
  ∃ app ∈ output.apps, ∃ step ∈ app.steps, step.key = a ∧ b.1 = a.1
    ∧ b.2 ∈ step.rules.filterMap (·.action.forwardTarget?)

/-- Both are tables of one project. -/
def Within (output : CompileOutput) (a b : String × String) : Prop :=
  ∃ app ∈ output.apps, a ∈ app.steps.map Step.key ∧ b ∈ app.steps.map Step.key

variable {a b : String × String} {app : AppIr} {step : Step}

theorem leads_cases (h : Leads (compile checks doc) a b) :
    ∃ app ∈ (compile checks doc).apps, ∃ step ∈ app.steps, step.key = a
      ∧ findStep (compile checks doc).targetSteps a = some step
      ∧ ∃ forward ∈ step.forwards, forward.key = b := by
  obtain ⟨step, hfind, hforward⟩ := mem_tableNext.mp h
  obtain ⟨hmem, hkey⟩ := findStep_eq_some hfind
  obtain ⟨app, happ, hstep⟩ := List.mem_flatMap.mp hmem
  exact ⟨app, happ, step, hstep, hkey, hfind, hforward⟩

section

variable (h : (compile checks doc).ensurePublishable = true)

include h

theorem leads_table (hab : Leads (compile checks doc) a b) :
    ∃ app ∈ (compile checks doc).apps, b ∈ app.steps.map Step.key := by
  obtain ⟨app, happ, step, hstep, -, -, forward, hforward, rfl⟩ := leads_cases hab
  obtain ⟨accept, hopIn, hentry⟩ := entry_of_edge h happ hstep hforward
  obtain ⟨target, htarget, -, -⟩ := entryOf_ok hentry
  obtain ⟨hmem, hkey⟩ := findStep_eq_some htarget
  obtain ⟨other, hother, hstep'⟩ := List.mem_flatMap.mp hmem
  exact ⟨other, hother, hkey ▸ List.mem_map_of_mem hstep'⟩

theorem project_unique {other : AppIr} (happ : app ∈ (compile checks doc).apps)
    (hother : other ∈ (compile checks doc).apps) {twin : Step} (hstep : step ∈ app.steps)
    (htwin : twin ∈ other.steps) (hchain : step.chain = twin.chain) : app = other := by
  obtain ⟨chain, hmem, hid, -⟩ := from_entries h happ hstep
  obtain ⟨chain', hmem', hid', -⟩ := from_entries h hother htwin
  exact app_unique h happ hother hmem hmem' (hid.trans (hchain.trans hid'.symm))

theorem ends_of_table (happ : app ∈ (compile checks doc).apps) (hstep : step ∈ app.steps) :
    Dfs.Ends (chainForwards (app.steps.filter (·.chain = step.chain))) step.node := by
  obtain ⟨chain, hchain, hid, root, hroot, hfrom⟩ := from_entries h happ hstep
  exact ends_of_topology (clean_topology h happ) hchain hid hroot hfrom

theorem not_cycle_forwards : ¬ TransGen (Forwards (compile checks doc)) a a := by
  intro hcycle
  obtain ⟨first, hfirst, -⟩ := TransGen.head'_iff.mp hcycle
  obtain ⟨app, happ, step, hstep, hkey, -⟩ := hfirst
  have hnodes := nodup_nodes_of_chain (nodup_keys h happ) step.chain
  have hchain : a.1 = step.chain := by rw [← hkey]; rfl
  have hedge : ∀ {x y : String × String}, x.1 = step.chain → Forwards (compile checks doc) x y →
      y.1 = step.chain ∧ y.2 ∈ chainForwards (app.steps.filter (·.chain = step.chain)) x.2 := by
    intro x y hx hxy
    obtain ⟨other, hother, source, hsource, rfl, hsame, htarget⟩ := hxy
    have hown : other = app := project_unique h hother happ hsource hstep hx
    rw [hown] at hsource
    have hchainOf : source.chain = step.chain := hx
    have hmem : source ∈ app.steps.filter (·.chain = step.chain) :=
      List.mem_filter.mpr ⟨hsource, by simpa using hchainOf⟩
    refine ⟨hsame.trans hx, ?_⟩
    show y.2 ∈ chainForwards _ source.node
    rw [chainForwards_of_mem hnodes hmem]
    exact htarget
  have hnodeCycle : ∀ {b : String × String}, TransGen (Forwards (compile checks doc)) a b →
      b.1 = step.chain ∧ TransGen
        (fun m n => n ∈ chainForwards (app.steps.filter (·.chain = step.chain)) m) a.2 b.2 := by
    intro b hab
    induction hab with
    | single hxy => exact ⟨(hedge hchain hxy).1, .single (hedge hchain hxy).2⟩
    | tail _ hxy ih => exact ⟨(hedge ih.1 hxy).1, ih.2.tail (hedge ih.1 hxy).2⟩
  have hends := ends_of_table h happ hstep
  have hnode : step.node = a.2 := by rw [← hkey]; rfl
  rw [hnode] at hends
  exact Dfs.not_cycle_of_acc hends (hnodeCycle hcycle).2

theorem tableNext_of_leads (happ : app ∈ (compile checks doc).apps)
    (ha : a ∈ app.steps.map Step.key) (hab : Leads (compile checks doc) a b) :
    b ∈ tableNext (findStep app.steps) a := by
  obtain ⟨step, hstep, rfl⟩ := List.mem_map.mp ha
  obtain ⟨found, hfound, hforward⟩ := mem_tableNext.mp hab
  have hsame : findStep (compile checks doc).targetSteps step.key = some step :=
    findStep_of_mem (nodup_tables h) (mem_targetSteps happ hstep)
  have hown : findStep app.steps step.key = some step :=
    findStep_of_mem (nodup_keys h happ) hstep
  have heq : found = step := Option.some.inj (hfound.symm.trans hsame)
  exact mem_tableNext.mpr ⟨step, hown, heq ▸ hforward⟩

theorem mem_of_within (happ : app ∈ (compile checks doc).apps) (ha : a ∈ app.steps.map Step.key)
    (hab : Within (compile checks doc) a b) : b ∈ app.steps.map Step.key := by
  obtain ⟨step, hstep, rfl⟩ := List.mem_map.mp ha
  obtain ⟨other, hother, htwin, hb⟩ := hab
  obtain ⟨twin, htwinMem, hkey⟩ := List.mem_map.mp htwin
  have hchain : twin.chain = step.chain := congrArg Prod.fst hkey
  rw [project_unique h happ hother hstep htwinMem hchain.symm]
  exact hb

theorem not_cycle_within : ¬ TransGen (fun x y => Leads (compile checks doc) x y
      ∧ Within (compile checks doc) x y) a a := by
  intro hcycle
  rcases Dfs.cycle_cases (P := Forwards (compile checks doc)) hcycle with hforwards | hcross
  · exact not_cycle_forwards h (hforwards.lift id fun _ _ hxy => hxy.2)
  · obtain ⟨x, y, ⟨hleads, hwithin⟩, hother, hback⟩ := hcross
    obtain ⟨app, happ, step, hstep, hkey, -, forward, hforward, hto⟩ := leads_cases hleads
    rcases forward_cases hforward with ⟨hchain, htarget⟩ | hreused
    · refine hother ⟨app, happ, step, hstep, hkey, ?_, ?_⟩
      · rw [← hto, ← hkey]
        exact hchain
      · rw [← hto]
        exact htarget
    · have hx : x ∈ app.steps.map Step.key := hkey ▸ List.mem_map_of_mem hstep
      have hclean := clean_topology h happ
      rw [validateTopology, clean_append] at hclean
      have hquiet := not_cyclic_of_clean hclean.2 _ (mem_listenerEdges hstep hreused)
      -- the way back stays among the project's tables, where the search would have found it
      have hpath : ∀ {z : String × String}, ReflTransGen (fun x y =>
          Leads (compile checks doc) x y ∧ Within (compile checks doc) x y) y z →
          z ∈ app.steps.map Step.key
            ∧ ReflTransGen (fun a b => b ∈ tableNext (findStep app.steps) a) y z := by
        intro z hz
        induction hz with
        | refl => exact ⟨mem_of_within h happ hx hwithin, .refl⟩
        | tail _ huv ih =>
          exact ⟨mem_of_within h happ ih.1 huv.2, ih.2.tail (tableNext_of_leads h happ ih.1 huv.1)⟩
      have hreach : listenerReaches app ⟨step, forward.key⟩ = true := by
        refine (Dfs.reaches_iff (fun _ => tableNext_dom) (by simp) _).mpr ?_
        show ReflTransGen _ forward.key step.key
        rw [hto, hkey]
        exact (hpath hback).2
      rw [hreach] at hquiet
      exact Bool.noConfusion hquiet

theorem globalStep_eq (key : String × String) :
    globalStep (compile checks doc).apps key = findStep (compile checks doc).targetSteps key := by
  have hnodup := nodup_tables h
  have hreversed : (((compile checks doc).targetSteps.reverse).map Step.key).Nodup := by
    rw [List.map_reverse]
    exact List.nodup_reverse.mpr hnodup
  show findStep (compile checks doc).targetSteps.reverse key = _
  cases hfind : findStep (compile checks doc).targetSteps key with
  | none =>
    refine List.find?_eq_none.mpr fun step hstep => ?_
    exact List.find?_eq_none.mp hfind step (List.mem_reverse.mp hstep)
  | some step =>
    obtain ⟨hmem, rfl⟩ := findStep_eq_some hfind
    exact findStep_of_mem hreversed (List.mem_reverse.mpr hmem)

theorem clean_crossApp : Clean (validateCrossAppListenerReferences (compile checks doc).apps) := by
  have hall := clean_of_publishable h
  simp only [compile, finishCompile, validateAppSet, clean_append] at hall ⊢
  exact hall.2.1.2

end

theorem chainOwnerIn_some {apps : List AppIr} {chain : String} {owner : ℕ × Chain}
    (h : chainOwnerIn apps chain = some owner) :
    ∃ app, (app, owner.1) ∈ apps.zipIdx ∧ owner.2 ∈ app.chains ∧ owner.2.id = chain := by
  have hid : owner.2.id = chain := by simpa using List.find?_some h
  have hmem := List.mem_reverse.mp (List.mem_of_find?_eq_some h)
  obtain ⟨⟨app, index⟩, happ, howned⟩ := List.mem_flatMap.mp hmem
  obtain ⟨source, hsource, rfl⟩ := List.mem_map.mp howned
  exact ⟨app, happ, hsource, hid⟩

theorem chainOwnerIn_isSome {apps : List AppIr} (happ : app ∈ apps) {chain : Chain}
    (hchain : chain ∈ app.chains) : ∃ owner, chainOwnerIn apps chain.id = some owner := by
  obtain ⟨index, hindex⟩ := List.mem_iff_getElem?.mp happ
  cases howner : chainOwnerIn apps chain.id with
  | some owner => exact ⟨owner, rfl⟩
  | none =>
    refine absurd (List.find?_eq_none.mp howner (index, chain) (List.mem_reverse.mpr ?_))
      (by simp)
    exact List.mem_flatMap.mpr ⟨(app, index), List.mem_zipIdx_iff_getElem?.mpr hindex,
      List.mem_map_of_mem hchain⟩

/-- **No request comes back to a table.** -/
theorem not_cycle_leads (h : (compile checks doc).ensurePublishable = true) :
    ¬ TransGen (Leads (compile checks doc)) a a := by
  intro hcycle
  rcases Dfs.cycle_cases (P := Within (compile checks doc)) hcycle with hwithin | hcross
  · exact not_cycle_within h hwithin
  · obtain ⟨x, y, hleads, hother, hback⟩ := hcross
    obtain ⟨app, happ, step, hstep, hkey, -, forward, hforward, hto⟩ := leads_cases hleads
    obtain ⟨target, htarget, hy⟩ := leads_table h hleads
    obtain ⟨twin, htwin, htwinKey⟩ := List.mem_map.mp hy
    have hx : x ∈ app.steps.map Step.key := hkey ▸ List.mem_map_of_mem hstep
    rcases forward_cases hforward with ⟨hchain, -⟩ | hreused
    · -- a forward stays in the chain, and so in the project
      have hchains : twin.chain = step.chain := by
        rw [← hchain]
        exact (congrArg Prod.fst htwinKey).trans (congrArg Prod.fst hto).symm
      have hown := project_unique h htarget happ htwin hstep hchains
      exact hother ⟨app, happ, hx, hown ▸ hy⟩
    · obtain ⟨source, hsource, hsourceId, -⟩ := from_entries h happ hstep
      obtain ⟨entered, hentered, henteredId, -⟩ := from_entries h htarget htwin
      have hlistener : entered.id = forward.key.1 := by
        rw [henteredId, hto, ← htwinKey]
        rfl
      obtain ⟨sourceOwner, hsourceOwner⟩ := chainOwnerIn_isSome happ hsource
      obtain ⟨targetOwner, htargetOwner⟩ := chainOwnerIn_isSome htarget hentered
      obtain ⟨index, hindex⟩ := List.mem_iff_getElem?.mp happ
      have hapart : targetOwner.1 ≠ index := by
        intro heq
        obtain ⟨holder, hholder, hheld, hheldId⟩ := chainOwnerIn_some htargetOwner
        rw [heq] at hholder
        have hsame : holder = app :=
          Option.some.inj ((List.mem_zipIdx_iff_getElem?.mp hholder).symm.trans hindex)
        have hown := app_unique h happ htarget (hsame ▸ hheld) hentered hheldId
        exact hother ⟨app, happ, hx, hown ▸ hy⟩
      have hedge : ⟨step, forward.key⟩ ∈ (compile checks doc).apps.zipIdx.flatMap fun app =>
            crossEdges (compile checks doc).apps app.1 app.2 := by
        refine List.mem_flatMap.mpr ⟨(app, index), List.mem_zipIdx_iff_getElem?.mpr hindex, ?_⟩
        refine List.mem_filter.mpr ⟨mem_listenerEdges hstep hreused, ?_⟩
        rw [hsourceId] at hsourceOwner
        rw [hlistener] at htargetOwner
        simp [hsourceOwner, htargetOwner, hapart]
      have hquiet := not_cyclic_of_clean (clean_crossApp h) _ hedge
      have hreach : globalListenerReaches (compile checks doc).apps ⟨step, forward.key⟩ = true := by
        unfold globalListenerReaches
        rw [funext (globalStep_eq h)]
        have hdom : ∀ key, tableNext (findStep (compile checks doc).targetSteps) key ≠ [] →
            key ∈ (compile checks doc).targetSteps.map Step.key := fun _ => tableNext_dom
        refine (Dfs.reaches_iff hdom (by simp [CompileOutput.targetSteps]) _).mpr ?_
        show ReflTransGen (Leads (compile checks doc)) forward.key step.key
        rw [hto, hkey]
        exact hback
      rw [hreach] at hquiet
      exact Bool.noConfusion hquiet

/-! ### Walks -/

theorem choose_some (h : (compile checks doc).ensurePublishable = true) (matched : Valuation)
    (happ : app ∈ (compile checks doc).apps) (hstep : step ∈ app.steps) :
    ∃ rule ∈ step.rules, matched.choose step = some rule.action := by
  obtain ⟨last, hlast, hany⟩ := last_isAny h happ hstep
  cases hfind : step.rules.find? fun rule => matched.holds step rule.destMatch with
  | none =>
    have hmiss := List.find?_eq_none.mp hfind last hlast
    rw [hany, matched.any_holds] at hmiss
    exact absurd rfl hmiss
  | some rule => exact ⟨rule, List.mem_of_find?_eq_some hfind, by simp [Valuation.choose, hfind]⟩

/-- From the tables seen so far, none of which can be met again, the walk goes on to its end. -/
theorem walk_ends (h : (compile checks doc).ensurePublishable = true) (matched : Valuation)
    {fuel : ℕ} {key : String × String} {seen : List (String × String)}
    (hkey : key ∈ (compile checks doc).targetSteps.map Step.key) (hnodup : seen.Nodup)
    (htables : seen ⊆ (compile checks doc).targetSteps.map Step.key)
    (hcame : ∀ s ∈ seen, TransGen (Leads (compile checks doc)) s key)
    (hfuel : (compile checks doc).targetSteps.length ≤ seen.length + fuel) : ∃ visited action,
      walk (compile checks doc).targetSteps matched fuel key = (visited, .done action)
        ∧ (seen ++ visited).Nodup
        ∧ visited ⊆ (compile checks doc).targetSteps.map Step.key
        ∧ Action.isLast action = true := by
  have hnew : key ∉ seen := fun hmem => not_cycle_leads h (hcame key hmem)
  have hgrown : (seen ++ [key]).Nodup := List.nodup_append'.mpr
    ⟨hnodup, List.nodup_singleton key, by simpa using hnew⟩
  have hheld : seen ++ [key] ⊆ (compile checks doc).targetSteps.map Step.key :=
    List.append_subset.mpr ⟨htables, by simpa using hkey⟩
  induction fuel generalizing key seen with
  | zero =>
    -- more tables have been seen than there are
    have hcount := (hgrown.subperm hheld).length_le
    rw [List.length_append, List.length_singleton, List.length_map] at hcount
    omega
  | succ fuel ih =>
    obtain ⟨step, hmem, rfl⟩ := List.mem_map.mp hkey
    obtain ⟨app, happ, hstep⟩ := List.mem_flatMap.mp hmem
    have hfind := findStep_of_mem (nodup_tables h) hmem
    obtain ⟨rule, hrule, hchoose⟩ := choose_some h matched happ hstep
    simp only [walk, hfind, hchoose]
    cases hforward : rule.action.forwardRef step.chain with
    | none =>
      refine ⟨[step.key], rule.action, rfl, hgrown, by simpa using hkey, ?_⟩
      exact isLast_of_forwardRef hforward
    | some forward =>
      have hedge : Leads (compile checks doc) step.key forward.key :=
        mem_tableNext.mpr ⟨step, hfind, forward,
          List.mem_filterMap.mpr ⟨rule, hrule, hforward⟩, rfl⟩
      obtain ⟨other, hother, hnext⟩ := leads_table h hedge
      obtain ⟨next, hnextMem, hnextKey⟩ := List.mem_map.mp hnext
      have hnextTable : forward.key ∈ (compile checks doc).targetSteps.map Step.key :=
        hnextKey ▸ List.mem_map_of_mem (mem_targetSteps hother hnextMem)
      have hcame' : ∀ s ∈ seen ++ [step.key],
          TransGen (Leads (compile checks doc)) s forward.key := by
        intro s hs
        rcases List.mem_append.mp hs with hs | hs
        · exact (hcame s hs).tail hedge
        · rw [List.mem_singleton.mp hs]
          exact .single hedge
      have hfresh : forward.key ∉ seen ++ [step.key] :=
        fun hmem => not_cycle_leads h (hcame' _ hmem)
      obtain ⟨visited, action, hwalk, hdistinct, hvisited, hlast⟩ := ih hnextTable hgrown hheld
        hcame' (by rw [List.length_append, List.length_singleton]; omega) hfresh
        (List.nodup_append'.mpr ⟨hgrown, List.nodup_singleton _, by simpa using hfresh⟩)
        (List.append_subset.mpr ⟨hheld, by simpa using hnextTable⟩)
      refine ⟨step.key :: visited, action, by simp only [hwalk], ?_, ?_, hlast⟩
      · rw [List.append_assoc] at hdistinct
        exact hdistinct
      · exact List.cons_subset.mpr ⟨hkey, hvisited⟩

/-- **Routing is total and ends**: whatever the selectors match, a request that enters at a table
goes from table to table, none of them twice, to a rule that lets it out, hands it to a tunnel or
blocks it. -/
theorem routing_total (h : (compile checks doc).ensurePublishable = true) {app : AppIr}
    (happ : app ∈ (compile checks doc).apps) {step : Step} (hstep : step ∈ app.steps)
    (matched : Valuation) {fuel : ℕ} (hfuel : (compile checks doc).targetSteps.length ≤ fuel) :
    ∃ visited action,
      walk (compile checks doc).targetSteps matched fuel step.key = (visited, .done action)
        ∧ visited.Nodup
        ∧ visited ⊆ (compile checks doc).targetSteps.map Step.key
        ∧ Action.isLast action = true := by
  have hkey := List.mem_map_of_mem (f := Step.key) (mem_targetSteps happ hstep)
  obtain ⟨visited, action, hwalk, hnodup, hheld, hlast⟩ :=
    walk_ends h matched hkey List.nodup_nil (List.nil_subset _) (by simp) (by simpa using hfuel)
  exact ⟨visited, action, hwalk, by simpa using hnodup, hheld, hlast⟩

end Publishable

/-! ### Two projects at one listener -/

/-- A request that every selector matches. -/
def Valuation.first : Valuation := ⟨fun _ _ => true, fun _ => rfl⟩

/-- The project `web` forwards to `jp`, and `tools` enters the listener there. -/
def joinedSnapshot : ModelSnapshot :=
  plainSnapshot [plainNode "jp" "198.51.100.1", plainNode "sg" "198.51.100.2"]
    [plainApp "web" [⟨"main", "acme", "main", none⟩] [plainIngress "front" "main" "sg"]
      [⟨"main", "sg", none, none, [⟨.any, .forward "jp" (.addr "198.51.100.1:2000") .none⟩]⟩,
        { chain := "main", node := "jp", accept := some ⟨"uuid", "main@jp"⟩
          hopIn := some ⟨2000, .encryption ⟨"private", "public"⟩⟩
          rules := [⟨.any, .egress none⟩] }],
     plainApp "tools" [⟨"side", "acme", "side", none⟩] [plainIngress "near" "side" "jp"]
      [⟨"side", "jp", none, none, [⟨.any, .reuseListener ⟨"main", "jp"⟩ .overlay .none⟩]⟩]]

theorem routing_total_joined : let output := compile silentChecks joinedSnapshot
    ∃ app ∈ output.apps, ∃ step ∈ app.steps, step.key = ("side", "jp") ∧ ∃ visited action,
      walk output.targetSteps .first 3 step.key = (visited, .done action) ∧ visited.Nodup
        ∧ visited ⊆ output.targetSteps.map Step.key
        ∧ Action.isLast action = true := by
  have hside : ∃ app ∈ (compile silentChecks joinedSnapshot).apps, ∃ step ∈ app.steps,
      step.key = ("side", "jp") := by decide +kernel
  obtain ⟨app, happ, step, hstep, hkey⟩ := hside
  exact ⟨app, happ, step, hstep, hkey,
    routing_total (by decide +kernel) happ hstep .first (by decide +kernel)⟩

end Brocade.Ir
