/-
The rule tables of a publishable compilation.

A chain and a machine name one table among all projects.  Every table ends in Any, and every rule
of one that forwards or enters a listener finds the table it names.  A chain's tables are those its
rules lead to from its head and from the listeners that other rules enter.
-/
import Mathlib.Data.List.Pairwise
import Brocade.Ir.Edges
import Brocade.Ir.Identifiers

namespace Brocade.Ir

open Model

/-! ### Chains -/

section
variable {doc : ModelSnapshot} {view : AppView} {listenerRoots : List (String × String)}

theorem chain_of_step {step : Step} (h : step ∈ (compileApp doc view listenerRoots).1.steps) :
    ∃ chain ∈ view.chains, chain.id = step.chain ∧ chain.id ∉ disabledChains doc view
      ∧ step ∈ (compileChainSteps (routingChainInput doc view chain
          ((selectedChainRoot view chain.id).map (·.node)) listenerRoots)).1 := by
  obtain ⟨input, hinput, hstep⟩ := mem_compileApp_steps.mp h
  obtain ⟨chain, hchain, rfl⟩ := List.mem_map.mp hinput
  obtain ⟨hmem, hlive⟩ := List.mem_filter.mp hchain
  have hname := (nodup_compileChainSteps _).2 step hstep
  exact ⟨chain, hmem, hname.symm, by simpa using hlive, hstep⟩

end

/-! ### Where the tables of a chain come from -/

variable {steps : List Step} {step : Step}

theorem chainForwards_of_mem (hnodup : (steps.map (·.node)).Nodup) (hstep : step ∈ steps) :
    chainForwards steps step.node = step.rules.filterMap (·.action.forwardTarget?) := by
  have hfind : steps.find? (·.node = step.node) = some step := by
    cases hfound : steps.find? (·.node = step.node) with
    | none =>
      have hmiss := List.find?_eq_none.mp hfound step hstep
      simp at hmiss
    | some found =>
      have hnode : found.node = step.node := by simpa using List.find?_some hfound
      rw [List.inj_on_of_nodup_map hnodup (List.mem_of_find?_eq_some hfound) hstep hnode]
  simp [chainForwards, hfind]

theorem compileTable_forwards (input : RoutingChainInput) (root : String) (node : Node)
    (nodeId : String) :
    (compileTable input root node nodeId).step.rules.filterMap (·.action.forwardTarget?)
      = forwardsAt input.steps input.chain.id nodeId := by
  show (appendDefaultRule node input.chain nodeId _).1.filterMap _ = _
  unfold appendDefaultRule
  split
  · rfl
  · rw [List.filterMap_append]
    unfold terminalDefault
    split
    · exact List.append_nil _
    · exact List.append_nil _

/-- Where a chain's fragments lead from a machine that is known. -/
def RoutingChainInput.leads (input : RoutingChainInput) (nodeId : String) : List String :=
  if nodeId ∈ input.nodes.map (·.id) then forwardsAt input.steps input.chain.id nodeId else []

theorem visitMember_offers (input : RoutingChainInput) (root : String) (primary : List String) :
    Worklist.Offers input.leads (· ∈ input.nodes.map (·.id)) (visitMember input root primary)
      ChainLoop.seen ChainLoop.made where
  passed nodeId st h := by
    unfold visitMember
    split
    · exact ⟨rfl, rfl, rfl⟩
    next hnew =>
      split
      · exact ⟨rfl, rfl, rfl⟩
      next node hnode =>
        have hid : node.id = nodeId := by simpa using List.find?_some hnode
        exact absurd (List.mem_map.mpr ⟨node, List.mem_of_find?_eq_some hnode, hid⟩)
          (h.resolve_left hnew)
  taken nodeId st hnew hknown := by
    have hfound : (input.nodes.find? fun node => node.id = nodeId).isSome = true := by
      rw [List.find?_isSome]
      simpa using hknown
    obtain ⟨node, hnode⟩ := Option.isSome_iff_exists.mp hfound
    unfold visitMember RoutingChainInput.leads
    rw [if_neg hnew, if_pos hknown, hnode, ← compileTable_forwards input root node]
    exact ⟨rfl, rfl⟩

theorem mem_swapFront {root n : String} {nodes : List String} (h : root ∈ nodes) :
    n ∈ swapFront root nodes ↔ n ∈ nodes := by
  cases nodes with
  | nil => exact absurd h List.not_mem_nil
  | cons first rest =>
    simp only [swapFront]
    by_cases hfirst : first = root
    · rw [if_pos hfirst]
    rw [if_neg hfirst]
    have hroot : root ∈ rest := (List.mem_cons.mp h).resolve_left (Ne.symm hfirst)
    rw [List.mem_cons, List.mem_map, List.mem_cons]
    constructor
    · rintro (rfl | ⟨other, hother, rfl⟩)
      · exact .inr hroot
      · split
        · exact .inl rfl
        · exact .inr hother
    · rintro (rfl | hn)
      · exact .inr ⟨root, hroot, if_pos rfl⟩
      · by_cases hsame : n = root
        · exact .inl hsame
        · exact .inr ⟨n, hn, if_neg hsame⟩

theorem mem_chainLoopRoots {input : RoutingChainInput} {root n : String} :
    n ∈ chainLoopRoots input root ↔ n ∈ root :: input.reusedListenerNodes :=
  (mem_swapFront (OrdMap.mem_keySet.mpr List.mem_cons_self)).trans OrdMap.mem_keySet

/-- **The machines a chain has tables on are those that are known and led to**, from its head or
from a listener that is entered. -/
theorem mem_made (input : RoutingChainInput) (root nodeId : String) :
    nodeId ∈ (chainLoop input root).made ↔ nodeId ∈ input.nodes.map (·.id)
      ∧ Worklist.From input.leads (root :: input.reusedListenerNodes) nodeId := by
  have hcandidates : ∀ n, ∀ m ∈ input.leads n, m ∈ forwardCandidates input.steps := by
    intro n m hm
    unfold RoutingChainInput.leads at hm
    split at hm
    · obtain ⟨rule, hrule, htarget⟩ := List.mem_filterMap.mp hm
      obtain ⟨step, hstep, hof⟩ := List.mem_flatMap.mp hrule
      exact List.mem_filterMap.mpr ⟨rule,
        List.mem_flatMap.mpr ⟨step, List.mem_of_mem_filter hstep, hof⟩, htarget⟩
    · cases hm
  have hstart : ChainLoop.seen ⟨chainLoopRoots input root, [], [], false, []⟩
      = chainLoopRoots input root := rfl
  have hdone : nodeId ∈ (chainLoop input root).made ↔ nodeId ∈ input.nodes.map (·.id)
      ∧ Worklist.From input.leads (chainLoopRoots input root) nodeId :=
    (visitMember_offers input root _).mem_done (fun n hn => if_neg hn) hcandidates le_rfl hstart rfl
      nodeId
  exact hdone.trans (and_congr_right' (Worklist.From.congr fun _ => mem_chainLoopRoots))

/-- **Every table of a chain is led to** by the tables, from its head or from a listener that is
entered. -/
theorem from_of_chainLoop (input : RoutingChainInput) (root : String)
    (h : step ∈ (chainLoop input root).steps) :
    Worklist.From (chainForwards (chainLoop input root).steps)
      (root :: input.reusedListenerNodes) step.node := by
  obtain ⟨hnodes, hnodup⟩ := nodes_chainLoop input root
  obtain ⟨-, r, hr, hreach⟩ := (mem_made input root step.node).mp (hnodes ▸ List.mem_map_of_mem h)
  refine ⟨r, hr, ?_⟩
  have hwalk : ∀ {n : String}, Worklist.Reaches input.leads r n →
      Worklist.Reaches (chainForwards (chainLoop input root).steps) r n := by
    intro n hn
    induction hn with
    | refl => exact .refl
    | @tail m n hm hedge ih =>
      refine ih.tail ?_
      have hknown : m ∈ input.nodes.map (·.id) := by
        by_contra hunknown
        rw [RoutingChainInput.leads, if_neg hunknown] at hedge
        cases hedge
      have hmade := (mem_made input root m).mpr ⟨hknown, r, hr, hm⟩
      rw [← hnodes] at hmade
      obtain ⟨source, hsource, rfl⟩ := List.mem_map.mp hmade
      obtain ⟨node, -, htable⟩ := tabled_chainLoop input root source hsource
      rw [RoutingChainInput.leads, if_pos hknown] at hedge
      rw [chainForwards_of_mem (hnodes ▸ hnodup) hsource, htable, compileTable_forwards]
      rw [htable] at hedge
      exact hedge
  exact hwalk hreach

theorem nodup_nodes_of_chain (h : (steps.map Step.key).Nodup) (chain : String) :
    ((steps.filter (·.chain = chain)).map (·.node)).Nodup := by
  have hkeys := h.sublist ((List.filter_sublist (p := fun s => s.chain = chain)).map Step.key)
  have hpairs : (steps.filter (·.chain = chain)).map Step.key
      = ((steps.filter (·.chain = chain)).map (·.node)).map fun node => (chain, node) := by
    rw [List.map_map]
    refine List.map_congr_left fun step hstep => ?_
    have hof : step.chain = chain := by simpa using (List.mem_filter.mp hstep).2
    simp [Step.key, hof]
  rw [hpairs] at hkeys
  exact hkeys.of_map _

/-- **Every table of a project is led to within its chain**, where a chain has one table a
machine. -/
theorem compileApp_from_roots {doc : ModelSnapshot} {view : AppView}
    {listenerRoots : List (String × String)}
    (hkeys : ((compileApp doc view listenerRoots).1.steps.map Step.key).Nodup)
    (hstep : step ∈ (compileApp doc view listenerRoots).1.steps) :
    ∃ chain ∈ view.chains, chain.id = step.chain ∧ chain.id ∉ disabledChains doc view
      ∧ ∃ root, selectedChainRoot view chain.id = some root
      ∧ Worklist.From (chainForwards
          ((compileApp doc view listenerRoots).1.steps.filter (·.chain = step.chain)))
        (root.node :: (listenerRoots.filter (·.1 = chain.id)).map (·.2)) step.node := by
  obtain ⟨chain, hchain, hid, hlive, hown⟩ := chain_of_step hstep
  obtain ⟨root, hroot, -⟩ := mem_compileChainSteps hown
  obtain ⟨head, hhead, rfl⟩ := Option.map_eq_some_iff.mp hroot
  have hinput : routingChainInput doc view chain ((selectedChainRoot view chain.id).map (·.node))
      listenerRoots ∈ chainInputs doc view listenerRoots :=
    List.mem_map.mpr ⟨chain, List.mem_filter.mpr ⟨hchain, by simpa using hlive⟩, rfl⟩
  refine ⟨chain, hchain, hid, hlive, head, hhead, ?_⟩
  have hloop : ∀ {input : RoutingChainInput}, input.root = some head.node →
      (compileChainSteps input).1 = (chainLoop input head.node).steps := by
    intro input hsome
    simp only [compileChainSteps, hsome]
  have hown' := hown
  rw [hloop hroot] at hown'
  obtain ⟨r, hr, hreach⟩ := from_of_chainLoop _ head.node hown'
  have hnodes := nodup_nodes_of_chain hkeys step.chain
  refine ⟨r, hr, hreach.lift id ?_⟩
  intro a b hab
  unfold chainForwards at hab
  cases hfind : (chainLoop (routingChainInput doc view chain
      ((selectedChainRoot view chain.id).map (·.node)) listenerRoots)
      head.node).steps.find? (·.node = a) with
  | none => simp [hfind] at hab
  | some found =>
    have hnode : found.node = a := by simpa using List.find?_some hfind
    have hmem := List.mem_of_find?_eq_some hfind
    have hfound : found ∈ (compileApp doc view listenerRoots).1.steps :=
      mem_compileApp_steps.mpr ⟨_, hinput, by rw [hloop hroot]; exact hmem⟩
    have hsame : found.chain = step.chain :=
      ((nodup_chainLoop _ head.node).2 found hmem).trans hid
    have hforwards := chainForwards_of_mem hnodes
      (List.mem_filter.mpr ⟨hfound, by simpa using hsame⟩)
    rw [hfind] at hab
    show b ∈ chainForwards _ a
    rw [← hnode, hforwards]
    simpa using hab

/-- Every table is led to from the entries of its chain, which has a head. -/
def LedTo (app : AppIr) : Prop :=
  ∀ step ∈ app.steps, ∃ root, (∃ chain ∈ app.chains, chain.id = step.chain)
    ∧ (∀ chain ∈ app.chains, chain.id = step.chain → chain.root = some root)
    ∧ Worklist.From (chainForwards (app.steps.filter (·.chain = step.chain)))
      (chainEntries app step.chain root) step.node

theorem compileApp_ledTo {doc : ModelSnapshot} {view : AppView}
    {listenerRoots : List (String × String)}
    (hkeys : ((compileApp doc view listenerRoots).1.steps.map Step.key).Nodup) :
    LedTo (compileApp doc view listenerRoots).1 := by
  intro step hstep
  obtain ⟨chain, hchain, hid, hlive, head, hhead, r, hr, hreach⟩ :=
    compileApp_from_roots hkeys hstep
  have hinput : routingChainInput doc view chain ((selectedChainRoot view chain.id).map (·.node))
      listenerRoots ∈ chainInputs doc view listenerRoots :=
    List.mem_map.mpr ⟨chain, List.mem_filter.mpr ⟨hchain, by simpa using hlive⟩, rfl⟩
  refine ⟨head.node, ⟨_, List.mem_map_of_mem (List.mem_map_of_mem hinput), hid⟩, ?_, r, ?_, hreach⟩
  · intro compiled hcompiled hname
    obtain ⟨_, hmem, rfl⟩ := List.mem_map.mp hcompiled
    obtain ⟨input, hinputs, rfl⟩ := List.mem_map.mp hmem
    obtain ⟨source, -, rfl⟩ := List.mem_map.mp hinputs
    show (selectedChainRoot view source.id).map (·.node) = some head.node
    have hsame : source.id = chain.id := Eq.trans hname hid.symm
    rw [hsame, hhead]
    rfl
  · refine OrdMap.mem_keySet.mpr (List.mem_cons.mpr ((List.mem_cons.mp hr).imp_right ?_))
    intro hreused
    obtain ⟨ref, href, rfl⟩ := List.mem_map.mp hreused
    obtain ⟨hmem, hof⟩ := List.mem_filter.mp href
    have hchainOf : ref.1 = chain.id := by simpa using hof
    refine List.mem_map.mpr ⟨ref, List.mem_filter.mpr ⟨?_, by simpa [hchainOf] using hid⟩, rfl⟩
    refine OrdMap.mem_pairSet.mpr (List.mem_append_right _ (List.mem_filter.mpr ⟨hmem, ?_⟩))
    exact List.any_eq_true.mpr ⟨chain, hchain, by simpa using hchainOf.symm⟩

/-! ### What a publishable compilation holds -/

section Publishable

variable {checks : Checks} {doc : ModelSnapshot}

/-- **A chain and a machine name one table among all projects.** -/
theorem nodup_tables (h : (compile checks doc).ensurePublishable = true) :
    ((compile checks doc).targetSteps.map Step.key).Nodup := by
  have hall := nodup_chains (clean_snapshot h)
  rw [List.map_flatMap, List.nodup_flatMap] at hall
  obtain ⟨hown, hapart⟩ := hall
  rw [compile_targetSteps, List.flatMap_map, List.map_flatMap, List.nodup_flatMap]
  refine ⟨fun view hview => nodup_compileApp_steps (hown view hview), hapart.imp ?_⟩
  intro view other hdisjoint key hkey hother
  obtain ⟨step, hstep, rfl⟩ := List.mem_map.mp hkey
  obtain ⟨step', hstep', hsame⟩ := List.mem_map.mp hother
  obtain ⟨chain, hchain, hid, -⟩ := chain_of_step hstep
  obtain ⟨chain', hchain', hid', -⟩ := chain_of_step hstep'
  have hchains : step'.chain = step.chain := congrArg Prod.fst hsame
  refine hdisjoint (List.mem_map.mpr ⟨chain, hchain, rfl⟩) (List.mem_map.mpr ⟨chain', hchain', ?_⟩)
  rw [hid, hid', hchains]

variable {app : AppIr} {step : Step}

theorem mem_targetSteps (happ : app ∈ (compile checks doc).apps) (hstep : step ∈ app.steps) :
    step ∈ (compile checks doc).targetSteps :=
  List.mem_flatMap.mpr ⟨app, happ, hstep⟩

theorem findStep_of_mem {steps : List Step} (hnodup : (steps.map Step.key).Nodup)
    (hstep : step ∈ steps) : findStep steps step.key = some step := by
  cases hfind : findStep steps step.key with
  | none =>
    have hmiss := List.find?_eq_none.mp hfind step hstep
    simp [Step.key] at hmiss
  | some found =>
    obtain ⟨hfound, hkey⟩ := findStep_eq_some hfind
    rw [List.inj_on_of_nodup_map hnodup hfound hstep hkey]

theorem foldl_addHop_entries {targetSteps : List Step} {sys : SystemIr}
    (edges : List (Step × ForwardActionRef)) : ∀ {table : HopTable},
      Clean (edges.foldl (addHop app targetSteps sys) table).2 → ∀ edge ∈ edges,
        ∃ entry, entryOf targetSteps edge.1 edge.2 = .ok entry := by
  induction edges with
  | nil => simp
  | cons edge rest ih =>
    intro table h other hother
    rw [List.foldl_cons] at h
    rcases List.mem_cons.mp hother with rfl | hother
    · cases hentry : entryOf targetSteps other.1 other.2 with
      | ok entry => exact ⟨entry, rfl⟩
      | error d =>
        have hreports : ∃ more, (rest.foldl (addHop app targetSteps sys)
            (addHop app targetSteps sys table other)).2
            = (addHop app targetSteps sys table other).2 ++ more := foldl_addHop_reports rest _
        obtain ⟨more, hmore⟩ := hreports
        rw [hmore, addHop, hentry] at h
        have hfault := (clean_append.mp (clean_append.mp h).1).2
        exact absurd (entryOf_error hentry) (hfault d List.mem_cons_self)
    · exact ih h other hother

section

variable (h : (compile checks doc).ensurePublishable = true)

include h

/-- **Every rule that names a table finds it.** -/
theorem entry_of_edge (happ : app ∈ (compile checks doc).apps) (hstep : step ∈ app.steps)
    {forward : ForwardActionRef} (hforward : forward ∈ step.forwards) :
    ∃ accept hopIn, entryOf (compile checks doc).targetSteps step forward
      = .ok (accept, hopIn) := by
  obtain ⟨view, hview, rfl⟩ := mem_compile_apps happ
  have hclean := clean_hops h hview
  have hedge : (step, forward) ∈ edgesOf
      (compileApp doc view (reachableListenerRootsAcrossApps doc)).1.steps :=
    List.mem_flatMap.mpr ⟨step, hstep, List.mem_map.mpr ⟨forward, hforward, rfl⟩⟩
  obtain ⟨entry, hentry⟩ := foldl_addHop_entries _ hclean _ hedge
  exact ⟨entry.1, entry.2, hentry⟩

theorem clean_step (happ : app ∈ (compile checks doc).apps) (hstep : step ∈ app.steps) :
    Clean (validateStep (compile checks doc).system app step) := by
  have hclean := clean_app h happ
  simp only [validateApp, clean_append] at hclean
  exact clean_flatMap.mp hclean.1.1.1.1.1.1.1.1.2 step hstep

theorem clean_topology (happ : app ∈ (compile checks doc).apps) : Clean (validateTopology app) := by
  have hclean := clean_app h happ
  simp only [validateApp, clean_append] at hclean
  exact hclean.1.1.1.1.1.1.2

/-- **Every table ends in Any.** -/
theorem last_isAny (happ : app ∈ (compile checks doc).apps) (hstep : step ∈ app.steps) :
    ∃ rule ∈ step.rules, rule.destMatch = .any := by
  have hstepClean := clean_step h happ hstep
  unfold validateStep at hstepClean
  rw [clean_append] at hstepClean
  cases hlast : step.rules.getLast? with
  | none =>
    rw [hlast] at hstepClean
    exact absurd hstepClean.2 not_clean_error
  | some last =>
    rw [hlast] at hstepClean
    simp only [clean_append, clean_errorIf] at hstepClean
    refine ⟨last, List.mem_of_getLast? hlast, ?_⟩
    have hany : last.destMatch.isAny = true := by simpa using hstepClean.2.1.1.1
    cases hmatch : last.destMatch <;> simp [hmatch, DestMatch.isAny] at hany ⊢

theorem nodup_keys (happ : app ∈ (compile checks doc).apps) : (app.steps.map Step.key).Nodup := by
  have hall := nodup_tables h
  rw [CompileOutput.targetSteps, List.map_flatMap, List.nodup_flatMap] at hall
  exact hall.1 app happ

theorem view_unique {view other : AppView} (hview : view ∈ doc.apps) (hother : other ∈ doc.apps)
    {id : String} (hchain : id ∈ view.chains.map (·.id)) (htwin : id ∈ other.chains.map (·.id)) :
    view = other := by
  have hall := nodup_chains (clean_snapshot h)
  rw [List.map_flatMap, List.nodup_flatMap] at hall
  by_cases hsame : view = other
  · exact hsame
  · have hsymm : Std.Symm (Function.onFun List.Disjoint
        fun view : AppView => view.chains.map (·.id)) := ⟨fun _ _ hab => List.Disjoint.symm hab⟩
    have hdisjoint := hall.2.forall hview hother hsame
    exact absurd htwin (hdisjoint hchain)

theorem app_unique {other : AppIr} (happ : app ∈ (compile checks doc).apps)
    (hother : other ∈ (compile checks doc).apps) {chain twin : Chain} (hchain : chain ∈ app.chains)
    (htwin : twin ∈ other.chains) (hid : chain.id = twin.id) : app = other := by
  obtain ⟨view, hview, rfl⟩ := mem_compile_apps happ
  obtain ⟨view', hview', rfl⟩ := mem_compile_apps hother
  have hstored : ∀ {view : AppView} {chain : Chain}, chain ∈ (compileHopsWithTargets
        (compileApp doc view (reachableListenerRootsAcrossApps doc)).1
        (compile checks doc).targetSteps (compile checks doc).system).1.chains →
      chain.id ∈ view.chains.map (·.id) := by
    intro view chain hmem
    obtain ⟨compiled, hcompiled, rfl⟩ := List.mem_map.mp hmem
    obtain ⟨input, hinput, rfl⟩ := List.mem_map.mp hcompiled
    obtain ⟨source, hsource, rfl⟩ := List.mem_map.mp hinput
    exact List.mem_map_of_mem (List.mem_filter.mp hsource).1
  rw [view_unique h hview hview' (hstored hchain) (hid ▸ hstored htwin)]

/-- **Every table is led to within its chain**, from the head or from a listener that the walk over
all projects saw entered. -/
theorem from_roots {view : AppView} (happ : app ∈ (compile checks doc).apps)
    (hview : app = (compileHopsWithTargets
      (compileApp doc view (reachableListenerRootsAcrossApps doc)).1
      (compile checks doc).targetSteps (compile checks doc).system).1) (hstep : step ∈ app.steps) :
    ∃ chain ∈ view.chains, chain.id = step.chain ∧ chain.id ∉ disabledChains doc view
      ∧ ∃ root, selectedChainRoot view chain.id = some root
      ∧ Worklist.From (chainForwards (app.steps.filter (·.chain = step.chain)))
        (root.node :: ((reachableListenerRootsAcrossApps doc).filter
          (·.1 = chain.id)).map (·.2)) step.node := by
  have hkeys := nodup_keys h happ
  subst hview
  exact compileApp_from_roots hkeys hstep

theorem from_entries (happ : app ∈ (compile checks doc).apps) (hstep : step ∈ app.steps) :
    ∃ chain ∈ app.chains, chain.id = step.chain ∧ ∃ root, chain.root = some root
      ∧ Worklist.From (chainForwards (app.steps.filter (·.chain = step.chain)))
        (chainEntries app step.chain root) step.node := by
  have hkeys := nodup_keys h happ
  obtain ⟨view, -, rfl⟩ := mem_compile_apps happ
  obtain ⟨root, ⟨chain, hchain, hid⟩, hroot, hfrom⟩ := compileApp_ledTo hkeys step hstep
  exact ⟨chain, hchain, hid, root, hroot chain hchain hid, hfrom⟩

end

end Publishable

end Brocade.Ir
