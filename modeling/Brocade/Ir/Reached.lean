/-
The tables that compile are those the walk over all projects reaches.

The walk starts at the heads of the chains that are not disabled and follows the stored rules.  A
publishable compilation makes a table of each one it comes to: the head's machine is known, and
what a compiled rule names is compiled.  It makes no other table: what a chain compiles is led to
from its head or from a listener the walk saw entered.
-/
import Brocade.Ir.Tables

namespace Brocade.Ir

open Model

/-- The walk over all projects comes to a table. -/
def Reached (doc : ModelSnapshot) (key : String × String) : Prop :=
  Worklist.From (walkNext doc) (walkRoots doc) key

/-! ### What the walk notes -/

theorem walkNext_dom {doc : ModelSnapshot} {key : String × String} (h : walkNext doc key ≠ []) :
    key ∈ storedTables doc := by
  obtain ⟨next, hnext⟩ := List.exists_mem_of_ne_nil _ h
  obtain ⟨rule, hrule, -⟩ := List.mem_filterMap.mp hnext
  unfold ownedRules at hrule
  cases howner : chainOwner doc key.1 with
  | none => simp [howner] at hrule
  | some app =>
    rw [howner] at hrule
    obtain ⟨step, hstep, -⟩ := List.mem_flatMap.mp hrule
    obtain ⟨hmem, hplace⟩ := List.mem_filter.mp hstep
    rw [Bool.and_eq_true, decide_eq_true_eq, decide_eq_true_eq] at hplace
    refine List.mem_map.mpr ⟨step, ?_, Prod.ext hplace.1 hplace.2⟩
    exact List.mem_flatMap.mpr ⟨app, List.mem_of_find?_eq_some howner, hmem⟩

theorem mem_listenerRoots {doc : ModelSnapshot} {ref : String × String} :
    ref ∈ reachableListenerRootsAcrossApps doc
      ↔ ∃ key, Reached doc key ∧ ref ∈ reusedAt doc key := by
  have hdom : ∀ key, walkNext doc key ≠ [] → key ∈ storedTables doc := fun _ => walkNext_dom
  obtain ⟨hmem, -, hnoted⟩ := @Worklist.explore_spec _ _ (walkRoots doc) _ _
    (fun reused key => reused ++ reusedAt doc key) _ [] hdom
  unfold reachableListenerRootsAcrossApps
  rw [OrdMap.mem_pairSet, hnoted, List.foldl_append_eq_append, List.nil_append]
  constructor
  · intro h
    obtain ⟨refs, hrefs, href⟩ := List.mem_flatten.mp h
    obtain ⟨key, hkey, rfl⟩ := List.mem_map.mp hrefs
    exact ⟨key, (hmem key).mp hkey, href⟩
  · intro h
    obtain ⟨key, hkey, href⟩ := h
    exact List.mem_flatten.mpr ⟨_, List.mem_map_of_mem ((hmem key).mpr hkey), href⟩

/-! ### Owners -/

section Publishable

variable {checks : Checks} {doc : ModelSnapshot}

variable {id : String} {view : AppView} {key : String × String} {rule : Rule}

theorem chainOwner_some (h : chainOwner doc id = some view) :
    view ∈ doc.apps ∧ id ∈ view.chains.map (·.id) := by
  have hany : view.chains.any (·.id = id) = true :=
    List.find?_some (p := fun app : AppView => app.chains.any (·.id = id)) h
  obtain ⟨chain, hchain, hid⟩ := List.any_eq_true.mp hany
  exact ⟨List.mem_of_find?_eq_some h, List.mem_map.mpr ⟨chain, hchain, by simpa using hid⟩⟩

section

variable (h : (compile checks doc).ensurePublishable = true)

include h

theorem chainOwner_of_mem (hview : view ∈ doc.apps) (hid : id ∈ view.chains.map (·.id)) :
    chainOwner doc id = some view := by
  cases howner : chainOwner doc id with
  | none =>
    obtain ⟨chain, hchain, rfl⟩ := List.mem_map.mp hid
    have hmiss := List.find?_eq_none.mp howner view hview
    exact absurd (List.any_eq_true.mpr ⟨chain, hchain, by simp⟩) hmiss
  | some owner =>
    obtain ⟨howned, hheld⟩ := chainOwner_some howner
    rw [view_unique h howned hview hheld hid]

theorem mem_globalDisabled (hview : view ∈ doc.apps) (hid : id ∈ view.chains.map (·.id)) :
    id ∈ globalDisabled doc ↔ id ∈ disabledChains doc view := by
  constructor
  · intro hdisabled
    obtain ⟨other, hother, hmem⟩ := List.mem_flatMap.mp hdisabled
    rw [view_unique h hview hother hid (List.mem_filter.mp hmem).1]
    exact hmem
  · exact fun hmem => List.mem_flatMap.mpr ⟨view, hview, hmem⟩

theorem globalRoot_some (hview : view ∈ doc.apps) (hid : id ∈ view.chains.map (·.id))
    {node : String} :
    globalRoot doc id = some node ↔ (selectedChainRoot view id).map (·.node) = some node := by
  have hheld : view.chains.any (·.id = id) = true := by
    obtain ⟨chain, hchain, rfl⟩ := List.mem_map.mp hid
    exact List.any_eq_true.mpr ⟨chain, hchain, by simp⟩
  unfold globalRoot
  constructor
  · intro hroot
    obtain ⟨other, hother, hsome⟩ := List.exists_of_findSome?_eq_some hroot
    split_ifs at hsome with hany
    obtain ⟨chain, hchain, heq⟩ := List.any_eq_true.mp hany
    have htwin : id ∈ other.chains.map (·.id) :=
      List.mem_map.mpr ⟨chain, hchain, by simpa using heq⟩
    rw [view_unique h hview hother hid htwin]
    exact hsome
  · intro hroot
    cases hfound : doc.apps.findSome? fun app =>
        if app.chains.any (·.id = id) then (selectedChainRoot app id).map (·.node) else none with
    | none =>
      have hmiss := List.findSome?_eq_none_iff.mp hfound view hview
      rw [if_pos hheld, hroot] at hmiss
      cases hmiss
    | some found =>
      obtain ⟨other, hother, hsome⟩ := List.exists_of_findSome?_eq_some hfound
      split_ifs at hsome with hany
      obtain ⟨chain, hchain, heq⟩ := List.any_eq_true.mp hany
      have htwin : id ∈ other.chains.map (·.id) :=
        List.mem_map.mpr ⟨chain, hchain, by simpa using heq⟩
      rw [view_unique h hview hother hid htwin, hsome] at hroot
      exact hroot

theorem mem_walkRoots : key ∈ walkRoots doc ↔ ∃ view ∈ doc.apps,
      key.1 ∈ view.chains.map (·.id) ∧ key.1 ∉ disabledChains doc view
        ∧ ∃ root, selectedChainRoot view key.1 = some root ∧ root.node = key.2 := by
  constructor
  · intro hkey
    obtain ⟨id, hid, hsome⟩ := List.mem_filterMap.mp hkey
    obtain ⟨chain, hchain, rfl⟩ := List.mem_map.mp (OrdMap.mem_keySet.mp hid)
    obtain ⟨view, hview, hmem⟩ := List.mem_flatMap.mp hchain
    have hheld : chain.id ∈ view.chains.map (·.id) := List.mem_map_of_mem hmem
    split_ifs at hsome with hdisabled
    obtain ⟨node, hroot, rfl⟩ := Option.map_eq_some_iff.mp hsome
    obtain ⟨root, hselected, hnode⟩ :=
      Option.map_eq_some_iff.mp ((globalRoot_some h hview hheld).mp hroot)
    exact ⟨view, hview, hheld, fun hof => hdisabled ((mem_globalDisabled h hview hheld).mpr hof),
      root, hselected, hnode⟩
  · intro hkey
    obtain ⟨view, hview, hheld, hlive, root, hselected, hnode⟩ := hkey
    obtain ⟨chain, hchain, hid⟩ := List.mem_map.mp hheld
    have hroot : globalRoot doc key.1 = some key.2 :=
      (globalRoot_some h hview hheld).mpr (Option.map_eq_some_iff.mpr ⟨root, hselected, hnode⟩)
    refine List.mem_filterMap.mpr ⟨key.1, OrdMap.mem_keySet.mpr (List.mem_map.mpr ⟨chain,
      List.mem_flatMap.mpr ⟨view, hview, hchain⟩, hid⟩), ?_⟩
    rw [if_neg fun hof => hlive ((mem_globalDisabled h hview hheld).mp hof), hroot]
    rfl

end

/-! ### The rules of a table -/

theorem mem_rules_iff {input : RoutingChainInput} {root nodeId : String} {node : Node}
    {rule : Rule} (h : rule.action.forwardRef input.chain.id ≠ none) :
    rule ∈ (compileTable input root node nodeId).step.rules
      ↔ rule ∈ rulesAt input.steps input.chain.id nodeId := by
  show rule ∈ (appendDefaultRule node input.chain nodeId _).1 ↔ _
  unfold appendDefaultRule
  split
  · rfl
  · rw [List.mem_append, List.mem_singleton]
    refine or_iff_left fun hrule => h ?_
    rw [hrule]
    unfold terminalDefault
    split <;> rfl

theorem rulesAt_filter (steps : List Model.Step) (chain node : String) :
    rulesAt (steps.filter fun step => step.chain = chain) chain node
      = rulesAt steps chain node := by
  unfold rulesAt stepsAtSource
  rw [List.filter_filter]
  congr 1
  refine List.filter_congr fun step _ => ?_
  by_cases hchain : step.chain = chain <;> simp [hchain]

theorem mem_step_rules_iff (h : (compile checks doc).ensurePublishable = true) {app : AppIr}
    (happ : app ∈ (compile checks doc).apps) {step : Step} (hstep : step ∈ app.steps)
    (hleads : rule.action.forwardRef step.chain ≠ none) :
    rule ∈ step.rules ↔ rule ∈ ownedRules doc step.key := by
  obtain ⟨view, hview, rfl⟩ := mem_compile_apps happ
  obtain ⟨chain, hchain, hid, -, hown⟩ := chain_of_step hstep
  obtain ⟨root, -, node, -, htable⟩ := mem_compileChainSteps hown
  have howner : chainOwner doc step.chain = some view :=
    chainOwner_of_mem h hview (List.mem_map.mpr ⟨chain, hchain, hid⟩)
  have hnode : step.node = node.id := by rw [htable]; rfl
  have howned : ownedRules doc step.key = rulesAt view.steps step.chain node.id := by
    unfold ownedRules Step.key
    dsimp only
    rw [howner, hnode]
  rw [howned, ← hid, ← rulesAt_filter, htable]
  rw [← hid] at hleads
  exact @mem_rules_iff (routingChainInput doc view chain _ _) _ _ _ _ hleads

/-! ### Reached tables compile -/

theorem head_made (input : RoutingChainInput) (root : String) :
    (∃ step ∈ (chainLoop input root).steps, step.node = root)
      ∨ ¬ Clean (chainLoop input root).diagnostics := by
  have hfront : ∃ rest, chainLoopRoots input root = root :: rest := by
    unfold chainLoopRoots
    cases hset : OrdMap.keySet (root :: input.reusedListenerNodes) with
    | nil =>
      have hroot : root ∈ OrdMap.keySet (root :: input.reusedListenerNodes) :=
        OrdMap.mem_keySet.mpr List.mem_cons_self
      rw [hset] at hroot
      exact absurd hroot List.not_mem_nil
    | cons node nodes =>
      simp only [swapFront]
      split
      next heq => exact ⟨nodes, by rw [heq]⟩
      next => exact ⟨_, rfl⟩
  obtain ⟨rest, hrest⟩ := hfront
  let P := fun st : ChainLoop =>
    (∃ step ∈ st.steps, step.node = root) ∨ ¬ Clean st.diagnostics
  have hkeeps : ∀ nodeId st, P st → P (visitMember input root
      (chainMembersFromSteps input.steps input.chain.id root) nodeId st).2 := by
    intro nodeId st hst
    unfold visitMember
    split
    · exact hst
    split
    · exact hst.imp_right fun hfault hclean => hfault (clean_append.mp hclean).1
    · refine hst.imp ?_ fun hfault hclean => hfault (clean_append.mp hclean).1
      intro hmade
      obtain ⟨step, hstep, hnode⟩ := hmade
      exact ⟨step, List.mem_append_left _ hstep, hnode⟩
  have hfuel : rest.length + 1 + (forwardCandidates input.steps).length
      = rest.length + (forwardCandidates input.steps).length + 1 := by omega
  simp only [chainLoop, hrest, List.length_cons]
  rw [hfuel, Worklist.drain]
  refine Worklist.drain_keeps (P := P) hkeeps ?_
  -- the head is visited first, when nothing is made
  unfold visitMember
  rw [if_neg List.not_mem_nil]
  split
  · exact Or.inr fun hclean => not_clean_error (clean_append.mp hclean).2
  · exact Or.inl ⟨_, List.mem_append_right _ (List.mem_singleton_self _), rfl⟩

theorem clean_routing (h : (compile checks doc).ensurePublishable = true)
    (hview : view ∈ doc.apps) :
    Clean (compileApp doc view (reachableListenerRootsAcrossApps doc)).2 := by
  have hclean := clean_of_publishable h
  simp only [compile, finishCompile, clean_append] at hclean
  refine fun diagnostic hdiagnostic => hclean.1.1.2 diagnostic ?_
  exact List.mem_flatMap.mpr ⟨_, List.mem_map.mpr ⟨view, hview, rfl⟩, hdiagnostic⟩

theorem head_compiled (h : (compile checks doc).ensurePublishable = true)
    (hview : view ∈ doc.apps) {chain : Model.Chain} (hchain : chain ∈ view.chains)
    (hlive : chain.id ∉ disabledChains doc view) {root : Model.Ingress}
    (hroot : selectedChainRoot view chain.id = some root) :
    (chain.id, root.node) ∈ (compile checks doc).targetSteps.map Step.key := by
  have hsome : (routingChainInput doc view chain ((selectedChainRoot view chain.id).map (·.node))
      (reachableListenerRootsAcrossApps doc)).root = some root.node := by
    show (selectedChainRoot view chain.id).map (·.node) = some root.node
    rw [hroot]
    rfl
  have hinput : routingChainInput doc view chain ((selectedChainRoot view chain.id).map (·.node))
      (reachableListenerRootsAcrossApps doc)
      ∈ chainInputs doc view (reachableListenerRootsAcrossApps doc) :=
    List.mem_map.mpr ⟨chain, List.mem_filter.mpr ⟨hchain, by simpa using hlive⟩, rfl⟩
  have hclean := clean_routing h hview
  simp only [compileApp, compileAppWith, clean_append, clean_flatMap] at hclean
  have hchainClean := hclean.1.2 _ (List.mem_map_of_mem hinput)
  simp only [RoutingChainInput.compile, compileChainSteps, hsome, clean_append] at hchainClean
  obtain ⟨step, hstep, hnode⟩ := (head_made _ root.node).resolve_right
    (not_not.mpr hchainClean.1.1)
  have hmem : step ∈ (compileApp doc view (reachableListenerRootsAcrossApps doc)).1.steps := by
    refine mem_compileApp_steps.mpr ⟨_, hinput, ?_⟩
    simp only [compileChainSteps, hsome]
    exact hstep
  have hname := (nodup_chainLoop _ root.node).2 step hstep
  rw [compile_targetSteps]
  refine List.mem_map.mpr ⟨step, ?_, Prod.ext hname hnode⟩
  exact List.mem_flatMap.mpr ⟨_, List.mem_map_of_mem hview, hmem⟩

theorem forwardRef_of_walkEdge {chain : String} {next : String × String}
    (h : walkEdge doc chain rule = some next) :
    ∃ forward, rule.action.forwardRef chain = some forward ∧ forward.key = next := by
  unfold walkEdge at h
  split at h
  next target dial pool haction =>
    refine ⟨_, by rw [haction]; rfl, ?_⟩
    exact Option.some.inj h
  next listener dial pool haction =>
    split_ifs at h
    refine ⟨_, by rw [haction]; rfl, ?_⟩
    exact Option.some.inj h
  next => cases h
  next => cases h
  next => cases h

theorem next_compiled (h : (compile checks doc).ensurePublishable = true) {next : String × String}
    (hkey : key ∈ (compile checks doc).targetSteps.map Step.key)
    (hrule : rule ∈ ownedRules doc key) {forward : ForwardActionRef}
    (hforward : rule.action.forwardRef key.1 = some forward) (hnext : forward.key = next) :
    ∃ step ∈ (compile checks doc).targetSteps, step.key = next ∧ step.accept.isSome = true := by
  obtain ⟨step, hstep, rfl⟩ := List.mem_map.mp hkey
  obtain ⟨app, happ, hmem⟩ := List.mem_flatMap.mp hstep
  have hof : rule.action.forwardRef step.chain = some forward := hforward
  have hcompiled : rule ∈ step.rules :=
    (mem_step_rules_iff h happ hmem (by rw [hof]; exact Option.some_ne_none _)).mpr hrule
  obtain ⟨accept, hopIn, hentry⟩ := entry_of_edge h happ hmem
    (List.mem_filterMap.mpr ⟨rule, hcompiled, hof⟩)
  obtain ⟨target, htarget, haccept, -⟩ := entryOf_ok hentry
  obtain ⟨htargetMem, htargetKey⟩ := findStep_eq_some htarget
  exact ⟨target, htargetMem, htargetKey.trans hnext, by rw [haccept]; rfl⟩

/-- **Whatever the walk comes to is compiled.** -/
theorem compiled_of_reached (h : (compile checks doc).ensurePublishable = true)
    (hkey : Reached doc key) : key ∈ (compile checks doc).targetSteps.map Step.key := by
  obtain ⟨root, hroot, hreach⟩ := hkey
  induction hreach with
  | refl =>
    obtain ⟨view, hview, hheld, hlive, head, hhead, hnode⟩ := (mem_walkRoots h).mp hroot
    obtain ⟨chain, hchain, hid⟩ := List.mem_map.mp hheld
    rw [← hid] at hlive hhead
    have hcompiled := head_compiled h hview hchain hlive hhead
    rw [hid, hnode] at hcompiled
    exact hcompiled
  | @tail at' next _ hstep ih =>
    obtain ⟨rule, hrule, hedge⟩ := List.mem_filterMap.mp hstep
    obtain ⟨forward, hforward, hto⟩ := forwardRef_of_walkEdge hedge
    obtain ⟨step, hstep, hstepKey, -⟩ := next_compiled h ih hrule hforward hto
    exact List.mem_map.mpr ⟨step, hstep, hstepKey⟩

/-! ### Compiled tables are reached -/

/-- **Whatever is compiled the walk comes to.** -/
theorem reached_of_compiled (h : (compile checks doc).ensurePublishable = true) {app : AppIr}
    (happ : app ∈ (compile checks doc).apps) {step : Step} (hstep : step ∈ app.steps) :
    Reached doc step.key := by
  obtain ⟨view, hview, hof⟩ := mem_compile_apps happ
  obtain ⟨chain, hchain, hid, hlive, root, hroot, r, hr, hreach⟩ := from_roots h happ hof hstep
  have hheld : step.chain ∈ view.chains.map (·.id) := List.mem_map.mpr ⟨chain, hchain, hid⟩
  have howner := chainOwner_of_mem h hview hheld
  rw [hid] at hlive hroot hr
  have hentered : Reached doc (step.chain, r) := by
    rcases List.mem_cons.mp hr with rfl | hr
    · exact .of_root ((mem_walkRoots h).mpr ⟨view, hview, hheld, hlive, root, hroot, rfl⟩)
    · obtain ⟨ref, href, rfl⟩ := List.mem_map.mp hr
      obtain ⟨hmem, hchainOf⟩ := List.mem_filter.mp href
      obtain ⟨key, hkey, hreused⟩ := mem_listenerRoots.mp hmem
      obtain ⟨rule, hrule, hsome⟩ := List.mem_filterMap.mp hreused
      refine hkey.step (List.mem_filterMap.mpr ⟨rule, hrule, ?_⟩)
      have hto : ref.1 = step.chain := by simpa using hchainOf
      unfold walkEdge
      cases haction : rule.action with
      | reuseListener listener dial pool =>
        rw [haction] at hsome
        have hlistener : (listener.chain, listener.node) = ref := Option.some.inj hsome
        have hname : listener.chain = step.chain := by rw [← hto, ← hlistener]
        have henabled : step.chain ∉ globalDisabled doc := fun hdisabled =>
          hlive ((mem_globalDisabled h hview hheld).mp hdisabled)
        simp only [hname, howner, Option.isSome_some, henabled, not_false_eq_true, decide_true,
          Bool.and_self, if_true]
        rw [← hlistener]
      | forward target dial pool => exact absurd (haction ▸ hsome) nofun
      | egress sendThrough => exact absurd (haction ▸ hsome) nofun
      | proxy outbound => exact absurd (haction ▸ hsome) nofun
      | block => exact absurd (haction ▸ hsome) nofun
  have hnodes := nodup_nodes_of_chain (nodup_keys h happ) step.chain
  have hwalk : ∀ {n : String}, Worklist.Reaches
      (chainForwards (app.steps.filter (·.chain = step.chain))) r n →
      Reached doc (step.chain, n) := by
    intro n hn
    induction hn with
    | refl => exact hentered
    | @tail m n _ hstep ih =>
      refine ih.step ?_
      unfold chainForwards at hstep
      cases hfind : (app.steps.filter (·.chain = step.chain)).find? (·.node = m) with
      | none => simp [hfind] at hstep
      | some source =>
        have hnode : source.node = m := by simpa using List.find?_some hfind
        obtain ⟨hsource, hsame⟩ := List.mem_filter.mp (List.mem_of_find?_eq_some hfind)
        have hkey : source.key = (step.chain, m) :=
          Prod.ext (of_decide_eq_true hsame) hnode
        rw [hfind] at hstep
        obtain ⟨rule, hrule, htarget⟩ := List.mem_filterMap.mp hstep
        have hrule' : rule ∈ source.rules := by simpa using hrule
        refine List.mem_filterMap.mpr ⟨rule, ?_, ?_⟩
        · rw [← hkey]
          refine (mem_step_rules_iff h happ hsource ?_).mp hrule'
          intro hnone
          cases haction : rule.action <;> simp_all [Action.forwardTarget?, Action.forwardRef]
        · unfold walkEdge
          cases haction : rule.action <;> simp_all [Action.forwardTarget?]
  exact hwalk hreach

end Publishable

end Brocade.Ir
