/-
Where the rule tables of a compiled project come from.

Every table is that of a stored machine, put together from the fragments its chain has there.
-/
import Brocade.Ir.Routing

namespace Brocade.Ir

open Model

theorem mem_of_mergeStepField {T : Type} [DecidableEq T] {values : List (Option T)}
    {code location fieldName : String} {value : T}
    (h : (mergeStepField values code location fieldName).1 = some value) : some value ∈ values := by
  unfold mergeStepField at h
  split at h
  · cases h
  next first rest hvalues =>
    split at h
    · injection h with h
      have hmem : first ∈ values.filterMap id := by
        rw [hvalues]
        exact List.mem_cons_self
      obtain ⟨entry, hentry, hsome⟩ := List.mem_filterMap.mp hmem
      rw [← h, ← hsome]
      exact hentry
    · cases h

/-- A table that a chain compiled. -/
def Tabled (input : RoutingChainInput) (root : String) (step : Step) : Prop :=
  ∃ node ∈ input.nodes, step = (compileTable input root node node.id).step

theorem visitMember_tabled {input : RoutingChainInput} {root : String} {primary : List String}
    {nodeId : String} {st : ChainLoop} (h : ∀ step ∈ st.steps, Tabled input root step) :
    ∀ step ∈ (visitMember input root primary nodeId st).2.steps, Tabled input root step := by
  unfold visitMember
  split
  · exact h
  split
  · exact h
  next node hnode =>
    intro step hstep
    rcases List.mem_append.mp hstep with hold | hnew
    · exact h step hold
    · have hid : node.id = nodeId := by simpa using List.find?_some hnode
      rw [List.mem_singleton.mp hnew, ← hid]
      exact ⟨node, List.mem_of_find?_eq_some hnode, rfl⟩

theorem tabled_chainLoop (input : RoutingChainInput) (root : String) :
    ∀ step ∈ (chainLoop input root).steps, Tabled input root step :=
  Worklist.drain_keeps (P := fun st : ChainLoop => ∀ step ∈ st.steps, Tabled input root step)
    (fun _ _ hst => visitMember_tabled hst) (by simp)

theorem mem_compileChainSteps {input : RoutingChainInput} {step : Step}
    (h : step ∈ (compileChainSteps input).1) :
    ∃ root, input.root = some root ∧ Tabled input root step := by
  unfold compileChainSteps at h
  split at h
  · simp at h
  next root hroot => exact ⟨root, hroot, tabled_chainLoop input root step h⟩

theorem compileTable_hopIn {input : RoutingChainInput} {root nodeId : String} {node : Node}
    {hopIn : HopIn} (h : (compileTable input root node nodeId).step.hopIn = some hopIn) :
    ∃ source ∈ input.steps, source.node = nodeId ∧ source.hopIn = some hopIn := by
  have hmerged : (mergeStepField ((stepsAtSource input.steps input.chain.id nodeId).map (·.hopIn))
      "step.hop-in-conflict" s!"{input.chain.id}/{nodeId}" "中转 inbound").1 = some hopIn := by
    simp only [compileTable] at h
    split at h
    · split at h
      · exact h
      · cases h
    · exact h
  obtain ⟨source, hsource, hfield⟩ := List.mem_map.mp (mem_of_mergeStepField hmerged)
  obtain ⟨hmem, hplace⟩ := List.mem_filter.mp hsource
  rw [Bool.and_eq_true, decide_eq_true_eq, decide_eq_true_eq] at hplace
  exact ⟨source, hmem, hplace.2, hfield⟩

/-! ### Projects -/

section
variable {doc : ModelSnapshot} {app : AppView} {listenerRoots : List (String × String)}

theorem mem_compileApp_steps {step : Step} : step ∈ (compileApp doc app listenerRoots).1.steps ↔
      ∃ input ∈ chainInputs doc app listenerRoots, step ∈ (compileChainSteps input).1 := by
  simp [compileApp, compileAppWith, sortIr, sortById, RoutingChainInput.compile]

theorem relay_of_hopIn {step : Step} (h : step ∈ (compileApp doc app listenerRoots).1.steps)
    (happ : app ∈ doc.apps) {hopIn : HopIn} (hhopIn : step.hopIn = some hopIn) :
    step.node ∈ relays doc := by
  obtain ⟨input, hinput, hstep⟩ := mem_compileApp_steps.mp h
  obtain ⟨root, -, node, -, rfl⟩ := mem_compileChainSteps hstep
  obtain ⟨source, hsource, hnode, hfield⟩ := compileTable_hopIn hhopIn
  obtain ⟨chain, -, rfl⟩ := List.mem_map.mp hinput
  have hstored : source ∈ app.steps := (List.mem_filter.mp hsource).1
  refine List.mem_map.mpr ⟨source, List.mem_filter.mpr ⟨?_, by simp [hfield]⟩, hnode⟩
  exact List.mem_flatMap.mpr ⟨app, happ, hstored⟩

theorem compileGrant_of_mem {live : List Ingress} {grant : Grant}
    (h : grant ∈ (compileGrants doc app live).1) :
    ∃ seen source, (compileGrant doc app live seen source).1 = some grant := by
  have hfold : ∀ (grants : List Model.Grant) (acc : List String × List Grant × List Diagnostic),
      (∀ made ∈ acc.2.1, ∃ seen source, (compileGrant doc app live seen source).1 = some made) →
      ∀ made ∈ (grants.foldl (fun acc grant =>
        let compiled := compileGrant doc app live acc.1 grant
        let seen := compiled.1.toList.map fun grant =>
          s!"{userKey grant.tenant grant.user}|{grant.ingress}"
        (acc.1 ++ seen, acc.2.1 ++ compiled.1.toList, acc.2.2 ++ compiled.2)) acc).2.1,
        ∃ seen source, (compileGrant doc app live seen source).1 = some made := by
    intro grants
    induction grants with
    | nil => exact fun _ h => h
    | cons source grants ih =>
      intro acc hacc
      refine ih _ fun made hmem => ?_
      rcases List.mem_append.mp hmem with hold | hnew
      · exact hacc made hold
      · exact ⟨acc.1, source, Option.mem_toList.mp hnew⟩
  exact hfold app.grants ([], [], []) (fun _ h => by cases h) grant h

theorem compileGrant_some {live : List Ingress} {seen : List String} {source : Model.Grant}
    {made : Grant} (h : (compileGrant doc app live seen source).1 = some made) :
    (∃ ingress ∈ live, ingress.id = made.ingress)
      ∧ made.label = grantLabel made.user made.tenant made.ingress := by
  unfold compileGrant at h
  dsimp only at h
  split at h
  · cases h
  split at h
  · cases h
  next hlive =>
    split at h
    · cases h
    split at h
    · cases h
    · cases h
      exact ⟨by simpa using hlive, rfl⟩

end

end Brocade.Ir
