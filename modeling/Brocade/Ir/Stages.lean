/-
What the stages of a compilation read.

A stage kept for later must not depend on anything its key leaves out.  The routing of a project
reads the document it is in only through the fleet's settings, machines and users, and the listeners
entered from elsewhere only where they are its own.  Its hops read of the tables of all projects only
those its rules name.  Its checks read neither the revision nor, as long as nothing is wrong, which
of its listeners are entered from elsewhere: whatever table is there was led to, so that asking
for the way to it again finds nothing.
-/
import Brocade.Ir.Walk

namespace Brocade.Ir

open Model

/-! ### Routing -/

/-- What the key of a project's routing holds. -/
structure RoutingAppKey where
  settings : ModelSettings
  nodes : List Node
  nodeEgressDns : List NodeEgressDnsPolicy
  users : List User
  externalOutbounds : List ExternalOutbound
  app : AppView
  listenerRoots : List (String × String)

/-- What a routing is kept under. -/
def routingAppKey (doc : ModelSnapshot) (app : AppView) (listenerRoots : List (String × String)) :
    RoutingAppKey where
  settings := doc.settings
  nodes := doc.nodes
  nodeEgressDns := doc.nodeEgressDns
  users := doc.users
  externalOutbounds := doc.externalOutbounds
  app := app
  listenerRoots := listenerRoots.filter fun ref => app.chains.any (·.id = ref.1)

theorem filter_own_roots {app : AppView} {chain : Model.Chain} (h : chain ∈ app.chains)
    (listenerRoots : List (String × String)) :
    (listenerRoots.filter fun ref => app.chains.any (·.id = ref.1)).filter
        (fun ref => ref.1 = chain.id)
      = listenerRoots.filter fun ref => ref.1 = chain.id := by
  rw [List.filter_filter]
  refine List.filter_congr fun ref _ => ?_
  by_cases href : ref.1 = chain.id
  · have hany : (app.chains.any (·.id = ref.1)) = true :=
      List.any_eq_true.mpr ⟨chain, h, by simpa using href.symm⟩
    rw [hany, Bool.and_true]
  · rw [decide_eq_false href, Bool.false_and]

theorem compileRoutingApp_own_roots (doc : ModelSnapshot) (app : AppView)
    (listenerRoots : List (String × String)) :
    compileRoutingApp doc app (listenerRoots.filter fun ref => app.chains.any (·.id = ref.1))
      = compileRoutingApp doc app listenerRoots := by
  have hinputs : chainInputs doc app
      (listenerRoots.filter fun ref => app.chains.any (·.id = ref.1))
      = chainInputs doc app listenerRoots := by
    refine List.map_congr_left fun chain hchain => ?_
    simp only [routingChainInput, filter_own_roots (List.mem_filter.mp hchain).1]
  simp only [compileRoutingApp, compileApp, compileAppWith, hinputs, List.filter_filter,
    Bool.and_self]

/-- **A project's routing is what its key says.** -/
theorem compileRoutingApp_of_key {doc doc' : ModelSnapshot} {app app' : AppView}
    {listenerRoots listenerRoots' : List (String × String)}
    (hrevision : doc.revision = doc'.revision)
    (hkey : routingAppKey doc app listenerRoots = routingAppKey doc' app' listenerRoots') :
    compileRoutingApp doc app listenerRoots = compileRoutingApp doc' app' listenerRoots' := by
  rw [← compileRoutingApp_own_roots doc app, ← compileRoutingApp_own_roots doc' app']
  obtain ⟨revision, cidr, settings, nodes, dns, users, outbounds, apps⟩ := doc
  obtain ⟨revision', cidr', settings', nodes', dns', users', outbounds', apps'⟩ := doc'
  simp only [routingAppKey, RoutingAppKey.mk.injEq] at hkey hrevision
  obtain ⟨rfl, rfl, rfl, rfl, rfl, rfl, hroots⟩ := hkey
  subst hrevision
  rw [hroots]
  rfl

/-! ### Hops -/

/-- The tables that the rules of a project name. -/
def dependencies (app : AppIr) (targetSteps : List Step) : List Step :=
  targetSteps.filter fun step => step.key ∈ (edgesOf app.steps).map (·.2.key)

theorem findStep_filter {steps : List Step} {keys : List (String × String)} {key : String × String}
    (h : key ∈ keys) : findStep (steps.filter fun step => step.key ∈ keys) key
      = findStep steps key := by
  have hkey : ∀ step : Step, (step.chain = key.1 && step.node = key.2) = true → step.key = key := by
    intro step hstep
    simp only [Bool.and_eq_true, decide_eq_true_eq] at hstep
    exact Prod.ext hstep.1 hstep.2
  unfold findStep
  rw [List.find?_filter]
  refine congrArg (fun p => List.find? p steps) (funext fun step => ?_)
  by_cases hfound : (step.chain = key.1 && step.node = key.2) = true
  · simp [hkey step hfound, h, hfound]
  · simp [hfound]

/-- **Hops read only the tables that the rules name.** -/
theorem compileHopsWithTargets_dependencies (app : AppIr) (targetSteps : List Step)
    (sys : SystemIr) : compileHopsWithTargets app (dependencies app targetSteps) sys
      = compileHopsWithTargets app targetSteps sys := by
  have hedge : ∀ edge ∈ edgesOf app.steps, entryOf (dependencies app targetSteps) edge.1 edge.2
      = entryOf targetSteps edge.1 edge.2 := by
    intro edge hmem
    unfold entryOf
    rw [dependencies, findStep_filter (List.mem_map_of_mem hmem)]
  have hfold : ∀ (edges : List (Step × ForwardActionRef)) (table : HopTable),
      (∀ edge ∈ edges, edge ∈ edgesOf app.steps) →
      edges.foldl (addHop app (dependencies app targetSteps) sys) table
        = edges.foldl (addHop app targetSteps sys) table := by
    intro edges
    induction edges with
    | nil => intro table _; rfl
    | cons edge edges ih =>
      intro table h
      have hsame : addHop app (dependencies app targetSteps) sys table edge
          = addHop app targetSteps sys table edge := by
        unfold addHop
        rw [hedge edge (h edge List.mem_cons_self)]
      rw [List.foldl_cons, List.foldl_cons, hsame]
      exact ih _ fun other hother => h other (List.mem_cons_of_mem _ hother)
  unfold compileHopsWithTargets
  rw [hfold _ _ fun _ hedge => hedge]

/-! ### What is neither the revision nor bookkeeping -/

def AppIr.content (app : AppIr) : AppIr := { app with revision := 0, listenerRoots := [] }

def SystemIr.content (sys : SystemIr) : SystemIr := { sys with revision := 0 }

/-- The checks that are kept as parameters read nothing else. -/
structure Checks.OnContent (checks : Checks) : Prop where
  frontRoutes : ∀ sys app front,
    checks.frontRoutes sys app front = checks.frontRoutes sys.content app.content front
  subscriptionNames : ∀ apps, checks.subscriptionNames apps
    = checks.subscriptionNames (apps.map AppIr.content)

theorem onContent_silent : silentChecks.OnContent := ⟨fun _ _ _ => rfl, fun _ => rfl⟩

theorem compileHopsWithTargets_content (app : AppIr) (targetSteps : List Step) (sys : SystemIr) :
    (compileHopsWithTargets app targetSteps sys).1.content
        = (compileHopsWithTargets app.content targetSteps sys.content).1
      ∧ (compileHopsWithTargets app targetSteps sys).2
        = (compileHopsWithTargets app.content targetSteps sys.content).2 :=
  ⟨rfl, rfl⟩

/-! ### Topology -/

/-- **Which listeners are entered from elsewhere matters to no check that passes.**  Where two
projects have the same chains and tables, all of them led to, and nothing is reported of the one's
topology, nothing is of the other's. -/
theorem clean_topology_of_same {app app' : AppIr} (hchains : app.chains = app'.chains)
    (hsteps : app.steps = app'.steps) (hled : LedTo app) (hled' : LedTo app')
    (h : Clean (validateTopology app)) : Clean (validateTopology app') := by
  have hends : ∀ step ∈ app'.steps,
      Dfs.Ends (chainForwards (app'.steps.filter (·.chain = step.chain))) step.node := by
    intro step hstep
    rw [← hsteps] at hstep ⊢
    obtain ⟨root, ⟨chain, hchain, hid⟩, hroot, hfrom⟩ := hled step hstep
    exact ends_of_topology h hchain hid (hroot chain hchain hid) hfrom
  have h' := h
  simp only [validateTopology, clean_append, clean_flatMap] at h' ⊢
  refine ⟨fun chain hchain root hroot => ?_, ?_⟩
  · have hhead : chain.root = some root := by simpa using hroot
    have htopology := h'.1 chain (hchains ▸ hchain) root hroot
    simp only [validateChainTopology, clean_append, clean_map] at htopology ⊢
    rw [hsteps] at htopology
    refine ⟨⟨?_, fun node hnode => ?_⟩, htopology.2⟩
    · -- a table that nothing forwards to is an entry itself
      rw [clean_flatMap]
      intro node hnode
      rw [clean_errorIf]
      by_contra hbad
      simp only [Bool.not_eq_false, Bool.and_eq_true, decide_eq_true_eq] at hbad
      obtain ⟨⟨hother, hnot⟩, hlost⟩ := hbad
      rcases List.mem_append.mp (OrdMap.mem_keySet.mp hnode) with hmem | hmem
      · obtain ⟨step, hstep, rfl⟩ := List.mem_map.mp hmem
        obtain ⟨hin, hof⟩ := List.mem_filter.mp hstep
        have hname : step.chain = chain.id := by simpa using hof
        obtain ⟨head, -, hheads, r, hr, hreach⟩ := hled' step hin
        have hheadEq := hheads chain hchain hname.symm
        rw [hhead] at hheadEq
        cases hheadEq
        rw [hname] at hr hreach
        rcases Relation.ReflTransGen.cases_tail hreach with heq | ⟨before, -, hlast⟩
        · rw [heq] at hother hnot
          rcases List.mem_cons.mp (OrdMap.mem_keySet.mp hr) with hroot' | hentered
          · exact hother hroot'
          · obtain ⟨ref, href, hnodeOf⟩ := List.mem_map.mp hentered
            obtain ⟨hreferenced, hrefChain⟩ := List.mem_filter.mp href
            have hkey : ref = (chain.id, r) :=
              Prod.ext (by simpa using hrefChain) hnodeOf
            exact hnot (hkey ▸ hreferenced)
        · exact hlost (mem_chainForwards hlast).2
      · exact hlost hmem
    · -- every path from an entry ends, so the search finds no cycle
      have hnone : detectCycle app' (app'.steps.filter (·.chain = chain.id)) chain.id root = [] := by
        refine Dfs.cycles_of_acc fun entry _ => ?_
        by_cases hempty : chainForwards (app'.steps.filter (·.chain = chain.id)) entry = []
        · exact ⟨entry, fun next hnext => absurd (hempty ▸ hnext) List.not_mem_nil⟩
        · obtain ⟨next, hnext⟩ := List.exists_mem_of_ne_nil _ hempty
          obtain ⟨⟨step, hstep, hentry⟩, -⟩ := mem_chainForwards hnext
          obtain ⟨hin, hof⟩ := List.mem_filter.mp hstep
          have hname : step.chain = chain.id := by simpa using hof
          have := hends step hin
          rwa [hname, hentry] at this
      rw [hnone] at hnode
      exact absurd hnode List.not_mem_nil
  · have hcycles := h'.2
    unfold validateListenerReferenceCycles at hcycles ⊢
    have hreaches : listenerReaches app = listenerReaches app' := by
      funext edge
      rw [listenerReaches, listenerReaches, hsteps]
    rwa [hsteps, hreaches] at hcycles

theorem level_of_errorIf {bad : Bool} {code location message : String} {d : Diagnostic}
    (h : d ∈ errorIf bad code location message) : d.level = .error := by
  unfold errorIf at h
  split at h
  · rw [List.mem_singleton.mp h]
    rfl
  · cases h

theorem topology_eq_nil {app : AppIr} (h : Clean (validateTopology app)) :
    validateTopology app = [] := by
  have hlisteners : ∀ (cyclic : ListenerEdge → Bool) (message : String) (edges : List ListenerEdge)
      (reported : List String), ∀ d ∈ validateListenerEdges (fun _ => []) cyclic message reported edges,
        d.level = .error := by
    intro cyclic message edges
    induction edges with
    | nil => intro reported d hd; cases hd
    | cons edge edges ih =>
      intro reported d hd
      unfold validateListenerEdges at hd
      rw [List.nil_append] at hd
      rcases List.mem_append.mp hd with hd | hd
      · exact level_of_errorIf hd
      · exact ih _ d hd
  refine List.eq_nil_iff_forall_not_mem.mpr fun d hd => h d hd ?_
  rcases List.mem_append.mp hd with hd | hd
  · obtain ⟨chain, -, hd⟩ := List.mem_flatMap.mp hd
    obtain ⟨root, -, hd⟩ := List.mem_flatMap.mp hd
    rcases List.mem_append.mp hd with hd | hd
    · rcases List.mem_append.mp hd with hd | hd
      · obtain ⟨node, -, hd⟩ := List.mem_flatMap.mp hd
        exact level_of_errorIf hd
      · obtain ⟨node, -, rfl⟩ := List.mem_map.mp hd
        rfl
    · obtain ⟨step, -, hd⟩ := List.mem_flatMap.mp hd
      exact level_of_errorIf hd
  · exact hlisteners _ _ _ _ d hd

/-! ### The checks of one project and of all -/

/-- What is checked of a project before its topology. -/
def checksBefore (checks : Checks) (sys : SystemIr) (app : AppIr) : List Diagnostic :=
  validateUniqueIds app ++ validateSlugs app ++ validateChainIngresses checks app
    ++ validatePorts sys app ++ validateLabels app ++ validateSteps sys app
    ++ validateExternalOutbounds checks app

/-- And behind it. -/
def checksBehind (checks : Checks) (sys : SystemIr) (app : AppIr) : List Diagnostic :=
  validateFronts checks sys app ++ validateReality checks app ++ validateHopSecurity app
    ++ validateReverseNeedsVless app ++ validateTenants app ++ validateDns app

theorem validateApp_split (checks : Checks) (sys : SystemIr) (app : AppIr) :
    validateApp checks sys app
      = checksBefore checks sys app ++ validateTopology app ++ checksBehind checks sys app := by
  simp only [validateApp, checksBefore, checksBehind, List.append_assoc]

section Content

variable {checks : Checks} (hchecks : checks.OnContent)
include hchecks

theorem validateFronts_content (sys : SystemIr) (app : AppIr) :
    validateFronts checks sys app = validateFronts checks sys.content app.content := by
  unfold validateFronts
  rw [funext (hchecks.frontRoutes sys app)]
  rfl

omit hchecks in
theorem checksBefore_content (sys : SystemIr) (app : AppIr) :
    checksBefore checks sys app = checksBefore checks sys.content app.content := rfl

theorem checksBehind_content (sys : SystemIr) (app : AppIr) :
    checksBehind checks sys app = checksBehind checks sys.content app.content := by
  unfold checksBehind
  rw [validateFronts_content hchecks sys app]
  rfl

end Content

end Brocade.Ir
