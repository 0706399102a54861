/-
Compilation: from a snapshot to the machines' networks and the projects' rule tables.

The stages are values of their own, because callers keep them: the layer all projects
share, one project's routing, one project finished against the tables of all projects, and
the whole put together.  A result with an error in it is never projected onto a machine.
-/
import Brocade.Ir.Validate.AppSet

namespace Brocade.Ir

open Model

/-- The part of a compilation that all projects share. -/
structure CompilePrelude where
  system : SystemIr
  listenerRoots : List (String × String)
  diagnostics : List Diagnostic

/-- One project before its relay edges are resolved. -/
structure RoutingAppCompile where
  app : AppIr
  diagnostics : List Diagnostic

/-- One project, resolved and checked. -/
structure FinalAppCompile where
  app : AppIr
  diagnostics : List Diagnostic

/-- What a compilation comes to. -/
structure CompileOutput where
  system : SystemIr
  apps : List AppIr
  diagnostics : List Diagnostic
  summary : DiagnosticSummary

/-- What all projects are compiled with. -/
def compilePrelude (checks : Checks) (doc : ModelSnapshot) : CompilePrelude :=
  let compiled := compileSystem doc
  { system := compiled.1
    listenerRoots := reachableListenerRootsAcrossApps doc
    diagnostics := validateModelSnapshot checks doc ++ compiled.2 ++ validateSystem compiled.1 }

/-- A project is routed. -/
def compileRoutingApp (doc : ModelSnapshot) (app : AppView)
    (listenerRoots : List (String × String)) : RoutingAppCompile :=
  let compiled := compileApp doc app listenerRoots
  ⟨compiled.1, compiled.2⟩

/-- A project is finished. -/
def finishAppCompile (checks : Checks) (routing : RoutingAppCompile) (targetSteps : List Step)
    (system : SystemIr) : FinalAppCompile :=
  let compiled := compileHopsWithTargets routing.app targetSteps system
  ⟨compiled.1, compiled.2 ++ validateApp checks system compiled.1⟩

/-- The stages put together: what all share, every project's routing, every finished project,
and the checks of all projects. -/
def finishCompile (checks : Checks) (shared : CompilePrelude)
    (routingApps : List RoutingAppCompile) (finished : List FinalAppCompile) : CompileOutput :=
  let apps := finished.map (·.app)
  let diagnostics := shared.diagnostics ++ routingApps.flatMap (·.diagnostics)
    ++ finished.flatMap (·.diagnostics) ++ validateAppSet checks apps
  ⟨shared.system, apps, diagnostics, summarizeDiagnostics diagnostics⟩

/-- A snapshot is compiled. -/
def compile (checks : Checks) (doc : ModelSnapshot) : CompileOutput :=
  let shared := compilePrelude checks doc
  let routingApps := doc.apps.map fun app => compileRoutingApp doc app shared.listenerRoots
  let targetSteps := routingApps.flatMap (·.app.steps)
  finishCompile checks shared routingApps
    (routingApps.map fun routing => finishAppCompile checks routing targetSteps shared.system)

/-- Nothing that blocks a release was found. -/
def CompileOutput.ensurePublishable (output : CompileOutput) : Bool := output.summary.canPublish

/-- The rule tables of all projects, which is what a rule can name. -/
def CompileOutput.targetSteps (output : CompileOutput) : List Step := output.apps.flatMap (·.steps)

theorem compile_targetSteps (checks : Checks) (doc : ModelSnapshot) :
    (compile checks doc).targetSteps = (doc.apps.map fun view =>
      compileRoutingApp doc view (reachableListenerRootsAcrossApps doc)).flatMap (·.app.steps) := by
  simp [CompileOutput.targetSteps, compile, finishCompile, finishAppCompile, compilePrelude,
    compileHopsWithTargets, List.flatMap_map, List.map_map, Function.comp_def]

theorem mem_compile_apps {checks : Checks} {doc : ModelSnapshot} {app : AppIr}
    (h : app ∈ (compile checks doc).apps) : ∃ view ∈ doc.apps, app = (compileHopsWithTargets
        (compileApp doc view (reachableListenerRootsAcrossApps doc)).1
        (compile checks doc).targetSteps (compile checks doc).system).1 := by
  simp only [compile, finishCompile, List.mem_map] at h
  obtain ⟨_, ⟨_, ⟨view, hview, rfl⟩, rfl⟩, rfl⟩ := h
  refine ⟨view, hview, ?_⟩
  rw [compile_targetSteps]
  rfl

theorem mem_compile_nodes {checks : Checks} {doc : ModelSnapshot} {app : AppIr}
    (h : app ∈ (compile checks doc).apps) {node : AppNode} :
    node ∈ app.nodes ↔ ∃ source ∈ doc.nodes, source.retired = false
      ∧ compileNode doc source = node := by
  obtain ⟨view, -, rfl⟩ := mem_compile_apps h
  show node ∈ (compileApp doc view _).1.nodes ↔ _
  show node ∈ sortById (·.id) ((doc.nodes.filter fun node => !node.retired).map (compileNode doc))
    ↔ _
  simp [sortById, and_assoc]

/-! ### What a publishable snapshot holds -/

section Publishable

variable {checks : Checks} {doc : ModelSnapshot}

section

variable (h : (compile checks doc).ensurePublishable = true)

include h

theorem clean_of_publishable : Clean (compile checks doc).diagnostics :=
  canPublish_iff.mp h

theorem clean_snapshot : Clean (validateModelSnapshot checks doc) := by
  have hclean := clean_of_publishable h
  simp only [compile, finishCompile, compilePrelude, clean_append] at hclean
  exact hclean.1.1.1.1.1

theorem clean_app {app : AppIr} (happ : app ∈ (compile checks doc).apps) :
    Clean (validateApp checks (compile checks doc).system app) := by
  have hclean := clean_of_publishable h
  simp only [compile, finishCompile, clean_append] at hclean
  simp only [compile, finishCompile, List.mem_map] at happ
  obtain ⟨_, ⟨_, ⟨view, hview, rfl⟩, rfl⟩, rfl⟩ := happ
  refine fun diagnostic hdiagnostic => hclean.1.2 diagnostic ?_
  refine List.mem_flatMap.mpr ⟨_, List.mem_map.mpr ⟨_, List.mem_map.mpr ⟨view, hview, rfl⟩, rfl⟩, ?_⟩
  exact List.mem_append_right _ hdiagnostic

theorem clean_hops {view : AppView} (hview : view ∈ doc.apps) :
    Clean (compileHopsWithTargets (compileApp doc view (reachableListenerRootsAcrossApps doc)).1
      (compile checks doc).targetSteps (compile checks doc).system).2 := by
  have hclean := clean_of_publishable h
  rw [compile_targetSteps]
  simp only [compile, finishCompile, clean_append] at hclean
  refine fun diagnostic hdiagnostic => hclean.1.2 diagnostic ?_
  refine List.mem_flatMap.mpr ⟨_, List.mem_map.mpr ⟨_, List.mem_map.mpr ⟨view, hview, rfl⟩, rfl⟩, ?_⟩
  exact List.mem_append_left _ hdiagnostic

end

theorem compile_appIds (checks : Checks) (doc : ModelSnapshot) :
    (compile checks doc).apps.map (·.appId) = doc.apps.map fun app => some app.id := by
  simp only [compile, finishCompile, List.map_map]
  rfl

theorem nodup_appIds (h : (compile checks doc).ensurePublishable = true) :
    ((compile checks doc).apps.map (·.appId)).Nodup := by
  rw [compile_appIds]
  have hids := nodup_apps (clean_snapshot h)
  rw [show (doc.apps.map fun app => some app.id) = (doc.apps.map (·.id)).map some by simp]
  exact hids.map (Option.some_injective _)

theorem compile_node_unique (h : (compile checks doc).ensurePublishable = true) {app other : AppIr}
    (happ : app ∈ (compile checks doc).apps) (hother : other ∈ (compile checks doc).apps)
    {node twin : AppNode} (hnode : node ∈ app.nodes) (htwin : twin ∈ other.nodes)
    (hid : node.id = twin.id) : node = twin := by
  obtain ⟨a, ha, -, rfl⟩ := (mem_compile_nodes happ).mp hnode
  obtain ⟨b, hb, -, rfl⟩ := (mem_compile_nodes hother).mp htwin
  have hsame : a = b := List.inj_on_of_nodup_map (nodup_nodes (clean_snapshot h)) ha hb hid
  rw [hsame]

end Publishable

end Brocade.Ir
