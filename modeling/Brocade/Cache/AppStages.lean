/-
The memos of a project's routing and of the finished project.

A stage is asked of its memo under a digest of what it reads, by projects of any number of
snapshots, each compiled without its revision.  The key of a routing holds all that the routing
reads.  The key of a finished project leaves out which of its listeners are entered from other
projects, although its checks read that.  It makes no difference to anything that is serialised, and
none to whether the project passes its checks.
-/
import Brocade.Cache.StageMemo
import Brocade.Ir.Stages

namespace Brocade.Cache

open Ir
open Model (ModelSnapshot AppView)

/-! ### Keys -/

/-- A compiled project as it is serialised. -/
def wire (app : AppIr) : AppIr := { app with listenerRoots := [] }

/-- What the key of a finished project holds. -/
structure FinalAppKey where
  app : AppIr
  dependencies : List Step
  system : SystemIr
  deriving DecidableEq

/-- What a finished project is kept under. -/
def finalAppKey (routing : RoutingAppCompile) (targetSteps : List Step) (system : SystemIr) :
    FinalAppKey where
  app := wire routing.app
  dependencies := dependencies routing.app targetSteps
  system := system

/-- A project of a snapshot without a revision, whose stages are asked for. -/
structure StageCall where
  doc : ModelSnapshot
  app : AppView
  mem : app ∈ doc.apps
  semantic : doc.revision = 0

namespace StageCall

variable (call : StageCall)

def listenerRoots : List (String × String) := reachableListenerRootsAcrossApps call.doc

def routing : RoutingAppCompile := compileRoutingApp call.doc call.app call.listenerRoots

/-- The tables of all projects, which the memo of routings returns (`routings_agree`). -/
def targetSteps : List Step :=
  (call.doc.apps.map fun app =>
    compileRoutingApp call.doc app call.listenerRoots).flatMap (·.app.steps)

def system : SystemIr := (compileSystem call.doc).1

def final (checks : Checks) : FinalAppCompile :=
  finishAppCompile checks call.routing call.targetSteps call.system

def routingKey : RoutingAppKey := routingAppKey call.doc call.app call.listenerRoots

def finalKey : FinalAppKey := finalAppKey call.routing call.targetSteps call.system

theorem final_mem (checks : Checks) : (call.final checks).app ∈ (compile checks call.doc).apps := by
  simp only [compile, finishCompile, List.mem_map]
  exact ⟨_, ⟨_, ⟨call.app, call.mem, rfl⟩, rfl⟩, rfl⟩

/-- The resolved edges of a project and what is reported of them. -/
def hops : AppIr × List Diagnostic :=
  compileHopsWithTargets call.routing.app call.targetSteps call.system

theorem hops_content : call.hops.1.content = (compileHopsWithTargets call.routing.app.content
        (dependencies call.routing.app call.targetSteps) call.system.content).1
      ∧ call.hops.2 = (compileHopsWithTargets call.routing.app.content
        (dependencies call.routing.app call.targetSteps) call.system.content).2 := by
  unfold hops
  rw [← compileHopsWithTargets_dependencies]
  exact compileHopsWithTargets_content _ _ _

end StageCall

/-! ### What two calls of one key have in common -/

variable {checks : Checks} {call other : StageCall}

/-- **Finished projects of one key are the same as they are serialised**, and one passes its checks
if and only if the other does. -/
theorem final_of_key (hchecks : checks.OnContent) (h : call.finalKey = other.finalKey)
    (hkeys : (call.routing.app.steps.map Step.key).Nodup) :
    wire (call.final checks).app = wire (other.final checks).app
      ∧ (Clean (call.final checks).diagnostics ↔ Clean (other.final checks).diagnostics)
      ∧ (Clean (call.final checks).diagnostics →
        (call.final checks).diagnostics = (other.final checks).diagnostics) := by
  have hwire : wire call.routing.app = wire other.routing.app := congrArg FinalAppKey.app h
  have hcontent := congrArg AppIr.content hwire
  change call.routing.app.content = other.routing.app.content at hcontent
  have hdependencies : dependencies call.routing.app call.targetSteps
      = dependencies other.routing.app other.targetSteps := congrArg FinalAppKey.dependencies h
  have hsystem : call.system.content = other.system.content :=
    congrArg (fun key => key.system.content) h
  have happ : call.hops.1.content = other.hops.1.content := by
    rw [call.hops_content.1, other.hops_content.1, hcontent, hdependencies, hsystem]
  have hreports : call.hops.2 = other.hops.2 := by
    rw [call.hops_content.2, other.hops_content.2, hcontent, hdependencies, hsystem]
  -- what is reported, with the topology between what reads only the content
  have hsplit : ∀ call : StageCall, (call.final checks).diagnostics
      = (call.hops.2 ++ checksBefore checks call.system.content call.hops.1.content)
        ++ validateTopology call.hops.1
        ++ checksBehind checks call.system.content call.hops.1.content := by
    intro call
    show call.hops.2 ++ validateApp checks call.system call.hops.1 = _
    rw [validateApp_split, ← checksBefore_content, ← checksBehind_content hchecks]
    simp only [List.append_assoc]
  have hchains := congrArg AppIr.chains happ
  have hsteps := congrArg AppIr.steps happ
  have hkeys' : (other.routing.app.steps.map Step.key).Nodup := by
    have hsame : call.routing.app.steps = other.routing.app.steps := hsteps
    rwa [← hsame]
  have hled : LedTo call.hops.1 := compileApp_ledTo hkeys
  have hled' : LedTo other.hops.1 := compileApp_ledTo hkeys'
  have htopology : Clean (validateTopology call.hops.1) ↔ Clean (validateTopology other.hops.1) :=
    ⟨clean_topology_of_same hchains hsteps hled hled',
      clean_topology_of_same hchains.symm hsteps.symm hled' hled⟩
  rw [hsplit call, hsplit other, hreports, happ, hsystem]
  refine ⟨?_, by simp only [clean_append, htopology], fun hclean => ?_⟩
  · show { call.hops.1.content with revision := call.hops.1.revision }
      = { other.hops.1.content with revision := other.hops.1.revision }
    rw [happ]
    exact congrArg (fun revision => { other.hops.1.content with revision })
      (congrArg AppIr.revision hwire)
  · have hcall := (clean_append.mp (clean_append.mp hclean).1).2
    rw [topology_eq_nil hcall, topology_eq_nil (htopology.mp hcall)]

theorem nodup_steps (h : Clean (validateModelSnapshot checks call.doc)) :
    (call.routing.app.steps.map Step.key).Nodup := by
  have hall := nodup_chains h
  rw [List.map_flatMap, List.nodup_flatMap] at hall
  exact nodup_compileApp_steps (hall.1 call.app call.mem)

/-! ### What the memos return -/

section

variable {capacity : ℕ} {calls : List StageCall} {moves : List StageMemo.Move}

theorem routings_agree (hpos : 0 < capacity) {digest : RoutingAppKey → String}
    (hdigest : ∀ a ∈ calls, ∀ b ∈ calls, digest a.routingKey = digest b.routingKey →
      a.routingKey = b.routingKey) {w : StageMemo.World RoutingAppCompile}
    (hrun : moves.foldlM (StageMemo.step capacity) (StageMemo.start
      (calls.map fun call => (digest call.routingKey, .ok call.routing))) = some w)
    (hcall : call ∈ calls) {asked : StageMemo.Call RoutingAppCompile} (hasked : asked ∈ w.calls)
    (hkey : asked.key = digest call.routingKey) {value : RoutingAppCompile}
    (hreturned : asked.stage = .returned value) : value = call.routing := by
  obtain ⟨other, hother, hsame, rfl⟩ := StageMemo.returned_of_calls hpos hrun hasked hreturned
  exact compileRoutingApp_of_key (other.semantic.trans call.semantic.symm)
    (hdigest other hother call hcall (hsame.trans hkey))

/-- **Whoever asked under the key of a project, that project is returned** as the plain compiler
finishes it, in every byte that is serialised.  It passes its checks if and only if the plain
compiler's does, and then the same is reported. -/
theorem finals_agree (hchecks : checks.OnContent) (hpos : 0 < capacity)
    {digest : FinalAppKey → String}
    (hdigest : ∀ a ∈ calls, ∀ b ∈ calls, digest a.finalKey = digest b.finalKey →
      a.finalKey = b.finalKey) {w : StageMemo.World FinalAppCompile}
    (hrun : moves.foldlM (StageMemo.step capacity) (StageMemo.start
      (calls.map fun call => (digest call.finalKey, .ok (call.final checks)))) = some w)
    (hcall : call ∈ calls) (hsnapshot : Clean (validateModelSnapshot checks call.doc))
    {asked : StageMemo.Call FinalAppCompile} (hasked : asked ∈ w.calls)
    (hkey : asked.key = digest call.finalKey) {value : FinalAppCompile}
    (hreturned : asked.stage = .returned value) :
    ((call.final checks).app ∈ (compile checks call.doc).apps
        ∧ wire value.app = wire (call.final checks).app)
      ∧ (Clean value.diagnostics ↔ Clean (call.final checks).diagnostics)
      ∧ (Clean value.diagnostics → value.diagnostics = (call.final checks).diagnostics) := by
  obtain ⟨other, hother, hsame, rfl⟩ := StageMemo.returned_of_calls hpos hrun hasked hreturned
  have hfinal := hdigest call hcall other hother (hsame.trans hkey).symm
  obtain ⟨hwire, hclean, hequal⟩ := final_of_key hchecks hfinal (nodup_steps hsnapshot)
  exact ⟨⟨call.final_mem checks, hwire.symm⟩, hclean.symm,
    fun hvalue => (hequal (hclean.mpr hvalue)).symm⟩

end

/-! ### One project of two snapshots -/

/-- The project `web` of a snapshot without the project that enters its listener, and with it. -/
def webAlone : StageCall where
  doc := { joinedSnapshot with revision := 0, apps := joinedSnapshot.apps.take 1 }
  app := joinedSnapshot.apps.get ⟨0, by decide⟩
  mem := List.mem_cons_self
  semantic := rfl

/-- A project that another one enters. -/
def webEntered : StageCall where
  doc := { joinedSnapshot with revision := 0 }
  app := joinedSnapshot.apps.get ⟨0, by decide⟩
  mem := List.mem_cons_self
  semantic := rfl

theorem served_second {α : Type} (first second : α) : ∃ w,
    [.enter 0, .lead 0, .lead 0, .lead 0, .lead 0, .enter 1].foldlM (StageMemo.step 1)
        (StageMemo.start [("web", .ok first), ("web", .ok second)]) = some w
      ∧ ⟨"web", .ok second, .returned first⟩ ∈ w.calls :=
  ⟨_, rfl, .tail _ (.head _)⟩

theorem finals_agree_web :
    ((webEntered.final silentChecks).app ∈ (compile silentChecks webEntered.doc).apps
        ∧ wire (webAlone.final silentChecks).app = wire (webEntered.final silentChecks).app)
      ∧ (Clean (webAlone.final silentChecks).diagnostics
        ↔ Clean (webEntered.final silentChecks).diagnostics)
      ∧ (Clean (webAlone.final silentChecks).diagnostics → (webAlone.final silentChecks).diagnostics
          = (webEntered.final silentChecks).diagnostics) := by
  obtain ⟨w, hrun, hasked⟩ :=
    served_second (webAlone.final silentChecks) (webEntered.final silentChecks)
  have hkeys : webAlone.finalKey = webEntered.finalKey := by decide +kernel
  have hdigest : ∀ a ∈ [webAlone, webEntered], ∀ b ∈ [webAlone, webEntered],
      "web" = "web" → a.finalKey = b.finalKey := by
    simp [hkeys]
  have hsnapshot : Clean (validateModelSnapshot silentChecks webEntered.doc) :=
    clean_snapshot (by decide +kernel)
  exact @finals_agree silentChecks webEntered 1 [webAlone, webEntered] _ onContent_silent
    Nat.one_pos (fun _ => "web") hdigest _ hrun (.tail _ (.head _)) hsnapshot _ hasked rfl _ rfl

end Brocade.Cache
