/-
The order of a release is safe for listener references.

Waves follow the prerequisites wherever they came from (`wave_le_of_prerequisite`): a wave
takes what waits for nothing that remains, or a whole component that nothing outside it
precedes.  What remains is to see that every reference that appears, disappears or changes
between two machines whose xray changes has put its prerequisite there, and that such
machines are always among those given a wave.  Narrowing keeps both.
-/
import Brocade.Release.Schedule
import Brocade.Release.Settled

namespace Brocade.Release

open Ir Model

/-! ### Waves follow prerequisites -/

/-- One machine changes before another. -/
def Precedes (targets : List PlannedTarget) (earlier later : String) : Prop :=
  ∃ target ∈ targets, target.nodeId = later ∧ earlier ∈ target.prerequisites

/-- Two machines wait for each other. -/
def OneComponent (targets : List PlannedTarget) (a b : String) : Prop :=
  Relation.ReflTransGen (Precedes targets) a b ∧ Relation.ReflTransGen (Precedes targets) b a

section Waves

variable {targets : List PlannedTarget}

theorem byNode_eq_some (hnames : (targets.map (·.nodeId)).Nodup) {nodeId : String} {index : ℕ} :
    byNode targets nodeId = some index
      ↔ ∃ target, targets[index]? = some target ∧ target.nodeId = nodeId := by
  unfold byNode
  constructor
  · intro h
    obtain ⟨⟨target, place⟩, hmem, heq⟩ := List.mem_map.mp (OrdMap.mem_of_lastOf h)
    obtain ⟨rfl, rfl⟩ := Prod.mk.inj heq
    exact ⟨target, List.mem_zipIdx_iff_getElem?.mp hmem, rfl⟩
  · rintro ⟨target, hget, rfl⟩
    refine OrdMap.lastOf_of_mem ?_ (List.mem_map.mpr
      ⟨(target, index), List.mem_zipIdx_iff_getElem?.mpr hget, rfl⟩)
    have hfst : (targets.zipIdx.map fun target => (target.1.nodeId, target.2)).map Prod.fst
        = targets.map (·.nodeId) := by
      rw [List.map_map]
      conv_rhs => rw [← List.zipIdx_map_fst 0 targets, List.map_map]
      rfl
    rw [hfst]
    exact hnames

theorem mem_incoming (hnames : (targets.map (·.nodeId)).Nodup) {index prerequisite : ℕ}
    {target : PlannedTarget} (hget : targets[index]? = some target) :
    prerequisite ∈ incoming targets index ↔ prerequisite ∈ orderedTargets targets
      ∧ ∃ before, targets[prerequisite]? = some before ∧ before.nodeId ∈ target.prerequisites := by
  simp only [incoming, hget, Option.toList_some, List.flatMap_cons, List.flatMap_nil,
    List.append_nil, List.mem_filter, List.mem_filterMap, byNode_eq_some hnames,
    decide_eq_true_eq]
  constructor
  · rintro ⟨⟨nodeId, hnode, before, hbefore, rfl⟩, hordered⟩
    exact ⟨hordered, before, hbefore, hnode⟩
  · rintro ⟨hordered, before, hbefore, hnode⟩
    exact ⟨⟨before.nodeId, hnode, before, hbefore, rfl⟩, hordered⟩

variable {remaining : List ℕ} {a b : ℕ}

theorem precedes_of_outgoing (hnames : (targets.map (·.nodeId)).Nodup)
    {first second : PlannedTarget} (ha : targets[a]? = some first) (hb : targets[b]? = some second)
    (h : b ∈ outgoing targets remaining a) : Precedes targets first.nodeId second.nodeId := by
  unfold outgoing at h
  split at h
  · have hmem : a ∈ incoming targets b := by simpa using (List.mem_filter.mp h).2
    obtain ⟨-, before, hbefore, hnode⟩ := (mem_incoming hnames hb).mp hmem
    rw [ha, Option.some.injEq] at hbefore
    exact ⟨second, List.mem_of_getElem? hb, rfl, hbefore ▸ hnode⟩
  · exact absurd h List.not_mem_nil

theorem outgoing_subset (h : b ∈ outgoing targets remaining a) : a ∈ remaining ∧ b ∈ remaining := by
  unfold outgoing at h
  split at h
  · rename_i ha
    exact ⟨ha, List.mem_of_mem_filter h⟩
  · exact absurd h List.not_mem_nil

theorem precedes_of_reaches (hnames : (targets.map (·.nodeId)).Nodup)
    (hremaining : ∀ index ∈ remaining, ∃ target, targets[index]? = some target)
    (h : Worklist.Reaches (outgoing targets remaining) a b) {first second : PlannedTarget}
    (ha : targets[a]? = some first) (hb : targets[b]? = some second) :
    Relation.ReflTransGen (Precedes targets) first.nodeId second.nodeId := by
  induction h generalizing second with
  | refl =>
    rw [ha, Option.some.injEq] at hb
    rw [hb]
  | @tail c b hac hcb ih =>
    obtain ⟨middle, hmiddle⟩ := hremaining c (outgoing_subset hcb).1
    exact (ih hmiddle).tail (precedes_of_outgoing hnames hmiddle hb hcb)

/-- Two places whose machines are in one component. -/
def Together (targets : List PlannedTarget) (a b : ℕ) : Prop :=
  ∀ first second, targets[a]? = some first → targets[b]? = some second →
    OneComponent targets first.nodeId second.nodeId

/-- **A wave takes what waits for nothing, or a component that waits for nothing.** -/
theorem selectWave_picks (hnames : (targets.map (·.nodeId)).Nodup) (canary : Bool)
    (hsub : ∀ index ∈ remaining, index ∈ orderedTargets targets) (hne : remaining ≠ []) :
    Waves.Picks (incoming targets) (Together targets) remaining
      (selectWave targets canary remaining) := by
  let ready := remaining.filter fun index =>
    (incoming targets index).all fun prerequisite => prerequisite ∉ remaining
  have hready : ∀ picked : List ℕ, picked ≠ [] → picked ⊆ ready →
      Waves.Picks (incoming targets) (Together targets) remaining picked := by
    intro picked hpicked hpickedReady
    refine ⟨hpicked, fun index hindex => List.mem_of_mem_filter (hpickedReady hindex), ?_⟩
    intro index hindex prerequisite hprerequisite hremains
    have hall := (List.mem_filter.mp (hpickedReady hindex)).2
    simp only [List.all_eq_true, decide_eq_true_eq] at hall
    exact absurd hremains (hall prerequisite hprerequisite)
  have htake : ∀ {indices : List ℕ}, indices ≠ [] → indices.take 1 ≠ [] := by
    intro indices hindices
    cases indices with
    | nil => exact absurd rfl hindices
    | cons a rest => exact List.cons_ne_nil a []
  show Waves.Picks _ _ _ (if ready.isEmpty then _ else _)
  split
  · have hdom : ∀ a, outgoing targets remaining a ≠ [] → a ∈ remaining := by
      intro a ha
      obtain ⟨b, hb⟩ := List.exists_mem_of_ne_nil _ ha
      exact (outgoing_subset hb).1
    have hedge : ∀ a ∈ remaining, ∀ p ∈ incoming targets a, p ∈ remaining →
        a ∈ outgoing targets remaining p := by
      intro a ha p hp hpr
      rw [outgoing, if_pos hpr]
      exact List.mem_filter.mpr ⟨ha, by simpa using hp⟩
    have hsource := Scc.sourceComponent_spec hdom hedge hne
    have hplaces : ∀ index ∈ remaining, ∃ target, targets[index]? = some target := fun index hi =>
      (mem_orderedTargets.mp (hsub index hi)).imp fun _ h => h.1
    refine ⟨hsource.nonempty, hsource.subset, fun a ha p hp hremains => ?_⟩
    have hpicked := hsource.closed a ha p hp hremains
    refine ⟨hpicked, fun first second hfirst hsecond => ⟨?_, ?_⟩⟩
    · exact precedes_of_reaches hnames hplaces (hsource.joined a ha p hpicked) hfirst hsecond
    · exact precedes_of_reaches hnames hplaces (hsource.joined p hpicked a ha) hsecond hfirst
  · rename_i hsome
    have hreadyNe : ready ≠ [] := by simpa using hsome
    let regular := ready.filter fun index => !targets[index]?.any (·.highRisk)
    show Waves.Picks _ _ _ (if regular.isEmpty then _ else _)
    split
    · exact hready (ready.take 1) (htake hreadyNe) (List.take_subset 1 ready)
    · rename_i hregular
      have hregularNe : regular ≠ [] := by simpa using hregular
      split
      · exact hready (regular.take 1) (htake hregularNe) fun index hindex =>
          List.mem_of_mem_filter (List.mem_of_mem_take hindex)
      · exact hready regular hregularNe fun index hindex => List.mem_of_mem_filter hindex

theorem mem_assignWaves_iff {target : PlannedTarget} (h : target ∈ assignWaves targets) :
    ∃ (index : ℕ) (before : PlannedTarget), targets[index]? = some before
      ∧ target = { before with wave := ((waveNumbers targets).lookup index).getD 0 } := by
  obtain ⟨⟨before, index⟩, hmem, rfl⟩ := List.mem_map.mp h
  exact ⟨index, before, List.mem_zipIdx_iff_getElem?.mp hmem, rfl⟩

/-- **A machine never changes in an earlier wave than one it waits for**, and in the same wave
only if each waits for the other. -/
theorem wave_le_of_prerequisite (hnames : (targets.map (·.nodeId)).Nodup)
    {dependent prerequisite : PlannedTarget} (hd : dependent ∈ assignWaves targets)
    (hp : prerequisite ∈ assignWaves targets) (hdordered : dependent.ordered = true)
    (hpordered : prerequisite.ordered = true) (h : prerequisite.nodeId ∈ dependent.prerequisites) :
    prerequisite.wave ≤ dependent.wave ∧ (prerequisite.wave = dependent.wave →
      OneComponent targets dependent.nodeId prerequisite.nodeId) := by
  obtain ⟨j, second, hj, rfl⟩ := mem_assignWaves_iff hd
  obtain ⟨i, first, hi, rfl⟩ := mem_assignWaves_iff hp
  have hjordered : j ∈ orderedTargets targets := mem_orderedTargets.mpr ⟨second, hj, hdordered⟩
  have hiordered : i ∈ orderedTargets targets := mem_orderedTargets.mpr ⟨first, hi, hpordered⟩
  have hincoming : i ∈ incoming targets j := (mem_incoming hnames hj).mpr ⟨hiordered, first, hi, h⟩
  have hall := @Waves.schedule_ordered ℕ Bool _ (incoming targets) (Together targets)
    (selectWave targets) (canaryAfter targets) (· ∈ orderedTargets targets)
    (fun canary _ hsub hne => selectWave_picks hnames canary hsub hne) _ 1 true _ (fun _ h => h)
    (Nat.le_refl _) j hjordered
  obtain ⟨v, w, hv, hw, hle, htogether⟩ := hall.after i hincoming hiordered
  show ((waveNumbers targets).lookup i).getD 0 ≤ ((waveNumbers targets).lookup j).getD 0
    ∧ (((waveNumbers targets).lookup i).getD 0 = ((waveNumbers targets).lookup j).getD 0 → _)
  rw [waveNumbers, hv, hw]
  exact ⟨hle, fun heq => htogether heq second first hj hi⟩

end Waves

/-! ### References -/

/-- The config a machine runs is proven by the digest it reported. -/
def ProvenRunning (host : Host) (applied : List NodeAppliedState) (nodeId : String) : Prop :=
  ∃ state ∈ applied, state.nodeId = nodeId
    ∧ ∃ running, state.runningXray = some running ∧ state.xray = .present (host.sha256Hex running)

/-- What a machine's running config dials under an identity. -/
def runningOutbound (host : Host) (applied : List NodeAppliedState) (identity : ReferenceId) :
    Option String :=
  (appliedByNode applied identity.2.1).bind fun state =>
    OrdMap.lastOf identity (runningListenerReferencePairs host state)

variable {identity : ReferenceId} {host : Host} {e : ReferenceId × String}
    {state : NodeAppliedState} {target : PlannedTarget} {applied : List NodeAppliedState}
    {targets : List PlannedTarget} {desired : List (String × NodeDesiredState)}
    {plan : DeploymentPlan}

theorem source_of_reference {sourceNode tag : String}
    (h : referenceOf sourceNode tag = some identity) : identity.2.1 = sourceNode := by
  simp only [referenceOf, Option.bind_eq_bind, Option.bind_eq_some_iff] at h
  obtain ⟨rest, -, atPeer, -, atListener, -, h⟩ := h
  split at h
  · cases h
  · rw [← Option.some.inj h]

theorem source_of_pair {xray sourceNode : String}
    (h : e ∈ listenerReferencePairs host xray sourceNode) : e.1.2.1 = sourceNode := by
  unfold listenerReferencePairs at h
  split at h
  · exact absurd h List.not_mem_nil
  · obtain ⟨outbound, -, hout⟩ := List.mem_filterMap.mp h
    simp only [outboundReference, Option.bind_eq_some_iff, Option.map_eq_some_iff] at hout
    obtain ⟨tag, -, identity, hidentity, rfl⟩ := hout
    exact source_of_reference hidentity

theorem source_of_running (h : e ∈ runningListenerReferencePairs host state) :
    e.1.2.1 = state.nodeId := by
  unfold runningListenerReferencePairs at h
  split at h
  · exact absurd h List.not_mem_nil
  · exact source_of_pair h

theorem source_of_desired (h : e ∈ desiredListenerReferencePairs host target) :
    e.1.2.1 = target.nodeId := by
  unfold desiredListenerReferencePairs at h
  split at h
  · exact source_of_pair h
  · exact absurd h List.not_mem_nil
  · exact absurd h List.not_mem_nil

theorem lastOf_running (hnames : (applied.map (·.nodeId)).Nodup) (hstate : state ∈ applied)
    (hsource : state.nodeId = identity.2.1) :
    OrdMap.lastOf identity (applied.flatMap (runningListenerReferencePairs host))
      = OrdMap.lastOf identity (runningListenerReferencePairs host state) := by
  refine OrdMap.lastOf_flatMap hnames.of_map hstate fun other hother hne e he heq => hne ?_
  refine List.inj_on_of_nodup_map hnames hother hstate ?_
  rw [hsource, ← heq, source_of_running he]

theorem lastOf_desired (hnames : (targets.map (·.nodeId)).Nodup) (htarget : target ∈ targets)
    (hsource : target.nodeId = identity.2.1) :
    OrdMap.lastOf identity (targets.flatMap (desiredListenerReferencePairs host))
      = OrdMap.lastOf identity (desiredListenerReferencePairs host target) := by
  refine OrdMap.lastOf_flatMap hnames.of_map htarget fun other hother hne e he heq => hne ?_
  refine List.inj_on_of_nodup_map hnames hother htarget ?_
  rw [hsource, ← heq, source_of_desired he]

theorem appliedByNode_of_mem (hnames : (applied.map (·.nodeId)).Nodup) (h : state ∈ applied) :
    appliedByNode applied state.nodeId = some state := by
  refine OrdMap.lastOf_of_mem ?_ (List.mem_map.mpr ⟨state, h, rfl⟩)
  rw [List.map_map]
  exact hnames

theorem mem_requires (hsource : identity.2.1 ∈ changingXray targets)
    (htarget : identity.2.2.2 ∈ changingXray targets) {desired running : Option String}
    (hdesired : OrdMap.lastOf identity (targets.flatMap (desiredListenerReferencePairs host))
      = desired)
    (hrunning : OrdMap.lastOf identity (applied.flatMap (runningListenerReferencePairs host))
      = running) (hne : desired ≠ running) :
    (desired.isSome → (identity.2.1, identity.2.2.2) ∈ listenerRequires host targets applied)
      ∧ (running.isSome → (identity.2.2.2, identity.2.1) ∈ listenerRequires host targets applied) := by
  have hlisted : ∀ {entries : List (ReferenceId × String)} {value : Option String},
      OrdMap.lastOf identity entries = value → value.isSome → identity ∈ entries.map Prod.fst := by
    intro entries value hvalue hsome
    obtain ⟨text, htext⟩ := Option.isSome_iff_exists.mp hsome
    exact List.mem_map.mpr ⟨_, OrdMap.mem_of_lastOf (hvalue.trans htext), rfl⟩
  simp only [listenerRequires, List.mem_append, List.mem_map, List.mem_filter, List.mem_flatMap]
  refine ⟨fun hsome => ?_, fun hsome => ?_⟩
  · cases running with
    | none =>
      refine .inl (.inl ⟨identity, ⟨by simpa only [List.mem_map, List.mem_flatMap] using hlisted hdesired hsome, ?_⟩, rfl⟩)
      simp [hrunning, hsource, htarget]
    | some text =>
      refine .inr ⟨identity, ⟨by simpa only [List.mem_map, List.mem_flatMap] using hlisted hdesired hsome, ?_⟩, by simp⟩
      simp [hrunning, hdesired, hne, hsource, htarget]
  · cases desired with
    | none =>
      refine .inl (.inr ⟨identity, ⟨by simpa only [List.mem_map, List.mem_flatMap] using hlisted hrunning hsome, ?_⟩, rfl⟩)
      simp [hdesired, hsource, htarget]
    | some text =>
      refine .inr ⟨identity, ⟨by simpa only [List.mem_map, List.mem_flatMap] using hlisted hdesired rfl, ?_⟩, by simp⟩
      simp [hrunning, hdesired, hne, hsome, hsource, htarget]

theorem mem_prerequisites_iff (hnames : (targets.map (·.nodeId)).Nodup)
    (h : target ∈ assignListenerReferencePrerequisites host targets applied) {nodeId : String} :
    nodeId ∈ target.prerequisites ↔ (target.nodeId, nodeId) ∈ listenerRequires host targets applied := by
  obtain ⟨⟨before, index⟩, hmem, rfl⟩ := List.mem_map.mp h
  have hget := List.mem_zipIdx_iff_getElem?.mp hmem
  dsimp only at hget ⊢
  simp only [OrdMap.mem_keySet, List.mem_map, List.mem_filter, decide_eq_true_eq]
  constructor
  · rintro ⟨⟨dependent, prerequisite⟩, ⟨hedge, hplace⟩, rfl⟩
    obtain ⟨other, hother, rfl⟩ := (byNode_eq_some hnames).mp hplace
    rw [hget, Option.some.injEq] at hother
    exact hother ▸ hedge
  · intro hedge
    exact ⟨_, ⟨hedge, (byNode_eq_some hnames).mpr ⟨before, hget, rfl⟩⟩, rfl⟩

theorem changing_of_requires {edge : String × String}
    (h : edge ∈ listenerRequires host targets applied) :
    edge.1 ∈ changingXray targets ∧ edge.2 ∈ changingXray targets := by
  simp only [listenerRequires, List.mem_append, List.mem_map, List.mem_filter, List.mem_flatMap,
    Bool.and_eq_true, decide_eq_true_eq] at h
  rcases h with (⟨identity, ⟨-, -, hsource, htarget⟩, rfl⟩ | ⟨identity, ⟨-, -, hsource, htarget⟩, rfl⟩)
    | ⟨identity, ⟨-, -, hsource, htarget⟩, hedge⟩
  · exact ⟨hsource, htarget⟩
  · exact ⟨htarget, hsource⟩
  · rcases List.mem_cons.mp hedge with rfl | hedge
    · exact ⟨hsource, htarget⟩
    · rw [List.mem_singleton.mp hedge]
      exact ⟨htarget, hsource⟩

/-! ### The targets of a plan -/

/-- A target whose status and disruptiveness come from its own actions. -/
structure Judged (host : Host) (applied : List NodeAppliedState) (target : PlannedTarget) : Prop where
  status : target.status = statusOf target.actions
  disruptive : target.disruptive = target.actions.any fun action =>
    isDisruptive host action (appliedByNode applied target.nodeId) target.desired

/-- **A machine that runs a proven xray and changes it is given a wave.**  It either applies
one, or disables one that is running, and that costs connections. -/
theorem Judged.ordered (h : Judged host applied target) (hnames : (applied.map (·.nodeId)).Nodup)
    (hproven : ProvenRunning host applied target.nodeId) (hmanages : target.managesXray = true) :
    target.ordered = true := by
  obtain ⟨state, hstate, hname, running, -, hxray⟩ := hproven
  by_cases hdisable : PlannedAction.disableXray ∈ target.actions
  · have hdisruptive : target.disruptive = true := by
      rw [h.disruptive, List.any_eq_true]
      refine ⟨_, hdisable, ?_⟩
      show wasOursAndRunning ((appliedByNode applied target.nodeId).map (·.xray)) = true
      rw [← hname, appliedByNode_of_mem hnames hstate, Option.map_some, hxray]
      rfl
    simp [PlannedTarget.ordered, PlannedTarget.highRisk, hdisruptive, hdisable]
  · have happly : PlannedAction.applyXray ∈ target.actions := by
      obtain ⟨action, haction, his⟩ := List.any_eq_true.mp hmanages
      rcases Bool.or_eq_true_iff.mp his with his | his
      · exact of_decide_eq_true his ▸ haction
      · exact absurd (of_decide_eq_true his ▸ haction) hdisable
    simp [PlannedTarget.ordered, PlannedTarget.appliesXray, happly, hdisable]

theorem Judged.pending (h : Judged host applied target) (hmanages : target.managesXray = true) :
    target.status = .pending := by
  obtain ⟨action, haction, -⟩ := List.any_eq_true.mp hmanages
  rw [h.status, statusOf, if_neg]
  simpa using List.ne_nil_of_mem haction

theorem judged_settleRetired {doc : ModelSnapshot} (h : PlannedOf host desired applied targets) :
    ∀ target ∈ settleRetired host doc applied targets, Judged host applied target
      ∧ target.nodeId ∈ desired.map Prod.fst := by
  intro target htarget
  obtain ⟨before, hbefore, rfl⟩ := List.mem_map.mp (List.mem_of_mem_filter htarget)
  obtain ⟨entry, hentry, actions, wave, -, rfl⟩ := h.sound before hbefore
  split
  · exact ⟨⟨rfl, rfl⟩, List.mem_map_of_mem hentry⟩
  · exact ⟨⟨rfl, rfl⟩, List.mem_map_of_mem hentry⟩

@[simp] theorem nodeIds_assignWaves (targets : List PlannedTarget) :
    (assignWaves targets).map (·.nodeId) = targets.map (·.nodeId) := by
  rw [assignWaves, List.map_map]
  conv_rhs => rw [← List.zipIdx_map_fst 0 targets, List.map_map]
  rfl

@[simp] theorem nodeIds_prerequisites (host : Host) (targets : List PlannedTarget)
    (applied : List NodeAppliedState) :
    (assignListenerReferencePrerequisites host targets applied).map (·.nodeId)
      = targets.map (·.nodeId) := by
  rw [assignListenerReferencePrerequisites, List.map_map]
  conv_rhs => rw [← List.zipIdx_map_fst 0 targets, List.map_map]
  rfl

theorem nodeIds_settleRetired (host : Host) (doc : ModelSnapshot) (applied : List NodeAppliedState)
    (targets : List PlannedTarget) :
    ((settleRetired host doc applied targets).map (·.nodeId)).Sublist (targets.map (·.nodeId)) := by
  have hsame : (targets.map fun target => if target.nodeId ∈ retiredNodes doc
      then retireTarget host applied target else target).map (·.nodeId)
        = targets.map (·.nodeId) := by
    rw [List.map_map]
    refine List.map_congr_left fun target _ => ?_
    simp only [Function.comp_apply]
    split <;> rfl
  rw [← hsame]
  exact List.filter_sublist.map _

theorem nodeIds_mapM {planned : List PlannedTarget}
    (h : desired.mapM (plannedTarget host applied) = some planned) :
    planned.map (·.nodeId) = desired.map Prod.fst := by
  induction desired generalizing planned with
  | nil =>
    rw [List.mapM_nil] at h
    cases h
    rfl
  | cons entry desired ih =>
    rw [List.mapM_cons] at h
    obtain ⟨target, htarget, h⟩ := Option.bind_eq_some_iff.mp h
    obtain ⟨rest, hrest, h⟩ := Option.bind_eq_some_iff.mp h
    cases h
    obtain ⟨actions, -, rfl⟩ := Option.map_eq_some_iff.mp htarget
    rw [List.map_cons, List.map_cons, ih hrest]
    rfl

theorem nodeIds_planDesired {revision : ℕ} {warnings : List PlanDiagnostic}
    (h : planDesiredDeployment host revision desired applied warnings = some plan)
    (hnames : (desired.map Prod.fst).Nodup) : (plan.targets.map (·.nodeId)).Nodup := by
  obtain ⟨planned, hplanned, h⟩ := Option.bind_eq_some_iff.mp h
  cases h
  rw [nodeIds_assignWaves, sortById]
  refine ((List.perm_insertionSort _ planned).map _).nodup_iff.mpr ?_
  rwa [nodeIds_mapM hplanned]

theorem planDeployment_kept {checks : Checks} {projections : Projections} {doc : ModelSnapshot}
    (h : planDeployment checks projections host doc applied = .ok (some plan)) :
    ∃ kept, plan.targets = assignWaves (assignListenerReferencePrerequisites host kept applied)
      ∧ (kept.map (·.nodeId)).Nodup
      ∧ ∀ target ∈ kept, Judged host applied target ∧ ∃ node ∈ doc.nodes, node.id = target.nodeId := by
  rw [planDeployment] at h
  simp only at h
  split at h
  case isFalse => cases h
  case isTrue hpublishable =>
  obtain ⟨first, hfirst, rfl⟩ := Option.map_eq_some_iff.mp (Except.ok.inj h)
  obtain ⟨again, hagain, hof⟩ := planDesiredDeployment_spec host applied doc.revision
    (planWarnings (compile checks doc)) (managed_desiredStates hpublishable projections)
  rw [hfirst, Option.some.injEq] at hagain
  subst hagain
  have hids : (desiredStates host projections (compile checks doc) doc).map Prod.fst
      = OrdMap.keySet (doc.nodes.map (·.id)) := by
    rw [desiredStates, List.map_map]
    exact List.map_id _
  refine ⟨_, rfl, ?_, fun target htarget => ?_⟩
  · refine (nodeIds_settleRetired host doc applied first.targets).nodup
      (nodeIds_planDesired hfirst ?_)
    rw [hids]
    exact OrdMap.nodup_keySet _
  · obtain ⟨hjudged, hid⟩ := judged_settleRetired hof target htarget
    rw [hids, OrdMap.mem_keySet] at hid
    exact ⟨hjudged, List.mem_map.mp hid⟩

/-! ### What narrowing keeps -/

/-- Where a config release's target comes from, and what of it is still there.  A machine
whose xray changes keeps its actions, so it is still given a wave, and what it switches to. -/
structure Origin (kept numbered target : PlannedTarget) : Prop where
  name : target.nodeId = kept.nodeId
  prerequisites : target.prerequisites = numbered.prerequisites
  manages : target.managesXray = kept.managesXray
  ordered : kept.managesXray = true → target.ordered = kept.ordered
  xray : kept.managesXray = true → target.desired.xray = kept.desired.xray

theorem managesXray_narrowConfig (target : PlannedTarget) :
    (narrowConfigDesired target).managesXray = target.managesXray := by
  show PlannedTarget.managesXray { target with
    actions := if target.managesXray then target.actions else target.actions.filter (· ≠ .syncGrants) }
      = target.managesXray
  cases hmanages : target.managesXray with
  | true => exact hmanages
  | false =>
    rw [PlannedTarget.managesXray, List.any_eq_false] at hmanages ⊢
    exact fun action haction => hmanages action (List.mem_of_mem_filter haction)

theorem narrowConfig_of_manages (h : target.managesXray = true) :
    (narrowConfigDesired target).ordered = target.ordered
      ∧ (narrowConfigDesired target).desired.xray = target.desired.xray := by
  have hactions : (narrowConfigDesired target).actions = target.actions := if_pos h
  have hdisruptive : (narrowConfigDesired target).disruptive = target.disruptive := by
    obtain ⟨action, haction, -⟩ := List.any_eq_true.mp h
    show (if (if target.managesXray then target.actions else _).isEmpty then _ else _) = _
    rw [if_pos h, if_neg]
    simpa using List.ne_nil_of_mem haction
  constructor
  · simp only [PlannedTarget.ordered, PlannedTarget.appliesXray, PlannedTarget.highRisk, hactions,
      hdisruptive]
  · have hmoved : ConfigArtifact.xray ∈ movedArtifacts target.actions := by
      rw [PlannedTarget.managesXray, managesXray_eq] at h
      exact of_decide_eq_true h
    exact if_pos hmoved

theorem origin_of_narrowed {kept : List PlannedTarget}
    (hplan : plan.targets = assignWaves (assignListenerReferencePrerequisites host kept applied))
    (h : target ∈ (narrowToKind plan .config).targets) :
    ∃ before ∈ kept, ∃ numbered ∈ assignListenerReferencePrerequisites host kept applied,
      Origin before numbered target ∧ numbered.nodeId = before.nodeId := by
  obtain ⟨narrowed, hnarrowed, htarget⟩ := mem_assignWaves h
  obtain ⟨waved, hwaved, rfl⟩ := List.mem_map.mp hnarrowed
  rw [hplan] at hwaved
  obtain ⟨numbered, hnumbered, hwave⟩ := mem_assignWaves hwaved
  obtain ⟨before, hbefore, hprerequisites⟩ := mem_prerequisites hnumbered
  have hmanages : waved.managesXray = before.managesXray := by rw [hwave, hprerequisites]; rfl
  have hordered : waved.ordered = before.ordered := by rw [hwave, hprerequisites]; rfl
  refine ⟨before, hbefore, numbered, hnumbered, ⟨?_, ?_, ?_, fun h => ?_, fun h => ?_⟩, ?_⟩
  · rw [htarget]
    show waved.nodeId = _
    rw [hwave, hprerequisites]
  · rw [htarget]
    show waved.prerequisites = _
    rw [hwave]
  · rw [htarget, ← hmanages]
    exact managesXray_narrowConfig waved
  · rw [htarget, ← hordered]
    exact (narrowConfig_of_manages (hmanages.trans h)).1
  · rw [htarget]
    show (narrowConfigDesired waved).desired.xray = _
    rw [(narrowConfig_of_manages (hmanages.trans h)).2, hwave, hprerequisites]
  · rw [hprerequisites]

theorem nodeIds_narrowed (plan : DeploymentPlan) :
    (narrowToKind plan .config).targets.map (·.nodeId) = plan.targets.map (·.nodeId) := by
  show (assignWaves (plan.targets.map narrowConfigDesired)).map (·.nodeId) = _
  rw [nodeIds_assignWaves, List.map_map]
  rfl

theorem precedes_assignWaves {a b : String} (h : Precedes targets a b) :
    Precedes (assignWaves targets) a b := by
  obtain ⟨target, htarget, hname, hbefore⟩ := h
  obtain ⟨wave, hwave⟩ := exists_assignWaves htarget
  exact ⟨_, hwave, hname, hbefore⟩

theorem oneComponent_assignWaves {a b : String} (h : OneComponent targets a b) :
    OneComponent (assignWaves targets) a b :=
  ⟨h.1.lift id fun _ _ => precedes_assignWaves, h.2.lift id fun _ _ => precedes_assignWaves⟩

/-! ### The order of a release -/

/-- The waves up to one have run, and the machine is running its desired xray. -/
def Switched (targets : List PlannedTarget) (wave : ℕ) (nodeId : String) : Prop :=
  ∃ target ∈ targets, target.nodeId = nodeId ∧ target.managesXray = true ∧ target.wave ≤ wave

/-- Between two machines that both change their xray, a listener is there before it is dialled,
gone after it is dialled last, and changes together with its caller. -/
structure SafelyOrdered (host : Host) (applied : List NodeAppliedState)
    (targets : List PlannedTarget) (source target : PlannedTarget) (identity : ReferenceId) :
    Prop where
  added : (OrdMap.lastOf identity (desiredListenerReferencePairs host source)).isSome →
    runningOutbound host applied identity = none →
    ∀ wave, Switched targets wave source.nodeId → Switched targets wave target.nodeId
  removed : OrdMap.lastOf identity (desiredListenerReferencePairs host source) = none →
    (runningOutbound host applied identity).isSome →
    ∀ wave, Switched targets wave target.nodeId → Switched targets wave source.nodeId
  changed : (OrdMap.lastOf identity (desiredListenerReferencePairs host source)).isSome →
    (runningOutbound host applied identity).isSome →
    OrdMap.lastOf identity (desiredListenerReferencePairs host source)
      ≠ runningOutbound host applied identity →
    ∀ wave, Switched targets wave source.nodeId ↔ Switched targets wave target.nodeId

/-- **Config releases order listener references safely**, and two machines that one waits for
the other share a wave only within one component. -/
theorem references_ordered {checks : Checks} {projections : Projections} {host : Host}
    {doc : ModelSnapshot} {applied : List NodeAppliedState} {plan : DeploymentPlan}
    (happlied : (applied.map (·.nodeId)).Nodup)
    (hproven : ∀ node ∈ doc.nodes, ProvenRunning host applied node.id)
    (hplan : planDeployment checks projections host doc applied = .ok (some plan)) :
    (∀ identity : ReferenceId, ∀ source ∈ (narrowToKind plan .config).targets,
      ∀ target ∈ (narrowToKind plan .config).targets,
      source.nodeId = identity.2.1 → target.nodeId = identity.2.2.2 →
      source.managesXray = true → target.managesXray = true →
      SafelyOrdered host applied (narrowToKind plan .config).targets source target identity)
    ∧ ∀ dependent ∈ (narrowToKind plan .config).targets,
      ∀ prerequisite ∈ (narrowToKind plan .config).targets,
      prerequisite.nodeId ∈ dependent.prerequisites → prerequisite.wave = dependent.wave →
      OneComponent (narrowToKind plan .config).targets dependent.nodeId prerequisite.nodeId := by
  obtain ⟨kept, htargets, hkeptNames, hkept⟩ := planDeployment_kept hplan
  have hnames : ((narrowToKind plan .config).targets.map (·.nodeId)).Nodup := by
    rw [nodeIds_narrowed, htargets, nodeIds_assignWaves, nodeIds_prerequisites]
    exact hkeptNames
  have hnarrowNames : ((plan.targets.map narrowConfigDesired).map (·.nodeId)).Nodup := by
    rw [← nodeIds_assignWaves]
    exact hnames
  -- a machine whose xray changes is given a wave
  have hordered : ∀ target ∈ (narrowToKind plan .config).targets, target.managesXray = true →
      target.ordered = true := by
    intro target htarget hmanages
    obtain ⟨before, hbefore, numbered, -, horigin, -⟩ := origin_of_narrowed htargets htarget
    obtain ⟨hjudged, node, hnode, hid⟩ := hkept before hbefore
    have hbeforeManages := horigin.manages.symm.trans hmanages
    rw [horigin.ordered hbeforeManages]
    exact hjudged.ordered happlied (hid ▸ hproven node hnode) hbeforeManages
  -- and is among those references are compared for
  have hchanging : ∀ target ∈ (narrowToKind plan .config).targets,
      target.managesXray = true ↔ target.nodeId ∈ changingXray kept := by
    intro target htarget
    obtain ⟨before, hbefore, numbered, -, horigin, -⟩ := origin_of_narrowed htargets htarget
    rw [horigin.manages, horigin.name, changingXray, List.mem_map]
    constructor
    · intro hmanages
      refine ⟨before, List.mem_filter.mpr ⟨hbefore, ?_⟩, rfl⟩
      simp [(hkept before hbefore).1.pending hmanages, hmanages]
    · rintro ⟨other, hother, hsame⟩
      obtain ⟨hmem, hpending⟩ := List.mem_filter.mp hother
      rw [← List.inj_on_of_nodup_map hkeptNames hmem hbefore hsame]
      exact (Bool.and_eq_true_iff.mp hpending).2
  have hprerequisite : ∀ target ∈ (narrowToKind plan .config).targets, ∀ nodeId,
      nodeId ∈ target.prerequisites ↔ (target.nodeId, nodeId) ∈ listenerRequires host kept applied := by
    intro target htarget nodeId
    obtain ⟨before, -, numbered, hnumbered, horigin, hname⟩ := origin_of_narrowed htargets htarget
    rw [horigin.prerequisites, mem_prerequisites_iff hkeptNames hnumbered, hname, horigin.name]
  have hwaves : ∀ dependent ∈ (narrowToKind plan .config).targets,
      ∀ prerequisite ∈ (narrowToKind plan .config).targets,
      prerequisite.nodeId ∈ dependent.prerequisites →
      prerequisite.wave ≤ dependent.wave ∧ (prerequisite.wave = dependent.wave →
        OneComponent (narrowToKind plan .config).targets dependent.nodeId prerequisite.nodeId) := by
    intro dependent hd prerequisite hp hwaits
    obtain ⟨hdependent, hneeded⟩ := changing_of_requires ((hprerequisite dependent hd _).mp hwaits)
    have h := wave_le_of_prerequisite hnarrowNames hd hp
      (hordered dependent hd ((hchanging dependent hd).mpr hdependent))
      (hordered prerequisite hp ((hchanging prerequisite hp).mpr hneeded)) hwaits
    exact ⟨h.1, fun heq => oneComponent_assignWaves (h.2 heq)⟩
  -- a machine that another waits for switches no later
  have hswitched : ∀ first ∈ (narrowToKind plan .config).targets,
      ∀ second ∈ (narrowToKind plan .config).targets, first.managesXray = true →
      (second.nodeId, first.nodeId) ∈ listenerRequires host kept applied →
      ∀ wave, Switched (narrowToKind plan .config).targets wave second.nodeId →
        Switched (narrowToKind plan .config).targets wave first.nodeId := by
    rintro first hfirst second hsecond hmanages hedge wave ⟨other, hother, hname, -, hwave⟩
    rw [List.inj_on_of_nodup_map hnames hother hsecond hname] at hwave
    exact ⟨first, hfirst, rfl, hmanages, Nat.le_trans
      (hwaves second hsecond first hfirst ((hprerequisite second hsecond _).mpr hedge)).1 hwave⟩
  refine ⟨fun identity source hsource target htarget hsourceName htargetName hsourceManages
    htargetManages => ?_, fun dependent hd prerequisite hp hwaits =>
      (hwaves dependent hd prerequisite hp hwaits).2⟩
  obtain ⟨before, hbefore, _, -, horigin, -⟩ := origin_of_narrowed htargets hsource
  obtain ⟨-, node, hnode, hid⟩ := hkept before hbefore
  have hdesired : OrdMap.lastOf identity (kept.flatMap (desiredListenerReferencePairs host))
      = OrdMap.lastOf identity (desiredListenerReferencePairs host source) := by
    rw [lastOf_desired hkeptNames hbefore (horigin.name ▸ hsourceName)]
    simp only [desiredListenerReferencePairs, horigin.name,
      horigin.xray (horigin.manages.symm.trans hsourceManages)]
  have hrunning : OrdMap.lastOf identity (applied.flatMap (runningListenerReferencePairs host))
      = runningOutbound host applied identity := by
    obtain ⟨state, hstate, hstateName, -⟩ := hproven node hnode
    have hstateSource : state.nodeId = identity.2.1 := by
      rw [hstateName, hid, ← horigin.name, hsourceName]
    rw [lastOf_running happlied hstate hstateSource, runningOutbound, ← hstateSource,
      appliedByNode_of_mem happlied hstate, Option.bind_some]
  have hsourceChanges := (hchanging source hsource).mp hsourceManages
  have htargetChanges := (hchanging target htarget).mp htargetManages
  rw [hsourceName] at hsourceChanges
  rw [htargetName] at htargetChanges
  have hforward := hswitched target htarget source hsource htargetManages
  have hback := hswitched source hsource target htarget hsourceManages
  rw [hsourceName, htargetName] at hforward hback
  refine ⟨fun hsome hnone => ?_, fun hnone hsome => ?_, fun hdesiredSome hrunningSome hne => ?_⟩ <;>
    rw [hsourceName, htargetName]
  · exact hforward ((mem_requires hsourceChanges htargetChanges hdesired (hrunning.trans hnone)
      (Option.ne_none_iff_isSome.mpr hsome)).1 hsome)
  · exact hback ((mem_requires hsourceChanges htargetChanges (hdesired.trans hnone) hrunning
      (Option.ne_none_iff_isSome.mpr hsome).symm).2 hsome)
  · obtain ⟨hthere, hhere⟩ := mem_requires hsourceChanges htargetChanges hdesired hrunning hne
    exact fun wave => ⟨hforward (hthere hdesiredSome) wave, hback (hhere hrunningSome) wave⟩

/-! ### A caller and its listener -/

/-- Two machines, one of which dials. -/
def dialDoc : ModelSnapshot :=
  plainSnapshot [plainNode "jp" "198.51.100.1", plainNode "sg" "198.51.100.2"]
    [plainApp "web" [⟨"main", "acme", "main", none⟩, ⟨"side", "acme", "side", none⟩]
      [plainIngress "front" "main" "jp", plainIngress "near" "side" "sg"] []]

/-- What runs now dials nobody, and the new config of `sg` dials `jp`. -/
def dialHost : Host where
  sha256Hex text := "sha of " ++ text
  parse text := if text = "xray of sg" then
      some (.ofFields [("outbounds", .arr [.ofFields [("tag", .str "out:main~in>jp")]])])
    else none
  render _ := "outbound"

/-- What they run. -/
def dialRunning (nodeId : String) : NodeAppliedState :=
  { NodeAppliedState.unknown nodeId with
    xray := .present "sha of old"
    runningXray := some "old" }

theorem references_ordered_dial :
    ∃ plan, planDeployment plainChecks plainProjections dialHost dialDoc
        [dialRunning "jp", dialRunning "sg"] = .ok (some plan)
      ∧ (narrowToKind plan .config).targets.map (fun target => (target.nodeId, target.wave))
        = [("jp", 1), ("sg", 2)]
      ∧ ∀ source ∈ (narrowToKind plan .config).targets,
        ∀ target ∈ (narrowToKind plan .config).targets,
        source.nodeId = "sg" → target.nodeId = "jp" → source.managesXray = true →
        target.managesXray = true → SafelyOrdered dialHost [dialRunning "jp", dialRunning "sg"]
          (narrowToKind plan .config).targets source target ("main", "sg", "in", "jp") := by
  obtain ⟨plan, hplan, hwaves⟩ : ∃ plan, planDeployment plainChecks plainProjections dialHost
      dialDoc [dialRunning "jp", dialRunning "sg"] = .ok (some plan)
      ∧ (narrowToKind plan .config).targets.map (fun target => (target.nodeId, target.wave))
        = [("jp", 1), ("sg", 2)] := by
    obtain ⟨_, plan, -, hplan, -⟩ := planDeployment_spec dialHost
      [dialRunning "jp", dialRunning "sg"]
      (show (compile plainChecks dialDoc).ensurePublishable = true by decide +kernel)
      plainProjections
    refine ⟨plan, hplan, ?_⟩
    have hrun : (planDeployment plainChecks plainProjections dialHost dialDoc
        [dialRunning "jp", dialRunning "sg"]).toOption.join.map (fun plan =>
          (narrowToKind plan .config).targets.map fun target => (target.nodeId, target.wave))
        = some [("jp", 1), ("sg", 2)] := by decide +kernel
    rw [hplan] at hrun
    exact Option.some.inj hrun
  have hproven : ∀ node ∈ dialDoc.nodes,
      ProvenRunning dialHost [dialRunning "jp", dialRunning "sg"] node.id := by
    simp [dialDoc, plainSnapshot, plainNode, ProvenRunning, dialRunning, dialHost,
      NodeAppliedState.unknown]
  have h := (references_ordered (by decide) hproven hplan).1 ("main", "sg", "in", "jp")
  exact ⟨plan, hplan, hwaves, h⟩

end Brocade.Release
