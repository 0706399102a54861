/-
Decommissioned machines in what is published.

A chain whose head leads to a decommissioned machine is disabled and leaves the compilation with
its ingresses.  A subtree that only another chain's reference keeps alive is not on the way from
its own chain's head, and nothing disables it.  A machine in it is entered by some rule, so it has
a credential, and a decommissioned one is then reported as a relay that cannot be reached: unless a
rule has it connect back, in which case nobody asks whether it can be reached.

So a publishable compilation involves a decommissioned machine exactly where such a rule can be
come to.
-/
import Brocade.Ir.Reached

namespace Brocade.Ir

open Model

/-- No compiled object involves a decommissioned machine. -/
structure NoneRetired (doc : ModelSnapshot) (output : CompileOutput) : Prop where
  steps : ∀ app ∈ output.apps, ∀ step ∈ app.steps, step.node ∉ retiredNodes doc
  hops : ∀ app ∈ output.apps, ∀ hop ∈ app.hops,
    hop.source ∉ retiredNodes doc ∧ hop.target ∉ retiredNodes doc
  ingresses : ∀ app ∈ output.apps, ∀ ingress ∈ app.ingresses, ingress.node ∉ retiredNodes doc
  grants : ∀ app ∈ output.apps, ∀ grant ∈ app.grants,
    ∃ ingress ∈ app.ingresses, ingress.id = grant.ingress

/-- No rule that the walk comes to has a decommissioned machine connect back. -/
def NoneDialsBack (doc : ModelSnapshot) : Prop :=
  ∀ key, Reached doc key → ∀ rule ∈ ownedRules doc key, ∀ target family pool,
    rule.action = .forward target (.reverse family) pool → target ∉ retiredNodes doc

/-! ### Heads and ingresses -/

section Publishable

variable {checks : Checks} {doc : ModelSnapshot}

theorem not_system_of_retired (h : (compile checks doc).ensurePublishable = true) {node : String}
    (hretired : node ∈ retiredNodes doc) :
    (compile checks doc).system.nodes.any (·.id = node) = false := by
  rw [Bool.eq_false_iff]
  intro hany
  obtain ⟨found, hfound, hid⟩ := List.any_eq_true.mp hany
  obtain ⟨live, hlive, hliveId, hin⟩ :=
    (mem_system_nodes doc node).mp ⟨found, hfound, by simpa using hid⟩
  obtain ⟨gone, hgone, hgoneId⟩ := List.mem_map.mp hretired
  obtain ⟨hgoneMem, hflag⟩ := List.mem_filter.mp hgone
  have hsame : live = gone := List.inj_on_of_nodup_map (nodup_nodes (clean_snapshot h)) hlive
    hgoneMem (hliveId.trans hgoneId.symm)
  simp [inSystem, hsame, hflag] at hin

theorem head_not_retired {view : AppView} {id : String} (hid : id ∈ view.chains.map (·.id))
    (hlive : id ∉ disabledChains doc view) {root : Model.Ingress}
    (hroot : selectedChainRoot view id = some root) : root.node ∉ retiredNodes doc := by
  intro hretired
  refine hlive (List.mem_filter.mpr ⟨hid, ?_⟩)
  unfold reachesRetired
  rw [hroot]
  refine List.any_eq_true.mpr ⟨root.node, ?_, by simpa using hretired⟩
  refine (Worklist.mem_explore (fun node hnode => ?_) root.node).mpr
    (.of_root List.mem_cons_self)
  obtain ⟨target, htarget⟩ := List.exists_mem_of_ne_nil _ hnode
  obtain ⟨rule, hrule, -⟩ := List.mem_filterMap.mp htarget
  obtain ⟨step, hstep, -⟩ := List.mem_flatMap.mp hrule
  obtain ⟨hmem, hplace⟩ := List.mem_filter.mp hstep
  rw [Bool.and_eq_true, decide_eq_true_eq, decide_eq_true_eq] at hplace
  exact hplace.2 ▸ List.mem_map_of_mem hmem

theorem ingress_not_retired (h : (compile checks doc).ensurePublishable = true) {app : AppIr}
    (happ : app ∈ (compile checks doc).apps) {ingress : Ingress}
    (hingress : ingress ∈ app.ingresses) : ingress.node ∉ retiredNodes doc := by
  obtain ⟨view, -, rfl⟩ := mem_compile_apps happ
  have hcompiled : ingress ∈ (view.ingresses.filter (isLiveIngress doc view)).map
      (compileIngress doc view) := (List.perm_insertionSort _ _).mem_iff.mp hingress
  obtain ⟨source, hsource, rfl⟩ := List.mem_map.mp hcompiled
  have hlive := (List.mem_filter.mp hsource).2
  show source.node ∉ retiredNodes doc
  intro hretired
  obtain ⟨gone, hgone, hgoneId⟩ := List.mem_map.mp hretired
  obtain ⟨hgoneMem, hflag⟩ := List.mem_filter.mp hgone
  have hfind : nodeById doc source.node = some gone := by
    cases hfound : nodeById doc source.node with
    | none =>
      have hmiss := List.find?_eq_none.mp hfound gone (List.mem_reverse.mpr hgoneMem)
      simp [hgoneId] at hmiss
    | some found =>
      have hid : found.id = source.node := by simpa using List.find?_some hfound
      rw [List.inj_on_of_nodup_map (nodup_nodes (clean_snapshot h))
        (List.mem_reverse.mp (List.mem_of_find?_eq_some hfound)) hgoneMem
        (hid.trans hgoneId.symm)]
  simp [isLiveIngress, hfind, hflag] at hlive

theorem grant_ingress {app : AppIr} (happ : app ∈ (compile checks doc).apps) {grant : Grant}
    (hgrant : grant ∈ app.grants) : ∃ ingress ∈ app.ingresses, ingress.id = grant.ingress := by
  obtain ⟨view, -, rfl⟩ := mem_compile_apps happ
  have hcompiled : grant ∈ (compileGrants doc view
      ((view.ingresses.filter (isLiveIngress doc view)).map (compileIngress doc view))).1 :=
    (List.perm_insertionSort _ _).mem_iff.mp hgrant
  obtain ⟨seen, source, hmade⟩ := compileGrant_of_mem hcompiled
  obtain ⟨ingress, hingress, hid⟩ := (compileGrant_some hmade).1
  exact ⟨ingress, (List.perm_insertionSort _ _).mem_iff.mpr hingress, hid⟩

/-! ### Tables -/

/-- A table with a credential is that of a machine that can be reached, or that connects back. -/
theorem reachable_of_accept (h : (compile checks doc).ensurePublishable = true) {app : AppIr}
    (happ : app ∈ (compile checks doc).apps) {step : Step} (hstep : step ∈ app.steps)
    (haccept : step.accept.isSome = true) : isReverseDownstream app step = true
      ∨ (compile checks doc).system.nodes.any (·.id = step.node) = true := by
  have hclean := clean_step h happ hstep
  unfold validateStep at hclean
  rw [clean_append] at hclean
  cases hlast : step.rules.getLast? with
  | none =>
    rw [hlast] at hclean
    exact absurd hclean.2 not_clean_error
  | some last =>
    rw [hlast] at hclean
    simp only [clean_append, clean_errorIf] at hclean
    have hfault := hclean.2.1.2
    rw [haccept, Bool.true_and] at hfault
    by_cases hback : isReverseDownstream app step = true
    · exact Or.inl hback
    · rw [Bool.not_eq_true] at hback
      exact Or.inr (by simpa [hback] using hfault)

theorem rule_of_hop (h : (compile checks doc).ensurePublishable = true) {app : AppIr}
    (happ : app ∈ (compile checks doc).apps) {hop : Hop} (hhop : hop ∈ app.hops) :
    ∃ source ∈ app.steps, ∃ target ∈ (compile checks doc).targetSteps, ∃ rule ∈ source.rules,
      source.node = hop.source ∧ target.node = hop.target ∧ (hop.path = .reverse →
          ∃ family pool, rule.action = .forward hop.target (.reverse family) pool) := by
  obtain ⟨view, hview, rfl⟩ := mem_compile_apps happ
  obtain ⟨listeners, -, hhops⟩ := exists_hops (clean_hops h hview)
  obtain ⟨edge, hfirst, accept, hopIn, resolved, hdials, rfl⟩ := (hhops hop).mp hhop
  have hkept : ∀ raw : Hop, (settleLoopback listeners raw).source = raw.source
      ∧ (settleLoopback listeners raw).target = raw.target
      ∧ (settleLoopback listeners raw).path = raw.path := by
    intro raw
    unfold settleLoopback
    split_ifs <;> exact ⟨rfl, rfl, rfl⟩
  rw [(hkept _).1, (hkept _).2.1, (hkept _).2.2]
  obtain ⟨source, hsource, hedge⟩ := List.mem_flatMap.mp (List.mem_of_find?_eq_some hfirst)
  obtain ⟨forward, hforward, rfl⟩ := List.mem_map.mp hedge
  obtain ⟨rule, hrule, haction⟩ := List.mem_filterMap.mp hforward
  obtain ⟨target, htarget, -, -⟩ := entryOf_ok hdials.entry
  obtain ⟨hmem, hkey⟩ := findStep_eq_some htarget
  exact ⟨source, hsource, target, hmem, rule, hrule, rfl, congrArg Prod.snd hkey,
    fun hback => resolveEdge_reverse haction hdials.dialed hback⟩

/-- Where no decommissioned machine connects back, every table is that of a machine in service. -/
theorem step_not_retired (h : (compile checks doc).ensurePublishable = true)
    (hnone : NoneDialsBack doc) {app : AppIr} (happ : app ∈ (compile checks doc).apps)
    {step : Step} (hstep : step ∈ app.steps) : step.node ∉ retiredNodes doc := by
  intro hretired
  obtain ⟨root, hroot, hreach⟩ := reached_of_compiled h happ hstep
  rcases Relation.ReflTransGen.cases_tail hreach with heq | hlast
  · -- the head of a chain that is not disabled
    rw [← heq] at hroot
    obtain ⟨view, hview, hheld, hlive, head, hhead, hnode⟩ := (mem_walkRoots h).mp hroot
    exact head_not_retired hheld hlive hhead (hnode ▸ hretired)
  · obtain ⟨key, hkey, hnext⟩ := hlast
    -- some rule enters the table, which therefore has a credential
    obtain ⟨rule, hrule, hedge⟩ := List.mem_filterMap.mp hnext
    obtain ⟨forward, hforward, hto⟩ := forwardRef_of_walkEdge hedge
    obtain ⟨twin, htwin, htwinKey, haccept⟩ :=
      next_compiled h (compiled_of_reached h ⟨root, hroot, hkey⟩) hrule hforward hto
    have hsame : twin = step := List.inj_on_of_nodup_map (nodup_tables h) htwin
      (mem_targetSteps happ hstep) htwinKey
    rw [hsame] at haccept
    have hback := (reachable_of_accept h happ hstep haccept).resolve_right
      (by rw [not_system_of_retired h hretired]; exact Bool.false_ne_true)
    obtain ⟨hop, hhop, hends⟩ := List.any_eq_true.mp hback
    simp only [Bool.and_eq_true, decide_eq_true_eq] at hends
    obtain ⟨source, hsource, -, -, rule, hrule, -, -, hreverse⟩ := rule_of_hop h happ hhop
    obtain ⟨family, pool, haction⟩ := hreverse hends.2
    rw [hends.1.2] at haction
    have hstored : rule ∈ ownedRules doc source.key :=
      (mem_step_rules_iff h happ hsource (by rw [haction]; exact Option.some_ne_none _)).mp hrule
    exact hnone source.key (reached_of_compiled h happ hsource) rule hstored step.node family pool
      haction hretired

/-- **What is published involves no decommissioned machine exactly where no rule that live traffic
comes to has one connect back.** -/
theorem noneRetired_iff (h : (compile checks doc).ensurePublishable = true) :
    NoneRetired doc (compile checks doc) ↔ NoneDialsBack doc := by
  constructor
  · intro hall key hkey rule hrule target family pool haction hretired
    have hnext : Reached doc (key.1, target) :=
      hkey.step (List.mem_filterMap.mpr ⟨rule, hrule, by rw [walkEdge, haction]⟩)
    obtain ⟨step, hstep, hstepKey⟩ := List.mem_map.mp (compiled_of_reached h hnext)
    obtain ⟨app, happ, hmem⟩ := List.mem_flatMap.mp hstep
    have hnode : step.node = target := congrArg Prod.snd hstepKey
    exact hall.steps app happ step hmem (hnode ▸ hretired)
  · intro hnone
    have hsteps : ∀ app ∈ (compile checks doc).apps, ∀ step ∈ app.steps,
        step.node ∉ retiredNodes doc := fun app happ step hstep =>
      step_not_retired h hnone happ hstep
    refine ⟨hsteps, fun app happ hop hhop => ?_, fun app happ ingress hingress =>
      ingress_not_retired h happ hingress, fun app happ grant hgrant => grant_ingress happ hgrant⟩
    obtain ⟨source, hsource, target, htarget, -, -, hsourceNode, htargetNode, -⟩ :=
      rule_of_hop h happ hhop
    obtain ⟨other, hother, htargetMem⟩ := List.mem_flatMap.mp htarget
    exact ⟨hsourceNode ▸ hsteps app happ source hsource,
      htargetNode ▸ hsteps other hother target htargetMem⟩

end Publishable

/-! ### A stranded subtree -/

/-- The head of `main` lets everything out itself; its listener on `jp` is entered by `tools`
alone, and has `us` connect back.  The chain `old` ran on `kr`, which is gone. -/
def strandedSnapshot (gone : Bool) : ModelSnapshot :=
  plainSnapshot
    [plainNode "jp" "198.51.100.1", plainNode "sg" "198.51.100.2",
      { plainNode "us" "198.51.100.3" with retired := gone },
      { plainNode "kr" "198.51.100.4" with retired := true }]
    [plainApp "web" [⟨"main", "acme", "main", none⟩] [plainIngress "front" "main" "sg"]
      [⟨"main", "sg", none, none, [⟨.any, .egress none⟩]⟩,
        { chain := "main", node := "jp", accept := some ⟨"uuid of jp", "main@jp"⟩
          hopIn := some ⟨2000, .encryption ⟨"private", "public"⟩⟩
          rules := [⟨.any, .forward "us" (.reverse .v4) .none⟩] },
        { chain := "main", node := "us", accept := some ⟨"uuid of us", "main@us"⟩
          hopIn := none
          rules := [⟨.any, .egress none⟩] }],
     plainApp "tools" [⟨"side", "acme", "side", none⟩, ⟨"old", "acme", "old", none⟩]
      [plainIngress "near" "side" "jp", plainIngress "far" "old" "kr"]
      [⟨"side", "jp", none, none, [⟨.any, .reuseListener ⟨"main", "jp"⟩ .overlay .none⟩]⟩,
        ⟨"old", "kr", none, none, [⟨.any, .egress none⟩]⟩]]

theorem noneRetired_in_service : retiredNodes (strandedSnapshot false) = ["kr"]
    ∧ (NoneRetired (strandedSnapshot false) (compile silentChecks (strandedSnapshot false))
      ↔ NoneDialsBack (strandedSnapshot false)) :=
  ⟨by decide +kernel, noneRetired_iff (by decide +kernel)⟩

/-- Decommissioned, `us` keeps its table, and `jp` its hop. -/
theorem stranded_published : (compile silentChecks (strandedSnapshot true)).ensurePublishable = true
      ∧ ¬ NoneRetired (strandedSnapshot true) (compile silentChecks (strandedSnapshot true)) := by
  refine ⟨by decide +kernel, fun hall => ?_⟩
  have hstep : ∃ app ∈ (compile silentChecks (strandedSnapshot true)).apps, ∃ step ∈ app.steps,
      step.node ∈ retiredNodes (strandedSnapshot true) := by decide +kernel
  obtain ⟨app, happ, step, hstep, hretired⟩ := hstep
  exact hall.steps app happ step hstep hretired

end Brocade.Ir
