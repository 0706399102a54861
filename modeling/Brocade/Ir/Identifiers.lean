/-
Identifiers the compiler makes up.

A table is named after its chain and its machine and a link after its two machines, with a dash
between the two, and names may hold dashes themselves.  Where the names of a snapshot are unique,
a repeated identifier is reported exactly where two tables of a project or two links spell alike.
Which tables and links there are, and whose names spell alike, is in `Ir/Spelling.lean`.
-/
import Brocade.Ir.Codes
import Brocade.Ir.Links
import Brocade.Ir.Members

namespace Brocade.Ir

open Model

/-! ### Lists without repetitions -/

variable {α : Type} {doc : ModelSnapshot} {app : AppView}

theorem nodup_map_iff {β γ : Type} {as : List α} {key : α → β} (hkey : (as.map key).Nodup)
    {name : α → γ} : (as.map name).Nodup ↔ ∀ a ∈ as, ∀ b ∈ as, name a = name b → key a = key b := by
  constructor
  · intro h a ha b hb hname
    rw [List.inj_on_of_nodup_map h ha hb hname]
  · intro h
    refine List.Nodup.map_on ?_ (List.Nodup.of_map key hkey)
    intro a ha b hb hname
    exact List.inj_on_of_nodup_map hkey ha hb (h a ha b hb hname)

theorem nodup_sortById {id : α → String} {as : List α} :
    ((sortById id as).map id).Nodup ↔ (as.map id).Nodup :=
  ((List.perm_insertionSort _ _).map _).nodup_iff

/-! ### Tables -/

theorem nodes_chainLoop (input : RoutingChainInput) (root : String) :
    (chainLoop input root).steps.map (·.node) = (chainLoop input root).made
      ∧ (chainLoop input root).made.Nodup := by
  refine Worklist.drain_keeps (P := fun st : ChainLoop => st.steps.map (·.node) = st.made
    ∧ st.made.Nodup) ?_ ⟨rfl, List.nodup_nil⟩
  rintro nodeId st ⟨hnodes, hnodup⟩
  unfold visitMember
  split
  · exact ⟨hnodes, hnodup⟩
  next hnew =>
    split
    · exact ⟨hnodes, hnodup⟩
    · refine ⟨?_, ?_⟩
      · dsimp only
        rw [List.map_append, hnodes]
        rfl
      · exact List.nodup_append.mpr ⟨hnodup, List.nodup_singleton _, by
          intro a ha b hb hab
          rw [List.mem_singleton.mp hb] at hab
          exact hnew (hab ▸ ha)⟩

theorem nodup_chainLoop (input : RoutingChainInput) (root : String) :
    ((chainLoop input root).steps.map (·.node)).Nodup
      ∧ ∀ step ∈ (chainLoop input root).steps, step.chain = input.chain.id := by
  obtain ⟨hnodes, hnodup⟩ := nodes_chainLoop input root
  refine ⟨hnodes ▸ hnodup, fun step hstep => ?_⟩
  obtain ⟨node, -, htable⟩ := tabled_chainLoop input root step hstep
  rw [htable]
  rfl

theorem nodup_compileChainSteps (input : RoutingChainInput) :
    ((compileChainSteps input).1.map (·.node)).Nodup
      ∧ ∀ step ∈ (compileChainSteps input).1, step.chain = input.chain.id := by
  unfold compileChainSteps
  split
  · simp
  · exact nodup_chainLoop _ _

theorem nodup_compileApp_steps {listenerRoots : List (String × String)}
    (h : (app.chains.map (·.id)).Nodup) :
    ((compileApp doc app listenerRoots).1.steps.map Step.key).Nodup := by
  have hperm : ((compileApp doc app listenerRoots).1.steps.map Step.key).Perm
      (((chainInputs doc app listenerRoots).flatMap fun input =>
        (compileChainSteps input).1).map Step.key) := by
    refine List.Perm.map _ ?_
    refine (List.perm_insertionSort _ _).trans ?_
    show List.Perm (((chainInputs doc app listenerRoots).map RoutingChainInput.compile).flatMap
      (·.steps)) _
    rw [List.flatMap_map]
    exact List.Perm.refl _
  rw [hperm.nodup_iff, List.map_flatMap, List.nodup_flatMap]
  constructor
  · intro input _
    refine List.Nodup.of_map Prod.snd ?_
    rw [List.map_map]
    exact (nodup_compileChainSteps input).1
  · have hchains : ((chainInputs doc app listenerRoots).map (·.chain.id)).Nodup := by
      show (((app.chains.filter _).map _).map _).Nodup
      rw [List.map_map]
      exact h.sublist (List.filter_sublist.map _)
    refine (List.pairwise_map.mp hchains).imp ?_
    intro input other hne key hkey hother
    obtain ⟨step, hstep, rfl⟩ := List.mem_map.mp hkey
    obtain ⟨step', hstep', hsame⟩ := List.mem_map.mp hother
    have hone := (nodup_compileChainSteps input).2 step hstep
    have htwo := (nodup_compileChainSteps other).2 step' hstep'
    exact hne (hone.symm.trans ((congrArg Prod.fst hsame).symm.trans htwo))

theorem step_id {listenerRoots : List (String × String)} {step : Step}
    (h : step ∈ (compileApp doc app listenerRoots).1.steps) :
    step.id = s!"s-{step.chain}-{step.node}" := by
  obtain ⟨input, -, hstep⟩ := mem_compileApp_steps.mp h
  obtain ⟨root, -, node, -, rfl⟩ := mem_compileChainSteps hstep
  rfl

/-! ### Links -/

theorem pairsOf_apart {id : α → String} {as : List α} (h : as.Pairwise fun a b => id a < id b) :
    ((pairsOf as).map fun pair => (id pair.1, id pair.2)).Nodup := by
  induction as with
  | nil => exact List.nodup_nil
  | cons a as ih =>
    obtain ⟨hfirst, hrest⟩ := List.pairwise_cons.mp h
    rw [pairsOf, List.map_append, List.nodup_append]
    refine ⟨?_, ih hrest, ?_⟩
    · rw [List.map_map]
      have hids : (as.map id).Nodup :=
        List.pairwise_map.mpr (hrest.imp fun hlt => ne_of_lt hlt)
      refine List.Nodup.of_map Prod.snd ?_
      rw [List.map_map]
      exact hids
    · intro key hkey other hother hsame
      obtain ⟨pair, hpair, rfl⟩ := List.mem_map.mp hkey
      obtain ⟨b, hb, rfl⟩ := List.mem_map.mp hpair
      obtain ⟨later, hlater, rfl⟩ := List.mem_map.mp hother
      have hmem := (pairsOf_of_pairwise hrest hlater).1
      have hlt := hfirst later.1 hmem
      rw [← (Prod.mk.inj hsame).1] at hlt
      exact lt_irrefl _ hlt

theorem nodup_links (h : Distinct doc) :
    ((compileSystem doc).1.links.map fun link => (link.a, link.b)).Nodup := by
  have hperm : (compileSystem doc).1.links.Perm
      ((pairsOf ((systemNodes doc).filter (·.wireguard.isSome))).filterMap fun pair =>
        (linkBetween doc pair.1 pair.2).1) := by
    refine (List.perm_insertionSort _ _).trans ?_
    rw [List.filterMap_map]
    exact List.Perm.refl _
  rw [(hperm.map _).nodup_iff]
  have hpairs := pairsOf_apart ((systemNodes_sorted h).filter (·.wireguard.isSome))
  refine List.pairwise_map.mpr (List.pairwise_filterMap.mpr ?_)
  refine (List.pairwise_map.mp hpairs).imp ?_
  intro pair other hne link hlink link' hlink' hsame
  obtain ⟨-, ha, hb, -, -⟩ := linkBetween_eq_some hlink
  obtain ⟨-, ha', hb', -, -⟩ := linkBetween_eq_some hlink'
  rw [ha, hb, ha', hb'] at hsame
  exact hne hsame

theorem link_id {link : Link} (h : link ∈ (compileSystem doc).1.links) :
    link.id = s!"l-{link.a}-{link.b}" := by
  have hmem : link ∈ ((pairsOf ((systemNodes doc).filter (·.wireguard.isSome))).map fun pair =>
      linkBetween doc pair.1 pair.2).filterMap (·.1) := by
    simpa only [compileSystem, List.mem_insertionSort] using h
  obtain ⟨made, hmade, hlink⟩ := List.mem_filterMap.mp hmem
  obtain ⟨pair, -, rfl⟩ := List.mem_map.mp hmade
  unfold linkBetween at hlink
  split at hlink
  · cases hlink
  · dsimp only at hlink
    split at hlink
    · cases hlink
    · injection hlink with hlink
      rw [← hlink]

/-! ### Grants -/

theorem nodup_compileGrants (doc : ModelSnapshot) (app : AppView) (live : List Ingress) :
    ((compileGrants doc app live).1.map (·.id)).Nodup := by
  have hfold : ∀ (grants : List Model.Grant) (acc : List String × List Grant × List Diagnostic),
      acc.2.1.map (·.id) = acc.1.map ("g-" ++ ·) → acc.1.Nodup →
      ((grants.foldl (fun acc grant =>
        let compiled := compileGrant doc app live acc.1 grant
        let seen := compiled.1.toList.map fun grant =>
          s!"{userKey grant.tenant grant.user}|{grant.ingress}"
        (acc.1 ++ seen, acc.2.1 ++ compiled.1.toList, acc.2.2 ++ compiled.2)) acc).2.1.map
          (·.id)).Nodup := by
    intro grants
    induction grants with
    | nil =>
      intro acc hids hnodup
      rw [List.foldl_nil, hids]
      refine hnodup.map ?_
      intro a b hab
      exact String.append_right_inj _ |>.mp hab
    | cons grant grants ih =>
      intro acc hids hnodup
      rw [List.foldl_cons]
      dsimp only
      cases hmade : (compileGrant doc app live acc.1 grant).1 with
      | none =>
        refine ih _ ?_ ?_
        · simpa using hids
        · simpa using hnodup
      | some made =>
        have hspec : made.id = "g-" ++ s!"{userKey made.tenant made.user}|{made.ingress}"
            ∧ s!"{userKey made.tenant made.user}|{made.ingress}" ∉ acc.1 := by
          unfold compileGrant at hmade
          dsimp only at hmade
          split at hmade
          · cases hmade
          split at hmade
          · cases hmade
          split at hmade
          · cases hmade
          split at hmade
          · cases hmade
          next hfresh =>
            injection hmade with hmade
            subst hmade
            exact ⟨rfl, hfresh⟩
        refine ih _ ?_ ?_
        · simp only [Option.toList_some, List.map_append, hids, List.map_cons, List.map_nil,
            hspec.1]
        · simp only [Option.toList_some, List.map_cons, List.map_nil]
          refine List.nodup_append.mpr ⟨hnodup, List.nodup_singleton _, ?_⟩
          intro a ha b hb hab
          rw [List.mem_singleton.mp hb] at hab
          exact hspec.2 (hab ▸ ha)
  exact hfold app.grants ([], [], []) rfl List.nodup_nil

/-! ### What gets reported -/

/-- Every name of a snapshot is a slug. -/
structure Slugs (doc : ModelSnapshot) : Prop where
  nodes : ∀ node ∈ doc.nodes, isValidSlug node.id = true
  apps : ∀ app ∈ doc.apps, isValidSlug app.id = true
  chains : ∀ app ∈ doc.apps, ∀ chain ∈ app.chains, isValidSlug chain.id = true
  ingresses : ∀ app ∈ doc.apps, ∀ ingress ∈ app.ingresses, isValidSlug ingress.id = true
  fronts : ∀ app ∈ doc.apps, ∀ front ∈ app.fronts, isValidSlug front.id = true
  users : ∀ user ∈ doc.users, isValidSlug user.id = true

/-- Nothing in a snapshot is named twice, and nothing is granted twice. -/
structure UniqueNames (doc : ModelSnapshot) : Prop where
  nodes : (doc.nodes.map (·.id)).Nodup
  apps : (doc.apps.map (·.id)).Nodup
  chains : ((doc.apps.flatMap (·.chains)).map (·.id)).Nodup
  ingresses : ∀ app ∈ doc.apps, (app.ingresses.map (·.id)).Nodup
  fronts : ∀ app ∈ doc.apps, (app.fronts.map (·.id)).Nodup
  users : (doc.users.map fun user => (user.tenant, user.id)).Nodup
  grants : ∀ app ∈ doc.apps,
    (app.grants.map fun grant => (grant.tenant, grant.user, grant.ingress)).Nodup
  slugs : Slugs doc

/-- The chain and the machine of every table that a project compiles. -/
def compiledTables (doc : ModelSnapshot) (app : AppView) : List (String × String) :=
  (compileApp doc app (reachableListenerRootsAcrossApps doc)).1.steps.map Step.key

/-- The two machines of every link. -/
def linkedPairs (doc : ModelSnapshot) : List (String × String) :=
  (compileSystem doc).1.links.map fun link => (link.a, link.b)

/-- No two of these pairs read the same with a dash between their halves. -/
def SpeltApart (pairs : List (String × String)) : Prop :=
  ∀ p ∈ pairs, ∀ q ∈ pairs, s!"{p.1}-{p.2}" = s!"{q.1}-{q.2}" → p = q

theorem dashed_inj {kind a b c d : String} :
    kind ++ a ++ "-" ++ b = kind ++ c ++ "-" ++ d ↔ a ++ "-" ++ b = c ++ "-" ++ d := by
  rw [String.append_assoc, String.append_assoc, String.append_assoc, String.append_assoc,
    String.append_right_inj, String.append_assoc, String.append_assoc]

theorem noIdDup_compileRoutingApp (doc : ModelSnapshot) (app : AppView)
    (listenerRoots : List (String × String)) :
    NoIdDup (compileRoutingApp doc app listenerRoots).diagnostics := by
  rw [compileRoutingApp]
  exact noIdDup_compileApp doc app listenerRoots

theorem noIdDup_finishAppCompile {checks : Checks} (hchecks : checks.OwnCodes)
    (routing : RoutingAppCompile) (targetSteps : List Step) (sys : SystemIr) :
    NoIdDup (finishAppCompile checks routing targetSteps sys).diagnostics
      ↔ (routing.app.nodes.map (·.id)).Nodup ∧ (routing.app.chains.map (·.id)).Nodup
        ∧ (routing.app.ingresses.map (·.id)).Nodup ∧ (routing.app.fronts.map (·.id)).Nodup
        ∧ (routing.app.steps.map (·.id)).Nodup ∧ (routing.app.grants.map (·.id)).Nodup := by
  rw [finishAppCompile, noIdDup_append, noIdDup_validateApp hchecks]
  simp only [noIdDup_compileHops, true_and]
  rfl

theorem noIdDup_compile {checks : Checks} (hchecks : checks.OwnCodes) (doc : ModelSnapshot) :
    NoIdDup (compile checks doc).diagnostics ↔
      ((doc.nodes.map (·.id)).Nodup ∧ (doc.apps.map (·.id)).Nodup
        ∧ ((doc.apps.flatMap (·.chains)).map (·.id)).Nodup)
      ∧ (((compileSystem doc).1.nodes.map (·.id)).Nodup
        ∧ ((compileSystem doc).1.links.map (·.id)).Nodup)
      ∧ ∀ app ∈ doc.apps,
        let ir := (compileApp doc app (reachableListenerRootsAcrossApps doc)).1
        (ir.nodes.map (·.id)).Nodup ∧ (ir.chains.map (·.id)).Nodup
          ∧ (ir.ingresses.map (·.id)).Nodup ∧ (ir.fronts.map (·.id)).Nodup
          ∧ (ir.steps.map (·.id)).Nodup ∧ (ir.grants.map (·.id)).Nodup := by
  simp only [compile, finishCompile, compilePrelude, noIdDup_append,
    noIdDup_validateModelSnapshot hchecks, noIdDup_compileSystem, noIdDup_validateSystem,
    noIdDup_validateAppSet, noIdDup_flatMap, List.mem_map, and_true]
  constructor
  · rintro ⟨⟨⟨hsnapshot, hsystem⟩, -⟩, hfinished⟩
    refine ⟨hsnapshot, hsystem, ?_⟩
    intro app happ
    have h := hfinished _ ⟨_, ⟨app, happ, rfl⟩, rfl⟩
    exact (noIdDup_finishAppCompile hchecks _ _ _).mp h
  · rintro ⟨hsnapshot, hsystem, happs⟩
    refine ⟨⟨⟨hsnapshot, hsystem⟩, ?_⟩, ?_⟩
    · intro routing hrouting
      obtain ⟨app, -, rfl⟩ := hrouting
      exact noIdDup_compileRoutingApp doc app _
    · intro finished hfinished
      obtain ⟨routing, ⟨app, happ, rfl⟩, rfl⟩ := hfinished
      exact (noIdDup_finishAppCompile hchecks _ _ _).mpr (happs app happ)

theorem UniqueNames.compiled (h : UniqueNames doc) (happ : app ∈ doc.apps)
    (listenerRoots : List (String × String)) : let ir := (compileApp doc app listenerRoots).1
    (ir.nodes.map (·.id)).Nodup ∧ (ir.chains.map (·.id)).Nodup
      ∧ (ir.ingresses.map (·.id)).Nodup ∧ (ir.fronts.map (·.id)).Nodup
      ∧ (ir.grants.map (·.id)).Nodup := by
  have hchains : (app.chains.map (·.id)).Nodup := by
    have hall := h.chains
    rw [List.map_flatMap, List.nodup_flatMap] at hall
    exact hall.1 app happ
  refine ⟨?_, ?_, ?_, ?_, ?_⟩
  · refine nodup_sortById.mpr ?_
    show (((doc.nodes.filter _).map _).map _).Nodup
    rw [List.map_map]
    exact h.nodes.sublist (List.filter_sublist.map _)
  · show ((((app.chains.filter _).map _).map RoutingChainInput.compile).map
      RoutingChainCompile.chain |>.map _).Nodup
    simp only [List.map_map]
    exact hchains.sublist (List.filter_sublist.map _)
  · refine nodup_sortById.mpr ?_
    show (((app.ingresses.filter _).map _).map _).Nodup
    rw [List.map_map]
    exact (h.ingresses app happ).sublist (List.filter_sublist.map _)
  · refine nodup_sortById.mpr ?_
    show ((app.fronts.map _).map _).Nodup
    rw [List.map_map]
    exact h.fronts app happ
  · exact nodup_sortById.mpr (nodup_compileGrants _ _ _)

/-- Where every name is unique, an identifier is reported as repeated exactly where two tables of
a project or two links of the mesh spell alike. -/
theorem noIdDup_speltApart {checks : Checks} (hchecks : checks.OwnCodes) {doc : ModelSnapshot}
    (h : UniqueNames doc) : NoIdDup (compile checks doc).diagnostics
      ↔ (∀ app ∈ doc.apps, SpeltApart (compiledTables doc app)) ∧ SpeltApart (linkedPairs doc) := by
  have hsteps : ∀ app ∈ doc.apps,
      (((compileApp doc app (reachableListenerRootsAcrossApps doc)).1.steps.map (·.id)).Nodup
        ↔ SpeltApart (compiledTables doc app)) := by
    intro app happ
    have hchains : (app.chains.map (·.id)).Nodup := by
      have hall := h.chains
      rw [List.map_flatMap, List.nodup_flatMap] at hall
      exact hall.1 app happ
    rw [nodup_map_iff (nodup_compileApp_steps hchains)]
    unfold SpeltApart compiledTables
    simp only [List.forall_mem_map]
    refine forall₂_congr fun step hstep => forall₂_congr fun other hother => ?_
    rw [step_id hstep, step_id hother]
    exact imp_congr_left dashed_inj
  have hlinks : ((compileSystem doc).1.links.map (·.id)).Nodup ↔ SpeltApart (linkedPairs doc) := by
    rw [nodup_map_iff (nodup_links h.nodes)]
    unfold SpeltApart linkedPairs
    simp only [List.forall_mem_map]
    refine forall₂_congr fun link hlink => forall₂_congr fun other hother => ?_
    rw [link_id hlink, link_id hother]
    exact imp_congr_left dashed_inj
  have hnodes : ((compileSystem doc).1.nodes.map (·.id)).Nodup := by
    have hids : (compileSystem doc).1.nodes.map (·.id) = (systemNodes doc).map (·.id) := by
      simp [compileSystem, Function.comp_def]
    rw [hids]
    exact List.pairwise_map.mpr ((systemNodes_sorted h.nodes).imp ne_of_lt)
  rw [noIdDup_compile hchecks, hlinks]
  constructor
  · rintro ⟨-, ⟨-, hapart⟩, happs⟩
    refine ⟨fun app happ => ?_, hapart⟩
    obtain ⟨-, -, -, -, hids, -⟩ := happs app happ
    exact (hsteps app happ).mp hids
  · rintro ⟨hapart, hpairs⟩
    refine ⟨⟨h.nodes, h.apps, h.chains⟩, ⟨hnodes, hpairs⟩, ?_⟩
    intro app happ
    obtain ⟨hone, htwo, hthree, hfour, hfive⟩ :=
      h.compiled happ (reachableListenerRootsAcrossApps doc)
    exact ⟨hone, htwo, hthree, hfour, (hsteps app happ).mpr (hapart app happ), hfive⟩

end Brocade.Ir
