/-
Names that spell alike.

A chain has a table on each machine it runs on, and two members of the backbone have a link where
one can dial the other.  Both are named after two names with a dash between them, so two of them
are named alike exactly where a dash within a name can be taken for the one between
(`noIdDup_iff`).  Two such links are in `id_dup_manufactured`.
-/
import Brocade.Ir.Reached

namespace Brocade.Ir

open Model

variable {doc : ModelSnapshot} {app : AppView}

/-! ### Dashes -/

/-- No dash within a name can be taken for the one between two names. -/
def Unconfused (P : String → String → Prop) : Prop :=
  ∀ a x b, ¬(P (a ++ "-" ++ x) b ∧ P a (x ++ "-" ++ b))

theorem speltApart_iff {pairs : List (String × String)} :
    SpeltApart pairs ↔ Unconfused fun a b => (a, b) ∈ pairs := by
  constructor
  · intro h a x b ⟨hlong, hshort⟩
    have hsame := h _ hlong _ hshort (by
      show a ++ "-" ++ x ++ "-" ++ b = a ++ "-" ++ (x ++ "-" ++ b)
      simp only [String.append_assoc])
    have hlength := congrArg String.length (Prod.mk.inj hsame).1
    rw [String.length_append, String.length_append] at hlength
    have hdash : "-".length = 1 := rfl
    omega
  · rintro h ⟨a, b⟩ hab ⟨c, d⟩ hcd hspelt
    have hchars : a.toList ++ '-' :: b.toList = c.toList ++ '-' :: d.toList := by
      have hlists : (a ++ "-" ++ b).toList = (c ++ "-" ++ d).toList := congrArg String.toList hspelt
      simpa using hlists
    -- the longer first name holds the shorter one, the dash and what the second names differ by
    have hlonger : ∀ {a b c d : String} {rest : List Char}, (a, b) ∈ pairs → (c, d) ∈ pairs →
        c.toList = a.toList ++ rest → '-' :: b.toList = rest ++ '-' :: d.toList →
        (a, b) = (c, d) := by
      intro a b c d rest hab hcd hfirst hsecond
      cases rest with
      | nil =>
        rw [List.append_nil] at hfirst
        rw [String.toList_inj.mp hfirst, String.toList_inj.mp (List.cons.inj hsecond).2]
      | cons dash x =>
        obtain ⟨rfl, hsecond⟩ := List.cons.inj hsecond
        have hc : c = a ++ "-" ++ String.ofList x := by
          apply String.toList_inj.mp
          simpa using hfirst
        have hb : b = String.ofList x ++ "-" ++ d := by
          apply String.toList_inj.mp
          simpa using hsecond
        exact absurd ⟨hc ▸ hcd, hb ▸ hab⟩ (h a (String.ofList x) d)
    rcases List.append_eq_append_iff.mp hchars with ⟨rest, hfirst, hsecond⟩ | ⟨rest, hfirst, hsecond⟩
    · exact hlonger hab hcd hfirst hsecond
    · exact (hlonger hcd hab hfirst hsecond).symm

/-! ### Tables -/

/-- Where the fragments of a chain forward to from a machine of the snapshot. -/
def leadsTo (doc : ModelSnapshot) (app : AppView) (chain node : String) : List String :=
  if node ∈ doc.nodes.map (·.id) then forwardsAt app.steps chain node else []

/-- A chain begins on a machine: it has its head there, or a rule of a table that the walk over all
projects comes to enters a listener it has there. -/
def BeginsOn (doc : ModelSnapshot) (chain head node : String) : Prop :=
  node = head ∨ ∃ key, Reached doc key ∧ (chain, node) ∈ reusedAt doc key

/-- A chain names a machine: as its head, or in a fragment. -/
def Names (app : AppView) (chain head node : String) : Prop :=
  node = head ∨ ∃ step ∈ app.steps, step.chain = chain
    ∧ (node = step.node ∨ node ∈ step.rules.filterMap (·.action.forwardTarget?))

/-- A chain that is not disabled runs on the machines it names that its fragments lead to from where
it begins. -/
structure RunsOn (doc : ModelSnapshot) (app : AppView) (chain node : String) : Prop where
  held : chain ∈ app.chains.map (·.id)
  live : chain ∉ disabledChains doc app
  known : node ∈ doc.nodes.map (·.id)
  led : ∃ head, selectedChainRoot app chain = some head ∧ Names app chain head.node node
    ∧ ∃ start, BeginsOn doc chain head.node start
      ∧ Worklist.Reaches (leadsTo doc app chain) start node

section
variable {chain : Model.Chain} {head node : String}

theorem mem_chainNodes : node ∈ (routingChainInput doc app chain (some head)
      (reachableListenerRootsAcrossApps doc)).nodes.map (·.id)
    ↔ node ∈ doc.nodes.map (·.id) ∧ Names app chain.id head node := by
  have hids : node ∈ (some head).toList ++ (app.steps.filter (·.chain = chain.id)).map (·.node)
        ++ forwardCandidates (app.steps.filter (·.chain = chain.id))
      ↔ Names app chain.id head node := by
    simp only [Option.toList_some, List.mem_append, List.mem_singleton, List.mem_map,
      List.mem_filter, forwardCandidates, List.mem_filterMap, List.mem_flatMap, Names,
      decide_eq_true_eq]
    constructor
    · rintro ((rfl | ⟨step, ⟨hstep, hof⟩, rfl⟩) | ⟨rule, ⟨step, ⟨hstep, hof⟩, hrule⟩, htarget⟩)
      · exact .inl rfl
      · exact .inr ⟨step, hstep, hof, .inl rfl⟩
      · exact .inr ⟨step, hstep, hof, .inr ⟨rule, hrule, htarget⟩⟩
    · rintro (rfl | ⟨step, hstep, hof, rfl | ⟨rule, hrule, htarget⟩⟩)
      · exact .inl (.inl rfl)
      · exact .inl (.inr ⟨step, ⟨hstep, hof⟩, rfl⟩)
      · exact .inr ⟨rule, ⟨step, ⟨hstep, hof⟩, hrule⟩, htarget⟩
  rw [← hids]
  simp only [routingChainInput, List.mem_map, List.mem_filter, decide_eq_true_eq]
  constructor
  · rintro ⟨source, ⟨hsource, hof⟩, rfl⟩
    exact ⟨⟨source, hsource, rfl⟩, hof⟩
  · rintro ⟨⟨source, hsource, rfl⟩, hof⟩
    exact ⟨source, ⟨hsource, hof⟩, rfl⟩

/-- A machine with a fragment of the chain is named by it, so the chain leads on from it. -/
theorem leads_routingChainInput : (routingChainInput doc app chain (some head)
      (reachableListenerRootsAcrossApps doc)).leads = leadsTo doc app chain.id := by
  funext node
  have hforwards : forwardsAt (app.steps.filter (·.chain = chain.id)) chain.id node
      = forwardsAt app.steps chain.id node := by
    unfold forwardsAt rulesAt stepsAtSource
    rw [List.filter_filter]
    congr 2
    refine List.filter_congr fun step _ => ?_
    rw [Bool.and_right_comm, Bool.and_self]
  unfold RoutingChainInput.leads leadsTo
  by_cases hnode : node ∈ (routingChainInput doc app chain (some head)
      (reachableListenerRootsAcrossApps doc)).nodes.map (·.id)
  · rw [if_pos hnode, if_pos (mem_chainNodes.mp hnode).1]
    exact hforwards
  · rw [if_neg hnode]
    split
    next hknown =>
      have hunnamed : ¬Names app chain.id head node := fun hnames =>
        hnode (mem_chainNodes.mpr ⟨hknown, hnames⟩)
      have hnone : stepsAtSource app.steps chain.id node = [] := by
        refine List.filter_eq_nil_iff.mpr fun step hstep hplace => hunnamed ?_
        rw [Bool.and_eq_true, decide_eq_true_eq, decide_eq_true_eq] at hplace
        exact .inr ⟨step, hstep, hplace.1, .inl hplace.2.symm⟩
      simp [forwardsAt, rulesAt, hnone]
    next => rfl

theorem mem_begins : node ∈ head :: (routingChainInput doc app chain (some head)
      (reachableListenerRootsAcrossApps doc)).reusedListenerNodes
    ↔ BeginsOn doc chain.id head node := by
  rw [List.mem_cons]
  refine or_congr_right ?_
  rw [← mem_listenerRoots]
  simp only [routingChainInput, List.mem_map, List.mem_filter, decide_eq_true_eq, Prod.exists]
  constructor
  · rintro ⟨owner, entered, ⟨hmem, rfl⟩, rfl⟩
    exact hmem
  · exact fun hmem => ⟨chain.id, node, ⟨hmem, rfl⟩, rfl⟩

/-- **A project has a table for a chain and a machine exactly where the chain runs on the
machine.** -/
theorem mem_compiledTables {chain : String} :
    (chain, node) ∈ compiledTables doc app ↔ RunsOn doc app chain node := by
  constructor
  · intro h
    obtain ⟨step, hstep, hkey⟩ := List.mem_map.mp h
    obtain ⟨rfl, rfl⟩ := Prod.mk.inj hkey
    obtain ⟨input, hinput, hown⟩ := mem_compileApp_steps.mp hstep
    obtain ⟨chain, hchain, rfl⟩ := List.mem_map.mp hinput
    obtain ⟨hmem, hlive⟩ := List.mem_filter.mp hchain
    have hname : step.chain = chain.id := (nodup_compileChainSteps _).2 step hown
    rw [hname]
    cases hhead : selectedChainRoot app chain.id with
    | none => simp [compileChainSteps, routingChainInput, hhead] at hown
    | some head =>
      rw [hhead] at hown
      have hmade := (nodes_chainLoop _ _).1 ▸ List.mem_map_of_mem hown
      obtain ⟨hnode, start, hstart, hled⟩ := (mem_made _ head.node step.node).mp hmade
      obtain ⟨hknown, hnames⟩ := mem_chainNodes.mp hnode
      exact ⟨List.mem_map_of_mem hmem, by simpa using hlive, hknown, head, hhead, hnames, start,
        mem_begins.mp hstart, leads_routingChainInput ▸ hled⟩
  · rintro ⟨hheld, hlive, hknown, head, hhead, hnames, start, hstart, hled⟩
    obtain ⟨chain, hmem, rfl⟩ := List.mem_map.mp hheld
    have hinput : routingChainInput doc app chain (some head.node)
        (reachableListenerRootsAcrossApps doc)
          ∈ chainInputs doc app (reachableListenerRootsAcrossApps doc) := by
      refine List.mem_map.mpr ⟨chain, List.mem_filter.mpr ⟨hmem, by simpa using hlive⟩, ?_⟩
      rw [hhead]
      rfl
    have hmade := (mem_made _ head.node node).mpr ⟨mem_chainNodes.mpr ⟨hknown, hnames⟩, start,
      mem_begins.mpr hstart, leads_routingChainInput ▸ hled⟩
    rw [← (nodes_chainLoop _ _).1] at hmade
    obtain ⟨step, hown, rfl⟩ := List.mem_map.mp hmade
    refine List.mem_map.mpr ⟨step, mem_compileApp_steps.mpr ⟨_, hinput, hown⟩, ?_⟩
    exact Prod.ext ((nodup_chainLoop _ _).2 step hown) rfl

end

/-! ### Links -/

/-- A machine has an address that another can dial. -/
def CanDial (dialer target : Node) : Prop :=
  (publicEndpointFor dialer target target.wireguard.listenPort).isSome = true

/-- Two members, the one with the smaller name first, of which one can dial the other, and whose
link is not disabled. -/
def Linked (doc : ModelSnapshot) (left right : String) : Prop :=
  ∃ a b, Member doc a ∧ Member doc b ∧ a.id = left ∧ b.id = right ∧ left < right
    ∧ disabledPair doc left right = false ∧ (CanDial a b ∨ CanDial b a)

theorem canDial_iff {dialer target : Node} (port : ℕ) :
    CanDial dialer target ↔ (publicEndpointFor dialer target port).isSome = true := by
  rw [CanDial, publicEndpointFor_isSome _ _ _ port]

theorem hostServer_unreached {me peer : Node} (hme : ¬CanDial peer me) (hpeer : ¬CanDial me peer)
    (servers : OrdMap String String) : hostServer me peer servers = servers := by
  unfold hostServer
  split
  · rfl
  next port _ =>
    rw [canDial_iff port, Bool.not_eq_true, Option.isSome_eq_false_iff, Option.isNone_iff_eq_none]
      at hme hpeer
    rw [hme, hpeer]

theorem findNode_systemNode (h : Distinct doc) {node : Node} (hnode : Member doc node) :
    findNode doc (systemNode doc node).id = some node := findNode_of_mem h hnode.mem

theorem putEndpoint_contains {endpoints : OrdMap String String} {id id' : String}
    {endpoint : Option String} : (putEndpoint endpoints id endpoint).contains id' = true
      ↔ id' = id ∧ endpoint.isSome = true ∨ endpoints.contains id' = true := by
  cases endpoint with
  | none => simp [putEndpoint]
  | some endpoint =>
    rw [putEndpoint, OrdMap.contains, OrdMap.get?_insert]
    by_cases hid : id' = id
    · simp [hid]
    · simp [hid, OrdMap.contains]

theorem lands_iff (h : Distinct doc) {a b : Node} (ha : Member doc a) (hb : Member doc b)
    (hne : a.id ≠ b.id) {wrap : LinkWrap}
    (hwrap : (linkWrap doc (systemNode doc a) (systemNode doc b)).1 = wrap) :
    hasLanding wrap (directEndpoints doc (systemNode doc a) (systemNode doc b) wrap) b.id = true
        ∨ hasLanding wrap (directEndpoints doc (systemNode doc a) (systemNode doc b) wrap) a.id
          = true
      ↔ CanDial a b ∨ CanDial b a := by
  have hfoundA := findNode_systemNode h ha
  have hfoundB := findNode_systemNode h hb
  cases wrap with
  | udp =>
    unfold hasLanding directEndpoints
    rw [hfoundA, hfoundB]
    simp only [putEndpoint_contains]
    show (b.id = a.id ∧ CanDial b a ∨ b.id = b.id ∧ CanDial a b ∨ false = true)
      ∨ (a.id = a.id ∧ CanDial b a ∨ a.id = b.id ∧ CanDial a b ∨ false = true) ↔ _
    simp [hne, hne.symm]
  | fakeTcp servers =>
    have hhosted : ∃ id endpoint, servers.get? id = some endpoint := by
      have hwrap := hwrap
      unfold linkWrap at hwrap
      rw [hfoundA, hfoundB] at hwrap
      dsimp only at hwrap
      split at hwrap
      · cases hwrap
      split at hwrap
      · cases hwrap
      next hservers =>
        injection hwrap with hwrap
        rw [hwrap, OrdMap.isEmpty, List.isEmpty_iff] at hservers
        obtain ⟨⟨id, endpoint⟩, hentry⟩ := List.exists_mem_of_ne_nil _ hservers
        exact ⟨id, endpoint, OrdMap.mem_entries.mp hentry⟩
    obtain ⟨id, endpoint, hserver⟩ := hhosted
    have hcontains : servers.contains id = true := OrdMap.contains_iff.mpr ⟨endpoint, hserver⟩
    refine iff_of_true ?_ ?_
    · show servers.contains b.id = true ∨ servers.contains a.id = true
      rcases linkWrap_servers hfoundA hfoundB hwrap hserver with hhosted | hhosted
      · rcases hhosted.place with rfl | rfl
        exacts [.inr hcontains, .inl hcontains]
      · rcases hhosted.place with rfl | rfl
        exacts [.inl hcontains, .inr hcontains]
    · by_contra hneither
      rw [not_or] at hneither
      unfold linkWrap at hwrap
      rw [hfoundA, hfoundB] at hwrap
      dsimp only at hwrap
      rw [hostServer_unreached hneither.2 hneither.1,
        hostServer_unreached hneither.1 hneither.2] at hwrap
      split at hwrap
      · cases hwrap
      · cases hwrap

theorem linkBetween_isSome (h : Distinct doc) {a b : Node} (ha : Member doc a) (hb : Member doc b)
    (hne : a.id ≠ b.id) : (linkBetween doc (systemNode doc a) (systemNode doc b)).1.isSome = true
      ↔ disabledPair doc a.id b.id = false ∧ (CanDial a b ∨ CanDial b a) := by
  rw [← lands_iff h ha hb hne rfl]
  unfold linkBetween
  split
  next hdisabled =>
    replace hdisabled : disabledPair doc a.id b.id = true := hdisabled
    simp [hdisabled]
  next henabled =>
    replace henabled : disabledPair doc a.id b.id = false := Bool.eq_false_iff.mpr henabled
    dsimp only
    split
    next hnone =>
      rw [Bool.and_eq_true, Bool.not_eq_true', Bool.not_eq_true'] at hnone
      refine iff_of_false (by simp) fun hlands => ?_
      rcases hlands.2 with hlands | hlands
      · exact absurd (hnone.1.symm.trans hlands) Bool.false_ne_true
      · exact absurd (hnone.2.symm.trans hlands) Bool.false_ne_true
    next hsome =>
      rw [Bool.and_eq_true, Bool.not_eq_true', Bool.not_eq_true', not_and_or, Bool.not_eq_false,
        Bool.not_eq_false] at hsome
      exact iff_of_true rfl ⟨henabled, hsome⟩

theorem mem_pairsOf {α : Type} {id : α → String} {as : List α}
    (h : as.Pairwise fun a b => id a < id b) {a b : α} (ha : a ∈ as) (hb : b ∈ as)
    (hlt : id a < id b) : (a, b) ∈ pairsOf as := by
  induction as with
  | nil => cases ha
  | cons c as ih =>
    obtain ⟨hfirst, hrest⟩ := List.pairwise_cons.mp h
    rw [pairsOf, List.mem_append]
    rcases List.mem_cons.mp ha with rfl | hrestA
    · rcases List.mem_cons.mp hb with rfl | hrestB
      · exact absurd hlt (lt_irrefl _)
      · exact .inl (List.mem_map_of_mem hrestB)
    · rcases List.mem_cons.mp hb with rfl | hrestB
      · exact absurd (hlt.trans (hfirst a hrestA)) (lt_irrefl _)
      · exact .inr (ih hrest hrestA hrestB)

/-- **Two machines share a link exactly where they are linked.** -/
theorem mem_linkedPairs (h : Distinct doc) {left right : String} :
    (left, right) ∈ linkedPairs doc ↔ Linked doc left right := by
  constructor
  · intro hpair
    obtain ⟨link, hlink, hends⟩ := List.mem_map.mp hpair
    obtain ⟨a, b, hjoins⟩ := mem_links h hlink
    obtain ⟨rfl, rfl⟩ := Prod.mk.inj hends
    have hmade := Option.isSome_iff_exists.mpr ⟨link, hjoins.made⟩
    rw [hjoins.left, hjoins.right]
    exact ⟨a, b, hjoins.memberA, hjoins.memberB, rfl, rfl, hjoins.lt,
      (linkBetween_isSome h hjoins.memberA hjoins.memberB hjoins.ne).mp hmade⟩
  · rintro ⟨a, b, ha, hb, rfl, rfl, hlt, hshare⟩
    obtain ⟨link, hmade⟩ := Option.isSome_iff_exists.mp
      ((linkBetween_isSome h ha hb (ne_of_lt hlt)).mpr hshare)
    have hmember : ∀ {node : Node}, Member doc node →
        systemNode doc node ∈ (systemNodes doc).filter (·.wireguard.isSome) := fun hnode =>
      List.mem_filter.mpr ⟨mem_systemNodes.mpr ⟨_, hnode.mem, hnode.inSystem, rfl⟩,
        by simp [systemNode, hnode.overlay]⟩
    have hpair := mem_pairsOf ((systemNodes_sorted h).filter _) (hmember ha) (hmember hb) hlt
    obtain ⟨-, hleft, hright, -⟩ := linkBetween_eq_some hmade
    refine List.mem_map.mpr ⟨link, ?_, Prod.ext hleft hright⟩
    have hcompiled : link ∈ ((pairsOf ((systemNodes doc).filter (·.wireguard.isSome))).map fun pair =>
        linkBetween doc pair.1 pair.2).filterMap (·.1) :=
      List.mem_filterMap.mpr ⟨_, List.mem_map_of_mem hpair, hmade⟩
    simpa only [compileSystem, List.mem_insertionSort] using hcompiled

/-! ### What gets reported -/

/-- **Where every name is unique, an identifier is reported as repeated exactly where a dash within
a name can be taken for the one between two**: a project runs `a-x` on `b` and `a` on `x-b`, or
`a-x` is linked with `b` and `a` with `x-b`. -/
theorem noIdDup_iff {checks : Checks} (hchecks : checks.OwnCodes) {doc : ModelSnapshot}
    (h : UniqueNames doc) : NoIdDup (compile checks doc).diagnostics
      ↔ (∀ app ∈ doc.apps, Unconfused (RunsOn doc app)) ∧ Unconfused (Linked doc) := by
  rw [noIdDup_speltApart hchecks h]
  simp only [speltApart_iff, mem_compiledTables, mem_linkedPairs h.nodes]

/-- Four members of the backbone with an address each, and a chain of each of two names. -/
def dashedSnapshot (one two three four : String) : ModelSnapshot :=
  plainSnapshot [{ plainNode one "198.51.100.1" with overlay := true },
      { plainNode two "198.51.100.2" with overlay := true },
      { plainNode three "198.51.100.3" with overlay := true },
      { plainNode four "198.51.100.4" with overlay := true }]
    [plainApp "web" [⟨"down", "acme", "down", none⟩, ⟨"up", "acme", "up", none⟩]
      [plainIngress "front" "down" one, plainIngress "side" "up" two] []]

theorem silentChecks_ownCodes : silentChecks.OwnCodes :=
  ⟨fun _ => noIdDup_nil, fun _ _ => noIdDup_nil, fun _ _ => noIdDup_nil, fun _ _ => noIdDup_nil,
    fun _ _ _ _ => noIdDup_nil, fun _ => noIdDup_nil, fun _ _ => noIdDup_nil,
    fun _ _ _ => noIdDup_nil⟩

theorem noIdDup_plain : NoIdDup (compile silentChecks (dashedSnapshot "a" "b" "c" "d")).diagnostics
      ↔ (∀ app ∈ (dashedSnapshot "a" "b" "c" "d").apps,
          Unconfused (RunsOn (dashedSnapshot "a" "b" "c" "d") app))
        ∧ Unconfused (Linked (dashedSnapshot "a" "b" "c" "d")) := by
  have hslugs : Slugs (dashedSnapshot "a" "b" "c" "d") := by
    constructor <;> decide +kernel
  have hunique : UniqueNames (dashedSnapshot "a" "b" "c" "d") := by
    refine ⟨?_, ?_, ?_, ?_, ?_, ?_, ?_, hslugs⟩ <;> decide +kernel
  exact noIdDup_iff silentChecks_ownCodes hunique

/-- The links of `x` with `y-z` and of `x-y` with `z` are both named `l-x-y-z`. -/
theorem id_dup_manufactured : UniqueNames (dashedSnapshot "x" "y-z" "x-y" "z")
      ∧ ¬ NoIdDup (compile silentChecks (dashedSnapshot "x" "y-z" "x-y" "z")).diagnostics := by
  have hslugs : Slugs (dashedSnapshot "x" "y-z" "x-y" "z") := by
    constructor <;> decide +kernel
  refine ⟨?_, ?_⟩
  · refine ⟨?_, ?_, ?_, ?_, ?_, ?_, ?_, hslugs⟩ <;> decide +kernel
  · intro h
    have hreported : (compile silentChecks (dashedSnapshot "x" "y-z" "x-y" "z")).diagnostics.any
        (·.code = "id.dup") = true := by decide +kernel
    obtain ⟨d, hd, hcode⟩ := List.any_eq_true.mp hreported
    exact h d hd (by simpa using hcode)

end Brocade.Ir
