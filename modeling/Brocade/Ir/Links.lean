/-
What a backbone link says.

Where no two machines share an id, the members of the backbone are machines of the snapshot in the
order of their ids, and a link is made of each pair at most once.  Whether it is disguised, who
hosts a server and who is dialed all follow from what the two machines declare.
-/
import Brocade.Ir.Validate.App

namespace Brocade.Ir

open Address Model

section
variable {doc : ModelSnapshot}

variable {port : ℕ} {node me : Node} {endpoint : String} {servers : OrdMap String String}
    {a b : SystemNode} {link : Link}

theorem endpointPort_hostPort {host : String} (h : port < 2 ^ 16) :
    endpointPort (hostPort host port) = some port := by
  have hcolon : ':' ∉ (toString port).toList := by
    intro hmem
    have := isDecimal_of_mem_toString hmem
    simp [isDecimal] at this
  have hsplit : ∃ front, Text.rsplitOnce? (hostPort host port) ':'
      = some (front, toString port) := by
    unfold hostPort
    split
    · refine ⟨"[" ++ host ++ "]", Text.rsplitOnce?_of_not_mem ?_ hcolon⟩
      show ("[" ++ host ++ "]:" ++ toString port).toList = _
      simp
    · refine ⟨host, Text.rsplitOnce?_of_not_mem ?_ hcolon⟩
      show (host ++ ":" ++ toString port).toList = _
      simp
  obtain ⟨front, hfront⟩ := hsplit
  rw [endpointPort, hfront, Option.bind_some]
  exact parseU16_toString h

/-! ### Members -/

/-- No two machines share an id. -/
def Distinct (doc : ModelSnapshot) : Prop := (doc.nodes.map (·.id)).Nodup

theorem findNode_of_mem (h : Distinct doc) (hnode : node ∈ doc.nodes) :
    findNode doc node.id = some node := by
  cases hfound : findNode doc node.id with
  | none =>
    have := List.find?_eq_none.mp hfound node hnode
    simp at this
  | some other =>
    have hid : other.id = node.id := by simpa using List.find?_some hfound
    rw [List.inj_on_of_nodup_map h (List.mem_of_find?_eq_some hfound) hnode hid]

theorem mem_systemNodes {node : SystemNode} : node ∈ systemNodes doc ↔
    ∃ source ∈ doc.nodes, inSystem doc source = true ∧ systemNode doc source = node := by
  simp [systemNodes, and_assoc]

theorem systemNodes_sorted (h : Distinct doc) :
    (systemNodes doc).Pairwise fun a b => a.id < b.id := by
  have hids : ((systemNodes doc).map (·.id)).Nodup := by
    unfold systemNodes
    refine ((List.perm_insertionSort _ _).map _).nodup_iff.mpr ?_
    rw [List.map_map]
    exact h.sublist (List.filter_sublist.map _)
  have hle : (systemNodes doc).Pairwise fun a b => a.id ≤ b.id := List.pairwise_insertionSort _ _
  refine (hle.and (List.pairwise_map.mp hids)).imp ?_
  intro a b hab
  exact lt_of_le_of_ne hab.1 hab.2

theorem pairsOf_of_pairwise {α : Type} {r : α → α → Prop} {as : List α} (h : as.Pairwise r)
    {pair : α × α} (hpair : pair ∈ pairsOf as) : pair.1 ∈ as ∧ pair.2 ∈ as ∧ r pair.1 pair.2 := by
  induction as with
  | nil => simp [pairsOf] at hpair
  | cons a as ih =>
    obtain ⟨hfirst, hrest⟩ := List.pairwise_cons.mp h
    rcases List.mem_append.mp hpair with hmem | hmem
    · obtain ⟨b, hb, rfl⟩ := List.mem_map.mp hmem
      exact ⟨List.mem_cons_self, List.mem_cons_of_mem _ hb, hfirst b hb⟩
    · obtain ⟨hone, htwo, hr⟩ := ih hrest hmem
      exact ⟨List.mem_cons_of_mem _ hone, List.mem_cons_of_mem _ htwo, hr⟩

/-! ### Servers -/

/-- A server that a declaration of `declarer` put on one of the two machines. -/
structure HostedFor (declarer peer : Node) (id endpoint : String) : Prop where
  place : id = declarer.id ∨ id = peer.id
  declared : ∃ host port, fakePort declarer = some port ∧ endpoint = hostPort host port

theorem publicEndpointFor_eq_some {dialer target : Node}
    (h : publicEndpointFor dialer target port = some endpoint) :
    ∃ host, endpoint = hostPort host port := by
  obtain ⟨host, -, hhost⟩ := Option.map_eq_some_iff.mp h
  exact ⟨host, hhost.symm⟩

theorem publicEndpointFor_isSome (dialer target : Node) (port port' : ℕ) :
    (publicEndpointFor dialer target port).isSome
      = (publicEndpointFor dialer target port').isSome := by
  simp [publicEndpointFor]

theorem hostServer_get? {peer : Node} {id : String}
    (h : (hostServer me peer servers).get? id = some endpoint) :
    servers.get? id = some endpoint ∨ HostedFor me peer id endpoint := by
  unfold hostServer at h
  split at h
  · exact .inl h
  next port hport =>
    split at h
    next landing hlanding =>
      rw [OrdMap.get?_insert] at h
      split at h
      next hid =>
        obtain ⟨host, hhost⟩ := publicEndpointFor_eq_some hlanding
        exact .inr ⟨.inl hid, host, port, hport, (Option.some.inj h).symm.trans hhost⟩
      next => exact .inl h
    next =>
      split at h
      · exact .inl h
      next landing hlanding =>
        split at h
        · exact .inl h
        · rw [OrdMap.get?_insert] at h
          split at h
          next hid =>
            obtain ⟨host, hhost⟩ := publicEndpointFor_eq_some hlanding
            exact .inr ⟨.inr hid, host, port, hport, (Option.some.inj h).symm.trans hhost⟩
          next => exact .inl h

theorem hostServer_keeps {me peer : Node} {servers : OrdMap String String} {id : String}
    (h : servers.contains id = true) : (hostServer me peer servers).contains id = true := by
  have hinsert : ∀ (k v : String), (servers.insert k v).contains id = true := by
    intro k v
    rw [OrdMap.contains, OrdMap.get?_insert]
    split
    · rfl
    · exact h
  unfold hostServer
  split
  · exact h
  split
  · exact hinsert _ _
  split
  · exact h
  split
  · exact h
  · exact hinsert _ _

/-- A declaration that no server answers: neither machine can be dialed by the other. -/
theorem hostServer_none {peer : Node} (hport : fakePort me = some port)
    (h : ∀ id, (hostServer me peer servers).contains id = false) (other : ℕ) :
    publicEndpointFor peer me other = none ∧ publicEndpointFor me peer other = none := by
  unfold hostServer at h
  rw [hport] at h
  dsimp only at h
  have hnone : ∀ {dialer target : Node}, publicEndpointFor dialer target port = none →
      publicEndpointFor dialer target other = none := by
    intro dialer target hpeer
    have := publicEndpointFor_isSome dialer target port other
    rw [hpeer] at this
    simpa using this.symm
  split at h
  next endpoint _ =>
    have := h me.id
    simp [OrdMap.contains] at this
  next hmine =>
    refine ⟨hnone hmine, ?_⟩
    split at h
    next htheirs => exact hnone htheirs
    next endpoint _ =>
      have := h peer.id
      split at this
      next hcontains =>
        rw [hcontains] at this
        cases this
      next => simp [OrdMap.contains] at this

/-! ### Wraps -/

theorem linkWrap_servers {aNode bNode : Node} (ha : findNode doc a.id = some aNode)
    (hb : findNode doc b.id = some bNode) (h : (linkWrap doc a b).1 = .fakeTcp servers)
    {id : String} (hserver : servers.get? id = some endpoint) :
    HostedFor aNode bNode id endpoint ∨ HostedFor bNode aNode id endpoint := by
  unfold linkWrap at h
  rw [ha, hb] at h
  dsimp only at h
  split at h
  · cases h
  split at h
  · cases h
  · injection h with h
    rw [← h] at hserver
    rcases hostServer_get? hserver with hfirst | hhosted
    · rcases hostServer_get? hfirst with hempty | hhosted
      · cases hempty
      · exact .inl hhosted
    · exact .inr hhosted

theorem linkWrap_declared {aNode bNode : Node} (ha : findNode doc a.id = some aNode)
    (hb : findNode doc b.id = some bNode)
    (hdeclared : (fakePort aNode).isSome = true ∨ (fakePort bNode).isSome = true)
    (h : (linkWrap doc a b).1 = .udp) (id : String) :
    (directEndpoints doc a b .udp).contains id = false := by
  have hempty : ∀ id, (hostServer bNode aNode (hostServer aNode bNode .empty)).contains id
      = false := by
    unfold linkWrap at h
    rw [ha, hb] at h
    dsimp only at h
    split at h
    next hnone =>
      rw [Bool.and_eq_true, Option.isNone_iff_eq_none, Option.isNone_iff_eq_none] at hnone
      rw [hnone.1, hnone.2] at hdeclared
      simp at hdeclared
    split at h
    next hisEmpty =>
      intro id
      by_contra hcontains
      rw [Bool.not_eq_false] at hcontains
      obtain ⟨endpoint, hget⟩ := OrdMap.contains_iff.mp hcontains
      have hmem := OrdMap.mem_entries.mpr hget
      rw [OrdMap.isEmpty, List.isEmpty_iff] at hisEmpty
      rw [hisEmpty] at hmem
      cases hmem
    · cases h
  have hneither : ∀ other, publicEndpointFor aNode bNode other = none
      ∧ publicEndpointFor bNode aNode other = none := by
    intro other
    rcases hdeclared with hmine | htheirs
    · obtain ⟨port, hport⟩ := Option.isSome_iff_exists.mp hmine
      have hfirst : ∀ id, (hostServer aNode bNode .empty).contains id = false := by
        intro id
        by_contra hcontains
        rw [Bool.not_eq_false] at hcontains
        have := @hostServer_keeps bNode aNode _ _ hcontains
        rw [hempty id] at this
        cases this
      exact (hostServer_none hport hfirst other).symm
    · obtain ⟨port, hport⟩ := Option.isSome_iff_exists.mp htheirs
      exact hostServer_none hport hempty other
  unfold directEndpoints
  rw [ha, hb]
  simp only [hneither, putEndpoint]
  rfl

/-! ### Links -/

/-- The machine at the other end. -/
def Link.peerOf (link : Link) (me : String) : String := if link.a = me then link.b else link.a

/-- Whether this end sends the first packet. -/
def Link.dials (link : Link) (me : String) : Bool :=
  link.dial == .both || link.dial == .aToB && link.a = me || link.dial == .bToA && link.b = me

/-- A member of the backbone. -/
structure Member (doc : ModelSnapshot) (node : Node) : Prop where
  mem : node ∈ doc.nodes
  inSystem : inSystem doc node = true
  overlay : node.overlay = true

/-- A link and the two machines it was made of. -/
structure Joins (doc : ModelSnapshot) (link : Link) (a b : Node) : Prop where
  memberA : Member doc a
  memberB : Member doc b
  lt : a.id < b.id
  made : (linkBetween doc (systemNode doc a) (systemNode doc b)).1 = some link

theorem linkBetween_eq_some (h : (linkBetween doc a b).1 = some link) :
    disabledPair doc a.id b.id = false ∧ link.a = a.id ∧ link.b = b.id
      ∧ link.wrap = (linkWrap doc a b).1 ∧ link.endpoints = directEndpoints doc a b link.wrap := by
  unfold linkBetween at h
  split at h
  · cases h
  next hdisabled =>
    dsimp only at h
    split at h
    · cases h
    · injection h with h
      subst h
      exact ⟨by simpa using hdisabled, rfl, rfl, rfl, rfl⟩

theorem linkBetween_dial (h : (linkBetween doc a b).1 = some link) :
    (link.dial == .both) = (hasLanding link.wrap link.endpoints b.id
        && hasLanding link.wrap link.endpoints a.id)
      ∧ (link.dial == .aToB) = (hasLanding link.wrap link.endpoints b.id
        && !hasLanding link.wrap link.endpoints a.id)
      ∧ (link.dial == .bToA) = (!hasLanding link.wrap link.endpoints b.id
        && hasLanding link.wrap link.endpoints a.id) := by
  unfold linkBetween at h
  split at h
  · cases h
  · dsimp only at h
    split at h
    · cases h
    next hlanding =>
      injection h with h
      subst h
      dsimp only
      revert hlanding
      cases hasLanding (linkWrap doc a b).1 (directEndpoints doc a b (linkWrap doc a b).1) b.id <;>
        cases hasLanding (linkWrap doc a b).1
          (directEndpoints doc a b (linkWrap doc a b).1) a.id <;> simp

theorem mem_links (hdistinct : Distinct doc) (h : link ∈ (compileSystem doc).1.links) :
    ∃ a b, Joins doc link a b := by
  have hmem : link ∈ ((pairsOf ((systemNodes doc).filter (·.wireguard.isSome))).map fun pair =>
      linkBetween doc pair.1 pair.2).filterMap (·.1) := by
    simpa only [compileSystem, List.mem_insertionSort] using h
  obtain ⟨made, hmade, hlink⟩ := List.mem_filterMap.mp hmem
  obtain ⟨pair, hpair, rfl⟩ := List.mem_map.mp hmade
  obtain ⟨ha, hb, hlt⟩ :=
    pairsOf_of_pairwise ((systemNodes_sorted hdistinct).filter _) hpair
  have hmember : ∀ node : SystemNode, node ∈ (systemNodes doc).filter (·.wireguard.isSome) →
      ∃ source, Member doc source ∧ systemNode doc source = node := by
    intro node hnode
    obtain ⟨hnode, hwireguard⟩ := List.mem_filter.mp hnode
    obtain ⟨source, hsource, hin, rfl⟩ := mem_systemNodes.mp hnode
    refine ⟨source, ⟨hsource, hin, ?_⟩, rfl⟩
    by_contra hoverlay
    simp [systemNode, hoverlay] at hwireguard
  obtain ⟨a, hmemberA, haNode⟩ := hmember _ ha
  obtain ⟨b, hmemberB, hbNode⟩ := hmember _ hb
  refine ⟨a, b, hmemberA, hmemberB, ?_, ?_⟩
  · rw [← haNode, ← hbNode] at hlt
    exact hlt
  · rw [haNode, hbNode]
    exact hlink

namespace Joins

variable {link : Link} {a b : Node}

section

variable (h : Joins doc link a b)

include h

theorem left : link.a = a.id := (linkBetween_eq_some h.made).2.1

theorem right : link.b = b.id := (linkBetween_eq_some h.made).2.2.1

theorem enabled : disabledPair doc a.id b.id = false :=
  (linkBetween_eq_some h.made).1

theorem ne : a.id ≠ b.id := ne_of_lt h.lt

@[simp] theorem peerOf_left : link.peerOf a.id = b.id := by
  simp [Link.peerOf, h.left, h.right]

@[simp] theorem peerOf_right : link.peerOf b.id = a.id := by
  simp [Link.peerOf, h.left, h.ne]

theorem dials_left : link.dials a.id = hasLanding link.wrap link.endpoints b.id := by
  obtain ⟨hboth, haToB, hbToA⟩ := linkBetween_dial h.made
  have hne : ¬ link.b = a.id := fun heq => h.ne (heq.symm.trans h.right)
  rw [Link.dials, hboth, haToB, hbToA]
  simp only [h.left, hne, decide_true, decide_false, Bool.and_true, Bool.and_false, Bool.or_false]
  show (hasLanding link.wrap link.endpoints b.id && hasLanding link.wrap link.endpoints a.id
    || hasLanding link.wrap link.endpoints b.id && !hasLanding link.wrap link.endpoints a.id) = _
  cases hasLanding link.wrap link.endpoints b.id <;>
    cases hasLanding link.wrap link.endpoints a.id <;> rfl

theorem dials_right : link.dials b.id = hasLanding link.wrap link.endpoints a.id := by
  obtain ⟨hboth, haToB, hbToA⟩ := linkBetween_dial h.made
  have hne : ¬ link.a = b.id := fun heq => h.ne (h.left.symm.trans heq)
  rw [Link.dials, hboth, haToB, hbToA]
  simp only [h.right, hne, decide_true, decide_false, Bool.and_true, Bool.and_false, Bool.or_false]
  show (hasLanding link.wrap link.endpoints b.id && hasLanding link.wrap link.endpoints a.id
    || !hasLanding link.wrap link.endpoints b.id && hasLanding link.wrap link.endpoints a.id) = _
  cases hasLanding link.wrap link.endpoints b.id <;>
    cases hasLanding link.wrap link.endpoints a.id <;> rfl

theorem lands : hasLanding link.wrap link.endpoints a.id = true
    ∨ hasLanding link.wrap link.endpoints b.id = true := by
  have hdial : link.dial = .both ∨ link.dial = .aToB ∨ link.dial = .bToA := by
    cases link.dial <;> simp
  obtain ⟨hboth, haToB, hbToA⟩ := linkBetween_dial h.made
  rcases hdial with hdial | hdial | hdial
  · rw [hdial] at hboth
    exact .inr (Bool.and_eq_true_iff.mp hboth.symm).1
  · rw [hdial] at haToB
    exact .inr (Bool.and_eq_true_iff.mp haToB.symm).1
  · rw [hdial] at hbToA
    exact .inl (Bool.and_eq_true_iff.mp hbToA.symm).2

end

theorem unique (hdistinct : Distinct doc) {other : Link} {c d : Node} (h : Joins doc link a b)
    (hother : Joins doc other c d) (hends : c.id = a.id ∧ d.id = b.id) : other = link := by
  have hc : c = a :=
    List.inj_on_of_nodup_map hdistinct hother.memberA.mem h.memberA.mem hends.1
  have hd : d = b :=
    List.inj_on_of_nodup_map hdistinct hother.memberB.mem h.memberB.mem hends.2
  subst hc hd
  exact Option.some.inj (hother.made.symm.trans h.made)

end Joins

/-! ### The two ends -/

/-- A link joins this machine to that one. -/
def Ends (doc : ModelSnapshot) (link : Link) (me peer : Node) : Prop :=
  Joins doc link me peer ∨ Joins doc link peer me

namespace Ends

variable {link : Link} {me peer : Node}

section

variable (h : Ends doc link me peer)

include h

theorem symm : Ends doc link peer me := Or.symm h

theorem member : Member doc me := by
  rcases h with h | h
  · exact h.memberA
  · exact h.memberB

theorem peerOf : link.peerOf me.id = peer.id := by
  rcases h with h | h
  · exact h.peerOf_left
  · exact h.peerOf_right

theorem dials : link.dials me.id = hasLanding link.wrap link.endpoints peer.id := by
  rcases h with h | h
  · exact h.dials_left
  · exact h.dials_right

theorem touches : link.a = me.id ∨ link.b = me.id := by
  rcases h with h | h
  · exact .inl h.left
  · exact .inr h.right

end

theorem unique (hdistinct : Distinct doc) {other : Link} (h : Ends doc link me peer)
    (hother : Ends doc other me peer) : other = link := by
  rcases h with h | h <;> rcases hother with hother | hother
  · exact h.unique hdistinct hother ⟨rfl, rfl⟩
  · exact absurd hother.lt (not_lt_of_gt h.lt)
  · exact absurd hother.lt (not_lt_of_gt h.lt)
  · exact h.unique hdistinct hother ⟨rfl, rfl⟩

theorem disguised (hdistinct : Distinct doc) (h : Ends doc link me peer)
    (hdeclared : (fakePort me).isSome = true) : ∃ servers, link.wrap = .fakeTcp servers := by
  have hjoins : ∀ {a b : Node}, Joins doc link a b →
      ((fakePort a).isSome = true ∨ (fakePort b).isSome = true) →
      ∃ servers, link.wrap = .fakeTcp servers := by
    intro a b hab hdeclared
    cases hwrap : link.wrap with
    | fakeTcp servers => exact ⟨servers, rfl⟩
    | udp =>
      obtain ⟨-, -, -, hmade, hendpoints⟩ := linkBetween_eq_some hab.made
      have hnowhere := linkWrap_declared (findNode_of_mem hdistinct hab.memberA.mem)
        (findNode_of_mem hdistinct hab.memberB.mem) hdeclared (hmade.symm.trans hwrap)
      have hlands := hab.lands
      rw [hwrap, hendpoints, hwrap] at hlands
      simp only [hasLanding, hnowhere] at hlands
      simp at hlands
  rcases h with h | h
  · exact hjoins h (.inl hdeclared)
  · exact hjoins h (.inr hdeclared)

/-- What a disguised link has its ends dial names the port that one of them declared. -/
theorem server_declared (hdistinct : Distinct doc) (h : Ends doc link me peer)
    {servers : OrdMap String String} (hwrap : link.wrap = .fakeTcp servers)
    {id endpoint : String} (hserver : servers.get? id = some endpoint) :
    ∃ declarer host port, (declarer = me ∨ declarer = peer) ∧ fakePort declarer = some port
      ∧ endpoint = hostPort host port := by
  have hjoins : ∀ {a b : Node}, Joins doc link a b →
      HostedFor a b id endpoint ∨ HostedFor b a id endpoint := by
    intro a b hab
    obtain ⟨-, -, -, hmade, -⟩ := linkBetween_eq_some hab.made
    exact linkWrap_servers (findNode_of_mem hdistinct hab.memberA.mem)
      (findNode_of_mem hdistinct hab.memberB.mem) (hmade.symm.trans hwrap) hserver
  have hhosted : HostedFor me peer id endpoint ∨ HostedFor peer me id endpoint := by
    rcases h with h | h
    · exact hjoins h
    · exact (hjoins h).symm
  rcases hhosted with hhosted | hhosted
  · obtain ⟨host, port, hport, hendpoint⟩ := hhosted.declared
    exact ⟨me, host, port, .inl rfl, hport, hendpoint⟩
  · obtain ⟨host, port, hport, hendpoint⟩ := hhosted.declared
    exact ⟨peer, host, port, .inr rfl, hport, hendpoint⟩

end Ends

theorem ends_of_touches (hdistinct : Distinct doc) (h : link ∈ (compileSystem doc).1.links)
    (hme : me ∈ doc.nodes) (htouches : link.a = me.id ∨ link.b = me.id) :
    ∃ peer, Ends doc link me peer := by
  obtain ⟨a, b, hjoins⟩ := mem_links hdistinct h
  rcases htouches with ha | hb
  · have : a = me := List.inj_on_of_nodup_map hdistinct hjoins.memberA.mem hme
      (hjoins.left.symm.trans ha)
    subst this
    exact ⟨b, .inl hjoins⟩
  · have : b = me := List.inj_on_of_nodup_map hdistinct hjoins.memberB.mem hme
      (hjoins.right.symm.trans hb)
    subst this
    exact ⟨a, .inr hjoins⟩

/-! ### The machines of the layer -/

/-- A machine of the layer after the links are known. -/
def layerNode (doc : ModelSnapshot) (node : Node) : SystemNode :=
  assignServerListenPort doc (((pairsOf ((systemNodes doc).filter (·.wireguard.isSome))).map
    fun pair => linkBetween doc pair.1 pair.2).filterMap (·.1)) (systemNode doc node)

@[simp] theorem layerNode_id (node : Node) : (layerNode doc node).id = node.id := by
  simp [layerNode, systemNode]

theorem find_layerNode (hdistinct : Distinct doc) (hnode : node ∈ doc.nodes)
    (hin : inSystem doc node = true) :
    (compileSystem doc).1.nodes.find? (·.id = node.id) = some (layerNode doc node) := by
  have hmem : layerNode doc node ∈ (compileSystem doc).1.nodes :=
    List.mem_map_of_mem (mem_systemNodes.mpr ⟨node, hnode, hin, rfl⟩)
  have hnodup : ((compileSystem doc).1.nodes.map (·.id)).Nodup := by
    have hids : (compileSystem doc).1.nodes.map (·.id) = (systemNodes doc).map (·.id) := by
      simp [compileSystem, Function.comp_def]
    rw [hids]
    exact List.pairwise_map.mpr ((systemNodes_sorted hdistinct).imp ne_of_lt)
  cases hfound : (compileSystem doc).1.nodes.find? (·.id = node.id) with
  | none =>
    have := List.find?_eq_none.mp hfound _ hmem
    simp at this
  | some other =>
    have hid : other.id = node.id := by simpa using List.find?_some hfound
    rw [List.inj_on_of_nodup_map hnodup (List.mem_of_find?_eq_some hfound) hmem
      (hid.trans (layerNode_id node).symm)]

theorem layerNode_overlayAddr (h : node.overlay = true) :
    (layerNode doc node).overlayAddr = some node.overlayAddr := by
  unfold layerNode assignServerListenPort
  split
  · simp [systemNode, h]
  · split <;> simp [systemNode, h]

theorem layerNode_wireguard {node : Node} (h : node.overlay = true) :
    ∃ wg, (layerNode doc node).wireguard = some wg ∧ wg.publicKey = node.wireguard.publicKey := by
  unfold layerNode assignServerListenPort
  split
  next hnone => simp [systemNode, h] at hnone
  next wg hwg =>
    have hkey : wg.publicKey = node.wireguard.publicKey := by
      simp only [systemNode, h, if_true, Option.some.injEq] at hwg
      rw [← hwg]
    split
    · exact ⟨_, rfl, hkey⟩
    · exact ⟨wg, hwg, hkey⟩

theorem layerNode_listenPort (hdistinct : Distinct doc) (hnode : node ∈ doc.nodes)
    (hlink : link ∈ (compileSystem doc).1.links) (hhosts : node.id ∈ link.wrap.hosts)
    {wg : WireGuard} (hwg : (layerNode doc node).wireguard = some wg) :
    ∃ port, wg.listenPort = some port := by
  unfold layerNode assignServerListenPort at hwg
  split at hwg
  next hnone =>
    rw [hnone] at hwg
    cases hwg
  next base hbase =>
    split at hwg
    next =>
      injection hwg with hwg
      subst hwg
      refine ⟨node.wireguard.listenPort, ?_⟩
      show (findNode doc node.id).map _ = _
      rw [findNode_of_mem hdistinct hnode]
      rfl
    next hkept =>
      rw [hbase] at hwg
      injection hwg with hwg
      subst hwg
      have hhost : (systemNode doc node).id ∈ (((pairsOf ((systemNodes doc).filter
          (·.wireguard.isSome))).map fun pair => linkBetween doc pair.1 pair.2).filterMap
            (·.1)).flatMap (·.wrap.hosts) := by
        refine List.mem_flatMap.mpr ⟨link, ?_, hhosts⟩
        simpa only [compileSystem, List.mem_insertionSort] using hlink
      rw [Bool.and_eq_true, not_and] at hkept
      have := hkept (by simpa using hhost)
      exact Option.isSome_iff_exists.mp (by simpa [Option.isSome_iff_ne_none] using this)

end

end Brocade.Ir
