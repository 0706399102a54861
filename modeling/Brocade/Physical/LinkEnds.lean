/-
The two ends of a backbone link.

Each end's tables are computed on their own, out of the links that touch it, and here they are put
side by side: both list the other, and where one dials a client of its own, the server that client
reaches is in the other's plan and hands the packets on to the other's WireGuard port
(`ends_agree`).  That rests on machines being told apart by their ids; two under one id leave a
link that neither describes (`ends_disagree`).
-/
import Brocade.Physical.Backbone

namespace Brocade.Physical

open Ir Model Address

/-- A server of a plan that takes a peer's packets. -/
def Serves (plan : Option PhantunPlan) (port udpPort : ℕ) (peer : String) : Prop :=
  ∃ p, plan = some p ∧ ∃ server ∈ p.servers, server.tcpPort = port
    ∧ server.forwardToUdpPort = udpPort ∧ peer ∈ server.peers

/-- A client of a plan that takes packets for a peer. -/
def Forwards (plan : Option PhantunPlan) (port : ℕ) (peer remote : String) : Prop :=
  ∃ p, plan = some p ∧ ∃ client ∈ p.clients, client.listenUdpPort = port
    ∧ client.peerNodeId = peer ∧ client.remoteTcpEndpoint = remote

theorem serves_of_server {nodeId : String} {servers : List PhantunServerPlan}
    {clients : List PhantunClientPlan} {server : PhantunServerPlan} {port udpPort : ℕ}
    {peer : String} (h : server ∈ servers) (hport : server.tcpPort = port)
    (hudp : server.forwardToUdpPort = udpPort) (hpeer : peer ∈ server.peers) :
    Serves (phantunInstances nodeId servers clients) port udpPort peer :=
  ⟨_, phantunInstances_of_server h, server, h, hport, hudp, hpeer⟩

theorem forwards_of_client {nodeId : String} {servers : List PhantunServerPlan}
    {clients : List PhantunClientPlan} {client : PhantunClientPlan} {port : ℕ}
    {peer remote : String} (h : client ∈ clients) (hport : client.listenUdpPort = port)
    (hpeer : client.peerNodeId = peer) (hremote : client.remoteTcpEndpoint = remote) :
    Forwards (phantunInstances nodeId servers clients) port peer remote :=
  ⟨_, phantunInstances_of_client h, client, h, hport, hpeer, hremote⟩

/-- Where one end sends the packets for the other. -/
inductive Lands (sys : SystemIr) (link : Link) (me peer : String) : Option String → Prop
  /-- It waits to be dialed. -/
  | waits : link.dials me = false → Lands sys link me peer none
  | bare (endpoint : String) : link.dials me = true → link.wrap = .udp →
      link.endpoints.get? peer = some endpoint → Lands sys link me peer (some endpoint)
  /-- To its own client, and from there to a server of the other end. -/
  | disguised (servers : OrdMap String String) (port tcpPort udpPort : ℕ) (remote : String)
      (theirs : WireGuardPlan) : link.dials me = true → link.wrap = .fakeTcp servers →
      Forwards (phantunPlan sys me) port peer remote → endpointPort remote = some tcpPort →
      wireguardPlan sys peer = some theirs → theirs.listenPort = some udpPort →
      Serves (phantunPlan sys peer) tcpPort udpPort me →
      Lands sys link me peer (some (loopbackEndpoint port))

/-- One end lists the other. -/
structure Lists (sys : SystemIr) (link : Link) (me peer : Node) : Prop where
  planned : ∃ mine, wireguardPlan sys me.id = some mine
    ∧ ∃ entry ∈ mine.peers, entry.nodeId = peer.id
  entries : ∀ mine, wireguardPlan sys me.id = some mine →
    ∀ entry ∈ mine.peers, entry.nodeId = peer.id →
      entry.publicKey = peer.wireguard.publicKey ∧ entry.allowedIp = peer.overlayAddr
        ∧ Lands sys link me.id peer.id entry.endpoint
  address : ∀ mine, wireguardPlan sys me.id = some mine → mine.address = me.overlayAddr
  disguised : (fakePort me).isSome = true → link.wrap ≠ .udp
  dials : link.dials me.id = hasLanding link.wrap link.endpoints peer.id

/-- The two machines of a link agree about it. -/
def EndsAgree (doc : ModelSnapshot) (link : Link) : Prop :=
  ∃ a ∈ doc.nodes, ∃ b ∈ doc.nodes, inSystem doc a = true ∧ inSystem doc b = true
    ∧ a.id = link.a ∧ b.id = link.b ∧ disabledPair doc link.a link.b = false
    ∧ (link.dials a.id = true ∨ link.dials b.id = true)
    ∧ Lists (compileSystem doc).1 link a b ∧ Lists (compileSystem doc).1 link b a

/-- Declared ports are of sixteen bits. -/
def TypedPorts (doc : ModelSnapshot) : Prop :=
  ∀ node ∈ doc.nodes, ∀ port, fakePort node = some port → port < 2 ^ 16

section
variable {doc : ModelSnapshot} {link : Link} {me peer : Node}

theorem mem_touching_of_ends (hlink : link ∈ (compileSystem doc).1.links)
    (h : Ends doc link me peer) : link ∈ touching (compileSystem doc).1 me.id :=
  mem_touching.mpr ⟨hlink, h.touches⟩

theorem eq_of_peerOf (hdistinct : Distinct doc) (h : Ends doc link me peer) {other : Link}
    (hother : other ∈ touching (compileSystem doc).1 me.id)
    (hpeer : other.peerOf me.id = peer.id) : other = link := by
  obtain ⟨hlinks, htouches⟩ := mem_touching.mp hother
  obtain ⟨far, hends⟩ := ends_of_touches hdistinct hlinks h.member.mem htouches
  have hfar : far = peer := List.inj_on_of_nodup_map hdistinct hends.symm.member.mem
    h.symm.member.mem (hends.peerOf.symm.trans hpeer)
  subst hfar
  exact h.unique hdistinct hends

theorem layer_plan (hdistinct : Distinct doc) (hme : Member doc me) :
    ∃ wg, (layerNode doc me).wireguard = some wg ∧ wg.publicKey = me.wireguard.publicKey
      ∧ wireguardPlan (compileSystem doc).1 me.id = some {
        privateKey := wg.privateKey
        address := me.overlayAddr
        listenPort := wg.listenPort
        mtu := some (layerNode doc me).mtu
        peers := ((touching (compileSystem doc).1 me.id).filterMap
          (peerPlan (compileSystem doc).1 (layerNode doc me)
            (fakeTcpLocalPorts me.id (touching (compileSystem doc).1 me.id)))).insertionSort
              fun a b => a.nodeId ≤ b.nodeId } := by
  obtain ⟨wg, hwg, hkey⟩ := @layerNode_wireguard doc _ hme.overlay
  refine ⟨wg, hwg, hkey, ?_⟩
  rw [wireguardPlan, find_layerNode hdistinct hme.mem hme.inSystem]
  show ((layerNode doc me).wireguard.bind fun wg => _) = _
  rw [hwg]
  show ((layerNode doc me).overlayAddr.bind fun overlay => _) = _
  rw [layerNode_overlayAddr hme.overlay, layerNode_id]
  rfl

theorem layer_phantun (hdistinct : Distinct doc) (hme : Member doc me) {wg : WireGuard}
    (hwg : (layerNode doc me).wireguard = some wg) :
    ∃ count, phantunPlan (compileSystem doc).1 me.id = phantunInstances me.id
        (phantunServers wg.listenPort (serversByPort me.id (touching (compileSystem doc).1 me.id)))
        (phantunClients count
          (fakeTcpLocalPorts me.id (touching (compileSystem doc).1 me.id))) := by
  refine ⟨(phantunServers wg.listenPort
    (serversByPort me.id (touching (compileSystem doc).1 me.id))).length, ?_⟩
  rw [phantunPlan, find_layerNode hdistinct hme.mem hme.inSystem]
  show ((layerNode doc me).wireguard.bind fun wg => _) = _
  rw [hwg, layerNode_id]
  rfl

theorem peerPlan_of_ends (hdistinct : Distinct doc) (h : Ends doc link me peer)
    (locals : OrdMap String (ℕ × String)) :
    ∃ keepalive, peerPlan (compileSystem doc).1 (layerNode doc me) locals link
      = some ⟨peer.id, peer.wireguard.publicKey, peer.overlayAddr,
        peerEndpoint me.id peer.id link locals, keepalive⟩ := by
  obtain ⟨wg, hwg, hkey⟩ := @layerNode_wireguard doc _ h.symm.member.overlay
  refine ⟨if (peerEndpoint me.id peer.id link locals).isSome && link.dial != .both then
    some link.keepaliveSecs else none, ?_⟩
  rw [peerPlan, layerNode_id, h.peerOf,
    find_layerNode hdistinct h.symm.member.mem h.symm.member.inSystem]
  show ((layerNode doc peer).wireguard.bind fun wg => _) = _
  rw [hwg]
  show ((layerNode doc peer).overlayAddr.bind fun overlay => _) = _
  rw [layerNode_overlayAddr h.symm.member.overlay, layerNode_id, ← hkey]
  rfl

theorem serverOn_eq_some {wrap : LinkWrap} {node endpoint : String}
    (h : wrap.serverOn node = some endpoint) :
    ∃ servers, wrap = .fakeTcp servers ∧ servers.get? node = some endpoint := by
  cases wrap with
  | udp => cases h
  | fakeTcp servers => exact ⟨servers, rfl, h⟩

theorem served (hdistinct : Distinct doc) (htyped : TypedPorts doc)
    (hlink : link ∈ (compileSystem doc).1.links) (h : Ends doc link me peer)
    {servers : OrdMap String String} (hwrap : link.wrap = .fakeTcp servers) {remote : String}
    (hremote : servers.get? peer.id = some remote) :
    ∃ tcpPort udpPort theirs, endpointPort remote = some tcpPort
      ∧ wireguardPlan (compileSystem doc).1 peer.id = some theirs
      ∧ theirs.listenPort = some udpPort
      ∧ Serves (phantunPlan (compileSystem doc).1 peer.id) tcpPort udpPort me.id := by
  obtain ⟨declarer, host, tcpPort, hdeclarer, hport, hhost⟩ :=
    h.server_declared hdistinct hwrap hremote
  have hmem : declarer ∈ doc.nodes := by
    rcases hdeclarer with rfl | rfl
    · exact h.member.mem
    · exact h.symm.member.mem
  have hparsed : endpointPort remote = some tcpPort := by
    rw [hhost]
    exact endpointPort_hostPort (htyped declarer hmem tcpPort hport)
  obtain ⟨wg, hwg, -, hplan⟩ := layer_plan hdistinct h.symm.member
  have hhosts : peer.id ∈ link.wrap.hosts := by
    rw [hwrap]
    exact OrdMap.mem_keys.mpr (OrdMap.contains_iff.mpr ⟨remote, hremote⟩)
  obtain ⟨udpPort, hudp⟩ := layerNode_listenPort hdistinct h.symm.member.mem hlink hhosts hwg
  refine ⟨tcpPort, udpPort, _, hparsed, hplan, hudp, ?_⟩
  -- the link puts this end among the peers of the port
  have hserver : serverPort peer.id link = some tcpPort := by
    rw [serverPort, hwrap]
    show (servers.get? peer.id).bind endpointPort = _
    rw [hremote]
    exact hparsed
  have hpeer : me.id ∈ ((serversByPort peer.id
      (touching (compileSystem doc).1 peer.id)).get? tcpPort).getD [] :=
    mem_serversByPort.mpr
      ⟨link, mem_touching_of_ends hlink h.symm, hserver, h.symm.peerOf⟩
  cases hpeers : (serversByPort peer.id (touching (compileSystem doc).1 peer.id)).get? tcpPort with
  | none =>
    rw [hpeers] at hpeer
    cases hpeer
  | some peers =>
    rw [hpeers, Option.getD_some] at hpeer
    obtain ⟨server, hmem, htcp, hforward, hlist⟩ :=
      @mem_phantunServers udpPort _ _ _ hpeers
    obtain ⟨count, hphantun⟩ := layer_phantun hdistinct h.symm.member hwg
    rw [hphantun, hudp]
    exact serves_of_server hmem htcp hforward (hlist ▸ hpeer)

theorem locals_get? (hdistinct : Distinct doc) (h : Ends doc link me peer) {client : ℕ × String}
    (hclient : (fakeTcpLocalPorts me.id (touching (compileSystem doc).1 me.id)).get? peer.id
      = some client) : link.dials me.id = true ∧ link.wrap.serverOn peer.id = some client.2 := by
  obtain ⟨other, hother, hdisguised⟩ := fakeTcpLocalPorts_get? hclient
  unfold disguisedPeer at hdisguised
  split at hdisguised
  next hdials =>
    obtain ⟨remote, hremote, hpair⟩ := Option.map_eq_some_iff.mp hdisguised
    injection hpair with hpeer hclient
    have : other = link := eq_of_peerOf hdistinct h hother hpeer
    subst this
    rw [h.peerOf] at hremote
    exact ⟨hdials, hremote.trans (congrArg some hclient)⟩
  next => cases hdisguised

theorem lands_of_ends (hdistinct : Distinct doc) (htyped : TypedPorts doc)
    (hlink : link ∈ (compileSystem doc).1.links) (h : Ends doc link me peer) :
    Lands (compileSystem doc).1 link me.id peer.id (peerEndpoint me.id peer.id link
      (fakeTcpLocalPorts me.id (touching (compileSystem doc).1 me.id))) := by
  unfold peerEndpoint
  by_cases hdials : link.dials me.id = true
  · rw [if_pos hdials]
    have hlanding := h.dials.symm.trans hdials
    cases hclient : (fakeTcpLocalPorts me.id (touching (compileSystem doc).1 me.id)).get?
        peer.id with
    | none =>
      cases hwrap : link.wrap with
      | udp =>
        rw [hwrap] at hlanding
        obtain ⟨endpoint, hendpoint⟩ := OrdMap.contains_iff.mp hlanding
        show Lands _ _ _ _ (link.endpoints.get? peer.id)
        rw [hendpoint]
        exact Lands.bare endpoint hdials hwrap hendpoint
      | fakeTcp servers =>
        rw [hwrap] at hlanding
        obtain ⟨remote, hremote⟩ := OrdMap.contains_iff.mp hlanding
        have hdisguised : disguisedPeer me.id link = some (peer.id, remote) := by
          rw [disguisedPeer, if_pos hdials, h.peerOf, hwrap]
          show (servers.get? peer.id).map _ = _
          rw [hremote]
          rfl
        obtain ⟨client, hsome⟩ :=
          fakeTcpLocalPorts_isSome (mem_touching_of_ends hlink h) hdisguised
        rw [hsome] at hclient
        cases hclient
    | some client =>
      obtain ⟨-, hserver⟩ := locals_get? hdistinct h hclient
      obtain ⟨servers, hwrap, hremote⟩ := serverOn_eq_some hserver
      obtain ⟨tcpPort, udpPort, theirs, hparsed, hplan, hudp, hserves⟩ :=
        served hdistinct htyped hlink h hwrap hremote
      refine Lands.disguised servers client.1 tcpPort udpPort client.2 theirs hdials hwrap ?_
        hparsed hplan hudp hserves
      obtain ⟨wg, hwg, -⟩ := layer_plan hdistinct h.member
      obtain ⟨count, hphantun⟩ := layer_phantun hdistinct h.member hwg
      obtain ⟨plan, hmem, hpeer, hport, hto⟩ := @mem_phantunClients count _ _ _ hclient
      rw [hphantun]
      exact forwards_of_client hmem hport hpeer hto
  · rw [if_neg hdials]
    exact Lands.waits (Bool.eq_false_iff.mpr hdials)

theorem lists_of_ends (hdistinct : Distinct doc) (htyped : TypedPorts doc)
    (hlink : link ∈ (compileSystem doc).1.links) (h : Ends doc link me peer) :
    Lists (compileSystem doc).1 link me peer := by
  obtain ⟨wg, hwg, -, hplan⟩ := layer_plan hdistinct h.member
  obtain ⟨keepalive, hrow⟩ := peerPlan_of_ends hdistinct h
    (fakeTcpLocalPorts me.id (touching (compileSystem doc).1 me.id))
  have hlisted := (List.mem_insertionSort fun a b : WireGuardPeerPlan => a.nodeId ≤ b.nodeId).mpr
    (List.mem_filterMap.mpr ⟨link, mem_touching_of_ends hlink h, hrow⟩)
  refine ⟨⟨_, hplan, _, hlisted, rfl⟩, ?_, ?_, ?_, h.dials⟩
  · intro mine hmine entry hentry hpeer
    rw [hplan] at hmine
    injection hmine with hmine
    subst hmine
    obtain ⟨other, hother, hmade⟩ := List.mem_filterMap.mp
      ((List.mem_insertionSort _).mp hentry)
    obtain ⟨hlinks, htouches⟩ := mem_touching.mp hother
    obtain ⟨far, hends⟩ := ends_of_touches hdistinct hlinks h.member.mem htouches
    obtain ⟨_, hfar⟩ := peerPlan_of_ends hdistinct hends
      (fakeTcpLocalPorts me.id (touching (compileSystem doc).1 me.id))
    rw [hfar] at hmade
    injection hmade with hmade
    have hid : far.id = peer.id := by
      rw [← hmade] at hpeer
      exact hpeer
    have : other = link := eq_of_peerOf hdistinct h hother (hends.peerOf.trans hid)
    subst this
    rw [hrow] at hfar
    injection hfar with hfar
    rw [← hmade, ← hfar]
    exact ⟨rfl, rfl, lands_of_ends hdistinct htyped hlink h⟩
  · intro mine hmine
    rw [hplan] at hmine
    injection hmine with hmine
    rw [← hmine]
  · intro hdeclared hudp
    obtain ⟨servers, hservers⟩ := h.disguised hdistinct hdeclared
    rw [hservers] at hudp
    cases hudp

/-- Where machines are told apart by their ids, the two ends of every link agree. -/
theorem ends_agree (doc : ModelSnapshot) (hdistinct : Distinct doc) (htyped : TypedPorts doc) :
    ∀ link ∈ (compileSystem doc).1.links, EndsAgree doc link := by
  intro link hlink
  obtain ⟨a, b, hjoins⟩ := mem_links hdistinct hlink
  have hends : Ends doc link a b := .inl hjoins
  refine ⟨a, hjoins.memberA.mem, b, hjoins.memberB.mem, hjoins.memberA.inSystem,
    hjoins.memberB.inSystem, hjoins.left.symm, hjoins.right.symm, ?_, ?_,
    lists_of_ends hdistinct htyped hlink hends, lists_of_ends hdistinct htyped hlink hends.symm⟩
  · rw [hjoins.left, hjoins.right]
    exact hjoins.enabled
  · rw [hends.dials, hends.symm.dials]
    exact hjoins.lands.symm

end

/-! ### Two machines under one id -/

/-- A machine of the sample. -/
def overlayNode (id publicIpv4 : String) (transport : WgTransport) : Node :=
  { plainNode id publicIpv4 with
    overlay := true
    wireguard := ⟨s!"private of {id}", s!"public of {id}", 51820, transport⟩ }

/-- The id `hk` once named a decommissioned machine. -/
def reusedId : ModelSnapshot :=
  plainSnapshot
    [{ plainNode "hk" "198.51.100.1" with retired := true },
      overlayNode "hk" "198.51.100.2" (.fakeTcp 4567), overlayNode "jp" "198.51.100.3" .udp] []

/-- Of the two machines the pass asks the one out of service, and the disguise is lost. -/
theorem ends_disagree : ¬ ∀ doc : ModelSnapshot, TypedPorts doc →
      ∀ link ∈ (compileSystem doc).1.links, EndsAgree doc link := by
  intro h
  have hlink : ∃ link ∈ (compileSystem reusedId).1.links, link.a = "hk" ∧ link.wrap = .udp := by
    decide +kernel
  obtain ⟨link, hmem, ha, hwrap⟩ := hlink
  have htyped : TypedPorts reusedId := by
    intro node hnode port hport
    simp only [reusedId, plainSnapshot, List.mem_cons, List.not_mem_nil, or_false] at hnode
    rcases hnode with rfl | rfl | rfl
    · cases hport
    · injection hport with hport
      subst hport
      decide
    · cases hport
  obtain ⟨a, haNode, b, -, haSystem, -, hid, -, -, -, hlists, -⟩ := h reusedId htyped link hmem
  have hdeclared : ∀ a ∈ reusedId.nodes, inSystem reusedId a = true → a.id = "hk" →
      (fakePort a).isSome = true := by
    decide +kernel
  exact hlists.disguised (hdeclared a haNode haSystem (hid.trans ha)) hwrap

/-- One machine declared a disguise, and the other is behind NAT. -/
def disguisedPair : ModelSnapshot :=
  plainSnapshot
    [{ overlayNode "hk" "198.51.100.2" (.fakeTcp 4567) with publicIpv4Nat := true },
      overlayNode "jp" "198.51.100.3" .udp] []

theorem ends_agree_disguised : (∃ link ∈ (compileSystem disguisedPair).1.links, link.wrap ≠ .udp)
      ∧ ∀ link ∈ (compileSystem disguisedPair).1.links, EndsAgree disguisedPair link := by
  have hdistinct : (disguisedPair.nodes.map (·.id)).Nodup := by decide +kernel
  refine ⟨by decide +kernel, ends_agree disguisedPair hdistinct ?_⟩
  intro node hnode port hport
  simp only [disguisedPair, plainSnapshot, List.mem_cons, List.not_mem_nil, or_false] at hnode
  rcases hnode with rfl | rfl
  · injection hport with hport
    subst hport
    decide
  · cases hport

end Brocade.Physical
