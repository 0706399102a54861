/-
The backbone's part of one machine: its WireGuard table and its phantun instances.

Both are read off the links that touch the machine.  A peer behind a disguised link is dialed on
loopback, at a port that only its place among the disguised peers decides, and the same table of
ports gives the client its listener.
-/
import Brocade.Ir.Links

namespace Brocade.Physical

open Ir Model Address

/-- A device of a tunnel. -/
structure PhantunTun where
  name : String
  (kernel peer : Ipv4Addr)

/-- The tunnels a machine serves. -/
structure PhantunServerPlan where
  (tcpPort forwardToUdpPort : ℕ)
  peers : List String
  tun : PhantunTun

/-- A tunnel a machine dials. -/
structure PhantunClientPlan where
  peerNodeId : String
  listenUdpPort : ℕ
  remoteTcpEndpoint : String
  tun : PhantunTun

/-- A machine's tunnels. -/
structure PhantunPlan where
  nodeId : String
  servers : List PhantunServerPlan
  clients : List PhantunClientPlan

/-- A peer of the overlay. -/
structure WireGuardPeerPlan where
  (nodeId publicKey : String)
  allowedIp : Ipv4Addr
  endpoint : Option String
  persistentKeepalive : Option ℕ

/-- A machine's overlay. -/
structure WireGuardPlan where
  privateKey : String
  address : Ipv4Addr
  (listenPort mtu : Option ℕ)
  peers : List WireGuardPeerPlan

/-- 192.168.200.0 -/
def phantunTunNet : Ipv4Addr := 0xc0a8c800

/-- The device of one instance, with its pair of addresses out of a /30.  The index is narrowed to
one octet before it is multiplied. -/
def phantunTun (kind : String) (index : ℕ) : PhantunTun :=
  let base := 4 * (index % 2 ^ 8) % 2 ^ 8
  { name := s!"bt{kind}{index}"
    kernel := phantunTunNet + BitVec.ofNat 32 (base + 1)
    peer := phantunTunNet + BitVec.ofNat 32 (base + 2) }

def phantunLocalPortBase : ℕ := 29000

/-! ### The disguised peers -/

def touching (sys : SystemIr) (nodeId : String) : List Link :=
  sys.links.filter fun link => link.a = nodeId || link.b = nodeId

/-- The peer of a link that this machine dials through a client, with what the client dials. -/
def disguisedPeer (me : String) (link : Link) : Option (String × String) :=
  if link.dials me then
    (link.wrap.serverOn (link.peerOf me)).map fun remote => (link.peerOf me, remote)
  else none

/-- The port of the client at this place. -/
def localPort (index : ℕ) : ℕ := (phantunLocalPortBase + index % 2 ^ 16) % 2 ^ 16

/-- Which peers get a client, each with its port on loopback and the endpoint it dials. -/
def fakeTcpLocalPorts (me : String) (touching : List Link) : OrdMap String (ℕ × String) :=
  OrdMap.ofList ((OrdMap.pairSet (touching.filterMap (disguisedPeer me))).zipIdx.map
    fun entry => (entry.1.1, (localPort entry.2, entry.1.2)))

/-! ### The plans -/

/-- The port of the server that this machine hosts for a link. -/
def serverPort (nodeId : String) (link : Link) : Option ℕ :=
  (link.wrap.serverOn nodeId).bind endpointPort

/-- Adds the peer of one link to the servers. -/
def addServer (nodeId : String) (byPort : OrdMap ℕ (List String)) (link : Link) :
    OrdMap ℕ (List String) :=
  match serverPort nodeId link with
  | none => byPort
  | some port =>
    byPort.insert port
      (OrdMap.keySet (link.peerOf nodeId :: (byPort.get? port).getD []))

def serversByPort (nodeId : String) (touching : List Link) : OrdMap ℕ (List String) :=
  touching.foldl (addServer nodeId) .empty

/-- The tunnels it serves. -/
def phantunServers (udpPort : Option ℕ) (byPort : OrdMap ℕ (List String)) :
    List PhantunServerPlan :=
  match udpPort with
  | none => []
  | some udpPort =>
    byPort.entries.zipIdx.map fun entry => {
      tcpPort := entry.1.1
      forwardToUdpPort := udpPort
      peers := entry.1.2
      tun := phantunTun "s" entry.2 }

/-- The clients in the order of their peers; their devices are numbered after the servers'. -/
def phantunClients (servers : ℕ) (locals : OrdMap String (ℕ × String)) : List PhantunClientPlan :=
  (locals.entries.zipIdx.map fun entry => {
    peerNodeId := entry.1.1
    listenUdpPort := entry.1.2.1
    remoteTcpEndpoint := entry.1.2.2
    tun := phantunTun "c" (servers + entry.2) }).insertionSort fun a b =>
      a.peerNodeId ≤ b.peerNodeId

/-- No plan at all where there is no instance to run. -/
def phantunInstances (nodeId : String) (servers : List PhantunServerPlan)
    (clients : List PhantunClientPlan) : Option PhantunPlan :=
  if servers.isEmpty && clients.isEmpty then none else some ⟨nodeId, servers, clients⟩

/-- Its tunnels. -/
def phantunPlan (sys : SystemIr) (nodeId : String) : Option PhantunPlan := do
  let me ← sys.nodes.find? (·.id = nodeId)
  let wg ← me.wireguard
  let links := touching sys nodeId
  let servers := phantunServers wg.listenPort (serversByPort nodeId links)
  phantunInstances nodeId servers
    (phantunClients servers.length (fakeTcpLocalPorts me.id links))

/-- Where the packets to a peer on loopback go. -/
def loopbackEndpoint (port : ℕ) : String := s!"127.0.0.1:{port}"

/-- What an end dials: a client of its own where it has one, else what the link says. -/
def peerEndpoint (me peer : String) (link : Link) (locals : OrdMap String (ℕ × String)) :
    Option String :=
  if link.dials me then
    match locals.get? peer with
    | some client => some (loopbackEndpoint client.1)
    | none => link.endpoints.get? peer
  else none

/-- A peer, as configured. -/
def peerPlan (sys : SystemIr) (me : SystemNode) (locals : OrdMap String (ℕ × String))
    (link : Link) : Option WireGuardPeerPlan := do
  let peer ← sys.nodes.find? (·.id = link.peerOf me.id)
  let endpoint := peerEndpoint me.id peer.id link locals
  let keepalive :=
    if endpoint.isSome && link.dial != .both then some link.keepaliveSecs else none
  let wg ← peer.wireguard
  let overlay ← peer.overlayAddr
  some ⟨peer.id, wg.publicKey, overlay, endpoint, keepalive⟩

/-- Its overlay, as configured. -/
def wireguardPlan (sys : SystemIr) (nodeId : String) : Option WireGuardPlan := do
  let me ← sys.nodes.find? (·.id = nodeId)
  let wg ← me.wireguard
  let overlay ← me.overlayAddr
  let links := touching sys nodeId
  let locals := fakeTcpLocalPorts me.id links
  let peers := (links.filterMap (peerPlan sys me locals)).insertionSort fun a b =>
    a.nodeId ≤ b.nodeId
  some ⟨wg.privateKey, overlay, wg.listenPort, some me.mtu, peers⟩

/-! ### What the tables hold -/

variable {nodeId peer : String} {links : List Link}

theorem mem_touching {sys : SystemIr} {link : Link} :
    link ∈ touching sys nodeId ↔ link ∈ sys.links ∧ (link.a = nodeId ∨ link.b = nodeId) := by
  simp [touching]

theorem mem_serversByPort {port : ℕ} : peer ∈ ((serversByPort nodeId links).get? port).getD []
      ↔ ∃ link ∈ links, serverPort nodeId link = some port ∧ link.peerOf nodeId = peer := by
  have hstep : ∀ (byPort : OrdMap ℕ (List String)) (link : Link),
      peer ∈ ((addServer nodeId byPort link).get? port).getD [] ↔ peer ∈ (byPort.get? port).getD []
          ∨ serverPort nodeId link = some port ∧ link.peerOf nodeId = peer := by
    intro byPort link
    unfold addServer
    cases hport : serverPort nodeId link with
    | none => simp
    | some other =>
      dsimp only
      rw [OrdMap.get?_insert]
      by_cases heq : port = other
      · subst heq
        rw [if_pos rfl, Option.getD_some, OrdMap.mem_keySet, List.mem_cons, or_comm]
        simp [eq_comm]
      · rw [if_neg heq]
        simp [Ne.symm heq]
  have hfold : ∀ (links : List Link) (byPort : OrdMap ℕ (List String)),
      peer ∈ ((links.foldl (addServer nodeId) byPort).get? port).getD []
        ↔ peer ∈ (byPort.get? port).getD []
          ∨ ∃ link ∈ links, serverPort nodeId link = some port ∧ link.peerOf nodeId = peer := by
    intro links
    induction links with
    | nil => simp
    | cons link links ih =>
      intro byPort
      rw [List.foldl_cons, ih, hstep]
      simp [or_assoc]
  rw [serversByPort, hfold]
  simp

theorem exists_zipIdx {α : Type} {a : α} {as : List α} (h : a ∈ as) :
    ∃ index, (a, index) ∈ as.zipIdx := by
  obtain ⟨index, hindex⟩ := List.getElem?_of_mem h
  exact ⟨index, List.mk_mem_zipIdx_iff_getElem?.mpr hindex⟩

theorem mem_phantunServers {udpPort : ℕ} {byPort : OrdMap ℕ (List String)} {port : ℕ}
    {peers : List String} (h : byPort.get? port = some peers) :
    ∃ server ∈ phantunServers (some udpPort) byPort, server.tcpPort = port
      ∧ server.forwardToUdpPort = udpPort ∧ server.peers = peers := by
  obtain ⟨index, hmem⟩ := exists_zipIdx (OrdMap.mem_entries.mpr h)
  exact ⟨_, List.mem_map_of_mem hmem, rfl, rfl, rfl⟩

theorem mem_phantunClients {servers : ℕ} {locals : OrdMap String (ℕ × String)} {peer : String}
    {client : ℕ × String} (h : locals.get? peer = some client) :
    ∃ plan ∈ phantunClients servers locals, plan.peerNodeId = peer
      ∧ plan.listenUdpPort = client.1 ∧ plan.remoteTcpEndpoint = client.2 := by
  obtain ⟨index, hmem⟩ := exists_zipIdx (OrdMap.mem_entries.mpr h)
  refine ⟨⟨peer, client.1, client.2, phantunTun "c" (servers + index)⟩, ?_, rfl, rfl, rfl⟩
  exact (List.mem_insertionSort _).mpr (List.mem_map.mpr ⟨_, hmem, rfl⟩)

theorem phantunInstances_of_server {servers : List PhantunServerPlan}
    {clients : List PhantunClientPlan} {server : PhantunServerPlan} (h : server ∈ servers) :
    phantunInstances nodeId servers clients = some ⟨nodeId, servers, clients⟩ := by
  cases servers with
  | nil => cases h
  | cons first rest => rfl

theorem phantunInstances_of_client {servers : List PhantunServerPlan}
    {clients : List PhantunClientPlan} {client : PhantunClientPlan} (h : client ∈ clients) :
    phantunInstances nodeId servers clients = some ⟨nodeId, servers, clients⟩ := by
  cases clients with
  | nil => cases h
  | cons first rest => simp [phantunInstances]

theorem fakeTcpLocalPorts_get? {me : String} {client : ℕ × String}
    (h : (fakeTcpLocalPorts me links).get? peer = some client) :
    ∃ link ∈ links, disguisedPeer me link = some (peer, client.2) := by
  rw [fakeTcpLocalPorts, OrdMap.get?_ofList] at h
  have hmem := OrdMap.mem_of_lastOf h
  obtain ⟨⟨⟨id, remote⟩, index⟩, hentry, heq⟩ := List.mem_map.mp hmem
  injection heq with hid hclient
  subst hid hclient
  have hpair : (id, remote) ∈ OrdMap.pairSet (links.filterMap (disguisedPeer me)) :=
    List.mem_of_getElem? (List.mk_mem_zipIdx_iff_getElem?.mp hentry)
  exact List.mem_filterMap.mp (OrdMap.mem_pairSet.mp hpair)

theorem fakeTcpLocalPorts_isSome {me : String} {link : Link} {remote : String}
    (hlink : link ∈ links) (h : disguisedPeer me link = some (peer, remote)) :
    ∃ client, (fakeTcpLocalPorts me links).get? peer = some client := by
  rw [fakeTcpLocalPorts, OrdMap.get?_ofList]
  have hpair : (peer, remote) ∈ OrdMap.pairSet (links.filterMap (disguisedPeer me)) :=
    OrdMap.mem_pairSet.mpr (List.mem_filterMap.mpr ⟨link, hlink, h⟩)
  obtain ⟨index, hmem⟩ := exists_zipIdx hpair
  rw [← Option.isSome_iff_exists, Option.isSome_iff_ne_none]
  intro hnone
  exact OrdMap.lastOf_eq_none.mp hnone _ (List.mem_map_of_mem hmem) rfl

end Brocade.Physical
