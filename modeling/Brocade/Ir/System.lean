/-
The system layer: the mesh of machines, before any business runs on top of it.

A machine is present when it is on the overlay or when some chain opened a relay port on it,
and never once it is decommissioned.  Links are computed between every two members of the
overlay, undirected, each with who can dial whom and whether it wears a TCP disguise.
-/
import Brocade.Ir.Diagnostic
import Brocade.Model

namespace Brocade.Ir

open Address Model

/-- A machine's end of the overlay. -/
structure WireGuard where
  (privateKey publicKey : String)
  listenPort : Option ℕ
  endpoint : Option String
deriving DecidableEq

/-- A machine's system-layer half.  No overlay address means it is not on the backbone. -/
structure SystemNode where
  (id tenant : String)
  certificateGroupId : Option String
  certificateTrack : Option CertificateTrack
  overlayAddr : Option Ipv4Addr
  wireguard : Option WireGuard
  mtu : ℕ
deriving DecidableEq

/-- Who dials on a link. -/
inductive Dial where
  | both
  | aToB
  | bToA
deriving DecidableEq

/-- A link's disguise: the machines that host a server for it, with what their peer dials. -/
inductive LinkWrap where
  | udp
  | fakeTcp (servers : OrdMap String String)
deriving DecidableEq

/-- A compiled link. -/
structure Link where
  (id a b : String)
  dial : Dial
  keepaliveSecs : ℕ
  endpoints : OrdMap String String
  wrap : LinkWrap
deriving DecidableEq

/-- The compiled system. -/
structure SystemIr where
  revision : ℕ
  overlayCidr : Ipv4Net
  settings : ModelSettings
  nodeCount : ℕ
  nodes : List SystemNode
  links : List Link
deriving DecidableEq

/-! ### Who can be dialed where -/

def findNode (doc : ModelSnapshot) (id : String) : Option Node :=
  doc.nodes.find? fun node => node.id = id

/-- The address of a machine that is not behind NAT. -/
def publicEndpointHost (node : Node) : Option String :=
  (node.publicIpv4.filter fun _ => !node.publicIpv4Nat).or
    (node.publicIpv6.filter fun _ => !node.publicIpv6Nat)

/-- A non-NAT address of `target` in a family `dialer` can use. -/
def publicEndpointFor (dialer target : Node) (port : ℕ) : Option String :=
  let dialerV6 := dialer.publicIpv6.isSome
  let dialerV4 := dialer.publicIpv4.isSome || !dialerV6
  let v4 := if dialerV4 then target.publicIpv4.filter fun _ => !target.publicIpv4Nat else none
  let v6 := if dialerV6 then target.publicIpv6.filter fun _ => !target.publicIpv6Nat else none
  (v4.or v6).map fun host => hostPort host port

/-- The port a machine declared for a TCP disguise. -/
def fakePort (node : Node) : Option ℕ :=
  match node.wireguard.transport with
  | .fakeTcp port => some port
  | .udp => none

/-- The server for one side's declaration: on that side where it can be dialed, else on the
peer under the same port. -/
def hostServer (me peer : Node) (servers : OrdMap String String) : OrdMap String String :=
  match fakePort me with
  | none => servers
  | some port =>
    match publicEndpointFor peer me port with
    | some endpoint => servers.insert me.id endpoint
    | none =>
      match publicEndpointFor me peer port with
      | none => servers
      | some endpoint =>
        if servers.contains peer.id then servers else servers.insert peer.id endpoint

/-- How a link is disguised. -/
def linkWrap (doc : ModelSnapshot) (a b : SystemNode) : LinkWrap × List Diagnostic :=
  match findNode doc a.id, findNode doc b.id with
  | some aNode, some bNode =>
    if (fakePort aNode).isNone && (fakePort bNode).isNone then (.udp, [])
    else
      let servers := hostServer bNode aNode (hostServer aNode bNode .empty)
      if servers.isEmpty then
        (.udp, [.info "link.fake-tcp-unhostable" s!"{a.id}|{b.id}"
          (s!"{a.id} 与 {b.id} 上声明的伪 TCP 在这一对上前提不成立：" ++ "phantun 服务端只能架在能被拨到的那一端，而两台都在 NAT 后面。" ++
            "伪 TCP 换的是流量形状，不是可达性")])
      else (.fakeTcp servers, [])
  | _, _ => (.udp, [])

/-- An endpoint, where there is one. -/
def putEndpoint (endpoints : OrdMap String String) (id : String) :
    Option String → OrdMap String String
  | none => endpoints
  | some endpoint => endpoints.insert id endpoint

/-- The direct landing on each end of a bare link, under the machine being dialed. -/
def directEndpoints (doc : ModelSnapshot) (a b : SystemNode) : LinkWrap → OrdMap String String
  | .fakeTcp _ => .empty
  | .udp =>
    match findNode doc a.id, findNode doc b.id with
    | some aNode, some bNode =>
      putEndpoint
        (putEndpoint .empty b.id (publicEndpointFor aNode bNode bNode.wireguard.listenPort))
        a.id (publicEndpointFor bNode aNode aNode.wireguard.listenPort)
    | _, _ => .empty

/-- Whether the peer can be dialled. -/
def hasLanding (wrap : LinkWrap) (endpoints : OrdMap String String) (peerId : String) : Bool :=
  match wrap with
  | .udp => endpoints.contains peerId
  | .fakeTcp servers => servers.contains peerId

/-! ### The pass -/

/-- Machines on which some chain opened a relay port. -/
def relays (doc : ModelSnapshot) : List String :=
  ((doc.apps.flatMap (·.steps)).filter (·.hopIn.isSome)).map (·.node)

/-- A machine in service. -/
def systemNode (doc : ModelSnapshot) (node : Node) : SystemNode :=
  let endpoint :=
    match node.wireguard.transport with
    | .udp => (publicEndpointHost node).map fun host => hostPort host node.wireguard.listenPort
    | .fakeTcp _ => none
  { id := node.id
    tenant := node.tenant
    certificateGroupId := node.certificateGroupId
    certificateTrack := node.certificateTrack
    overlayAddr := if node.overlay then some node.overlayAddr else none
    wireguard := if node.overlay then
        some {
          privateKey := node.wireguard.privateKey
          publicKey := node.wireguard.publicKey
          listenPort := if endpoint.isSome then some node.wireguard.listenPort else none
          endpoint := endpoint }
      else none
    mtu := node.mtu.getD doc.settings.overlay.mtu }

/-- A machine enters the system layer while in service, on the overlay or as a relay. -/
def inSystem (doc : ModelSnapshot) (node : Node) : Bool :=
  !node.retired && (node.overlay || decide (node.id ∈ relays doc))

/-- The machines in service. -/
def systemNodes (doc : ModelSnapshot) : List SystemNode :=
  ((doc.nodes.filter (inSystem doc)).map (systemNode doc)).insertionSort fun a b => a.id ≤ b.id

/-- Every two entries, the earlier first. -/
def pairsOf {α : Type} : List α → List (α × α)
  | [] => []
  | a :: as => as.map (fun b => (a, b)) ++ pairsOf as

/-- Whether the link is switched off. -/
def disabledPair (doc : ModelSnapshot) (a b : String) : Bool :=
  doc.settings.overlay.disabledLinks.any fun link =>
    if link.a ≤ link.b then link.a = a && link.b = b else link.b = a && link.a = b

/-- The link between two members, if they have one. -/
def linkBetween (doc : ModelSnapshot) (a b : SystemNode) : Option Link × List Diagnostic :=
  if disabledPair doc a.id b.id then
    (none, [.info "link.disabled" s!"{a.id}|{b.id}"
      s!"{a.id} 与 {b.id} 的 WireGuard 直连已由运营者禁用；双方配置都不生成该 peer"])
  else
    let wrap := linkWrap doc a b
    let endpoints := directEndpoints doc a b wrap.1
    let aCan := hasLanding wrap.1 endpoints b.id
    let bCan := hasLanding wrap.1 endpoints a.id
    if !aCan && !bCan then
      (none, wrap.2 ++ [.info "link.no-endpoint" s!"{a.id}|{b.id}"
        (s!"{a.id} 与 {b.id} 互联的前提不成立：至少要有一端能通过双方共有的地址族拨入，" ++
          "而这对机器之间没有可达的非 NAT Endpoint。不生成这条链路——" ++
          "没有链走这一跳的话，这一对不通是无害的")])
    else
      (some {
        id := s!"l-{a.id}-{b.id}"
        a := a.id
        b := b.id
        dial := if aCan && bCan then .both else if aCan then .aToB else .bToA
        keepaliveSecs := doc.settings.overlay.keepaliveSecs
        endpoints := endpoints
        wrap := wrap.1 }, wrap.2)

def LinkWrap.hosts : LinkWrap → List String
  | .udp => []
  | .fakeTcp servers => servers.keys

/-- A machine hosting a disguise's server needs a fixed port of its own. -/
def assignServerListenPort (doc : ModelSnapshot) (links : List Link) (node : SystemNode) :
    SystemNode :=
  match node.wireguard with
  | none => node
  | some wg =>
    if node.id ∈ links.flatMap (·.wrap.hosts) && wg.listenPort.isNone then
      { node with wireguard := some { wg with
          listenPort := (findNode doc node.id).map (·.wireguard.listenPort) } }
    else node

/-- The mesh of the fleet. -/
def compileSystem (doc : ModelSnapshot) : SystemIr × List Diagnostic :=
  let nodes := systemNodes doc
  let members := nodes.filter (·.wireguard.isSome)
  let compiled := (pairsOf members).map fun pair => linkBetween doc pair.1 pair.2
  let links := compiled.filterMap (·.1)
  let size : List Diagnostic :=
    if links.length > 64 then
      [.warn "system.mesh-size" "overlay"
        (s!"全互联规模过大：{members.length} 台，{links.length} 条链路，" ++ s!"{members.length - 1} peer/台")]
    else []
  ({ revision := doc.revision
     overlayCidr := doc.overlayCidr
     settings := doc.settings
     nodeCount := members.length
     nodes := nodes.map (assignServerListenPort doc links)
     links := links.insertionSort fun a b => a.id ≤ b.id },
    compiled.flatMap (·.2) ++ size)

/-! ### What the layer holds -/

@[simp] theorem assignServerListenPort_id (doc : ModelSnapshot) (links : List Link)
    (node : SystemNode) : (assignServerListenPort doc links node).id = node.id := by
  unfold assignServerListenPort
  split
  · rfl
  · split <;> rfl

theorem mem_system_nodes (doc : ModelSnapshot) (id : String) :
    (∃ node ∈ (compileSystem doc).1.nodes, node.id = id)
      ↔ ∃ node ∈ doc.nodes, node.id = id ∧ inSystem doc node = true := by
  have hnodes : (compileSystem doc).1.nodes.map (·.id) = (systemNodes doc).map (·.id) := by
    simp [compileSystem, Function.comp_def]
  have hmem : ∀ ids : List SystemNode,
      (∃ node ∈ ids, node.id = id) ↔ id ∈ ids.map (·.id) := fun ids => by simp
  rw [hmem, hnodes, ← hmem]
  simp only [systemNodes, List.mem_insertionSort, List.mem_map, List.mem_filter]
  constructor
  · rintro ⟨_, ⟨node, ⟨hnode, hin⟩, rfl⟩, hid⟩
    exact ⟨node, hnode, hid, hin⟩
  · rintro ⟨node, hnode, hid, hin⟩
    exact ⟨_, ⟨node, ⟨hnode, hin⟩, rfl⟩, hid⟩

end Brocade.Ir
