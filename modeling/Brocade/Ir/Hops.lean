/-
Resolving relay edges.

Every rule that forwards names a rule table: the one its chain has on another machine, or,
for a reused listener, the one another chain has there.  The table's machine is dialed with
the material of its relay port, except on a reverse edge, where the target dials us and the
material is ours.  One hop stands for all the rules of a table that name the same target.
-/
import Brocade.Ir.App

namespace Brocade.Ir

open Address Model

/-- What is known about the two ends of a hop. -/
structure HopEndpoints where
  (source target : Option AppNode)
  targetOverlay : Option Ipv4Addr
  (sourceOnOverlay linked : Bool)

/-- A resolved address, or what is reported of it. -/
abbrev Resolved (α : Type) := Except Diagnostic α

/-! ### Addresses written on a chain -/

/-- The address of a family from outside, unless it is behind NAT. -/
def dialablePublicHost (node : AppNode) : IpFamily → Option String
  | .v4 => if node.publicIpv4Nat then none else node.publicIpv4.filter fun host => host ≠ ""
  | .v6 => if node.publicIpv6Nat then none else node.publicIpv6.filter fun host => host ≠ ""

/-- The machine's own address of this text, if it can be dialed. -/
def publicMatch (node : AppNode) (host : String) : Option (String × String) :=
  if !node.publicIpv4Nat && node.publicIpv4 = some host then some ("公网 IPv4", host)
  else if !node.publicIpv6Nat && node.publicIpv6 = some host then some ("公网 IPv6", host)
  else none

/-- The machine's own address of this text, if it is behind NAT. -/
def natPublicMatch (node : AppNode) (host : String) : Option (String × String) :=
  if node.publicIpv4Nat && node.publicIpv4 = some host then some ("公网 IPv4", host)
  else if node.publicIpv6Nat && node.publicIpv6 = some host then some ("公网 IPv6", host)
  else none

/-- The two sides of the last colon, or of `]:` behind an opening bracket. -/
def splitAddr (raw : String) : Except String (String × String) :=
  match Text.stripPrefix? "[" raw with
  | some inner =>
    match Text.splitOnce? inner "]:" with
    | none => .error "IPv6 需写成 [addr]:port"
    | some parts => .ok parts
  | none =>
    match Text.rsplitOnce? raw ':' with
    | none => .error "没有端口"
    | some parts =>
      if Text.contains parts.1 ":" && isIpv6 parts.1 then .error "IPv6 需写成 [addr]:port"
      else .ok parts

/-- Whether an address has a host and a port. -/
def checkAddr (parts : String × String) : Except String (String × ℕ × HopPath) :=
  if Text.trim parts.1 = "" then .error "没有主机名"
  else
    match parseU16 (Text.trim parts.2) with
    | none => .error "端口不是 1..=65535"
    | some 0 => .error "端口是 0"
    | some port => .ok (Text.trim parts.1, port, .direct)

/-- An address written on a chain. -/
def parseAddr (location raw : String) : Resolved (String × ℕ × HopPath) :=
  match splitAddr (Text.trim raw) >>= checkAddr with
  | .ok addr => .ok addr
  | .error why => .error (.error "hop.dial-malformed" location s!"拨号地址无效：{Text.trim raw}（{why}）")

/-- Why a listener's custom host is refused. -/
def listenerHostFault (host : String) : Option String :=
  if host = "" then some "没有主机名"
  else if host.toList.any Text.isWhitespace then some "主机名不能包含空白"
  else if Text.startsWith host "[" || host.toList.getLast? == some ']' then
    some "这里只填写主机；IPv6 不加方括号"
  else if Text.contains host ":" && !isIpv6 host then some "这里只填写主机，不带端口"
  else none

/-- A host written on a listener. -/
def parseListenerHost (location raw : String) : Resolved String :=
  match listenerHostFault (Text.trim raw) with
  | none => .ok (Text.trim raw)
  | some why =>
    .error (.error "listener.dial-malformed" location s!"监听拨号主机无效：{Text.trim raw}（{why}）")

/-! ### Dialing -/

/-- Refuse a host that is the target's own address behind NAT. -/
def refuseNat (location target host : String) (node : Option AppNode) : Resolved Unit :=
  match node.bind fun node => natPublicMatch node host with
  | none => .ok ()
  | some (family, address) =>
    .error (.error "hop.nat-public" location s!"NAT 公网地址不可直拨：{target} {family} {address}")

/-- Both ends on the overlay, and a link between them. -/
def dialOverlay (location source target : String) (hopIn : HopIn) (ends : HopEndpoints) :
    Resolved (String × ℕ × HopPath) :=
  match ends.targetOverlay with
  | none => .error (.error "hop.unreachable" location s!"{target} 不在 overlay 里，这一跳没有 overlay 可走")
  | some addr =>
    if ends.sourceOnOverlay && ends.linked then .ok (addr.text, hopIn.port, .overlay)
    else if ends.sourceOnOverlay then
      .error (.error "hop.unreachable" location
        (s!"{source} 与 {target} 都在 overlay 里，但两侧都没有可拨入的地址、" ++ "没有链路，这一跳没有 overlay 可走"))
    else
      .error (.error "hop.unreachable" location s!"{source} 不在 overlay 里，拨不到 {target} 的 overlay 地址")

/-- An address written on the chain; the target's own public address takes the port of its
listener. -/
def dialAddr (location target raw : String) (hopIn : HopIn) (ends : HopEndpoints) :
    Resolved (String × ℕ × HopPath) :=
  match parseAddr location raw with
  | .error diagnostic => .error diagnostic
  | .ok parsed =>
    match refuseNat location target parsed.1 ends.target with
    | .error diagnostic => .error diagnostic
    | .ok _ =>
      if (ends.target.bind fun node => publicMatch node parsed.1).isSome then
        .ok (parsed.1, hopIn.port, parsed.2.2)
      else .ok parsed

/-- Over the public network. -/
def dialPublic (location target : String) (family : IpFamily) (hopIn : HopIn)
    (ends : HopEndpoints) : Resolved (String × ℕ × HopPath) :=
  match ends.target with
  | none => .error (.error "hop.unreachable" location s!"{target} 不在这个项目里，推不出监听的公网地址")
  | some node =>
    match dialablePublicHost node family with
    | none =>
      .error (.error "hop.unreachable" location s!"{target} 没有可拨入的{family.label}，无法进入被引用监听")
    | some host => .ok (host, hopIn.port, .direct)

/-- At an address that is written. -/
def dialListenerAddr (location target raw : String) (hopIn : HopIn) (ends : HopEndpoints) :
    Resolved (String × ℕ × HopPath) :=
  match parseListenerHost location raw with
  | .error diagnostic => .error diagnostic
  | .ok host =>
    match refuseNat location target host ends.target with
    | .error diagnostic => .error diagnostic
    | .ok _ => .ok (host, hopIn.port, .direct)

/-- The address the target dials us on. -/
def dialReverse (location source target : String) (family : IpFamily) (hopIn : HopIn)
    (ends : HopEndpoints) : Resolved (String × ℕ × HopPath) :=
  match ends.source with
  | none => .error (.error "hop.unreachable" location s!"{source} 不在这个项目里，推不出反向接入地址")
  | some node =>
    match dialablePublicHost node family with
    | none =>
      .error (.error "hop.unreachable" location
        s!"{source} 没有可拨入的{family.label}，收不到 {target} 的反向接入")
    | some host => .ok (host, hopIn.port, .reverse)

/-- As the dial says. -/
def dialTarget (location source target : String) (dial : RelayDialRef) (entryHopIn : HopIn)
    (ends : HopEndpoints) : Resolved (String × ℕ × HopPath) :=
  match dial with
  | .forward .overlay | .listener .overlay => dialOverlay location source target entryHopIn ends
  | .forward (.addr raw) => dialAddr location target raw entryHopIn ends
  | .forward (.reverse family) => dialReverse location source target family entryHopIn ends
  | .listener (.publicAddr family) => dialPublic location target family entryHopIn ends
  | .listener (.addr raw) => dialListenerAddr location target raw entryHopIn ends

/-! ### Hops -/

/-- The dialer's half of a relay port's material. -/
def dialWire : HopWire → HopDialWire
  | .none => .none
  | .encryption encryption => .encryption encryption.publicKey
  | .reality reality =>
    .reality reality.publicKey (reality.serverNames.head?.getD "")
      (reality.shortIds.head?.getD "") reality.fingerprint
  | .shadowsocks2022 serverPsk userPsk => .shadowsocks2022 serverPsk userPsk

def linkKey (a b : String) : String := if a ≤ b then s!"{a}|{b}" else s!"{b}|{a}"

/-- Where a diagnostic about an edge points. -/
def edgeLocation (step : Step) (forward : ForwardActionRef) : String :=
  if forward.reused then
    s!"{step.chain}/{step.node}->listener:{forward.targetChain}/{forward.targetNode}"
  else s!"{step.chain}/{step.node}->{forward.targetNode}"

def hopKey (step : Step) (forward : ForwardActionRef) : List String :=
  [step.chain, step.node, forward.targetChain, forward.targetNode]

def findStep (steps : List Step) (key : String × String) : Option Step :=
  steps.find? fun step => step.chain = key.1 && step.node = key.2

/-- The machines of a hop. -/
def hopEndpoints (app : AppIr) (sys : SystemIr) (source target : String) : HopEndpoints where
  source := app.nodes.find? fun node => node.id = source
  target := app.nodes.find? fun node => node.id = target
  targetOverlay := (sys.nodes.find? fun node => node.id = target).bind (·.overlayAddr)
  sourceOnOverlay := sys.nodes.any fun node => node.id = source && node.overlayAddr.isSome
  linked := sys.links.any fun link =>
    (link.a = source && link.b = target) || (link.a = target && link.b = source)

/-- The listener an edge enters and the port it dials: the target's table with its
credential, and the relay port of whichever end is connected to. -/
def entryOf (targetSteps : List Step) (step : Step) (forward : ForwardActionRef) :
    Resolved (Accept × HopIn) :=
  let place := s!"{forward.targetChain}/{forward.targetNode}"
  match findStep targetSteps forward.key with
  | none =>
    .error (if forward.reused then .error "listener.not-found" place s!"引用的监听不存在：{place}"
      else .error "relay.no-accept" place s!"引用的中转节点不存在：{place}")
  | some targetStep =>
    match targetStep.accept with
    | none => .error (.error "relay.no-accept" place s!"引用的监听缺少接受凭据：{place}")
    | some accept =>
      match (if forward.dial.isReverse then step.hopIn else targetStep.hopIn) with
      | none =>
        .error (.error "relay.no-hop-in" (edgeLocation step forward)
          (if forward.dial.isReverse then s!"反向接入缺少中转口：{step.node}/{step.chain}"
            else s!"缺少中转口：{forward.targetNode}/{forward.targetChain}"))
      | some hopIn => .ok (accept, hopIn)

/-- A listener of the same process is entered over loopback, anything else is dialed. -/
def resolveEdge (app : AppIr) (sys : SystemIr) (step : Step) (forward : ForwardActionRef)
    (hopIn : HopIn) : Resolved (String × ℕ × HopPath) :=
  if forward.reused && step.node = forward.targetNode then .ok ("127.0.0.1", hopIn.port, .loopback)
  else
    dialTarget (edgeLocation step forward) step.node forward.targetNode forward.dial hopIn
      (hopEndpoints app sys step.node forward.targetNode)

/-- The hop of an edge. -/
def hopOf (step : Step) (forward : ForwardActionRef) (accept : Accept) (hopIn : HopIn)
    (resolved : String × ℕ × HopPath) : Hop where
  chain := step.chain
  targetChain := forward.targetChain
  appId := step.appId
  source := step.node
  target := forward.targetNode
  link := linkKey step.node forward.targetNode
  address := resolved.1
  port := resolved.2.1
  path := resolved.2.2
  security := dialWire hopIn.security
  credential := ⟨accept.uuid, accept.label⟩
  pool := if forward.dial.isReverse then .none else forward.pool

/-- The hops so far, and what was reported. -/
abbrev HopTable := OrdMap (List String) Hop × List Diagnostic

/-- One rule of one table: the first rule for a target makes the hop. -/
def addHop (app : AppIr) (targetSteps : List Step) (sys : SystemIr) (table : HopTable)
    (edge : Step × ForwardActionRef) : HopTable :=
  match entryOf targetSteps edge.1 edge.2 with
  | .error diagnostic => (table.1, table.2 ++ [diagnostic])
  | .ok (accept, hopIn) =>
    if table.1.contains (hopKey edge.1 edge.2) then table
    else
      match resolveEdge app sys edge.1 edge.2 hopIn with
      | .error diagnostic => (table.1, table.2 ++ [diagnostic])
      | .ok resolved =>
        (table.1.insert (hopKey edge.1 edge.2) (hopOf edge.1 edge.2 accept hopIn resolved), table.2)

/-- Every edge of a project, in table and rule order. -/
def edgesOf (steps : List Step) : List (Step × ForwardActionRef) :=
  steps.flatMap fun step => step.forwards.map fun forward => (step, forward)

/-- The listener a hop arrives at from outside over IPv6. -/
def publicIpv6Listener (hop : Hop) : Option (String × String) :=
  if !isIpv6 hop.address then none
  else
    match hop.path with
    | .direct => some (hop.targetChain, hop.target)
    | .reverse => some (hop.chain, hop.source)
    | .loopback | .overlay => none

/-- A loopback hop stays in the family its listener is open in. -/
def settleLoopback (listeners : List (String × String)) (hop : Hop) : Hop :=
  if hop.path = .loopback ∧ (hop.targetChain, hop.target) ∈ listeners then
    { hop with address := "::1" }
  else hop

/-- Resolve a project's outgoing edges against the rule tables of all projects. -/
def compileHopsWithTargets (app : AppIr) (targetSteps : List Step) (sys : SystemIr) :
    AppIr × List Diagnostic :=
  let table := (edgesOf app.steps).foldl (addHop app targetSteps sys) (.empty, [])
  let listeners := table.1.values.filterMap publicIpv6Listener
  ({ app with hops := table.1.values.map (settleLoopback listeners) }, table.2)

end Brocade.Ir
