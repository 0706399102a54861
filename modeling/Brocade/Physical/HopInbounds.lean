/-
The relay inbounds of one machine.

Where an inbound listens follows from how the hops of all projects arrive at it.  One that comes
from outside the overlay makes it listen on every address, of the newer family if one hop uses
that; otherwise it keeps to the overlay address and to loopback, as they are used.
-/
import Brocade.Ir.Edges
import Brocade.Lib.Ip
import Brocade.Physical.Grants

namespace Brocade.Physical

open Ir Model

/-- A client of a hop. -/
structure XrayClientPlan where
  (uuid label : String)

/-- A listener for hops. -/
structure XrayHopInboundPlan where
  (chain tag : String)
  listen : Ip.Addr
  port : ℕ
  security : HopWire
  clients : List XrayClientPlan
  sniff : Bool

/-- The tag of a hop's listener. -/
def hopInboundTag (app : AppIr) (chain : String) : String :=
  match app.appId with
  | some appId => s!"in:hop:{appId}/{chain}"
  | none => s!"in:hop:{chain}"

/-! ### Where it listens -/

/-- A hop that arrives at the chain's relay port on a machine. -/
def arrives (chain nodeId : String) (hop : Hop) : Bool :=
  hop.targetChain = chain && hop.target = nodeId
      && (hop.path == .loopback || hop.path == .overlay || hop.path == .direct)
    || hop.chain = chain && hop.source = nodeId && hop.path == .reverse

/-- A hop that arrives from outside the overlay. -/
def fromOutside (hop : Hop) : Bool := hop.path == .direct || hop.path == .reverse

def unspecifiedV4 : Ip.Addr := .v4 0
def unspecifiedV6 : Ip.Addr := .v6 0
def localhostV4 : Ip.Addr := .v4 0x7f000001

/-- The addresses to bind, each with whether it is a copy on loopback. -/
def hopListens : Bool → Bool → Bool → Bool → Option Address.Ipv4Addr → List (Ip.Addr × Bool)
  | true, true, _, _, _ => [(unspecifiedV6, false)]
  | true, false, _, _, _ => [(unspecifiedV4, false)]
  | false, _, true, true, some overlay => [(.v4 overlay, false), (localhostV4, true)]
  | false, _, true, _, _ => [(localhostV4, false)]
  | false, _, false, _, some overlay => [(.v4 overlay, false)]
  | false, _, false, _, none => []

/-- Where a hop listens. -/
def listensFor (overlay : Option Address.Ipv4Addr) (arriving : List Hop) : List (Ip.Addr × Bool) :=
  hopListens (arriving.any fromOutside)
    (arriving.any fun hop => fromOutside hop && Address.isIpv6 hop.address)
    (arriving.any fun hop => hop.path == .loopback)
    (arriving.any fun hop => hop.path == .overlay) overlay

/-! ### Who may enter -/

/-- The upstreams that dial, and the downstreams that dial back. -/
def ordinaryClients (app : AppIr) (step : Ir.Step) (nodeId : String) : List XrayClientPlan :=
  (app.hops.filter fun hop => hop.chain = step.chain && hop.source = nodeId
      && hop.path == .reverse).foldl
    (fun clients hop =>
      if clients.any fun c => c.uuid = hop.credential.uuid then clients
      else clients ++ [⟨hop.credential.uuid, hop.credential.label⟩])
    (step.accept.toList.map fun accept => ⟨accept.uuid, accept.label⟩)

section Clients

-- the identity derived from a key and a name
variable (probeUuid : String → String → String)

/-- The probes of a client. -/
def probeClients (client : XrayClientPlan) : List XrayClientPlan :=
  ⟨probeUuid client.uuid "dns", probeDnsLabel client.label⟩ ::
    [IpFamily.v4, .v6].map fun family =>
      ⟨probeUuid client.uuid (probeFamilyKey family), probeFamilyLabel client.label family⟩

/-- The clients of a hop. -/
def hopClients (app : AppIr) (step : Ir.Step) (nodeId : String) (security : HopWire) :
    List XrayClientPlan :=
  let ordinary := ordinaryClients app step nodeId
  match security with
  | .shadowsocks2022 _ _ => ordinary
  | _ => ordinary ++ ordinary.flatMap (probeClients probeUuid)

/-- The inbounds of one rule table. -/
def stepInbounds (overlay : Option Address.Ipv4Addr) (apps : List AppIr) (nodeId : String)
    (app : AppIr) (step : Ir.Step) : List XrayHopInboundPlan :=
  match step.hopIn with
  | none => []
  | some hopIn =>
    let arriving := (apps.flatMap (·.hops)).filter (arrives step.chain nodeId)
    let clients := hopClients probeUuid app step nodeId hopIn.security
    if clients.isEmpty then []
    else
      let baseTag := hopInboundTag app step.chain
      (listensFor overlay arriving).map fun listen => {
        chain := step.chain
        tag := if listen.2 then s!"{baseTag}:local" else baseTag
        listen := listen.1
        port := hopIn.port
        security := hopIn.security
        clients := clients
        sniff := step.rules.any fun rule => rule.destMatch.requestsSniffingFailureState }

/-- The hop listeners of a machine. -/
def xrayHopInbounds (systemNode : Option SystemNode) (apps : List AppIr) (nodeId : String) :
    List XrayHopInboundPlan :=
  match systemNode with
  | none => []
  | some systemNode =>
    sortById (·.tag) ((sortedApps apps).flatMap fun app =>
      (app.steps.filter fun step => step.node = nodeId).flatMap
        (stepInbounds probeUuid systemNode.overlayAddr apps nodeId app))

/-! ### What is opened -/

variable {probeUuid} {apps : List AppIr} {nodeId : String}

theorem mem_xrayHopInbounds {systemNode : Option SystemNode} {plan : XrayHopInboundPlan} :
    plan ∈ xrayHopInbounds probeUuid systemNode apps nodeId ↔
      ∃ node, systemNode = some node ∧ ∃ app ∈ apps, ∃ step ∈ app.steps, step.node = nodeId
        ∧ plan ∈ stepInbounds probeUuid node.overlayAddr apps nodeId app step := by
  unfold xrayHopInbounds
  cases systemNode with
  | none => simp
  | some node => simp [sortById, sortedApps, and_assoc]

theorem mem_stepInbounds {overlay : Option Address.Ipv4Addr} {app : AppIr} {step : Ir.Step}
    {plan : XrayHopInboundPlan} (h : plan ∈ stepInbounds probeUuid overlay apps nodeId app step) :
    plan.chain = step.chain ∧ ∃ copy, (plan.listen, copy)
      ∈ listensFor overlay ((apps.flatMap (·.hops)).filter (arrives step.chain nodeId)) := by
  unfold stepInbounds at h
  split at h
  · simp at h
  dsimp only at h
  split at h
  · simp at h
  · obtain ⟨listen, hlisten, rfl⟩ := List.mem_map.mp h
    exact ⟨rfl, listen.2, hlisten⟩

theorem ordinaryClients_ne_nil {app : AppIr} {step : Ir.Step} {accept : Accept}
    (h : step.accept = some accept) : ordinaryClients app step nodeId ≠ [] := by
  have hkeeps : ∀ (hops : List Hop) (clients : List XrayClientPlan), clients ≠ [] →
      hops.foldl (fun clients hop =>
        if clients.any fun c => c.uuid = hop.credential.uuid then clients
        else clients ++ [⟨hop.credential.uuid, hop.credential.label⟩]) clients ≠ [] := by
    intro hops
    induction hops with
    | nil => exact fun _ h => h
    | cons hop rest ih =>
      intro clients hclients
      refine ih _ ?_
      dsimp only
      split
      · exact hclients
      · simp
  refine hkeeps _ _ ?_
  simp [h]

theorem stepInbounds_of_accept {overlay : Option Address.Ipv4Addr} {app : AppIr} {step : Ir.Step}
    {accept : Accept} {hopIn : HopIn} (haccept : step.accept = some accept)
    (hhopIn : step.hopIn = some hopIn) {listen : Ip.Addr} {copy : Bool} (h : (listen, copy)
      ∈ listensFor overlay ((apps.flatMap (·.hops)).filter (arrives step.chain nodeId))) :
    ∃ plan ∈ stepInbounds probeUuid overlay apps nodeId app step,
      plan.chain = step.chain ∧ plan.listen = listen ∧ plan.port = hopIn.port := by
  have hclients : hopClients probeUuid app step nodeId hopIn.security ≠ [] := by
    have hordinary := @ordinaryClients_ne_nil nodeId app _ _ haccept
    unfold hopClients
    dsimp only
    split
    · exact hordinary
    · simp [hordinary]
  unfold stepInbounds
  rw [hhopIn]
  dsimp only
  rw [if_neg (by simpa using hclients)]
  exact ⟨_, List.mem_map.mpr ⟨(listen, copy), h, rfl⟩, rfl, rfl, rfl⟩

end Clients

end Brocade.Physical
