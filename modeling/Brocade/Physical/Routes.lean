/-
The routing table of a machine, as xray takes it: first match.

The refusals of the ingresses come first, then every table the machine has.  A table is written
once for each way into it, and three times more for the diagnostics, which enter by credentials of
their own: a copy for each address family, and one for the resolver, whose queries are to leave
where the corresponding HTTPS request does.
-/
import Brocade.Physical.Egress
import Brocade.Physical.HopInbounds
import Brocade.Physical.Listeners

namespace Brocade.Physical

open Ir Model

/-- Whose traffic a rule is for. -/
inductive XrayRuleSelector where
  | inboundTags (tags : List String)
  | users (labels : List String)

/-- A routing rule of xray. -/
structure XrayRoutingRulePlan where
  selector : XrayRuleSelector
  destMatch : DestMatch
  /-- the peer's addresses, where only some are meant -/
  sourceIps : List String
  outboundTag : String

/-! ### Refusals -/

/-- What an ingress refuses, and of whom. -/
structure IngressGuardMatch where
  destMatch : DestMatch
  sourceIps : List String

def IngressGuardMatch.destination (destMatch : DestMatch) : IngressGuardMatch := ⟨destMatch, []⟩

def INGRESS_GUARD_MAIL_PORTS : List ℕ := [25, 465, 587]

def INGRESS_GUARD_AMPLIFICATION_PORTS : List ℕ := [19, 123, 161, 389, 1900, 11211]

def cnSource : CnSourceBlock → Option String
  | .off => none
  | .ipv4 => some "geoip:cn@ipv4"
  | .ipv4AndIpv6 => some "geoip:cn"

/-- What an ingress refuses, in the order the rules are written. -/
def guardMatches (guard : IngressGuard) (overlay : Address.Ipv4Net) : List IngressGuardMatch :=
  (if guard.noPrivate then [.destination (.ipCidr ["geoip:private", overlay.text])] else [])
    ++ (if guard.noBittorrent then [.destination (.protocol ["bittorrent"])] else [])
    ++ (if guard.noMail then
      [.destination (.port (INGRESS_GUARD_MAIL_PORTS.map toString))] else [])
    ++ (if guard.noUdpAmplification then
      [.destination (.all [.network .udp,
        .port (INGRESS_GUARD_AMPLIFICATION_PORTS.map toString)])] else [])
    ++ (if guard.tcpAndQuicOnly then
      [.destination (.all [.network .udp, .portExcept [443]])] else [])
    ++ (cnSource guard.cnSourceBlock).toList.map fun source => ⟨.any, [source]⟩

/-- The rules of the guards. -/
def guardRules (sys : SystemIr) (nodeId : String) (app : AppIr) : List XrayRoutingRulePlan :=
  (app.ingresses.filter fun ingress => ingress.node = nodeId && !ingress.guard.blocksNothing).flatMap
    fun ingress =>
      let inboundTags := ingressInboundTags app ingress
      if inboundTags.isEmpty then []
      else (guardMatches ingress.guard sys.overlayCidr).map fun guard =>
        ⟨.inboundTags inboundTags, guard.destMatch, guard.sourceIps, "out:block"⟩

/-! ### Where a rule leads -/

/-- The tag of a forward. -/
def forwardTag (app : AppIr) (chain target : String) : String :=
  match app.appId with
  | some appId => s!"out:{appId}/{chain}>{target}"
  | none => s!"out:{chain}>{target}"

/-- The tag of a dial. -/
def forwardActionTag (app : AppIr) (sourceChain sourceNode : String) (forward : ForwardActionRef) :
    String :=
  if !forward.reused then forwardTag app sourceChain forward.targetNode
  else
    let target := if sourceNode = forward.targetNode then s!"{forward.targetChain}@local"
      else forward.targetChain
    match app.appId with
    | some appId => s!"out:{appId}/{sourceChain}~{target}>{forward.targetNode}"
    | none => s!"out:{sourceChain}~{target}>{forward.targetNode}"

def externalOutboundTag (outbound : String) : String := s!"out:external/{outbound}"

/-- The tag where a peer is awaited. -/
def reversePortalTag (app : AppIr) (chain target : String) : String :=
  match app.appId with
  | some appId => s!"rev:portal:{appId}/{chain}>{target}"
  | none => s!"rev:portal:{chain}>{target}"

/-- The tag that dials back. -/
def reverseBridgeTag (app : AppIr) (chain source : String) : String :=
  match app.appId with
  | some appId => s!"rev:bridge:{appId}/{chain}<{source}"
  | none => s!"rev:bridge:{chain}<{source}"

/-- The hop is the edge's. -/
def isEdge (chain node : String) (forward : ForwardActionRef) (hop : Hop) : Bool :=
  hop.chain = chain && hop.source = node && hop.targetChain = forward.targetChain
    && hop.target = forward.targetNode

section Tables

-- the first six bytes of the SHA-256 of a message, as hexadecimal digits
variable (digest : List UInt8 → String)

/-- Where a rule leads. -/
def actionTag (app : AppIr) (chain node : String) (rule : Rule) : String :=
  match rule.action, rule.action.forwardRef chain with
  | _, some forward =>
    -- the peer connects to us: traffic goes to the portal, not to an outbound
    if app.hops.any fun hop => isEdge chain node forward hop && hop.path == .reverse then
      reversePortalTag app chain forward.targetNode
    else forwardActionTag app chain node forward
  | .egress sendThrough, none =>
    match egressDnsResolution app node rule.destMatch with
    | some resolution => customEgressTag digest sendThrough resolution
    | none => egressTag sendThrough
  | .proxy outbound, none => externalOutboundTag outbound
  | _, none => "out:block"

/-! ### The tables of the diagnostics -/

mutual

/-- What is left of a condition when the request is known to be HTTPS; none where it excludes
that. -/
def httpsDnsProbeMatch : DestMatch → Option DestMatch
  | .sniffingFailed => none
  | .protocol protocols => if protocols.any (· = "tls") then some .any else none
  | .network .udp => none
  | .network .tcp => some .any
  | .all values => (httpsDnsProbeEach values).map fun values =>
    let kept := values.filter fun value => !value.isAny
    if kept.isEmpty then .any else .all kept
  | .any => some .any
  | .domainSuffix values => some (.domainSuffix values)
  | .domainKeyword values => some (.domainKeyword values)
  | .domainRegex value => some (.domainRegex value)
  | .geosite values => some (.geosite values)
  | .ipCidr values => some (.ipCidr values)
  | .geoip values => some (.geoip values)
  | .port values => some (.port values)
  | .portExcept ports => some (.portExcept ports)

def httpsDnsProbeEach : List DestMatch → Option (List DestMatch)
  | [] => some []
  | value :: values => (httpsDnsProbeMatch value).bind fun value =>
    (httpsDnsProbeEach values).map (value :: ·)

end

/-- The credential of a diagnostic: a family's, or the resolver's. -/
def diagnosticLabel (base : String) : Option IpFamily → String
  | some family => probeFamilyLabel base family
  | none => probeDnsLabel base

def transportTag (base : String) : Option IpFamily → String
  | some family => probeFamilyTag base family
  | none => probeDnsTag base

/-- Who a table's diagnostics enter as. -/
def probeUsers (app : AppIr) (step : Ir.Step) (nodeId : String) (family : Option IpFamily) :
    List String :=
  (step.accept.toList.map fun accept => diagnosticLabel accept.label family)
    ++ (app.ingresses.filter fun ingress => ingress.chain = step.chain && ingress.node = nodeId).map
      fun ingress => diagnosticLabel (probeLabel ingress.id) family

/-- The forward is dialed from here, over a transport that has a copy for each family. -/
def supportedForward (app : AppIr) (step : Ir.Step) (nodeId : String) (rule : Rule) : Bool :=
  (rule.action.forwardRef step.chain).any fun forward =>
    !forward.dial.isReverse && app.hops.any fun hop =>
      isEdge step.chain nodeId forward hop && match hop.security with
          | .shadowsocks2022 _ _ => false
          | _ => true

/-- Where a rule leads a probe. -/
def probeOutbound (app : AppIr) (step : Ir.Step) (nodeId : String) (family : Option IpFamily)
    (rule : Rule) : String :=
  let base := actionTag digest app step.chain step.node rule
  match rule.action with
  | .block => base
  | .egress _ => if family.isNone then "probe:dns" else transportTag base family
  | _ => if supportedForward app step nodeId rule then transportTag base family
      else "out:probe-family-unsupported"

/-- A rule in a table of the diagnostics. -/
def probeRule (app : AppIr) (step : Ir.Step) (nodeId : String) (family : Option IpFamily)
    (rule : Rule) : Option XrayRoutingRulePlan :=
  (if family.isNone then httpsDnsProbeMatch rule.destMatch else some rule.destMatch).map
    fun destMatch => ⟨.users (probeUsers app step nodeId family), destMatch, [],
      probeOutbound digest app step nodeId family rule⟩

/-- What no rule of a table takes leaves as ordinary traffic does. -/
def probeRest (app : AppIr) (step : Ir.Step) (nodeId : String) (family : Option IpFamily) :
    XrayRoutingRulePlan where
  selector := .users (probeUsers app step nodeId family)
  destMatch := .any
  sourceIps := []
  outboundTag := match family with
    | some family => probeFamilyTag "out:forward" family
    | none => "probe:dns"

/-- The rules of a table's probes. -/
def probeRules (app : AppIr) (step : Ir.Step) (nodeId : String) (family : Option IpFamily) :
    List XrayRoutingRulePlan :=
  if (probeUsers app step nodeId family).isEmpty then []
  else step.rules.filterMap (probeRule digest app step nodeId family)
    ++ [probeRest app step nodeId family]

/-! ### The table -/

/-- The ways into a table but the bridges. -/
def entrySelectors (app : AppIr) (step : Ir.Step) (nodeId : String) : List XrayRuleSelector :=
  let inboundTags := (app.ingresses.filter fun ingress =>
    ingress.chain = step.chain && ingress.node = nodeId).flatMap (ingressInboundTags app)
  (step.accept.toList.map fun accept => .users [accept.label])
    ++ if inboundTags.isEmpty then [] else [.inboundTags inboundTags]

/-- A machine that connects to its upstream itself is entered by its bridge. -/
def bridgeSelectors (app : AppIr) (step : Ir.Step) (nodeId : String) : List XrayRuleSelector :=
  (app.hops.filter fun hop =>
    hop.chain = step.chain && hop.target = nodeId && hop.path == .reverse).map
      fun hop => .inboundTags [reverseBridgeTag app hop.chain hop.source]

/-- The rules of a table. -/
def stepRules (app : AppIr) (nodeId : String) (step : Ir.Step) : List XrayRoutingRulePlan :=
  let selectors := entrySelectors app step nodeId
  if selectors.isEmpty then []
  else [some .v4, some .v6, none].flatMap (probeRules digest app step nodeId)
    ++ (selectors ++ bridgeSelectors app step nodeId).flatMap fun selector =>
      step.rules.map fun rule =>
        ⟨selector, rule.destMatch, [], actionTag digest app step.chain step.node rule⟩

/-- All rules of a machine. -/
def xrayRoutingRules (sys : SystemIr) (apps : List AppIr) (nodeId : String) :
    List XrayRoutingRulePlan :=
  (sortedApps apps).flatMap (guardRules sys nodeId) ++ (sortedApps apps).flatMap fun app =>
      (app.steps.filter (·.node = nodeId)).flatMap (stepRules digest app nodeId)

end Tables

end Brocade.Physical
