/-
The outbounds by which traffic leaves at a machine, and the one its resolver asks through.

A landing rule leaves by an outbound named after its source address.  Where the machine has a
resolver of its own for exactly the domains a rule selects, the outbound is named after that
resolver as well, and carries its address family.
-/
import Brocade.Physical.Grants

namespace Brocade.Physical

open Ir Model

/-- An outbound that leaves the fleet. -/
structure XrayEgressOutboundPlan where
  tag : String
  sendThrough : Option String
  domainStrategy : Option DomainStrategy

/-- The resolver of the policy that names exactly the domains of a selector. -/
def egressDnsResolution (app : AppIr) (nodeId : String) (destMatch : DestMatch) :
    Option EgressDnsResolution :=
  destMatch.canonicalEgressDnsSelector.bind fun selector =>
    (app.nodes.find? (·.id = nodeId)).bind fun node =>
      (node.egressDns.find? fun policy =>
        policy.selector.canonicalEgressDnsSelector = some selector).map (·.resolution)

/-- The strategy, as xray has it. -/
def customDnsDomainStrategy : EgressDnsAddressStrategy → DomainStrategy
  | .useIp => .useIp
  | .useIpv4 => .useIpv4
  | .useIpv6 => .useIpv6
  | .useIpv4v6 => .useIpv4v6
  | .useIpv6v4 => .useIpv6v4

/-- The domains of a rule, as xray has them. -/
def customDnsDomains : DestMatch → Option (List String)
  | .domainSuffix values => some (values.map fun value => s!"domain:{value}")
  | .domainKeyword values => some values
  | .domainRegex value => some [s!"regexp:{value}"]
  | .geosite values => some (values.map fun value => s!"geosite:{value}")
  | _ => none

/-! ### Names -/

def transportByte : EgressDnsTransport → UInt8
  | .udp => 0
  | .tcp => 1

def strategyByte : EgressDnsAddressStrategy → UInt8
  | .useIp => 0
  | .useIpv4 => 1
  | .useIpv6 => 2
  | .useIpv4v6 => 3
  | .useIpv6v4 => 4

def fallbackByte : EgressDnsFallback → UInt8
  | .stop => 0
  | .machine => 1

def textBytes (text : String) : List UInt8 := text.toUTF8.toList

/-- What a resolver is told apart by. -/
def customDnsMessage (sendThrough : Option String) (resolution : EgressDnsResolution) : List UInt8 :=
  textBytes "brocade/egress-dns/v1" ++ textBytes (sendThrough.getD "") ++ [0]
    ++ List.intercalate [0] (resolution.address.map fun address => textBytes (Text.trim address))
    ++ [0, UInt8.ofNat (resolution.port % 256), UInt8.ofNat (resolution.port / 256)]
    ++ [transportByte resolution.transport, strategyByte resolution.addressStrategy,
      fallbackByte resolution.fallback]

section Names

-- the first six bytes of the SHA-256 of a message, as hexadecimal digits
variable (digest : List UInt8 → String)

/-- What tells resolvers apart. -/
def customDnsIdentity (sendThrough : Option String) (resolution : EgressDnsResolution) : String :=
  digest (customDnsMessage sendThrough resolution)

/-- The tag of a resolver's outbound. -/
def customEgressTag (sendThrough : Option String) (resolution : EgressDnsResolution) : String :=
  s!"out:egress:dns:{customDnsIdentity digest sendThrough resolution}"

/-! ### Outbounds -/

/-- The outbound of a landing rule. -/
def egressOutbound (app : AppIr) (nodeId : String) (rule : Rule) : Option XrayEgressOutboundPlan :=
  match rule.action with
  | .egress sendThrough =>
    some (match egressDnsResolution app nodeId rule.destMatch with
      | some resolution => ⟨customEgressTag digest sendThrough resolution, sendThrough,
          some (customDnsDomainStrategy resolution.addressStrategy)⟩
      | none => ⟨egressTag sendThrough, sendThrough, none⟩)
  | _ => none

/-- The outbound a resolver's own queries leave by. -/
def policyOutbound (policy : NodeEgressDnsPolicy) : Option XrayEgressOutboundPlan :=
  (customDnsDomains policy.selector).map fun _ =>
    ⟨customEgressTag digest none policy.resolution, none,
      some (customDnsDomainStrategy policy.resolution.addressStrategy)⟩

/-- The rules of a project's tables on a machine, in order. -/
def rulesOn (app : AppIr) (nodeId : String) : List Rule :=
  (app.steps.filter (·.node = nodeId)).flatMap (·.rules)

/-- Everything that asks for an outbound, in order. -/
def egressCandidates (apps : List AppIr) (nodeId : String) (policies : List NodeEgressDnsPolicy) :
    List XrayEgressOutboundPlan :=
  ((sortedApps apps).flatMap fun app => (rulesOn app nodeId).filterMap (egressOutbound digest app nodeId))
    ++ policies.filterMap (policyOutbound digest)

/-- The ways out of a machine. -/
def xrayEgressOutbounds (apps : List AppIr) (nodeId : String) (policies : List NodeEgressDnsPolicy) :
    List XrayEgressOutboundPlan :=
  (OrdMap.ofFirst (·.tag) (egressCandidates digest apps nodeId policies)).values

end Names

/-- The outbounds that no resolver is tied to. -/
def ordinaryTags (egressOutbounds : List XrayEgressOutboundPlan) : List String :=
  OrdMap.keySet ((egressOutbounds.filter (·.domainStrategy.isNone)).map (·.tag))

/-- The only outbound the machine's resolver can ask through. -/
def nodeDnsRoute (dns : Dns) (egressOutbounds : List XrayEgressOutboundPlan) : Option String :=
  if !dns.needsRoute then none
  else
    match ordinaryTags egressOutbounds with
    | [route] => some route
    | _ => none

end Brocade.Physical
