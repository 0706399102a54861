/-
The application layer's intermediate representation: what a project looks like once its
rule tables are expanded and its relay edges resolved.
-/
import Brocade.Ir.System

namespace Brocade.Ir

open Model

/-- What a project reads of a machine. -/
structure AppNode where
  (id tenant name : String)
  certificateGroupId : Option String
  certificateTrack : Option CertificateTrack
  (publicIpv4 publicIpv6 : Option String)
  (publicIpv4Nat publicIpv6Nat egressAllowed : Bool)
  apiPort : Option ℕ
  dns : Dns
  domainStrategy : DomainStrategy
  egressDns : List NodeEgressDnsPolicy
  connection : NodeConnection
deriving DecidableEq

/-- A chain with the machine it begins on, where it has an ingress. -/
structure Chain where
  id : String
  appId : Option String
  (tenant name : String)
  (subscriptionCountry root : Option String)
deriving DecidableEq

/-- A compiled ingress. -/
structure Ingress where
  id : String
  appId : Option String
  (tenant chain node bind : String)
  port : ℕ
  front : Option String
  sniff : Bool
  identity : IngressIdentity
  anytlsIdentity : Option IngressIdentity
  wires : IngressWires
  certificateName : Option String
  certificateNames : List String
  guard : IngressGuard
  projection : Projection
deriving DecidableEq

/-- A compiled front. -/
structure Front where
  id : String
  appId : Option String
  (tenant name : String)
  (via externalVia : List String)
  strategy : FrontStrategy
deriving DecidableEq

/-- The whole rule table one chain has on one machine. -/
structure Step where
  id : String
  appId : Option String
  (chain node : String)
  accept : Option Accept
  hopIn : Option HopIn
  rules : List Rule
deriving DecidableEq

/-- A compiled grant. -/
structure Grant where
  id : String
  appId : Option String
  (tenant user ingress label : String)
deriving DecidableEq

/-! ### Relay edges -/

/-- How a hop reaches its peer. -/
inductive HopPath where
  /-- another listener of the same process, over loopback -/
  | loopback
  | overlay
  | direct
  /-- the peer connects to us; the address is the one it dials, which is ours -/
  | reverse
deriving DecidableEq

/-- The dialer's half of a wire format. -/
inductive HopDialWire where
  | none
  | encryption (publicKey : String)
  | reality (publicKey serverName shortId fingerprint : String)
  | shadowsocks2022 (serverPsk userPsk : String)
deriving DecidableEq

/-- The account a hop dials with. -/
structure HopCredential where
  (uuid label : String)
deriving DecidableEq

/-- A compiled hop between two tables. -/
structure Hop where
  (chain targetChain : String)
  appId : Option String
  (source target link address : String)
  port : ℕ
  path : HopPath
  security : HopDialWire
  credential : HopCredential
  pool : HopPool
deriving DecidableEq

/-- One project, compiled. -/
structure AppIr where
  revision : ℕ
  appId : Option String
  tenants : List String
  nodes : List AppNode
  users : List User
  externalOutbounds : List ExternalOutbound
  chains : List Chain
  ingresses : List Ingress
  fronts : List Front
  steps : List Step
  /-- roots kept alive because a reachable rule table references their listener; never
  serialised -/
  listenerRoots : List (String × String)
  grants : List Grant
  hops : List Hop
deriving DecidableEq

/-- What names a rule table: its chain and its machine. -/
def Step.key (step : Step) : String × String := (step.chain, step.node)

/-- The edges out of a rule table, in rule order. -/
def Step.forwards (step : Step) : List ForwardActionRef :=
  step.rules.filterMap fun rule => rule.action.forwardRef step.chain

end Brocade.Ir
