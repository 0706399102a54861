/-
The domain model an operator edits.

Chains have no declared members: a chain is the rule tables that machines hold for it, a
`Forward` names the next machine, and a `ReuseListener` enters the table another chain
holds on a machine.  The types here are the source's.  What a type carries through to the
machines without any modelled pass looking inside is one document, and so are the settings
of subsystems that are not modelled; `settings` and `rest` are such fields.
-/
import Brocade.Lib.Address
import Brocade.Lib.Json
import Brocade.Lib.Text

namespace Brocade.Model

open Address

/-- The two address families. -/
inductive IpFamily where
  | v4
  | v6
deriving DecidableEq

def IpFamily.label : IpFamily → String
  | .v4 => "公网 IPv4"
  | .v6 => "公网 IPv6"

/-- How a relay hop dials its next machine. -/
inductive HopDial where
  | overlay
  | addr (raw : String)
  /-- not at all: the next machine connects back to this one -/
  | reverse (family : IpFamily)
deriving DecidableEq

/-- How a reused listener is dialed. -/
inductive ListenerDial where
  | overlay
  | publicAddr (family : IpFamily)
  | addr (raw : String)
deriving DecidableEq

/-- The multiplexing of a hop. -/
structure HopMux where
  (concurrency prewarmWorkers reuseThreshold maxProbingWorkers probeIntervalMs probeTimeoutMs : ℕ)
  (idleTtlMs maxRequestsPerWorker : ℕ)
deriving DecidableEq

/-- One connection per stream, or a pool: the fleet's, or one set for this edge. -/
inductive HopPool where
  | none
  | mux (value : Option HopMux)
deriving DecidableEq

/-- Stable identity of one existing relay listener. -/
structure ListenerRef where
  (chain node : String)
deriving DecidableEq

/-- What a rule does. -/
inductive Action where
  | forward (target : String) (dial : HopDial) (pool : HopPool)
  | reuseListener (listener : ListenerRef) (dial : ListenerDial) (pool : HopPool)
  | egress (sendThrough : Option String)
  | proxy (outbound : String)
  | block
deriving DecidableEq

/-- A borrowed view of the two relay dialing models. -/
inductive RelayDialRef where
  | forward (dial : HopDial)
  | listener (dial : ListenerDial)
deriving DecidableEq

def RelayDialRef.isReverse : RelayDialRef → Bool
  | .forward (.reverse _) => true
  | _ => false

/-- The common view of the two actions that create a relay edge. -/
structure ForwardActionRef where
  (targetChain targetNode : String)
  dial : RelayDialRef
  pool : HopPool
  reused : Bool

/-- The rule table an edge leads to. -/
def ForwardActionRef.key (forward : ForwardActionRef) : String × String :=
  (forward.targetChain, forward.targetNode)

/-- The table a rule leads to. -/
def Action.forwardRef (sourceChain : String) : Action → Option ForwardActionRef
  | .forward target dial pool => some ⟨sourceChain, target, .forward dial, pool, false⟩
  | .reuseListener listener dial pool =>
    some ⟨listener.chain, listener.node, .listener dial, pool, true⟩
  | .egress _ | .proxy _ | .block => none

/-- The machine a chain-local edge names. -/
def Action.forwardTarget? : Action → Option String
  | .forward target _ _ => some target
  | _ => none

/-- The listener a rule enters. -/
def Action.reused? : Action → Option (String × String)
  | .reuseListener listener _ _ => some (listener.chain, listener.node)
  | _ => none

/-- The transports of a request. -/
inductive Network where
  | tcp
  | udp
deriving DecidableEq

/-- A selector, by what it looks at. -/
inductive DestMatch where
  | any
  | sniffingFailed
  | domainSuffix (items : List String)
  | domainKeyword (items : List String)
  | domainRegex (value : String)
  | geosite (items : List String)
  | ipCidr (items : List String)
  | geoip (items : List String)
  | port (items : List String)
  | portExcept (ports : List ℕ)
  | network (value : Network)
  | protocol (items : List String)
  | all (items : List DestMatch)

namespace DestMatch

/-- What a selector says itself, and the selectors it holds. -/
def content : DestMatch → (ℕ × List String × List ℕ) × List DestMatch
  | .any => ((0, [], []), [])
  | .sniffingFailed => ((1, [], []), [])
  | .domainSuffix items => ((2, items, []), [])
  | .domainKeyword items => ((3, items, []), [])
  | .domainRegex value => ((4, [value], []), [])
  | .geosite items => ((5, items, []), [])
  | .ipCidr items => ((6, items, []), [])
  | .geoip items => ((7, items, []), [])
  | .port items => ((8, items, []), [])
  | .portExcept ports => ((9, [], ports), [])
  | .network .tcp => ((10, [], []), [])
  | .network .udp => ((11, [], []), [])
  | .protocol items => ((12, items, []), [])
  | .all items => ((13, [], []), items)

theorem content_injective : Function.Injective content := by
  intro a b h
  cases a with
  | network a =>
    cases a <;> cases b with
    | network b => cases b <;> simp_all [content]
    | _ => simp_all [content]
  | _ =>
    cases b with
    | network b => cases b <;> simp_all [content]
    | _ => simp_all [content]

theorem eq_iff (a b : DestMatch) :
    a = b ↔ a.content.1 = b.content.1 ∧ b.content.2 = a.content.2 := by
  rw [← content_injective.eq_iff, Prod.ext_iff, @eq_comm _ b.content.2]

mutual

/-- Selectors can be compared. -/
def decEq : (a b : DestMatch) → Decidable (a = b)
  | .all xs, b =>
    @decidable_of_iff _ ((DestMatch.all xs).content.1 = b.content.1 ∧ xs = b.content.2)
      (by rw [eq_iff, @eq_comm _ b.content.2]; rfl)
      (@instDecidableAnd _ _ _ (decEqItems xs b.content.2))
  | .any, b | .sniffingFailed, b | .domainSuffix _, b | .domainKeyword _, b | .domainRegex _, b
  | .geosite _, b | .ipCidr _, b | .geoip _, b | .port _, b | .portExcept _, b | .network .tcp, b
  | .network .udp, b | .protocol _, b =>
    @decidable_of_iff _ _ (eq_iff _ b).symm
      (@instDecidableAnd _ _ _ (List.instDecidableEqNil b.content.2))

def decEqItems : (a b : List DestMatch) → Decidable (a = b)
  | [], [] => isTrue rfl
  | [], _ :: _ => isFalse nofun
  | _ :: _, [] => isFalse nofun
  | x :: xs, y :: ys =>
    @decidable_of_iff _ (x = y ∧ xs = ys) (by simp)
      (@instDecidableAnd _ _ (decEq x y) (decEqItems xs ys))

end

instance : DecidableEq DestMatch := decEq

def isAny : DestMatch → Bool
  | .any => true
  | _ => false

mutual

/-- Whether this selector may need the first bytes of a connection. -/
def dependsOnSniffing : DestMatch → Bool
  | .domainSuffix _ | .domainKeyword _ | .domainRegex _ | .geosite _ | .protocol _ => true
  | .all values => anyDependsOnSniffing values
  | _ => false

def anyDependsOnSniffing : List DestMatch → Bool
  | [] => false
  | value :: values => dependsOnSniffing value || anyDependsOnSniffing values

end

mutual

/-- Whether this selector asks for the marker of a failed sniff. -/
def requestsSniffingFailureState : DestMatch → Bool
  | .sniffingFailed => true
  | .all values => anyRequestsSniffingFailureState values
  | _ => false

def anyRequestsSniffingFailureState : List DestMatch → Bool
  | [] => false
  | value :: values => requestsSniffingFailureState value || anyRequestsSniffingFailureState values

end

/-- Canonical identity of a machine-owned DNS policy selector. -/
def canonicalEgressDnsSelector : DestMatch → Option DestMatch
  | .domainSuffix items => some (.domainSuffix (OrdMap.keySet items))
  | .domainKeyword items => some (.domainKeyword (OrdMap.keySet items))
  | .domainRegex value => some (.domainRegex value)
  | .geosite items => some (.geosite (OrdMap.keySet items))
  | _ => none

end DestMatch

/-- A selector and what it leads to. -/
structure Rule where
  destMatch : DestMatch
  action : Action
deriving DecidableEq

/-- The credential others dial a machine's relay inbound with. -/
structure Accept where
  (uuid label : String)
deriving DecidableEq

/-- The key pair of an encrypted hop. -/
structure HopEncryption where
  (privateKey publicKey : String)
deriving DecidableEq

/-- The disguise of a hop. -/
structure Reality where
  (privateKey publicKey : String)
  shortIds : List String
  dest : String
  serverNames : List String
  fingerprint : String
  flow : Option String
deriving DecidableEq

/-- What a relay inbound is wrapped in. -/
inductive HopWire where
  | none
  | encryption (encryption : HopEncryption)
  | reality (reality : Reality)
  | shadowsocks2022 (serverPsk userPsk : String)
deriving DecidableEq

/-- How a machine is entered on a chain. -/
structure HopIn where
  port : ℕ
  security : HopWire
deriving DecidableEq

/-- A fragment of the rule table one chain holds on one machine. -/
structure Step where
  (chain node : String)
  accept : Option Accept
  hopIn : Option HopIn
  rules : List Rule
deriving DecidableEq

/-- A chain of machines. -/
structure Chain where
  (id tenant name : String)
  subscriptionCountry : Option String
deriving DecidableEq

/-! ### Ingresses -/

/-- The keys of an ingress. -/
structure IngressIdentity where
  (privateKey publicKey : String)
  shortIds : List String
deriving DecidableEq

/-- Where a failed handshake is sent. -/
inductive RealityFallbackMode where
  | globalSite
  | nodeCertificate
  | customSite
deriving DecidableEq

/-- The disguise of an ingress. -/
structure RealitySettings where
  serverNames : List String
  flow : Option String
  fallbackMode : RealityFallbackMode
  fallbackGuard : Bool
  rest : Json.Value
deriving DecidableEq

def RealitySettings.usesNodeCertificateFallback (self : RealitySettings) : Bool :=
  self.fallbackMode == .nodeCertificate

/-- A failed handshake is guarded. -/
def RealitySettings.guardsFallback (self : RealitySettings) : Bool :=
  self.fallbackGuard && !self.usesNodeCertificateFallback && !self.serverNames.isEmpty

/-- The public port of a download, and the node-side listener where that is another one. -/
structure ProjectionDownloadEndpoint where
  port : ℕ
  originPort : Option ℕ
  rest : Json.Value
deriving DecidableEq

def ProjectionDownloadEndpoint.nodePort (self : ProjectionDownloadEndpoint) : ℕ :=
  self.originPort.getD self.port

/-- Where downloads are fetched, by family. -/
structure XhttpDownload where
  (v4 v6 : Option ProjectionDownloadEndpoint)
deriving DecidableEq

/-- The settings of XHTTP. -/
structure Xhttp where
  download : Option XhttpDownload
  rest : Json.Value
deriving DecidableEq

/-- An ingress's TCP shape: one verified combination of security and network layers. -/
inductive Transport where
  | vlessReality (reality : RealitySettings)
  | vlessRealityXhttp (reality : RealitySettings) (xhttp : Xhttp)
  | vlessTls (flow : Option String)
  | vlessTlsXhttp (flow : Option String) (xhttp : Xhttp)
deriving DecidableEq

namespace Transport

def reality : Transport → Option RealitySettings
  | .vlessReality reality | .vlessRealityXhttp reality _ => some reality
  | .vlessTls _ | .vlessTlsXhttp _ _ => none

def flow : Transport → Option String
  | .vlessReality reality | .vlessRealityXhttp reality _ => reality.flow
  | .vlessTls flow | .vlessTlsXhttp flow _ => flow

def xhttp : Transport → Option Xhttp
  | .vlessReality _ | .vlessTls _ => none
  | .vlessRealityXhttp _ xhttp | .vlessTlsXhttp _ xhttp => some xhttp

def isRealityXhttp : Transport → Bool
  | .vlessRealityXhttp _ _ => true
  | _ => false

/-- Whether it takes a certificate. -/
def needsNodeCertificate : Transport → Bool
  | .vlessTls _ | .vlessTlsXhttp _ _ => true
  | .vlessReality reality | .vlessRealityXhttp reality _ => reality.usesNodeCertificateFallback

end Transport

/-- The settings of encrypted VLESS. -/
structure VlessEncryption where
  port : ℕ
  (privateKey publicKey : String)
  options : Json.Value
deriving DecidableEq

/-- How AnyTLS is secured. -/
inductive AnyTlsSecurity where
  | tls
  | reality
deriving DecidableEq

/-- The settings of AnyTLS. -/
structure AnyTls where
  port : ℕ
  security : AnyTlsSecurity
  realitySettings : Option RealitySettings
  paddingScheme : List String
  rest : Json.Value
deriving DecidableEq

/-- The disguise, where the security layer is that one. -/
def AnyTls.reality (self : AnyTls) : Option RealitySettings :=
  if self.security = .reality then self.realitySettings else none

def AnyTls.needsNodeCertificate (self : AnyTls) : Bool :=
  self.security == .tls || self.reality.any (·.usesNodeCertificateFallback)

/-- A range of hop ports. -/
structure HysteriaPortHop where
  (start stop : ℕ)
deriving DecidableEq

/-- The settings of Hysteria2. -/
structure Hysteria2 where
  port : ℕ
  hop : Option HysteriaPortHop
  rest : Json.Value
deriving DecidableEq

/-- The settings of MTProto. -/
structure MtProto where
  port : ℕ
deriving DecidableEq

/-- The wire formats one ingress listens with, at least one of them. -/
structure IngressWires where
  vlessEncryption : Option VlessEncryption
  vless : Option Transport
  anytls : Option AnyTls
  hysteria2 : Option Hysteria2
  mtproto : Option MtProto
  some_wire : vlessEncryption.isSome || vless.isSome || anytls.isSome || hysteria2.isSome
    || mtproto.isSome
deriving DecidableEq

namespace IngressWires

/-- The wires of an ingress with only a TCP shape. -/
def ofVless (vless : Transport) : IngressWires := ⟨none, some vless, none, none, none, rfl⟩

/-- The same wires with other AnyTLS settings. -/
def setAnyTls (self : IngressWires) (anytls : AnyTls) : IngressWires :=
  { self with anytls := some anytls, some_wire := by simp }

def hasTcp (self : IngressWires) : Bool :=
  self.vless.isSome || self.anytls.isSome || self.vlessEncryption.isSome || self.mtproto.isSome

def hasUdp (self : IngressWires) : Bool := self.hysteria2.isSome

def reality (self : IngressWires) : Option RealitySettings := self.vless.bind Transport.reality

def anytlsReality (self : IngressWires) : Option RealitySettings := self.anytls.bind AnyTls.reality

def flow (self : IngressWires) : Option String := self.vless.bind Transport.flow

def xhttp (self : IngressWires) : Option Xhttp := self.vless.bind Transport.xhttp

/-- Whether it takes a certificate. -/
def needsNodeCertificate (self : IngressWires) : Bool :=
  self.hasUdp || self.anytls.any (·.needsNodeCertificate)
    || self.vless.any (·.needsNodeCertificate)

/-- The node-side listeners of an independent download. -/
def downloadPorts (self : IngressWires) : List ℕ :=
  match self.xhttp.bind Xhttp.download with
  | none => []
  | some download => OrdMap.keySet ((download.v4.toList ++ download.v6.toList).map (·.nodePort))

end IngressWires

/-- Which sources in China are blocked. -/
inductive CnSourceBlock where
  | off
  | ipv4
  | ipv4AndIpv6
deriving DecidableEq

/-- What an ingress refuses to carry, applied before the chain's rules. -/
structure IngressGuard where
  (noPrivate noBittorrent noMail noUdpAmplification tcpAndQuicOnly : Bool)
  cnSourceBlock : CnSourceBlock
deriving DecidableEq

/-- Explicitly allow every traffic class. -/
def IngressGuard.openAll : IngressGuard := ⟨false, false, false, false, false, .off⟩

def IngressGuard.blocksNothing (self : IngressGuard) : Bool := self == .openAll

/-- One family's projected endpoint; an empty host means enabled but unfilled. -/
structure ProjectionEndpoint where
  host : String
  port : ℕ
deriving DecidableEq

/-- One protocol's independently mapped public endpoints. -/
structure ProtocolProjection where
  (v4 v6 : Option ProjectionEndpoint)
deriving DecidableEq

/-- What clients are told to dial. -/
structure Projection where
  (v4 v6 : Option ProjectionEndpoint)
  (vlessEncryption anytls hysteria2 mtproto : Option ProtocolProjection)
deriving DecidableEq

/-- No projection at all. -/
def Projection.off : Projection := ⟨none, none, none, none, none, none⟩

/-- Where users enter a chain. -/
structure Ingress where
  (id chain node bind : String)
  port : ℕ
  front : Option String
  identity : IngressIdentity
  anytlsIdentity : Option IngressIdentity
  wires : IngressWires
  projection : Projection
  guard : IngressGuard
deriving DecidableEq

/-! ### Projects -/

/-- How a front chooses. -/
inductive FrontStrategy where
  | urlTest
  | select
  | fallback
deriving DecidableEq

/-- Ingresses behind one name. -/
structure Front where
  (id tenant name : String)
  (via externalVia : List String)
  strategy : FrontStrategy
deriving DecidableEq

/-- A user's access to an ingress. -/
structure Grant where
  (tenant user ingress : String)
deriving DecidableEq

/-- A project. -/
structure AppView where
  id : String
  chains : List Chain
  ingresses : List Ingress
  fronts : List Front
  steps : List Step
  grants : List Grant
deriving DecidableEq

/-! ### Machines and what they share -/

/-- Who signs a machine's certificate. -/
inductive CertificateTrack where
  | publicCa
  | selfSigned
deriving DecidableEq

/-- What carries the overlay. -/
inductive WgTransport where
  | udp
  | fakeTcp (port : ℕ)

/-- A machine's overlay keys. -/
structure WireGuardKeys where
  (privateKey publicKey : String)
  listenPort : ℕ
  transport : WgTransport

/-- A machine's resolvers. -/
inductive Dns where
  | system
  | servers (items : List String)
deriving DecidableEq

/-- A resolver on the machine. -/
def isLocalDns (server : String) : Bool :=
  let value := Text.trim server
  value == "localhost" || value == "fakedns" || Text.contains value "+local://"

/-- Whether resolving through this setting needs a route off the machine. -/
def Dns.needsRoute : Dns → Bool
  | .system => false
  | .servers items => items.any fun server => !isLocalDns server

/-- Which addresses a domain may take. -/
inductive DomainStrategy where
  | useIp
  | useIpv4
  | useIpv6
  | useIpv4v6
  | useIpv6v4
  | asIs
deriving DecidableEq

/-- How a resolver is asked. -/
inductive EgressDnsTransport where
  | udp
  | tcp
deriving DecidableEq

/-- Which answers a resolver gives. -/
inductive EgressDnsAddressStrategy where
  | useIp
  | useIpv4
  | useIpv6
  | useIpv4v6
  | useIpv6v4
deriving DecidableEq

/-- What follows a failed lookup. -/
inductive EgressDnsFallback where
  | stop
  | machine
deriving DecidableEq

/-- The resolver half of one machine-owned DNS policy. -/
structure EgressDnsResolution where
  address : List String
  port : ℕ
  transport : EgressDnsTransport
  addressStrategy : EgressDnsAddressStrategy
  fallback : EgressDnsFallback
deriving DecidableEq

/-- How one machine resolves some domains. -/
structure NodeEgressDnsPolicy where
  node : String
  position : ℕ
  selector : DestMatch
  resolution : EgressDnsResolution
deriving DecidableEq

/-- One machine's overrides of the fleet's connection settings. -/
structure NodeConnection where
  (connIdleSecs uplinkOnlySecs downlinkOnlySecs bufferSizeKb : Option ℕ)
deriving DecidableEq

/-- The timers of a connection. -/
structure ConnectionSettings where
  (connIdleSecs uplinkOnlySecs downlinkOnlySecs : ℕ)
  bufferSizeKb : Option ℕ
  handshakeSecs : ℕ
deriving DecidableEq

/-- A link that is switched off. -/
structure DisabledWireGuardLink where
  (a b : String)
deriving DecidableEq

/-- The settings of the overlay. -/
structure OverlaySettings where
  (keepaliveSecs mtu : ℕ)
  disabledLinks : List DisabledWireGuardLink
deriving DecidableEq

/-- Health settings of one link. -/
structure ReverseHealthOverride where
  (chain source target : String)
  health : Json.Value
deriving DecidableEq

/-- The settings of the fleet. -/
structure ModelSettings where
  realityClient : Json.Value
  anytlsPaddingScheme : List String
  overlay : OverlaySettings
  geodata : Json.Value
  connection : ConnectionSettings
  relayMux : HopMux
  reverseHealth : Json.Value
  reverseHealthOverrides : List ReverseHealthOverride
  statsUserOnline : Bool
  rest : Json.Value
deriving DecidableEq

/-- The health settings of a link. -/
def ModelSettings.reverseHealthFor (self : ModelSettings) (chain source target : String) :
    Json.Value :=
  ((self.reverseHealthOverrides.find? fun policy =>
      policy.chain = chain && policy.source = source && policy.target = target).map
    (·.health)).getD self.reverseHealth

/-- A machine. -/
structure Node where
  (id tenant name : String)
  (publicIpv4 publicIpv6 : Option String)
  (publicIpv4Nat publicIpv6Nat : Bool)
  overlayAddr : Ipv4Addr
  certificateName : Option String
  certificateNames : List String
  certificateGroupId : Option String
  certificateTrack : Option CertificateTrack
  wireguard : WireGuardKeys
  apiPort : Option ℕ
  (overlay egressAllowed : Bool)
  dns : Dns
  domainStrategy : DomainStrategy
  retired : Bool
  mtu : Option ℕ
  connection : NodeConnection

/-- A user. -/
structure User where
  (id tenant uuid : String)
deriving DecidableEq

/-- The private, per-machine half of a managed tunnel. -/
structure ExternalWarpBinding where
  node : String
  endpointAddress : Option String
  endpointPort : Option ℕ
  (privateKey peerPublicKey : String)
  localAddresses : List String
  rest : Json.Value
deriving DecidableEq

/-- The protocols the passes tell apart; every other one is its document. -/
inductive ExternalOutboundProtocol where
  | warp (httpVersion : String) (remoteDns : List String)
  | vpngate (settings : Json.Value)
  | other (settings : Json.Value)
deriving DecidableEq

def ExternalOutboundProtocol.isVpngate : ExternalOutboundProtocol → Bool
  | .vpngate _ => true
  | _ => false

/-- A proxy server outside the fleet. -/
structure ExternalOutbound where
  (id tenant name address : String)
  port : ℕ
  protocol : ExternalOutboundProtocol
  security : Json.Value
  targetStrategy : Option DomainStrategy
  bindings : List ExternalWarpBinding
deriving DecidableEq

/-- All that an operator edits. -/
structure ModelSnapshot where
  revision : ℕ
  overlayCidr : Ipv4Net
  settings : ModelSettings
  nodes : List Node
  nodeEgressDns : List NodeEgressDnsPolicy
  users : List User
  externalOutbounds : List ExternalOutbound
  apps : List AppView

/-! ### Names -/

/-- The label of a grant's counter and credential. -/
def grantLabel (user tenant ingress : String) : String := s!"{user}@{tenant}#{ingress}"

def probeLabel (ingress : String) : String := s!"probe#{ingress}"

/-- The label of a relay's probe. -/
def probeTransportLabel (base role : String) : String :=
  let escaped := Text.replace (Text.replace base '%' "%25") '@' "%40"
  s!"probe#{role}:{escaped}"

def probeDnsLabel (base : String) : String := probeTransportLabel base "dns"

def probeDnsTag (base : String) : String := s!"probe:dns:{base}"

def probeFamilyKey : IpFamily → String
  | .v4 => "v4"
  | .v6 => "v6"

def probeFamilyLabel (base : String) (family : IpFamily) : String :=
  probeTransportLabel base (probeFamilyKey family)

def probeFamilyTag (base : String) (family : IpFamily) : String :=
  s!"{base}:probe-{probeFamilyKey family}"

def slugChar (c : Char) : Bool :=
  ('a' ≤ c && c ≤ 'z') || isDecimal c || c == '.' || c == '_' || c == '-'

/-- `[a-z0-9._-]`, one to thirty-two of them. -/
def isValidSlug (value : String) : Bool :=
  value.toList.length ≠ 0 && value.toList.length ≤ 32 && value.toList.all slugChar

/-! ### Plain values

The parts of a snapshot that worked examples have in common: factory numbers, and empty
documents where no modelled pass looks inside.
-/

/-- A pool of the samples. -/
def plainMux : HopMux where
  concurrency := 1
  prewarmWorkers := 0
  reuseThreshold := 2
  maxProbingWorkers := 1
  probeIntervalMs := 5000
  probeTimeoutMs := 2000
  idleTtlMs := 24000
  maxRequestsPerWorker := 128

/-- The settings of the samples. -/
def plainSettings : ModelSettings where
  realityClient := .null
  anytlsPaddingScheme := ["stop=8"]
  overlay := ⟨10, 1280, []⟩
  geodata := .null
  connection := ⟨300, 2, 5, none, 60⟩
  relayMux := plainMux
  reverseHealth := .null
  reverseHealthOverrides := []
  statsUserOnline := true
  rest := .null

/-- A machine of tenant `acme` with one public address and no place on the overlay. -/
def plainNode (id publicIpv4 : String) : Node where
  id := id
  tenant := "acme"
  name := id
  publicIpv4 := some publicIpv4
  publicIpv6 := none
  publicIpv4Nat := false
  publicIpv6Nat := false
  overlayAddr := 0x0A420001#32
  certificateName := some "edge.example"
  certificateNames := ["edge.example"]
  certificateGroupId := none
  certificateTrack := none
  wireguard := ⟨"private", "public", 51820, .udp⟩
  apiPort := none
  overlay := false
  egressAllowed := true
  dns := .system
  domainStrategy := .useIp
  retired := false
  mtu := none
  connection := ⟨none, none, none, none⟩

/-- A TLS entrance that refuses nothing. -/
def plainIngress (id chain node : String) : Ingress where
  id := id
  chain := chain
  node := node
  bind := "0.0.0.0"
  port := 443
  front := none
  identity := ⟨"key", "pub", []⟩
  anytlsIdentity := none
  wires := .ofVless (.vlessTls none)
  projection := .off
  guard := .openAll

def plainApp (id : String) (chains : List Chain) (ingresses : List Ingress) (steps : List Step) :
    AppView :=
  ⟨id, chains, ingresses, [], steps, []⟩

/-- A snapshot of the samples. -/
def plainSnapshot (nodes : List Node) (apps : List AppView) : ModelSnapshot where
  revision := 1
  overlayCidr := ⟨0x0A420000#32, 16⟩
  settings := plainSettings
  nodes := nodes
  nodeEgressDns := []
  users := []
  externalOutbounds := []
  apps := apps

end Brocade.Model
