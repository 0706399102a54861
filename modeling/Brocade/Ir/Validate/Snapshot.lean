/-
What is checked before anything compiles: the snapshot as a whole, and the system layer.

Several parts of a snapshot stay documents in this development.  The checks that look inside
one are gathered in `Checks`, with the readings of a document that a check compares, and
everything proved about the compiler holds of any of them.  Each is called where the source
calls it, once for each value it is about, so a snapshot without such values calls none.
-/
import Brocade.Ir.App

namespace Brocade.Ir

open Address Model

/-- The checks of what stays a document here. -/
structure Checks where
  /-- what is wrong with a reverse health policy -/
  reverseHealth : Json.Value → Option String
  /-- the client versions and the time difference the fleet's REALITY policy admits -/
  realityClient : Json.Value → List Diagnostic
  /-- the serialised form of a selector -/
  selectorText : DestMatch → String
  /-- whether a text is the base64 of thirty-two bytes -/
  isRealityPublicKey : String → Bool
  /-- what is wrong with the options of a VLESS Encryption wire -/
  vlessEncryptionOptions : Json.Value → Option String
  /-- an XHTTP stream on an ingress -/
  xhttp : Ingress → Xhttp → List Diagnostic
  hysteria2 : Ingress → Hysteria2 → List Diagnostic
  anytls : Ingress → AnyTls → List Diagnostic
  /-- a disguise with the identity it runs under, and whether AnyTLS wears it -/
  reality : Ingress → RealitySettings → Option IngressIdentity → Bool → List Diagnostic
  externalOutbound : ExternalOutbound → List Diagnostic
  /-- a tunnel as a member of a front -/
  externalFront : String → ExternalOutbound → List Diagnostic
  /-- the routes between the members of a front and its targets -/
  frontRoutes : SystemIr → AppIr → Front → List Diagnostic
  /-- the names in one user's subscription, each with whose it is -/
  subscriptionNames : List AppIr → String → String → List (String × String)

/-- Checks that find nothing, for snapshots in which there is nothing to find. -/
def silentChecks : Checks where
  reverseHealth _ := none
  realityClient _ := []
  selectorText _ := ""
  isRealityPublicKey _ := true
  vlessEncryptionOptions _ := none
  xhttp _ _ := []
  hysteria2 _ _ := []
  anytls _ _ := []
  reality _ _ _ _ := []
  externalOutbound _ := []
  externalFront _ _ := []
  frontRoutes _ _ _ := []
  subscriptionNames _ _ _ := []

/-! ### Settings -/

/-- The pool of workers. -/
def validateHopMux (mux : HopMux) (location : String) : List Diagnostic :=
  let invalid := fun (bad : Bool) (field message : String) =>
    errorIf bad "mux.worker-pool" s!"{location}.{field}" message
  invalid (!(1 ≤ mux.concurrency && mux.concurrency ≤ 128)) "concurrency"
      "复用流数量必须在 1–128 之间"
    ++ invalid (mux.reuseThreshold < 1) "reuse_threshold" "复用阈值必须至少为 1"
    ++ invalid (mux.reuseThreshold < mux.prewarmWorkers) "prewarm_workers"
      "预热目标不能大于复用阈值"
    ++ invalid (mux.maxProbingWorkers = 0 || mux.reuseThreshold < mux.maxProbingWorkers)
      "max_probing_workers" "探活并发必须在 1 与复用阈值之间"
    ++ invalid (!(2000 ≤ mux.probeIntervalMs && mux.probeIntervalMs ≤ 60000))
      "probe_interval_ms" "探活周期必须在 2000–60000 ms 之间"
    ++ invalid (!(200 ≤ mux.probeTimeoutMs && mux.probeTimeoutMs ≤ 10000)
        || mux.probeIntervalMs ≤ mux.probeTimeoutMs)
      "probe_timeout_ms" "探活超时必须在 200–10000 ms 之间，且小于探活周期"
    ++ invalid (mux.idleTtlMs < 1000) "idle_ttl_ms" "超额空闲寿命必须不小于 1000 ms"
    ++ invalid (mux.idleTtlMs < min (mux.probeIntervalMs + mux.probeTimeoutMs) (2 ^ 32 - 1))
      "idle_ttl_ms" "超额空闲寿命必须覆盖一个探活周期和探活超时"
    ++ invalid (!(1 ≤ mux.maxRequestsPerWorker && mux.maxRequestsPerWorker ≤ 65535))
      "max_requests_per_worker" "累计子连接上限必须在 1–65535 之间"

/-- What is wrong with the overrides, given the edges the earlier ones name. -/
def overrideFault (checks : Checks) : List (String × String × String) →
    List ReverseHealthOverride → Option String
  | _, [] => none
  | seen, policy :: policies =>
    let key := (policy.chain, policy.source, policy.target)
    if (checks.reverseHealth policy.health).isSome then checks.reverseHealth policy.health
    else if policy.chain = "" || policy.source = "" || policy.target = ""
        || policy.source = policy.target || decide (key ∈ seen) then
      some "reverse health 覆盖必须指定唯一的 chain/from/to"
    else overrideFault checks (key :: seen) policies

/-- The health settings. -/
def validateReverseHealth (checks : Checks) (settings : ModelSettings) : Option String :=
  (checks.reverseHealth settings.reverseHealth).orElse fun _ =>
    overrideFault checks [] settings.reverseHealthOverrides

/-- The disabled links, given the pairs the earlier ones name. -/
def validateDisabledLinks (nodeIds : List String) : List (String × String) →
    List DisabledWireGuardLink → List Diagnostic
  | _, [] => []
  | seen, link :: links =>
    let location := s!"{link.a}|{link.b}"
    let pair := if link.a ≤ link.b then (link.a, link.b) else (link.b, link.a)
    if Text.trim link.a = "" || Text.trim link.b = "" || link.a = link.b then
      .error "link.disabled-invalid" location "禁用的 WireGuard 链路必须引用两台不同的机器"
        :: validateDisabledLinks nodeIds seen links
    else
      ([link.a, link.b].flatMap fun node =>
          warnIf (decide (node ∉ nodeIds)) "link.disabled-node-missing" location
            s!"禁用的 WireGuard 链路引用了不存在的机器 {node}")
        ++ warnIf (decide (pair ∈ seen)) "link.disabled-dup" location
          "同一条 WireGuard 链路被重复禁用"
        ++ validateDisabledLinks nodeIds (pair :: seen) links

/-- The settings of the fleet. -/
def validateSettings (checks : Checks) (doc : ModelSnapshot) : List Diagnostic :=
  ((validateReverseHealth checks doc.settings).toList.map fun message =>
      Diagnostic.error "reverse.health-invalid" "settings.reverse_health" message)
    ++ validateHopMux doc.settings.relayMux "settings.relay_mux"
    ++ validateDisabledLinks (doc.nodes.map (·.id)) [] doc.settings.overlay.disabledLinks
    ++ checks.realityClient doc.settings.realityClient

/-! ### The snapshot -/

/-- A rule of the chain on `source` hands traffic to `target`, which dials in. -/
def hasReverseEdge (doc : ModelSnapshot) (chain source target : String) : Bool :=
  ((doc.apps.flatMap (·.steps)).filter fun step => step.chain = chain && step.node = source).any
    fun step => step.rules.any fun rule =>
      match rule.action with
      | .forward to' (.reverse _) _ => decide (to' = target)
      | _ => false

/-- The VPN Gate pools that rules on a machine use. -/
def vpngatePools (doc : ModelSnapshot) (node : String) : List String :=
  let pools := (doc.externalOutbounds.filter (·.protocol.isVpngate)).map (·.id)
  OrdMap.keySet
    ((((doc.apps.flatMap (·.steps)).filter (·.node = node)).flatMap (·.rules)).filterMap fun rule =>
      match rule.action with
      | .proxy outbound => if outbound ∈ pools then some outbound else none
      | _ => none)

/-- A name is a slug. -/
def validateSlug (value location : String) : List Diagnostic :=
  errorIf (!isValidSlug value) "label.charset" location
    s!"slug「{value}」不符合 [a-z0-9._-]\x7b1,32\x7d"

/-- One to sixteen addresses, no names. -/
def EgressDnsResolution.validAddress (resolution : EgressDnsResolution) : Bool :=
  !resolution.address.isEmpty && resolution.address.length ≤ 16
    && resolution.address.all fun address => isIp (Text.trim address)

/-- A rule of a machine's resolver. -/
def validateDnsPolicy (doc : ModelSnapshot) (policy : NodeEgressDnsPolicy) : List Diagnostic :=
  let path := s!"{policy.node}/{policy.position}"
  errorIf (!doc.nodes.any (·.id = policy.node)) "dns.node-missing" path
      s!"DNS 策略引用了不存在的机器 {policy.node}"
    ++ errorIf policy.selector.canonicalEgressDnsSelector.isNone "dns.selector-unsupported" path
      "DNS 策略只支持域名后缀、域名关键词、域名正则和 Geosite"
    ++ errorIf (!EgressDnsResolution.validAddress policy.resolution) "dns.address" path
      "DNS 策略须包含 1–16 个 IPv4 或 IPv6 地址，不能填写域名"
    ++ errorIf (policy.resolution.port = 0) "dns.port" path "DNS 策略端口必须在 1–65535 之间"

/-- All checks before anything compiles. -/
def validateModelSnapshot (checks : Checks) (doc : ModelSnapshot) : List Diagnostic :=
  validateSettings checks doc ++ (doc.settings.reverseHealthOverrides.flatMap fun policy =>
      warnIf (!hasReverseEdge doc policy.chain policy.source policy.target)
        "reverse.health-link-missing" s!"{policy.chain}/{policy.source}/{policy.target}"
        "健康策略覆盖未匹配到定向反向链路")
    ++ uniqueBy "id.dup" "ModelSnapshot.nodes" [] (doc.nodes.map (·.id))
    ++ (doc.nodes.flatMap fun node =>
      errorIf (16 < (vpngatePools doc node.id).length) "external-outbound.vpngate-pool-limit"
        s!"node {node.id}"
        (s!"机器 {node.id} 同时引用了 {(vpngatePools doc node.id).length} 个 VPN Gate 池，" ++
          "不能超过 16 个隔离运行时"))
    ++ uniqueBy "id.dup" "ModelSnapshot.apps" [] (doc.apps.map (·.id))
    ++ uniqueBy "id.dup" "ModelSnapshot.chains" [] ((doc.apps.flatMap (·.chains)).map (·.id))
    ++ (doc.apps.flatMap fun app => validateSlug app.id s!"app {app.id}")
    ++ uniqueBy "user.dup" "ModelSnapshot.users" []
      (doc.users.map fun user => s!"{user.tenant}/{user.id}")
    ++ uniqueBy "external-outbound.dup" "ModelSnapshot.external_outbounds" []
      (doc.externalOutbounds.map (·.id))
    ++ uniqueBy "dns.position-dup" "ModelSnapshot.node_egress_dns" []
      (doc.nodeEgressDns.map fun policy => s!"{policy.node}:{policy.position}")
    ++ uniqueBy "dns.selector-dup" "ModelSnapshot.node_egress_dns" []
      (doc.nodeEgressDns.map fun policy =>
        let selector := policy.selector.canonicalEgressDnsSelector.getD policy.selector
        s!"{policy.node}:{checks.selectorText selector}")
    ++ doc.nodeEgressDns.flatMap (validateDnsPolicy doc)
    ++ clashes (fun _ previous owner => .error "user.uuid-dup" owner s!"用户 uuid 与 {previous} 重复")
      [] (doc.users.map fun user => (user.uuid, s!"{user.tenant}/{user.id}"))

/-! ### The system layer -/

/-- The overlay addresses, given the machines that hold the earlier ones. -/
def validateOverlay (cidr : Ipv4Net) : List (Ipv4Addr × String) → List (Ipv4Addr × String) →
    List Diagnostic
  | _, [] => []
  | held, (addr, node) :: claims =>
    ((held.lookup addr).map fun previous =>
        Diagnostic.error "node.overlay-dup" node s!"overlay 地址 {addr.text} 与 {previous} 重复").toList
      ++ errorIf (!cidr.contains addr) "node.overlay-out" node
        s!"overlay 地址 {addr.text} 不在 {cidr.text} 内"
      ++ validateOverlay cidr ((addr, node) :: held) claims

/-- The machines and links. -/
def validateSystem (sys : SystemIr) : List Diagnostic :=
  uniqueBy "id.dup" "SystemIr.nodes" [] (sys.nodes.map (·.id))
    ++ uniqueBy "id.dup" "SystemIr.links" [] (sys.links.map (·.id))
    ++ validateOverlay sys.overlayCidr []
      (sys.nodes.filterMap fun node => node.overlayAddr.map fun addr => (addr, node.id))

/-! ### What a clean snapshot holds -/

section Clean

variable {checks : Checks} {doc : ModelSnapshot}

theorem nodup_chains (h : Clean (validateModelSnapshot checks doc)) :
    ((doc.apps.flatMap (·.chains)).map (·.id)).Nodup := by
  simp only [validateModelSnapshot, clean_append] at h
  exact nodup_of_clean_uniqueBy (by tauto)

theorem nodup_nodes (h : Clean (validateModelSnapshot checks doc)) :
    (doc.nodes.map (·.id)).Nodup := by
  simp only [validateModelSnapshot, clean_append] at h
  exact nodup_of_clean_uniqueBy (by tauto)

theorem nodup_apps (h : Clean (validateModelSnapshot checks doc)) :
    (doc.apps.map (·.id)).Nodup := by
  simp only [validateModelSnapshot, clean_append] at h
  exact nodup_of_clean_uniqueBy (by tauto)

end Clean

end Brocade.Ir
