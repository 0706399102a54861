/-
What is checked of one compiled project.

The checks run in the order of `validateApp` and never change what they look at.  The ones
that matter beyond their own message are in the section on topology: every table of a chain
lies below its head or below a referenced listener, no chain forwards in a circle, and no
reference leads back to the table that makes it.
-/
import Brocade.Ir.Hops
import Brocade.Ir.Validate.Snapshot
import Brocade.Lib.Dfs

namespace Brocade.Ir

open Address Model

/-- Visibility goes downwards: a tenant sees itself and its own subtenants' parents. -/
def under (child parent : String) : Bool :=
  child = parent || Text.startsWith child s!"{parent}."

/-! ### Names -/

/-- No identifier twice. -/
def validateUniqueIds (app : AppIr) : List Diagnostic :=
  uniqueBy "id.dup" "AppIr.nodes" [] (app.nodes.map (·.id))
    ++ uniqueBy "id.dup" "AppIr.chains" [] (app.chains.map (·.id))
    ++ uniqueBy "id.dup" "AppIr.ingresses" [] (app.ingresses.map (·.id))
    ++ uniqueBy "id.dup" "AppIr.fronts" [] (app.fronts.map (·.id))
    ++ uniqueBy "id.dup" "AppIr.steps" [] (app.steps.map (·.id))
    ++ uniqueBy "id.dup" "AppIr.grants" [] (app.grants.map (·.id))
    ++ uniqueBy "user.dup" "AppIr.users" [] (app.users.map fun user => s!"{user.tenant}/{user.id}")
    ++ uniqueBy "external-outbound.dup" "AppIr.external_outbounds" []
      (app.externalOutbounds.map (·.id))

/-- Each segment is a slug. -/
def validateTenantSlugs (tenant : String) : List Diagnostic :=
  (Text.split tenant '.').flatMap fun segment =>
    validateSlug segment s!"tenant segment {segment} in {tenant}"

/-- Each name is a slug. -/
def validateSlugs (app : AppIr) : List Diagnostic :=
  (app.appId.toList.flatMap fun id => validateSlug id s!"app {id}")
    ++ (app.nodes.flatMap fun node => validateSlug node.id s!"node {node.id}")
    ++ (app.users.flatMap fun user =>
      validateSlug user.id s!"user {user.tenant}/{user.id}" ++ validateTenantSlugs user.tenant)
    ++ (app.chains.flatMap fun chain =>
      validateSlug chain.id s!"chain {chain.id}" ++ validateTenantSlugs chain.tenant)
    ++ (app.ingresses.flatMap fun ingress => validateSlug ingress.id s!"ingress {ingress.id}")
    ++ app.fronts.flatMap fun front =>
      validateSlug front.id s!"front {front.id}" ++ validateTenantSlugs front.tenant

/-! ### Ingresses -/

/-- The keys and options. -/
def validateVlessEncryption (checks : Checks) (ingress : Ingress) (encryption : VlessEncryption) :
    List Diagnostic :=
  ((checks.vlessEncryptionOptions encryption.options).toList.map fun message =>
      Diagnostic.error "ingress.vless-encryption-options" ingress.id message)
    ++ errorIf (encryption.port = 0) "ingress.vless-encryption-port" ingress.id
      "VLESS Encryption 端口必须在 1–65535 之间"
    ++ errorIf (!checks.isRealityPublicKey encryption.publicKey
        || !checks.isRealityPublicKey encryption.privateKey)
      "ingress.vless-encryption-key" ingress.id "VLESS Encryption 需要有效的 X25519 密钥对"

/-- Why MTProxy cannot run on a machine. -/
def mtprotoFault (node : AppNode) : Option String :=
  if node.publicIpv4.all fun address => Text.trim address = "" then
    some "没有配置公网 IPv4"
  else if node.publicIpv4Nat then some "公网 IPv4 标记为 NAT"
  else none

/-- The port. -/
def validateMtProto (app : AppIr) (ingress : Ingress) (settings : MtProto) : List Diagnostic :=
  errorIf (settings.port = 0) "ingress.mtproto-port" ingress.id
      s!"接入面 {ingress.id} 的 MTProxy 监听端口不能是 0"
    ++ ((app.nodes.find? (·.id = ingress.node)).bind fun node =>
        (mtprotoFault node).map fun reason =>
          Diagnostic.error "ingress.mtproto-direct-ipv4" ingress.id
            (s!"接入面 {ingress.id} 不能在机器 {node.id} 上启用 MTProxy：{reason}；" ++
              "MTProxy 要求公网 IPv4 直接配置在机器网卡上")).toList

/-- A download with a listener of its own. -/
def splitDownload (wires : IngressWires) : Bool :=
  wires.vless.any (·.isRealityXhttp) && (wires.xhttp.bind Xhttp.download).any fun download =>
      download.v4.isSome || download.v6.isSome

/-- A certificate where it takes one. -/
def validateIngressCertificate (ingress : Ingress) : List Diagnostic :=
  errorIf ((ingress.wires.needsNodeCertificate || splitDownload ingress.wires)
      && !ingress.certificateName.any fun name => Text.trim name ≠ "")
    "ingress.tls-no-certificate" ingress.id
    (s!"接入面 {ingress.id} 使用自有证书，但机器 {ingress.node} 没有可用的证书。" ++ "去机器页确认它选了证书组，再去证书页确认那个组已经签发出证书；" ++
      "或者把这个接入面改成 REALITY 指向外部站点，那样不需要本机 TLS 证书")

/-- What a guard needs. -/
def validateIngressGuard (ingress : Ingress) : List Diagnostic :=
  errorIf (ingress.guard.noBittorrent && !ingress.sniff) "ingress.guard-needs-sniffing" ingress.id
    (s!"接入面 {ingress.id} 未启用协议嗅探，「禁止 BT」在该场景下不会生效。" ++ "请启用嗅探，或关闭该开关")

/-- The addresses of both families. -/
def validateProjectionPair (ingress : Ingress) (protocol : String)
    (v4 v6 : Option ProjectionEndpoint) : List Diagnostic :=
  [("IPv4", v4), ("IPv6", v6)].flatMap fun side =>
    side.2.toList.flatMap fun endpoint =>
      errorIf (Text.trim endpoint.host = "") "ingress.projection-blank" ingress.id
          (s!"接入面 {ingress.id} 的 {protocol} 已启用 {side.1} 投影但未填写地址；" ++ "不需要投影时请关闭开关，而非留空")
        ++ errorIf (endpoint.port = 0) "ingress.projection-port" ingress.id
          s!"接入面 {ingress.id} 的 {protocol} {side.1} 投影端口是 0"

/-- All that clients are told. -/
def validateProjection (ingress : Ingress) : List Diagnostic :=
  validateProjectionPair ingress "VLESS" ingress.projection.v4 ingress.projection.v6
    ++ [("VLESS Encryption", ingress.projection.vlessEncryption),
        ("AnyTLS", ingress.projection.anytls), ("Hysteria 2", ingress.projection.hysteria2),
        ("MTProxy", ingress.projection.mtproto)].flatMap fun named =>
      named.2.toList.flatMap fun projection =>
        validateProjectionPair ingress named.1 projection.v4 projection.v6

/-- All checks of an ingress. -/
def validateIngress (checks : Checks) (app : AppIr) (ingress : Ingress) : List Diagnostic :=
  (ingress.wires.xhttp.toList.flatMap (checks.xhttp ingress))
    ++ (ingress.wires.vlessEncryption.toList.flatMap (validateVlessEncryption checks ingress))
    ++ (ingress.wires.hysteria2.toList.flatMap (checks.hysteria2 ingress))
    ++ (ingress.wires.anytls.toList.flatMap (checks.anytls ingress))
    ++ (ingress.wires.mtproto.toList.flatMap (validateMtProto app ingress))
    ++ validateIngressCertificate ingress
    ++ validateIngressGuard ingress
    ++ if !app.chains.any (·.id = ingress.chain) then
        [.error "ingress.no-chain" ingress.id s!"接入面指向的链 {ingress.chain} 不存在"]
      else
        errorIf (!app.nodes.any (·.id = ingress.node)) "ingress.no-node" ingress.id
          s!"接入面所在节点 {ingress.node} 不存在" ++ validateProjection ingress

/-- A chain has one ingress. -/
def validateChainIngresses (checks : Checks) (app : AppIr) : List Diagnostic :=
  (app.chains.flatMap fun chain =>
      errorIf chain.root.isNone "chain.no-ingress" chain.id s!"链 {chain.id} 上没有任何接入面")
    ++ app.ingresses.flatMap (validateIngress checks app)

/-! ### Ports and labels -/

/-- The transports of a port. -/
inductive Proto where
  | tcp
  | udp
deriving DecidableEq

def Proto.text : Proto → String
  | .tcp => "TCP"
  | .udp => "UDP"

/-- A port that is taken. -/
structure OccupiedIngressPort where
  proto : Proto
  port : ℕ
  suffix : String

/-- Every socket or redirected port range claimed by one ingress. -/
def occupiedIngressPorts (ingress : Ingress) : List OccupiedIngressPort :=
  (ingress.wires.vless.toList.map fun _ => ⟨.tcp, ingress.port, ""⟩)
    ++ (ingress.wires.vlessEncryption.toList.map fun encryption =>
      ⟨.tcp, encryption.port, " 的 VLESS Encryption"⟩)
    ++ (ingress.wires.anytls.toList.map fun anytls => ⟨.tcp, anytls.port, " 的 AnyTLS"⟩)
    ++ (ingress.wires.mtproto.toList.map fun mtproto => ⟨.tcp, mtproto.port, " 的 MTProxy"⟩)
    ++ (ingress.wires.hysteria2.toList.flatMap fun hysteria2 =>
      ⟨.udp, hysteria2.port, " 的 Hysteria 2"⟩
        :: hysteria2.hop.toList.flatMap fun hop =>
          ((List.range' hop.start (hop.stop + 1 - hop.start)).filter (· ≠ hysteria2.port)).map
            fun port => ⟨.udp, port, " 的端口跳转区间"⟩)
    ++ if ingress.wires.vless.any (·.isRealityXhttp) then
        ingress.wires.downloadPorts.map fun port => ⟨.tcp, port, " 的 TLS 下载前置"⟩
      else []

def ingressPortOwner (ingressId suffix : String) : String := s!"接入面 {ingressId}{suffix}"

/-- The port at the end of an endpoint. -/
def endpointPort (endpoint : String) : Option ℕ :=
  (Text.rsplitOnce? endpoint ':').bind fun parts => parseU16 parts.2

def LinkWrap.serverOn (node : String) : LinkWrap → Option String
  | .udp => none
  | .fakeTcp servers => servers.get? node

/-- What holds ports on a machine, in the order it is asked. -/
def portClaims (sys : SystemIr) (app : AppIr) (node : AppNode) : List ((Proto × ℕ) × String) :=
  ((sys.nodes.find? (·.id = node.id)).toList.flatMap fun systemNode =>
      ((systemNode.wireguard.bind (·.listenPort)).toList.map fun port =>
          ((.udp, port), "WireGuard"))
        ++ ((app.steps.filter (·.node = node.id)).filterMap fun step =>
          step.hopIn.map fun hopIn => ((.tcp, hopIn.port), s!"链 {step.chain} 的中转 inbound"))
        ++ (OrdMap.keySet ((sys.links.filterMap fun link =>
            link.wrap.serverOn node.id).filterMap endpointPort)).map fun port =>
          ((.tcp, port), "phantun 伪 TCP 口"))
    ++ (node.apiPort.toList.map fun port => ((.tcp, port), "api 取数入口"))
    ++ (app.ingresses.filter (·.node = node.id)).flatMap fun ingress =>
      (occupiedIngressPorts ingress).map fun occupied =>
        ((occupied.proto, occupied.port), ingressPortOwner ingress.id occupied.suffix)

/-- Two on one port. -/
def portClash (node : String) (key : Proto × ℕ) (previous what : String) : Diagnostic :=
  .error "node.port-clash" node s!"{key.1.text} 端口 {key.2} 同时被 {previous} 和 {what} 占用"

/-- No port twice on a machine. -/
def validatePorts (sys : SystemIr) (app : AppIr) : List Diagnostic :=
  app.nodes.flatMap fun node => clashes (portClash node.id) [] (portClaims sys app node)

/-- The credentials a machine tells apart, in the order they are asked. -/
def labelClaims (app : AppIr) (node : String) : List (String × String) :=
  ((app.steps.filter (·.node = node)).filterMap fun step =>
      step.accept.map fun accept => (accept.label, s!"链 {step.chain} 的接受凭据"))
    ++ app.grants.filterMap fun grant =>
      (app.ingresses.find? (·.id = grant.ingress)).bind fun ingress =>
        if ingress.node = node then some (grant.label, s!"用户 {grant.tenant}/{grant.user}") else none

def labelClash (node label previous what : String) : Diagnostic :=
  .error "label.duplicate" node s!"label「{label}」被 {previous} 和 {what} 同时使用"

def validateLabels (app : AppIr) : List Diagnostic :=
  app.nodes.flatMap fun node => clashes (labelClash node.id) [] (labelClaims app node.id)

/-! ### Rule tables -/

mutual

/-- A selector that selects nothing it names. -/
def hasEmptyMatch : DestMatch → Bool
  | .any | .sniffingFailed | .network _ => false
  | .domainSuffix values | .domainKeyword values | .geosite values | .ipCidr values
  | .geoip values | .protocol values | .port values =>
    values.any (fun value => Text.trim value = "") || values.isEmpty
  | .domainRegex value => Text.trim value = ""
  | .portExcept values => values.isEmpty
  | .all values => values.isEmpty || anyEmptyMatch values

def anyEmptyMatch : List DestMatch → Bool
  | [] => false
  | value :: values => hasEmptyMatch value || anyEmptyMatch values

end

/-- The fields of a condition. -/
inductive MatchSlot where
  | domain
  | ip
  | port
  | network
  | protocol
  | attribute
deriving DecidableEq

/-- Take a slot, unless it is taken. -/
def putSlot (slot : MatchSlot) (slots : List MatchSlot) : Bool × List MatchSlot :=
  if slot ∈ slots then (false, slots) else (true, slot :: slots)

mutual

/-- Take the slots a selector needs; the conjuncts of one conjunction need different ones. -/
def collectMatchSlots : DestMatch → List MatchSlot → Bool × List MatchSlot
  | .any, slots => (true, slots)
  | .sniffingFailed, slots => putSlot .attribute slots
  | .domainSuffix _, slots | .domainKeyword _, slots | .domainRegex _, slots
  | .geosite _, slots => putSlot .domain slots
  | .ipCidr _, slots | .geoip _, slots => putSlot .ip slots
  | .port _, slots | .portExcept _, slots => putSlot .port slots
  | .network _, slots => putSlot .network slots
  | .protocol _, slots => putSlot .protocol slots
  | .all values, slots =>
    if (collectEachSlot values []).1 then collectEachSlot values slots else (false, slots)

/-- The slots of several. -/
def collectEachSlot : List DestMatch → List MatchSlot → Bool × List MatchSlot
  | [], slots => (true, slots)
  | value :: values, slots =>
    let put := collectMatchSlots value slots
    if put.1 then collectEachSlot values put.2 else (false, put.2)

end

def hasUnrepresentableAllMatch : DestMatch → Bool
  | .all values => !(collectEachSlot values []).1
  | _ => false

/-- The edges of a table, given how the earlier ones dial each target. -/
def forwardConflicts (step : Step) : List ((String × String) × RelayDialRef × HopPool) →
    List ForwardActionRef → List Diagnostic
  | _, [] => []
  | held, forward :: forwards =>
    let place := edgeLocation step forward
    errorIf (forward.dial.isReverse && forward.pool ≠ .none) "rule.pool-on-reverse" place
        s!"{forward.targetNode} 是反向接入，本机不发起连接，不能配置连接复用"
      ++ (match forward.pool with
        | .mux (some mux) => validateHopMux mux s!"{place}.pool.v"
        | _ => [])
      ++ ((held.lookup forward.key).toList.flatMap fun previous =>
        errorIf (previous.1 ≠ forward.dial) "rule.forward-dial-conflict" place
            s!"{forward.targetNode} 存在多种 dial 配置；同一条链边只允许一种"
          ++ errorIf (previous.2 ≠ forward.pool) "rule.forward-pool-conflict" place
            s!"{forward.targetNode} 存在多种连接复用配置；同一条链边只允许一种")
      ++ forwardConflicts step ((forward.key, forward.dial, forward.pool) :: held) forwards

def validateForwardDials (step : Step) : List Diagnostic :=
  forwardConflicts step [] step.forwards

/-- Where the rule for a failed sniff stands. -/
def validateSniffingFallback (step : Step) : List Diagnostic :=
  let place := s!"{step.chain}/{step.node}"
  let failed := step.rules.filter fun rule => rule.destMatch = .sniffingFailed
  let position := step.rules.findIdx fun rule => rule.destMatch = .sniffingFailed
  warnIf (failed.isEmpty && step.rules.any fun rule => rule.destMatch.dependsOnSniffing)
      "rule.sniffing-fallback-missing" place
      ("存在依赖嗅探的域名、Geosite 或协议规则，但没有嗅探失败兜底；" ++ "IP 目标在 200ms 内未取得域名时可能继续命中 Any")
    ++ errorIf (1 < failed.length) "rule.sniffing-fallback-duplicate" place "嗅探失败兜底只能有一条"
    ++ errorIf (!failed.isEmpty && (step.rules.getLast?.any fun rule => rule.destMatch.isAny)
        && position + 2 ≠ step.rules.length)
      "rule.sniffing-fallback-position" place
      "嗅探失败兜底必须固定在所有普通规则之后、末条 Any 之前"

def Action.leavesHere : Action → Bool
  | .egress _ | .proxy _ => true
  | _ => false

/-- The checks of one rule. -/
def validateRule (step : Step) (node : AppNode) (rule : Rule) : List Diagnostic :=
  let place := s!"{step.chain}/{step.node}"
  errorIf (hasEmptyMatch rule.destMatch) "rule.empty-match" place "规则缺少匹配值"
    ++ errorIf (hasUnrepresentableAllMatch rule.destMatch) "rule.all-unrepresentable" place
      "All 条件落到同一 xray 字段，交集不可表达"
    ++ errorIf (Action.leavesHere rule.action && !node.egressAllowed) "step.egress-denied" place
      s!"{step.node} 禁止出网：存在落地或外部代理动作"

/-- The machine connects to its upstream itself and need not be reachable. -/
def isReverseDownstream (app : AppIr) (step : Step) : Bool :=
  app.hops.any fun hop =>
    hop.chain = step.chain && hop.target = step.node && hop.path = .reverse

/-- The checks of one table. -/
def validateStep (sys : SystemIr) (app : AppIr) (step : Step) : List Diagnostic :=
  let place := s!"{step.chain}/{step.node}"
  validateForwardDials step ++ match step.rules.getLast? with
      | none => [.error "rule.no-default" place "规则表为空，末条不是 Any"]
      | some last =>
        errorIf (!last.destMatch.isAny) "rule.no-default" place "规则表末条不是 Any"
          ++ validateSniffingFallback step
          ++ errorIf (step.accept.isSome && !isReverseDownstream app step
              && !sys.nodes.any (·.id = step.node))
            "step.accept-unreachable" place
            s!"{step.node} 作为中继不可达：未加入 overlay 且没有公网中转端口"
          ++ (app.nodes.find? (·.id = step.node)).toList.flatMap fun node =>
            step.rules.flatMap (validateRule step node)

def validateSteps (sys : SystemIr) (app : AppIr) : List Diagnostic :=
  app.steps.flatMap (validateStep sys app)

/-! ### External outbounds -/

/-- A rule that leaves through a tunnel. -/
def validateProxyRule (app : AppIr) (step : Step) (outbound : String) : List Diagnostic :=
  let place := s!"{step.chain}/{step.node}"
  let tenant := (app.chains.find? (·.id = step.chain)).map (·.tenant)
  match app.externalOutbounds.find? (·.id = outbound) with
  | none => [.error "rule.unknown-external-outbound" place s!"规则指向不存在的代理出站 {outbound}"]
  | some target =>
    (match target.protocol with
      | .warp _ _ =>
        errorIf (!target.bindings.any (·.node = step.node)) "rule.warp-unbound-node" place
          (s!"规则使用 WARP 隧道 {target.name}，" ++ s!"但机器 {step.node} 还没有独立的 WARP 设备身份")
      | _ => [])
      ++ errorIf (tenant.any fun tenant => !under tenant target.tenant) "tenant.scope"
        s!"{step.chain}/{target.id}"
        ("链属于 " ++ tenant.getD "" ++ s!"，而代理出站 {target.id} 归属于 {target.tenant}，" ++ "不在可见范围内")

def Action.proxied? : Action → Option String
  | .proxy outbound => some outbound
  | _ => none

/-- The outbounds outside the fleet. -/
def validateExternalOutbounds (checks : Checks) (app : AppIr) : List Diagnostic :=
  app.externalOutbounds.flatMap checks.externalOutbound ++ app.steps.flatMap fun step =>
      (step.rules.filterMap fun rule => Action.proxied? rule.action).flatMap
        (validateProxyRule app step)

/-! ### Topology -/

/-- Every listener that is referenced, by this project or by another one. -/
def referencedListeners (app : AppIr) : List (String × String) :=
  OrdMap.pairSet
    ((app.steps.flatMap (·.rules)).filterMap (·.action.reused?) ++ app.listenerRoots)

/-- The machines the table of `node` forwards to, in one chain's tables. -/
def chainForwards (steps : List Step) (node : String) : List String :=
  ((steps.find? (·.node = node)).toList.flatMap (·.rules)).filterMap (·.action.forwardTarget?)

/-- Where a chain is entered: at its head, and at its referenced listeners. -/
def chainEntries (app : AppIr) (chain root : String) : List String :=
  OrdMap.keySet
    (root :: ((referencedListeners app).filter fun ref => ref.1 = chain).map (·.2))

/-- The machines met again while the search from an entry is still below them. -/
def detectCycle (app : AppIr) (steps : List Step) (chain root : String) : List String :=
  (Dfs.allThread (Dfs.cycles (chainForwards steps) (steps.length + 1) [])
    (chainEntries app chain root) []).1

/-- The tables of a chain form a tree. -/
def validateChainTopology (app : AppIr) (chain root : String) : List Diagnostic :=
  let steps := app.steps.filter (·.chain = chain)
  let forwarded := (steps.flatMap (·.rules)).filterMap (·.action.forwardTarget?)
  ((OrdMap.keySet (steps.map (·.node) ++ forwarded)).flatMap fun node =>
      errorIf (node ≠ root && decide ((chain, node) ∉ referencedListeners app)
          && decide (node ∉ forwarded))
        "chain.unreachable" s!"{chain}/{node}" s!"{node} 没有上游转发规则指向它")
    ++ ((detectCycle app steps chain root).map fun node =>
      Diagnostic.error "chain.cycle" s!"{chain}/{node}" s!"{node} 在链 {chain} 上形成了环")
    ++ steps.flatMap fun step =>
      errorIf (step.forwards.isEmpty && !step.rules.any fun rule =>
          Action.leavesHere rule.action || rule.action = .block)
        "step.dead-leaf" s!"{chain}/{step.node}" s!"{step.node} 既不转发也不出网"

/-- An edge that enters a listener, with the table it leaves. -/
structure ListenerEdge where
  step : Step
  listener : String × String

/-- Where a reference stands. -/
def ListenerEdge.location (edge : ListenerEdge) : String :=
  s!"{edge.step.chain}/{edge.step.node}->listener:{edge.listener.1}/{edge.listener.2}"

/-- All references to listeners. -/
def listenerEdges (steps : List Step) : List ListenerEdge :=
  steps.flatMap fun step => (step.rules.filterMap (·.action.reused?)).map fun ref => ⟨step, ref⟩

/-- The tables the edges of a table lead to, each table looked up by the given function. -/
def tableNext (find : String × String → Option Step) (at' : String × String) :
    List (String × String) :=
  ((find at').toList.flatMap (·.forwards)).map (·.key)

/-- Does the subtree of a listener lead back to the table that references it? -/
def listenerReaches (app : AppIr) (edge : ListenerEdge) : Bool :=
  (Dfs.reaches (tableNext (findStep app.steps)) edge.step.key (app.steps.length + 1)
    edge.listener []).1

/-- What is reported of each edge, and once a location that it closes a cycle. -/
def validateListenerEdges (before : ListenerEdge → List Diagnostic) (cyclic : ListenerEdge → Bool)
    (message : String) : List String → List ListenerEdge → List Diagnostic
  | _, [] => []
  | reported, edge :: edges =>
    before edge ++ errorIf (cyclic edge && decide (edge.location ∉ reported)) "listener.cycle"
        edge.location message
      ++ validateListenerEdges before cyclic message
        (if cyclic edge then edge.location :: reported else reported) edges

/-- No reference comes back. -/
def validateListenerReferenceCycles (app : AppIr) : List Diagnostic :=
  validateListenerEdges (fun _ => []) (listenerReaches app)
    "该监听子树能回到当前规则表，引用会形成跨线路环路" [] (listenerEdges app.steps)

/-- Chains and references. -/
def validateTopology (app : AppIr) : List Diagnostic :=
  (app.chains.flatMap fun chain => chain.root.toList.flatMap (validateChainTopology app chain.id))
    ++ validateListenerReferenceCycles app

/-! ### Fronts and disguises -/

def hasDownstream (app : AppIr) (front : String) : Bool :=
  app.ingresses.any fun ingress => ingress.front = some front

/-- An ingress of a front. -/
def validateVia (app : AppIr) (front : Front) (via : String) : List Diagnostic :=
  match app.ingresses.find? (·.id = via) with
  | none => [.error "front.unknown-via" front.id s!"前置组指向的接入面 {via} 不存在"]
  | some ingress => ingress.front.toList.map fun parent =>
    .error "front.nested" s!"{front.id}/{via}"
      s!"前置组成员 {via} 已是前置组 {parent} 的目标；链式代理当前只支持一层"

/-- An outbound of a front. -/
def validateExternalVia (checks : Checks) (app : AppIr) (front : Front) (via : String) :
    List Diagnostic :=
  match app.externalOutbounds.find? (·.id = via) with
  | none => [.error "front.unknown-external-via" front.id s!"前置组指向的隧道 {via} 不存在"]
  | some outbound =>
    errorIf (outbound.tenant ≠ front.tenant) "tenant.scope" s!"{front.id}/{outbound.id}"
        "前置组与外部成员隧道必须属于同一租户"
      ++ (match outbound.protocol with
        | .warp _ _ => [.error "front.warp-machine-identity" s!"{front.id}/{outbound.id}"
            ("WARP 身份按机器生成，没有可安全下发给用户的共享身份；" ++ "请使用手工隧道作为 Clash 前置")]
        | .vpngate _ => [.error "front.vpngate-managed-runtime" s!"{front.id}/{outbound.id}"
            ("VPN Gate 配置由节点 Agent 持有，不能直接下发给客户端；" ++ "请先发布一个使用该池出站的内部接入点，再把该接入点加入链式代理")]
        | .other _ => [])
      ++ checks.externalFront front.id outbound

/-- A grant on a target of a front, without a grant on any of its members. -/
def missesVia (app : AppIr) (grant : Grant) : Option Front :=
  ((app.ingresses.find? (·.id = grant.ingress)).bind (·.front)).bind fun id =>
    (app.fronts.find? (·.id = id)).filter fun front =>
      under grant.tenant front.tenant && !(front.via.isEmpty || !front.externalVia.isEmpty)
        && !app.grants.any fun candidate =>
          candidate.tenant = grant.tenant && candidate.user = grant.user
            && decide (candidate.ingress ∈ front.via)

/-- All checks of the fronts. -/
def validateFronts (checks : Checks) (sys : SystemIr) (app : AppIr) : List Diagnostic :=
  (app.fronts.flatMap fun front =>
      warnIf (front.via.isEmpty && front.externalVia.isEmpty && hasDownstream app front.id)
          "front.no-via" front.id s!"前置组 {front.id} 没有可用成员，该组下的接入面无法连接"
        ++ front.via.flatMap (validateVia app front)
        ++ front.externalVia.flatMap (validateExternalVia checks app front))
    ++ (app.grants.flatMap fun grant => (missesVia app grant).toList.map fun front =>
      Diagnostic.info "front.grant-via" grant.id
        (s!"用户 {grant.tenant}/{grant.user} 已获得 {grant.ingress} 的授权，" ++
          s!"但没有前置组 {front.id} 中任何入口的授权；该目标不会进入此用户订阅"))
    ++ (app.ingresses.flatMap fun ingress => ingress.front.toList.flatMap fun front =>
      errorIf (app.fronts.all (·.id ≠ front)) "front.missing" ingress.id s!"接入面引用的前置组 {front} 不存在")
    ++ app.fronts.flatMap (checks.frontRoutes sys app)

/-- The disguises. -/
def validateReality (checks : Checks) (app : AppIr) : List Diagnostic :=
  app.ingresses.flatMap fun ingress =>
    (ingress.wires.reality.toList.flatMap fun reality =>
        checks.reality ingress reality (some ingress.identity) false)
      ++ ingress.wires.anytlsReality.toList.flatMap fun reality =>
        checks.reality ingress reality ingress.anytlsIdentity true

/-! ### Hops -/

/-- Remarks on hops outside WireGuard; none of them blocks. -/
def validateHopSecurity (app : AppIr) : List Diagnostic :=
  app.hops.flatMap fun hop =>
    let place := s!"{hop.chain}/{hop.source}->{hop.target}"
    if hop.path = .overlay ∨ hop.path = .loopback then []
    else
      match hop.security with
      | .none =>
        let dial :=
          if hop.path = .reverse then s!"{hop.target} 明文连入 {hop.address}:{hop.port}"
          else s!"明文直拨 {hop.address}:{hop.port}"
        [.info "hop.plaintext" place
          (s!"{dial}：该跳不经过 WireGuard，" ++ s!"若 {hop.address} 位于公网，UUID 和目标地址以明文传输")]
      | .reality _ _ _ _ =>
        warnIf (hop.port ≠ 443) "hop.reality-port" place
          s!"REALITY 端口 {hop.port} 不是 443，伪装特征明显"
      | .encryption _ | .shadowsocks2022 _ _ => []

def HopWire.isShadowsocks : HopWire → Bool
  | .shadowsocks2022 _ _ => true
  | _ => false

/-- A port that a downstream connects back to speaks VLESS. -/
def validateReverseNeedsVless (app : AppIr) : List Diagnostic :=
  (app.hops.filter (·.path = .reverse)).flatMap fun hop =>
    let hopIn := (findStep app.steps (hop.chain, hop.source)).bind (·.hopIn)
    errorIf (hopIn.any fun hopIn => HopWire.isShadowsocks hopIn.security) "hop.reverse-needs-vless"
      s!"{hop.chain}/{hop.source}"
      (s!"{hop.source} 的中转端口使用了 Shadowsocks 2022，" ++ s!"但 {hop.target} 需要从此处反向接入，反向隧道只支持 VLESS")

/-! ### Tenants and resolvers -/

/-- What a chain uses is the tenant's. -/
def validateChainScope (app : AppIr) (chain : Chain) (step : Step) (node : AppNode) :
    List Diagnostic :=
  errorIf (!under chain.tenant node.tenant) "tenant.scope" s!"{chain.id}/{node.id}"
      s!"链属于 {chain.tenant}，而 {node.id} 归属于 {node.tenant}，不在可见范围内"
    ++ (step.rules.filterMap (·.action.reused?)).flatMap fun listener =>
      (app.chains.find? (·.id = listener.1)).toList.flatMap fun owner =>
        errorIf (!under chain.tenant owner.tenant) "tenant.scope"
          s!"{chain.id}/{step.node}->listener:{listener.1}/{listener.2}"
          s!"链属于 {chain.tenant}，而引用的监听归属于 {owner.tenant}，不在可见范围内"

def validateTenants (app : AppIr) : List Diagnostic :=
  (app.chains.flatMap fun chain => (app.steps.filter (·.chain = chain.id)).flatMap fun step =>
      (app.nodes.find? (·.id = step.node)).toList.flatMap (validateChainScope app chain step))
    ++ (app.fronts.flatMap fun front => front.via.flatMap fun via =>
      (app.ingresses.find? (·.id = via)).toList.flatMap fun ingress =>
        errorIf (!under front.tenant ingress.tenant) "tenant.scope" s!"{front.id}/{ingress.id}"
          (s!"前置组属于 {front.tenant}，而成员 {ingress.id} 归属于 {ingress.tenant}，" ++ "不在可见范围内"))
    ++ (app.ingresses.flatMap fun ingress =>
      (ingress.front.bind fun id => app.fronts.find? (·.id = id)).toList.flatMap fun front =>
        errorIf (!under front.tenant ingress.tenant) "tenant.scope" s!"{front.id}/{ingress.id}"
          (s!"前置组属于 {front.tenant}，而目标 {ingress.id} 归属于 {ingress.tenant}，" ++ "不在可见范围内"))
    ++ app.grants.flatMap fun grant =>
      (app.users.find? fun user => user.tenant = grant.tenant && user.id = grant.user).toList.flatMap
        fun user => (app.ingresses.find? (·.id = grant.ingress)).toList.flatMap fun ingress =>
          errorIf (grant.tenant ≠ user.tenant || !under grant.tenant ingress.tenant) "tenant.scope"
            grant.id
            s!"授权属于 {grant.tenant}，用户属于 {user.tenant}，接入面归属于 {ingress.tenant}"

/-- A resolver with a scheme. -/
def startsWithDnsScheme (value : String) : Bool :=
  ["tcp://", "udp://", "https://", "quic://", "h2c://", "tcp+local://", "udp+local://"].any
    (Text.startsWith value)

/-- A form that a resolver may have. -/
def isDnsServerForm (server : String) : Bool :=
  let value := Text.trim server
  value = "localhost" || value = "fakedns" || isIpv4 value || Text.contains value ":"
    || startsWithDnsScheme value

/-- The resolvers of the machines. -/
def validateDns (app : AppIr) : List Diagnostic :=
  app.nodes.flatMap fun node =>
    match node.dns with
    | .system => []
    | .servers servers => servers.flatMap fun server =>
      errorIf (!isDnsServerForm server) "node.dns-form" node.id s!"解析器「{server}」格式无效"

/-! ### All of them -/

/-- All checks of a project. -/
def validateApp (checks : Checks) (sys : SystemIr) (app : AppIr) : List Diagnostic :=
  validateUniqueIds app ++ validateSlugs app ++ validateChainIngresses checks app
    ++ validatePorts sys app
    ++ validateLabels app
    ++ validateSteps sys app
    ++ validateExternalOutbounds checks app
    ++ validateTopology app
    ++ validateFronts checks sys app
    ++ validateReality checks app
    ++ validateHopSecurity app
    ++ validateReverseNeedsVless app
    ++ validateTenants app
    ++ validateDns app

end Brocade.Ir
