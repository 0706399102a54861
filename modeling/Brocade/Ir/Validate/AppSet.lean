/-
What is checked of all the compiled projects together.

A project's own checks see its ports, labels and references only.  Machines are shared, so
a port or a label taken by two projects is found here, and so is a reference that leaves its
project: the chain it enters belongs to somebody, and its subtree may lead back.
-/
import Brocade.Ir.Routing
import Brocade.Ir.Validate.App

namespace Brocade.Ir

open Model

def appName (app : AppIr) (index : ℕ) : String := app.appId.getD s!"app#{index}"

/-! ### Ports and labels -/

/-- What holds ports, by machine and port, each with the place of its project. -/
def appPortClaims (app : AppIr) (index : ℕ) : List ((String × Proto × ℕ) × ℕ × String) :=
  let name := appName app index
  (app.ingresses.flatMap fun ingress => (occupiedIngressPorts ingress).map fun occupied =>
      ((ingress.node, occupied.proto, occupied.port), index,
        ingressPortOwner s!"{name}/{ingress.id}" occupied.suffix))
    ++ app.steps.filterMap fun step => step.hopIn.map fun hopIn =>
      ((step.node, .tcp, hopIn.port), index, s!"{name} 链 {step.chain} 的中转 inbound")

/-- No port twice among projects. -/
def validateAppSetPorts (apps : List AppIr) : List Diagnostic :=
  crossClashes (fun key previous what => portClash key.1 key.2 previous what) []
    (apps.zipIdx.flatMap fun app => appPortClaims app.1 app.2)

/-- The labels of a project. -/
def appLabelClaims (app : AppIr) (index : ℕ) : List ((String × String) × ℕ × String) :=
  let name := appName app index
  (app.steps.filterMap fun step => step.accept.map fun accept =>
      ((step.node, accept.label), index, s!"{name} 链 {step.chain} 的接受凭据"))
    ++ app.grants.filterMap fun grant =>
      (app.ingresses.find? (·.id = grant.ingress)).map fun ingress =>
        ((ingress.node, grant.label), index, s!"{name} 用户 {grant.tenant}/{grant.user}")

/-- No label twice among projects. -/
def validateAppSetLabels (apps : List AppIr) : List Diagnostic :=
  crossClashes (fun key previous what => labelClash key.1 key.2 previous what) []
    (apps.zipIdx.flatMap fun app => appLabelClaims app.1 app.2)

/-! ### Resolvers -/

/-- The outbounds a machine's landing rules leave by. -/
def egressTags (apps : List AppIr) (node : String) : List String :=
  OrdMap.keySet ((((apps.flatMap (·.steps)).filter (·.node = node)).flatMap (·.rules)).filterMap
    fun rule => match rule.action with
      | .egress sendThrough => some (egressTag sendThrough)
      | _ => none)

/-- A machine's resolver, as the first project that has the machine knows it. -/
def validateNodeDns (apps : List AppIr) (node : AppNode) : List Diagnostic :=
  if node.domainStrategy = .asIs then
    warnIf (node.dns.needsRoute
        || ((apps.flatMap (·.nodes)).filter (·.id = node.id)).any fun other =>
        !other.egressDns.isEmpty)
      "node.dns-bypassed" node.id
      (s!"{node.id} 的域名策略为 AsIs，Freedom 不调用 Xray 内建 DNS；" ++ "配置的 DNS 服务器和机器 DNS 策略不会被查询")
  else if !node.dns.needsRoute then []
  else
    match (egressTags apps node.id).length with
    | 0 => [.info "node.dns-unused" node.id s!"{node.id} 配置了 Xray 内建 DNS 服务器，当前没有可承载其查询流量的落地出站"]
    | 1 => []
    | count => [.error "dns.route-ambiguous" node.id
        s!"{node.id} 有 {count} 个普通落地出站，Xray 内建 DNS 查询没有唯一出口"]

/-- Resolvers of one machine agree. -/
def validateAppSetDns (apps : List AppIr) : List Diagnostic :=
  (OrdMap.keySet ((apps.flatMap (·.nodes)).map (·.id))).flatMap fun id =>
    ((apps.flatMap (·.nodes)).find? (·.id = id)).toList.flatMap (validateNodeDns apps)

/-! ### References that leave their project -/

/-- The chain of an id with the place of its project; the last one where several share it. -/
def chainOwnerIn (apps : List AppIr) (chain : String) : Option (ℕ × Chain) :=
  (apps.zipIdx.flatMap fun app => app.1.chains.map fun chain => (app.2, chain)).reverse.find?
    fun owned => owned.2.id = chain

/-- The table of a key among all projects; the last one where several share it. -/
def globalStep (apps : List AppIr) (key : String × String) : Option Step :=
  findStep (apps.flatMap (·.steps)).reverse key

/-- Whether a reference comes back. -/
def globalListenerReaches (apps : List AppIr) (edge : ListenerEdge) : Bool :=
  (Dfs.reaches (tableNext (globalStep apps)) edge.step.key ((apps.flatMap (·.steps)).length + 1)
    edge.listener []).1

/-- The edges of one project that enter a listener of another one. -/
def crossEdges (apps : List AppIr) (app : AppIr) (index : ℕ) : List ListenerEdge :=
  (listenerEdges app.steps).filter fun edge =>
    (chainOwnerIn apps edge.step.chain).isSome
      && (chainOwnerIn apps edge.listener.1).any fun owner => owner.1 ≠ index

/-- The chain an edge leaves sees the chain it enters. -/
def crossScope (apps : List AppIr) (edge : ListenerEdge) : List Diagnostic :=
  (chainOwnerIn apps edge.step.chain).toList.flatMap fun source =>
    (chainOwnerIn apps edge.listener.1).toList.flatMap fun target =>
      errorIf (!under source.2.tenant target.2.tenant) "tenant.scope" edge.location
        s!"链属于 {source.2.tenant}，而引用的监听归属于 {target.2.tenant}，不在可见范围内"

/-- None does among projects. -/
def validateCrossAppListenerReferences (apps : List AppIr) : List Diagnostic :=
  validateListenerEdges (crossScope apps) (globalListenerReaches apps)
    "该监听子树能回到当前规则表，引用会形成跨项目环路" []
    (apps.zipIdx.flatMap fun app => crossEdges apps app.1 app.2)

/-! ### Subscriptions -/

def RESERVED : List String := ["DIRECT", "REJECT", "REJECT-DROP", "PASS", "COMPATIBLE"]

/-- The names of one subscription, given who holds the earlier ones. -/
def subscriptionFaults (location : String) : List (String × String) → List (String × String) →
    List Diagnostic
  | _, [] => []
  | held, (name, owner) :: names =>
    errorIf (decide (name ∈ RESERVED)) "subscription.name-reserved" location
        s!"{owner} 使用了 Mihomo 保留名称「{name}」"
      ++ ((held.lookup name).map fun previous =>
        Diagnostic.error "subscription.name-collision" location
          s!"Mihomo 名称「{name}」同时被 {previous} 和 {owner} 使用").toList
      ++ subscriptionFaults location ((name, owner) :: held) names

/-- The names clients see differ. -/
def validateSubscriptionNames (checks : Checks) (apps : List AppIr) : List Diagnostic :=
  (OrdMap.pairSet ((apps.flatMap (·.users)).map fun user => (user.tenant, user.id))).flatMap
    fun user => subscriptionFaults s!"{user.1}/{user.2}" []
      (checks.subscriptionNames apps user.1 user.2)

/-! ### All of them -/

/-- All checks across projects. -/
def validateAppSet (checks : Checks) (apps : List AppIr) : List Diagnostic :=
  validateAppSetPorts apps ++ validateAppSetLabels apps ++ validateAppSetDns apps
    ++ validateCrossAppListenerReferences apps
    ++ validateSubscriptionNames checks apps

end Brocade.Ir
