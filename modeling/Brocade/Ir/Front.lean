/-
The static analysis of the routes a front takes.

A route is decided before any traffic flows: a rule table is walked in order, a rule that may
match branches, and one that must match ends the walk.  The answer at a table is settled only
where every branch settles the same way.  A table met a second time on one branch is a loop and
settles nothing.

The recursion is on a fuel; that the number of rule tables suffices is in `Ir/FrontSound.lean`.
-/
import Brocade.Ir.Hops
import Brocade.Ir.Matching
import Brocade.Lib.Ip

namespace Brocade.Ir

open Model

/-- What a route comes to. -/
inductive FrontRouteStatus where
  | reachable
  | blocked
  | conditional
  | unknown
  | external
  | pending
deriving DecidableEq

/-- The verdict on one route. -/
structure FrontRouteDecision where
  status : FrontRouteStatus
  (chainId nodeId : Option String)
  /-- one-based position in the compiled rule table -/
  ruleIndex : Option ℕ
  (selector action : Option String)
  reason : String

/-- One address a subscription points a client at. -/
structure SubscriptionEndpoint where
  host : String
  port : ℕ
  network : Network

/-- What the route is for: one endpoint, or whatever users ask for. -/
inductive RouteSubject where
  | endpoint (endpoint : SubscriptionEndpoint)
  | internet

/-! ### Matching without the runtime's knowledge -/

/-- What is known of a match. -/
inductive MatchVerdict where
  | hit
  | miss
  | maybe

def asciiLowercase (value : String) : String := String.ofList (value.toList.map Char.toLower)

/-- The host or a domain above it. -/
def domainSuffixMatch (host suffix : String) : Bool :=
  let host := asciiLowercase host
  let suffix := asciiLowercase suffix
  host = suffix || Text.endsWith host s!".{suffix}"

def domainKeywordMatch (host keyword : String) : Bool :=
  Text.contains (asciiLowercase host) (asciiLowercase keyword)

def hitIf (found : Bool) : MatchVerdict := if found then .hit else .miss

/-- One item of a port list; a malformed one is undecided. -/
def portItemMatch (port : ℕ) (value : String) : MatchVerdict :=
  match Address.parseU16 value with
  | some candidate => if candidate = port then .hit else if candidate = 0 then .maybe else .miss
  | none =>
    match Text.splitOnce? value "-" with
    | none => .maybe
    | some (low, high) =>
      match Address.parseU16 (Text.trim low), Address.parseU16 (Text.trim high) with
      | some low, some high =>
        if low = 0 || high < low then .maybe else hitIf (low ≤ port && port ≤ high)
      | _, _ => .maybe

/-- The items in order, given whether an earlier one was malformed. -/
def portItemsMatch (port : ℕ) : Bool → List String → MatchVerdict
  | invalid, [] => if invalid then .maybe else .miss
  | invalid, value :: values =>
    match portItemMatch port value with
    | .hit => .hit
    | .miss => portItemsMatch port invalid values
    | .maybe => portItemsMatch port true values

def portMatch (port : ℕ) (values : List String) : MatchVerdict :=
  portItemsMatch port false (portItems values)

section Nets

-- how a network is read
variable (parseNet : String → Option Ip.Net)

def addressMatch (ip : Ip.Addr) (value : String) : Bool :=
  Ip.parse value = some ip || (parseNet value).any (·.contains ip)

/-- The verdict of an address list. -/
def ipMatch (host : String) (values : List String) : MatchVerdict :=
  match Ip.parse host with
  | none => .miss
  | some ip => hitIf (values.any (addressMatch parseNet ip))

mutual

/-- The verdict for an endpoint. -/
def matchEndpoint (endpoint : SubscriptionEndpoint) : DestMatch → MatchVerdict
  | .any => .hit
  | .domainSuffix values => hitIf (values.any (domainSuffixMatch endpoint.host))
  | .domainKeyword values => hitIf (values.any (domainKeywordMatch endpoint.host))
  | .ipCidr values => ipMatch parseNet endpoint.host values
  | .port values => portMatch endpoint.port values
  | .portExcept values => hitIf (!values.contains endpoint.port)
  | .network network => hitIf (network = endpoint.network)
  | .all values => matchEvery endpoint false values
  -- neither geodata nor what a sniffer may find is known here
  | .domainRegex _ | .geosite _ | .geoip _ | .protocol _ | .sniffingFailed => .maybe

/-- A conjunction, given whether an earlier part is undecided. -/
def matchEvery (endpoint : SubscriptionEndpoint) : Bool → List DestMatch → MatchVerdict
  | maybe, [] => if maybe then .maybe else .hit
  | maybe, value :: values =>
    match matchEndpoint endpoint value with
    | .hit => matchEvery endpoint maybe values
    | .miss => .miss
    | .maybe => matchEvery endpoint true values

end

/-- The verdict for a subject. -/
def matchSubject (destMatch : DestMatch) : RouteSubject → MatchVerdict
  | .endpoint endpoint => matchEndpoint parseNet endpoint destMatch
  | .internet => if destMatch.isAny then .hit else .maybe

end Nets

/-- A selector's kind. -/
def selectorName : DestMatch → String
  | .any => "any"
  | .sniffingFailed => "sniffing-failed"
  | .domainSuffix _ => "domain-suffix"
  | .domainKeyword _ => "domain-keyword"
  | .domainRegex _ => "domain-regex"
  | .geosite _ => "geosite"
  | .ipCidr _ => "ip-cidr"
  | .geoip _ => "geoip"
  | .port _ => "port"
  | .portExcept _ => "port-except"
  | .network _ => "network"
  | .protocol _ => "protocol"
  | .all _ => "all"

/-! ### Decisions -/

/-- A decision, with its place. -/
def locatedDecision (status : FrontRouteStatus) (chain node : String) (ruleIndex : Option ℕ)
    (selector action : Option String) (reason : String) : FrontRouteDecision :=
  ⟨status, some chain, some node, ruleIndex, selector, action, reason⟩

/-- What the branches of a table say together; there is always one. -/
def aggregateRuleDecisions (chain node : String) (first : FrontRouteDecision)
    (rest : List FrontRouteDecision) : FrontRouteDecision :=
  let decisions := first :: rest
  if decisions.all (·.status = .blocked) then
    if rest.isEmpty then first else { first with reason := "所有可能先命中的规则都明确阻断" }
  else if decisions.all (·.status = .reachable) then
    if rest.isEmpty then first else { first with reason := "所有可能先命中的规则都具有出网路径" }
  else
    match decisions.find? (·.status = .unknown) with
    | some unknown => { unknown with reason := "至少一个可能的规则分支无法得到最终动作" }
    | none => locatedDecision .conditional chain node none none none "不同的运行时规则分支会得到不同结果"

/-- What a rule leads to, where tables are decided by `decide`. -/
def routeActionDecision (decide : String → String → Option FrontRouteDecision)
    (chain node : String) (ruleIndex : ℕ) (rule : Rule) : Option FrontRouteDecision :=
  let selector := selectorName rule.destMatch
  let follow := fun (chain node action : String) => (decide chain node).map fun decision =>
    if decision.action.isNone then { decision with action := some action } else decision
  match rule.action with
  | .egress _ => some (locatedDecision .reachable chain node (some ruleIndex) (some selector)
      (some "egress") "规则选择本机出网")
  | .proxy _ => some (locatedDecision .reachable chain node (some ruleIndex) (some selector)
      (some "proxy") "规则选择受管代理出口")
  | .block => some (locatedDecision .blocked chain node (some ruleIndex) (some selector)
      (some "block") "规则明确阻断")
  | .forward target _ _ => follow chain target "forward"
  | .reuseListener listener _ _ => follow listener.chain listener.node "reuse-listener"

/-- The decisions of the rules that may be the first to match, from a position on. -/
def ruleDecisions (matched : DestMatch → MatchVerdict)
    (decide : ℕ → Rule → Option FrontRouteDecision) (chain node : String) :
    ℕ → List Rule → Option (FrontRouteDecision × List FrontRouteDecision)
  | _, [] => some (locatedDecision .unknown chain node none none none "规则可能全部不命中，无法得到最终动作", [])
  | index, rule :: rules =>
    match matched rule.destMatch with
    | .miss => ruleDecisions matched decide chain node (index + 1) rules
    | .maybe => do
        let decision ← decide (index + 1) rule
        let rest ← ruleDecisions matched decide chain node (index + 1) rules
        return (decision, rest.1 :: rest.2)
    | .hit => do
        let decision ← decide (index + 1) rule
        return (decision, [])

def tableKey (chain node : String) : String := s!"{chain}|{node}"

/-- The decision at a table, given the tables met on the way to it. -/
def routeDecisionInner (parseNet : String → Option Ip.Net) (app : AppIr) (subject : RouteSubject) :
    ℕ → List String → String → String → Option FrontRouteDecision
  | 0, _, _, _ => none
  | fuel + 1, seen, chain, node =>
    if tableKey chain node ∈ seen then
      some (locatedDecision .unknown chain node none none none "链路规则形成循环，无法得到终点")
    else
      match findStep app.steps (chain, node) with
      | none => some (locatedDecision .unknown chain node none none none "服务中拓扑没有对应的链路步骤")
      | some step => do
          let possible ← ruleDecisions (fun destMatch => matchSubject parseNet destMatch subject)
            (routeActionDecision
              (routeDecisionInner parseNet app subject fuel (tableKey chain node :: seen))
              chain node)
            chain node 0 step.rules
          return aggregateRuleDecisions chain node possible.1 possible.2

/-- What a subject's route comes to. -/
def routeDecision (parseNet : String → Option Ip.Net) (app : AppIr) (chain node : String)
    (subject : RouteSubject) : Option FrontRouteDecision :=
  routeDecisionInner parseNet app subject (app.steps.length + 1) [] chain node

end Brocade.Ir
