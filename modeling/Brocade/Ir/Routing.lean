/-
The routing pass: from a project's stored fragments to the rule tables it compiles to.

A chain's members are whoever its rules lead to.  Two walks discover them.  One starts at
the machine of the chain's ingress and decides whether a decommissioned machine disables the
chain; the other starts, over all projects at once, at every chain that is not disabled, and
collects the listeners its rules enter, which stay alive even where no ingress of their own
chain leads to them.  A chain is then compiled from its ingress and from those listeners.

Every walk is a worklist and recurses on a fuel; that the fuel suffices, and what the walks
find, is in `Ir/Members.lean`.
-/
import Brocade.Ir.App
import Brocade.Lib.Worklist

namespace Brocade.Ir

open Model

/-! ### Fragments -/

/-- All source fragments for one chain node, in model order. -/
def stepsAtSource (steps : List Model.Step) (chain node : String) : List Model.Step :=
  steps.filter fun step => step.chain = chain && step.node = node

def stepsAt (app : AppView) (chain node : String) : List Model.Step :=
  stepsAtSource app.steps chain node

def rulesAt (steps : List Model.Step) (chain node : String) : List Rule :=
  (stepsAtSource steps chain node).flatMap (·.rules)

/-- The machines the chain's rules on `node` forward to. -/
def forwardsAt (steps : List Model.Step) (chain node : String) : List String :=
  (rulesAt steps chain node).filterMap (·.action.forwardTarget?)

/-- Where a chain's rules lead. -/
def chainMembersFromSteps (steps : List Model.Step) (chain root : String) : List String :=
  (Worklist.explore (forwardsAt steps chain) (fun _ _ => ()) (steps.map (·.node)) [root] ()).1

/-- The machines reached from `root` along the chain's Forwards. -/
def chainMembers (app : AppView) (chain root : String) : List String :=
  chainMembersFromSteps app.steps chain root

/-! ### Chain heads -/

/-- Keep the ingress with the smaller id, and the smaller machine for one id. -/
def pickRoot (root : Option Model.Ingress) (ingress : Model.Ingress) : Option Model.Ingress :=
  match root with
  | none => some ingress
  | some root => if [ingress.id, ingress.node] < [root.id, root.node] then some ingress else some root

/-- The ingress whose machine a chain begins on. -/
def selectedChainRoot (app : AppView) (chain : String) : Option Model.Ingress :=
  (app.ingresses.filter fun ingress => ingress.chain = chain).foldl pickRoot none

/-- A chain whose ingresses sit on several machines has no one head. -/
def chainRootDiagnostics (app : AppView) : List Diagnostic :=
  (OrdMap.keySet (app.ingresses.map (·.chain))).flatMap fun chain =>
    let ingresses := app.ingresses.filter fun ingress => ingress.chain = chain
    if !(app.chains.any (·.id = chain)) || (OrdMap.keySet (ingresses.map (·.node))).length ≤ 1
    then []
    else
      let placed := ingresses.insertionSort fun a b => [a.node, a.id] ≤ [b.node, b.id]
      let names := String.intercalate "、" (placed.map fun ingress => s!"{ingress.id}@{ingress.node}")
      [.error "chain.multi-ingress" chain
        (s!"项目 {app.id} 的链 {chain} 的接入面落在多台机器上：{names}；" ++ "一条链的接入面必须都在同一台机器上")]

/-! ### Decommissioning -/

def retiredNodes (doc : ModelSnapshot) : List String :=
  (doc.nodes.filter (·.retired)).map (·.id)

/-- The walk from the chain's head meets a decommissioned machine. -/
def reachesRetired (doc : ModelSnapshot) (app : AppView) (chain : String) : Bool :=
  match selectedChainRoot app chain with
  | none => false
  | some root => (chainMembers app chain root.node).any fun node => node ∈ retiredNodes doc

def disabledChains (doc : ModelSnapshot) (app : AppView) : List String :=
  (app.chains.map (·.id)).filter (reachesRetired doc app)

/-- The machine of an id; the last one where several share it. -/
def nodeById (doc : ModelSnapshot) (id : String) : Option Node :=
  doc.nodes.reverse.find? fun node => node.id = id

/-- Whether an ingress belongs in the compiled project: its machine is in service and its
chain is not disabled. -/
def isLiveIngress (doc : ModelSnapshot) (app : AppView) (ingress : Model.Ingress) : Bool :=
  !((nodeById doc ingress.node).any (·.retired)) && decide (ingress.chain ∉ disabledChains doc app)

/-! ### Listeners reached across projects -/

/-- The project a chain id belongs to; the first one where several hold it. -/
def chainOwner (doc : ModelSnapshot) (chain : String) : Option AppView :=
  doc.apps.find? fun app => app.chains.any (·.id = chain)

/-- The head of a chain, from the first project that holds it and has an ingress for it. -/
def globalRoot (doc : ModelSnapshot) (chain : String) : Option String :=
  doc.apps.findSome? fun app =>
    if app.chains.any (·.id = chain) then (selectedChainRoot app chain).map (·.node) else none

def globalDisabled (doc : ModelSnapshot) : List String :=
  doc.apps.flatMap (disabledChains doc)

/-- The rules stored at a table, looked up through the project that owns its chain. -/
def ownedRules (doc : ModelSnapshot) (at' : String × String) : List Rule :=
  match chainOwner doc at'.1 with
  | none => []
  | some app => rulesAt app.steps at'.1 at'.2

/-- Where the walk continues behind one rule. -/
def walkEdge (doc : ModelSnapshot) (chain : String) (rule : Rule) : Option (String × String) :=
  match rule.action with
  | .forward target _ _ => some (chain, target)
  | .reuseListener listener _ _ =>
    if (chainOwner doc listener.chain).isSome && decide (listener.chain ∉ globalDisabled doc)
    then some (listener.chain, listener.node) else none
  | .egress _ | .proxy _ | .block => none

def walkNext (doc : ModelSnapshot) (at' : String × String) : List (String × String) :=
  (ownedRules doc at').filterMap (walkEdge doc at'.1)

/-- The listeners the rules at a table enter. -/
def reusedAt (doc : ModelSnapshot) (at' : String × String) : List (String × String) :=
  (ownedRules doc at').filterMap (·.action.reused?)

/-- Where the walk starts: every chain with a head that is not disabled. -/
def walkRoots (doc : ModelSnapshot) : List (String × String) :=
  (OrdMap.keySet ((doc.apps.flatMap (·.chains)).map (·.id))).filterMap fun chain =>
    if chain ∈ globalDisabled doc then none else (globalRoot doc chain).map fun node => (chain, node)

/-- Every table some fragment is stored for. -/
def storedTables (doc : ModelSnapshot) : List (String × String) :=
  (doc.apps.flatMap (·.steps)).map fun step => (step.chain, step.node)

/-- Listener roots reached from every live ingress in the snapshot. -/
def reachableListenerRootsAcrossApps (doc : ModelSnapshot) : List (String × String) :=
  OrdMap.pairSet
    (Worklist.explore (walkNext doc) (fun reused at' => reused ++ reusedAt doc at')
      (storedTables doc) (walkRoots doc) []).2

/-! ### One chain -/

/-- The exact input of one chain's compilation. -/
structure RoutingChainInput where
  appId : String
  chain : Model.Chain
  root : Option String
  nodes : List Node
  steps : List Model.Step
  reusedListenerNodes : List String

/-- A compiled chain and its findings. -/
structure RoutingChainCompile where
  chain : Chain
  steps : List Step
  diagnostics : List Diagnostic

/-- The one value the fragments of a table give a field. -/
def mergeStepField {T : Type} [DecidableEq T] (values : List (Option T))
    (code location fieldName : String) : Option T × List Diagnostic :=
  match values.filterMap id with
  | [] => (none, [])
  | value :: values =>
    if values.all (· = value) then (some value, [])
    else (none, [.error code location s!"同一节点的多个 Step 写了不同的{fieldName}"])

/-- How a table ends. -/
def terminalDefault (node : Node) (chain : Model.Chain) (nodeId : String) :
    Action × List Diagnostic :=
  if node.egressAllowed then (.egress none, [])
  else (.block, [.warn "step.no-egress" s!"{chain.id}/{nodeId}" s!"{nodeId} 末端禁止出网，补 Block"])

/-- Append the "no rule written = exit here" case: the table, what was appended, and what is
reported. -/
def appendDefaultRule (node : Node) (chain : Model.Chain) (nodeId : String) (rules : List Rule) :
    List Rule × Option Action × List Diagnostic :=
  if (rules.getLast?.any fun rule => rule.destMatch.isAny) then (rules, none, [])
  else
    let terminal := terminalDefault node chain nodeId
    (rules ++ [⟨.any, terminal.1⟩], some terminal.1, terminal.2)

def Action.isReverseForward : Action → Bool
  | .forward _ (.reverse _) _ => true
  | _ => false

/-- An action by which traffic leaves the chain, or its downstream takes it out. -/
def Action.isExit : Action → Bool
  | .egress _ | .proxy _ | .reuseListener _ _ _ => true
  | .forward _ dial _ => match dial with
    | .reverse _ => true
    | _ => false
  | .block => false

/-- One member's table, and what compiling it says. -/
structure NodeTable where
  step : Step
  paddedBlock : Bool
  diagnostics : List Diagnostic

/-- The table of a member that exists. -/
def compileTable (input : RoutingChainInput) (root : String) (node : Node) (nodeId : String) :
    NodeTable :=
  let sources := stepsAtSource input.steps input.chain.id nodeId
  let location := s!"{input.chain.id}/{nodeId}"
  let accept := mergeStepField (sources.map (·.accept)) "step.accept-conflict" location "接受凭据"
  let hopIn := mergeStepField (sources.map (·.hopIn)) "step.hop-in-conflict" location "中转 inbound"
  let table := appendDefaultRule node input.chain nodeId
    (rulesAt input.steps input.chain.id nodeId)
  let reverseUpstream := table.1.any fun rule => Action.isReverseForward rule.action
  -- a head accepts no relays unless one of its listeners is referenced; its port opens for
  -- downstreams that connect back
  let plainHead := nodeId = root && decide (nodeId ∉ input.reusedListenerNodes)
  { step := {
      id := s!"s-{input.chain.id}-{nodeId}"
      appId := some input.appId
      chain := input.chain.id
      node := nodeId
      accept := if plainHead then none else accept.1
      hopIn := if plainHead then (if reverseUpstream then hopIn.1 else none) else hopIn.1
      rules := table.1 }
    paddedBlock := table.2.1 == some .block
    diagnostics := accept.2 ++ hopIn.2 ++ table.2.2 }

/-- Where the expansion of a chain stands. -/
structure ChainLoop where
  (seen made : List String)
  steps : List Step
  paddedBlock : Bool
  diagnostics : List Diagnostic

/-- Compile one member and queue the ones its table forwards to. -/
def visitMember (input : RoutingChainInput) (root : String) (primary : List String)
    (nodeId : String) (st : ChainLoop) : List String × ChainLoop :=
  if nodeId ∈ st.made then ([], st)
  else
    match input.nodes.find? fun node => node.id = nodeId with
    | none =>
      ([], { st with diagnostics := st.diagnostics ++
        [.error "chain.unknown-node" input.chain.id s!"链上的 {nodeId} 不存在"] })
    | some node =>
      let table := compileTable input root node nodeId
      let offered := Worklist.offer
        (table.step.rules.filterMap (·.action.forwardTarget?)) st.seen
      (offered.1, {
        seen := offered.2
        made := st.made ++ [nodeId]
        steps := st.steps ++ [table.step]
        paddedBlock := st.paddedBlock || (decide (nodeId ∈ primary) && table.paddedBlock)
        diagnostics := st.diagnostics ++ table.diagnostics })

/-- The chain's own head first, the other roots in order. -/
def swapFront (root : String) : List String → List String
  | [] => []
  | node :: nodes =>
    if node = root then node :: nodes
    else root :: nodes.map fun other => if other = root then node else other

/-- Where the tables of a chain begin. -/
def chainLoopRoots (input : RoutingChainInput) (root : String) : List String :=
  swapFront root (OrdMap.keySet (root :: input.reusedListenerNodes))

/-- Every machine some fragment of the chain forwards to. -/
def forwardCandidates (steps : List Model.Step) : List String :=
  (steps.flatMap (·.rules)).filterMap (·.action.forwardTarget?)

/-- The tables of a chain are collected. -/
def chainLoop (input : RoutingChainInput) (root : String) : ChainLoop :=
  let roots := chainLoopRoots input root
  Worklist.drain
    (visitMember input root (chainMembersFromSteps input.steps input.chain.id root))
    (roots.length + (forwardCandidates input.steps).length) roots
    ⟨roots, [], [], false, []⟩

/-- Fragments the expansion never came to, one warning a machine. -/
def unreachableWarnings (input : RoutingChainInput) (made : List String) : List Diagnostic :=
  let left := input.steps.filter fun source =>
    source.chain = input.chain.id && decide (source.node ∉ made)
      && input.nodes.any (·.id = source.node)
  (OrdMap.keySet (left.map (·.node))).map fun node =>
    let count := ((left.filter (·.node = node)).map (·.rules.length)).sum
    .warn "step.unreachable" s!"{input.chain.id}/{node}"
      s!"{node} 从入口节点不可达（没有规则 Forward 指向它），{count} 条规则不会产出"

/-- A hole was filled by Block and no member lets traffic out. -/
def deadChain (input : RoutingChainInput) (primary : List String) (result : ChainLoop) :
    List Diagnostic :=
  let alive := (result.steps.filter fun step => step.node ∈ primary).any fun step =>
    step.rules.any fun rule => Action.isExit rule.action
  if result.paddedBlock && !alive then
    [.error "chain.no-egress-path" input.chain.id s!"链 {input.chain.id} 上没有任何出网路径（成员全被 Block）"]
  else []

/-- The tables of a chain. -/
def compileChainSteps (input : RoutingChainInput) : List Step × List Diagnostic :=
  match input.root with
  | none => ([], [])
  | some root =>
    let result := chainLoop input root
    (result.steps, result.diagnostics ++ unreachableWarnings input result.made
      ++ deadChain input (chainMembersFromSteps input.steps input.chain.id root) result)

/-- The chain, compiled. -/
def RoutingChainInput.compile (self : RoutingChainInput) : RoutingChainCompile :=
  let compiled := compileChainSteps self
  { chain := {
      id := self.chain.id
      appId := some self.appId
      tenant := self.chain.tenant
      name := self.chain.name
      subscriptionCountry := self.chain.subscriptionCountry
      root := self.root }
    steps := compiled.1
    diagnostics := compiled.2 }

/-! ### One project -/

/-- What a chain is compiled of. -/
def routingChainInput (doc : ModelSnapshot) (app : AppView) (chain : Model.Chain)
    (root : Option String) (reused : List (String × String)) : RoutingChainInput :=
  let steps := app.steps.filter fun step => step.chain = chain.id
  let ids := root.toList ++ steps.map (·.node) ++ forwardCandidates steps
  { appId := app.id
    chain := chain
    root := root
    nodes := doc.nodes.filter fun node => node.id ∈ ids
    steps := steps
    reusedListenerNodes := (reused.filter fun ref => ref.1 = chain.id).map (·.2) }

/-- The chains of a project that compile, each with its whole input. -/
def chainInputs (doc : ModelSnapshot) (app : AppView) (listenerRoots : List (String × String)) :
    List RoutingChainInput :=
  (app.chains.filter fun chain => chain.id ∉ disabledChains doc app).map fun chain =>
    routingChainInput doc app chain ((selectedChainRoot app chain.id).map (·.node)) listenerRoots

/-- A machine, as a project reads it. -/
def compileNode (doc : ModelSnapshot) (node : Node) : AppNode where
  id := node.id
  tenant := node.tenant
  name := node.name
  certificateGroupId := node.certificateGroupId
  certificateTrack := node.certificateTrack
  publicIpv4 := node.publicIpv4
  publicIpv6 := node.publicIpv6
  publicIpv4Nat := node.publicIpv4Nat
  publicIpv6Nat := node.publicIpv6Nat
  egressAllowed := node.egressAllowed
  apiPort := node.apiPort
  dns := node.dns
  domainStrategy := node.domainStrategy
  egressDns := doc.nodeEgressDns.filter fun policy => policy.node = node.id
  connection := node.connection

/-- A front whose ingresses are alive. -/
def compileFront (app : AppView) (live : List String) (front : Model.Front) : Front where
  id := front.id
  appId := some app.id
  tenant := front.tenant
  name := front.name
  via := front.via.filter fun via => via ∈ live
  externalVia := front.externalVia
  strategy := front.strategy

/-- The ingress's wires, following the fleet where its padding is left empty. -/
def resolveWires (settings : ModelSettings) (wires : IngressWires) : IngressWires :=
  match wires.anytls with
  | none => wires
  | some anytls =>
    if anytls.paddingScheme.isEmpty then
      wires.setAnyTls { anytls with paddingScheme := settings.anytlsPaddingScheme }
    else wires

/-- An ingress, with its machine. -/
def compileIngress (doc : ModelSnapshot) (app : AppView) (ingress : Model.Ingress) : Ingress where
  id := ingress.id
  appId := some app.id
  tenant := ((app.chains.reverse.find? fun chain => chain.id = ingress.chain).map
    (·.tenant)).getD "platform"
  chain := ingress.chain
  node := ingress.node
  bind := ingress.bind
  port := ingress.port
  front := ingress.front
  sniff := true
  identity := ingress.identity
  anytlsIdentity := ingress.anytlsIdentity
  wires := resolveWires doc.settings ingress.wires
  certificateName := (nodeById doc ingress.node).bind (·.certificateName)
  certificateNames := ((nodeById doc ingress.node).map (·.certificateNames)).getD []
  guard := ingress.guard
  projection := ingress.projection

def userKey (tenant user : String) : String := s!"{tenant}/{user}"

/-- What becomes of one grant, given the grants seen before it: the compiled grant, or what
is reported. -/
def compileGrant (doc : ModelSnapshot) (app : AppView) (live : List Ingress) (seen : List String)
    (grant : Model.Grant) : Option Grant × List Diagnostic :=
  let who := userKey grant.tenant grant.user
  let key := s!"{who}|{grant.ingress}"
  if !(app.ingresses.any (·.id = grant.ingress)) then
    (none, [.error "grant.no-ingress" s!"{who}->{grant.ingress}" s!"接入面不存在：{grant.ingress}"])
  else if !(live.any (·.id = grant.ingress)) then (none, [])
  else if !(doc.users.any fun user => user.tenant = grant.tenant && user.id = grant.user) then
    (none, [.error "grant.no-user" s!"{who}->{grant.ingress}" s!"用户不存在：{who}"])
  else if key ∈ seen then
    (none, [.error "grant.dup" who s!"重复授权：{who} -> {grant.ingress}"])
  else
    (some {
      id := s!"g-{key}"
      appId := some app.id
      tenant := grant.tenant
      user := grant.user
      ingress := grant.ingress
      label := grantLabel grant.user grant.tenant grant.ingress }, [])

/-- The grants in order, and what is reported. -/
def compileGrants (doc : ModelSnapshot) (app : AppView) (live : List Ingress) :
    List Grant × List Diagnostic :=
  let result := app.grants.foldl (fun (acc : List String × List Grant × List Diagnostic) grant =>
    let compiled := compileGrant doc app live acc.1 grant
    let seen := compiled.1.toList.map fun grant => s!"{userKey grant.tenant grant.user}|{grant.ingress}"
    (acc.1 ++ seen, acc.2.1 ++ compiled.1.toList, acc.2.2 ++ compiled.2)) ([], [], [])
  result.2

/-- The tenants of a project. -/
def collectTenants (ir : AppIr) : List String :=
  OrdMap.keySet (ir.nodes.map (·.tenant) ++ ir.users.map (·.tenant) ++ ir.chains.map (·.tenant)
    ++ ir.ingresses.map (·.tenant) ++ ir.fronts.map (·.tenant) ++ ir.grants.map (·.tenant))

def sortById {α : Type} (id : α → String) (as : List α) : List α :=
  as.insertionSort fun a b => id a ≤ id b

/-- Chain order is semantic; everything else is in the order of its id. -/
def sortIr (ir : AppIr) : AppIr :=
  { ir with
    nodes := sortById (·.id) ir.nodes
    ingresses := sortById (·.id) ir.ingresses
    fronts := sortById (·.id) ir.fronts
    steps := sortById (·.id) ir.steps
    grants := sortById (·.id) ir.grants
    users := sortById (fun user => userKey user.tenant user.id) ir.users }

/-- A project around its compiled chains. -/
def compileAppWith (doc : ModelSnapshot) (app : AppView) (listenerRoots : List (String × String))
    (compiled : List RoutingChainCompile) : AppIr × List Diagnostic :=
  let live := app.ingresses.filter (isLiveIngress doc app)
  let ingresses := live.map (compileIngress doc app)
  let grants := compileGrants doc app ingresses
  let ir : AppIr := {
    revision := doc.revision
    appId := some app.id
    tenants := []
    nodes := (doc.nodes.filter fun node => !node.retired).map (compileNode doc)
    users := doc.users
    externalOutbounds := doc.externalOutbounds
    chains := compiled.map (·.chain)
    ingresses := ingresses
    fronts := app.fronts.map (compileFront app (live.map (·.id)))
    steps := compiled.flatMap (·.steps)
    listenerRoots := listenerRoots.filter fun ref => app.chains.any (·.id = ref.1)
    grants := grants.1
    hops := [] }
  (sortIr { ir with tenants := collectTenants ir },
    chainRootDiagnostics app ++ compiled.flatMap (·.diagnostics) ++ grants.2)

/-- A project, compiled. -/
def compileApp (doc : ModelSnapshot) (app : AppView) (listenerRoots : List (String × String)) :
    AppIr × List Diagnostic :=
  compileAppWith doc app listenerRoots
    ((chainInputs doc app listenerRoots).map RoutingChainInput.compile)

/-- The outbound a landing rule leaves by. -/
def egressTag : Option String → String
  | some value => s!"out:egress:{value}"
  | none => "out:egress"

end Brocade.Ir
