/-
What the static route analysis promises.

Nobody knows beforehand what geodata, a sniffer or a malformed port item will say of a
connection, so their outcomes are arbitrary here.  Whatever they are, a concrete walk takes at
every table the first rule that matches and ends where that rule exits or blocks.  A verdict of
the matcher agrees with every outcome it leaves open, and with that the analysis tells where each
walk ends (`routeDecision_sound`), after at most as many tables as there are.
-/
import Brocade.Ir.Edges
import Brocade.Ir.Front

namespace Brocade.Ir

open Model

/-! ### Outcomes -/

/-- An assignment of outcomes to all selectors for a connection to an endpoint: what the endpoint
settles is settled, the rest is free. -/
structure EndpointOutcomes (parseNet : String → Option Ip.Net) (endpoint : SubscriptionEndpoint)
    (address : Ip.Addr) (matched : DestMatch → Bool) : Prop where
  any : matched .any = true
  domainSuffix : ∀ values, matched (.domainSuffix values)
    = values.any (domainSuffixMatch endpoint.host)
  domainKeyword : ∀ values, matched (.domainKeyword values)
    = values.any (domainKeywordMatch endpoint.host)
  ipCidr : ∀ values, matched (.ipCidr values) = values.any (addressMatch parseNet address)
  port : ∃ free, ∀ values, matched (.port values)
    = (portItems values).any (portItemHolds free endpoint.port)
  portExcept : ∀ ports, matched (.portExcept ports) = !ports.contains endpoint.port
  network : ∀ network, matched (.network network) = decide (network = endpoint.network)
  all : ∀ values, matched (.all values) = values.all matched

/-- The assignments there are for a subject, table by table.  An endpoint is an address literal;
of the internet only the unconditional selector is settled. -/
def Assigns (parseNet : String → Option Ip.Net) :
    RouteSubject → (Step → DestMatch → Bool) → Prop
  | .endpoint endpoint, matched => ∃ address, Ip.parse endpoint.host = some address
      ∧ ∀ step, EndpointOutcomes parseNet endpoint address (matched step)
  | .internet, matched => ∀ step, matched step .any = true

/-- Where the walk from a table ends: by the first rule that matches, or behind the edge it is. -/
inductive WalkEnds (app : AppIr) (matched : Step → DestMatch → Bool) :
    String → String → Action → Prop
  | here {chain node : String} {step : Step} {rule : Rule}
      (hstep : findStep app.steps (chain, node) = some step)
      (hrule : step.rules.find? (fun rule => matched step rule.destMatch) = some rule)
      (hlast : rule.action.forwardRef chain = none) : WalkEnds app matched chain node rule.action
  | behind {chain node : String} {step : Step} {rule : Rule} {forward : ForwardActionRef}
      {action : Action} (hstep : findStep app.steps (chain, node) = some step)
      (hrule : step.rules.find? (fun rule => matched step rule.destMatch) = some rule)
      (hedge : rule.action.forwardRef chain = some forward)
      (hrest : WalkEnds app matched forward.targetChain forward.targetNode action) :
      WalkEnds app matched chain node action

/-- An action by which traffic leaves the fleet. -/
def leaves : Action → Bool
  | .egress _ | .proxy _ => true
  | _ => false

/-! ### Verdicts -/

/-- What a verdict allows an outcome to be. -/
def MatchVerdict.Agrees : MatchVerdict → Bool → Prop
  | .hit, outcome => outcome = true
  | .miss, outcome => outcome = false
  | .maybe, _ => True

theorem agrees_hitIf (found : Bool) : (hitIf found).Agrees found := by
  cases found <;> rfl

theorem portItemMatch_agrees (free : String → Bool) (port : ℕ) (value : String) :
    (portItemMatch port value).Agrees (portItemHolds free port value) := by
  unfold portItemMatch portItemHolds
  cases Address.parseU16 value with
  | some candidate =>
    dsimp only
    by_cases hport : candidate = port
    · simp [hport, MatchVerdict.Agrees]
    · by_cases hzero : candidate = 0
      · rw [if_neg hport, if_pos hzero]
        trivial
      · simp [hport, hzero, MatchVerdict.Agrees]
  | none =>
    cases Text.splitOnce? value "-" with
    | none => trivial
    | some ends =>
      obtain ⟨low, high⟩ := ends
      dsimp only
      cases Address.parseU16 (Text.trim low) with
      | none => trivial
      | some low =>
        cases Address.parseU16 (Text.trim high) with
        | none => trivial
        | some high =>
          dsimp only
          split_ifs
          · trivial
          · exact agrees_hitIf _

theorem portItemsMatch_ne_miss (port : ℕ) (values : List String) :
    portItemsMatch port true values ≠ .miss := by
  induction values with
  | nil => exact MatchVerdict.noConfusion
  | cons value values ih =>
    rw [portItemsMatch]
    cases portItemMatch port value with
    | hit => exact MatchVerdict.noConfusion
    | miss => exact ih
    | maybe => exact ih

theorem portItemsMatch_agrees (free : String → Bool) (port : ℕ) (values : List String) :
    ∀ invalid, (portItemsMatch port invalid values).Agrees
      (values.any (portItemHolds free port)) := by
  induction values with
  | nil =>
    intro invalid
    cases invalid
    · rfl
    · trivial
  | cons value values ih =>
    intro invalid
    have hitem := portItemMatch_agrees free port value
    rw [portItemsMatch, List.any_cons]
    cases hverdict : portItemMatch port value with
    | hit =>
      rw [hverdict] at hitem
      have hholds : portItemHolds free port value = true := hitem
      simp [hholds, MatchVerdict.Agrees]
    | miss =>
      rw [hverdict] at hitem
      have hholds : portItemHolds free port value = false := hitem
      simpa [hholds] using ih invalid
    | maybe =>
      -- an undecided item leaves open only what the others do not settle
      have hrest := ih true
      dsimp only
      cases hothers : portItemsMatch port true values with
      | hit =>
        rw [hothers] at hrest
        have hholds : values.any (portItemHolds free port) = true := hrest
        simp [hholds, MatchVerdict.Agrees]
      | miss => exact absurd hothers (portItemsMatch_ne_miss port values)
      | maybe => trivial

section

variable {parseNet : String → Option Ip.Net} {endpoint : SubscriptionEndpoint}
  {address : Ip.Addr} {matched : DestMatch → Bool}

theorem matchEvery_ne_hit (values : List DestMatch) :
    matchEvery parseNet endpoint true values ≠ .hit := by
  induction values with
  | nil => exact MatchVerdict.noConfusion
  | cons value values ih =>
    rw [matchEvery]
    cases matchEndpoint parseNet endpoint value with
    | hit => exact ih
    | miss => exact MatchVerdict.noConfusion
    | maybe => exact ih

theorem ipMatch_of_parse {host : String} (h : Ip.parse host = some address) (values : List String) :
    ipMatch parseNet host values = hitIf (values.any (addressMatch parseNet address)) := by
  unfold ipMatch
  rw [h]

mutual

/-- **A verdict agrees with every outcome of the selector.** -/
theorem matchEndpoint_agrees (hhost : Ip.parse endpoint.host = some address)
    (h : EndpointOutcomes parseNet endpoint address matched) : ∀ destMatch : DestMatch,
      (matchEndpoint parseNet endpoint destMatch).Agrees (matched destMatch)
  | .any => h.any
  | .domainSuffix values => by
    rw [h.domainSuffix, matchEndpoint]
    exact agrees_hitIf _
  | .domainKeyword values => by
    rw [h.domainKeyword, matchEndpoint]
    exact agrees_hitIf _
  | .ipCidr values => by
    rw [h.ipCidr, matchEndpoint, ipMatch_of_parse hhost]
    exact agrees_hitIf _
  | .port values => by
    obtain ⟨free, hport⟩ := h.port
    rw [hport, matchEndpoint]
    exact portItemsMatch_agrees free _ _ _
  | .portExcept ports => by
    rw [h.portExcept, matchEndpoint]
    exact agrees_hitIf _
  | .network network => by
    rw [h.network, matchEndpoint]
    exact agrees_hitIf _
  | .all values => by
    rw [h.all, matchEndpoint]
    exact matchEvery_agrees hhost h values false
  | .domainRegex _ | .geosite _ | .geoip _ | .protocol _ | .sniffingFailed => by
    rw [matchEndpoint]
    trivial

theorem matchEvery_agrees (hhost : Ip.parse endpoint.host = some address)
    (h : EndpointOutcomes parseNet endpoint address matched) :
    ∀ (values : List DestMatch) (maybe : Bool),
      (matchEvery parseNet endpoint maybe values).Agrees (values.all matched)
  | [], maybe => by
    rw [matchEvery]
    cases maybe
    · rfl
    · trivial
  | value :: values, maybe => by
    have hvalue := matchEndpoint_agrees hhost h value
    have hrest := matchEvery_agrees hhost h values
    rw [matchEvery, List.all_cons]
    cases hverdict : matchEndpoint parseNet endpoint value with
    | hit =>
      rw [hverdict] at hvalue
      have hholds : matched value = true := hvalue
      simpa [hholds] using hrest maybe
    | miss =>
      rw [hverdict] at hvalue
      have hholds : matched value = false := hvalue
      simp [hholds, MatchVerdict.Agrees]
    | maybe =>
      have hundecided := hrest true
      dsimp only
      cases hothers : matchEvery parseNet endpoint true values with
      | hit => exact absurd hothers (matchEvery_ne_hit values)
      | miss =>
        rw [hothers] at hundecided
        have hholds : values.all matched = false := hundecided
        rw [hholds, Bool.and_false]
        rfl
      | maybe => trivial

end

theorem matchSubject_agrees {subject : RouteSubject} {matched : Step → DestMatch → Bool}
    (h : Assigns parseNet subject matched) (step : Step) (destMatch : DestMatch) :
    (matchSubject parseNet destMatch subject).Agrees (matched step destMatch) := by
  cases subject with
  | endpoint endpoint =>
    obtain ⟨address, hhost, houtcomes⟩ := h
    exact matchEndpoint_agrees hhost (houtcomes step) destMatch
  | internet =>
    rw [matchSubject]
    cases destMatch <;> first | exact h step | trivial

end

/-! ### Branches -/

variable {chain node : String}

theorem aggregateRuleDecisions_settled {first : FrontRouteDecision} {rest : List FrontRouteDecision}
    {status : FrontRouteStatus} (h : (aggregateRuleDecisions chain node first rest).status = status)
    (hsettled : status = .reachable ∨ status = .blocked) :
    ∀ decision ∈ first :: rest, decision.status = status := by
  unfold aggregateRuleDecisions at h
  dsimp only at h
  split at h
  next hblocked =>
    have hfirst : status = .blocked := by
      have hhead : first.status = .blocked := by
        simpa using List.all_eq_true.mp hblocked first List.mem_cons_self
      split at h <;> exact h ▸ hhead
    intro decision hdecision
    rw [hfirst]
    simpa using List.all_eq_true.mp hblocked decision hdecision
  next =>
    split at h
    next hreachable =>
      have hfirst : status = .reachable := by
        have hhead : first.status = .reachable := by
          simpa using List.all_eq_true.mp hreachable first List.mem_cons_self
        split at h <;> exact h ▸ hhead
      intro decision hdecision
      rw [hfirst]
      simpa using List.all_eq_true.mp hreachable decision hdecision
    next =>
      split at h
      next unknown hunknown =>
        have hstatus : unknown.status = .unknown := by
          simpa using List.find?_some hunknown
        rw [← h, hstatus] at hsettled
        rcases hsettled with hbad | hbad <;> cases hbad
      next =>
        rw [← h] at hsettled
        rcases hsettled with hbad | hbad <;> cases hbad

/-- Where all branches are settled alike, the first rule that matches is one of them. -/
theorem ruleDecisions_first {verdict : DestMatch → MatchVerdict} {matched : DestMatch → Bool}
    (hagrees : ∀ destMatch, (verdict destMatch).Agrees (matched destMatch))
    {decide : ℕ → Rule → Option FrontRouteDecision} {status : FrontRouteStatus}
    (hstatus : status ≠ .unknown) (rules : List Rule) :
    ∀ {index : ℕ} {possible : FrontRouteDecision × List FrontRouteDecision},
      ruleDecisions verdict decide chain node index rules = some possible →
      (∀ decision ∈ possible.1 :: possible.2, decision.status = status) →
      ∃ rule, rules.find? (fun rule => matched rule.destMatch) = some rule
        ∧ ∃ position decision, decide position rule = some decision ∧ decision.status = status := by
  induction rules with
  | nil =>
    intro index possible h hall
    rw [ruleDecisions] at h
    cases h
    exact absurd (hall _ List.mem_cons_self).symm hstatus
  | cons rule rules ih =>
    intro index possible h hall
    have hverdict := hagrees rule.destMatch
    rw [ruleDecisions] at h
    rw [List.find?_cons]
    cases hmatch : verdict rule.destMatch with
    | miss =>
      rw [hmatch] at h hverdict
      have hskip : matched rule.destMatch = false := hverdict
      rw [hskip]
      exact ih h hall
    | hit =>
      rw [hmatch] at h hverdict
      have htake : matched rule.destMatch = true := hverdict
      obtain ⟨decision, hdecision, hpossible⟩ := Option.bind_eq_some_iff.mp h
      cases hpossible
      rw [htake]
      exact ⟨rule, rfl, _, decision, hdecision, hall _ List.mem_cons_self⟩
    | maybe =>
      rw [hmatch] at h
      obtain ⟨decision, hdecision, h⟩ := Option.bind_eq_some_iff.mp h
      obtain ⟨others, hothers, hpossible⟩ := Option.bind_eq_some_iff.mp h
      cases hpossible
      cases htake : matched rule.destMatch with
      | true => exact ⟨rule, rfl, _, decision, hdecision, hall _ List.mem_cons_self⟩
      | false => exact ih hothers fun other hother => hall other (List.mem_cons_of_mem _ hother)

theorem routeActionDecision_last {decide : String → String → Option FrontRouteDecision}
    {index : ℕ} {rule : Rule} {decision : FrontRouteDecision}
    (h : routeActionDecision decide chain node index rule = some decision)
    (hlast : rule.action.forwardRef chain = none) :
    (decision.status = .reachable → leaves rule.action = true)
      ∧ (decision.status = .blocked → rule.action = .block) := by
  unfold routeActionDecision at h
  cases haction : rule.action with
  | forward _ _ _ =>
    rw [haction] at hlast
    cases hlast
  | reuseListener _ _ _ =>
    rw [haction] at hlast
    cases hlast
  | egress _ =>
    rw [haction] at h
    cases h
    exact ⟨fun _ => rfl, nofun⟩
  | proxy _ =>
    rw [haction] at h
    cases h
    exact ⟨fun _ => rfl, nofun⟩
  | block =>
    rw [haction] at h
    cases h
    exact ⟨nofun, fun _ => rfl⟩

theorem routeActionDecision_edge {decide : String → String → Option FrontRouteDecision}
    {index : ℕ} {rule : Rule} {forward : ForwardActionRef}
    (hedge : rule.action.forwardRef chain = some forward) :
    (∀ {decision}, routeActionDecision decide chain node index rule = some decision →
      ∃ next, decide forward.targetChain forward.targetNode = some next
        ∧ next.status = decision.status)
    ∧ (∀ {next}, decide forward.targetChain forward.targetNode = some next →
      ∃ decision, routeActionDecision decide chain node index rule = some decision) := by
  have hname : ∀ (action : String) (decision : FrontRouteDecision),
      (if decision.action.isNone then { decision with action := some action }
        else decision).status = decision.status := by
    intro action decision
    split <;> rfl
  unfold routeActionDecision
  cases haction : rule.action with
  | egress _ =>
    rw [haction] at hedge
    cases hedge
  | proxy _ =>
    rw [haction] at hedge
    cases hedge
  | block =>
    rw [haction] at hedge
    cases hedge
  | forward target dial pool =>
    rw [haction] at hedge
    cases hedge
    constructor
    · intro decision h
      obtain ⟨next, hnext, rfl⟩ := Option.map_eq_some_iff.mp h
      exact ⟨next, hnext, (hname _ _).symm⟩
    · intro next hnext
      exact ⟨_, by dsimp only; rw [hnext]; rfl⟩
  | reuseListener listener dial pool =>
    rw [haction] at hedge
    cases hedge
    constructor
    · intro decision h
      obtain ⟨next, hnext, rfl⟩ := Option.map_eq_some_iff.mp h
      exact ⟨next, hnext, (hname _ _).symm⟩
    · intro next hnext
      exact ⟨_, by dsimp only; rw [hnext]; rfl⟩

/-! ### Tables -/

section

variable {parseNet : String → Option Ip.Net} {app : AppIr} {subject : RouteSubject}

/-- What a decision of the analysis says of the walk from its table. -/
def Tells (app : AppIr) (matched : Step → DestMatch → Bool) (chain node : String)
    (decision : FrontRouteDecision) : Prop :=
  (decision.status = .reachable → ∃ action, WalkEnds app matched chain node action
      ∧ leaves action = true)
    ∧ (decision.status = .blocked → WalkEnds app matched chain node .block)

theorem routeDecisionInner_tells {matched : Step → DestMatch → Bool}
    (h : Assigns parseNet subject matched) (fuel : ℕ) :
    ∀ {seen : List String} {chain node : String} {decision : FrontRouteDecision},
      routeDecisionInner parseNet app subject fuel seen chain node = some decision →
      Tells app matched chain node decision := by
  induction fuel with
  | zero =>
    intro seen chain node decision hdecision
    cases hdecision
  | succ fuel ih =>
    intro seen chain node decision hdecision
    rw [routeDecisionInner] at hdecision
    split at hdecision
    next =>
      cases hdecision
      exact ⟨nofun, nofun⟩
    next =>
      cases hstep : findStep app.steps (chain, node) with
      | none =>
        rw [hstep] at hdecision
        cases hdecision
        exact ⟨nofun, nofun⟩
      | some step =>
        rw [hstep] at hdecision
        obtain ⟨possible, hpossible, hdecision⟩ := Option.bind_eq_some_iff.mp hdecision
        cases hdecision
        have hfirst : ∀ status, (status = .reachable ∨ status = .blocked) →
            (aggregateRuleDecisions chain node possible.1 possible.2).status = status →
            ∃ rule, step.rules.find? (fun rule => matched step rule.destMatch) = some rule
              ∧ ∃ position branch, routeActionDecision (routeDecisionInner parseNet app subject
                  fuel (tableKey chain node :: seen)) chain node position rule = some branch
                ∧ branch.status = status := by
          intro status hsettled hstatus
          refine ruleDecisions_first (matchSubject_agrees h step) ?_ step.rules hpossible
            (aggregateRuleDecisions_settled hstatus hsettled)
          rintro rfl
          rcases hsettled with hbad | hbad <;> cases hbad
        constructor
        · intro hreachable
          obtain ⟨rule, hrule, position, branch, hbranch, hstatus⟩ :=
            hfirst .reachable (.inl rfl) hreachable
          cases hedge : rule.action.forwardRef chain with
          | none =>
            exact ⟨rule.action, .here hstep hrule hedge,
              (routeActionDecision_last hbranch hedge).1 hstatus⟩
          | some forward =>
            obtain ⟨next, hnext, hsame⟩ := (routeActionDecision_edge hedge).1 hbranch
            obtain ⟨action, hends, hleaves⟩ := (ih hnext).1 (hsame.trans hstatus)
            exact ⟨action, .behind hstep hrule hedge hends, hleaves⟩
        · intro hblocked
          obtain ⟨rule, hrule, position, branch, hbranch, hstatus⟩ :=
            hfirst .blocked (.inr rfl) hblocked
          cases hedge : rule.action.forwardRef chain with
          | none =>
            have hblock := (routeActionDecision_last hbranch hedge).2 hstatus
            rw [← hblock]
            exact .here hstep hrule hedge
          | some forward =>
            obtain ⟨next, hnext, hsame⟩ := (routeActionDecision_edge hedge).1 hbranch
            exact .behind hstep hrule hedge ((ih hnext).2 (hsame.trans hstatus))

/-! ### The depth of the recursion -/

/-- The rule tables not met yet. -/
def unmet (app : AppIr) (seen : List String) : ℕ :=
  ((app.steps.map fun step => tableKey step.chain step.node).filter (· ∉ seen)).length

theorem unmet_cons {seen : List String} {chain node : String} {step : Step}
    (hstep : findStep app.steps (chain, node) = some step) (hkey : tableKey chain node ∉ seen) :
    unmet app (tableKey chain node :: seen) < unmet app seen := by
  obtain ⟨hmem, hplace⟩ := findStep_eq_some hstep
  obtain ⟨hchain, hnode⟩ := Prod.mk.inj hplace
  have hin : tableKey chain node ∈ (app.steps.map fun step => tableKey step.chain step.node).filter
      (· ∉ seen) := by
    refine List.mem_filter.mpr ⟨List.mem_map.mpr ⟨step, hmem, ?_⟩, by simpa using hkey⟩
    rw [hchain, hnode]
  have hfewer : (app.steps.map fun step => tableKey step.chain step.node).filter
      (· ∉ tableKey chain node :: seen)
        = ((app.steps.map fun step => tableKey step.chain step.node).filter (· ∉ seen)).filter
          (· ≠ tableKey chain node) := by
    rw [List.filter_filter]
    refine List.filter_congr fun key _ => ?_
    by_cases hsame : key = tableKey chain node <;> simp [hsame]
  rw [unmet, unmet, hfewer]
  refine List.length_filter_lt_length_iff_exists.mpr ⟨_, hin, ?_⟩
  simp

theorem ruleDecisions_total {verdict : DestMatch → MatchVerdict}
    {decide : ℕ → Rule → Option FrontRouteDecision} {chain node : String}
    (h : ∀ position rule, ∃ decision, decide position rule = some decision) (rules : List Rule) :
    ∀ index, ∃ possible, ruleDecisions verdict decide chain node index rules = some possible := by
  induction rules with
  | nil => exact fun index => ⟨_, rfl⟩
  | cons rule rules ih =>
    intro index
    obtain ⟨decision, hdecision⟩ := h (index + 1) rule
    obtain ⟨others, hothers⟩ := ih (index + 1)
    rw [ruleDecisions]
    cases verdict rule.destMatch with
    | miss => exact ⟨others, hothers⟩
    | hit => exact ⟨_, Option.bind_eq_some_iff.mpr ⟨decision, hdecision, rfl⟩⟩
    | maybe =>
      refine ⟨(decision, others.1 :: others.2),
        Option.bind_eq_some_iff.mpr ⟨decision, hdecision, ?_⟩⟩
      exact Option.bind_eq_some_iff.mpr ⟨others, hothers, rfl⟩

theorem routeActionDecision_total {decide : String → String → Option FrontRouteDecision}
    (h : ∀ chain node, ∃ decision, decide chain node = some decision) (chain node : String)
    (index : ℕ) (rule : Rule) :
    ∃ decision, routeActionDecision decide chain node index rule = some decision := by
  cases hedge : rule.action.forwardRef chain with
  | some forward =>
    obtain ⟨next, hnext⟩ := h forward.targetChain forward.targetNode
    exact (routeActionDecision_edge hedge).2 hnext
  | none =>
    unfold routeActionDecision
    cases haction : rule.action with
    | egress _ => exact ⟨_, rfl⟩
    | proxy _ => exact ⟨_, rfl⟩
    | block => exact ⟨_, rfl⟩
    | forward _ _ _ =>
      rw [haction] at hedge
      cases hedge
    | reuseListener _ _ _ =>
      rw [haction] at hedge
      cases hedge

theorem routeDecisionInner_total (fuel : ℕ) : ∀ {seen : List String}, unmet app seen < fuel →
    ∀ chain node, ∃ decision,
      routeDecisionInner parseNet app subject fuel seen chain node = some decision := by
  induction fuel with
  | zero => exact fun hfuel => absurd hfuel (Nat.not_lt_zero _)
  | succ fuel ih =>
    intro seen hfuel chain node
    rw [routeDecisionInner]
    split
    next => exact ⟨_, rfl⟩
    next hkey =>
      cases hstep : findStep app.steps (chain, node) with
      | none => exact ⟨_, rfl⟩
      | some step =>
        have hless := unmet_cons hstep hkey
        have hbehind := @ih (tableKey chain node :: seen) (by omega)
        obtain ⟨possible, hpossible⟩ := @ruleDecisions_total
          (fun destMatch => matchSubject parseNet destMatch subject) _ chain node
          (routeActionDecision_total hbehind chain node) step.rules 0
        exact ⟨_, Option.bind_eq_some_iff.mpr ⟨possible, hpossible, rfl⟩⟩

theorem ruleDecisions_mono {verdict : DestMatch → MatchVerdict}
    {decide more : ℕ → Rule → Option FrontRouteDecision} {chain node : String}
    (h : ∀ position rule decision, decide position rule = some decision →
      more position rule = some decision) (rules : List Rule) :
    ∀ {index possible}, ruleDecisions verdict decide chain node index rules = some possible →
      ruleDecisions verdict more chain node index rules = some possible := by
  induction rules with
  | nil => exact fun hpossible => hpossible
  | cons rule rules ih =>
    intro index possible hpossible
    rw [ruleDecisions] at hpossible ⊢
    cases hverdict : verdict rule.destMatch with
    | miss =>
      rw [hverdict] at hpossible
      exact ih hpossible
    | hit =>
      rw [hverdict] at hpossible
      obtain ⟨decision, hdecision, hrest⟩ := Option.bind_eq_some_iff.mp hpossible
      exact Option.bind_eq_some_iff.mpr ⟨decision, h _ _ _ hdecision, hrest⟩
    | maybe =>
      rw [hverdict] at hpossible
      obtain ⟨decision, hdecision, hrest⟩ := Option.bind_eq_some_iff.mp hpossible
      obtain ⟨others, hothers, hlast⟩ := Option.bind_eq_some_iff.mp hrest
      refine Option.bind_eq_some_iff.mpr ⟨decision, h _ _ _ hdecision, ?_⟩
      exact Option.bind_eq_some_iff.mpr ⟨others, ih hothers, hlast⟩

theorem routeActionDecision_mono {decide more : String → String → Option FrontRouteDecision}
    (h : ∀ chain node decision, decide chain node = some decision →
      more chain node = some decision) {chain node : String} {index : ℕ} {rule : Rule}
    {decision : FrontRouteDecision}
    (hdecision : routeActionDecision decide chain node index rule = some decision) :
    routeActionDecision more chain node index rule = some decision := by
  unfold routeActionDecision at hdecision ⊢
  cases haction : rule.action with
  | egress _ => rwa [haction] at hdecision
  | proxy _ => rwa [haction] at hdecision
  | block => rwa [haction] at hdecision
  | forward target _ _ =>
    rw [haction] at hdecision
    obtain ⟨next, hnext, hnamed⟩ := Option.map_eq_some_iff.mp hdecision
    exact Option.map_eq_some_iff.mpr ⟨next, h _ _ _ hnext, hnamed⟩
  | reuseListener listener _ _ =>
    rw [haction] at hdecision
    obtain ⟨next, hnext, hnamed⟩ := Option.map_eq_some_iff.mp hdecision
    exact Option.map_eq_some_iff.mpr ⟨next, h _ _ _ hnext, hnamed⟩

theorem routeDecisionInner_mono {fuel more : ℕ} (hfuel : fuel ≤ more) :
    ∀ {seen : List String} {chain node : String} {decision : FrontRouteDecision},
      routeDecisionInner parseNet app subject fuel seen chain node = some decision →
      routeDecisionInner parseNet app subject more seen chain node = some decision := by
  induction fuel generalizing more with
  | zero =>
    intro seen chain node decision hdecision
    cases hdecision
  | succ fuel ih =>
    intro seen chain node decision hdecision
    obtain ⟨more, rfl⟩ : ∃ rest, more = rest + 1 := ⟨more - 1, by omega⟩
    rw [routeDecisionInner] at hdecision ⊢
    split at hdecision
    next hkey => rwa [if_pos hkey]
    next hkey =>
      rw [if_neg hkey]
      cases hstep : findStep app.steps (chain, node) with
      | none => rwa [hstep] at hdecision
      | some step =>
        rw [hstep] at hdecision
        obtain ⟨possible, hpossible, hlast⟩ := Option.bind_eq_some_iff.mp hdecision
        refine Option.bind_eq_some_iff.mpr ⟨possible, ?_, hlast⟩
        refine ruleDecisions_mono (fun position rule decision hrule => ?_) step.rules hpossible
        exact routeActionDecision_mono (fun chain node decision hnext =>
          ih (by omega) hnext) hrule

/-- **The analysis ends on every project and is right about every walk.** -/
theorem routeDecision_sound (parseNet : String → Option Ip.Net) (app : AppIr)
    (chain node : String) (subject : RouteSubject) :
    ∃ decision, routeDecision parseNet app chain node subject = some decision
      ∧ (∀ fuel, app.steps.length < fuel →
        routeDecisionInner parseNet app subject fuel [] chain node = some decision)
      ∧ ∀ matched, Assigns parseNet subject matched → Tells app matched chain node decision := by
  have hmet : unmet app [] < app.steps.length + 1 := by
    have hall := List.length_filter_le (· ∉ ([] : List String))
      (app.steps.map fun step => tableKey step.chain step.node)
    rw [List.length_map] at hall
    exact Nat.lt_succ_of_le hall
  obtain ⟨decision, hdecision⟩ := @routeDecisionInner_total parseNet app subject _ [] hmet chain node
  refine ⟨decision, hdecision, ?_, ?_⟩
  · intro fuel hfuel
    exact routeDecisionInner_mono hfuel hdecision
  · intro matched h
    exact routeDecisionInner_tells h _ hdecision

end

/-- A project of one rule table, `c` on `a`. -/
def tableApp (rules : List Rule) : AppIr where
  revision := 1
  appId := some "web"
  tenants := []
  nodes := []
  users := []
  externalOutbounds := []
  chains := []
  ingresses := []
  fronts := []
  steps := [⟨"s-c-a", some "web", "c", "a", none, none, rules⟩]
  listenerRoots := []
  grants := []
  hops := []

/-- Geodata decides whether the first rule matches, and either way the traffic leaves. -/
theorem routeDecision_either :
    let app := tableApp [⟨.geoip ["cn"], .proxy "x"⟩, ⟨.any, .egress none⟩]
    let endpoint : SubscriptionEndpoint := ⟨"192.0.2.1", 443, .tcp⟩
    ∃ decision, routeDecision (fun _ => none) app "c" "a" (.endpoint endpoint) = some decision
      ∧ decision.status = .reachable
      ∧ ∀ matched, Assigns (fun _ => none) (.endpoint endpoint) matched →
        ∃ action, WalkEnds app matched "c" "a" action ∧ leaves action = true := by
  intro app endpoint
  obtain ⟨decision, hdecision, -, htells⟩ :=
    routeDecision_sound (fun _ => none) app "c" "a" (.endpoint endpoint)
  have hstatus : (routeDecision (fun _ => none) app "c" "a" (.endpoint endpoint)).any
      (fun decision => decision.status = .reachable) = true := by decide +kernel
  rw [hdecision, Option.any_some, decide_eq_true_eq] at hstatus
  exact ⟨decision, hdecision, hstatus, fun matched h => (htells matched h).1 hstatus⟩

end Brocade.Ir
