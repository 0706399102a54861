/-
Where the hops of a project come from.

The first rule of a project that names a table makes the hop there, and no other rule does.
Where nothing is reported, that rule found its table and could be dialed.
-/
import Brocade.Ir.Hops
import Brocade.Lib.Fallible

namespace Brocade.Ir

open Model

section
variable (app : AppIr) (targetSteps : List Step) (sys : SystemIr)

/-- A rule that finds the table it names and can be dialed. -/
structure Dials (edge : Step × ForwardActionRef) (accept : Accept) (hopIn : HopIn)
    (resolved : String × ℕ × HopPath) : Prop where
  entry : entryOf targetSteps edge.1 edge.2 = .ok (accept, hopIn)
  dialed : resolveEdge app sys edge.1 edge.2 hopIn = .ok resolved

/-- The first rule of a project that names its table. -/
def First (edge : Step × ForwardActionRef) : Prop :=
  (edgesOf app.steps).find? (fun other => hopKey other.1 other.2 = hopKey edge.1 edge.2) = some edge

variable {app targetSteps sys}

/-! ### Every failure is an error -/

variable {location : String} {d : Diagnostic}

theorem error_of {α : Type} {code message : String}
    (h : (Except.error (Diagnostic.error code location message) : Resolved α) = .error d) :
    d.level = .error :=
  Except.error.inj h ▸ Diagnostic.error_level code location message

theorem entryOf_error {step : Step} {forward : ForwardActionRef}
    (h : entryOf targetSteps step forward = .error d) : d.level = .error := by
  unfold entryOf at h
  dsimp only at h
  split at h
  · split at h
    · exact error_of h
    · exact error_of h
  split at h
  · exact error_of h
  split at h
  · exact error_of h
  · cases h

theorem refuseNat_error {target host : String} {node : Option AppNode}
    (h : refuseNat location target host node = .error d) : d.level = .error := by
  unfold refuseNat at h
  split at h
  · cases h
  · exact error_of h

theorem dialTarget_error {source target : String} {dial : RelayDialRef} {hopIn : HopIn}
    {ends : HopEndpoints} (h : dialTarget location source target dial hopIn ends = .error d) :
    d.level = .error := by
  have hoverlay : ∀ {d}, dialOverlay location source target hopIn ends = .error d →
      d.level = .error := by
    intro d h
    unfold dialOverlay at h
    split at h
    · exact error_of h
    split at h
    · cases h
    split at h
    · exact error_of h
    · exact error_of h
  unfold dialTarget at h
  split at h
  · exact hoverlay h
  · exact hoverlay h
  · unfold dialAddr at h
    split at h
    next hparse =>
      rw [← Except.error.inj h]
      unfold parseAddr at hparse
      split at hparse
      · cases hparse
      · exact error_of hparse
    split at h
    next hnat =>
      exact Except.error.inj h ▸ refuseNat_error hnat
    split at h
    · cases h
    · cases h
  · unfold dialReverse at h
    split at h
    · exact error_of h
    split at h
    · exact error_of h
    · cases h
  · unfold dialPublic at h
    split at h
    · exact error_of h
    split at h
    · exact error_of h
    · cases h
  · unfold dialListenerAddr at h
    split at h
    next hparse =>
      rw [← Except.error.inj h]
      unfold parseListenerHost at hparse
      split at hparse
      · cases hparse
      · exact error_of hparse
    split at h
    next hnat =>
      exact Except.error.inj h ▸ refuseNat_error hnat
    · cases h

theorem resolveEdge_error {step : Step} {forward : ForwardActionRef} {hopIn : HopIn}
    (h : resolveEdge app sys step forward hopIn = .error d) : d.level = .error := by
  unfold resolveEdge at h
  split at h
  · cases h
  · exact dialTarget_error h

/-! ### The table -/

theorem addHop_clean {table : HopTable} {edge : Step × ForwardActionRef}
    (h : Clean (addHop app targetSteps sys table edge).2) :
    (table.1.contains (hopKey edge.1 edge.2) = true
        ∧ (addHop app targetSteps sys table edge).1 = table.1)
      ∨ table.1.contains (hopKey edge.1 edge.2) = false
        ∧ ∃ accept hopIn resolved, Dials app targetSteps sys edge accept hopIn resolved
          ∧ (addHop app targetSteps sys table edge).1
            = table.1.insert (hopKey edge.1 edge.2) (hopOf edge.1 edge.2 accept hopIn resolved) := by
  have hfailed : ∀ {d : Diagnostic}, d.level = .error → ¬ Clean (table.2 ++ [d]) := by
    intro d hd hclean
    exact (clean_append.mp hclean).2 d List.mem_cons_self hd
  unfold addHop at h ⊢
  split at h
  next hentry => exact absurd h (hfailed (entryOf_error hentry))
  next accept hopIn hentry =>
    by_cases hcontains : table.1.contains (hopKey edge.1 edge.2) = true
    · rw [if_pos hcontains]
      exact .inl ⟨hcontains, rfl⟩
    · rw [if_neg hcontains] at h ⊢
      refine .inr ⟨by simpa using hcontains, accept, hopIn, ?_⟩
      split at h
      next hresolve => exact absurd h (hfailed (resolveEdge_error hresolve))
      next resolved hresolve => exact ⟨resolved, ⟨hentry, hresolve⟩, rfl⟩

theorem addHop_reports (table : HopTable) (edge : Step × ForwardActionRef) :
    ∃ more, (addHop app targetSteps sys table edge).2 = table.2 ++ more := by
  unfold addHop
  split
  · exact ⟨_, rfl⟩
  · split
    · exact ⟨[], by simp⟩
    · split
      · exact ⟨_, rfl⟩
      · exact ⟨[], by simp⟩

theorem foldl_addHop_reports (edges : List (Step × ForwardActionRef)) : ∀ table : HopTable, ∃ more,
      (edges.foldl (addHop app targetSteps sys) table).2 = table.2 ++ more := by
  induction edges with
  | nil => exact fun table => ⟨[], by simp⟩
  | cons edge rest ih =>
    intro table
    obtain ⟨more, hmore⟩ := addHop_reports table edge
    obtain ⟨later, hlater⟩ := ih (addHop app targetSteps sys table edge)
    exact ⟨more ++ later, by rw [List.foldl_cons, hlater, hmore, List.append_assoc]⟩

theorem foldl_addHop_get? {key : List String} {hop : Hop} {edges : List (Step × ForwardActionRef)} :
    ∀ {table : HopTable}, Clean (edges.foldl (addHop app targetSteps sys) table).2 →
      ((edges.foldl (addHop app targetSteps sys) table).1.get? key = some hop ↔
        table.1.get? key = some hop ∨ table.1.get? key = none ∧ ∃ edge,
          edges.find? (fun other => hopKey other.1 other.2 = key) = some edge
            ∧ ∃ accept hopIn resolved, Dials app targetSteps sys edge accept hopIn resolved
              ∧ hop = hopOf edge.1 edge.2 accept hopIn resolved) := by
  induction edges with
  | nil => simp
  | cons edge rest ih =>
    intro table h
    rw [List.foldl_cons] at h ⊢
    obtain ⟨more, hmore⟩ : ∃ more, (rest.foldl (addHop app targetSteps sys)
        (addHop app targetSteps sys table edge)).2
        = (addHop app targetSteps sys table edge).2 ++ more :=
      foldl_addHop_reports rest _
    have hfirst : Clean (addHop app targetSteps sys table edge).2 := by
      rw [hmore] at h
      exact (clean_append.mp h).1
    rw [ih h]
    rcases addHop_clean hfirst with ⟨hcontains, hkept⟩ | ⟨habsent, accept, hopIn, resolved,
      hdials, hadded⟩
    · rw [hkept]
      by_cases hkey : hopKey edge.1 edge.2 = key
      · obtain ⟨present, hpresent⟩ := OrdMap.contains_iff.mp (hkey ▸ hcontains)
        simp [hpresent]
      · rw [List.find?_cons_of_neg (by simpa using hkey)]
    · rw [hadded, OrdMap.get?_insert]
      by_cases hkey : hopKey edge.1 edge.2 = key
      · have hnone : table.1.get? key = none := by
          simpa [OrdMap.contains, hkey] using habsent
        rw [if_pos hkey.symm, List.find?_cons_of_pos (by simpa using hkey), hnone]
        constructor
        · rintro (hhop | ⟨hnone', -⟩)
          · exact .inr ⟨rfl, edge, rfl, accept, hopIn, resolved, hdials,
              (Option.some.inj hhop).symm⟩
          · cases hnone'
        · rintro (hhop | ⟨-, other, hother, accept', hopIn', resolved', hdials', hhop⟩)
          · cases hhop
          · cases hother
            have hentry := hdials.entry.symm.trans hdials'.entry
            cases hentry
            have hresolved := hdials.dialed.symm.trans hdials'.dialed
            cases hresolved
            exact .inl (by rw [hhop])
      · rw [if_neg fun h => hkey h.symm, List.find?_cons_of_neg (by simpa using hkey)]

end

/-! ### The hops of a project -/

section
variable (app : AppIr) (targetSteps : List Step) (sys : SystemIr)

/-- The hops before loopback addresses are settled, and what is reported. -/
def hopTable : HopTable :=
  (edgesOf app.steps).foldl (addHop app targetSteps sys) (.empty, [])

/-- A rule of the project enters the listener from outside over IPv6: the target's listener
when it dials, its own when the target dials back. -/
def EntersIpv6 (listener : String × String) : Prop :=
  ∃ edge, First app edge ∧ ∃ accept hopIn resolved,
    Dials app targetSteps sys edge accept hopIn resolved ∧ Address.isIpv6 resolved.1 = true
      ∧ (resolved.2.2 = .direct ∧ edge.2.key = listener
        ∨ resolved.2.2 = .reverse ∧ edge.1.key = listener)

variable {app targetSteps sys}

theorem first_iff {edge : Step × ForwardActionRef} {key : List String} :
    (edgesOf app.steps).find? (fun other => hopKey other.1 other.2 = key) = some edge
      ↔ First app edge ∧ hopKey edge.1 edge.2 = key := by
  constructor
  · intro h
    have hkey : hopKey edge.1 edge.2 = key := by simpa using List.find?_some h
    exact ⟨by rw [First, hkey]; exact h, hkey⟩
  · rintro ⟨h, hkey⟩
    rw [First, hkey] at h
    exact h

variable {hop : Hop} {listener : String × String} {step : Step} {forward : ForwardActionRef}
    {accept : Accept} {hopIn : HopIn} {resolved : String × ℕ × HopPath}

theorem hopTable_get? (h : Clean (hopTable app targetSteps sys).2) {key : List String} :
    (hopTable app targetSteps sys).1.get? key = some hop ↔
      ∃ edge, First app edge ∧ hopKey edge.1 edge.2 = key ∧ ∃ accept hopIn resolved,
        Dials app targetSteps sys edge accept hopIn resolved
          ∧ hop = hopOf edge.1 edge.2 accept hopIn resolved := by
  rw [hopTable, foldl_addHop_get? h]
  simp only [first_iff, and_assoc]
  constructor
  · rintro (hempty | ⟨-, edge, hedge⟩)
    · cases hempty
    · exact ⟨edge, hedge⟩
  · exact fun hedge => .inr ⟨rfl, hedge⟩

/-- The rule table a hop starts from and the one it enters. -/
def Hop.edgeKey (hop : Hop) : List String := [hop.chain, hop.source, hop.targetChain, hop.target]

theorem foldl_addHop_keyed (edges : List (Step × ForwardActionRef)) : ∀ {table : HopTable},
    (∀ {key hop}, table.1.get? key = some hop → Hop.edgeKey hop = key) → ∀ {key hop},
      (edges.foldl (addHop app targetSteps sys) table).1.get? key = some hop →
        Hop.edgeKey hop = key := by
  induction edges with
  | nil => exact fun h => h
  | cons edge edges ih =>
    intro table h
    refine ih ?_
    intro key hop hget
    unfold addHop at hget
    split at hget
    · exact h hget
    · split_ifs at hget with hheld
      · exact h hget
      · split at hget
        · exact h hget
        · rw [OrdMap.get?_insert] at hget
          split_ifs at hget with hkey
          · rw [← Option.some.inj hget, hkey]
            rfl
          · exact h hget

/-- **No two hops of a project have the same ends.** -/
theorem hop_unique {other : Hop} (h : hop ∈ (compileHopsWithTargets app targetSteps sys).1.hops)
    (h' : other ∈ (compileHopsWithTargets app targetSteps sys).1.hops)
    (hends : Hop.edgeKey hop = Hop.edgeKey other) : hop = other := by
  have hsettled : ∀ {hop : Hop}, hop ∈ (compileHopsWithTargets app targetSteps sys).1.hops →
      ∃ raw, (hopTable app targetSteps sys).1.get? (Hop.edgeKey hop) = some raw
        ∧ hop = settleLoopback ((hopTable app targetSteps sys).1.values.filterMap publicIpv6Listener)
          raw := by
    intro hop hmem
    obtain ⟨raw, hraw, rfl⟩ := List.mem_map.mp hmem
    obtain ⟨key, hget⟩ := OrdMap.mem_values.mp hraw
    have hkey : Hop.edgeKey raw = key := by
      refine foldl_addHop_keyed (edgesOf app.steps) ?_ hget
      intro key hop hnone
      cases hnone
    refine ⟨raw, ?_, rfl⟩
    have hsame : ∀ listeners, Hop.edgeKey (settleLoopback listeners raw) = Hop.edgeKey raw := by
      intro listeners
      unfold settleLoopback
      split_ifs <;> rfl
    show (hopTable app targetSteps sys).1.get? (Hop.edgeKey (settleLoopback _ raw)) = some raw
    rw [hsame, hkey]
    exact hget
  obtain ⟨raw, hraw, hhop⟩ := hsettled h
  obtain ⟨raw', hraw', hother⟩ := hsettled h'
  rw [← hends, hraw] at hraw'
  rw [hhop, hother, Option.some.inj hraw']

theorem publicIpv6Listener_eq_some :
    publicIpv6Listener hop = some listener ↔ Address.isIpv6 hop.address = true
      ∧ (hop.path = .direct ∧ (hop.targetChain, hop.target) = listener
        ∨ hop.path = .reverse ∧ (hop.chain, hop.source) = listener) := by
  unfold publicIpv6Listener
  by_cases hv6 : Address.isIpv6 hop.address = true
  · cases hpath : hop.path <;> simp [hv6]
  · simp [hv6]

theorem publicIpv6Listener_hopOf :
    publicIpv6Listener (hopOf step forward accept hopIn resolved) = some listener
      ↔ Address.isIpv6 resolved.1 = true ∧ (resolved.2.2 = .direct ∧ forward.key = listener
          ∨ resolved.2.2 = .reverse ∧ step.key = listener) := by
  simp only [publicIpv6Listener_eq_some, hopOf, Step.key, ForwardActionRef.key]

theorem mem_ipv6Listeners (h : Clean (hopTable app targetSteps sys).2) :
    listener ∈ (hopTable app targetSteps sys).1.values.filterMap publicIpv6Listener
      ↔ EntersIpv6 app targetSteps sys listener := by
  simp only [List.mem_filterMap, OrdMap.mem_values, hopTable_get? h]
  constructor
  · rintro ⟨hop, ⟨key, edge, hfirst, -, accept, hopIn, resolved, hdials, rfl⟩, hlistener⟩
    exact ⟨edge, hfirst, accept, hopIn, resolved, hdials, publicIpv6Listener_hopOf.mp hlistener⟩
  · rintro ⟨edge, hfirst, accept, hopIn, resolved, hdials, hlistener⟩
    exact ⟨_, ⟨_, edge, hfirst, rfl, accept, hopIn, resolved, hdials, rfl⟩,
      publicIpv6Listener_hopOf.mpr hlistener⟩

/-- The hops of a project are those of its first rules, with the addresses on loopback settled by
what its own rules do. -/
theorem exists_hops (h : Clean (compileHopsWithTargets app targetSteps sys).2) :
    ∃ listeners, (∀ listener, listener ∈ listeners ↔ EntersIpv6 app targetSteps sys listener)
      ∧ ∀ hop, hop ∈ (compileHopsWithTargets app targetSteps sys).1.hops ↔
        ∃ edge, First app edge ∧ ∃ accept hopIn resolved,
          Dials app targetSteps sys edge accept hopIn resolved
            ∧ hop = settleLoopback listeners (hopOf edge.1 edge.2 accept hopIn resolved) := by
  have hhops : (compileHopsWithTargets app targetSteps sys).1.hops
      = (hopTable app targetSteps sys).1.values.map (settleLoopback
        ((hopTable app targetSteps sys).1.values.filterMap publicIpv6Listener)) := rfl
  have hclean : Clean (hopTable app targetSteps sys).2 := h
  refine ⟨_, fun listener => mem_ipv6Listeners hclean, fun hop => ?_⟩
  simp only [hhops, List.mem_map, OrdMap.mem_values, hopTable_get? hclean]
  constructor
  · rintro ⟨raw, ⟨key, edge, hfirst, -, accept, hopIn, resolved, hdials, rfl⟩, rfl⟩
    exact ⟨edge, hfirst, accept, hopIn, resolved, hdials, rfl⟩
  · rintro ⟨edge, hfirst, accept, hopIn, resolved, hdials, rfl⟩
    exact ⟨_, ⟨_, edge, hfirst, rfl, accept, hopIn, resolved, hdials, rfl⟩, rfl⟩

theorem dials_compiled {ts ts' : List Step} {s s' : SystemIr} {edge : Step × ForwardActionRef} :
    Dials (compileHopsWithTargets app ts s).1 ts' s' edge accept hopIn resolved
      ↔ Dials app ts' s' edge accept hopIn resolved :=
  ⟨fun h => ⟨h.entry, h.dialed⟩, fun h => ⟨h.entry, h.dialed⟩⟩

theorem entersIpv6_compiled {ts ts' : List Step} {s s' : SystemIr} :
    EntersIpv6 (compileHopsWithTargets app ts s).1 ts' s' listener
      ↔ EntersIpv6 app ts' s' listener := by
  unfold EntersIpv6
  simp only [dials_compiled]
  rfl

/-! ### Loopback -/

/-- The path a dial takes, where it resolves. -/
def RelayDialRef.path : RelayDialRef → HopPath
  | .forward .overlay | .listener .overlay => .overlay
  | .forward (.addr _) | .listener (.publicAddr _) | .listener (.addr _) => .direct
  | .forward (.reverse _) => .reverse

theorem dialTarget_path {location source target : String} {dial : RelayDialRef}
    {ends : HopEndpoints} (h : dialTarget location source target dial hopIn ends = .ok resolved) :
    resolved.2.2 = RelayDialRef.path dial := by
  have hoverlay : dialOverlay location source target hopIn ends = .ok resolved →
      resolved.2.2 = .overlay := by
    intro h
    unfold dialOverlay at h
    split at h
    · cases h
    split at h
    · cases h
      rfl
    split at h
    · cases h
    · cases h
  unfold dialTarget at h
  split at h
  · exact hoverlay h
  · exact hoverlay h
  · unfold dialAddr at h
    split at h
    · cases h
    next parsed hparse =>
      have hdirect : parsed.2.2 = .direct := by
        unfold parseAddr at hparse
        split at hparse
        next addr haddr =>
          cases hparse
          obtain ⟨parts, -, hcheck⟩ := Fallible.bind_eq_ok.mp haddr
          unfold checkAddr at hcheck
          split at hcheck
          · cases hcheck
          split at hcheck
          · cases hcheck
          · cases hcheck
          · cases hcheck
            rfl
        · cases hparse
      split at h
      · cases h
      split at h
      · cases h
        exact hdirect
      · cases h
        exact hdirect
  · unfold dialReverse at h
    split at h
    · cases h
    split at h
    · cases h
    · cases h
      rfl
  · unfold dialPublic at h
    split at h
    · cases h
    split at h
    · cases h
    · cases h
      rfl
  · unfold dialListenerAddr at h
    split at h
    · cases h
    split at h
    · cases h
    · cases h
      rfl

theorem resolveEdge_loopback (h : resolveEdge app sys step forward hopIn = .ok resolved)
    (hlocal : resolved.2.2 = .loopback) : forward.reused = true ∧ step.node = forward.targetNode
      ∧ resolved = ("127.0.0.1", hopIn.port, .loopback) := by
  unfold resolveEdge at h
  split at h
  next hsame =>
    rw [Bool.and_eq_true, decide_eq_true_eq] at hsame
    injection h with h
    exact ⟨hsame.1, hsame.2, h.symm⟩
  next =>
    rw [dialTarget_path h] at hlocal
    unfold RelayDialRef.path at hlocal
    split at hlocal <;> cases hlocal

theorem resolveEdge_reverse {chain : String} {action : Action}
    (hforward : action.forwardRef chain = some forward)
    (h : resolveEdge app sys step forward hopIn = .ok resolved) (hback : resolved.2.2 = .reverse) :
    ∃ family pool, action = .forward forward.targetNode (.reverse family) pool := by
  have hpath : RelayDialRef.path forward.dial = .reverse := by
    unfold resolveEdge at h
    split at h
    · cases h
      cases hback
    next => exact (dialTarget_path h).symm.trans hback
  cases action with
  | forward target dial pool =>
    cases hforward
    cases dial with
    | reverse family => exact ⟨family, pool, rfl⟩
    | overlay => cases hpath
    | addr raw => cases hpath
  | reuseListener listener dial pool =>
    cases hforward
    cases dial <;> cases hpath
  | egress sendThrough => cases hforward
  | proxy outbound => cases hforward
  | block => cases hforward

theorem reused_dial {chain : String} {action : Action} (h : action.forwardRef chain = some forward)
    (hreused : forward.reused = true) : forward.dial.isReverse = false := by
  cases action with
  | reuseListener listener dial pool =>
    cases h
    rfl
  | forward target dial pool =>
    cases h
    cases hreused
  | egress sendThrough => cases h
  | proxy outbound => cases h
  | block => cases h

theorem entryOf_ok (h : entryOf targetSteps step forward = .ok (accept, hopIn)) :
    ∃ target, findStep targetSteps forward.key = some target ∧ target.accept = some accept
      ∧ (if forward.dial.isReverse then step.hopIn else target.hopIn) = some hopIn := by
  unfold entryOf at h
  dsimp only at h
  split at h
  · cases h
  next target htarget =>
    split at h
    · cases h
    next accept' haccept =>
      split at h
      · cases h
      next hopIn' hhopIn =>
        cases h
        exact ⟨target, htarget, haccept, hhopIn⟩

theorem findStep_eq_some {steps : List Step} {key : String × String}
    (h : findStep steps key = some step) : step ∈ steps ∧ step.key = key := by
  have hkey := List.find?_some h
  rw [Bool.and_eq_true, decide_eq_true_eq, decide_eq_true_eq] at hkey
  exact ⟨List.mem_of_find?_eq_some h, Prod.ext hkey.1 hkey.2⟩

end

end Brocade.Ir
