/-
What a plan that was not refused says.

Each function of the decision gets one lemma here that states everything its success
implies; the safety proof uses these and never unfolds the functions themselves.
Outbound maps are registries keyed by tag, so the facts are phrased with
`Registry.Holds`: which tag stands for which outbound.
-/
import Brocade.Hotswap.Runtime

namespace Brocade.Hotswap

open Json Outcome

theorem field_asStr? (v : Value) (key : String) :
    (v.field key).asStr? = (v.get? key).bind Value.asStr? := by
  unfold Value.field
  cases v.get? key <;> rfl

theorem tag?_eq_field (o : Value) : tag? o = (o.field "tag").asStr? := (field_asStr? o "tag").symm

variable {o : Value} {m changed : OrdMap String Value} {config : Fields}

theorem tag?_eq_some {tag : String} : tag? o = some tag ↔ o.field "tag" = .str tag := by
  rw [tag?_eq_field, Value.asStr?_eq_some]

/-! ### Outbounds by tag -/

/-- Every value of the map carries its key as its tag. -/
def Keyed (m : OrdMap String Value) : Prop := ∀ tag o, m.get? tag = some o → tag? o = some tag

theorem Keyed.filter (h : Keyed m) (p : String × Value → Bool) : Keyed (m.filter p) := by
  intro tag o ho
  rw [OrdMap.get?_filter, Option.filter_eq_some_iff] at ho
  exact h tag o ho.1

theorem mem_values : o ∈ m.values ↔ ∃ tag, m.get? tag = some o := by
  unfold OrdMap.values
  rw [List.mem_map]
  constructor
  · rintro ⟨⟨tag, o⟩, hmem, rfl⟩
    exact ⟨tag, OrdMap.mem_entries.mp hmem⟩
  · rintro ⟨tag, ho⟩
    exact ⟨(tag, o), OrdMap.mem_entries.mpr ho, rfl⟩

theorem Keyed.tags (h : Keyed m) : m.values.map tag? = m.keys.map some := by
  unfold OrdMap.values OrdMap.keys
  rw [List.map_map, List.map_map]
  refine List.map_congr_left fun e he => ?_
  obtain ⟨tag, o⟩ := e
  exact h tag o (OrdMap.mem_entries.mp he)

theorem Keyed.holds (h : Keyed m) : Registry.Holds tag? m.values m.get? := by
  refine ⟨?_, ?_, ?_⟩
  · intro o ho
    obtain ⟨tag, htag⟩ := mem_values.mp ho
    exact ⟨tag, h tag o htag⟩
  · rw [h.tags]
    exact m.nodup_keys.map (Option.some_injective _)
  · intro tag o
    rw [mem_values]
    constructor
    · rintro ⟨⟨tag', ho⟩, htag⟩
      have heq : tag' = tag := Option.some.inj ((h tag' o ho).symm.trans htag)
      exact heq ▸ ho
    · intro ho
      exact ⟨⟨tag, ho⟩, h tag o ho⟩

theorem insertTagged_holds {xs : List Value} {m' : OrdMap String Value}
    (hx : Registry.Holds tag? xs m.get?) (hne : m.get? "" = none) (h : insertTagged m o = some m') :
    Registry.Holds tag? (xs ++ [o]) m'.get? ∧ m'.get? "" = none := by
  unfold insertTagged at h
  cases htag : tag? o with
  | none => simp [htag] at h
  | some tag =>
    simp only [htag, Option.bind_eq_bind, Option.bind_some, Option.ite_none_left_eq_some, not_or,
      Option.some.injEq] at h
    obtain ⟨⟨hempty, hnew⟩, rfl⟩ := h
    have hadd := hx.addAll (Registry.Holds.single htag) ?_
    · have hget : (m.insert tag o).get?
          = fun k => (if k = tag then some o else none).or (m.get? k) := by
        funext k
        by_cases hk : k = tag <;> simp [hk]
      refine ⟨hget ▸ hadd.2, ?_⟩
      rw [OrdMap.get?_insert, if_neg (Ne.symm hempty), hne]
    · intro k a ha
      by_cases hk : k = tag
      · rw [hk]
        simpa [OrdMap.contains] using hnew
      · simp [hk] at ha

/-- **The tag map registers the list it was built from**, and no outbound has an empty tag. -/
theorem byTag_spec (h : byTag config "outbounds" = some m) :
    ∃ outbounds, Assoc.lookup "outbounds" config = some (.arr outbounds) ∧
      Registry.Holds tag? outbounds m.get? ∧ m.get? "" = none := by
  have hfold : ∀ (rest xs : List Value) (m₀ : OrdMap String Value),
      Registry.Holds tag? xs m₀.get? → m₀.get? "" = none → rest.foldlM insertTagged m₀ = some m →
        Registry.Holds tag? (xs ++ rest) m.get? ∧ m.get? "" = none := by
    intro rest
    induction rest with
    | nil =>
      intro xs m₀ hx hne hm
      cases hm
      exact ⟨by simpa using hx, hne⟩
    | cons o rest ih =>
      intro xs m₀ hx hne hm
      rw [List.foldlM_cons, Option.bind_eq_bind, Option.bind_eq_some_iff] at hm
      obtain ⟨m₁, hstep, hrest⟩ := hm
      obtain ⟨hx₁, hne₁⟩ := insertTagged_holds hx hne hstep
      simpa using ih _ m₁ hx₁ hne₁ hrest
  simp only [byTag, Option.bind_eq_bind, Option.bind_eq_some_iff] at h
  obtain ⟨v, hv, outbounds, houtbounds, hm⟩ := h
  rw [Value.asArr?_eq_some] at houtbounds
  subst houtbounds
  refine ⟨outbounds, hv, ?_⟩
  have h₀ : Registry.Holds tag? ([] : List Value) (OrdMap.empty : OrdMap String Value).get? :=
    Registry.Holds.nil
  simpa using hfold outbounds [] .empty h₀ (OrdMap.get?_empty "") hm

theorem Holds.toKeyed {xs : List Value} (h : Registry.Holds tag? xs m.get?) : Keyed m :=
  fun tag o ho => ((h.mem tag o).mpr ho).2

theorem changedOutbounds_eq_some {bo ao : OrdMap String Value} {tag : String} :
    (changedOutbounds bo ao).get? tag = some o ↔
      ao.get? tag = some o ∧ ∃ old, bo.get? tag = some old ∧ old ≠ o := by
  unfold changedOutbounds
  rw [OrdMap.get?_filter, Option.filter_eq_some_iff]
  refine and_congr_right fun _ => ?_
  cases bo.get? tag <;> simp

theorem head_spec {outbounds : List Value} {first : String}
    (hlist : Assoc.lookup "outbounds" config = some (.arr outbounds))
    (h : head config = some first) :
    ∃ o, outbounds.head? = some o ∧ tag? o = some first := by
  simp only [head, hlist, Option.bind_eq_bind, Option.bind_some, Value.asArr?,
    Option.bind_eq_some_iff] at h
  exact h

theorem rules_spec {rs : List Value} (h : rules config = some rs) :
    ∃ routing, Assoc.lookup "routing" config = some (.obj routing) ∧
      Assoc.lookup "rules" routing = some (.arr rs) := by
  simp only [rules, Option.bind_eq_bind, Option.bind_eq_some_iff, Value.asArr?_eq_some] at h
  obtain ⟨v, hv, w, hw, rfl⟩ := h
  cases v with
  | obj routing => exact ⟨routing, hv, hw⟩
  | null => cases hw
  | bool b => cases hw
  | num n => cases hw
  | str s => cases hw
  | arr items => cases hw

/-! ### The changed outbounds and their bridge -/

theorem checkChanged_done {bo : OrdMap String Value} {first : String}
    {entries : List (String × Value)} (h : checkChanged bo first entries = .done ()) :
    ∀ e ∈ entries, e.1 ≠ first := by
  induction entries with
  | nil => simp
  | cons e rest ih =>
    obtain ⟨tag, o⟩ := e
    simp only [checkChanged, bind_eq_done, refuseIf_eq_done] at h
    obtain ⟨-, hfirst, old, -, only, -, -, -, hrest⟩ := h
    intro e he
    rcases List.mem_cons.mp he with rfl | he
    · exact hfirst
    · exact ih hrest e he

/-- The tag a bridge rule uses for `tag`. -/
def bridgeTag (changed : OrdMap String Value) (tag : String) : String :=
  if changed.contains tag then tag ++ ENDPOINT_SWAP_SUFFIX else tag

/-- A bridge rule is its original but for its own tag and the alias it may name. -/
structure Bridges (changed : OrdMap String Value) (rule bridge : Value) : Prop where
  conditions : conditions bridge = conditions rule
  balancerTag : bridge.field "balancerTag" = rule.field "balancerTag"
  outboundTag : (bridge.field "outboundTag").asStr? =
    (rule.field "outboundTag").asStr?.map (bridgeTag changed)

theorem filter_insert {p : String × Value → Bool} {k : String} {v : Value} {fields : Fields}
    (hp : ∀ w, p (k, w) = false) : (Assoc.insert k v fields).filter p = fields.filter p := by
  induction fields with
  | nil => simp [Assoc.insert, hp]
  | cons e rest ih =>
    obtain ⟨l, w⟩ := e
    unfold Assoc.insert
    split_ifs with hlt heq
    · rw [List.filter_cons_of_neg (by simp [hp])]
    · subst heq
      rw [List.filter_cons_of_neg (by simp [hp]), List.filter_cons_of_neg (by simp [hp])]
    · rw [List.filter_cons, List.filter_cons, ih]

theorem conditions_set? {rule bridge x : Value} {key : String}
    (hkey : key = "ruleTag" ∨ key = "outboundTag") (h : rule.set? key x = some bridge) :
    conditions bridge = conditions rule := by
  have hp : ∀ w : Value, (decide (key ≠ "ruleTag") && decide (key ≠ "outboundTag")) = false := by
    intro w
    rcases hkey with rfl | rfl <;> simp
  cases rule with
  | obj fields =>
    cases h
    exact filter_insert hp
  | null =>
    cases h
    simp only [conditions]
    rw [List.filter_cons_of_neg (Bool.not_eq_true _ ▸ hp x), List.filter_nil]
  | bool b => cases h
  | num n => cases h
  | str s => cases h
  | arr items => cases h

theorem exists_of_mem_right {α β : Type} {R : α → β → Prop} {as : List α} {bs : List β}
    (h : List.Forall₂ R as bs) {b : β} (hb : b ∈ bs) : ∃ a ∈ as, R a b := by
  induction h with
  | nil => simp at hb
  | @cons a b' as bs hab _ ih =>
    rcases List.mem_cons.mp hb with rfl | hb
    · exact ⟨a, List.mem_cons_self, hab⟩
    · obtain ⟨a', ha', hR⟩ := ih hb
      exact ⟨a', List.mem_cons_of_mem _ ha', hR⟩

theorem bridgeRule_done {index : Nat} {rule bridge : Value}
    (h : bridgeRule changed index rule = .done bridge) : Bridges changed rule bridge := by
  simp only [bridgeRule, bind_eq_done, orPanic_eq_done] at h
  obtain ⟨tagged, htagged, hb⟩ := h
  have hcond := conditions_set? (Or.inl rfl) htagged
  have hfield : ∀ key, key ≠ "ruleTag" → tagged.field key = rule.field key := by
    intro key hkey
    rw [Value.field_set? htagged, if_neg hkey]
  cases htag : (rule.field "outboundTag").asStr? with
  | none =>
    simp only [htag, pure_eq_done] at hb
    subst hb
    exact ⟨hcond, hfield _ (by decide), by rw [hfield _ (by decide)]; simp [htag]⟩
  | some tag =>
    by_cases hc : changed.contains tag
    · simp only [htag, hc, if_true, orPanic_eq_done] at hb
      refine ⟨(conditions_set? (Or.inr rfl) hb).trans hcond, ?_, ?_⟩
      · rw [Value.field_set? hb, if_neg (by decide), hfield _ (by decide)]
      · rw [Value.field_set? hb, if_pos rfl, htag, Option.map_some, bridgeTag, if_pos hc]
        rfl
    · simp only [htag, hc, Bool.false_eq_true, if_false, pure_eq_done] at hb
      subst hb
      refine ⟨hcond, hfield _ (by decide), ?_⟩
      rw [hfield _ (by decide)]
      simp [htag, bridgeTag, hc]

theorem bridgeRules_done {index : Nat} {rs bridged : List Value}
    (h : bridgeRules changed index rs = .done bridged) :
    List.Forall₂ (Bridges changed) rs bridged := by
  induction rs generalizing index bridged with
  | nil =>
    simp only [bridgeRules, pure_eq_done] at h
    subst h
    exact List.Forall₂.nil
  | cons rule rest ih =>
    simp only [bridgeRules, bind_eq_done, pure_eq_done] at h
    obtain ⟨bridge, hbridge, tail, htail, rfl⟩ := h
    exact List.Forall₂.cons (bridgeRule_done hbridge) (ih htail)

theorem bridgeOutbound_done {a : Value} (h : bridgeOutbound o = .done a) : IsAlias a o := by
  simp only [bridgeOutbound, bind_eq_done, orPanic_eq_done, Value.asStr?_eq_some] at h
  exact h

/-- No outbound of the configuration ends in the alias suffix. -/
def NoAliases (outbounds : List Value) : Prop :=
  ∀ o ∈ outbounds, ∀ tag, tag? o ≠ some (tag ++ ENDPOINT_SWAP_SUFFIX)

theorem checkConfig_done {allRules : List Value} {outbounds : List Value}
    (hlist : Assoc.lookup "outbounds" config = some (.arr outbounds))
    (h : checkConfig changed allRules config = .done ()) : NoAliases outbounds := by
  simp only [checkConfig, bind_eq_done, hlist, orRefuse_eq_done, Option.some.injEq,
    Value.asArr?_eq_some] at h
  obtain ⟨-, -, _, rfl, os, hos, _, hall, -⟩ := h
  cases hos
  intro o ho tag htag
  have hone := forM_eq_done.mp hall o ho
  rw [tag?_eq_field] at htag
  simp only [htag, bind_eq_done, orRefuse_eq_done, Option.some.injEq, refuseIf_eq_done] at hone
  obtain ⟨_, rfl, hsuffix⟩ := hone
  exact hsuffix (by simp [List.isSuffixOf_iff_suffix])

/-- Everything a bridging plan that was not refused relies on. -/
structure BridgePlan (changed : OrdMap String Value) (beforeOutbounds afterOutbounds afterRules :
    List Value) (plan : EndpointSwap) : Prop where
  noAliasBefore : NoAliases beforeOutbounds
  noAliasAfter : NoAliases afterOutbounds
  outbounds : plan.outbounds = changed.values
  aliases : List.Forall₂ (fun o a => IsAlias a o) changed.values plan.bridgeOutbounds
  rules : List.Forall₂ (Bridges changed) afterRules plan.bridgeRules

theorem endpointSwapPlan_done {before after : Fields}
    {beforeRules afterRules beforeOutbounds afterOutbounds : List Value} {plan : EndpointSwap}
    (hbefore : Assoc.lookup "outbounds" before = some (.arr beforeOutbounds))
    (hafter : Assoc.lookup "outbounds" after = some (.arr afterOutbounds))
    (h : endpointSwapPlan before after changed beforeRules afterRules = .done plan) :
    BridgePlan changed beforeOutbounds afterOutbounds afterRules plan := by
  simp only [endpointSwapPlan, bind_eq_done, pure_eq_done] at h
  obtain ⟨-, -, _, hcheckBefore, _, hcheckAfter, -, -, aliases, haliases, bridged, hbridged, rfl⟩ := h
  exact {
    noAliasBefore := checkConfig_done hbefore hcheckBefore
    noAliasAfter := checkConfig_done hafter hcheckAfter
    outbounds := rfl
    aliases := (mapM_eq_done.mp haliases).imp fun _ _ => bridgeOutbound_done
    rules := bridgeRules_done hbridged }

/-! ### The decision as a whole -/

/-- The two configurations of a swap that was not refused, and what the plan takes from them. -/
structure Planned (previous desired : Value) (swap : HotSwap) where
  (before after : Fields)
  previous_eq : previous = .obj before
  desired_eq : desired = .obj after
  (beforeOutbounds afterOutbounds : OrdMap String Value)
  byTagBefore : byTag before "outbounds" = some beforeOutbounds
  byTagAfter : byTag after "outbounds" = some afterOutbounds
  first : String
  headBefore : head before = some first
  headAfter : head after = some first
  firstUnchanged : (changedOutbounds beforeOutbounds afterOutbounds).get? first = none
  (beforeRules afterRules : List Value)
  rulesBefore : rules before = some beforeRules
  rulesAfter : rules after = some afterRules
  routingRest : untouched before "routing" = untouched after "routing"
  add : swap.addOutbounds = (afterOutbounds.filter fun e => !beforeOutbounds.contains e.1).values
  remove : swap.removeOutbounds =
    (beforeOutbounds.filter fun e => !afterOutbounds.contains e.1).keys
  bridge :
    (∀ tag, (changedOutbounds beforeOutbounds afterOutbounds).get? tag = none) ∧
        swap.endpointSwap = none ∨
      ∃ plan, swap.endpointSwap = some plan ∧
        endpointSwapPlan before after (changedOutbounds beforeOutbounds afterOutbounds)
          beforeRules afterRules = .done plan
  reload :
    beforeRules = afterRules ∧ swap.endpointSwap = none ∧ swap.reloadRouting = none ∨
      swap.reloadRouting = Assoc.lookup "routing" after ∧
        ∃ routing, swap.reloadRouting = some routing

theorem get?_of_isEmpty (h : m.isEmpty = true) (tag : String) : m.get? tag = none := by
  unfold OrdMap.isEmpty at h
  rw [List.isEmpty_iff] at h
  simp [OrdMap.get?, h]

/-- **What a swap that was not refused has gone through.** -/
theorem hotSwap_done {previous desired : Value} {swap : HotSwap}
    (h : hotSwap previous desired = .done swap) : Nonempty (Planned previous desired swap) := by
  simp only [hotSwap, bind_eq_done, orRefuse_eq_done, refuseIf_eq_done, pure_eq_done,
    Value.asObj?_eq_some] at h
  obtain ⟨before, rfl, after, rfl, _, hsame, bo, hbo, ao, hao, first, hfirst, first', hfirst', _,
    heads, _, hchanged, _, -, br, hbr, ar, har, _, -, bridge, hbridge, reload, hreload, rfl⟩ := h
  have heads' : first = first' := not_not.mp heads
  subst heads'
  obtain ⟨routing, hrouting, -⟩ := rules_spec hbr
  refine ⟨{
    before, after, previous_eq := rfl, desired_eq := rfl
    beforeOutbounds := bo, afterOutbounds := ao, byTagBefore := hbo, byTagAfter := hao
    first, headBefore := hfirst, headAfter := hfirst'
    firstUnchanged := ?_
    beforeRules := br, afterRules := ar, rulesBefore := hbr, rulesAfter := har
    routingRest := ?_
    add := rfl, remove := rfl
    bridge := ?_
    reload := ?_ }⟩
  · refine Option.eq_none_iff_forall_ne_some.mpr fun o ho => ?_
    exact checkChanged_done hchanged _ (OrdMap.mem_entries.mpr ho) rfl
  · have hmem : ("routing", Value.obj routing) ∈ before ++ after :=
      List.mem_append_left _ (Assoc.mem_of_lookup hrouting)
    simp only [List.any_eq_true, decide_eq_true_eq, not_exists, not_and, not_not] at hsame
    exact hsame _ hmem
  · by_cases hempty : (changedOutbounds bo ao).isEmpty = true
    · simp only [hempty, if_true, pure_eq_done] at hbridge
      exact Or.inl ⟨get?_of_isEmpty hempty, hbridge.symm⟩
    · rw [if_neg hempty, map_eq_done] at hbridge
      obtain ⟨plan, hplan, rfl⟩ := hbridge
      exact Or.inr ⟨plan, rfl, hplan⟩
  · by_cases hsame : br = ar ∧ bridge.isNone
    · rw [if_pos hsame, pure_eq_done] at hreload
      exact Or.inl ⟨hsame.1, Option.isNone_iff_eq_none.mp hsame.2, hreload.symm⟩
    · rw [if_neg hsame, map_eq_done] at hreload
      obtain ⟨routing, hrouting, rfl⟩ := hreload
      rw [orRefuse_eq_done] at hrouting
      exact Or.inr ⟨hrouting.symm, routing, rfl⟩

end Brocade.Hotswap
