/-
A swap carries live traffic at every step and ends at the desired configuration.

The kernel's outbounds are followed as a partial map from tags to outbounds.  Writing
`before` and `after` for the two configurations' maps, the eight operations are

    before ∪ added, ∪ aliases, minus changed, ∪ changed anew, minus aliases, minus removed

and the routing is the previous one up to the aliases, the bridge table while the
changed tags are away, and the desired one from there on.  Three lemmas say when a
state is safe, one for each table; `Stages` computes the maps; the rest is putting
one after the other.
-/
import Brocade.Hotswap.Spec

namespace Brocade.Hotswap

open Json Outcome Steps Registry

/-! ### When a state is safe -/

variable {Request : Type} {rs : List Value} {tag : String} {k previous desired : Kernel}
    {changed bo ao : OrdMap String Value} {o : Value}

theorem mem_of_verdict {accepts : Request → Fields → Bool} {request : Request}
    (h : verdict accepts rs request = .outbound tag) :
    ∃ rule ∈ rs, rule.field "outboundTag" = .str tag := by
  unfold verdict at h
  split at h
  · rename_i rule hfind
    refine ⟨rule, List.mem_of_find?_eq_some hfind, ?_⟩
    unfold ruleTarget at h
    split at h
    · rename_i t _ hname
      cases h
      unfold ruleName at hname
      rw [Option.filter_eq_some_iff, Value.asStr?_eq_some] at hname
      exact hname.1
    · cases h
    · cases h
  · cases h

theorem handler_congr {k' : Kernel} {d : Destination}
    (hhead : k.outbounds.head? = k'.outbounds.head?)
    (htag : ∀ tag, d = .outbound tag → k.installed tag = k'.installed tag) :
    k.handler d = k'.handler d := by
  cases d with
  | outbound tag => exact congrArg Handler.outbound (htag tag rfl)
  | balancer tag => rfl
  | default => exact congrArg Handler.outbound hhead
  | invalid => rfl

theorem route_congr {k' : Kernel} (hrules : k.rules = k'.rules)
    (hhead : k.outbounds.head? = k'.outbounds.head?) (hdef : NamesOnly k'.installed k'.rules)
    (hext : ∀ tag o, k'.installed tag = some o → k.installed tag = some o)
    (accepts : Request → Fields → Bool) (request : Request) :
    k.route accepts request = k'.route accepts request := by
  unfold Kernel.route
  rw [hrules]
  refine handler_congr hhead fun tag hd => ?_
  obtain ⟨rule, hrule, hname⟩ := mem_of_verdict hd
  obtain ⟨o, ho⟩ := Option.ne_none_iff_exists'.mp (hdef rule hrule tag hname)
  rw [ho, hext tag o ho]

theorem NamesOnly.mono {f g : String → Option Value} (h : NamesOnly f rs)
    (hext : ∀ tag o, f tag = some o → g tag = some o) : NamesOnly g rs := by
  intro rule hrule tag hname
  obtain ⟨o, ho⟩ := Option.ne_none_iff_exists'.mp (h rule hrule tag hname)
  rw [hext tag o ho]
  simp

theorem safe_of_previous (hrouting : k.routing = previous.routing)
    (hhead : k.outbounds.head? = previous.outbounds.head?)
    (hdef : NamesOnly previous.installed previous.rules)
    (hext : ∀ tag o, previous.installed tag = some o → k.installed tag = some o) :
    Safe previous desired k := by
  have hrules : k.rules = previous.rules := by simp [Kernel.rules, hrouting]
  exact {
    first := hhead
    defined := hrules ▸ hdef.mono hext
    routed := fun accepts request =>
      Or.inl (route_congr hrules hhead hdef hext accepts request)
    rest := fun key _ => by rw [hrouting] }

theorem safe_of_desired (hrouting : k.routing = desired.routing)
    (hhead : k.outbounds.head? = previous.outbounds.head?)
    (hheads : previous.outbounds.head? = desired.outbounds.head?)
    (hdef : NamesOnly desired.installed desired.rules)
    (hext : ∀ tag o, desired.installed tag = some o → k.installed tag = some o)
    (hrest : ∀ key, key ≠ "rules" → previous.routing.get? key = desired.routing.get? key) :
    Safe previous desired k := by
  have hrules : k.rules = desired.rules := by simp [Kernel.rules, hrouting]
  exact {
    first := hhead
    defined := hrules ▸ hdef.mono hext
    routed := fun accepts request =>
      Or.inr (Or.inl (route_congr hrules (hhead.trans hheads) hdef hext accepts request))
    rest := fun key hkey => by rw [hrouting, hrest key hkey] }

/-! ### The bridge table -/

def Destination.rename (f : String → String) : Destination → Destination
  | .outbound tag => .outbound (f tag)
  | d => d

theorem bridgeTag_ne_empty (h : tag ≠ "") : bridgeTag changed tag ≠ "" := by
  unfold bridgeTag
  split
  · intro heq
    have hnil := congrArg String.toList heq
    rw [String.toList_append, String.toList_empty, List.append_eq_nil_iff] at hnil
    exact absurd hnil.2 (by decide)
  · exact h

theorem bridgeTag_unchanged (h : changed.get? tag = none) : bridgeTag changed tag = tag := by
  simp [bridgeTag, OrdMap.contains, h]

theorem bridgeTag_changed (h : changed.get? tag = some o) :
    bridgeTag changed tag = tag ++ ENDPOINT_SWAP_SUFFIX := by
  simp [bridgeTag, OrdMap.contains, h]

theorem ruleTarget_bridge (hempty : changed.get? "" = none) {rule bridge : Value}
    (h : Bridges changed rule bridge) :
    ruleTarget bridge = (ruleTarget rule).rename (bridgeTag changed) := by
  have hbalancer : ruleName bridge "balancerTag" = ruleName rule "balancerTag" := by
    simp only [ruleName, h.balancerTag]
  have houtbound : ruleName bridge "outboundTag"
      = (ruleName rule "outboundTag").map (bridgeTag changed) := by
    unfold ruleName
    rw [h.outboundTag]
    cases (rule.field "outboundTag").asStr? with
    | none => rfl
    | some tag =>
      by_cases htag : tag = ""
      · subst htag
        simp [Option.filter_some, bridgeTag_unchanged hempty]
      · simp [Option.filter_some, htag, bridgeTag_ne_empty htag]
  unfold ruleTarget
  rw [hbalancer, houtbound]
  cases ruleName rule "outboundTag" with
  | some tag => rfl
  | none => cases ruleName rule "balancerTag" <;> rfl

theorem verdict_bridge (hempty : changed.get? "" = none) {bridged : List Value}
    (h : List.Forall₂ (Bridges changed) rs bridged) (accepts : Request → Fields → Bool)
    (request : Request) :
    verdict accepts bridged request = (verdict accepts rs request).rename (bridgeTag changed) := by
  induction h with
  | nil => rfl
  | @cons rule bridge rs bridged hrule _ ih =>
    unfold verdict at ih ⊢
    rw [List.find?_cons, List.find?_cons, hrule.conditions]
    cases accepts request (conditions rule) with
    | true => exact ruleTarget_bridge hempty hrule
    | false => exact ih

/-- The bridge table over the unchanged desired outbounds and an alias for each changed one. -/
theorem safe_of_bridge (hempty : changed.get? "" = none)
    (hchanged : ∀ tag o, changed.get? tag = some o →
      tag? o = some tag ∧ desired.installed tag = some o ∧
        ∃ old, previous.installed tag = some old ∧ old ≠ o)
    (hrules : List.Forall₂ (Bridges changed) desired.rules k.rules)
    (hhead : k.outbounds.head? = previous.outbounds.head?)
    (hheads : previous.outbounds.head? = desired.outbounds.head?)
    (hdef : NamesOnly desired.installed desired.rules)
    (hext : ∀ tag o, desired.installed tag = some o → changed.get? tag = none →
      k.installed tag = some o) (halias : ∀ tag o, changed.get? tag = some o →
      ∃ a, k.installed (tag ++ ENDPOINT_SWAP_SUFFIX) = some a ∧ IsAlias a o)
    (hrest : ∀ key, key ≠ "rules" → k.routing.get? key = previous.routing.get? key) :
    Safe previous desired k := by
  refine ⟨hhead, ?_, ?_, hrest⟩
  · intro bridge hbridge tag hname
    obtain ⟨rule, hrule, hb⟩ := exists_of_mem_right hrules hbridge
    have hout := hb.outboundTag
    rw [Value.asStr?_eq_some.mpr hname, eq_comm, Option.map_eq_some_iff] at hout
    obtain ⟨named, hnamed, rfl⟩ := hout
    have hthere := hdef rule hrule named (Value.asStr?_eq_some.mp hnamed)
    obtain ⟨o, ho⟩ := Option.ne_none_iff_exists'.mp hthere
    cases hc : changed.get? named with
    | none =>
      rw [bridgeTag_unchanged hc, hext named o ho hc]
      simp
    | some c =>
      obtain ⟨a, ha, -⟩ := halias named c hc
      rw [bridgeTag_changed hc, ha]
      simp
  · intro Request accepts request
    right
    unfold Kernel.route
    rw [verdict_bridge hempty hrules accepts request]
    cases hd : verdict accepts desired.rules request with
    | outbound tag =>
      obtain ⟨rule, hrule, hname⟩ := mem_of_verdict hd
      obtain ⟨o, ho⟩ := Option.ne_none_iff_exists'.mp (hdef rule hrule tag hname)
      cases hc : changed.get? tag with
      | none =>
        left
        simp only [Destination.rename, Kernel.handler, bridgeTag_unchanged hc, ho, hext tag o ho hc]
      | some c =>
        obtain ⟨htag, hthere, old, hold, hne⟩ := hchanged tag c hc
        obtain ⟨a, ha, hisAlias⟩ := halias tag c hc
        right
        refine ⟨a, c, tag, old, ?_, ?_, hisAlias, htag, hold, hne⟩
        · simp only [Destination.rename, Kernel.handler, bridgeTag_changed hc, ha]
        · simp only [Kernel.handler, hthere]
    | balancer tag => exact Or.inl rfl
    | default => exact Or.inl (congrArg Handler.outbound (hhead.trans hheads))
    | invalid => exact Or.inl rfl

/-! ### The outbounds from stage to stage -/

def addedOutbounds (bo ao : OrdMap String Value) : OrdMap String Value :=
  ao.filter fun e => !bo.contains e.1

def removedOutbounds (bo ao : OrdMap String Value) : OrdMap String Value :=
  bo.filter fun e => !ao.contains e.1

theorem addedOutbounds_eq_some :
    (addedOutbounds bo ao).get? tag = some o ↔ ao.get? tag = some o ∧ bo.get? tag = none := by
  unfold addedOutbounds
  rw [OrdMap.get?_filter, Option.filter_eq_some_iff]
  simp [OrdMap.contains]

theorem mem_removedOutbounds :
    tag ∈ (removedOutbounds bo ao).keys ↔ bo.get? tag ≠ none ∧ ao.get? tag = none := by
  rw [OrdMap.mem_keys, OrdMap.contains_iff]
  unfold removedOutbounds
  constructor
  · rintro ⟨o, ho⟩
    rw [OrdMap.get?_filter, Option.filter_eq_some_iff] at ho
    exact ⟨by simp [ho.1], by simpa [OrdMap.contains] using ho.2⟩
  · rintro ⟨hb, ha⟩
    obtain ⟨o, ho⟩ := Option.ne_none_iff_exists'.mp hb
    exact ⟨o, by simp [OrdMap.get?_filter, ho, Option.filter_some, OrdMap.contains, ha]⟩

/-- The outbounds before, and those that are added. -/
def extended (bo ao : OrdMap String Value) (tag : String) : Option Value :=
  ((addedOutbounds bo ao).get? tag).or (bo.get? tag)

/-- The same, with the changed outbounds in their new form. -/
def union (bo ao : OrdMap String Value) (tag : String) : Option Value :=
  ((changedOutbounds bo ao).get? tag).or (extended bo ao tag)

theorem extended_of_before (h : bo.get? tag = some o) : extended bo ao tag = some o := by
  have hnone : (addedOutbounds bo ao).get? tag = none := by
    refine Option.eq_none_iff_forall_ne_some.mpr fun a ha => ?_
    rw [addedOutbounds_eq_some, h] at ha
    cases ha.2
  rw [extended, hnone, h]
  rfl

theorem union_of_after (h : ao.get? tag = some o) : union bo ao tag = some o := by
  unfold union
  cases hc : (changedOutbounds bo ao).get? tag with
  | some c =>
    rw [changedOutbounds_eq_some, h] at hc
    exact hc.1.symm
  | none =>
    cases hb : bo.get? tag with
    | none => simp [extended, addedOutbounds_eq_some.mpr ⟨h, hb⟩]
    | some b =>
      have hsame : b = o := by
        by_contra hne
        have hchanged := changedOutbounds_eq_some.mpr ⟨h, b, hb, hne⟩
        rw [hc] at hchanged
        cases hchanged
      rw [extended_of_before hb, hsame]
      rfl

theorem union_of_not_after (h : ao.get? tag = none) : union bo ao tag = bo.get? tag := by
  have hc : (changedOutbounds bo ao).get? tag = none := by
    refine Option.eq_none_iff_forall_ne_some.mpr fun c hc => ?_
    rw [changedOutbounds_eq_some, h] at hc
    cases hc.1
  have hadd : (addedOutbounds bo ao).get? tag = none := by
    refine Option.eq_none_iff_forall_ne_some.mpr fun a ha => ?_
    rw [addedOutbounds_eq_some, h] at ha
    cases ha.1
  simp [union, extended, hc, hadd]

theorem extended_of_after (h : ao.get? tag = some o)
    (hc : (changedOutbounds bo ao).get? tag = none) :
    extended bo ao tag = some o := by
  have hunion : union bo ao tag = some o := union_of_after h
  rwa [union, hc] at hunion

theorem union_minus_removed (bo ao : OrdMap String Value) (tag : String) :
    (if tag ∈ (removedOutbounds bo ao).keys then none else union bo ao tag) = ao.get? tag := by
  simp only [mem_removedOutbounds]
  cases ha : ao.get? tag with
  | some o => simp [union_of_after ha]
  | none =>
    rw [union_of_not_after ha]
    cases hb : bo.get? tag <;> simp

theorem head?_filter {α : Type} {xs : List α} {p : α → Bool} {a : α} (h : xs.head? = some a)
    (hp : p a = true) : (xs.filter p).head? = some a := by
  cases xs with
  | nil => cases h
  | cons x xs =>
    cases h
    rw [List.filter_cons_of_pos hp, List.head?_cons]

theorem head?_append {α : Type} {xs : List α} {a : α} (h : xs.head? = some a) (ys : List α) :
    (xs ++ ys).head? = some a := by
  simp [h]

/-- Two kernels a swap can lead between, with their outbounds by tag. -/
structure Setting (previous desired : Kernel) (bo ao : OrdMap String Value) : Prop where
  before : Holds tag? previous.outbounds bo.get?
  after : Holds tag? desired.outbounds ao.get?
  noEmpty : ao.get? "" = none
  first : ∃ tag o, previous.outbounds.head? = some o ∧ desired.outbounds.head? = some o ∧
    tag? o = some tag ∧ (changedOutbounds bo ao).get? tag = none ∧ ao.get? tag = some o
  definedBefore : NamesOnly previous.installed previous.rules
  definedAfter : NamesOnly desired.installed desired.rules
  rest : ∀ key, key ≠ "rules" → previous.routing.get? key = desired.routing.get? key

namespace Setting

variable {previous desired : Kernel} {bo ao : OrdMap String Value}

section

variable (s : Setting previous desired bo ao)

include s

theorem installedBefore (tag : String) : previous.installed tag = bo.get? tag := s.before.find? tag

theorem installedAfter (tag : String) : desired.installed tag = ao.get? tag := s.after.find? tag

theorem heads : previous.outbounds.head? = desired.outbounds.head? := by
  obtain ⟨_, _, hb, ha, -⟩ := s.first
  rw [hb, ha]

theorem keyedAfter : Keyed ao := Holds.toKeyed s.after

theorem keyedAdded : Keyed (addedOutbounds bo ao) :=
  s.keyedAfter.filter _

theorem along_additions : ∃ k, Along Kernel.execute? (Safe previous desired)
        (if (addedOutbounds bo ao).values.isEmpty then []
          else [.addOutbounds (addedOutbounds bo ao).values]) previous k ∧
      Holds tag? k.outbounds (extended bo ao) ∧
      k.routing = previous.routing ∧ k.outbounds.head? = previous.outbounds.head? := by
  obtain ⟨hadd, hholds⟩ := s.before.addAll s.keyedAdded.holds
    fun tag o ho => (addedOutbounds_eq_some.mp ho).2
  obtain ⟨_, first, hfirst, -⟩ := s.first
  have hhead := head?_append hfirst (addedOutbounds bo ao).values
  refine ⟨{ previous with outbounds := previous.outbounds ++ (addedOutbounds bo ao).values },
    ?_, hholds, rfl, hhead.trans hfirst.symm⟩
  by_cases hempty : (addedOutbounds bo ao).values.isEmpty = true
  · rw [if_pos hempty, List.isEmpty_iff.mp hempty, List.append_nil]
    exact Along.nil previous
  · rw [if_neg hempty]
    refine Along.single (by simp [Kernel.execute?, hadd]) ?_
    refine safe_of_previous rfl (hhead.trans hfirst.symm) s.definedBefore ?_
    intro tag o ho
    rw [s.installedBefore] at ho
    exact (hholds.find? tag).trans (extended_of_before ho)

theorem along_removals {k : Kernel} (hholds : Holds tag? k.outbounds (union bo ao))
    (hrouting : k.routing = desired.routing) (hhead : k.outbounds.head? = previous.outbounds.head?) :
    
    ∃ k', Along Kernel.execute? (Safe previous desired)
        (if (removedOutbounds bo ao).keys.isEmpty then []
          else [.removeOutbounds (removedOutbounds bo ao).keys]) k k' ∧
      Holds tag? k'.outbounds ao.get? ∧ k'.routing = desired.routing := by
  have hthere : ∀ tag ∈ (removedOutbounds bo ao).keys, union bo ao tag ≠ none := by
    intro tag htag
    rw [mem_removedOutbounds] at htag
    rw [union_of_not_after htag.2]
    exact htag.1
  obtain ⟨hremove, hholds'⟩ := hholds.removeAll (removedOutbounds bo ao).nodup_keys hthere
  simp only [union_minus_removed] at hholds'
  obtain ⟨tag, first, hfirst, -, htag, -, hafter⟩ := s.first
  have hkept : tag ∉ (removedOutbounds bo ao).keys := by
    rw [mem_removedOutbounds, hafter]
    simp
  have hhead' := head?_filter
    (p := fun a => !decide (tag? a ∈ (removedOutbounds bo ao).keys.map some))
    (hhead.trans hfirst) (by simpa [htag] using hkept)
  refine ⟨{ k with outbounds := _ }, ?_, hholds', hrouting⟩
  by_cases hempty : (removedOutbounds bo ao).keys.isEmpty = true
  · rw [if_pos hempty]
    show k = _
    simp [List.isEmpty_iff.mp hempty]
  · rw [if_neg hempty]
    refine Along.single (by simp [Kernel.execute?, hremove]) ?_
    refine safe_of_desired hrouting (hhead'.trans hfirst.symm) s.heads s.definedAfter ?_ s.rest
    intro tag o ho
    rw [s.installedAfter] at ho
    exact (hholds'.find? tag).trans ho

end

end Setting

/-! ### Through the bridge -/

/-- `aliases` stands in for the changed outbounds, under tags of its own. -/
structure Aliases (bo ao : OrdMap String Value) (aliases : String → Option Value) : Prop where
  named : ∀ tag a, aliases tag = some a →
    ∃ tag' o, tag = tag' ++ ENDPOINT_SWAP_SUFFIX ∧ (changedOutbounds bo ao).get? tag' = some o
  standsIn : ∀ tag o, (changedOutbounds bo ao).get? tag = some o →
    ∃ a, aliases (tag ++ ENDPOINT_SWAP_SUFFIX) = some a ∧ IsAlias a o
  freshBefore : ∀ tag, bo.get? (tag ++ ENDPOINT_SWAP_SUFFIX) = none
  freshAfter : ∀ tag, ao.get? (tag ++ ENDPOINT_SWAP_SUFFIX) = none

theorem tag?_alias {a : Value} (h : IsAlias a o) (htag : tag? o = some tag) :
    tag? a = some (tag ++ ENDPOINT_SWAP_SUFFIX) := by
  obtain ⟨tag', hfield, hset⟩ := h
  rw [tag?_eq_some] at htag ⊢
  rw [Value.field_set? hset, if_pos rfl]
  rw [hfield] at htag
  cases htag
  rfl

theorem tags_of_aliases {os as : List Value} {tags : List String}
    (h : List.Forall₂ (fun o a => IsAlias a o) os as) (htags : os.map tag? = tags.map some) :
    as.map tag? = tags.map fun tag => some (tag ++ ENDPOINT_SWAP_SUFFIX) := by
  induction h generalizing tags with
  | nil =>
    rw [List.map_nil, eq_comm, List.map_eq_nil_iff] at htags
    simp [htags]
  | @cons o a os as hoa _ ih =>
    cases tags with
    | nil => cases htags
    | cons tag tags =>
      rw [List.map_cons, List.map_cons, List.cons.injEq] at htags
      rw [List.map_cons, List.map_cons, ih htags.2, tag?_alias hoa htags.1]

theorem append_suffix_inj {s t : String}
    (h : s ++ ENDPOINT_SWAP_SUFFIX = t ++ ENDPOINT_SWAP_SUFFIX) : s = t := by
  have hlist := congrArg String.toList h
  rw [String.toList_append, String.toList_append] at hlist
  exact String.toList_inj.mp (List.append_cancel_right hlist)

namespace Setting

variable {previous desired : Kernel} {bo ao : OrdMap String Value}

theorem keyedChanged (s : Setting previous desired bo ao) : Keyed (changedOutbounds bo ao) :=
  s.keyedAfter.filter _

theorem aliases (s : Setting previous desired bo ao) {rules : List Value} {plan : EndpointSwap}
    (h : BridgePlan (changedOutbounds bo ao) previous.outbounds desired.outbounds rules plan) :
    Holds tag? plan.bridgeOutbounds (fun tag => Registry.find? tag? tag plan.bridgeOutbounds) ∧
      Aliases bo ao fun tag => Registry.find? tag? tag plan.bridgeOutbounds := by
  have htags := tags_of_aliases h.aliases s.keyedChanged.tags
  have hnodup : (plan.bridgeOutbounds.map tag?).Nodup := by
    rw [htags]
    refine (changedOutbounds bo ao).nodup_keys.map ?_
    intro tag tag' heq
    exact append_suffix_inj (Option.some.inj heq)
  have hpair : ∀ a ∈ plan.bridgeOutbounds, ∃ tag o,
      tag? a = some (tag ++ ENDPOINT_SWAP_SUFFIX) ∧ (changedOutbounds bo ao).get? tag = some o := by
    intro a ha
    obtain ⟨o, ho, halias⟩ := exists_of_mem_right h.aliases ha
    obtain ⟨tag, htag⟩ := mem_values.mp ho
    exact ⟨tag, o, tag?_alias halias (s.keyedChanged tag o htag), htag⟩
  have hholds : Holds tag? plan.bridgeOutbounds _ := Holds.of_nodup
    (fun a ha => (hpair a ha).imp' (· ++ ENDPOINT_SWAP_SUFFIX) fun _ ⟨_, htag, _⟩ => htag) hnodup
  refine ⟨hholds, ?_, ?_, ?_, ?_⟩
  · intro tag a ha
    obtain ⟨hmem, htag⟩ := (hholds.mem tag a).mpr ha
    obtain ⟨tag', o, htag', ho⟩ := hpair a hmem
    exact ⟨tag', o, Option.some.inj (htag.symm.trans htag'), ho⟩
  · intro tag o ho
    have hflip : List.Forall₂ (flip fun o a => IsAlias a o) plan.bridgeOutbounds
        (changedOutbounds bo ao).values := h.aliases.flip
    obtain ⟨a, ha, halias⟩ := exists_of_mem_right hflip (mem_values.mpr ⟨tag, ho⟩)
    exact ⟨a, (hholds.mem _ a).mp ⟨ha, tag?_alias halias (s.keyedChanged tag o ho)⟩, halias⟩
  · intro tag
    refine Option.eq_none_iff_forall_ne_some.mpr fun o ho => ?_
    obtain ⟨hmem, htag⟩ := (s.before.mem _ o).mpr ho
    exact h.noAliasBefore o hmem tag htag
  · intro tag
    refine Option.eq_none_iff_forall_ne_some.mpr fun o ho => ?_
    obtain ⟨hmem, htag⟩ := (s.after.mem _ o).mpr ho
    exact h.noAliasAfter o hmem tag htag

end Setting

namespace Aliases

variable {bo ao : OrdMap String Value} {aliases : String → Option Value}

theorem not_alias (h : Aliases bo ao aliases) {tag : String}
    (hthere : bo.get? tag ≠ none ∨ ao.get? tag ≠ none) : aliases tag = none := by
  refine Option.eq_none_iff_forall_ne_some.mpr fun a ha => ?_
  obtain ⟨tag', _, rfl, -⟩ := h.named tag a ha
  rcases hthere with hb | ha
  · exact hb (h.freshBefore tag')
  · exact ha (h.freshAfter tag')

theorem extended_alias (h : Aliases bo ao aliases) (tag : String) :
    extended bo ao (tag ++ ENDPOINT_SWAP_SUFFIX) = none := by
  have hadd : (addedOutbounds bo ao).get? (tag ++ ENDPOINT_SWAP_SUFFIX) = none := by
    refine Option.eq_none_iff_forall_ne_some.mpr fun o ho => ?_
    rw [addedOutbounds_eq_some, h.freshAfter] at ho
    cases ho.1
  rw [extended, hadd, h.freshBefore]
  rfl

theorem changed_alias (h : Aliases bo ao aliases) (tag : String) :
    (changedOutbounds bo ao).get? (tag ++ ENDPOINT_SWAP_SUFFIX) = none := by
  refine Option.eq_none_iff_forall_ne_some.mpr fun o ho => ?_
  rw [changedOutbounds_eq_some, h.freshAfter] at ho
  cases ho.1

end Aliases

/-- A setting together with the aliases and the bridge table of a plan. -/
structure Bridging (previous desired : Kernel) (bo ao : OrdMap String Value)
    (aliases : String → Option Value) (bridge : Value) : Prop where
  setting : Setting previous desired bo ao
  aliases : Aliases bo ao aliases
  rules : List.Forall₂ (Bridges (changedOutbounds bo ao)) desired.rules
    ((bridge.field "rules").asArr?.getD [])
  rest : ∀ key, key ≠ "rules" → bridge.get? key = desired.routing.get? key

/-- While the bridge table is in force, the outbounds have to hold every unchanged
desired outbound and every alias. -/
theorem Bridging.safe {aliases : String → Option Value} {bridge : Value}
    (h : Bridging previous desired bo ao aliases bridge) {xs : List Value}
    {f : String → Option Value} (hholds : Holds tag? xs f)
    (hhead : xs.head? = previous.outbounds.head?)
    (hext : ∀ tag o, ao.get? tag = some o → (changedOutbounds bo ao).get? tag = none →
      f tag = some o)
    (halias : ∀ tag, f (tag ++ ENDPOINT_SWAP_SUFFIX) = aliases (tag ++ ENDPOINT_SWAP_SUFFIX)) :
    Safe previous desired ⟨xs, bridge⟩ := by
  have s := h.setting
  have hempty : (changedOutbounds bo ao).get? "" = none := by
    refine Option.eq_none_iff_forall_ne_some.mpr fun o ho => ?_
    rw [changedOutbounds_eq_some, s.noEmpty] at ho
    cases ho.1
  refine safe_of_bridge hempty ?_ h.rules hhead s.heads s.definedAfter ?_ ?_ ?_
  · intro tag o ho
    have hkey := s.keyedChanged tag o ho
    rw [changedOutbounds_eq_some] at ho
    rw [s.installedAfter, s.installedBefore]
    exact ⟨hkey, ho⟩
  · intro tag o ho hc
    rw [s.installedAfter] at ho
    exact (hholds.find? tag).trans (hext tag o ho hc)
  · intro tag o ho
    obtain ⟨a, hfound, hisAlias⟩ := h.aliases.standsIn tag o ho
    exact ⟨a, (hholds.find? _).trans ((halias tag).trans hfound), hisAlias⟩
  · intro key hkey
    exact (h.rest key hkey).trans (s.rest key hkey).symm

end Brocade.Hotswap
