/-
The operations of a swap, run from start to end.

The six operations during which changed tags are out of the kernel go two by two: the
aliases come in and the bridge table takes over, the changed tags are replaced, the
desired table takes over and the aliases leave.  The rest reads the plan off the
decision and checks that the two configurations are what the stage lemmas ask for.
-/
import Brocade.Hotswap.GapFree

namespace Brocade.Hotswap

open Json Outcome Steps Registry

/-! ### Through the bridge, two operations at a time -/

/-- The aliases are in. -/
def withAliases (aliases : String → Option Value) (bo ao : OrdMap String Value) (tag : String) :
    Option Value :=
  (aliases tag).or (extended bo ao tag)

/-- The changed ones are out. -/
def changedAway (aliases : String → Option Value) (bo ao : OrdMap String Value) (tag : String) :
    Option Value :=
  if tag ∈ (changedOutbounds bo ao).keys then none else withAliases aliases bo ao tag

def changedBack (aliases : String → Option Value) (bo ao : OrdMap String Value) (tag : String) :
    Option Value :=
  ((changedOutbounds bo ao).get? tag).or (changedAway aliases bo ao tag)

theorem mem_changed_keys {bo ao : OrdMap String Value} {tag : String} :
    tag ∈ (changedOutbounds bo ao).keys ↔ (changedOutbounds bo ao).get? tag ≠ none := by
  rw [OrdMap.mem_keys, OrdMap.contains_iff, Option.ne_none_iff_exists']

namespace Aliases

variable {bo ao : OrdMap String Value} {aliases : String → Option Value}

theorem withAliases_alias (h : Aliases bo ao aliases) (tag : String) :
    withAliases aliases bo ao (tag ++ ENDPOINT_SWAP_SUFFIX)
      = aliases (tag ++ ENDPOINT_SWAP_SUFFIX) := by
  rw [withAliases, h.extended_alias, Option.or_none]

theorem changedAway_alias (h : Aliases bo ao aliases) (tag : String) :
    changedAway aliases bo ao (tag ++ ENDPOINT_SWAP_SUFFIX)
      = aliases (tag ++ ENDPOINT_SWAP_SUFFIX) := by
  rw [changedAway, if_neg (by simp [mem_changed_keys, h.changed_alias]), h.withAliases_alias]

theorem changedBack_alias (h : Aliases bo ao aliases) (tag : String) :
    changedBack aliases bo ao (tag ++ ENDPOINT_SWAP_SUFFIX)
      = aliases (tag ++ ENDPOINT_SWAP_SUFFIX) := by
  rw [changedBack, h.changed_alias, Option.none_or, h.changedAway_alias]

theorem withAliases_of_not_alias {tag : String} (h : aliases tag = none) :
    withAliases aliases bo ao tag = extended bo ao tag := by
  rw [withAliases, h, Option.none_or]

theorem withAliases_of_after (h : Aliases bo ao aliases) {tag : String} {o : Value}
    (ho : ao.get? tag = some o) (hc : (changedOutbounds bo ao).get? tag = none) :
    withAliases aliases bo ao tag = some o := by
  have hnot := h.not_alias (Or.inr (ho ▸ Option.some_ne_none o))
  rw [withAliases_of_not_alias hnot, extended_of_after ho hc]

theorem changedAway_of_after (h : Aliases bo ao aliases) {tag : String} {o : Value}
    (ho : ao.get? tag = some o) (hc : (changedOutbounds bo ao).get? tag = none) :
    changedAway aliases bo ao tag = some o := by
  rw [changedAway, if_neg (by simp [mem_changed_keys, hc]), h.withAliases_of_after ho hc]

theorem changedBack_of_not_alias {tag : String} (h : aliases tag = none) :
    changedBack aliases bo ao tag = union bo ao tag := by
  unfold changedBack union
  cases hc : (changedOutbounds bo ao).get? tag with
  | some c => rfl
  | none =>
    rw [Option.none_or, Option.none_or, changedAway, if_neg (by simp [mem_changed_keys, hc]),
      withAliases_of_not_alias h]

end Aliases

namespace Bridging

variable {previous desired k : Kernel} {bo ao : OrdMap String Value}
  {aliases : String → Option Value} {bridge : Value}

section

variable (h : Bridging previous desired bo ao aliases bridge)

include h

theorem along_enter {as : List Value} (halias : Holds tag? as aliases)
    (hholds : Holds tag? k.outbounds (extended bo ao)) (hrouting : k.routing = previous.routing)
    (hhead : k.outbounds.head? = previous.outbounds.head?) :
    ∃ k', Along Kernel.execute? (Safe previous desired) [.addOutbounds as, .reloadRouting bridge]
        k k' ∧
      Holds tag? k'.outbounds (withAliases aliases bo ao) ∧ k'.routing = bridge ∧
      k'.outbounds.head? = previous.outbounds.head? := by
  have hdisj : ∀ tag a, aliases tag = some a → extended bo ao tag = none := by
    intro tag a hfound
    obtain ⟨tag', -, rfl, -⟩ := h.aliases.named tag a hfound
    exact h.aliases.extended_alias tag'
  obtain ⟨hadd, hholds'⟩ := hholds.addAll halias hdisj
  obtain ⟨_, first, hfirst, -⟩ := h.setting.first
  have hhead' : (k.outbounds ++ as).head? = previous.outbounds.head? :=
    (head?_append (hhead.trans hfirst) as).trans hfirst.symm
  have hsafe : Safe previous desired ⟨k.outbounds ++ as, k.routing⟩ := by
    refine safe_of_previous hrouting hhead' h.setting.definedBefore ?_
    intro tag o ho
    rw [h.setting.installedBefore] at ho
    have hnot := h.aliases.not_alias (Or.inl (ho ▸ Option.some_ne_none o))
    have hfound : withAliases aliases bo ao tag = some o := by
      rw [Aliases.withAliases_of_not_alias hnot, extended_of_before ho]
    exact (hholds'.find? tag).trans hfound
  have hsafe' : Safe previous desired ⟨k.outbounds ++ as, bridge⟩ :=
    h.safe hholds' hhead' (fun _ _ => h.aliases.withAliases_of_after) h.aliases.withAliases_alias
  refine ⟨⟨k.outbounds ++ as, bridge⟩, ?_, hholds', rfl, hhead'⟩
  refine Along.cons (m := ⟨k.outbounds ++ as, k.routing⟩) ?_ hsafe (Along.single rfl hsafe')
  simp [Kernel.execute?, hadd]

theorem along_replace (hholds : Holds tag? k.outbounds (withAliases aliases bo ao))
    (hrouting : k.routing = bridge) (hhead : k.outbounds.head? = previous.outbounds.head?) :
    ∃ k', Along Kernel.execute? (Safe previous desired)
        [.removeOutbounds (changedOutbounds bo ao).keys,
          .addOutbounds (changedOutbounds bo ao).values] k k' ∧
      Holds tag? k'.outbounds (changedBack aliases bo ao) ∧ k'.routing = bridge ∧
      k'.outbounds.head? = previous.outbounds.head? := by
  have hthere : ∀ tag ∈ (changedOutbounds bo ao).keys, withAliases aliases bo ao tag ≠ none := by
    intro tag htag
    obtain ⟨c, hc⟩ := Option.ne_none_iff_exists'.mp (mem_changed_keys.mp htag)
    obtain ⟨-, old, hold, -⟩ := changedOutbounds_eq_some.mp hc
    rw [withAliases, extended_of_before hold]
    cases aliases tag <;> simp
  obtain ⟨hremove, haway⟩ := hholds.removeAll (changedOutbounds bo ao).nodup_keys hthere
  have hdisj : ∀ tag o, (changedOutbounds bo ao).get? tag = some o →
      changedAway aliases bo ao tag = none := by
    intro tag o ho
    rw [changedAway, if_pos (mem_changed_keys.mpr (ho ▸ Option.some_ne_none o))]
  obtain ⟨hadd, hback⟩ := Holds.addAll (f := changedAway aliases bo ao) haway
    h.setting.keyedChanged.holds hdisj
  obtain ⟨firstTag, first, hfirst, -, hfirstTag, hunchanged, -⟩ := h.setting.first
  have hheadAway := head?_filter
    (p := fun a => !decide (tag? a ∈ (changedOutbounds bo ao).keys.map some))
    (hhead.trans hfirst) (by simpa [hfirstTag, mem_changed_keys] using hunchanged)
  have hheadBack := head?_append hheadAway (changedOutbounds bo ao).values
  have hsafeAway := h.safe (f := changedAway aliases bo ao) haway (hheadAway.trans hfirst.symm)
    (fun _ _ => h.aliases.changedAway_of_after) h.aliases.changedAway_alias
  have hsafeBack := h.safe (f := changedBack aliases bo ao) hback (hheadBack.trans hfirst.symm)
    (fun tag o ho hc => by
      rw [changedBack, hc, Option.none_or]
      exact h.aliases.changedAway_of_after ho hc) h.aliases.changedBack_alias
  refine ⟨⟨_, bridge⟩, ?_, hback, rfl, hheadBack.trans hfirst.symm⟩
  refine Along.cons ?_ hsafeAway (Along.single ?_ hsafeBack)
  · simp [Kernel.execute?, hremove, hrouting]
  · simp only [Kernel.execute?, hadd, Option.map_some]

theorem along_leave {aliasTags : List String} (hnodup : aliasTags.Nodup)
    (hmem : ∀ tag, tag ∈ aliasTags ↔ aliases tag ≠ none)
    (hholds : Holds tag? k.outbounds (changedBack aliases bo ao))
    (hhead : k.outbounds.head? = previous.outbounds.head?) :
    ∃ k', Along Kernel.execute? (Safe previous desired)
        [.reloadRouting desired.routing, .removeOutbounds aliasTags] k k' ∧
      Holds tag? k'.outbounds (union bo ao) ∧ k'.routing = desired.routing ∧
      k'.outbounds.head? = previous.outbounds.head? := by
  have hthere : ∀ tag ∈ aliasTags, changedBack aliases bo ao tag ≠ none := by
    intro tag htag
    have hfound := (hmem tag).mp htag
    obtain ⟨a, ha⟩ := Option.ne_none_iff_exists'.mp hfound
    obtain ⟨tag', -, rfl, -⟩ := h.aliases.named tag a ha
    rwa [h.aliases.changedBack_alias]
  obtain ⟨hremove, hout⟩ := hholds.removeAll hnodup hthere
  have hunion : (fun tag => if tag ∈ aliasTags then none else changedBack aliases bo ao tag)
      = union bo ao := by
    funext tag
    by_cases htag : tag ∈ aliasTags
    · obtain ⟨a, ha⟩ := Option.ne_none_iff_exists'.mp ((hmem tag).mp htag)
      obtain ⟨tag', -, rfl, -⟩ := h.aliases.named tag a ha
      rw [if_pos htag, union, h.aliases.changed_alias, h.aliases.extended_alias]
      rfl
    · rw [if_neg htag]
      exact Aliases.changedBack_of_not_alias (not_not.mp (mt (hmem tag).mpr htag))
  rw [hunion] at hout
  obtain ⟨firstTag, first, hfirst, -, hfirstTag, -, hafter⟩ := h.setting.first
  have hkept : firstTag ∉ aliasTags := by
    rw [hmem, h.aliases.not_alias (Or.inr (hafter ▸ Option.some_ne_none first))]
    simp
  have hheadOut := head?_filter (p := fun a => !decide (tag? a ∈ aliasTags.map some))
    (hhead.trans hfirst) (by simpa [hfirstTag] using hkept)
  have hsafe : Safe previous desired ⟨k.outbounds, desired.routing⟩ := by
    refine safe_of_desired rfl hhead h.setting.heads h.setting.definedAfter ?_ h.setting.rest
    intro tag o ho
    rw [h.setting.installedAfter] at ho
    have hnot := h.aliases.not_alias (Or.inr (ho ▸ Option.some_ne_none o))
    refine (hholds.find? tag).trans ?_
    rw [Aliases.changedBack_of_not_alias hnot, union_of_after ho]
  have hsafeOut : Safe previous desired
      ⟨k.outbounds.filter fun a => !decide (tag? a ∈ aliasTags.map some), desired.routing⟩ := by
    refine safe_of_desired rfl (hheadOut.trans hfirst.symm) h.setting.heads
      h.setting.definedAfter ?_ h.setting.rest
    intro tag o ho
    rw [h.setting.installedAfter] at ho
    exact (hout.find? tag).trans (union_of_after ho)
  refine ⟨⟨_, desired.routing⟩, ?_, hout, rfl, hheadOut.trans hfirst.symm⟩
  refine Along.cons (m := ⟨k.outbounds, desired.routing⟩) rfl hsafe (Along.single ?_ hsafeOut)
  simp [Kernel.execute?, hremove]

end

end Bridging

/-! ### The whole swap -/

theorem tagsOf_eq_some {entries : List Value} {tags : List String} :
    tagsOf entries "tag" = some tags ↔ entries.map tag? = tags.map some := by
  have htag : tagsOf entries "tag" = entries.mapM tag? := by
    unfold tagsOf
    congr 1
    funext o
    exact (tag?_eq_field o).symm
  rw [htag]
  clear htag
  induction entries generalizing tags with
  | nil => cases tags <;> simp
  | cons o entries ih =>
    simp only [List.mapM_cons, Option.bind_eq_bind, Option.bind_eq_some_iff, Option.pure_def,
      Option.some.injEq, List.map_cons]
    constructor
    · rintro ⟨tag, htag, rest, hrest, rfl⟩
      rw [List.map_cons, htag, ih.mp hrest]
    · intro h
      cases tags with
      | nil => cases h
      | cons tag rest =>
        rw [List.map_cons, List.cons.injEq] at h
        exact ⟨tag, h.1, rest, ih.mpr h.2, rfl⟩

/-- The configurations of a plan are a setting, provided their rules name installed outbounds. -/
theorem Planned.setting {previous desired : Document} {swap : HotSwap}
    (p : Planned previous.root desired.root swap)
    (hprevious : NamesOnly (Kernel.ofConfig previous.root).installed
      (Kernel.ofConfig previous.root).rules)
    (hdesired : NamesOnly (Kernel.ofConfig desired.root).installed
      (Kernel.ofConfig desired.root).rules) :
    Setting (Kernel.ofConfig previous.root) (Kernel.ofConfig desired.root)
      p.beforeOutbounds p.afterOutbounds := by
  obtain ⟨bs, hbs, hbefore, -⟩ := byTag_spec p.byTagBefore
  obtain ⟨as, has, hafter, hempty⟩ := byTag_spec p.byTagAfter
  have hpre : (Kernel.ofConfig previous.root).outbounds = bs := by
    simp [Kernel.ofConfig, p.previous_eq, Value.field, hbs, Value.asArr?]
  have hdes : (Kernel.ofConfig desired.root).outbounds = as := by
    simp [Kernel.ofConfig, p.desired_eq, Value.field, has, Value.asArr?]
  obtain ⟨b, hb, hbTag⟩ := head_spec hbs p.headBefore
  obtain ⟨a, ha, haTag⟩ := head_spec has p.headAfter
  have hbGet := (hbefore.mem p.first b).mp ⟨List.mem_of_mem_head? hb, hbTag⟩
  have haGet := (hafter.mem p.first a).mp ⟨List.mem_of_mem_head? ha, haTag⟩
  have hsame : b = a := by
    by_contra hne
    have hchanged := changedOutbounds_eq_some.mpr ⟨haGet, b, hbGet, hne⟩
    rw [p.firstUnchanged] at hchanged
    cases hchanged
  subst hsame
  refine {
    before := hpre ▸ hbefore
    after := hdes ▸ hafter
    noEmpty := hempty
    first := ⟨p.first, b, hpre ▸ hb, hdes ▸ ha, hbTag, p.firstUnchanged, haGet⟩
    definedBefore := hprevious
    definedAfter := hdesired
    rest := ?_ }
  intro key hkey
  obtain ⟨rb, hrb, -⟩ := rules_spec p.rulesBefore
  obtain ⟨ra, hra, -⟩ := rules_spec p.rulesAfter
  have hrest := p.routingRest
  simp only [untouched, hrb, hra, Value.asObj?, if_neg (show ¬ "routing" = "outbounds" by decide),
    if_true, Option.bind_eq_bind, Option.bind_some, Option.pure_def, Option.some.injEq,
    Value.obj.injEq] at hrest
  have hlookup := congrArg (Assoc.lookup key) hrest
  rw [Assoc.lookup_erase, Assoc.lookup_erase, if_neg hkey, if_neg hkey] at hlookup
  simpa [Kernel.ofConfig, p.previous_eq, p.desired_eq, Value.field, hrb, hra] using hlookup

theorem Planned.routingAfter {previous desired : Value} {swap : HotSwap}
    (p : Planned previous desired swap) :
    Assoc.lookup "routing" p.after = some (Kernel.ofConfig desired).routing ∧
      (Kernel.ofConfig desired).rules = p.afterRules ∧
      ∃ fields, (Kernel.ofConfig desired).routing = .obj fields := by
  obtain ⟨ra, hra, hrules⟩ := rules_spec p.rulesAfter
  have hrouting : (Kernel.ofConfig desired).routing = .obj ra := by
    simp [Kernel.ofConfig, p.desired_eq, Value.field, hra]
  refine ⟨hrouting ▸ hra, ?_, ra, hrouting⟩
  simp [Kernel.rules, hrouting, Value.field, hrules, Value.asArr?]

theorem Planned.routing_eq {previous desired : Document} {swap : HotSwap}
    (p : Planned previous.root desired.root swap) (hrules : p.beforeRules = p.afterRules) :
    (Kernel.ofConfig previous.root).routing = (Kernel.ofConfig desired.root).routing := by
  obtain ⟨rb, hrb, hbr⟩ := rules_spec p.rulesBefore
  obtain ⟨ra, hra, har⟩ := rules_spec p.rulesAfter
  have hsortedBefore : Assoc.Sorted rb := by
    have hget : previous.root.get? "routing" = some (.obj rb) := p.previous_eq ▸ hrb
    exact (previous.canonical.get? hget).sorted
  have hsortedAfter : Assoc.Sorted ra := by
    have hget : desired.root.get? "routing" = some (.obj ra) := p.desired_eq ▸ hra
    exact (desired.canonical.get? hget).sorted
  have hrest := p.routingRest
  simp only [untouched, hrb, hra, Value.asObj?, if_neg (show ¬ "routing" = "outbounds" by decide),
    if_true, Option.bind_eq_bind, Option.bind_some, Option.pure_def, Option.some.injEq,
    Value.obj.injEq] at hrest
  have hsame : rb = ra := Assoc.ext_of_erase hsortedBefore hsortedAfter hrest (by
    rw [hbr, har, hrules])
  simp [Kernel.ofConfig, p.previous_eq, p.desired_eq, Value.field, hrb, hra, hsame]

/-- **A hot swap is gap-free and ends at the desired configuration.**

Of two configurations whose rules name only their own outbounds, every operation of the
swap between them is accepted by the kernel, leaves it in a state that carries traffic,
and the last one leaves it with the desired outbounds and the desired routing. -/
theorem hotSwap_gap_free (previous desired : Document) (swap : HotSwap)
    (hprevious : NamesOnly (Kernel.ofConfig previous.root).installed
      (Kernel.ofConfig previous.root).rules)
    (hdesired : NamesOnly (Kernel.ofConfig desired.root).installed
      (Kernel.ofConfig desired.root).rules)
    (hswap : hotSwap previous.root desired.root = .done swap) :
    ∃ operations final, swap.operations = .done operations ∧ Along Kernel.execute?
        (Safe (Kernel.ofConfig previous.root) (Kernel.ofConfig desired.root))
        operations (Kernel.ofConfig previous.root) final ∧
      final.outbounds.Perm (Kernel.ofConfig desired.root).outbounds ∧
      final.routing = (Kernel.ofConfig desired.root).routing := by
  obtain ⟨p⟩ := hotSwap_done hswap
  have s := p.setting hprevious hdesired
  obtain ⟨hlookup, hafterRules, fields, hfields⟩ := p.routingAfter
  obtain ⟨k₁, hadditions, hholds₁, hrouting₁, hhead₁⟩ := s.along_additions
  rcases p.bridge with ⟨hnone, hplain⟩ | ⟨plan, hplan, hdone⟩
  · -- no tag changes its outbound: one routing table at most
    have hunion : extended p.beforeOutbounds p.afterOutbounds
        = union p.beforeOutbounds p.afterOutbounds := by
      funext tag
      rw [union, hnone, Option.none_or]
    have hmiddle : ∃ k₂, Along Kernel.execute?
        (Safe (Kernel.ofConfig previous.root) (Kernel.ofConfig desired.root))
        (swap.reloadRouting.elim [] fun routing => [.reloadRouting routing]) k₁ k₂ ∧
        k₂.outbounds = k₁.outbounds ∧ k₂.routing = (Kernel.ofConfig desired.root).routing := by
      rcases p.reload with ⟨hrules, -, hkeep⟩ | ⟨hreload, -⟩
      · rw [hkeep]
        exact ⟨k₁, Along.nil k₁, rfl, hrouting₁.trans (p.routing_eq hrules)⟩
      · rw [hreload, hlookup]
        refine ⟨{ k₁ with routing := _ }, Along.single rfl ?_, rfl, rfl⟩
        refine safe_of_desired rfl hhead₁ s.heads s.definedAfter ?_ s.rest
        intro tag o ho
        rw [s.installedAfter] at ho
        exact (hholds₁.find? tag).trans (hunion ▸ union_of_after ho)
    obtain ⟨k₂, hreloads, houtbounds₂, hrouting₂⟩ := hmiddle
    obtain ⟨final, hremovals, hfinal, hroutingFinal⟩ := s.along_removals (k := k₂)
      (houtbounds₂ ▸ hunion ▸ hholds₁) hrouting₂ (houtbounds₂ ▸ hhead₁)
    refine ⟨_, final, ?_, (hadditions.append hreloads).append hremovals,
      hfinal.perm s.after, hroutingFinal⟩
    simp only [HotSwap.operations, hplain, p.add, p.remove]
    cases swap.reloadRouting <;> rfl
  · -- changed tags are replaced behind the bridge
    obtain ⟨bs, hbs, hbefore, -⟩ := byTag_spec p.byTagBefore
    obtain ⟨as, has, hafter, -⟩ := byTag_spec p.byTagAfter
    have hpre : (Kernel.ofConfig previous.root).outbounds = bs := by
      simp [Kernel.ofConfig, p.previous_eq, Value.field, hbs, Value.asArr?]
    have hdes : (Kernel.ofConfig desired.root).outbounds = as := by
      simp [Kernel.ofConfig, p.desired_eq, Value.field, has, Value.asArr?]
    have hspec := endpointSwapPlan_done hbs has hdone
    rw [← hpre, ← hdes, ← hafterRules] at hspec
    obtain ⟨halias, haliases⟩ := s.aliases hspec
    have hreload : swap.reloadRouting = some (Kernel.ofConfig desired.root).routing := by
      rcases p.reload with ⟨-, hno, -⟩ | ⟨hreload, -⟩
      · rw [hplan] at hno
        cases hno
      · exact hreload.trans hlookup
    obtain ⟨bridge, hbridge⟩ : ∃ bridge, (Kernel.ofConfig desired.root).routing.set? "rules"
        (.arr plan.bridgeRules) = some bridge := by
      rw [hfields]
      exact ⟨_, Value.set?_obj fields "rules" _⟩
    have hbridging : Bridging (Kernel.ofConfig previous.root) (Kernel.ofConfig desired.root)
        p.beforeOutbounds p.afterOutbounds
        (fun tag => Registry.find? tag? tag plan.bridgeOutbounds) bridge := by
      refine ⟨s, haliases, ?_, ?_⟩
      · rw [Value.field_set? hbridge, if_pos rfl]
        exact hspec.rules
      · intro key hkey
        rw [Value.get?_set? hbridge, if_neg hkey]
    have htags := tags_of_aliases hspec.aliases s.keyedChanged.tags
    have hmemTags : ∀ tag, tag ∈ (changedOutbounds p.beforeOutbounds p.afterOutbounds).keys.map
        (· ++ ENDPOINT_SWAP_SUFFIX) ↔ Registry.find? tag? tag plan.bridgeOutbounds ≠ none := by
      intro tag
      rw [Option.ne_none_iff_isSome, find?_isSome]
      have hmap : plan.bridgeOutbounds.map tag?
          = ((changedOutbounds p.beforeOutbounds p.afterOutbounds).keys.map
            (· ++ ENDPOINT_SWAP_SUFFIX)).map some := by
        rw [htags, List.map_map]
        rfl
      rw [← List.mem_map_of_injective (Option.some_injective String), ← hmap, List.mem_map]
    have hnodupTags : ((changedOutbounds p.beforeOutbounds p.afterOutbounds).keys.map
        (· ++ ENDPOINT_SWAP_SUFFIX)).Nodup :=
      (OrdMap.nodup_keys _).map fun _ _ => append_suffix_inj
    obtain ⟨k₂, henter, hholds₂, hrouting₂, hhead₂⟩ :=
      hbridging.along_enter halias hholds₁ hrouting₁ hhead₁
    obtain ⟨k₃, hreplace, hholds₃, -, hhead₃⟩ := hbridging.along_replace hholds₂ hrouting₂ hhead₂
    obtain ⟨k₄, hleave, hholds₄, hrouting₄, hhead₄⟩ :=
      hbridging.along_leave hnodupTags hmemTags hholds₃ hhead₃
    obtain ⟨final, hremovals, hfinal, hroutingFinal⟩ :=
      s.along_removals hholds₄ hrouting₄ hhead₄
    refine ⟨_, final, ?_,
      (hadditions.append (henter.append (hreplace.append hleave))).append hremovals,
      hfinal.perm s.after, hroutingFinal⟩
    have hreplaced : tagsOf plan.outbounds "tag"
        = some (changedOutbounds p.beforeOutbounds p.afterOutbounds).keys := by
      rw [tagsOf_eq_some, hspec.outbounds]
      exact s.keyedChanged.tags
    have haliasTags : tagsOf plan.bridgeOutbounds "tag"
        = some ((changedOutbounds p.beforeOutbounds p.afterOutbounds).keys.map
          (· ++ ENDPOINT_SWAP_SUFFIX)) := by
      rw [tagsOf_eq_some, htags, List.map_map]
      rfl
    simp only [HotSwap.operations, hplan, bind_eq_done, orPanic_eq_done, pure_eq_done]
    refine ⟨_, hreload, bridge, hbridge, _, hreplaced, _, haliasTags, ?_⟩
    rw [p.add, p.remove, hspec.outbounds]
    rfl

/-! ### One swap that does all three

`hop` keeps its tag and moves to another address, `old` leaves and `new` arrives.
-/

/-- An outbound of the sample. -/
def sampleHop (tag address : String) : Value :=
  .obj [("protocol", .str "vless"),
    ("settings", .obj [("vnext", .arr [.obj [("address", .str address),
      ("port", .num (.posInt 443)), ("users", .arr [.obj [("id", .str "u")]])]])]),
    ("tag", .str tag)]

def sampleRule (inbound outbound : String) : Value :=
  .obj [("inboundTag", .arr [.str inbound]), ("outboundTag", .str outbound)]

/-- A configuration of the sample. -/
def sampleConfig (hops rules : List Value) : Value :=
  .obj [("outbounds", .arr (.obj [("protocol", .str "freedom"), ("tag", .str "direct")] :: hops)),
    ("routing", .obj [("rules", .arr rules)])]

/-- What runs before. -/
def sampleBefore : Document where
  root := sampleConfig [sampleHop "hop" "a.example", sampleHop "old" "c.example"]
    [sampleRule "in-a" "hop", sampleRule "in-b" "old"]
  canonical := by decide

/-- What is to run. -/
def sampleAfter : Document where
  root := sampleConfig [sampleHop "hop" "b.example", sampleHop "new" "d.example"]
    [sampleRule "in-a" "hop", sampleRule "in-b" "new"]
  canonical := by decide

theorem hotSwap_gap_free_sample :
    ∃ swap operations final, hotSwap sampleBefore.root sampleAfter.root = .done swap ∧
      swap.operations = .done operations ∧
      Along Kernel.execute?
        (Safe (Kernel.ofConfig sampleBefore.root) (Kernel.ofConfig sampleAfter.root))
        operations (Kernel.ofConfig sampleBefore.root) final ∧
      final.outbounds.Perm (Kernel.ofConfig sampleAfter.root).outbounds ∧
      final.routing = (Kernel.ofConfig sampleAfter.root).routing := by
  obtain ⟨swap, hswap⟩ : ∃ swap, hotSwap sampleBefore.root sampleAfter.root = .done swap :=
    ⟨_, rfl⟩
  obtain ⟨operations, final, h⟩ :=
    hotSwap_gap_free sampleBefore sampleAfter swap (by decide) (by decide) hswap
  exact ⟨swap, operations, final, hswap, h⟩

end Brocade.Hotswap
