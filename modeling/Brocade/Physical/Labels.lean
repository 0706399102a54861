/-
The labels of accounts.

A user's label is `user@tenant#ingress`.  Names have neither separator, so the three are read back.
A probe's label begins with `probe#`, and where it repeats the label of a relay the `@` in there is
escaped: it has no `@`, is no user's, and the data plane does not budget it.
-/
import Brocade.Budget.Reserve
import Brocade.Physical.Grants

namespace Brocade.Physical

open Model
open Budget (parseGrantLabel)
open Usage (isProbeLabel)

/-- Whose bytes the data plane budgets: `muxCool` for a target that is multiplexed, then the tag of
the inbound and the label of the account. -/
def budgetSource (muxCool : Bool) : Option (String × Option String) → String
  | none => ""
  | some (tag, email) =>
    if muxCool then ""
    else if tag = "api" then ""
    else if Text.startsWith tag "fwd:" then tag
    else match email with
      | some email => if Text.contains email "@" && Text.contains email "#" then email else ""
      | none => ""

/-- Dotted slugs. -/
def isValidTenant (tenant : String) : Bool := (Text.split tenant '.').all isValidSlug

/-! ### Characters -/

section Cuts

variable {c : Char} {as bs cs : List Char}

theorem cutAt_eq_some (h : Text.cutAt [c] as = some (bs, cs)) : as = bs ++ c :: cs := by
  induction as generalizing bs with
  | nil => simp [Text.cutAt] at h
  | cons a as ih =>
    unfold Text.cutAt at h
    by_cases hhere : ([c] : List Char).isPrefixOf (a :: as) = true
    · rw [if_pos hhere] at h
      cases h
      have hca : c = a := by simpa using hhere
      simp [hca]
    · rw [if_neg hhere, Option.map_eq_some_iff] at h
      obtain ⟨parts, hparts, heq⟩ := h
      cases heq
      rw [ih hparts]
      rfl

theorem cutAt_isSome : (Text.cutAt [c] as).isSome = true ↔ c ∈ as := by
  constructor
  · intro h
    obtain ⟨parts, hparts⟩ := Option.isSome_iff_exists.mp h
    rw [cutAt_eq_some hparts]
    simp
  · intro h
    obtain ⟨front, back, rfl, hfront⟩ := List.eq_append_cons_of_mem h
    rw [Text.cutAt_singleton hfront]
    rfl

theorem contains_char {s pat : String} (hpat : pat.toList = [c]) :
    Text.contains s pat = true ↔ c ∈ s.toList := by
  unfold Text.contains
  rw [hpat]
  exact cutAt_isSome

theorem splitOnce?_front {s pat front back : String} (hpat : pat.toList = [c])
    (hs : s.toList = front.toList ++ c :: back.toList) (h : c ∉ front.toList) :
    Text.splitOnce? s pat = some (front, back) := by
  unfold Text.splitOnce?
  rw [hpat, hs, Text.cutAt_singleton h]
  simp

theorem splitOnce?_eq_some {s pat front back : String} (hpat : pat.toList = [c])
    (h : Text.splitOnce? s pat = some (front, back)) :
    s.toList = front.toList ++ c :: back.toList := by
  unfold Text.splitOnce? at h
  rw [hpat, Option.map_eq_some_iff] at h
  obtain ⟨parts, hparts, heq⟩ := h
  cases heq
  rw [cutAt_eq_some hparts]
  simp

end Cuts

theorem mem_pieces {c d : Char} : ∀ {as piece : List Char}, d ∈ piece ∨ d ∈ as →
    d = c ∨ ∃ p ∈ Text.pieces c as piece, d ∈ p.toList := by
  intro as
  induction as with
  | nil =>
    intro piece h
    refine .inr ⟨_, List.mem_singleton.mpr rfl, ?_⟩
    simpa using h
  | cons a as ih =>
    intro piece h
    unfold Text.pieces
    by_cases hac : a = c
    · rw [if_pos hac]
      rcases h with hpiece | hmem
      · exact .inr ⟨_, List.mem_cons_self, by simpa using hpiece⟩
      · rcases List.mem_cons.mp hmem with hda | hrest
        · exact .inl (hda.trans hac)
        · rcases @ih [] (.inr hrest) with hdc | ⟨p, hp, hd⟩
          · exact .inl hdc
          · exact .inr ⟨p, List.mem_cons_of_mem _ hp, hd⟩
    · rw [if_neg hac]
      refine ih ?_
      rcases h with hpiece | hmem
      · exact .inl (List.mem_cons_of_mem _ hpiece)
      · rcases List.mem_cons.mp hmem with hda | hrest
        · exact .inl (by simp [hda])
        · exact .inr hrest

variable {tenant ingress base role : String}

theorem not_mem_tenant (h : isValidTenant tenant = true) {c : Char} (hc : slugChar c = false) :
    c ∉ tenant.toList := by
  intro hmem
  have hdot : c ≠ '.' := fun heq => by
    rw [heq] at hc
    exact absurd hc (by decide)
  have hpieces : c = '.' ∨ ∃ p ∈ Text.pieces '.' tenant.toList [], c ∈ p.toList :=
    mem_pieces (.inr hmem)
  rcases hpieces with heq | ⟨p, hp, hd⟩
  · exact hdot heq
  · exact not_mem_slug (List.all_eq_true.mp h p hp) hc hd

theorem tenant_ne_empty (h : isValidTenant tenant = true) : tenant ≠ "" := by
  intro heq
  rw [heq] at h
  exact absurd h (by decide)

theorem slug_ne_empty {value : String} (h : isValidSlug value = true) : value ≠ "" := by
  intro heq
  rw [heq] at h
  exact absurd h (by decide)

/-! ### Users -/

theorem grantLabel_toList (user tenant ingress : String) : (grantLabel user tenant ingress).toList
      = user.toList ++ '@' :: (tenant.toList ++ '#' :: ingress.toList) := by
  simp [grantLabel, toString]

/-- **A user's label is read back.** -/
theorem parseGrantLabel_grantLabel {user : String} (huser : isValidSlug user = true)
    (htenant : isValidTenant tenant = true) (hingress : isValidSlug ingress = true) :
    parseGrantLabel (grantLabel user tenant ingress) = some (user, tenant, ingress) := by
  have hfirst : Text.splitOnce? (grantLabel user tenant ingress) "@"
      = some (user, tenant ++ "#" ++ ingress) := by
    refine splitOnce?_front (c := '@') rfl ?_ (not_mem_slug huser (by decide))
    rw [grantLabel_toList]
    simp
  have hsecond : Text.splitOnce? (tenant ++ "#" ++ ingress) "#" = some (tenant, ingress) := by
    refine splitOnce?_front (c := '#') rfl ?_ (not_mem_tenant htenant (by decide))
    simp
  unfold parseGrantLabel
  rw [hfirst, Option.bind_some, hsecond, Option.bind_some]
  simp [slug_ne_empty huser, tenant_ne_empty htenant, slug_ne_empty hingress]

theorem mem_of_parseGrantLabel {label : String} (h : (parseGrantLabel label).isSome = true) :
    '@' ∈ label.toList ∧ '#' ∈ label.toList := by
  unfold parseGrantLabel at h
  cases hfirst : Text.splitOnce? label "@" with
  | none => simp [hfirst] at h
  | some user =>
    rw [hfirst, Option.bind_some] at h
    have hlabel := splitOnce?_eq_some (c := '@') rfl hfirst
    cases hsecond : Text.splitOnce? user.2 "#" with
    | none => simp [hsecond] at h
    | some rest =>
      have hrest := splitOnce?_eq_some (c := '#') rfl hsecond
      rw [hlabel, hrest]
      simp

theorem budgetSource_eq {tag label : String} (hapi : tag ≠ "api")
    (hforward : Text.startsWith tag "fwd:" = false) : budgetSource false (some (tag, some label))
      = if '@' ∈ label.toList ∧ '#' ∈ label.toList then label else "" := by
  have hat : Text.contains label "@" = decide ('@' ∈ label.toList) :=
    Bool.eq_iff_iff.mpr (by rw [contains_char (c := '@') rfl, decide_eq_true_eq])
  have hhash : Text.contains label "#" = decide ('#' ∈ label.toList) :=
    Bool.eq_iff_iff.mpr (by rw [contains_char (c := '#') rfl, decide_eq_true_eq])
  unfold budgetSource
  simp [hapi, hforward, hat, hhash]

/-! ### Probes -/

def escapeChar (c : Char) : List Char :=
  if c = '%' then ['%', '2', '5'] else if c = '@' then ['%', '4', '0'] else [c]

theorem replace_toList (s : String) (c : Char) (by' : String) :
    (Text.replace s c by').toList = s.toList.flatMap fun d => if d = c then by'.toList else [d] := by
  unfold Text.replace
  rw [String.toList_join, List.flatMap_map]
  refine List.flatMap_congr fun d _ => ?_
  by_cases hd : d = c
  · simp [hd]
  · simp [hd]

theorem escaped_toList (base : String) :
    (Text.replace (Text.replace base '%' "%25") '@' "%40").toList
      = base.toList.flatMap escapeChar := by
  rw [replace_toList, replace_toList, List.flatMap_assoc]
  refine List.flatMap_congr fun c _ => ?_
  unfold escapeChar
  by_cases hpercent : c = '%'
  · simp [hpercent]
  · by_cases hat : c = '@'
    · simp [hat]
    · simp [hpercent, hat]

theorem escapeChar_ne_nil (c : Char) : escapeChar c ≠ [] := by
  unfold escapeChar
  split_ifs
  · simp
  · simp
  · simp

theorem not_mem_escaped (as : List Char) : '@' ∉ as.flatMap escapeChar := by
  intro h
  obtain ⟨c, -, hc⟩ := List.mem_flatMap.mp h
  unfold escapeChar at hc
  split_ifs at hc with hpercent hat
  · simp at hc
  · simp at hc
  · exact hat (List.mem_singleton.mp hc).symm

theorem escaped_cons {a b : Char} {as bs : List Char}
    (h : escapeChar a ++ as = escapeChar b ++ bs) : a = b ∧ as = bs := by
  unfold escapeChar at h
  by_cases ha : a = '%'
  · by_cases hb : b = '%'
    · simpa [ha, hb] using h
    · by_cases hb' : b = '@'
      · simp [ha, hb'] at h
      · simp [ha, hb, hb'] at h
        exact absurd h.1.symm hb
  · by_cases ha' : a = '@'
    · by_cases hb : b = '%'
      · simp [ha', hb] at h
      · by_cases hb' : b = '@'
        · simpa [ha', hb'] using h
        · simp [ha', hb, hb'] at h
          exact absurd h.1.symm hb
    · by_cases hb : b = '%'
      · simp [ha, ha', hb] at h
      · by_cases hb' : b = '@'
        · simp [ha, ha', hb'] at h
        · simpa [ha, ha', hb, hb'] using h

theorem escaped_injective : ∀ {as bs : List Char},
    as.flatMap escapeChar = bs.flatMap escapeChar → as = bs := by
  intro as
  induction as with
  | nil =>
    intro bs h
    cases bs with
    | nil => rfl
    | cons b bs =>
      rw [List.flatMap_nil, List.flatMap_cons] at h
      exact absurd (List.append_eq_nil_iff.mp h.symm).1 (escapeChar_ne_nil b)
  | cons a as ih =>
    intro bs h
    cases bs with
    | nil =>
      rw [List.flatMap_nil, List.flatMap_cons] at h
      exact absurd (List.append_eq_nil_iff.mp h).1 (escapeChar_ne_nil a)
    | cons b bs =>
      rw [List.flatMap_cons, List.flatMap_cons] at h
      obtain ⟨hab, hrest⟩ := escaped_cons h
      rw [hab, ih hrest]

theorem probeTransportLabel_toList (base role : String) : (probeTransportLabel base role).toList
      = "probe#".toList ++ (role.toList ++ ':' :: base.toList.flatMap escapeChar) := by
  rw [← escaped_toList]
  simp [probeTransportLabel, toString]

theorem probeLabel_toList (ingress : String) :
    (probeLabel ingress).toList = "probe#".toList ++ ingress.toList := by
  simp [probeLabel, toString]

/-- **A role and a base are settled by their label.** -/
theorem probeTransportLabel_injective {base' role' : String} (hrole : ':' ∉ role.toList)
    (hrole' : ':' ∉ role'.toList)
    (h : probeTransportLabel base role = probeTransportLabel base' role') :
    role = role' ∧ base = base' := by
  have hlist := congrArg String.toList h
  rw [probeTransportLabel_toList, probeTransportLabel_toList] at hlist
  obtain ⟨hroles, hbases⟩ := Text.first_cut_unique hrole hrole' (List.append_cancel_left hlist)
  exact ⟨String.toList_injective hroles, String.toList_injective (escaped_injective hbases)⟩

theorem probeLabel_injective {ingress' : String} (h : probeLabel ingress = probeLabel ingress') :
    ingress = ingress' := by
  have hlist := congrArg String.toList h
  rw [probeLabel_toList, probeLabel_toList] at hlist
  exact String.toList_injective (List.append_cancel_left hlist)

theorem probeLabel_ne_transport (h : ':' ∉ ingress.toList) :
    probeLabel ingress ≠ probeTransportLabel base role := by
  intro heq
  have hlist := congrArg String.toList heq
  rw [probeLabel_toList, probeTransportLabel_toList] at hlist
  have hrest := List.append_cancel_left hlist
  exact h (hrest ▸ by simp)

theorem not_mem_probeLabel (h : '@' ∉ ingress.toList) : '@' ∉ (probeLabel ingress).toList := by
  rw [probeLabel_toList]
  intro hmem
  rcases List.mem_append.mp hmem with hprobe | hrest
  · exact absurd hprobe (by decide)
  · exact h hrest

theorem not_mem_transport (h : '@' ∉ role.toList) :
    '@' ∉ (probeTransportLabel base role).toList := by
  rw [probeTransportLabel_toList]
  intro hmem
  rcases List.mem_append.mp hmem with hprobe | hrest
  · exact absurd hprobe (by decide)
  rcases List.mem_append.mp hrest with hrole | htail
  · exact h hrole
  rcases List.mem_cons.mp htail with hcolon | hbase
  · exact absurd hcolon (by decide)
  · exact not_mem_escaped _ hbase

theorem isProbeLabel_grantLabel {user : String} (huser : isValidSlug user = true) :
    isProbeLabel (grantLabel user tenant ingress) = false := by
  have hnone : ¬ ("probe#".toList).isPrefixOf (grantLabel user tenant ingress).toList = true := by
    intro hprefix
    rw [List.isPrefixOf_iff_prefix] at hprefix
    obtain ⟨rest, hrest⟩ := hprefix
    rw [grantLabel_toList] at hrest
    have hat : '@' ∈ rest := by
      have hmem : '@' ∈ "probe#".toList ++ rest := hrest ▸ by simp
      rcases List.mem_append.mp hmem with hprobe | hlater
      · exact absurd hprobe (by decide)
      · exact hlater
    obtain ⟨front, back, rfl, hfront⟩ := List.eq_append_cons_of_mem hat
    have hcut : ("probe#".toList ++ front) ++ '@' :: back
        = user.toList ++ '@' :: (tenant.toList ++ '#' :: ingress.toList) := by
      rw [← hrest, List.append_assoc]
    have hbefore : '@' ∉ "probe#".toList ++ front := by
      intro hmem
      rcases List.mem_append.mp hmem with hprobe | hlater
      · exact absurd hprobe (by decide)
      · exact hfront hlater
    obtain ⟨huser', -⟩ := Text.first_cut_unique hbefore (not_mem_slug huser (by decide)) hcut
    exact not_mem_slug huser (c := '#') (by decide) (huser' ▸ by simp)
  unfold isProbeLabel Text.stripPrefix?
  rw [if_neg hnone]

theorem isProbeLabel_append {name : String} (h : name ≠ "") :
    isProbeLabel ("probe#" ++ name) = true := by
  unfold isProbeLabel Text.stripPrefix?
  rw [String.toList_append, if_pos (List.isPrefixOf_iff_prefix.mpr (List.prefix_append _ _)),
    ← String.length_toList, List.drop_left, String.ofList_toList]
  simpa using h

end Brocade.Physical
