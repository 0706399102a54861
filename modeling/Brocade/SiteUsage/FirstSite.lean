/-
The compiled catalog decides like the ordered list.

Each kind of rule, on its own, finds the first definition with a matching rule of that kind, and
the better of two such finds is the first definition matching either way.  So the trie, the map and
the scan together find the first definition that matches at all.  The early exits drop only what
could not have been better.
-/
import Brocade.SiteUsage.Catalog

namespace Brocade.SiteUsage

/-- A find that names the first definition passing a test, or none where none passes. -/
def IsFirst (sites : List Definition) (q : Definition → Bool) (found : SiteMatch) : Prop :=
  (found.site = "" ∧ ∀ site ∈ sites, q site = false) ∨
    ∃ site, sites[found.priority]? = some site ∧ found.site = site.id ∧ q site = true ∧
      ∀ i < found.priority, ∀ earlier, sites[i]? = some earlier → q earlier = false

/-- The better of two finds: the one from further up the list. -/
def better (best found : SiteMatch) : SiteMatch :=
  if found.site ≠ "" ∧ (best.site = "" ∨ found.priority < best.priority) then found else best

section First

variable {sites : List Definition} {q r : Definition → Bool} {best found : SiteMatch}

theorem isFirst_none (h : ∀ site ∈ sites, q site = false) : IsFirst sites q .none := .inl ⟨rfl, h⟩

/-- **The better of two finds is the first match of either kind.** -/
theorem IsFirst.better (hids : ∀ site ∈ sites, site.id ≠ "") (hbest : IsFirst sites q best)
    (hfound : IsFirst sites r found) :
    IsFirst sites (fun site => q site || r site) (better best found) := by
  obtain ⟨hempty, hnone⟩ | ⟨site, hsite, hid, hq, hbefore⟩ := hbest
  · obtain ⟨hrempty, hrnone⟩ | ⟨other, hother, hoid, hr, hrbefore⟩ := hfound
    · refine .inl ⟨by simp [SiteUsage.better, hempty, hrempty], ?_⟩
      intro s hs
      simp [hnone s hs, hrnone s hs]
    · have hne : found.site ≠ "" := hoid ▸ hids other (List.mem_of_getElem? hother)
      rw [SiteUsage.better, if_pos ⟨hne, .inl hempty⟩]
      refine .inr ⟨other, hother, hoid, by simp [hr], ?_⟩
      intro i hi earlier hearlier
      simp [hnone earlier (List.mem_of_getElem? hearlier), hrbefore i hi earlier hearlier]
  · have hbestNe : best.site ≠ "" := hid ▸ hids site (List.mem_of_getElem? hsite)
    obtain ⟨hrempty, hrnone⟩ | ⟨other, hother, hoid, hr, hrbefore⟩ := hfound
    · have hkeep : ¬(found.site ≠ "" ∧ (best.site = "" ∨ found.priority < best.priority)) :=
        fun h => h.1 hrempty
      rw [SiteUsage.better, if_neg hkeep]
      refine .inr ⟨site, hsite, hid, by simp [hq], ?_⟩
      intro i hi earlier hearlier
      simp [hbefore i hi earlier hearlier, hrnone earlier (List.mem_of_getElem? hearlier)]
    · have hne : found.site ≠ "" := hoid ▸ hids other (List.mem_of_getElem? hother)
      by_cases hlt : found.priority < best.priority
      · rw [SiteUsage.better, if_pos ⟨hne, .inr hlt⟩]
        refine .inr ⟨other, hother, hoid, by simp [hr], ?_⟩
        intro i hi earlier hearlier
        simp [hbefore i (by omega) earlier hearlier, hrbefore i hi earlier hearlier]
      · have hkeep : ¬(found.site ≠ "" ∧ (best.site = "" ∨ found.priority < best.priority)) :=
          fun h => h.2.elim hbestNe hlt
        rw [SiteUsage.better, if_neg hkeep]
        refine .inr ⟨site, hsite, hid, by simp [hq], ?_⟩
        intro i hi earlier hearlier
        simp [hbefore i hi earlier hearlier, hrbefore i (by omega) earlier hearlier]

theorem IsFirst.congr (h : IsFirst sites q found) (hqr : ∀ site ∈ sites, q site = r site) :
    IsFirst sites r found := by
  obtain ⟨hempty, hnone⟩ | ⟨site, hsite, hid, hq, hbefore⟩ := h
  · exact .inl ⟨hempty, fun s hs => by rw [← hqr s hs, hnone s hs]⟩
  · refine .inr ⟨site, hsite, hid, by rw [← hqr site (List.mem_of_getElem? hsite), hq], ?_⟩
    intro i hi earlier hearlier
    rw [← hqr earlier (List.mem_of_getElem? hearlier), hbefore i hi earlier hearlier]

theorem IsFirst.find? (hids : ∀ site ∈ sites, site.id ≠ "") (h : IsFirst sites q found) :
    (if found.site = "" then "other" else found.site)
      = ((sites.find? q).map Definition.id).getD "other" := by
  obtain ⟨hempty, hnone⟩ | ⟨site, hsite, hid, hq, hbefore⟩ := h
  · have hfind : sites.find? q = none := by
      rw [List.find?_eq_none]
      intro s hs
      simp [hnone s hs]
    simp [hempty, hfind]
  · have hfind : sites.find? q = some site := by
      rw [List.find?_eq_some_iff_getElem]
      obtain ⟨hlt, hget⟩ := List.getElem?_eq_some_iff.mp hsite
      refine ⟨hq, found.priority, hlt, hget, ?_⟩
      intro j hj
      simp [hbefore j hj sites[j] (List.getElem?_eq_getElem _)]
    have hne : found.site ≠ "" := hid ▸ hids site (List.mem_of_getElem? hsite)
    rw [if_neg hne, hfind, hid, Option.map_some, Option.getD_some]

end First

/-! ### Rules listed site by site -/

section Rules

variable {ρ : Type} {sites : List Definition} {rules : Definition → List ρ} {hit : ρ → Bool}

/-- The rules of all definitions in their order, each with the find it stands for. -/
def listed (rules : Definition → List ρ) (sites : List Definition) : List (ρ × SiteMatch) :=
  sites.zipIdx.flatMap fun entry => (rules entry.1).map fun rule => (rule, ⟨entry.1.id, entry.2⟩)

def firstRule (hit : ρ → Bool) (all : List (ρ × SiteMatch)) : SiteMatch :=
  ((all.find? fun rule => hit rule.1).map Prod.snd).getD .none

variable (sites rules hit) in
/-- **The first rule that matches belongs to the first definition with a matching rule.** -/
theorem firstRule_isFirst :
    IsFirst sites (fun site => (rules site).any hit) (firstRule hit (listed rules sites)) := by
  have hfrom : ∀ (rest before : List Definition), sites = before ++ rest →
      (∀ site ∈ before, (rules site).any hit = false) →
      IsFirst sites (fun site => (rules site).any hit)
        (firstRule hit ((rest.zipIdx before.length).flatMap fun entry =>
          (rules entry.1).map fun rule => (rule, ⟨entry.1.id, entry.2⟩))) := by
    intro rest
    induction rest with
    | nil =>
      intro before hsites hnone
      rw [List.append_nil] at hsites
      exact isFirst_none (hsites ▸ hnone)
    | cons site rest ih =>
      intro before hsites hnone
      rw [List.zipIdx_cons, List.flatMap_cons, firstRule, List.find?_append]
      cases hfind : (rules site).find? hit with
      | none =>
        have hsite : (rules site).any hit = false := by
          rw [List.any_eq_false]
          exact List.find?_eq_none.mp hfind
        have hskip : (((rules site).map fun rule => (rule, (⟨site.id, before.length⟩ : SiteMatch))).find?
            fun rule => hit rule.1) = none := by
          rw [List.find?_map]
          simpa [Function.comp_def] using hfind
        rw [hskip, Option.none_or]
        have hnext := ih (before ++ [site]) (by rw [hsites]; simp) (by
          intro s hs
          rcases List.mem_append.mp hs with hs | hs
          · exact hnone s hs
          · rw [List.mem_singleton.mp hs]
            exact hsite)
        rw [List.length_append] at hnext
        exact hnext
      | some rule =>
        have hhit : (((rules site).map fun rule => (rule, (⟨site.id, before.length⟩ : SiteMatch))).find?
            fun rule => hit rule.1) = some (rule, ⟨site.id, before.length⟩) := by
          rw [List.find?_map]
          simp [Function.comp_def, hfind]
        rw [hhit, Option.some_or, Option.map_some, Option.getD_some]
        refine .inr ⟨site, ?_, rfl, ?_, ?_⟩
        · rw [hsites]
          simp
        · rw [List.any_eq_true]
          exact ⟨rule, List.mem_of_find?_eq_some hfind, List.find?_some hfind⟩
        · intro i hi earlier hearlier
          rw [hsites, List.getElem?_append_left hi] at hearlier
          exact hnone earlier (List.mem_of_getElem? hearlier)
  exact hfrom sites [] rfl (by simp)

theorem listed_sorted : (listed rules sites).Pairwise fun a b => a.2.priority ≤ b.2.priority := by
  rw [listed, List.pairwise_flatMap]
  refine ⟨?_, ?_⟩
  · intro entry _
    rw [List.pairwise_map]
    exact List.pairwise_of_forall fun _ _ => Nat.le_refl _
  · rw [List.pairwise_iff_getElem]
    intro i j hi hj hij a ha b hb
    obtain ⟨-, -, rfl⟩ := List.mem_map.mp ha
    obtain ⟨-, -, rfl⟩ := List.mem_map.mp hb
    simp only [List.getElem_zipIdx]
    omega

theorem listed_site_ne (hids : ∀ site ∈ sites, site.id ≠ "") :
    ∀ rule ∈ listed rules sites, rule.2.site ≠ "" := by
  intro rule hrule
  obtain ⟨entry, hentry, hin⟩ := List.mem_flatMap.mp hrule
  obtain ⟨-, -, rfl⟩ := List.mem_map.mp hin
  exact hids entry.1 (List.fst_mem_of_mem_zipIdx hentry)

end Rules

/-! ### The suffixes -/

section Suffixes

variable {sites : List Definition}

theorem read_claimed (path : List String) (all : List (List String × SiteMatch))
    (hall : ∀ rule ∈ all, rule.2.site ≠ "") : ∀ root : SuffixNode,
      (all.foldl (fun root rule => root.update .none (claim rule.2) rule.1) root).read .none path
        = if (root.read .none path).site = "" then
            ((all.find? fun rule => rule.1 == path).map Prod.snd).getD (root.read .none path)
          else root.read .none path := by
  induction all with
  | nil => intro root; simp
  | cons rule all ih =>
    intro root
    rw [List.foldl_cons, ih (fun r hr => hall r (List.mem_cons_of_mem _ hr)), Trie.read_update]
    have hne := hall rule List.mem_cons_self
    by_cases hpath : path = rule.1
    · subst hpath
      by_cases hfree : (root.read .none rule.1).site = ""
      · simp [claim, hfree, hne]
      · simp [claim, hfree]
    · have hskip : (rule.1 == path) = false := by simpa using Ne.symm hpath
      simp [hpath, hskip]

theorem compileSuffixes_eq (sites : List Definition) :
    compileSuffixes sites = (listed (fun site => site.domains.map labels) sites).foldl
        (fun root rule => root.update .none (claim rule.2) rule.1) (Trie.empty .none) := by
  rw [compileSuffixes, listed, List.foldl_flatMap]
  congr 1
  funext root entry
  rw [List.map_map, List.foldl_map]
  rfl

/-- **A node of the trie names the first definition with its path.** -/
theorem read_isFirst (hids : ∀ site ∈ sites, site.id ≠ "") (path : List String) :
    IsFirst sites (fun site => (site.domains.map labels).any (· == path))
      ((compileSuffixes sites).read .none path) := by
  rw [compileSuffixes_eq, read_claimed path _ (listed_site_ne hids), Trie.read_empty]
  exact firstRule_isFirst sites _ fun p => p == path

/-- The paths down to a place, without the root's. -/
def pathsTo : List String → List (List String)
  | [] => []
  | label :: rest => [label] :: (pathsTo rest).map (label :: ·)

theorem mem_pathsTo {path : List String} : ∀ {place : List String},
    path ∈ pathsTo place ↔ path ≠ [] ∧ path <+: place := by
  intro place
  induction place generalizing path with
  | nil =>
    simp only [pathsTo, List.not_mem_nil, List.prefix_nil, false_iff, not_and]
    exact fun hne heq => hne heq
  | cons label rest ih =>
    rw [pathsTo, List.mem_cons, List.mem_map]
    cases path with
    | nil => simp
    | cons l path =>
      by_cases hpath : path = []
      · subst hpath
        simp [ih, List.cons_prefix_cons]
      · simp [ih, List.cons_prefix_cons, hpath, and_comm, eq_comm]

theorem read_below_missing {node : SuffixNode} {label : String} (h : node.child? label = none)
    (path : List String) : node.read .none (label :: path) = .none := by
  rw [Trie.read, h, Option.map_none, Option.getD_none]

theorem better_none (best : SiteMatch) : better best .none = best := by
  simp [better, SiteMatch.none]

theorem better_zero {best found : SiteMatch} (hbest : best.site ≠ "") (hzero : best.priority = 0) :
    better best found = best := by
  rw [better, if_neg]
  intro h
  exact h.2.elim hbest (by omega)

/-- **The walk takes the best of the nodes on its way**, although it may stop before the last. -/
theorem walk_eq (place : List String) : ∀ (node : SuffixNode) (best : SiteMatch),
    walk node best place =
      (pathsTo place).foldl (fun best path => better best (node.read .none path)) best := by
  induction place with
  | nil => intro node best; simp [walk, pathsTo]
  | cons label rest ih =>
    intro node best
    rw [walk, pathsTo, List.foldl_cons, List.foldl_map]
    cases hchild : node.child? label with
    | none =>
      have hfold : ∀ (paths : List (List String)) (m : SiteMatch), paths.foldl
          (fun best path => better best (node.read .none (label :: path))) m = m := by
        intro paths
        induction paths with
        | nil => intro m; rfl
        | cons path paths ihPaths =>
          intro m
          rw [List.foldl_cons, read_below_missing hchild, better_none, ihPaths]
      rw [read_below_missing hchild, better_none, hfold]
    | some child =>
      have hread : ∀ path, node.read .none (label :: path) = child.read .none path := by
        intro path
        rw [Trie.read, hchild, Option.map_some, Option.getD_some]
      simp only [hread, Trie.read_nil]
      show (if child.value.site ≠ "" ∧ (best.site = "" ∨ child.value.priority < best.priority)
        then if child.value.priority = 0 then child.value else walk child child.value rest
        else walk child best rest) = _
      rw [ih, ih]
      by_cases hwins : child.value.site ≠ "" ∧
          (best.site = "" ∨ child.value.priority < best.priority)
      · rw [if_pos hwins, better, if_pos hwins]
        by_cases hzero : child.value.priority = 0
        · have hstop : ∀ paths : List (List String), paths.foldl
              (fun best path => better best (child.read .none path)) child.value = child.value := by
            intro paths
            induction paths with
            | nil => rfl
            | cons path paths ihPaths =>
              rw [List.foldl_cons, better_zero hwins.1 hzero, ihPaths]
          rw [if_pos hzero, hstop]
        · rw [if_neg hzero]
      · rw [if_neg hwins, better, if_neg hwins]

theorem lookup_isFirst_path (hids : ∀ site ∈ sites, site.id ≠ "") (domain : String) :
    IsFirst sites (fun site => (pathsTo (labels domain)).any fun path =>
      (site.domains.map labels).any (· == path)) (lookup (compileSuffixes sites) domain) := by
  rw [lookup, walk_eq]
  have hfold : ∀ (paths : List (List String)) (q : Definition → Bool) (best : SiteMatch),
      IsFirst sites q best →
      IsFirst sites (fun site => q site || paths.any fun path =>
          (site.domains.map labels).any (· == path))
        (paths.foldl (fun best path => better best ((compileSuffixes sites).read .none path))
          best) := by
    intro paths
    induction paths with
    | nil =>
      intro q best hbest
      exact hbest.congr fun site _ => by simp
    | cons path paths ih =>
      intro q best hbest
      rw [List.foldl_cons]
      refine (ih _ _ (hbest.better hids (read_isFirst hids path))).congr ?_
      intro site _
      rw [List.any_cons, Bool.or_assoc]
  refine (hfold _ (fun _ => false) .none (isFirst_none fun _ _ => rfl)).congr ?_
  intro site _
  rw [Bool.false_or]

end Suffixes

/-! ### Label boundaries -/

/-- **The labels of a rule lead to a node on the way exactly if the rule is a suffix.** -/
theorem labels_prefix_iff (domain suffix : String) :
    labels suffix <+: labels domain ↔ hasSuffix domain suffix = true := by
  rw [labels, labels, List.reverse_prefix, hasSuffix, Bool.or_eq_true, beq_iff_eq]
  constructor
  · intro h
    obtain ⟨front, hfront⟩ := h
    by_cases hempty : front = []
    · left
      have hsame : Text.split suffix '.' = Text.split domain '.' := by rw [← hfront, hempty]; rfl
      rw [← Text.intercalate_split domain '.', ← hsame, Text.intercalate_split]
    · right
      have hjoined := Text.intercalate_split domain '.'
      rw [← hfront, String.intercalate_append_of_ne_nil hempty (Text.split_ne_nil suffix '.'),
        Text.intercalate_split] at hjoined
      rw [Text.endsWith, List.isSuffixOf_iff_suffix, ← hjoined]
      refine ⟨(String.intercalate (String.singleton '.') front).toList, ?_⟩
      simp
  · intro h
    rcases h with heq | hends
    · exact heq ▸ List.suffix_refl _
    · rw [Text.endsWith, List.isSuffixOf_iff_suffix] at hends
      obtain ⟨front, hfront⟩ := hends
      rw [String.toList_append] at hfront
      refine ⟨Text.pieces '.' front [], ?_⟩
      rw [Text.split, Text.split, ← hfront]
      exact (Text.pieces_append '.' front suffix.toList []).symm

/-- **The trie finds the first definition with a suffix of the domain.** -/
theorem lookup_isFirst {sites : List Definition} (hids : ∀ site ∈ sites, site.id ≠ "")
    (domain : String) : IsFirst sites (fun site => site.domains.any (hasSuffix domain))
      (lookup (compileSuffixes sites) domain) := by
  refine (lookup_isFirst_path hids domain).congr ?_
  intro site _
  rw [Bool.eq_iff_iff, List.any_eq_true, List.any_eq_true]
  constructor
  · intro h
    obtain ⟨path, hpath, hany⟩ := h
    obtain ⟨place, hplace, heq⟩ := List.any_eq_true.mp hany
    obtain ⟨suffix, hsuffix, rfl⟩ := List.mem_map.mp hplace
    rw [beq_iff_eq] at heq
    subst heq
    exact ⟨suffix, hsuffix, (labels_prefix_iff domain suffix).mp (mem_pathsTo.mp hpath).2⟩
  · intro h
    obtain ⟨suffix, hsuffix, hends⟩ := h
    have hne : labels suffix ≠ [] := by
      rw [labels, List.reverse_ne_nil_iff]
      exact Text.split_ne_nil suffix '.'
    refine ⟨labels suffix, mem_pathsTo.mpr ⟨hne, (labels_prefix_iff domain suffix).mpr hends⟩, ?_⟩
    rw [List.any_eq_true]
    exact ⟨labels suffix, List.mem_map_of_mem hsuffix, by simp⟩

/-! ### Full domains -/

section Full

variable {sites : List Definition}

theorem lookup_filled (domain : String) (all : List (String × SiteMatch)) :
    ∀ full : List (String × SiteMatch), (all.foldl (fun full rule =>
          if (full.lookup rule.1).isSome then full else full ++ [rule]) full).lookup domain
        = (full.lookup domain).or ((all.find? fun rule => rule.1 == domain).map Prod.snd) := by
  induction all with
  | nil => intro full; simp
  | cons rule all ih =>
    intro full
    obtain ⟨name, found⟩ := rule
    rw [List.foldl_cons, ih]
    by_cases hsame : name = domain
    · subst hsame
      cases hfull : full.lookup name with
      | none => simp [hfull, List.lookup_append]
      | some found => simp [hfull]
    · have hskip : (name == domain) = false := by simpa using hsame
      have hlookup : (domain == name) = false := by simpa using Ne.symm hsame
      by_cases hthere : (full.lookup name).isSome = true
      · simp [hthere, hskip]
      · simp [hthere, hskip, List.lookup_append, List.lookup_cons, hlookup]

theorem compileFull_eq (sites : List Definition) :
    compileFull sites = (listed Definition.full sites).foldl (fun full rule =>
      if (full.lookup rule.1).isSome then full else full ++ [rule]) [] := by
  rw [compileFull, listed, List.foldl_flatMap]
  congr 1
  funext full entry
  rw [List.foldl_map]

theorem withFull_eq (full : Option SiteMatch) (hfull : ∀ found ∈ full, found.site ≠ "")
    (best : SiteMatch) : withFull full best = better best (full.getD .none) := by
  cases full with
  | none => rw [Option.getD_none, better_none, withFull]
  | some found =>
    have hne := hfull found rfl
    simp [withFull, better, hne]

/-- **The map finds the first definition with the domain in full.** -/
theorem withFull_isFirst (hids : ∀ site ∈ sites, site.id ≠ "") {q : Definition → Bool}
    {best : SiteMatch} (domain : String) (hbest : IsFirst sites q best) :
    IsFirst sites (fun site => q site || site.full.any (domain == ·))
      (withFull ((compileFull sites).lookup domain) best) := by
  have hlookup : (compileFull sites).lookup domain =
      ((listed Definition.full sites).find? fun rule => rule.1 == domain).map Prod.snd := by
    rw [compileFull_eq, lookup_filled]
    simp
  have hne : ∀ found ∈ (compileFull sites).lookup domain, found.site ≠ "" := by
    intro found hfound
    rw [hlookup, Option.mem_def, Option.map_eq_some_iff] at hfound
    obtain ⟨rule, hrule, rfl⟩ := hfound
    exact listed_site_ne hids rule (List.mem_of_find?_eq_some hrule)
  rw [withFull_eq _ hne, hlookup]
  refine (hbest.better hids (firstRule_isFirst sites Definition.full
    fun name => name == domain)).congr ?_
  intro site _
  congr 2
  funext name
  exact Bool.eq_iff_iff.mpr (by rw [beq_iff_eq, beq_iff_eq, eq_comm])

end Full

/-! ### The scan -/

section Scan

/-- **The scan may stop where no later rule can win**: rules stand in the order of priority. -/
theorem scan_eq (domain : String) (rules : List FallbackRule) :
    ∀ best : SiteMatch, (∀ rule ∈ rules, rule.found.site ≠ "") →
      (rules.Pairwise fun a b => a.found.priority ≤ b.found.priority) →
      scan domain rules best = better best
        (((rules.find? fun rule => rule.matches domain).map FallbackRule.found).getD .none) := by
  induction rules with
  | nil =>
    intro best _ _
    rw [scan, List.find?_nil, Option.map_none, Option.getD_none, better_none]
  | cons rule rules ih =>
    intro best hne hsorted
    obtain ⟨hfirst, hsorted⟩ := List.pairwise_cons.mp hsorted
    rw [scan]
    by_cases hstop : best.site ≠ "" ∧ best.priority ≤ rule.found.priority
    · rw [if_pos hstop]
      have hlater : ∀ found ∈ ((rule :: rules).find? fun rule => rule.matches domain),
          best.priority ≤ found.found.priority := by
        intro found hfound
        rcases List.mem_cons.mp (List.mem_of_find?_eq_some hfound) with heq | hin
        · exact heq ▸ hstop.2
        · exact Nat.le_trans hstop.2 (hfirst found hin)
      cases hfind : (rule :: rules).find? fun rule => rule.matches domain with
      | none => rw [Option.map_none, Option.getD_none, better_none]
      | some found =>
        have hle := hlater found hfind
        rw [Option.map_some, Option.getD_some, better, if_neg]
        intro hwins
        exact hwins.2.elim hstop.1 (by omega)
    · rw [if_neg hstop]
      have hruleNe := hne rule List.mem_cons_self
      by_cases hmatch : rule.matches domain = true
      · rw [if_pos hmatch, List.find?_cons_of_pos (p := fun rule : FallbackRule => rule.matches domain) hmatch,
          Option.map_some, Option.getD_some,
          better, if_pos]
        refine ⟨hruleNe, ?_⟩
        by_cases hempty : best.site = ""
        · exact .inl hempty
        · have hlt := not_and.mp hstop hempty
          exact .inr (by omega)
      · rw [if_neg hmatch,
          List.find?_cons_of_neg (p := fun rule : FallbackRule => rule.matches domain) hmatch]
        exact ih best (fun r hr => hne r (List.mem_cons_of_mem _ hr)) hsorted

/-- The slow rules of a site: keywords, then expressions. -/
def slowRules (go : Runtime) (site : Definition) : List (String × Option (String → Bool)) :=
  (site.keywords.map fun keyword => (keyword, none))
    ++ site.regexps.map fun pattern => ("", mustCompile go pattern)

/-- A slow rule takes it. -/
def slowHit (domain : String) (rule : String × Option (String → Bool)) : Bool :=
  (rule.2.any fun matchString => matchString domain)
    || (rule.1 != "" && Text.contains domain rule.1)

variable {go : Runtime} {sites : List Definition}

theorem fallback_eq (go : Runtime) (sites : List Definition) :
    (sites.zipIdx.flatMap fun entry => siteFallback go entry.1 entry.2)
      = (listed (slowRules go) sites).map fun rule => ⟨rule.2, rule.1.1, rule.1.2⟩ := by
  rw [listed, List.map_flatMap]
  congr 1
  funext entry
  simp [siteFallback, slowRules, Function.comp_def]

theorem slowRules_any {site : Definition} (hkeywords : ∀ keyword ∈ site.keywords, keyword ≠ "")
    (domain : String) :
    (slowRules go site).any (slowHit domain) = (site.keywords.any (Text.contains domain)
      || site.regexps.any fun pattern =>
        (mustCompile go pattern).any fun matchString => matchString domain) := by
  rw [slowRules, List.any_append, List.any_map, List.any_map]
  congr 1
  · rw [Bool.eq_iff_iff, List.any_eq_true, List.any_eq_true]
    refine exists_congr fun keyword => and_congr_right fun hin => ?_
    simp [slowHit, hkeywords keyword hin]
  · congr 1
    funext pattern
    simp [slowHit]

variable (go) in
/-- **The scan finds the first definition with a keyword or an expression for the domain.** -/
theorem scan_isFirst (hids : ∀ site ∈ sites, site.id ≠ "")
    (hkeywords : ∀ site ∈ sites, ∀ keyword ∈ site.keywords, keyword ≠ "")
    {q : Definition → Bool} {best : SiteMatch} (domain : String) (hbest : IsFirst sites q best) :
    IsFirst sites (fun site => q site || (site.keywords.any (Text.contains domain)
        || site.regexps.any fun pattern =>
          (mustCompile go pattern).any fun matchString => matchString domain))
      (scan domain (sites.zipIdx.flatMap fun entry => siteFallback go entry.1 entry.2) best) := by
  rw [fallback_eq, scan_eq]
  · have hfirst := firstRule_isFirst sites (slowRules go) (slowHit domain)
    have hsame : (((listed (slowRules go) sites).map fun rule =>
          (⟨rule.2, rule.1.1, rule.1.2⟩ : FallbackRule)).find? fun rule => rule.matches domain).map
          FallbackRule.found
        = ((listed (slowRules go) sites).find? fun rule => slowHit domain rule.1).map Prod.snd := by
      rw [List.find?_map, Option.map_map]
      rfl
    rw [hsame]
    refine (hbest.better hids hfirst).congr ?_
    intro site hsite
    rw [slowRules_any (hkeywords site hsite)]
  · intro rule hrule
    obtain ⟨entry, hentry, rfl⟩ := List.mem_map.mp hrule
    exact listed_site_ne hids entry hentry
  · rw [List.pairwise_map]
    exact listed_sorted

end Scan

/-! ### What validation says -/

section Validation

open Fallible

variable {go : Runtime}

theorem validateKeywords_ok {id : String} : ∀ {keywords : List String},
    validateKeywords id keywords = .ok () → ∀ keyword ∈ keywords, keyword ≠ "" := by
  intro keywords
  induction keywords with
  | nil => intro _ keyword hin; cases hin
  | cons pattern rest ih =>
    intro h keyword hin
    rw [validateKeywords] at h
    by_cases hbad : pattern = "" ∨ 253 < pattern.utf8ByteSize
    · rw [if_pos hbad] at h
      cases h
    · rw [if_neg hbad] at h
      rcases List.mem_cons.mp hin with heq | hin
      · exact heq ▸ fun hempty => hbad (.inl hempty)
      · exact ih h keyword hin

theorem validateSites_ok : ∀ {sites : List Definition} {seen : List String} {total slow : ℕ}
    {counts : ℕ × ℕ}, validateSites go sites seen total slow = .ok counts →
      ∀ site ∈ sites, site.id ≠ "" ∧ ∀ keyword ∈ site.keywords, keyword ≠ "" := by
  intro sites
  induction sites with
  | nil => intro _ _ _ _ _ site hin; cases hin
  | cons first sites ih =>
    intro seen total slow counts h site hin
    rw [validateSites] at h
    by_cases hbad : first.id = "" ∨ first.id ∈ seen
    · rw [if_pos hbad] at h
      cases h
    · rw [if_neg hbad] at h
      obtain ⟨_, _, h⟩ := bind_eq_ok.mp h
      obtain ⟨_, _, h⟩ := bind_eq_ok.mp h
      obtain ⟨_, hkeywords, h⟩ := bind_eq_ok.mp h
      rcases List.mem_cons.mp hin with heq | hin
      · rw [heq]
        exact ⟨fun hempty => hbad (.inl hempty), validateKeywords_ok hkeywords⟩
      · exact ih h site hin

theorem validateDefinitions_ok {sites : List Definition}
    (h : validateDefinitions go sites = .ok ()) :
    ∀ site ∈ sites, site.id ≠ "" ∧ ∀ keyword ∈ site.keywords, keyword ≠ "" := by
  rw [validateDefinitions] at h
  by_cases hmany : 64 < sites.length
  · rw [if_pos hmany] at h
    cases h
  · rw [if_neg hmany] at h
    obtain ⟨counts, hcounts, -⟩ := bind_eq_ok.mp h
    exact validateSites_ok hcounts

end Validation

/-! ### The catalog -/

section Catalog

variable {go : Runtime} {sites : List Definition}

theorem compileDefinitions_ok (h : validateDefinitions go sites = .ok ()) :
    compileDefinitions go sites = some {
      suffix := compileSuffixes sites
      full := compileFull sites
      fallback := sites.zipIdx.flatMap fun entry => siteFallback go entry.1 entry.2 } := by
  rw [compileDefinitions, h]

variable {c : CompiledCatalog} {domain : String}

/-- **The compiled catalog names the first definition with a rule for the domain.** -/
theorem matchSite_eq (h : validateDefinitions go sites = .ok ())
    (hc : compileDefinitions go sites = some c) (domain : String) :
    c.matchSite domain = ((firstMatch go sites domain).map Definition.id).getD "other" := by
  have hvalid := validateDefinitions_ok h
  have hids : ∀ site ∈ sites, site.id ≠ "" := fun site hin => (hvalid site hin).1
  rw [compileDefinitions_ok h, Option.some.injEq] at hc
  subst hc
  have hscan := scan_isFirst go hids (fun site hin => (hvalid site hin).2) domain
    (withFull_isFirst hids domain (lookup_isFirst hids domain))
  rw [CompiledCatalog.matchSite, firstMatch]
  refine ((hscan.congr ?_).find? hids)
  intro site _
  simp only [Definition.matches, Bool.or_assoc]

/-- A normalized domain, as traffic reports one. -/
def Normalized (go : Runtime) (domain : String) : Prop :=
  domain ≠ "" ∧ normalizeOtherDomain go domain = domain

theorem Normalized.lowered (h : Normalized go domain) :
    go.toLower (trimSuffix domain ".") = domain := by
  obtain ⟨hne, hsame⟩ := h
  rw [normalizeOtherDomain] at hsame
  split_ifs at hsame with hlong hlabel
  · exact absurd hsame.symm hne
  · exact absurd hsame.symm hne
  · exact hsame

theorem matchSite_other_iff (h : validateDefinitions go sites = .ok ())
    (hc : compileDefinitions go sites = some c) (domain : String) : c.matchSite domain = "other" ↔
      ∀ site, firstMatch go sites domain = some site → site.id = "other" := by
  rw [matchSite_eq h hc]
  cases firstMatch go sites domain with
  | none => simp
  | some site => simp

theorem classify_override {overrides : CompiledCatalog} (hdomain : Normalized go domain)
    (hmatch : overrides.matchSite domain ≠ "other") (sniffEnabled : Bool) :
    classify go overrides c domain sniffEnabled = overrides.matchSite domain := by
  rw [classify, hdomain.lowered]
  simp [hdomain.1, hmatch]

theorem classify_site {overrides : CompiledCatalog} (hdomain : Normalized go domain)
    (hmatch : overrides.matchSite domain = "other") (sniffEnabled : Bool) :
    classify go overrides c domain sniffEnabled = c.matchSite domain := by
  rw [classify, hdomain.lowered]
  simp [hdomain.1, hmatch]

end Catalog

/-- **Classification follows the ordered lists.** The id of the sites without a rule is reserved: a
rule listed under it reads like no rule, among the overrides too. -/
theorem catalog_first_match (go : Runtime) (sites overrides : List Definition)
    (hsites : validateDefinitions go sites = .ok ())
    (hoverrides : validateDefinitions go overrides = .ok ()) :
    ∃ classifier overriding, compileDefinitions go sites = some classifier ∧
      compileDefinitions go overrides = some overriding ∧
      ∀ domain, Normalized go domain → classifier.matchSite domain
          = ((firstMatch go sites domain).map Definition.id).getD "other" ∧
        (classifier.matchSite domain = "other" ↔
          ∀ site, firstMatch go sites domain = some site → site.id = "other") ∧
        ∀ sniffEnabled, (∀ site, firstMatch go overrides domain = some site → site.id ≠ "other" →
            classify go overriding classifier domain sniffEnabled = site.id) ∧
          ((∀ site, firstMatch go overrides domain = some site → site.id = "other") →
            classify go overriding classifier domain sniffEnabled
              = ((firstMatch go sites domain).map Definition.id).getD "other") := by
  refine ⟨_, _, compileDefinitions_ok hsites, compileDefinitions_ok hoverrides, ?_⟩
  intro domain hdomain
  have hmatch := matchSite_eq hsites (compileDefinitions_ok hsites) domain
  have hoverride := matchSite_eq hoverrides (compileDefinitions_ok hoverrides) domain
  refine ⟨hmatch, matchSite_other_iff hsites (compileDefinitions_ok hsites) domain, ?_⟩
  intro sniffEnabled
  refine ⟨?_, ?_⟩
  · intro site hfirst hid
    rw [hfirst, Option.map_some, Option.getD_some] at hoverride
    rw [classify_override hdomain (by rw [hoverride]; exact hid), hoverride]
  · intro hreserved
    have hnone := (matchSite_other_iff hoverrides (compileDefinitions_ok hoverrides) domain).mpr hreserved
    rw [classify_site hdomain hnone, hmatch]

/-- Lower case and domains as ASCII has them, without addresses or expressions. -/
def plainRuntime : Runtime where
  toLower s := String.ofList (s.toList.map Char.toLower)
  parseIP _ := false
  compile pattern := .error pattern

def sampleSites : List Definition :=
  [⟨"specific", ["sub.example.com"], [], [], []⟩, ⟨"generic", ["example.com"], [], [], []⟩]

def sampleOverrides : List Definition :=
  [⟨"other", ["cdn.sub.example.com"], [], [], []⟩, ⟨"video", ["tv.example.com"], [], [], []⟩]

theorem catalog_first_match_sample : validateDefinitions plainRuntime sampleSites = .ok () ∧
      ∃ classifier overriding, compileDefinitions plainRuntime sampleSites = some classifier ∧
        compileDefinitions plainRuntime sampleOverrides = some overriding ∧
        classifier.matchSite "cdn.sub.example.com" = "specific" ∧
        classify plainRuntime overriding classifier "cdn.sub.example.com" true = "specific" ∧
        classify plainRuntime overriding classifier "tv.example.com" true = "video" := by
  have hvalid : validateDefinitions plainRuntime sampleSites = .ok () := by decide +kernel
  obtain ⟨classifier, overriding, hsites, hoverrides, h⟩ :=
    catalog_first_match plainRuntime sampleSites sampleOverrides hvalid (by decide +kernel)
  obtain ⟨hfirst, -, hcdn⟩ := h "cdn.sub.example.com" ⟨by decide, by decide +kernel⟩
  obtain ⟨-, -, htv⟩ := h "tv.example.com" ⟨by decide, by decide +kernel⟩
  have hreserved : (firstMatch plainRuntime sampleOverrides "cdn.sub.example.com").map Definition.id
      = some "other" := by decide +kernel
  have hvideo : (firstMatch plainRuntime sampleOverrides "tv.example.com").map Definition.id
      = some "video" := by decide +kernel
  obtain ⟨video, hsome, hid⟩ := Option.map_eq_some_iff.mp hvideo
  refine ⟨hvalid, classifier, overriding, hsites, hoverrides, ?_, ?_, ?_⟩
  · rw [hfirst]
    decide +kernel
  · rw [(hcdn true).2 fun site hsite => by simpa [hsite] using hreserved]
    decide +kernel
  · exact ((htv true).1 video hsome (by rw [hid]; decide)).trans hid

def reservedSites : List Definition := [⟨"other", ["example.com"], [], [], []⟩]

/-- A definition under the reserved id matches and still reads as no match. -/
theorem other_is_reserved : ¬ ∀ (go : Runtime) (sites : List Definition),
    validateDefinitions go sites = .ok () → ∀ c, compileDefinitions go sites = some c →
      ∀ domain, Normalized go domain →
        (c.matchSite domain = "other" ↔ firstMatch go sites domain = none) := by
  intro h
  have hvalid : validateDefinitions plainRuntime reservedSites = .ok () := by decide +kernel
  have hreserved := h plainRuntime reservedSites hvalid _ (compileDefinitions_ok hvalid)
    "www.example.com" ⟨by decide, by decide +kernel⟩
  rw [matchSite_eq hvalid (compileDefinitions_ok hvalid)] at hreserved
  have hsome : (firstMatch plainRuntime reservedSites "www.example.com").isSome = true := by
    decide +kernel
  have hother : ((firstMatch plainRuntime reservedSites "www.example.com").map
      Definition.id).getD "other" = "other" := by decide +kernel
  rw [hreserved.mp hother] at hsome
  cases hsome

end Brocade.SiteUsage
