/-
The site catalog of the data plane.

A definition is an id with suffixes, full domains, keywords and regular expressions; the
definitions are listed in the order of their priority.  Compiling puts the suffixes into a trie
over the labels of a domain, last label first, the full domains into a map, and the rest into a
list that is scanned as far as it can still win.  Lowering, address parsing and regular
expressions are the runtime's, and any will do.
-/
import Brocade.Lib.Fallible
import Brocade.Lib.Text
import Brocade.Lib.Trie

namespace Brocade.SiteUsage

/-- What the language's own packages decide. -/
structure Runtime where
  toLower : String → String
  parseIP : String → Bool
  compile : String → Except String (String → Bool)

/-- A site of the catalog. -/
structure Definition where
  id : String
  (domains full keywords regexps : List String)

/-! ### Validation -/

def trimSuffix (s suf : String) : String :=
  if Text.endsWith s suf then String.ofList (s.toList.take (s.length - suf.length)) else s

/-- A label of letters, digits and inner hyphens, 63 bytes at most. -/
def invalidLabel (label : String) : Bool :=
  label.utf8ByteSize == 0 || decide (63 < label.utf8ByteSize) || label.toList.head? == some '-'
    || label.toList.getLast? == some '-'
    || label.toList.any fun c => !(('a' ≤ c && c ≤ 'z') || ('0' ≤ c && c ≤ '9') || c == '-')

/-- A domain, as rules have it. -/
def normalizeOtherDomain (go : Runtime) (name : String) : String :=
  let domain := go.toLower (trimSuffix name ".")
  if domain.utf8ByteSize = 0 ∨ 253 < domain.utf8ByteSize ∨ go.parseIP domain = true then ""
  else if (Text.split domain '.').any invalidLabel then ""
  else domain

/-- Domains are in that form. -/
def validateDomains (go : Runtime) (id : String) : List String → Except String Unit
  | [] => pure ()
  | domain :: rest =>
    if normalizeOtherDomain go domain ≠ domain ∨ domain = "" then
      throw s!"invalid DNS rule in {id}"
    else validateDomains go id rest

/-- Expressions can be compiled. -/
def validateRegexps (go : Runtime) (id : String) : List String → Except String Unit
  | [] => pure ()
  | pattern :: rest =>
    if 2048 < pattern.utf8ByteSize then throw s!"regex too long in {id}"
    else match go.compile pattern with
      | .error err => throw s!"invalid regex in {id}: {err}"
      | .ok _ => validateRegexps go id rest

/-- Keywords are of some length. -/
def validateKeywords (id : String) : List String → Except String Unit
  | [] => pure ()
  | pattern :: rest =>
    if pattern = "" ∨ 253 < pattern.utf8ByteSize then throw s!"invalid keyword in {id}"
    else validateKeywords id rest

/-- Count the rules and the slow ones while checking site after site. -/
def validateSites (go : Runtime) :
    List Definition → List String → ℕ → ℕ → Except String (ℕ × ℕ)
  | [], _, total, slow => pure (total, slow)
  | site :: sites, seen, total, slow =>
    if site.id = "" ∨ site.id ∈ seen then throw "invalid or duplicate site ID"
    else do
      validateDomains go site.id (site.domains ++ site.full)
      validateRegexps go site.id site.regexps
      validateKeywords site.id site.keywords
      validateSites go sites (site.id :: seen)
        (total + (site.domains.length + site.full.length + site.keywords.length
          + site.regexps.length))
        (slow + (site.keywords.length + site.regexps.length))

/-- Whether sites make a catalog. -/
def validateDefinitions (go : Runtime) (sites : List Definition) : Except String Unit :=
  if 64 < sites.length then throw "site catalog exceeds 64 categories"
  else do
    let (total, slow) ← validateSites go sites [] 0 0
    if 20000 < total ∨ 64 < slow then
      throw s!"site rule budget exceeded: {total} rules, {slow} slow rules"
    else pure ()

/-! ### Compiling -/

/-- A site that has matched, with its place in the list; no site is the empty id. -/
structure SiteMatch where
  site : String
  priority : ℕ

def SiteMatch.none : SiteMatch := ⟨"", 0⟩

abbrev SuffixNode := Trie String SiteMatch

/-- The labels of a domain as they are cut off behind its last dot, one after the other. -/
def labels (domain : String) : List String := (Text.split domain '.').reverse

/-- The first definition to claim a node keeps it. -/
def claim (found : SiteMatch) (node : SiteMatch) : SiteMatch :=
  if node.site = "" then found else node

/-- The domains of all sites. -/
def compileSuffixes (sites : List Definition) : SuffixNode :=
  sites.zipIdx.foldl (fun root entry =>
    entry.1.domains.foldl (fun root suffix =>
      root.update .none (claim ⟨entry.1.id, entry.2⟩) (labels suffix)) root) (Trie.empty .none)

/-- A rule tried after the domains. -/
structure FallbackRule where
  found : SiteMatch
  keyword : String
  regex : Option (String → Bool)

/-- The catalog, ready to be asked. -/
structure CompiledCatalog where
  suffix : SuffixNode
  full : List (String × SiteMatch)
  fallback : List FallbackRule

/-- The full domains of all sites. -/
def compileFull (sites : List Definition) : List (String × SiteMatch) :=
  sites.zipIdx.foldl (fun full entry =>
    entry.1.full.foldl (fun full domain =>
      if (full.lookup domain).isSome then full else full ++ [(domain, ⟨entry.1.id, entry.2⟩)])
      full) []

/-- `regexp.MustCompile`, which panics on a pattern that does not compile. -/
def mustCompile (go : Runtime) (pattern : String) : Option (String → Bool) :=
  (go.compile pattern).toOption

/-- The slow rules of a site. -/
def siteFallback (go : Runtime) (site : Definition) (priority : ℕ) : List FallbackRule :=
  (site.keywords.map fun keyword => ⟨⟨site.id, priority⟩, keyword, none⟩)
    ++ site.regexps.map fun pattern => ⟨⟨site.id, priority⟩, "", mustCompile go pattern⟩

/-- `none` is the panic of an invalid catalog. -/
def compileDefinitions (go : Runtime) (sites : List Definition) : Option CompiledCatalog :=
  match validateDefinitions go sites with
  | .error _ => none
  | .ok _ => some {
      suffix := compileSuffixes sites
      full := compileFull sites
      fallback := sites.zipIdx.flatMap fun entry => siteFallback go entry.1 entry.2 }

/-! ### Matching -/

/-- Walk down the labels, keeping the best site on the way. -/
def walk : SuffixNode → SiteMatch → List String → SiteMatch
  | _, best, [] => best
  | node, best, label :: rest =>
    match node.child? label with
    | none => best
    | some child =>
      let found := child.value
      if found.site ≠ "" ∧ (best.site = "" ∨ found.priority < best.priority) then
        if found.priority = 0 then found else walk child found rest
      else walk child best rest

def lookup (root : SuffixNode) (domain : String) : SiteMatch := walk root .none (labels domain)

/-- The rule takes the domain. -/
def FallbackRule.matches (rule : FallbackRule) (domain : String) : Bool :=
  (rule.regex.any fun matchString => matchString domain)
    || (rule.keyword != "" && Text.contains domain rule.keyword)

/-- The rules before the best. -/
def scan (domain : String) : List FallbackRule → SiteMatch → SiteMatch
  | [], best => best
  | rule :: rules, best =>
    if best.site ≠ "" ∧ best.priority ≤ rule.found.priority then best
    else if rule.matches domain then rule.found
    else scan domain rules best

/-- The better of two. -/
def withFull (full : Option SiteMatch) (best : SiteMatch) : SiteMatch :=
  match full with
  | some found => if best.site = "" ∨ found.priority < best.priority then found else best
  | none => best

/-- The site of a domain. -/
def CompiledCatalog.matchSite (c : CompiledCatalog) (domain : String) : String :=
  let best := scan domain c.fallback (withFull (c.full.lookup domain) (lookup c.suffix domain))
  if best.site = "" then "other" else best.site

/-- The site of a request. -/
def classify (go : Runtime) (overrides classifier : CompiledCatalog) (name : String)
    (sniffEnabled : Bool) : String :=
  let domain := go.toLower (trimSuffix name ".")
  if domain = "" then if sniffEnabled then "sniffing-failed" else "unidentified"
  else if overrides.matchSite domain ≠ "other" then overrides.matchSite domain
  else classifier.matchSite domain

/-! ### The list read from its front -/

/-- A suffix of the domain at a label boundary. -/
def hasSuffix (domain suffix : String) : Bool :=
  domain == suffix || Text.endsWith domain ("." ++ suffix)

/-- A rule of the site takes the domain. -/
def Definition.matches (go : Runtime) (domain : String) (site : Definition) : Bool :=
  site.domains.any (hasSuffix domain) || site.full.any (domain == ·)
    || site.keywords.any (Text.contains domain)
    || site.regexps.any fun pattern => (mustCompile go pattern).any fun matchString => matchString domain

/-- The first definition with a rule for the domain. -/
def firstMatch (go : Runtime) (sites : List Definition) (domain : String) : Option Definition :=
  sites.find? (Definition.matches go domain)

end Brocade.SiteUsage
