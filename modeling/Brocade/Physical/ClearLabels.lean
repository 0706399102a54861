/-
Where the labels of a machine are clear.

Users and ingresses are named by slugs, so their accounts never meet; what is left are ingresses of
one name in two projects, and the labels of relays.  They may have the shape of a user's, repeat a
probe's, or be those of two listeners at once, and publishing does not ask.
-/
import Brocade.Physical.Accounts
import Brocade.Physical.Loopback

namespace Brocade.Physical

open Ir Model
open Budget (parseGrantLabel)
open Usage (isProbeLabel)

/-- Labels tell accounts apart, and users and probes from the rest: a user's is read back and
budgeted, a probe's is known as such, and whoever is no user is neither read nor budgeted. -/
structure LabelsClear (accounts : List Account) : Prop where
  apart : ∀ a ∈ accounts, ∀ b ∈ accounts, a.label = b.label → a.identity = b.identity
  users : ∀ a ∈ accounts, ∀ tenant user ingress, a.identity = .user tenant user ingress →
    parseGrantLabel a.label = some (user, tenant, ingress) ∧ isProbeLabel a.label = false ∧
      budgetSource false (some (a.tag, some a.label)) = a.label
  others : ∀ a ∈ accounts, a.identity.isUser = false →
    parseGrantLabel a.label = none ∧ budgetSource false (some (a.tag, some a.label)) = ""
  probes : ∀ a ∈ accounts, a.identity.isProbe = true → isProbeLabel a.label = true

/-- No two projects open ingresses of one name, and the labels of relays are no users', no probes'
and no other listener's. -/
structure RelaysClear (systemNode : Option SystemNode) (apps : List AppIr) (nodeId : String) :
    Prop where
  ingresses : ∀ i ∈ openIngresses apps nodeId, ∀ j ∈ openIngresses apps nodeId, i.2 = j.2 → i = j
  shape : ∀ r ∈ openRelays systemNode apps nodeId, ¬ ('@' ∈ r.label.toList ∧ '#' ∈ r.label.toList)
  probes : ∀ r ∈ openRelays systemNode apps nodeId, ∀ i ∈ openIngresses apps nodeId,
    ∀ role ∈ none :: probeRoles.map some, r.label ≠ roleLabel (probeLabel i.2) role
  roles : ∀ r ∈ openRelays systemNode apps nodeId, ∀ s ∈ openRelays systemNode apps nodeId,
    s.probed = true → ∀ role ∈ probeRoles, r.label ≠ probeTransportLabel s.label role
  apart : ∀ r ∈ openRelays systemNode apps nodeId, ∀ s ∈ openRelays systemNode apps nodeId,
    r.label = s.label → r.chain = s.chain ∧ r.node = s.node

/-- What a set of projects owes to the compiler and its checks. -/
structure UsersNamed (apps : List AppIr) : Prop where
  label : ∀ app ∈ apps, ∀ grant ∈ app.grants,
    grant.label = grantLabel grant.user grant.tenant grant.ingress
  user : ∀ app ∈ apps, ∀ user ∈ app.users,
    isValidSlug user.id = true ∧ isValidTenant user.tenant = true
  ingress : ∀ app ∈ apps, ∀ ingress ∈ app.ingresses, isValidSlug ingress.id = true

theorem probeRoles_plain {role : String} (h : role ∈ probeRoles) :
    '@' ∉ role.toList ∧ ':' ∉ role.toList := by
  have hall : ∀ role ∈ probeRoles, '@' ∉ role.toList ∧ ':' ∉ role.toList := by decide
  exact hall role h

theorem mem_roles {role : Option String} :
    role ∈ none :: probeRoles.map some ↔ ∀ x, role = some x → x ∈ probeRoles := by
  cases role with
  | none => simp
  | some r => simp

section Clear

variable {probeUuid : String → String → String} {systemNode : Option SystemNode}
  {apps : List AppIr} {nodeId : String}

variable {label : String} {i : Option String × String} {role role' : Option String}

section

variable (h : UsersNamed apps)

include h

theorem user_label {tenant user ingress : String}
    (howned : Owned systemNode apps nodeId (.user tenant user ingress) label) :
    label = grantLabel user tenant ingress ∧ isValidSlug user = true ∧
      parseGrantLabel label = some (user, tenant, ingress) := by
  cases howned with
  | user happ hgrant huser hingress =>
    obtain ⟨user, huser, htenant, hid⟩ := huser
    obtain ⟨ingress, hin, hname⟩ := hingress
    obtain ⟨hslug, hvalid⟩ := h.user _ happ user huser
    rw [hid] at hslug
    rw [htenant] at hvalid
    have hingress := h.ingress _ happ ingress hin
    rw [hname] at hingress
    rw [h.label _ happ _ hgrant]
    exact ⟨rfl, hslug, parseGrantLabel_grantLabel hslug hvalid hingress⟩

theorem openIngresses_slug (hi : i ∈ openIngresses apps nodeId) : isValidSlug i.2 = true := by
  obtain ⟨app, happ, ingress, hin, -, -, rfl⟩ := mem_openIngresses.mp hi
  exact h.ingress app happ ingress hin

theorem other_label (hclear : RelaysClear systemNode apps nodeId) {identity : Identity}
    (howned : Owned systemNode apps nodeId identity label) (hother : identity.isUser = false) :
    ¬ ('@' ∈ label.toList ∧ '#' ∈ label.toList) := by
  cases howned with
  | user happ hgrant huser hingress => cases hother
  | @ingress i hi role hrole =>
    intro hboth
    cases role with
    | none =>
      exact not_mem_probeLabel (not_mem_slug (openIngresses_slug h hi) (by decide)) hboth.1
    | some x => exact not_mem_transport (probeRoles_plain (hrole x rfl)).1 hboth.1
  | @relay r hr role hrole =>
    cases role with
    | none => exact hclear.shape r hr
    | some x =>
      intro hboth
      exact not_mem_transport (probeRoles_plain (hrole x rfl).2).1 hboth.1

theorem probe_label {identity : Identity} (howned : Owned systemNode apps nodeId identity label)
    (hprobe : identity.isProbe = true) : isProbeLabel label = true := by
  have htransport : ∀ base role, isProbeLabel (probeTransportLabel base role) = true := by
    intro base role
    show isProbeLabel ("probe#" ++ role ++ ":" ++ _) = true
    rw [String.append_assoc, String.append_assoc]
    refine isProbeLabel_append fun hnone => ?_
    have hcolon := congrArg (fun label : String => ':' ∈ label.toList) hnone
    simp at hcolon
  cases howned with
  | user => cases hprobe
  | @ingress i hi role hrole =>
    cases role with
    | none => exact isProbeLabel_append (slug_ne_empty (openIngresses_slug h hi))
    | some role => exact htransport _ role
  | relay hr role hrole =>
    cases role with
    | none => cases hprobe
    | some role => exact htransport _ role

/-- The labels of a base are told apart by their roles, of two bases if the one is named plainly. -/
theorem roleLabel_ingress {j : Option String × String} (hi : i ∈ openIngresses apps nodeId)
    (hj : j ∈ openIngresses apps nodeId) (hrole : ∀ r, role = some r → r ∈ probeRoles)
    (hrole' : ∀ r, role' = some r → r ∈ probeRoles)
    (hlabel : roleLabel (probeLabel i.2) role = roleLabel (probeLabel j.2) role') :
    i.2 = j.2 ∧ role = role' := by
  have hplain : ∀ {k : Option String × String}, k ∈ openIngresses apps nodeId → ':' ∉ k.2.toList :=
    fun hk => not_mem_slug (openIngresses_slug h hk) (by decide)
  cases role with
  | none =>
    cases role' with
    | none => exact ⟨probeLabel_injective hlabel, rfl⟩
    | some x => exact absurd hlabel (probeLabel_ne_transport (hplain hi))
  | some x =>
    cases role' with
    | none => exact absurd hlabel.symm (probeLabel_ne_transport (hplain hj))
    | some y =>
      obtain ⟨hxy, hbase⟩ := probeTransportLabel_injective (probeRoles_plain (hrole x rfl)).2
        (probeRoles_plain (hrole' y rfl)).2 hlabel
      exact ⟨probeLabel_injective hbase, congrArg some hxy⟩

theorem ingress_ne_relay (hclear : RelaysClear systemNode apps nodeId)
    (hi : i ∈ openIngresses apps nodeId) {r : Relay} (hr : r ∈ openRelays systemNode apps nodeId)
    (hrole : ∀ x, role = some x → x ∈ probeRoles)
    (hrole' : ∀ x, role' = some x → r.probed = true ∧ x ∈ probeRoles) :
    roleLabel (probeLabel i.2) role ≠ roleLabel r.label role' := by
  intro hlabel
  cases role' with
  | none => exact hclear.probes r hr i hi role (mem_roles.mpr hrole) hlabel.symm
  | some x =>
    cases role with
    | none =>
      exact probeLabel_ne_transport (not_mem_slug (openIngresses_slug h hi) (by decide)) hlabel
    | some y =>
      obtain ⟨-, hbase⟩ := probeTransportLabel_injective (probeRoles_plain (hrole y rfl)).2
        (probeRoles_plain (hrole' x rfl).2).2 hlabel
      exact hclear.probes r hr i hi none List.mem_cons_self hbase.symm

end

theorem relay_unique (hclear : RelaysClear systemNode apps nodeId) {r s : Relay}
    (hr : r ∈ openRelays systemNode apps nodeId) (hs : s ∈ openRelays systemNode apps nodeId)
    (hrole : ∀ x, role = some x → r.probed = true ∧ x ∈ probeRoles)
    (hrole' : ∀ x, role' = some x → s.probed = true ∧ x ∈ probeRoles)
    (hlabel : roleLabel r.label role = roleLabel s.label role') :
    Identity.relay r.chain r.node role = .relay s.chain s.node role' := by
  have hsame : r.label = s.label ∧ role = role' := by
    cases role with
    | none =>
      cases role' with
      | none => exact ⟨hlabel, rfl⟩
      | some x =>
        obtain ⟨hprobed, hx⟩ := hrole' x rfl
        exact absurd hlabel (hclear.roles r hr s hs hprobed x hx)
    | some x =>
      obtain ⟨hprobed, hx⟩ := hrole x rfl
      cases role' with
      | none => exact absurd hlabel.symm (hclear.roles s hs r hr hprobed x hx)
      | some y =>
        obtain ⟨hxy, hbase⟩ := probeTransportLabel_injective (probeRoles_plain hx).2
          (probeRoles_plain (hrole' y rfl).2).2 hlabel
        exact ⟨hbase, congrArg some hxy⟩
  obtain ⟨hchain, hnode⟩ := hclear.apart r hr s hs hsame.1
  rw [hchain, hnode, hsame.2]

theorem user_ne_other (h : UsersNamed apps) (hclear : RelaysClear systemNode apps nodeId)
    {tenant user ingress label' : String} {other : Identity}
    (huser : Owned systemNode apps nodeId (.user tenant user ingress) label)
    (hother : Owned systemNode apps nodeId other label') (hkind : other.isUser = false) :
    label ≠ label' := by
  rintro rfl
  refine other_label h hclear hother hkind (mem_of_parseGrantLabel ?_)
  rw [(user_label h huser).2.2]
  rfl

/-- **Owners of one label are one.** -/
theorem owned_unique (h : UsersNamed apps) (hclear : RelaysClear systemNode apps nodeId)
    {identity other : Identity} {label' : String} (ha : Owned systemNode apps nodeId identity label)
    (hb : Owned systemNode apps nodeId other label') (hlabel : label = label') :
    identity = other := by
  cases ha with
  | user happ hgrant huser hingress =>
    have hfirst : Owned systemNode apps nodeId _ _ := .user happ hgrant huser hingress
    cases hb with
    | user happ' hgrant' huser' hingress' =>
      have hsecond : Owned systemNode apps nodeId _ _ := .user happ' hgrant' huser' hingress'
      have hread := (user_label h hfirst).2.2
      rw [hlabel, (user_label h hsecond).2.2] at hread
      simp only [Option.some.injEq, Prod.mk.injEq] at hread
      obtain ⟨hname, htenant, hat⟩ := hread
      rw [hname, htenant, hat]
    | ingress hi role hrole =>
      exact absurd hlabel (user_ne_other h hclear hfirst (.ingress hi role hrole) rfl)
    | relay hr role hrole =>
      exact absurd hlabel (user_ne_other h hclear hfirst (.relay hr role hrole) rfl)
  | @ingress i hi role hrole =>
    cases hb with
    | user happ' hgrant' huser' hingress' =>
      exact absurd hlabel.symm (user_ne_other h hclear (.user happ' hgrant' huser' hingress')
        (.ingress hi role hrole) rfl)
    | @ingress j hj role' hrole' =>
      obtain ⟨hid, hsame⟩ := roleLabel_ingress h hi hj hrole hrole' hlabel
      rw [hclear.ingresses i hi j hj hid, hsame]
    | relay hr role' hrole' => exact absurd hlabel (ingress_ne_relay h hclear hi hr hrole hrole')
  | @relay r hr role hrole =>
    cases hb with
    | user happ' hgrant' huser' hingress' =>
      exact absurd hlabel.symm (user_ne_other h hclear (.user happ' hgrant' huser' hingress')
        (.relay hr role hrole) rfl)
    | ingress hi role' hrole' =>
      exact absurd hlabel.symm (ingress_ne_relay h hclear hi hr hrole' hrole)
    | relay hs role' hrole' => exact relay_unique hclear hr hs hrole hrole' hlabel

theorem inbound_tag {tag rest : String} (h : tag = "in:" ++ rest) :
    tag ≠ "api" ∧ Text.startsWith tag "fwd:" = false := by
  subst h
  constructor
  · intro heq
    have hlist := congrArg String.toList heq
    rw [String.toList_append] at hlist
    have hfirst := congrArg List.head? hlist
    exact absurd hfirst (by simp)
  · unfold Text.startsWith
    rw [String.toList_append]
    rfl

/-- **The labels of a machine are clear exactly where those of its relays are.** -/
theorem labelsClear_machine (h : UsersNamed apps) :
    LabelsClear (machineAccounts probeUuid systemNode apps nodeId)
      ↔ RelaysClear systemNode apps nodeId := by
  constructor
  · intro hclear
    have hbase : ∀ r ∈ openRelays systemNode apps nodeId, ∃ account ∈
        machineAccounts probeUuid systemNode apps nodeId,
        account.identity = .relay r.chain r.node none ∧ account.label = r.label :=
      fun r hr => exists_relay_account hr fun x hx => by cases hx
    have hopen : ∀ i ∈ openIngresses apps nodeId, ∀ role : Option String,
        (∀ r, role = some r → r ∈ probeRoles) →
          ∃ account ∈ machineAccounts probeUuid systemNode apps nodeId,
            account.identity = .ingress i.1 i.2 role ∧
              account.label = roleLabel (probeLabel i.2) role :=
      fun i hi role hrole => exists_ingress_account hi hrole
    have hprobe : ∀ s ∈ openRelays systemNode apps nodeId, s.probed = true → ∀ role ∈ probeRoles,
        ∃ account ∈ machineAccounts probeUuid systemNode apps nodeId,
          account.identity = .relay s.chain s.node (some role) ∧
            account.label = roleLabel s.label (some role) :=
      fun s hs hprobed role hrole => exists_relay_account hs fun x hx => by
        cases hx
        exact ⟨hprobed, hrole⟩
    refine ⟨fun i hi j hj hid => ?_, fun r hr hboth => ?_, fun r hr i hi role hrole hlabel => ?_,
      fun r hr s hs hprobed role hrole hlabel => ?_, fun r hr s hs hlabel => ?_⟩
    · obtain ⟨a, ha, hidentity, hlabel⟩ := hopen i hi none fun x hx => by cases hx
      obtain ⟨b, hb, hidentity', hlabel'⟩ := hopen j hj none fun x hx => by cases hx
      have hsame := hclear.apart a ha b hb (by rw [hlabel, hlabel', hid])
      rw [hidentity, hidentity'] at hsame
      injection hsame with happ hid'
      exact Prod.ext happ hid'
    · obtain ⟨a, ha, hidentity, hlabel⟩ := hbase r hr
      obtain ⟨rest, htag⟩ := (machineAccounts_owned ha).2
      have hsource := (hclear.others a ha (by rw [hidentity]; rfl)).2
      rw [budgetSource_eq (inbound_tag htag).1 (inbound_tag htag).2, hlabel, if_pos hboth] at hsource
      rw [hsource] at hboth
      exact absurd hboth.1 (by simp)
    · obtain ⟨a, ha, hidentity, hlabel'⟩ := hbase r hr
      obtain ⟨b, hb, hidentity', hlabel''⟩ := hopen i hi role (mem_roles.mp hrole)
      have hsame := hclear.apart a ha b hb (by rw [hlabel', hlabel'', hlabel])
      rw [hidentity, hidentity'] at hsame
      cases hsame
    · obtain ⟨a, ha, hidentity, hlabel'⟩ := hbase r hr
      obtain ⟨b, hb, hidentity', hlabel''⟩ := hprobe s hs hprobed role hrole
      have hsame := hclear.apart a ha b hb (by rw [hlabel', hlabel'', hlabel]; rfl)
      rw [hidentity, hidentity'] at hsame
      injection hsame with _ _ hnone
      cases hnone
    · obtain ⟨a, ha, hidentity, hlabel'⟩ := hbase r hr
      obtain ⟨b, hb, hidentity', hlabel''⟩ := hbase s hs
      have hsame := hclear.apart a ha b hb (by rw [hlabel', hlabel'', hlabel])
      rw [hidentity, hidentity'] at hsame
      injection hsame with hchain hnode
      exact ⟨hchain, hnode⟩
  · intro hclear
    refine ⟨fun a ha b hb hlabel => owned_unique h hclear (machineAccounts_owned ha).1
      (machineAccounts_owned hb).1 hlabel, fun a ha tenant user ingress hidentity => ?_,
      fun a ha hother => ?_, fun a ha => probe_label h (machineAccounts_owned ha).1⟩
    · obtain ⟨howned, rest, htag⟩ := machineAccounts_owned ha
      rw [hidentity] at howned
      obtain ⟨hlabel, hslug, hread⟩ := user_label h howned
      have hsome : (parseGrantLabel a.label).isSome = true := by
        rw [hread]
        rfl
      have hboth := mem_of_parseGrantLabel hsome
      refine ⟨hread, hlabel ▸ isProbeLabel_grantLabel hslug, ?_⟩
      rw [budgetSource_eq (inbound_tag htag).1 (inbound_tag htag).2, if_pos hboth]
    · obtain ⟨howned, rest, htag⟩ := machineAccounts_owned ha
      have hnot := other_label h hclear howned hother
      constructor
      · rw [← Option.not_isSome_iff_eq_none]
        exact fun hread => hnot (mem_of_parseGrantLabel hread)
      · rw [budgetSource_eq (inbound_tag htag).1 (inbound_tag htag).2, if_neg hnot]

end Clear

/-! ### Publishable snapshots -/

theorem compileGrants_label {doc : ModelSnapshot} {app : AppView} {live : List Ir.Ingress}
    {grant : Ir.Grant} (h : grant ∈ (compileGrants doc app live).1) :
    grant.label = grantLabel grant.user grant.tenant grant.ingress := by
  obtain ⟨seen, source, hmade⟩ := compileGrant_of_mem h
  exact (compileGrant_some hmade).2

theorem usersNamed_of_publishable {checks : Checks} {doc : ModelSnapshot}
    (h : (compile checks doc).ensurePublishable = true) : UsersNamed (compile checks doc).apps where
  label app happ grant hgrant := by
    obtain ⟨view, -, rfl⟩ := mem_compile_apps happ
    have hcompiled : grant ∈ (compileGrants doc view
        ((view.ingresses.filter (isLiveIngress doc view)).map (compileIngress doc view))).1 :=
      (List.perm_insertionSort _ _).mem_iff.mp hgrant
    exact compileGrants_label hcompiled
  user app happ user huser := by
    have hslugs : Clean (validateSlugs app) := fun diagnostic hd =>
      clean_app h happ diagnostic (by simp [validateApp, hd])
    simp only [validateSlugs, clean_append, clean_flatMap, validateSlug, clean_errorIf] at hslugs
    have hof := hslugs.1.1.1.2 user huser
    refine ⟨by simpa using hof.1, List.all_eq_true.mpr fun segment hsegment => ?_⟩
    have htenant := hof.2
    simp only [validateTenantSlugs, clean_flatMap, validateSlug, clean_errorIf] at htenant
    simpa using htenant segment hsegment
  ingress := (named_of_publishable h).ingressSlug

/-- **A user's label is read back, a probe's is of one role and base, and the labels of a machine
of a publishable snapshot are clear exactly where its relays' are.** -/
theorem labels_clear_iff (probeUuid : String → String → String) (checks : Checks)
    (doc : ModelSnapshot) (nodeId : String) :
    (∀ user tenant ingress, isValidSlug user = true → isValidTenant tenant = true →
      isValidSlug ingress = true →
        parseGrantLabel (grantLabel user tenant ingress) = some (user, tenant, ingress)) ∧
    (∀ base base' role role', ':' ∉ role.toList → ':' ∉ role'.toList →
      probeTransportLabel base role = probeTransportLabel base' role' →
        role = role' ∧ base = base') ∧
    ((compile checks doc).ensurePublishable = true → (LabelsClear (machineAccounts probeUuid
          ((compile checks doc).system.nodes.find? (·.id = nodeId)) (compile checks doc).apps nodeId)
        ↔ RelaysClear ((compile checks doc).system.nodes.find? (·.id = nodeId))
          (compile checks doc).apps nodeId)) := by
  refine ⟨fun user tenant ingress huser htenant hingress => ?_, fun base base' role role' h h' heq => ?_,
    fun h => ?_⟩
  · exact parseGrantLabel_grantLabel huser htenant hingress
  · exact probeTransportLabel_injective h h' heq
  · exact labelsClear_machine (usersNamed_of_publishable h)

/-- Beside a user of the ingress `near`, the machine `jp` takes the relays of `main` under a
label. -/
def labelledRelay (label : String) : ModelSnapshot :=
  { plainSnapshot [plainNode "jp" "198.51.100.1", plainNode "sg" "198.51.100.2"]
      [plainApp "web" [⟨"main", "acme", "main", none⟩] [plainIngress "front" "main" "sg"]
        [⟨"main", "sg", none, none, [⟨.any, .forward "jp" (.addr "198.51.100.1:2000") .none⟩]⟩,
          { relayStep "main" "jp" [⟨.any, .egress none⟩] with accept := some ⟨"uuid", label⟩ }],
        { plainApp "tools" [⟨"side", "acme", "side", none⟩] [plainIngress "near" "side" "jp"]
            [⟨"side", "jp", none, none, [⟨.any, .egress none⟩]⟩] with
          grants := [⟨"acme", "alice", "near"⟩] }] with
    users := [⟨"alice", "acme", "uuid of alice"⟩] }

def relaysOn (output : CompileOutput) (node : String) : List Relay :=
  openRelays (output.system.nodes.find? (·.id = node)) output.apps node

/-- The accounts of a machine. -/
def accountsOn (output : CompileOutput) (node : String) : List Account :=
  machineAccounts (fun key name => key ++ "/" ++ name)
    (output.system.nodes.find? (·.id = node)) output.apps node

theorem labels_clear_plain :
    parseGrantLabel (grantLabel "alice" "acme.eu" "near") = some ("alice", "acme.eu", "near") ∧
    probeTransportLabel "main@jp" "dns" ≠ probeTransportLabel "main%40jp" "dns" ∧
    LabelsClear (accountsOn (compile silentChecks (labelledRelay "main@jp")) "jp") := by
  have hrelays : relaysOn (compile silentChecks (labelledRelay "main@jp")) "jp"
      = [⟨"main", "jp", "main@jp", true⟩] := by decide +kernel
  have hingresses : openIngresses (compile silentChecks (labelledRelay "main@jp")).apps "jp"
      = [(some "tools", "near")] := by decide +kernel
  have hclear : RelaysClear
      ((compile silentChecks (labelledRelay "main@jp")).system.nodes.find? (·.id = "jp"))
      (compile silentChecks (labelledRelay "main@jp")).apps "jp" := by
    unfold relaysOn at hrelays
    refine ⟨?_, ?_, ?_, ?_, ?_⟩
    · rw [hingresses]
      decide +kernel
    · rw [hrelays]
      decide +kernel
    · rw [hrelays, hingresses]
      decide +kernel
    · rw [hrelays]
      decide +kernel
    · rw [hrelays]
      decide +kernel
  obtain ⟨hround, hinjective, hlabels⟩ := labels_clear_iff
    (fun key name => key ++ "/" ++ name) silentChecks (labelledRelay "main@jp") "jp"
  refine ⟨?_, ?_, ?_⟩
  · exact hround "alice" "acme.eu" "near" (by decide) (by decide) (by decide)
  · intro heq
    have hbases := hinjective "main@jp" "main%40jp" "dns" "dns" (by decide) (by decide) heq
    exact absurd hbases.2 (by decide)
  · exact (hlabels (by decide +kernel)).mpr hclear

/-- **A relay labelled as the probe of an ingress, or as a user nobody granted, is published.** -/
theorem relay_label_repeated :
    ((compile silentChecks (labelledRelay "probe#near")).ensurePublishable = true ∧
      ∃ a ∈ accountsOn (compile silentChecks (labelledRelay "probe#near")) "jp",
        ∃ b ∈ accountsOn (compile silentChecks (labelledRelay "probe#near")) "jp",
          a.label = b.label ∧ a.identity = .ingress (some "tools") "near" none ∧
            b.identity = .relay "main" "jp" none) ∧
    (compile silentChecks (labelledRelay "bob@acme#near")).ensurePublishable = true ∧
      ∃ a ∈ accountsOn (compile silentChecks (labelledRelay "bob@acme#near")) "jp",
        a.identity = .relay "main" "jp" none ∧
          parseGrantLabel a.label = some ("bob", "acme", "near") ∧
          budgetSource false (some (a.tag, some a.label)) = "bob@acme#near" := by
  refine ⟨⟨by decide +kernel, ?_⟩, by decide +kernel, ?_⟩
  · decide +kernel
  · decide +kernel

end Brocade.Physical
