/-
The accounts of one machine: who may enter by each of its listeners.

An ingress listens once for every wire it speaks, and each listener keeps its own account
list, so an ingress contributes one update a wire.  All of an ingress's accounts, its own
probes included, carry the flow of its VLESS transport on the plain VLESS listener and no
flow anywhere else.

The tag of a listener spells its project, its ingress and its wire.  Names are slugs, which
have neither of the separators, so in a publishable snapshot no two listeners of a machine
share a tag (`grantSyncPlan_nodup`), and a tag determines the flow of every account under it
(`grantSyncPlan_flow`).
-/
import Brocade.Ir.Compile

namespace Brocade.Physical

open Ir Model

/-- An account, as it is synced. -/
structure GrantClientPlan where
  (uuid label : String)
  flow : Option String

/-- The accounts of one listener. -/
structure GrantInboundUpdatePlan where
  inboundTag : String
  clients : List GrantClientPlan

/-- The accounts of one machine. -/
structure GrantSyncPlan where
  nodeId : String
  updates : List GrantInboundUpdatePlan

/-! ### One machine's part of the projects -/

/-- The outbounds that rules hand traffic to. -/
def proxiedOutbounds (steps : List Ir.Step) : List String :=
  (steps.flatMap (·.rules)).filterMap fun rule => Action.proxied? rule.action

/-- The chains that touch a machine, one project at a time: those that enter or run there,
those a hop there belongs to, and those whose listener there some project's hop enters. -/
def scopedChains (apps : List AppIr) (app : AppIr) (nodeId : String) : List String :=
  let here := fun hop : Hop => hop.source = nodeId || hop.target = nodeId
  ((app.ingresses.filter (·.node = nodeId)).map (·.chain))
    ++ ((app.steps.filter (·.node = nodeId)).map (·.chain))
    ++ ((app.hops.filter here).flatMap fun hop => [hop.chain, hop.targetChain])
    ++ ((apps.flatMap (·.hops)).filter here).flatMap fun hop =>
      if app.steps.any fun step => step.node = nodeId
          && (step.chain = hop.chain || step.chain = hop.targetChain)
      then [hop.chain, hop.targetChain] else []

/-- A project, on one machine. -/
def scopeNodeApp (apps : List AppIr) (nodeId : String) (app : AppIr) : AppIr :=
  let ingresses := app.ingresses.filter (·.node = nodeId)
  let steps := app.steps.filter (·.node = nodeId)
  let chainIds := scopedChains apps app nodeId
  let grants := app.grants.filter fun grant => grant.ingress ∈ ingresses.map (·.id)
  let users := app.users.filter fun user => grants.any fun grant =>
    grant.tenant = user.tenant && grant.user = user.id
  let nodes := app.nodes.filter (·.id = nodeId)
  let chains := app.chains.filter fun chain => chain.id ∈ chainIds
  { revision := 0
    appId := app.appId
    tenants := OrdMap.keySet (nodes.map (·.tenant) ++ users.map (·.tenant) ++ chains.map (·.tenant)
      ++ ingresses.map (·.tenant) ++ grants.map (·.tenant))
    nodes := nodes
    users := users
    externalOutbounds := app.externalOutbounds.filter fun outbound =>
      outbound.id ∈ proxiedOutbounds steps
    chains := chains
    ingresses := ingresses
    fronts := []
    steps := steps
    listenerRoots := app.listenerRoots.filter fun root =>
      decide (root.1 ∈ chainIds) && root.2 = nodeId
    grants := grants
    hops := app.hops.filter fun hop => hop.source = nodeId || hop.target = nodeId }

/-- What of every project concerns one machine. -/
def scopeNodeApps (apps : List AppIr) (nodeId : String) : List AppIr :=
  apps.map (scopeNodeApp apps nodeId)

def sortedApps (apps : List AppIr) : List AppIr :=
  apps.insertionSort fun a b => a.appId.toList ≤ b.appId.toList

/-- The machine as the projects know it; none where it has no xray workload. -/
def xrayNode (apps : List AppIr) (nodeId : String) : Option AppNode :=
  ((sortedApps apps).flatMap (·.nodes)).find? (·.id = nodeId)

/-! ### Accounts -/

/-- The tag of an ingress. -/
def ingressTag (app : AppIr) (ingress : String) : String :=
  match app.appId with
  | some appId => s!"in:{appId}/{ingress}"
  | none => s!"in:{ingress}"

section Accounts

-- the identity derived from a key and a name
variable (probeUuid : String → String → String)

/-- Everyone who holds a grant, and the probes. -/
def ingressClients (app : AppIr) (ingress : Ir.Ingress) : List GrantClientPlan :=
  let flow := ingress.wires.flow
  let base := probeUuid ingress.identity.privateKey ingress.id
  let label := probeLabel ingress.id
  sortById (·.label)
    (((app.grants.filter (·.ingress = ingress.id)).filterMap fun grant =>
        (app.users.find? fun user => user.tenant = grant.tenant && user.id = grant.user).map
          fun user => ⟨user.uuid, grant.label, flow⟩)
      ++ [⟨base, label, flow⟩, ⟨probeUuid base "dns", probeDnsLabel label, flow⟩]
      ++ [IpFamily.v4, .v6].map fun family =>
        ⟨probeUuid base (probeFamilyKey family), probeFamilyLabel label family, flow⟩)

def withoutFlow (clients : List GrantClientPlan) : List GrantClientPlan :=
  clients.map fun client => { client with flow := none }

/-- One update a listener. -/
def ingressUpdates (app : AppIr) (ingress : Ir.Ingress) : List GrantInboundUpdatePlan :=
  let clients := ingressClients probeUuid app ingress
  let tag := ingressTag app ingress.id
  (if ingress.wires.vless.isSome then [⟨tag, clients⟩] else [])
    ++ (if ingress.wires.vlessEncryption.isSome then
      [⟨s!"{tag}:vless-encryption", withoutFlow clients⟩] else [])
    ++ (if ingress.wires.anytls.isSome then [⟨s!"{tag}:anytls", withoutFlow clients⟩] else [])
    ++ (if ingress.wires.hasUdp then [⟨s!"{tag}:hy2", withoutFlow clients⟩] else [])
    ++ (if ingress.wires.mtproto.isSome then [⟨s!"{tag}:mtproto", withoutFlow clients⟩] else [])

/-- The accounts to be synced. -/
def grantSyncPlan (apps : List AppIr) (nodeId : String) : GrantSyncPlan where
  nodeId := nodeId
  updates := sortById (·.inboundTag) ((sortedApps apps).flatMap fun app =>
    (app.ingresses.filter (·.node = nodeId)).flatMap (ingressUpdates probeUuid app))

end Accounts

/-! ### Tags -/

/-- What a set of projects owes to the checks: named apart, by slugs. -/
structure Named (apps : List AppIr) : Prop where
  appIds : (apps.map (·.appId)).Nodup
  slug : ∀ app ∈ apps, ∃ id, app.appId = some id ∧ isValidSlug id = true
  ingresses : ∀ app ∈ apps, (app.ingresses.map (·.id)).Nodup
  ingressSlug : ∀ app ∈ apps, ∀ ingress ∈ app.ingresses, isValidSlug ingress.id = true

/-- **A publishable snapshot names its projects and ingresses apart.** -/
theorem named_of_publishable {checks : Checks} {doc : ModelSnapshot}
    (h : (compile checks doc).ensurePublishable = true) : Named (compile checks doc).apps where
  appIds := nodup_appIds h
  slug app happ := by
    obtain ⟨view, -, hview⟩ : ∃ view ∈ doc.apps, some view.id = app.appId := by
      have hmem : app.appId ∈ (compile checks doc).apps.map (·.appId) := List.mem_map_of_mem happ
      rw [compile_appIds] at hmem
      exact List.mem_map.mp hmem
    have hslugs : Clean (validateSlugs app) := fun diagnostic hd =>
      clean_app h happ diagnostic (by simp [validateApp, hd])
    simp only [validateSlugs, clean_append, ← hview, Option.toList_some, clean_flatMap,
      validateSlug, clean_errorIf] at hslugs
    exact ⟨view.id, hview.symm, by simpa using hslugs.1.1.1.1.1 view.id (by simp)⟩
  ingresses app happ := by
    have hids : Clean (validateUniqueIds app) := fun diagnostic hd =>
      clean_app h happ diagnostic (by simp [validateApp, hd])
    simp only [validateUniqueIds, clean_append] at hids
    exact nodup_of_clean_uniqueBy hids.1.1.1.1.1.2
  ingressSlug app happ ingress hingress := by
    have hslugs : Clean (validateSlugs app) := fun diagnostic hd =>
      clean_app h happ diagnostic (by simp [validateApp, hd])
    simp only [validateSlugs, clean_append, clean_flatMap, validateSlug, clean_errorIf] at hslugs
    simpa using hslugs.1.2 ingress hingress

theorem Named.scope {apps : List AppIr} (h : Named apps) (nodeId : String) :
    Named (scopeNodeApps apps nodeId) where
  appIds := by
    have hids : (scopeNodeApps apps nodeId).map (·.appId) = apps.map (·.appId) := by
      simp [scopeNodeApps, scopeNodeApp, Function.comp_def]
    rw [hids]
    exact h.appIds
  slug app happ := by
    obtain ⟨whole, hwhole, rfl⟩ := List.mem_map.mp happ
    exact h.slug whole hwhole
  ingresses app happ := by
    obtain ⟨whole, hwhole, rfl⟩ := List.mem_map.mp happ
    exact (h.ingresses whole hwhole).sublist (List.filter_sublist.map _)
  ingressSlug app happ ingress hingress := by
    obtain ⟨whole, hwhole, rfl⟩ := List.mem_map.mp happ
    exact h.ingressSlug whole hwhole ingress (List.mem_of_mem_filter hingress)

theorem not_mem_slug {value : String} (h : isValidSlug value = true) {c : Char}
    (hc : slugChar c = false) : c ∉ value.toList := by
  intro hmem
  simp only [isValidSlug, Bool.and_eq_true, List.all_eq_true] at h
  have hslug := h.2 c hmem
  rw [hc] at hslug
  cases hslug

/-- The project, the ingress and the wire of a listener. -/
structure ListenerName where
  (app ingress wire : String)

def ListenerName.tag (name : ListenerName) : String :=
  s!"in:{name.app}/{name.ingress}" ++ name.wire

/-- Spelled from slugs, and a wire behind a colon. -/
structure ListenerName.WellFormed (name : ListenerName) : Prop where
  app : isValidSlug name.app = true
  ingress : isValidSlug name.ingress = true
  wire : name.wire = "" ∨ ∃ kind, name.wire = ":" ++ kind

/-- **A tag spells one name only.** -/
theorem ListenerName.tag_injective {a b : ListenerName} (ha : a.WellFormed) (hb : b.WellFormed)
    (h : a.tag = b.tag) : a = b := by
  have hcolon : ∀ {name : ListenerName}, name.WellFormed →
      ':' ∉ name.app.toList ++ '/' :: name.ingress.toList := by
    intro name hname hmem
    rcases List.mem_append.mp hmem with hmem | hmem
    · exact not_mem_slug hname.app (by decide) hmem
    · rcases List.mem_cons.mp hmem with hslash | hmem
      · exact absurd hslash (by decide)
      · exact not_mem_slug hname.ingress (by decide) hmem
  have hspell : ∀ {name : ListenerName}, name.WellFormed → ∃ rest,
      name.tag.toList ++ [':'] = "in:".toList
          ++ ((name.app.toList ++ '/' :: name.ingress.toList) ++ ':' :: rest)
        ∧ name.wire.toList ++ [':'] = ':' :: rest := by
    intro name hname
    rcases hname.wire with hnone | ⟨kind, hkind⟩
    · exact ⟨[], by simp [ListenerName.tag, hnone, toString], by simp [hnone]⟩
    · exact ⟨kind.toList ++ [':'], by simp [ListenerName.tag, hkind, toString], by simp [hkind]⟩
  obtain ⟨restA, htagA, hwireA⟩ := hspell ha
  obtain ⟨restB, htagB, hwireB⟩ := hspell hb
  rw [h, htagB] at htagA
  obtain ⟨hnames, hrest⟩ := Text.first_cut_unique (hcolon hb) (hcolon ha)
    (List.append_cancel_left htagA)
  obtain ⟨happ, hingress⟩ := Text.first_cut_unique (not_mem_slug hb.app (by decide))
    (not_mem_slug ha.app (by decide)) hnames
  have hwire : a.wire.toList = b.wire.toList := by
    have hboth : a.wire.toList ++ [':'] = b.wire.toList ++ [':'] := by rw [hwireA, hwireB, hrest]
    exact List.append_cancel_right hboth
  cases a
  cases b
  simp only [ListenerName.mk.injEq]
  exact ⟨String.toList_inj.mp happ.symm, String.toList_inj.mp hingress.symm,
    String.toList_inj.mp hwire⟩

/-! ### Listeners -/

/-- What the tags of an ingress end in, one for each wire it speaks. -/
def wireSuffixes (wires : IngressWires) : List String :=
  (if wires.vless.isSome then [""] else [])
    ++ (if wires.vlessEncryption.isSome then [":vless-encryption"] else [])
    ++ (if wires.anytls.isSome then [":anytls"] else [])
    ++ (if wires.hasUdp then [":hy2"] else [])
    ++ (if wires.mtproto.isSome then [":mtproto"] else [])

theorem wireSuffixes_nodup (wires : IngressWires) : (wireSuffixes wires).Nodup := by
  unfold wireSuffixes
  split_ifs <;> decide

theorem wireSuffixes_colon {wires : IngressWires} {wire : String}
    (h : wire ∈ wireSuffixes wires) : wire = "" ∨ ∃ kind, wire = ":" ++ kind := by
  have hall : wire ∈ ["", ":vless-encryption", ":anytls", ":hy2", ":mtproto"] := by
    unfold wireSuffixes at h
    split_ifs at h <;> simp at h ⊢ <;> tauto
  simp only [List.mem_cons, List.not_mem_nil, or_false] at hall
  rcases hall with rfl | rfl | rfl | rfl | rfl
  · exact .inl rfl
  · exact .inr ⟨"vless-encryption", rfl⟩
  · exact .inr ⟨"anytls", rfl⟩
  · exact .inr ⟨"hy2", rfl⟩
  · exact .inr ⟨"mtproto", rfl⟩

/-- The listeners of one ingress. -/
def ingressNames (appId : String) (ingress : Ir.Ingress) : List ListenerName :=
  (wireSuffixes ingress.wires).map fun wire => ⟨appId, ingress.id, wire⟩

section Listeners

variable {probeUuid : String → String → String} {apps : List AppIr} {nodeId : String}

theorem ingressUpdates_tags {app : AppIr} {appId : String} (h : app.appId = some appId)
    (ingress : Ir.Ingress) : (ingressUpdates probeUuid app ingress).map (·.inboundTag)
      = (ingressNames appId ingress).map ListenerName.tag := by
  have htag : ∀ wire, ListenerName.tag ⟨appId, ingress.id, wire⟩
      = ingressTag app ingress.id ++ wire := by
    intro wire
    rw [ingressTag, h]
    rfl
  simp only [ingressUpdates, ingressNames, wireSuffixes, List.map_map, Function.comp_def, htag]
  split_ifs <;> simp [toString]

/-- The listeners of a machine. -/
def machineNames (apps : List AppIr) (nodeId : String) : List ListenerName :=
  apps.flatMap fun app => (app.ingresses.filter (·.node = nodeId)).flatMap
    (ingressNames (app.appId.getD ""))

theorem machineNames_nodup (h : Named apps) : (machineNames apps nodeId).Nodup := by
  refine List.nodup_flatMap.mpr ⟨fun app happ => List.nodup_flatMap.mpr ⟨fun ingress _ => ?_, ?_⟩, ?_⟩
  · refine (wireSuffixes_nodup ingress.wires).map fun a b hab => ?_
    simpa using hab
  · have hids : ((app.ingresses.filter (·.node = nodeId)).map (·.id)).Nodup :=
      (h.ingresses app happ).sublist (List.filter_sublist.map _)
    refine (List.pairwise_map.mp hids).imp fun hne name ha hb => hne ?_
    obtain ⟨_, _, rfl⟩ := List.mem_map.mp ha
    obtain ⟨_, _, hname⟩ := List.mem_map.mp hb
    exact (congrArg ListenerName.ingress hname).symm
  · refine (List.pairwise_map.mp h.appIds).imp_of_mem fun happ hbpp hne name ha hb => hne ?_
    obtain ⟨_, _, hname⟩ := List.mem_flatMap.mp ha
    obtain ⟨_, _, rfl⟩ := List.mem_map.mp hname
    obtain ⟨_, _, hother⟩ := List.mem_flatMap.mp hb
    obtain ⟨_, _, hsame⟩ := List.mem_map.mp hother
    obtain ⟨a, hida, -⟩ := h.slug _ happ
    obtain ⟨b, hidb, -⟩ := h.slug _ hbpp
    have hid := congrArg ListenerName.app hsame
    simp only [hida, hidb, Option.getD_some] at hid ⊢
    rw [hid]

theorem wellFormed_of_mem (h : Named apps) {name : ListenerName}
    (hname : name ∈ machineNames apps nodeId) : name.WellFormed := by
  obtain ⟨app, happ, hname⟩ := List.mem_flatMap.mp hname
  obtain ⟨ingress, hingress, hname⟩ := List.mem_flatMap.mp hname
  obtain ⟨wire, hwire, rfl⟩ := List.mem_map.mp hname
  obtain ⟨id, hid, hslug⟩ := h.slug app happ
  exact ⟨by simpa [hid] using hslug, h.ingressSlug app happ ingress (List.mem_of_mem_filter hingress),
    wireSuffixes_colon hwire⟩

theorem Named.sorted (h : Named apps) : Named (sortedApps apps) := by
  have hperm : (sortedApps apps).Perm apps := List.perm_insertionSort _ apps
  refine ⟨(hperm.map _).nodup_iff.mpr h.appIds, fun app happ => h.slug app (hperm.mem_iff.mp happ),
    fun app happ => h.ingresses app (hperm.mem_iff.mp happ),
    fun app happ => h.ingressSlug app (hperm.mem_iff.mp happ)⟩

/-- **No two listeners of a machine share a tag.** -/
theorem grantSyncPlan_nodup (h : Named apps) :
    ((grantSyncPlan probeUuid apps nodeId).updates.map (·.inboundTag)).Nodup := by
  have htags : ((sortedApps apps).flatMap fun app =>
      (app.ingresses.filter (·.node = nodeId)).flatMap (ingressUpdates probeUuid app)).map
        (·.inboundTag) = (machineNames (sortedApps apps) nodeId).map ListenerName.tag := by
    simp only [machineNames, List.map_flatMap]
    refine List.flatMap_congr fun app happ => List.flatMap_congr fun ingress _ => ?_
    obtain ⟨id, hid, -⟩ := h.sorted.slug app happ
    rw [ingressUpdates_tags hid, hid, Option.getD_some]
  refine ((List.perm_insertionSort _ _).map _).nodup_iff.mpr ?_
  rw [htags]
  refine (machineNames_nodup h.sorted).map_on fun a ha b hb => ?_
  exact ListenerName.tag_injective (wellFormed_of_mem h.sorted ha) (wellFormed_of_mem h.sorted hb)

/-- **A tag determines the flow of the accounts under it.** -/
theorem grantSyncPlan_flow {update : GrantInboundUpdatePlan}
    (h : update ∈ (grantSyncPlan probeUuid apps nodeId).updates) :
    ∃ flow, ∀ client ∈ update.clients, client.flow = flow := by
  rw [grantSyncPlan, sortById, List.mem_insertionSort] at h
  obtain ⟨app, -, h⟩ := List.mem_flatMap.mp h
  obtain ⟨ingress, -, h⟩ := List.mem_flatMap.mp h
  have hclients : ∀ client ∈ ingressClients probeUuid app ingress,
      client.flow = ingress.wires.flow := by
    intro client hclient
    simp only [ingressClients, sortById, List.mem_insertionSort, List.mem_append,
      List.mem_filterMap, Option.map_eq_some_iff, List.mem_map] at hclient
    rcases hclient with (⟨_, _, _, _, rfl⟩ | hprobe) | ⟨_, _, rfl⟩
    · rfl
    · rcases List.mem_pair.mp hprobe with rfl | rfl <;> rfl
    · rfl
  have hnone : ∀ client ∈ withoutFlow (ingressClients probeUuid app ingress), client.flow = none := by
    intro client hclient
    obtain ⟨_, _, rfl⟩ := List.mem_map.mp hclient
    rfl
  simp only [ingressUpdates, List.mem_append] at h
  rcases h with (((h | h) | h) | h) | h <;> split_ifs at h <;>
    simp only [List.mem_singleton, List.not_mem_nil] at h <;> subst h
  · exact ⟨_, hclients⟩
  all_goals exact ⟨none, hnone⟩

end Listeners

end Brocade.Physical
