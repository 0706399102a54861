/-
The listeners of a machine, the accounts pushed to them, and the selectors that name them.

Three passes go over the wires of an ingress on their own: one lists the inbounds, one the
account updates, one the tags that routing rules select by.  They agree on every machine
(`listeners_covered`): an inbound has one update, an update one inbound, and the rules select
every inbound but the one that never reaches the dispatcher.
-/
import Brocade.Physical.Ingresses

namespace Brocade.Physical

open Ir Model

/-- The inbound tags of an ingress that enter xray's dispatcher. -/
def ingressInboundTags (app : AppIr) (ingress : Ir.Ingress) : List String :=
  let base := ingressTag app ingress.id
  (if ingress.wires.hasTcp then
      (if ingress.wires.vless.isSome then [base] else [])
        ++ (if ingress.wires.vlessEncryption.isSome then [s!"{base}:vless-encryption"] else [])
        ++ (if ingress.wires.anytls.isSome then [s!"{base}:anytls"] else [])
    else [])
    ++ (if ingress.wires.hasUdp then [s!"{base}:hy2"] else [])

section

variable (probeUuid : String → String → String)

/-- Who may enter by an ingress: the users granted it, and the four probes. -/
def Entitled (app : AppIr) (ingress : Ir.Ingress) (uuid label : String) : Prop :=
  let base := probeUuid ingress.identity.privateKey ingress.id
  let name := probeLabel ingress.id
  (∃ grant ∈ app.grants, grant.ingress = ingress.id ∧ label = grant.label
      ∧ ∃ user, app.users.find? (fun user => user.tenant = grant.tenant && user.id = grant.user)
          = some user ∧ uuid = user.uuid)
    ∨ uuid = base ∧ label = name
    ∨ uuid = probeUuid base "dns" ∧ label = probeDnsLabel name
    ∨ ∃ family, uuid = probeUuid base (probeFamilyKey family) ∧ label = probeFamilyLabel name family

end

variable {probeUuid : String → String → String} {apps : List AppIr} {nodeId : String}

/-! ### One ingress -/

theorem tags_of_wire {α : Type} {wire : Option α} (inbound : α → XrayIngressPlan) (tag : String)
    (h : ∀ settings, (inbound settings).tag = tag) :
    (wire.map inbound).toList.map (·.tag) = if wire.isSome then [tag] else [] := by
  cases wire with
  | none => rfl
  | some settings => simp [h]

/-- The inbounds of an ingress that enter the dispatcher. -/
def dispatchedInbounds (app : AppIr) (ingress : Ir.Ingress) : List XrayIngressPlan :=
  let tag := ingressTag app ingress.id
  (ingress.wires.vless.map (vlessInbound tag ingress)).toList
    ++ (ingress.wires.anytls.map (anytlsInbound tag ingress)).toList
    ++ (ingress.wires.hysteria2.map (quicInbound tag ingress)).toList
    ++ (ingress.wires.vlessEncryption.map (encryptionInbound tag ingress)).toList

theorem ingressInbounds_eq (app : AppIr) (ingress : Ir.Ingress) :
    ingressInbounds app ingress = dispatchedInbounds app ingress
      ++ (ingress.wires.mtproto.map (mtprotoInbound (ingressTag app ingress.id) ingress)).toList :=
  rfl

theorem dispatchedInbounds_tags (app : AppIr) (ingress : Ir.Ingress) :
    (dispatchedInbounds app ingress).map (·.tag)
      = (if ingress.wires.vless.isSome then [ingressTag app ingress.id] else [])
        ++ (if ingress.wires.anytls.isSome then [s!"{ingressTag app ingress.id}:anytls"] else [])
        ++ (if ingress.wires.hasUdp then [s!"{ingressTag app ingress.id}:hy2"] else [])
        ++ (if ingress.wires.vlessEncryption.isSome then
          [s!"{ingressTag app ingress.id}:vless-encryption"] else []) := by
  simp only [dispatchedInbounds, List.map_append]
  generalize ingressTag app ingress.id = tag
  rw [tags_of_wire (vlessInbound tag ingress) tag fun _ => rfl,
    tags_of_wire (anytlsInbound tag ingress) s!"{tag}:anytls" fun _ => rfl,
    tags_of_wire (quicInbound tag ingress) s!"{tag}:hy2" fun _ => rfl,
    tags_of_wire (encryptionInbound tag ingress) s!"{tag}:vless-encryption" fun _ => rfl]
  rfl

theorem tags_of_update {held : Bool} {update : GrantInboundUpdatePlan} :
    (if held then [update] else []).map (·.inboundTag) = if held then [update.inboundTag] else [] := by
  cases held <;> rfl

theorem ingress_tags_perm (app : AppIr) (ingress : Ir.Ingress) :
    ((ingressInbounds app ingress).map (·.tag)).Perm
      ((ingressUpdates probeUuid app ingress).map (·.inboundTag)) := by
  rw [ingressInbounds_eq, List.map_append, dispatchedInbounds_tags, ingressUpdates]
  generalize ingressTag app ingress.id = base
  rw [tags_of_wire (mtprotoInbound base ingress) s!"{base}:mtproto" fun _ => rfl]
  simp only [List.map_append, tags_of_update]
  rw [List.perm_iff_count]
  intro tag
  simp only [List.count_append]
  omega

theorem filter_dispatched (app : AppIr) (ingress : Ir.Ingress) :
    (ingressInbounds app ingress).filter (·.protocol ≠ .mtProto) = dispatchedInbounds app ingress := by
  have hkept : ∀ inbound ∈ dispatchedInbounds app ingress, inbound.protocol ≠ .mtProto := by
    intro inbound h
    simp only [dispatchedInbounds, List.mem_append, Option.mem_toList, Option.map_eq_some_iff] at h
    rcases h with ((⟨_, _, rfl⟩ | ⟨_, _, rfl⟩) | ⟨_, _, rfl⟩) | ⟨_, _, rfl⟩ <;>
      exact IngressProtocol.noConfusion
  rw [ingressInbounds_eq, List.filter_append, List.filter_eq_self.mpr (by simpa using hkept)]
  cases ingress.wires.mtproto with
  | none => simp
  | some settings => simp [mtprotoInbound, bareInbound]

theorem ingressInboundTags_perm (app : AppIr) (ingress : Ir.Ingress) :
    (ingressInboundTags app ingress).Perm
      (((ingressInbounds app ingress).filter (·.protocol ≠ .mtProto)).map (·.tag)) := by
  have hflat : ingressInboundTags app ingress
      = (if ingress.wires.vless.isSome then [ingressTag app ingress.id] else [])
        ++ (if ingress.wires.vlessEncryption.isSome then
          [s!"{ingressTag app ingress.id}:vless-encryption"] else [])
        ++ (if ingress.wires.anytls.isSome then [s!"{ingressTag app ingress.id}:anytls"] else [])
        ++ (if ingress.wires.hasUdp then [s!"{ingressTag app ingress.id}:hy2"] else []) := by
    unfold ingressInboundTags
    cases h : ingress.wires.hasTcp with
    | true => rfl
    | false =>
      simp only [IngressWires.hasTcp, Bool.or_eq_false_iff] at h
      simp [h.1.1.1, h.1.2, h.1.1.2]
  rw [filter_dispatched, hflat, dispatchedInbounds_tags, List.perm_iff_count]
  intro tag
  simp only [List.count_append]
  omega

/-! ### Accounts -/

theorem mem_ingressClients {app : AppIr} {ingress : Ir.Ingress} {client : GrantClientPlan} :
    client ∈ ingressClients probeUuid app ingress ↔
      Entitled probeUuid app ingress client.uuid client.label
        ∧ client.flow = ingress.wires.flow := by
  obtain ⟨uuid, label, flow⟩ := client
  simp only [ingressClients, sortById, List.mem_insertionSort, List.mem_append, List.mem_filterMap,
    List.mem_filter, decide_eq_true_eq, Option.map_eq_some_iff, List.mem_map, List.mem_cons,
    List.not_mem_nil, or_false, GrantClientPlan.mk.injEq, Entitled]
  constructor
  · rintro ((⟨grant, ⟨hgrant, hof⟩, user, huser, rfl, rfl, rfl⟩ | ⟨rfl, rfl, rfl⟩ | ⟨rfl, rfl, rfl⟩)
      | ⟨family, -, rfl, rfl, rfl⟩)
    · exact ⟨.inl ⟨grant, hgrant, hof, rfl, user, huser, rfl⟩, rfl⟩
    · exact ⟨.inr (.inl ⟨rfl, rfl⟩), rfl⟩
    · exact ⟨.inr (.inr (.inl ⟨rfl, rfl⟩)), rfl⟩
    · exact ⟨.inr (.inr (.inr ⟨family, rfl, rfl⟩)), rfl⟩
  · rintro ⟨⟨grant, hgrant, hof, rfl, user, huser, rfl⟩ | ⟨rfl, rfl⟩ | ⟨rfl, rfl⟩
      | ⟨family, rfl, rfl⟩, rfl⟩
    · exact .inl (.inl ⟨grant, ⟨hgrant, hof⟩, user, huser, rfl, rfl, rfl⟩)
    · exact .inl (.inr (.inl ⟨rfl, rfl, rfl⟩))
    · exact .inl (.inr (.inr ⟨rfl, rfl, rfl⟩))
    · exact .inr ⟨family, by cases family <;> simp, rfl, rfl, rfl⟩

theorem mem_withoutFlow {app : AppIr} {ingress : Ir.Ingress} {client : GrantClientPlan} :
    client ∈ withoutFlow (ingressClients probeUuid app ingress) ↔
      Entitled probeUuid app ingress client.uuid client.label ∧ client.flow = none := by
  constructor
  · intro h
    obtain ⟨account, haccount, rfl⟩ := List.mem_map.mp h
    exact ⟨(mem_ingressClients.mp haccount).1, rfl⟩
  · rintro ⟨hentitled, hflow⟩
    refine List.mem_map.mpr ⟨{ client with flow := ingress.wires.flow }, ?_, ?_⟩
    · exact mem_ingressClients.mpr ⟨hentitled, rfl⟩
    · rw [← hflow]

/-- What an update of an ingress carries: all of its accounts, with a flow under the plain tag. -/
structure Carries (probeUuid : String → String → String) (app : AppIr) (ingress : Ir.Ingress)
    (update : GrantInboundUpdatePlan) : Prop where
  accounts : ∀ uuid label, (∃ client ∈ update.clients, client.uuid = uuid ∧ client.label = label)
    ↔ Entitled probeUuid app ingress uuid label
  flow : ∀ client ∈ update.clients, client.flow
    = if update.inboundTag = ingressTag app ingress.id then ingress.wires.flow else none

theorem carries_plain (app : AppIr) (ingress : Ir.Ingress) : Carries probeUuid app ingress
    ⟨ingressTag app ingress.id, ingressClients probeUuid app ingress⟩ where
  accounts uuid label := by
    constructor
    · rintro ⟨client, hclient, rfl, rfl⟩
      exact (mem_ingressClients.mp hclient).1
    · intro h
      exact ⟨⟨uuid, label, ingress.wires.flow⟩, mem_ingressClients.mpr ⟨h, rfl⟩, rfl, rfl⟩
  flow client hclient := by
    rw [if_pos rfl]
    exact (mem_ingressClients.mp hclient).2

theorem carries_suffixed (app : AppIr) (ingress : Ir.Ingress) {tag : String}
    (h : tag ≠ ingressTag app ingress.id) : Carries probeUuid app ingress
      ⟨tag, withoutFlow (ingressClients probeUuid app ingress)⟩ where
  accounts uuid label := by
    constructor
    · rintro ⟨client, hclient, rfl, rfl⟩
      exact (mem_withoutFlow.mp hclient).1
    · intro h
      exact ⟨⟨uuid, label, none⟩, mem_withoutFlow.mpr ⟨h, rfl⟩, rfl, rfl⟩
  flow client hclient := by
    rw [if_neg h]
    exact (mem_withoutFlow.mp hclient).2

theorem append_ne_self {tag suffix : String} (h : suffix.length ≠ 0) : tag ++ suffix ≠ tag := by
  intro hsame
  have hlength := congrArg String.length hsame
  rw [String.length_append] at hlength
  omega

theorem carries_of_mem {app : AppIr} {ingress : Ir.Ingress} {update : GrantInboundUpdatePlan}
    (h : update ∈ ingressUpdates probeUuid app ingress) : Carries probeUuid app ingress update := by
  simp only [ingressUpdates, List.mem_append] at h
  rcases h with (((h | h) | h) | h) | h <;> split_ifs at h <;>
    simp only [List.mem_singleton, List.not_mem_nil] at h <;> subst h
  · exact carries_plain app ingress
  all_goals exact carries_suffixed app ingress (append_ne_self (by decide))

/-! ### The machine -/

/-- The three passes over the wires of a machine's ingresses agree. -/
structure ListenersCovered (probeUuid : String → String → String) (apps : List AppIr)
    (nodeId : String) (inbounds : List XrayIngressPlan) : Prop where
  tags : (inbounds.map (·.tag)).Perm
    ((grantSyncPlan probeUuid apps nodeId).updates.map (·.inboundTag))
  /-- the inbounds are those of the machine's ingresses -/
  inbounds : (inbounds.map (·.name)).Perm ((apps.flatMap fun app =>
    (app.ingresses.filter (·.node = nodeId)).flatMap (ingressInbounds app)).map (·.name))
  /-- and so are the updates -/
  updates : (grantSyncPlan probeUuid apps nodeId).updates.Perm (apps.flatMap fun app =>
    (app.ingresses.filter (·.node = nodeId)).flatMap (ingressUpdates probeUuid app))
  carries : ∀ app ∈ apps, ∀ ingress ∈ app.ingresses, ingress.node = nodeId →
    ∀ update ∈ ingressUpdates probeUuid app ingress, Carries probeUuid app ingress update
  selectors : ∀ app ∈ apps, ∀ ingress ∈ app.ingresses, ingress.node = nodeId →
    (ingressInboundTags app ingress).Perm
      (((ingressInbounds app ingress).filter (·.protocol ≠ .mtProto)).map (·.tag))

theorem sortedApps_perm (apps : List AppIr) : (sortedApps apps).Perm apps :=
  List.perm_insertionSort _ apps

/-- **Inbounds, accounts and selectors cover the same listeners.** -/
theorem listeners_covered {apiPort : Option ℕ} {inbounds : List XrayIngressPlan}
    (h : xrayIngresses apps nodeId apiPort = some inbounds) :
    ListenersCovered probeUuid apps nodeId inbounds := by
  obtain ⟨-, -, hnames⟩ := drawInbounds_eq_some h
  have hundrawn : (undrawnIngresses apps nodeId).Perm (apps.flatMap fun app =>
      (app.ingresses.filter (·.node = nodeId)).flatMap (ingressInbounds app)) :=
    (List.perm_insertionSort _ _).trans ((sortedApps_perm apps).flatMap_right _)
  have hupdates : (grantSyncPlan probeUuid apps nodeId).updates.Perm (apps.flatMap fun app =>
      (app.ingresses.filter (·.node = nodeId)).flatMap (ingressUpdates probeUuid app)) :=
    (List.perm_insertionSort _ _).trans ((sortedApps_perm apps).flatMap_right _)
  have htags : inbounds.map (·.tag) = (undrawnIngresses apps nodeId).map (·.tag) := by
    have hmiddle := congrArg (List.map fun name => name.2.1) hnames
    rw [List.map_map, List.map_map] at hmiddle
    exact hmiddle
  refine ⟨?_, ?_, hupdates, ?_, ?_⟩
  · rw [htags]
    refine (hundrawn.map _).trans (List.Perm.trans ?_ (hupdates.map _).symm)
    simp only [List.map_flatMap]
    exact List.Perm.flatMap_left _ fun app _ => List.Perm.flatMap_left _ fun ingress _ =>
      ingress_tags_perm app ingress
  · rw [hnames]
    exact hundrawn.map _
  · intro app _ ingress _ _ update hupdate
    exact carries_of_mem hupdate
  · intro app _ ingress _ _
    exact ingressInboundTags_perm app ingress

/-- A project of one entrance: disguised on TCP with a local cover, and on QUIC. -/
def coveredApp : AppIr where
  revision := 1
  appId := some "web"
  tenants := []
  nodes := []
  users := [⟨"joe", "acme", "11111111-2222-3333-4444-555555555555"⟩]
  externalOutbounds := []
  chains := []
  ingresses := [{
    id := "door"
    appId := some "web"
    tenant := "acme"
    chain := "c"
    node := "a"
    bind := "0.0.0.0"
    port := 443
    front := none
    sniff := true
    identity := ⟨"key", "pub", []⟩
    anytlsIdentity := none
    wires := {
      vlessEncryption := none
      vless := some (.vlessReality ⟨[], some "xtls-rprx-vision", .nodeCertificate, false, .null⟩)
      anytls := none
      hysteria2 := some ⟨8443, none, .null⟩
      mtproto := some ⟨8444⟩
      some_wire := rfl }
    certificateName := none
    certificateNames := []
    guard := .openAll
    projection := .off }]
  fronts := []
  steps := []
  listenerRoots := []
  grants := [⟨"g", some "web", "acme", "joe", "door", "joe@acme#door"⟩]
  hops := []

theorem listeners_covered_three : ListenersCovered (fun key name => key ++ name) [coveredApp] "a"
    ((xrayIngresses [coveredApp] "a" (some 10085)).get (by decide +kernel)) :=
  listeners_covered (Option.some_get _).symm

end Brocade.Physical
