/-
The accounts of one machine, and whose they are.

An ingress admits its users and its probes, a relay table the upstreams that dial it and the
downstreams that dial back, with the probes of each.  All of them are told apart by their labels,
and users are told from the rest by the shape of theirs.  Users and ingresses are named by slugs;
the label of a relay is whatever its operator wrote, and it is checked against the labels of the
machine's users and of its other tables only.  So the labels are clear exactly where those of the
relays stay out of the way of the others (`labels_clear_iff`).
-/
import Brocade.Physical.HopInbounds
import Brocade.Physical.Labels

namespace Brocade.Physical

open Ir Model
open Budget (parseGrantLabel)
open Usage (isProbeLabel)

/-- Whose an account is; a role where it is a further probe of its owner. -/
inductive Identity where
  | user (tenant user ingress : String)
  | ingress (app : Option String) (id : String) (role : Option String)
  | relay (chain node : String) (role : Option String)
deriving DecidableEq

def Identity.isUser : Identity → Bool
  | .user _ _ _ => true
  | _ => false

/-- The probes of an ingress, and the further ones of a relay. -/
def Identity.isProbe : Identity → Bool
  | .ingress _ _ _ | .relay _ _ (some _) => true
  | .user _ _ _ | .relay _ _ none => false

/-- An account of a machine's xray. -/
structure Account where
  identity : Identity
  (tag uuid label : String)

def probeRoles : List String := "dns" :: [IpFamily.v4, .v6].map probeFamilyKey

/-- The label of an owner's own account, and of its further probes. -/
def roleLabel (base : String) : Option String → String
  | none => base
  | some role => probeTransportLabel base role

section Accounts

-- the identity derived from a key and a name
variable (probeUuid : String → String → String)

/-- The users and the probes of an ingress, with their identities and labels. -/
def ingressHolders (app : AppIr) (ingress : Ir.Ingress) : List (Identity × String × String) :=
  let base := probeUuid ingress.identity.privateKey ingress.id
  let label := probeLabel ingress.id
  ((app.grants.filter (·.ingress = ingress.id)).filterMap fun grant =>
      (app.users.find? fun user => user.tenant = grant.tenant && user.id = grant.user).map
        fun user => (.user grant.tenant grant.user grant.ingress, user.uuid, grant.label))
    ++ (.ingress app.appId ingress.id none, base, label)
    :: probeRoles.map fun role =>
      (.ingress app.appId ingress.id (some role), probeUuid base role, probeTransportLabel label role)

def heldBy (tag : String) (holder : Identity × String × String) : Account :=
  ⟨holder.1, tag, holder.2.1, holder.2.2⟩

/-- One account a listener. -/
def ingressAccounts (app : AppIr) (ingress : Ir.Ingress) : List Account :=
  (wireSuffixes ingress.wires).flatMap fun wire =>
    (ingressHolders probeUuid app ingress).map (heldBy (ingressTag app ingress.id ++ wire))

/-- The credentials a relay table admits, each with the listener it belongs to. -/
def ordinaryRelays (app : AppIr) (step : Ir.Step) (nodeId : String) :
    List ((String × String) × XrayClientPlan) :=
  (app.hops.filter fun hop => hop.chain = step.chain && hop.source = nodeId
      && hop.path == .reverse).foldl
    (fun relays hop =>
      if relays.any fun relay => relay.2.uuid = hop.credential.uuid then relays
      else relays ++ [((hop.targetChain, hop.target), ⟨hop.credential.uuid, hop.credential.label⟩)])
    (step.accept.toList.map fun accept => ((step.chain, nodeId), ⟨accept.uuid, accept.label⟩))

def isProbed : HopWire → Bool
  | .shadowsocks2022 _ _ => false
  | _ => true

/-- Who enters by a hop. -/
def hopHolders (app : AppIr) (step : Ir.Step) (nodeId : String) (security : HopWire) :
    List (Identity × String × String) :=
  let ordinary := ordinaryRelays app step nodeId
  (ordinary.map fun relay => (.relay relay.1.1 relay.1.2 none, relay.2.uuid, relay.2.label))
    ++ if isProbed security then
        ordinary.flatMap fun relay => probeRoles.map fun role =>
          (.relay relay.1.1 relay.1.2 (some role), probeUuid relay.2.uuid role,
            probeTransportLabel relay.2.label role)
      else []

/-- The tag of its listener. -/
def hopTag (app : AppIr) (chain : String) (copy : Bool) : String :=
  if copy then s!"{hopInboundTag app chain}:local" else hopInboundTag app chain

def arriving (apps : List AppIr) (chain nodeId : String) : List Hop :=
  (apps.flatMap (·.hops)).filter (arrives chain nodeId)

/-- The accounts of a table. -/
def stepAccounts (overlay : Option Address.Ipv4Addr) (apps : List AppIr) (nodeId : String)
    (app : AppIr) (step : Ir.Step) : List Account :=
  step.hopIn.toList.flatMap fun hopIn =>
    (listensFor overlay (arriving apps step.chain nodeId)).flatMap fun listen =>
      (hopHolders probeUuid app step nodeId hopIn.security).map
        (heldBy (hopTag app step.chain listen.2))

/-- Every account of a machine. -/
def machineAccounts (systemNode : Option SystemNode) (apps : List AppIr) (nodeId : String) :
    List Account :=
  (apps.flatMap fun app =>
      (app.ingresses.filter (·.node = nodeId)).flatMap (ingressAccounts probeUuid app))
    ++ systemNode.toList.flatMap fun node => apps.flatMap fun app =>
      (app.steps.filter fun step => step.node = nodeId).flatMap
        (stepAccounts probeUuid node.overlayAddr apps nodeId app)

/-! ### They are those of the plan -/

variable {probeUuid} {apps : List AppIr} {nodeId : String}

theorem ordinaryRelays_clients (app : AppIr) (step : Ir.Step) :
    (ordinaryRelays app step nodeId).map Prod.snd = ordinaryClients app step nodeId := by
  have hfold : ∀ (hops : List Hop) (relays : List ((String × String) × XrayClientPlan)),
      (hops.foldl (fun relays hop =>
        if relays.any fun relay => relay.2.uuid = hop.credential.uuid then relays
        else relays ++ [((hop.targetChain, hop.target),
          ⟨hop.credential.uuid, hop.credential.label⟩)]) relays).map Prod.snd
      = hops.foldl (fun clients hop =>
        if clients.any fun c => c.uuid = hop.credential.uuid then clients
        else clients ++ [⟨hop.credential.uuid, hop.credential.label⟩]) (relays.map Prod.snd) := by
    intro hops
    induction hops with
    | nil => exact fun _ => rfl
    | cons hop hops ih =>
      intro relays
      rw [List.foldl_cons, List.foldl_cons, ih]
      congr 1
      rw [List.any_map]
      by_cases hthere : (relays.any fun relay => relay.2.uuid = hop.credential.uuid) = true
      · rw [if_pos hthere, if_pos (by simpa using hthere)]
      · rw [if_neg hthere, if_neg (by simpa using hthere)]
        simp
  unfold ordinaryRelays ordinaryClients
  rw [hfold]
  congr 1
  cases step.accept with
  | none => rfl
  | some accept => rfl

theorem hopClients_eq (app : AppIr) (step : Ir.Step) (security : HopWire) :
    hopClients probeUuid app step nodeId security = ordinaryClients app step nodeId
      ++ if isProbed security then
          (ordinaryClients app step nodeId).flatMap (probeClients probeUuid)
        else [] := by
  cases security with
  | shadowsocks2022 serverPsk userPsk => simp [hopClients, isProbed]
  | none => rfl
  | encryption encryption => rfl
  | reality reality => rfl

theorem hopHolders_clients (app : AppIr) (step : Ir.Step) (security : HopWire) {u l : String} :
    (⟨u, l⟩ : XrayClientPlan) ∈ hopClients probeUuid app step nodeId security ↔
      ∃ holder ∈ hopHolders probeUuid app step nodeId security, holder.2 = (u, l) := by
  have hprobes : ∀ client : XrayClientPlan, probeClients probeUuid client
      = probeRoles.map fun role =>
        ⟨probeUuid client.uuid role, probeTransportLabel client.label role⟩ := fun _ => rfl
  have hplain : ∀ ordinary : List ((String × String) × XrayClientPlan),
      (⟨u, l⟩ : XrayClientPlan) ∈ ordinary.map Prod.snd ↔ ∃ holder ∈ ordinary.map fun relay =>
        (Identity.relay relay.1.1 relay.1.2 none, relay.2.uuid, relay.2.label),
        holder.2 = (u, l) := by
    intro ordinary
    constructor
    · intro h
      obtain ⟨relay, hrelay, hclient⟩ := List.mem_map.mp h
      refine ⟨_, List.mem_map.mpr ⟨relay, hrelay, rfl⟩, ?_⟩
      dsimp only
      rw [hclient]
    · rintro ⟨holder, h, hpair⟩
      obtain ⟨relay, hrelay, rfl⟩ := List.mem_map.mp h
      cases hpair
      exact List.mem_map.mpr ⟨relay, hrelay, rfl⟩
  have hfurther : ∀ ordinary : List ((String × String) × XrayClientPlan),
      (⟨u, l⟩ : XrayClientPlan) ∈ (ordinary.map Prod.snd).flatMap (probeClients probeUuid) ↔
        ∃ holder ∈ ordinary.flatMap fun relay => probeRoles.map fun role =>
          (Identity.relay relay.1.1 relay.1.2 (some role), probeUuid relay.2.uuid role,
            probeTransportLabel relay.2.label role), holder.2 = (u, l) := by
    intro ordinary
    constructor
    · intro h
      obtain ⟨client, hclient, hmem⟩ := List.mem_flatMap.mp h
      obtain ⟨relay, hrelay, rfl⟩ := List.mem_map.mp hclient
      rw [hprobes] at hmem
      obtain ⟨role, hrole, heq⟩ := List.mem_map.mp hmem
      refine ⟨_, List.mem_flatMap.mpr ⟨relay, hrelay, List.mem_map.mpr ⟨role, hrole, rfl⟩⟩, ?_⟩
      cases heq
      rfl
    · rintro ⟨holder, h, hpair⟩
      obtain ⟨relay, hrelay, hmem⟩ := List.mem_flatMap.mp h
      obtain ⟨role, hrole, rfl⟩ := List.mem_map.mp hmem
      cases hpair
      refine List.mem_flatMap.mpr ⟨relay.2, List.mem_map_of_mem hrelay, ?_⟩
      rw [hprobes]
      exact List.mem_map.mpr ⟨role, hrole, rfl⟩
  unfold hopHolders
  rw [hopClients_eq, ← ordinaryRelays_clients]
  dsimp only
  by_cases hprobed : isProbed security = true
  · simp only [if_pos hprobed, List.mem_append, hplain, hfurther, or_and_right, exists_or]
  · simp only [if_neg hprobed, List.append_nil, hplain]

theorem ingressHolders_clients (app : AppIr) (ingress : Ir.Ingress) {u l : String} :
    (∃ client ∈ ingressClients probeUuid app ingress, client.uuid = u ∧ client.label = l) ↔
      ∃ holder ∈ ingressHolders probeUuid app ingress, holder.2 = (u, l) := by
  have hclients : ingressClients probeUuid app ingress
      = sortById (·.label) ((ingressHolders probeUuid app ingress).map fun holder =>
        ⟨holder.2.1, holder.2.2, ingress.wires.flow⟩) := by
    simp [ingressClients, ingressHolders, probeRoles, probeDnsLabel, probeFamilyLabel,
      List.map_filterMap, Option.map_map, Function.comp_def]
  rw [hclients]
  simp only [sortById, List.mem_insertionSort, List.mem_map]
  constructor
  · rintro ⟨client, ⟨holder, hholder, rfl⟩, huuid, hlabel⟩
    exact ⟨holder, hholder, Prod.ext huuid hlabel⟩
  · rintro ⟨holder, hholder, hpair⟩
    exact ⟨_, ⟨holder, hholder, rfl⟩, congrArg Prod.fst hpair, congrArg Prod.snd hpair⟩

theorem ingressUpdates_wires (app : AppIr) (ingress : Ir.Ingress) :
    ingressUpdates probeUuid app ingress = (wireSuffixes ingress.wires).map fun wire =>
      ⟨ingressTag app ingress.id ++ wire,
        if wire = "" then ingressClients probeUuid app ingress
        else withoutFlow (ingressClients probeUuid app ingress)⟩ := by
  unfold ingressUpdates wireSuffixes
  split_ifs <;> simp [toString]

theorem ingressAccounts_updates (app : AppIr) (ingress : Ir.Ingress) {t u l : String} :
    (∃ update ∈ ingressUpdates probeUuid app ingress, update.inboundTag = t ∧
      ∃ client ∈ update.clients, client.uuid = u ∧ client.label = l) ↔
    ∃ account ∈ ingressAccounts probeUuid app ingress,
      account.tag = t ∧ account.uuid = u ∧ account.label = l := by
  have hflow : ∀ wire : String, (∃ client ∈ (if wire = "" then ingressClients probeUuid app ingress
          else withoutFlow (ingressClients probeUuid app ingress)),
        client.uuid = u ∧ client.label = l) ↔
      ∃ holder ∈ ingressHolders probeUuid app ingress, holder.2 = (u, l) := by
    intro wire
    rw [← ingressHolders_clients]
    by_cases hwire : wire = ""
    · rw [if_pos hwire]
    · rw [if_neg hwire, withoutFlow]
      simp
  rw [ingressUpdates_wires]
  unfold ingressAccounts
  constructor
  · rintro ⟨update, hupdate, rfl, hclient⟩
    obtain ⟨wire, hwire, rfl⟩ := List.mem_map.mp hupdate
    obtain ⟨holder, hholder, hpair⟩ := (hflow wire).mp hclient
    refine ⟨heldBy (ingressTag app ingress.id ++ wire) holder,
      List.mem_flatMap.mpr ⟨wire, hwire, List.mem_map_of_mem hholder⟩, rfl, ?_, ?_⟩
    · exact congrArg Prod.fst hpair
    · exact congrArg Prod.snd hpair
  · rintro ⟨account, haccount, rfl, rfl, rfl⟩
    obtain ⟨wire, hwire, hmem⟩ := List.mem_flatMap.mp haccount
    obtain ⟨holder, hholder, rfl⟩ := List.mem_map.mp hmem
    exact ⟨_, List.mem_map.mpr ⟨wire, hwire, rfl⟩, rfl, (hflow wire).mpr ⟨holder, hholder, rfl⟩⟩

theorem stepAccounts_inbounds (overlay : Option Address.Ipv4Addr) (app : AppIr) (step : Ir.Step)
    {t u l : String} : (∃ plan ∈ stepInbounds probeUuid overlay apps nodeId app step, plan.tag = t ∧
      (⟨u, l⟩ : XrayClientPlan) ∈ plan.clients) ↔
    ∃ account ∈ stepAccounts probeUuid overlay apps nodeId app step,
      account.tag = t ∧ account.uuid = u ∧ account.label = l := by
  unfold stepInbounds stepAccounts
  cases hhopIn : step.hopIn with
  | none => simp
  | some hopIn =>
    dsimp only
    constructor
    · rintro ⟨plan, hplan, rfl, hclient⟩
      split at hplan
      · cases hplan
      obtain ⟨listen, hlisten, rfl⟩ := List.mem_map.mp hplan
      obtain ⟨holder, hholder, hpair⟩ := (hopHolders_clients app step hopIn.security).mp hclient
      refine ⟨heldBy (hopTag app step.chain listen.2) holder, ?_, ?_, ?_, ?_⟩
      · exact List.mem_flatMap.mpr ⟨hopIn, List.mem_singleton.mpr rfl,
          List.mem_flatMap.mpr ⟨listen, hlisten, List.mem_map_of_mem hholder⟩⟩
      · rfl
      · exact congrArg Prod.fst hpair
      · exact congrArg Prod.snd hpair
    · rintro ⟨account, haccount, rfl, rfl, rfl⟩
      obtain ⟨opened, hopened, hmem⟩ := List.mem_flatMap.mp haccount
      obtain rfl := List.mem_singleton.mp hopened
      obtain ⟨listen, hlisten, hheld⟩ := List.mem_flatMap.mp hmem
      obtain ⟨holder, hholder, rfl⟩ := List.mem_map.mp hheld
      have hclient : (⟨holder.2.1, holder.2.2⟩ : XrayClientPlan)
          ∈ hopClients probeUuid app step nodeId opened.security :=
        (hopHolders_clients app step opened.security).mpr ⟨holder, hholder, rfl⟩
      have hsome : (hopClients probeUuid app step nodeId opened.security).isEmpty = false := by
        rw [List.isEmpty_eq_false_iff]
        exact List.ne_nil_of_mem hclient
      rw [if_neg (by simp [hsome])]
      exact ⟨_, List.mem_map.mpr ⟨listen, hlisten, rfl⟩, rfl, hclient⟩

/-- **The accounts are those that the plans of the machine hold.** -/
theorem machineAccounts_plan {systemNode : Option SystemNode} {t u l : String} :
    ((∃ update ∈ (grantSyncPlan probeUuid apps nodeId).updates, update.inboundTag = t ∧
        ∃ client ∈ update.clients, client.uuid = u ∧ client.label = l) ∨
      ∃ plan ∈ xrayHopInbounds probeUuid systemNode apps nodeId, plan.tag = t ∧
        (⟨u, l⟩ : XrayClientPlan) ∈ plan.clients) ↔
    ∃ account ∈ machineAccounts probeUuid systemNode apps nodeId,
      account.tag = t ∧ account.uuid = u ∧ account.label = l := by
  have hupdates : ∀ update, update ∈ (grantSyncPlan probeUuid apps nodeId).updates ↔
      ∃ app ∈ apps, ∃ ingress ∈ app.ingresses.filter (·.node = nodeId),
        update ∈ ingressUpdates probeUuid app ingress := by
    intro update
    simp [grantSyncPlan, sortById, sortedApps]
  constructor
  · rintro (⟨update, hupdate, hclient⟩ | ⟨plan, hplan, hclient⟩)
    · obtain ⟨app, happ, ingress, hingress, hmem⟩ := (hupdates update).mp hupdate
      obtain ⟨account, haccount, hsame⟩ :=
        (ingressAccounts_updates app ingress).mp ⟨update, hmem, hclient⟩
      refine ⟨account, List.mem_append_left _ (List.mem_flatMap.mpr ⟨app, happ, ?_⟩), hsame⟩
      exact List.mem_flatMap.mpr ⟨ingress, hingress, haccount⟩
    · obtain ⟨node, rfl, app, happ, step, hstep, hnode, hmem⟩ := mem_xrayHopInbounds.mp hplan
      obtain ⟨account, haccount, hsame⟩ :=
        (stepAccounts_inbounds node.overlayAddr app step).mp ⟨plan, hmem, hclient⟩
      refine ⟨account, List.mem_append_right _ (List.mem_flatMap.mpr ⟨node, by simp, ?_⟩), hsame⟩
      exact List.mem_flatMap.mpr ⟨app, happ, List.mem_flatMap.mpr
        ⟨step, List.mem_filter.mpr ⟨hstep, by simpa using hnode⟩, haccount⟩⟩
  · rintro ⟨account, haccount, hsame⟩
    rcases List.mem_append.mp haccount with hmem | hmem
    · obtain ⟨app, happ, hmem⟩ := List.mem_flatMap.mp hmem
      obtain ⟨ingress, hingress, hmem⟩ := List.mem_flatMap.mp hmem
      obtain ⟨update, hupdate, hclient⟩ :=
        (ingressAccounts_updates app ingress).mpr ⟨account, hmem, hsame⟩
      exact .inl ⟨update, (hupdates update).mpr ⟨app, happ, ingress, hingress, hupdate⟩, hclient⟩
    · obtain ⟨node, hnode, hmem⟩ := List.mem_flatMap.mp hmem
      obtain ⟨app, happ, hmem⟩ := List.mem_flatMap.mp hmem
      obtain ⟨step, hstep, hmem⟩ := List.mem_flatMap.mp hmem
      obtain ⟨hstep, hplace⟩ := List.mem_filter.mp hstep
      obtain ⟨plan, hplan, hclient⟩ :=
        (stepAccounts_inbounds node.overlayAddr app step).mpr ⟨account, hmem, hsame⟩
      refine .inr ⟨plan, mem_xrayHopInbounds.mpr ⟨node, ?_, app, happ, step, hstep, ?_, hplan⟩, hclient⟩
      · simpa using hnode
      · simpa using hplace

end Accounts

/-! ### Whose accounts there are -/

/-- A credential that a relay table admits, and whether its probes are admitted with it. -/
structure Relay where
  (chain node label : String)
  probed : Bool
deriving DecidableEq

/-- The credentials of the relay tables that are opened. -/
def openRelays (systemNode : Option SystemNode) (apps : List AppIr) (nodeId : String) : List Relay :=
  systemNode.toList.flatMap fun node => apps.flatMap fun app =>
    (app.steps.filter fun step => step.node = nodeId).flatMap fun step =>
      step.hopIn.toList.flatMap fun hopIn =>
        if (listensFor node.overlayAddr (arriving apps step.chain nodeId)).isEmpty then []
        else (ordinaryRelays app step nodeId).map fun relay =>
          ⟨relay.1.1, relay.1.2, relay.2.label, isProbed hopIn.security⟩

/-- The ingresses that listen, by project. -/
def openIngresses (apps : List AppIr) (nodeId : String) : List (Option String × String) :=
  apps.flatMap fun app => (app.ingresses.filter fun ingress =>
    ingress.node = nodeId && !(wireSuffixes ingress.wires).isEmpty).map fun ingress =>
      (app.appId, ingress.id)

section Owners

variable {probeUuid : String → String → String} {systemNode : Option SystemNode}
  {apps : List AppIr} {nodeId : String}

variable (systemNode apps nodeId) in
/-- Who has an account, under which label. -/
inductive Owned : Identity → String → Prop
  | user {app : AppIr} {grant : Ir.Grant} (happ : app ∈ apps) (hgrant : grant ∈ app.grants)
      (huser : ∃ user ∈ app.users, user.tenant = grant.tenant ∧ user.id = grant.user)
      (hingress : ∃ ingress ∈ app.ingresses, ingress.id = grant.ingress) :
      Owned (.user grant.tenant grant.user grant.ingress) grant.label
  | ingress {i : Option String × String} (hi : i ∈ openIngresses apps nodeId) (role : Option String)
      (hrole : ∀ r, role = some r → r ∈ probeRoles) :
      Owned (.ingress i.1 i.2 role) (roleLabel (probeLabel i.2) role)
  | relay {r : Relay} (hr : r ∈ openRelays systemNode apps nodeId) (role : Option String)
      (hrole : ∀ x, role = some x → r.probed = true ∧ x ∈ probeRoles) :
      Owned (.relay r.chain r.node role) (roleLabel r.label role)

theorem mem_openIngresses {i : Option String × String} : i ∈ openIngresses apps nodeId ↔
    ∃ app ∈ apps, ∃ ingress ∈ app.ingresses, ingress.node = nodeId ∧
      wireSuffixes ingress.wires ≠ [] ∧ i = (app.appId, ingress.id) := by
  unfold openIngresses
  constructor
  · intro h
    obtain ⟨app, happ, hmem⟩ := List.mem_flatMap.mp h
    obtain ⟨ingress, hingress, rfl⟩ := List.mem_map.mp hmem
    obtain ⟨hin, hopen⟩ := List.mem_filter.mp hingress
    rw [Bool.and_eq_true, decide_eq_true_eq, Bool.not_eq_true', List.isEmpty_eq_false_iff] at hopen
    exact ⟨app, happ, ingress, hin, hopen.1, hopen.2, rfl⟩
  · rintro ⟨app, happ, ingress, hin, hnode, hwires, rfl⟩
    refine List.mem_flatMap.mpr ⟨app, happ, List.mem_map.mpr ⟨ingress, List.mem_filter.mpr ⟨hin, ?_⟩, rfl⟩⟩
    rw [Bool.and_eq_true, decide_eq_true_eq, Bool.not_eq_true', List.isEmpty_eq_false_iff]
    exact ⟨hnode, hwires⟩

theorem mem_openRelays {r : Relay} : r ∈ openRelays systemNode apps nodeId ↔
    ∃ node, systemNode = some node ∧ ∃ app ∈ apps, ∃ step ∈ app.steps, step.node = nodeId ∧
      ∃ hopIn, step.hopIn = some hopIn ∧
        listensFor node.overlayAddr (arriving apps step.chain nodeId) ≠ [] ∧
        ∃ relay ∈ ordinaryRelays app step nodeId,
          r = ⟨relay.1.1, relay.1.2, relay.2.label, isProbed hopIn.security⟩ := by
  unfold openRelays
  constructor
  · intro h
    obtain ⟨node, hnode, h⟩ := List.mem_flatMap.mp h
    obtain ⟨app, happ, h⟩ := List.mem_flatMap.mp h
    obtain ⟨step, hstep, h⟩ := List.mem_flatMap.mp h
    obtain ⟨hopIn, hhopIn, h⟩ := List.mem_flatMap.mp h
    obtain ⟨hstep, hplace⟩ := List.mem_filter.mp hstep
    split at h
    · cases h
    next hopen =>
    obtain ⟨relay, hrelay, rfl⟩ := List.mem_map.mp h
    refine ⟨node, by simpa using hnode, app, happ, step, hstep, by simpa using hplace, hopIn,
      by simpa using hhopIn, ?_, relay, hrelay, rfl⟩
    intro hnil
    exact hopen (List.isEmpty_iff.mpr hnil)
  · rintro ⟨node, rfl, app, happ, step, hstep, hplace, hopIn, hhopIn, hopen, relay, hrelay, rfl⟩
    refine List.mem_flatMap.mpr ⟨node, by simp, List.mem_flatMap.mpr ⟨app, happ,
      List.mem_flatMap.mpr ⟨step, List.mem_filter.mpr ⟨hstep, by simpa using hplace⟩,
        List.mem_flatMap.mpr ⟨hopIn, by simp [hhopIn], ?_⟩⟩⟩⟩
    rw [if_neg fun hnil => hopen (List.isEmpty_iff.mp hnil)]
    exact List.mem_map.mpr ⟨relay, hrelay, rfl⟩

theorem ingressHolders_owned {app : AppIr} (happ : app ∈ apps) {ingress : Ir.Ingress}
    (hingress : ingress ∈ app.ingresses) (hnode : ingress.node = nodeId)
    (hwires : wireSuffixes ingress.wires ≠ []) {holder : Identity × String × String}
    (h : holder ∈ ingressHolders probeUuid app ingress) :
    Owned systemNode apps nodeId holder.1 holder.2.2 := by
  have hopen : (app.appId, ingress.id) ∈ openIngresses apps nodeId :=
    mem_openIngresses.mpr ⟨app, happ, ingress, hingress, hnode, hwires, rfl⟩
  unfold ingressHolders at h
  rcases List.mem_append.mp h with hgrants | hprobes
  · obtain ⟨grant, hgrant, hfound⟩ := List.mem_filterMap.mp hgrants
    obtain ⟨hgrant, hof⟩ := List.mem_filter.mp hgrant
    obtain ⟨user, huser, rfl⟩ := Option.map_eq_some_iff.mp hfound
    have hsame := List.find?_some huser
    rw [Bool.and_eq_true, decide_eq_true_eq, decide_eq_true_eq] at hsame
    exact .user happ hgrant ⟨user, List.mem_of_find?_eq_some huser, hsame⟩
      ⟨ingress, hingress, (of_decide_eq_true hof).symm⟩
  · rcases List.mem_cons.mp hprobes with rfl | hroles
    · exact .ingress hopen none fun r hr => by cases hr
    · obtain ⟨role, hrole, rfl⟩ := List.mem_map.mp hroles
      refine .ingress hopen (some role) fun r hr => ?_
      cases hr
      exact hrole

theorem hopHolders_owned {app : AppIr} {step : Ir.Step} {security : HopWire}
    (hopen : ∀ relay ∈ ordinaryRelays app step nodeId,
      (⟨relay.1.1, relay.1.2, relay.2.label, isProbed security⟩ : Relay)
        ∈ openRelays systemNode apps nodeId) {holder : Identity × String × String}
    (h : holder ∈ hopHolders probeUuid app step nodeId security) :
    Owned systemNode apps nodeId holder.1 holder.2.2 := by
  unfold hopHolders at h
  rcases List.mem_append.mp h with hplain | hprobes
  · obtain ⟨relay, hrelay, rfl⟩ := List.mem_map.mp hplain
    exact .relay (hopen relay hrelay) none fun x hx => by cases hx
  · split at hprobes
    next hprobed =>
      obtain ⟨relay, hrelay, hroles⟩ := List.mem_flatMap.mp hprobes
      obtain ⟨role, hrole, rfl⟩ := List.mem_map.mp hroles
      refine .relay (hopen relay hrelay) (some role) fun x hx => ?_
      cases hx
      exact ⟨hprobed, hrole⟩
    · cases hprobes

/-- **Who has an account of the machine, and that its tag is an inbound's.** -/
theorem machineAccounts_owned {account : Account}
    (h : account ∈ machineAccounts probeUuid systemNode apps nodeId) :
    Owned systemNode apps nodeId account.identity account.label ∧
      ∃ rest, account.tag = "in:" ++ rest := by
  rcases List.mem_append.mp h with hmem | hmem
  · obtain ⟨app, happ, hmem⟩ := List.mem_flatMap.mp hmem
    obtain ⟨ingress, hingress, hmem⟩ := List.mem_flatMap.mp hmem
    obtain ⟨wire, hwire, hmem⟩ := List.mem_flatMap.mp hmem
    obtain ⟨holder, hholder, rfl⟩ := List.mem_map.mp hmem
    obtain ⟨hin, hnode⟩ := List.mem_filter.mp hingress
    refine ⟨ingressHolders_owned happ hin (by simpa using hnode) (List.ne_nil_of_mem hwire) hholder, ?_⟩
    show ∃ rest, ingressTag app ingress.id ++ wire = "in:" ++ rest
    unfold ingressTag
    cases app.appId with
    | none => exact ⟨ingress.id ++ wire, by simp [toString, String.append_assoc]⟩
    | some appId =>
      exact ⟨appId ++ "/" ++ ingress.id ++ wire, by simp [toString, String.append_assoc]⟩
  · obtain ⟨node, hnode, hmem⟩ := List.mem_flatMap.mp hmem
    obtain ⟨app, happ, hmem⟩ := List.mem_flatMap.mp hmem
    obtain ⟨step, hstep, hmem⟩ := List.mem_flatMap.mp hmem
    obtain ⟨hopIn, hhopIn, hmem⟩ := List.mem_flatMap.mp hmem
    obtain ⟨listen, hlisten, hmem⟩ := List.mem_flatMap.mp hmem
    obtain ⟨holder, hholder, rfl⟩ := List.mem_map.mp hmem
    obtain ⟨hin, hplace⟩ := List.mem_filter.mp hstep
    refine ⟨hopHolders_owned (fun relay hrelay => ?_) hholder, ?_⟩
    · exact mem_openRelays.mpr ⟨node, by simpa using hnode, app, happ, step, hin,
        by simpa using hplace, hopIn, by simpa using hhopIn, List.ne_nil_of_mem hlisten, relay,
        hrelay, rfl⟩
    · show ∃ rest, hopTag app step.chain listen.2 = "in:" ++ rest
      unfold hopTag hopInboundTag
      cases listen.2 with
      | false =>
        cases app.appId with
        | none => exact ⟨"hop:" ++ step.chain, by simp [toString, ← String.append_assoc]⟩
        | some appId =>
          exact ⟨"hop:" ++ appId ++ "/" ++ step.chain,
            by simp [toString, ← String.append_assoc]⟩
      | true =>
        cases app.appId with
        | none => exact ⟨"hop:" ++ step.chain ++ ":local", by simp [toString, ← String.append_assoc]⟩
        | some appId =>
          exact ⟨"hop:" ++ appId ++ "/" ++ step.chain ++ ":local",
            by simp [toString, ← String.append_assoc]⟩

theorem exists_ingress_account {i : Option String × String} (h : i ∈ openIngresses apps nodeId)
    {role : Option String} (hrole : ∀ r, role = some r → r ∈ probeRoles) :
    ∃ account ∈ machineAccounts probeUuid systemNode apps nodeId,
      account.identity = .ingress i.1 i.2 role ∧
        account.label = roleLabel (probeLabel i.2) role := by
  obtain ⟨app, happ, ingress, hin, hnode, hwires, rfl⟩ := mem_openIngresses.mp h
  obtain ⟨wire, hwire⟩ := List.exists_mem_of_ne_nil _ hwires
  have hholder : ∃ holder ∈ ingressHolders probeUuid app ingress,
      holder.1 = .ingress app.appId ingress.id role ∧
        holder.2.2 = roleLabel (probeLabel ingress.id) role := by
    unfold ingressHolders
    cases role with
    | none => exact ⟨_, List.mem_append_right _ List.mem_cons_self, rfl, rfl⟩
    | some r =>
      refine ⟨_, List.mem_append_right _ (List.mem_cons_of_mem _ (List.mem_map.mpr
        ⟨r, hrole r rfl, rfl⟩)), rfl, rfl⟩
  obtain ⟨holder, hholder, hidentity, hlabel⟩ := hholder
  refine ⟨heldBy (ingressTag app ingress.id ++ wire) holder, List.mem_append_left _ ?_, hidentity,
    hlabel⟩
  exact List.mem_flatMap.mpr ⟨app, happ, List.mem_flatMap.mpr
    ⟨ingress, List.mem_filter.mpr ⟨hin, by simpa using hnode⟩,
      List.mem_flatMap.mpr ⟨wire, hwire, List.mem_map_of_mem hholder⟩⟩⟩

/-- A credential that is admitted has an account of its own, and one for each role it has. -/
theorem exists_relay_account {r : Relay} (h : r ∈ openRelays systemNode apps nodeId)
    {role : Option String} (hrole : ∀ x, role = some x → r.probed = true ∧ x ∈ probeRoles) :
    ∃ account ∈ machineAccounts probeUuid systemNode apps nodeId,
      account.identity = .relay r.chain r.node role ∧ account.label = roleLabel r.label role := by
  obtain ⟨node, rfl, app, happ, step, hin, hplace, hopIn, hhopIn, hopen, relay, hrelay, rfl⟩ :=
    mem_openRelays.mp h
  obtain ⟨listen, hlisten⟩ := List.exists_mem_of_ne_nil _ hopen
  have hholder : ∃ holder ∈ hopHolders probeUuid app step nodeId hopIn.security,
      holder.1 = .relay relay.1.1 relay.1.2 role ∧ holder.2.2 = roleLabel relay.2.label role := by
    unfold hopHolders
    cases role with
    | none => exact ⟨_, List.mem_append_left _ (List.mem_map.mpr ⟨relay, hrelay, rfl⟩), rfl, rfl⟩
    | some x =>
      obtain ⟨hprobed, hx⟩ := hrole x rfl
      dsimp only at hprobed ⊢
      rw [if_pos hprobed]
      exact ⟨_, List.mem_append_right _ (List.mem_flatMap.mpr
        ⟨relay, hrelay, List.mem_map.mpr ⟨x, hx, rfl⟩⟩), rfl, rfl⟩
  obtain ⟨holder, hholder, hidentity, hlabel⟩ := hholder
  refine ⟨heldBy (hopTag app step.chain listen.2) holder, List.mem_append_right _ ?_, hidentity,
    hlabel⟩
  refine List.mem_flatMap.mpr ⟨node, by simp, List.mem_flatMap.mpr ⟨app, happ, List.mem_flatMap.mpr
    ⟨step, List.mem_filter.mpr ⟨hin, by simpa using hplace⟩, ?_⟩⟩⟩
  exact List.mem_flatMap.mpr ⟨hopIn, by simp [hhopIn],
    List.mem_flatMap.mpr ⟨listen, hlisten, List.mem_map_of_mem hholder⟩⟩

end Owners

end Brocade.Physical
