/-
The devices of one machine's phantun instances.

Every instance has a device of its own and a pair of addresses out of 192.168.200.0/24, four
addresses to an instance, and every client a port on loopback.  Nothing counts the instances
against what the network holds: the devices are apart exactly where there are at most sixty-four
of them (`phantun_apart`), and a machine with more is not refused (`phantun_shared`).
-/
import Brocade.Physical.Backbone

namespace Brocade.Physical

open Ir Model Address

/-! ### What the devices are to be -/

def PhantunPlan.tuns (plan : PhantunPlan) : List PhantunTun :=
  plan.servers.map (·.tun) ++ plan.clients.map (·.tun)

/-- The peers a machine dials through clients, each with what its client dials. -/
def disguisedPeers (sys : SystemIr) (nodeId : String) : List (String × String) :=
  OrdMap.pairSet ((touching sys nodeId).filterMap (disguisedPeer nodeId))

/-- Addresses out of the block of this number. -/
def InBlock (block : ℕ) (tun : PhantunTun) : Prop :=
  tun.kernel = phantunTunNet + BitVec.ofNat 32 (4 * block + 1)
    ∧ tun.peer = phantunTunNet + BitVec.ofNat 32 (4 * block + 2)

/-- No two instances share a name, an address or a port, and no number was cut off. -/
structure Apart (peers : List (String × String)) (plan : PhantunPlan) : Prop where
  names : (plan.tuns.map (·.name)).Nodup
  addresses : (plan.tuns.flatMap fun tun => [tun.kernel, tun.peer]).Nodup
  blocks : ∀ tun ∈ plan.tuns, ∃ block < 64, InBlock block tun
  octet : ∀ index < plan.tuns.length, 4 * index + 2 < 2 ^ 8
  ports : (plan.clients.map (·.listenUdpPort)).Nodup
  unwrapped : ∀ client ∈ plan.clients, ∃ place,
    peers[place]? = some (client.peerNodeId, client.remoteTcpEndpoint)
      ∧ client.listenUdpPort = phantunLocalPortBase + place

/-- How many servers a machine hosts: one for each port its links name, where it has a port of its
own to forward to. -/
def serverCount (sys : SystemIr) (nodeId : String) (wg : WireGuard) : ℕ :=
  if wg.listenPort.isSome then
    (OrdMap.keySet ((touching sys nodeId).filterMap (serverPort nodeId))).length
  else 0

/-- How many machines it dials through a client. -/
def clientCount (sys : SystemIr) (nodeId : String) : ℕ :=
  (OrdMap.keySet ((disguisedPeers sys nodeId).map Prod.fst)).length

/-- There are no more instances than the network has blocks, and no more endpoints than ports. -/
def Fits (sys : SystemIr) (nodeId : String) : Prop :=
  ∀ me, sys.nodes.find? (·.id = nodeId) = some me → ∀ wg, me.wireguard = some wg →
    serverCount sys nodeId wg + clientCount sys nodeId ≤ 64
      ∧ (disguisedPeers sys nodeId).length ≤ 2 ^ 16 - phantunLocalPortBase

/-! ### Addresses -/

theorem inBlock_phantunTun (kind : String) {index : ℕ} (h : index < 64) :
    InBlock index (phantunTun kind index) := by
  have hbase : 4 * (index % 2 ^ 8) % 2 ^ 8 = 4 * index := by omega
  constructor
  · show phantunTunNet + BitVec.ofNat 32 (4 * (index % 2 ^ 8) % 2 ^ 8 + 1) = _
    rw [hbase]
  · show phantunTunNet + BitVec.ofNat 32 (4 * (index % 2 ^ 8) % 2 ^ 8 + 2) = _
    rw [hbase]

theorem net_add_inj {a b : ℕ} (ha : a < 2 ^ 32) (hb : b < 2 ^ 32)
    (h : phantunTunNet + BitVec.ofNat 32 a = phantunTunNet + BitVec.ofNat 32 b) : a = b := by
  have hnat := congrArg BitVec.toNat ((BitVec.add_right_inj _).mp h)
  rw [BitVec.toNat_ofNat, BitVec.toNat_ofNat, Nat.mod_eq_of_lt ha, Nat.mod_eq_of_lt hb] at hnat
  exact hnat

/-- The addresses of as many devices as fit, numbered from nothing, are all different. -/
theorem nodup_addresses {kinds : ℕ → String} {count : ℕ} (h : count ≤ 64) :
    (((List.range count).map fun index => phantunTun (kinds index) index).flatMap
      fun tun => [tun.kernel, tun.peer]).Nodup := by
  rw [List.flatMap_map, List.nodup_flatMap]
  constructor
  · intro index hindex
    obtain ⟨hkernel, hpeer⟩ :=
      inBlock_phantunTun (kinds index) (lt_of_lt_of_le (List.mem_range.mp hindex) h)
    show [(phantunTun (kinds index) index).kernel, (phantunTun (kinds index) index).peer].Nodup
    rw [hkernel, hpeer]
    simp only [List.nodup_cons, List.mem_singleton, List.not_mem_nil, not_false_eq_true,
      List.nodup_nil, and_true]
    intro heq
    rw [List.mem_range] at hindex
    have := net_add_inj (by omega) (by omega) heq
    omega
  · refine (List.pairwise_lt_range (n := count)).imp_of_mem ?_
    intro i j hi hj hlt
    rw [List.mem_range] at hi hj
    obtain ⟨hkernelI, hpeerI⟩ := inBlock_phantunTun (kinds i) (lt_of_lt_of_le hi h)
    obtain ⟨hkernelJ, hpeerJ⟩ := inBlock_phantunTun (kinds j) (lt_of_lt_of_le hj h)
    show List.Disjoint [(phantunTun (kinds i) i).kernel, (phantunTun (kinds i) i).peer]
      [(phantunTun (kinds j) j).kernel, (phantunTun (kinds j) j).peer]
    rw [hkernelI, hpeerI, hkernelJ, hpeerJ]
    intro address hmemI hmemJ
    simp only [List.mem_cons, List.not_mem_nil, or_false] at hmemI hmemJ
    rcases hmemI with rfl | rfl <;> rcases hmemJ with heq | heq
    · have := net_add_inj (by omega) (by omega) heq
      omega
    · have := net_add_inj (by omega) (by omega) heq
      omega
    · have := net_add_inj (by omega) (by omega) heq
      omega
    · have := net_add_inj (by omega) (by omega) heq
      omega

theorem name_inj {kind kind' : String} {i j : ℕ} (hkind : kind.toList.length = 1)
    (hkind' : kind'.toList.length = 1)
    (h : (phantunTun kind i).name = (phantunTun kind' j).name) : kind = kind' ∧ i = j := by
  have hname : "bt" ++ kind ++ toString i = "bt" ++ kind' ++ toString j := h
  have hlist := congrArg String.toList hname
  simp only [String.toList_append] at hlist
  obtain ⟨hfront, hback⟩ := List.append_inj hlist (by simp [hkind, hkind'])
  have hkinds := List.append_cancel_left hfront
  exact ⟨String.toList_inj.mp hkinds, Text.toString_nat_injective (String.toList_inj.mp hback)⟩

/-! ### The instances of a plan -/

theorem phantunServers_tuns (udpPort : ℕ) (byPort : OrdMap ℕ (List String)) :
    (phantunServers (some udpPort) byPort).map (·.tun)
      = (List.range byPort.entries.length).map (phantunTun "s") := by
  rw [List.range_eq_range', ← List.zipIdx_map_snd 0 byPort.entries, List.map_map]
  show (byPort.entries.zipIdx.map _).map _ = _
  rw [List.map_map]
  rfl

theorem phantunClients_eq (servers : ℕ) (locals : OrdMap String (ℕ × String)) :
    phantunClients servers locals = locals.entries.zipIdx.map fun entry =>
      ⟨entry.1.1, entry.1.2.1, entry.1.2.2, phantunTun "c" (servers + entry.2)⟩ := by
  refine List.Pairwise.insertionSort_eq (List.pairwise_map.mpr ?_)
  have hentries : (locals.entries.zipIdx.map Prod.fst).Pairwise fun a b => a.1 < b.1 := by
    rw [List.zipIdx_map_fst]
    exact locals.sorted
  exact (List.pairwise_map.mp hentries).imp fun h => le_of_lt h

theorem phantunClients_tuns (servers : ℕ) (locals : OrdMap String (ℕ × String)) :
    (phantunClients servers locals).map (·.tun)
      = (List.range locals.entries.length).map fun index => phantunTun "c" (servers + index) := by
  rw [phantunClients_eq, List.range_eq_range', ← List.zipIdx_map_snd 0 locals.entries,
    List.map_map, List.map_map]
  rfl

theorem phantunClients_peers (servers : ℕ) (locals : OrdMap String (ℕ × String)) :
    (phantunClients servers locals).map (·.peerNodeId) = locals.keys := by
  have hkeys : locals.keys = (locals.entries.zipIdx.map Prod.fst).map Prod.fst := by
    rw [List.zipIdx_map_fst]
    rfl
  rw [phantunClients_eq, hkeys, List.map_map, List.map_map]
  rfl

theorem of_mem_phantunClients {servers : ℕ} {locals : OrdMap String (ℕ × String)}
    {client : PhantunClientPlan} (h : client ∈ phantunClients servers locals) :
    locals.get? client.peerNodeId = some (client.listenUdpPort, client.remoteTcpEndpoint) := by
  rw [phantunClients_eq] at h
  obtain ⟨⟨⟨id, port, remote⟩, index⟩, hentry, rfl⟩ := List.mem_map.mp h
  exact OrdMap.mem_entries.mp (List.mem_of_getElem? (List.mk_mem_zipIdx_iff_getElem?.mp hentry))

theorem length_eq_of_mem_iff {α : Type} {as bs : List α} (ha : as.Nodup) (hb : bs.Nodup)
    (h : ∀ a, a ∈ as ↔ a ∈ bs) : as.length = bs.length :=
  ((List.perm_ext_iff_of_nodup ha hb).mpr h).length_eq

variable {nodeId : String} {links : List Link} {sys : SystemIr}

theorem contains_serversByPort {port : ℕ} : (serversByPort nodeId links).contains port = true
      ↔ ∃ link ∈ links, serverPort nodeId link = some port := by
  have hstep : ∀ (byPort : OrdMap ℕ (List String)) (link : Link),
      (addServer nodeId byPort link).contains port = true
        ↔ byPort.contains port = true ∨ serverPort nodeId link = some port := by
    intro byPort link
    unfold addServer
    cases hport : serverPort nodeId link with
    | none => simp
    | some other =>
      dsimp only
      rw [OrdMap.contains, OrdMap.get?_insert]
      by_cases heq : port = other
      · simp [heq]
      · rw [if_neg heq]
        simp [OrdMap.contains, Ne.symm heq]
  have hfold : ∀ (links : List Link) (byPort : OrdMap ℕ (List String)),
      (links.foldl (addServer nodeId) byPort).contains port = true
        ↔ byPort.contains port = true ∨ ∃ link ∈ links, serverPort nodeId link = some port := by
    intro links
    induction links with
    | nil => simp
    | cons link links ih =>
      intro byPort
      rw [List.foldl_cons, ih, hstep]
      simp [or_assoc]
  rw [serversByPort, hfold]
  simp [OrdMap.contains]

theorem serversByPort_length (nodeId : String) (links : List Link) :
    (serversByPort nodeId links).entries.length
      = (OrdMap.keySet (links.filterMap (serverPort nodeId))).length := by
  have hkeys : (serversByPort nodeId links).entries.length
      = (serversByPort nodeId links).keys.length := by simp [OrdMap.keys]
  rw [hkeys]
  refine length_eq_of_mem_iff (OrdMap.nodup_keys _) (OrdMap.nodup_keySet _) ?_
  intro port
  rw [OrdMap.mem_keys, contains_serversByPort, OrdMap.mem_keySet, List.mem_filterMap]

theorem mem_fakeTcpLocalPorts {me : String} {id : String} {client : ℕ × String}
    (h : (fakeTcpLocalPorts me links).get? id = some client) :
    ∃ place, (OrdMap.pairSet (links.filterMap (disguisedPeer me)))[place]? = some (id, client.2)
      ∧ client.1 = localPort place := by
  rw [fakeTcpLocalPorts, OrdMap.get?_ofList] at h
  obtain ⟨⟨⟨peer, remote⟩, place⟩, hentry, heq⟩ := List.mem_map.mp (OrdMap.mem_of_lastOf h)
  injection heq with hid hclient
  subst hid hclient
  exact ⟨place, List.mk_mem_zipIdx_iff_getElem?.mp hentry, rfl⟩

theorem fakeTcpLocalPorts_last {me : String} {front : List (String × String)}
    {last : String × String}
    (h : OrdMap.pairSet (links.filterMap (disguisedPeer me)) = front ++ [last]) :
    (fakeTcpLocalPorts me links).get? last.1 = some (localPort front.length, last.2) := by
  rw [fakeTcpLocalPorts, OrdMap.get?_ofList, h, List.zipIdx_append, List.map_append,
    OrdMap.lastOf_append]
  simp [OrdMap.lastOf]

theorem fakeTcpLocalPorts_length (me : String) (links : List Link) :
    (fakeTcpLocalPorts me links).entries.length
      = (OrdMap.keySet ((OrdMap.pairSet (links.filterMap (disguisedPeer me))).map
          Prod.fst)).length := by
  have hkeys : (fakeTcpLocalPorts me links).entries.length
      = (fakeTcpLocalPorts me links).keys.length := by simp [OrdMap.keys]
  rw [hkeys]
  refine length_eq_of_mem_iff (OrdMap.nodup_keys _) (OrdMap.nodup_keySet _) ?_
  intro id
  rw [OrdMap.mem_keys, OrdMap.contains_iff, OrdMap.mem_keySet, List.mem_map]
  constructor
  · rintro ⟨client, hclient⟩
    obtain ⟨place, hplace, -⟩ := mem_fakeTcpLocalPorts hclient
    exact ⟨_, List.mem_of_getElem? hplace, rfl⟩
  · rintro ⟨pair, hpair, rfl⟩
    obtain ⟨link, hlink, hdisguised⟩ := List.mem_filterMap.mp (OrdMap.mem_pairSet.mp hpair)
    exact fakeTcpLocalPorts_isSome hlink hdisguised

/-! ### When the devices are apart -/

theorem phantunPlan_eq_some {plan : PhantunPlan} (h : phantunPlan sys nodeId = some plan) :
    ∃ me wg, sys.nodes.find? (·.id = nodeId) = some me ∧ me.wireguard = some wg
      ∧ plan.servers = phantunServers wg.listenPort (serversByPort nodeId (touching sys nodeId))
      ∧ plan.clients = phantunClients plan.servers.length
        (fakeTcpLocalPorts nodeId (touching sys nodeId)) := by
  unfold phantunPlan at h
  obtain ⟨me, hme, h⟩ := Option.bind_eq_some_iff.mp h
  obtain ⟨wg, hwg, h⟩ := Option.bind_eq_some_iff.mp h
  have hid : me.id = nodeId := by simpa using List.find?_some hme
  rw [hid] at h
  unfold phantunInstances at h
  dsimp only at h
  split at h
  · cases h
  · injection h with h
    subst h
    exact ⟨me, wg, hme, hwg, rfl, rfl⟩

theorem serverCount_eq {wg : WireGuard} :
    (phantunServers wg.listenPort (serversByPort nodeId (touching sys nodeId))).length
      = serverCount sys nodeId wg := by
  unfold serverCount
  cases wg.listenPort with
  | none => rfl
  | some udpPort =>
    show (_ : List PhantunServerPlan).length = _
    rw [phantunServers, List.length_map, List.length_zipIdx, serversByPort_length]
    rfl

theorem clientCount_eq (servers : ℕ) :
    (phantunClients servers (fakeTcpLocalPorts nodeId (touching sys nodeId))).length
      = clientCount sys nodeId := by
  rw [phantunClients_eq, List.length_map, List.length_zipIdx, fakeTcpLocalPorts_length]
  rfl

/-- The devices in their order: the servers' and then the clients', numbered through. -/
theorem tuns_eq {plan : PhantunPlan} (h : phantunPlan sys nodeId = some plan) :
    plan.tuns = (List.range (plan.servers.length + plan.clients.length)).map fun index =>
      phantunTun (if index < plan.servers.length then "s" else "c") index := by
  obtain ⟨me, wg, -, -, hservers, hclients⟩ := phantunPlan_eq_some h
  have hfirst : plan.servers.map (·.tun)
      = (List.range plan.servers.length).map (phantunTun "s") := by
    rw [hservers]
    cases wg.listenPort with
    | none => rfl
    | some udpPort =>
      rw [phantunServers_tuns]
      simp [phantunServers]
  have hsecond : plan.clients.map (·.tun) = (List.range plan.clients.length).map fun index =>
      phantunTun "c" (plan.servers.length + index) := by
    have hlength : plan.clients.length
        = (fakeTcpLocalPorts nodeId (touching sys nodeId)).entries.length := by
      rw [hclients, phantunClients_eq, List.length_map, List.length_zipIdx]
    rw [hlength, hclients]
    exact phantunClients_tuns _ _
  rw [PhantunPlan.tuns, hfirst, hsecond, List.range_add, List.map_append, List.map_map]
  congr 1
  · refine List.map_congr_left ?_
    intro index hindex
    rw [if_pos (List.mem_range.mp hindex)]
  · refine List.map_congr_left ?_
    intro index _
    simp

theorem nodup_names (servers count : ℕ) : ((List.range count).map fun index =>
      (phantunTun (if index < servers then "s" else "c") index).name).Nodup := by
  refine List.Nodup.map ?_ List.nodup_range
  intro i j hij
  refine (name_inj ?_ ?_ hij).2
  · split <;> rfl
  · split <;> rfl

/-- The instances of a machine are apart exactly where there is room for them. -/
theorem phantun_apart (sys : SystemIr) (nodeId : String) :
    (∀ plan, phantunPlan sys nodeId = some plan → Apart (disguisedPeers sys nodeId) plan)
      ↔ ((phantunPlan sys nodeId).isSome = true → Fits sys nodeId) := by
  constructor
  · intro hapart hplan
    obtain ⟨plan, hplan⟩ := Option.isSome_iff_exists.mp hplan
    have h := hapart plan hplan
    obtain ⟨me, wg, hme, hwg, hservers, hclients⟩ := phantunPlan_eq_some hplan
    intro me' hme' wg' hwg'
    rw [hme] at hme'
    injection hme' with hme'
    subst hme'
    rw [hwg] at hwg'
    injection hwg' with hwg'
    subst hwg'
    have hcount : plan.tuns.length = serverCount sys nodeId wg + clientCount sys nodeId := by
      rw [tuns_eq hplan, List.length_map, List.length_range, ← serverCount_eq, ← hservers,
        ← clientCount_eq plan.servers.length, ← hclients]
    constructor
    · rw [← hcount]
      by_contra hmany
      have := h.octet 64 (by omega)
      omega
    · -- the last of the endpoints has a client, whose port shows whether it was cut off
      by_contra hmany
      have hne : disguisedPeers sys nodeId ≠ [] := by
        intro hempty
        rw [hempty] at hmany
        exact hmany (Nat.zero_le _)
      obtain ⟨front, last, hlast⟩ : ∃ front last, disguisedPeers sys nodeId = front ++ [last] :=
        ⟨_, _, (List.dropLast_append_getLast hne).symm⟩
      have hlength : (disguisedPeers sys nodeId).length = front.length + 1 := by
        rw [hlast]
        simp
      have hget := fakeTcpLocalPorts_last hlast
      obtain ⟨client, hclient, hpeer, hport, hremote⟩ :=
        @mem_phantunClients plan.servers.length _ _ _ hget
      rw [← hclients] at hclient
      obtain ⟨place, hplace, hnumber⟩ := h.unwrapped client hclient
      have hfront : (disguisedPeers sys nodeId)[front.length]? = some last := by
        rw [hlast]
        simp
      have hsame : place = front.length := by
        have hnodup : (disguisedPeers sys nodeId).Nodup := OrdMap.nodup_pairSet _
        have hlt : place < (disguisedPeers sys nodeId).length :=
          (List.getElem?_eq_some_iff.mp hplace).1
        have hinside : front.length < (disguisedPeers sys nodeId).length := by omega
        refine (@List.Nodup.getElem_inj_iff _ _ hnodup _ hlt _ hinside).mp ?_
        rw [List.getElem?_eq_getElem hlt] at hplace
        rw [List.getElem?_eq_getElem (by omega : front.length < _)] at hfront
        rw [Option.some.inj hplace, Option.some.inj hfront, hpeer, hremote]
      rw [hport, hsame] at hnumber
      have hcut : localPort front.length < 2 ^ 16 := Nat.mod_lt _ (by decide)
      omega
  · intro hfits plan hplan
    obtain ⟨me, wg, hme, hwg, hservers, hclients⟩ := phantunPlan_eq_some hplan
    obtain ⟨hcount, hpeers⟩ :=
      hfits (Option.isSome_iff_exists.mpr ⟨plan, hplan⟩) me hme wg hwg
    have hroom : plan.servers.length + plan.clients.length ≤ 64 := by
      rw [← serverCount_eq, ← hservers, ← clientCount_eq plan.servers.length, ← hclients]
        at hcount
      exact hcount
    have hunwrapped : ∀ client ∈ plan.clients, ∃ place, (disguisedPeers sys nodeId)[place]?
            = some (client.peerNodeId, client.remoteTcpEndpoint)
          ∧ client.listenUdpPort = phantunLocalPortBase + place := by
      intro client hclient
      rw [hclients] at hclient
      obtain ⟨place, hplace, hport⟩ :=
        mem_fakeTcpLocalPorts (of_mem_phantunClients hclient)
      have hlt : place < (disguisedPeers sys nodeId).length :=
        (List.getElem?_eq_some_iff.mp hplace).1
      refine ⟨place, hplace, hport.trans ?_⟩
      unfold phantunLocalPortBase at hpeers
      unfold localPort phantunLocalPortBase
      omega
    have hnodup : (plan.clients.map (·.peerNodeId)).Nodup := by
      rw [hclients, phantunClients_peers]
      exact OrdMap.nodup_keys _
    constructor
    · rw [tuns_eq hplan, List.map_map]
      exact nodup_names plan.servers.length _
    · rw [tuns_eq hplan]
      exact nodup_addresses hroom
    · rw [tuns_eq hplan]
      intro tun htun
      obtain ⟨index, hindex, rfl⟩ := List.mem_map.mp htun
      have hlt := lt_of_lt_of_le (List.mem_range.mp hindex) hroom
      exact ⟨index, hlt, inBlock_phantunTun _ hlt⟩
    · rw [tuns_eq hplan, List.length_map, List.length_range]
      intro index hindex
      omega
    · refine List.Nodup.map_on ?_ (List.Nodup.of_map _ hnodup)
      intro client hclient other hother hsame
      obtain ⟨place, hplace, hport⟩ := hunwrapped client hclient
      obtain ⟨place', hplace', hport'⟩ := hunwrapped other hother
      have : place = place' := by omega
      subst this
      rw [hplace] at hplace'
      injection hplace' with hpair
      injection hpair with hpeer _
      exact List.inj_on_of_nodup_map hnodup hclient hother hpeer
    · exact hunwrapped

/-! ### One machine too many -/

/-- A machine of the mesh without a port of its own to dial. -/
def meshNode (id : String) (place : ℕ) : SystemNode where
  id := id
  tenant := "acme"
  certificateGroupId := none
  certificateTrack := none
  overlayAddr := some (0x0A420001#32 + BitVec.ofNat 32 place)
  wireguard := some ⟨"private", "public", some 51820, none⟩
  mtu := 1420

/-- Machines behind NAT, each of which dials `hub` at the port it declared. -/
def crowdedMesh (count : ℕ) : SystemIr where
  revision := 1
  overlayCidr := ⟨0x0A420000#32, 16⟩
  settings := plainSettings
  nodeCount := count + 1
  nodes := meshNode "hub" 0 :: (List.range count).map fun i => meshNode s!"n{i}" (i + 1)
  links := (List.range count).map fun i => {
    id := s!"l-hub-n{i}"
    a := "hub"
    b := s!"n{i}"
    dial := .bToA
    keepaliveSecs := 25
    endpoints := .empty
    wrap := .fakeTcp (OrdMap.empty.insert "hub" s!"198.51.100.2:{4000 + i}") }

/-- With sixty-five servers the first and the last get the same addresses, and nothing is
reported. -/
theorem phantun_shared :
    validateSystem (crowdedMesh 65) = [] ∧ ∃ plan, phantunPlan (crowdedMesh 65) "hub" = some plan
        ∧ plan.tuns[0]?.map (·.kernel) = plan.tuns[64]?.map (·.kernel)
        ∧ ¬ Apart (disguisedPeers (crowdedMesh 65) "hub") plan := by
  refine ⟨by decide +kernel, ?_⟩
  have hshared : (phantunPlan (crowdedMesh 65) "hub").any (fun plan =>
      plan.tuns[0]?.map (·.kernel) == plan.tuns[64]?.map (·.kernel)
        && decide (64 < plan.tuns.length)) = true := by decide +kernel
  cases hplan : phantunPlan (crowdedMesh 65) "hub" with
  | none =>
    rw [hplan] at hshared
    cases hshared
  | some plan =>
    rw [hplan, Option.any_some, Bool.and_eq_true, beq_iff_eq, decide_eq_true_eq] at hshared
    refine ⟨plan, rfl, hshared.1, ?_⟩
    intro h
    have := h.octet 64 hshared.2
    omega

end Brocade.Physical
