/-
The compiler's ports against those the checks count.

The checks list what holds a port, once for every project and once across projects; the
compiler lists again what it must not draw.  Its list has every kind of listener there is on
TCP but the servers of a disguised link, so its ports are apart from all others, and from those
exactly where no such server sits among the first free ports of the range.
-/
import Brocade.Physical.Ingresses

namespace Brocade.Physical

open Ir Model

/-- The ports of a machine that the checks count as held, in all projects and over them. -/
def countedPorts (sys : SystemIr) (apps : List AppIr) (nodeId : String) : List (Proto × ℕ) :=
  (apps.flatMap fun app => (app.nodes.filter (·.id = nodeId)).flatMap fun node =>
      (portClaims sys app node).map (·.1))
    ++ ((apps.zipIdx.flatMap fun app => appPortClaims app.1 app.2).filter
      (·.1.1 = nodeId)).map (·.1.2)

/-- The servers of disguised links on a machine, as the checks count them. -/
def fakeTcpPorts (sys : SystemIr) (nodeId : String) : List ℕ :=
  (sys.nodes.find? (·.id = nodeId)).toList.flatMap fun _ =>
    OrdMap.keySet ((sys.links.filterMap fun link => link.wrap.serverOn nodeId).filterMap
      endpointPort)

/-- How many internal ports the ingresses of a machine ask for. -/
def internalDemand (apps : List AppIr) (nodeId : String) : ℕ :=
  ((undrawnIngresses apps nodeId).flatMap (·.internalPorts)).length

/-- What this xray binds, by the compiler's list. -/
def xrayBound (apps : List AppIr) (nodeId : String) (apiPort : Option ℕ) : List ℕ :=
  boundPorts apps nodeId apiPort (undrawnIngresses apps nodeId)

/-- The ports below a limit that the compiler may draw. -/
def openBelow (bound : List ℕ) (limit : ℕ) : List ℕ :=
  (List.range' internalPortBase (limit - internalPortBase)).filter (· ∉ bound)

/-! ### The first free ports -/

variable {port : ℕ} {app : AppIr} {node : AppNode} {nodeId : String}

theorem mem_take_openBelow {bound : List ℕ} {limit count : ℕ} :
    port ∈ (openBelow bound limit).take count ↔
      internalPortBase ≤ port ∧ port < limit ∧ port ∉ bound
        ∧ (openBelow bound port).length < count := by
  by_cases hrange : internalPortBase ≤ port ∧ port < limit
  · obtain ⟨hlow, hhigh⟩ := hrange
    have hcut : List.range' internalPortBase (limit - internalPortBase)
        = List.range' internalPortBase (port - internalPortBase)
          ++ port :: List.range' (port + 1) (limit - (port + 1)) := by
      have hlast : limit - internalPortBase
          = (port - internalPortBase) + ((limit - (port + 1)) + 1) := by omega
      have hfrom : internalPortBase + (port - internalPortBase) = port := by omega
      rw [hlast, ← List.range'_append_1, hfrom, List.range'_succ]
    have hbelow : port ∉ openBelow bound port := by
      intro hmem
      have hrange := List.mem_range'_1.mp (List.mem_of_mem_filter hmem)
      omega
    have habove : port ∉ (List.range' (port + 1) (limit - (port + 1))).filter (· ∉ bound) := by
      intro hmem
      have hrange := List.mem_range'_1.mp (List.mem_of_mem_filter hmem)
      omega
    by_cases hbound : port ∈ bound
    · refine iff_of_false ?_ (by simp [hbound])
      intro hmem
      have hopen := List.of_mem_filter (List.mem_of_mem_take hmem)
      simp [hbound] at hopen
    · have hopen : openBelow bound limit = openBelow bound port
          ++ port :: (List.range' (port + 1) (limit - (port + 1))).filter (· ∉ bound) := by
        rw [openBelow, hcut, List.filter_append, List.filter_cons_of_pos (by simpa using hbound)]
        rfl
      have hiff : port ∈ (openBelow bound limit).take count
          ↔ (openBelow bound port).length < count := by
        rw [hopen, List.take_append, List.mem_append]
        constructor
        · rintro (hmem | hmem)
          · exact absurd (List.mem_of_mem_take hmem) hbelow
          · cases hrest : count - (openBelow bound port).length with
            | zero => simp [hrest] at hmem
            | succ rest => omega
        · intro hcount
          obtain ⟨rest, hrest⟩ : ∃ rest, count - (openBelow bound port).length = rest + 1 :=
            ⟨count - (openBelow bound port).length - 1, by omega⟩
          rw [hrest, List.take_succ_cons]
          exact .inr List.mem_cons_self
      simp [hiff, hlow, hhigh, hbound]
  · refine iff_of_false ?_ (fun h => hrange ⟨h.1, h.2.1⟩)
    intro hmem
    have hin := List.mem_range'_1.mp (List.mem_of_mem_filter (List.mem_of_mem_take hmem))
    exact hrange (by omega)

/-! ### What the checks count -/

/-- A relay port opened on a machine. -/
def Relays (app : AppIr) (nodeId : String) (port : ℕ) : Prop :=
  ∃ step ∈ app.steps, step.node = nodeId ∧ ∃ hopIn, step.hopIn = some hopIn ∧ hopIn.port = port

/-- A TCP port held by an ingress of a machine. -/
def Admits (app : AppIr) (nodeId : String) (port : ℕ) : Prop :=
  ∃ ingress ∈ app.ingresses, ingress.node = nodeId ∧
    ∃ occupied ∈ occupiedIngressPorts ingress, occupied.proto = .tcp ∧ occupied.port = port

theorem tcp_of_portClaims {sys : SystemIr}
    (h : (Proto.tcp, port) ∈ (portClaims sys app node).map (·.1)) :
    port ∈ fakeTcpPorts sys node.id ∨ Relays app node.id port ∨ node.apiPort = some port
      ∨ Admits app node.id port := by
  obtain ⟨claim, hclaim, hkey⟩ := List.mem_map.mp h
  simp only [portClaims, List.mem_append, List.mem_flatMap, List.mem_map, List.mem_filterMap,
    Option.mem_toList, Option.map_eq_some_iff, List.mem_filter, decide_eq_true_eq] at hclaim
  rcases hclaim with (⟨systemNode, hsystem, (⟨_, _, rfl⟩ | ⟨step, ⟨hstep, hat⟩, hopIn, hhop, rfl⟩)
    | ⟨_, hfake, rfl⟩⟩ | ⟨_, hapi, rfl⟩) | ⟨ingress, ⟨hingress, hat⟩, occupied, hoccupied, rfl⟩
  · cases hkey
  · cases hkey
    exact .inr (.inl ⟨step, hstep, hat, hopIn, hhop, rfl⟩)
  · cases hkey
    refine .inl (List.mem_flatMap.mpr ⟨systemNode, ?_, hfake⟩)
    rwa [Option.mem_toList]
  · cases hkey
    exact .inr (.inr (.inl hapi))
  · injection hkey with hproto hport
    exact .inr (.inr (.inr ⟨ingress, hingress, hat, occupied, hoccupied, hproto, hport⟩))

theorem tcp_of_appPortClaims {index : ℕ} {claim : (String × Proto × ℕ) × ℕ × String}
    (h : claim ∈ appPortClaims app index) (hat : claim.1.1 = nodeId)
    (hkey : claim.1.2 = (Proto.tcp, port)) : Relays app nodeId port ∨ Admits app nodeId port := by
  simp only [appPortClaims, List.mem_append, List.mem_flatMap, List.mem_map, List.mem_filterMap,
    Option.map_eq_some_iff] at h
  rcases h with ⟨ingress, hingress, occupied, hoccupied, rfl⟩ | ⟨step, hstep, hopIn, hhop, rfl⟩
  · injection hkey with hproto hport
    exact .inr ⟨ingress, hingress, hat, occupied, hoccupied, hproto, hport⟩
  · injection hkey with hproto hport
    exact .inl ⟨step, hstep, hat, hopIn, hhop, hport⟩

theorem fakeTcp_counted {sys : SystemIr} (h : port ∈ fakeTcpPorts sys node.id) :
    (Proto.tcp, port) ∈ (portClaims sys app node).map (·.1) := by
  obtain ⟨systemNode, hsystem, hport⟩ := List.mem_flatMap.mp h
  refine List.mem_map.mpr ⟨((.tcp, port), "phantun 伪 TCP 口"), ?_, rfl⟩
  simp only [portClaims, List.mem_append, List.mem_flatMap, List.mem_map]
  exact .inl (.inl ⟨systemNode, hsystem, .inr ⟨port, hport, rfl⟩⟩)

/-! ### What the compiler keeps clear of -/

section

variable {apps : List AppIr} {nodeId : String} {apiPort : Option ℕ} {port : ℕ}

theorem mem_scoped_ingress {app : AppIr} (happ : app ∈ apps) {ingress : Ir.Ingress}
    (hingress : ingress ∈ app.ingresses) (hat : ingress.node = nodeId) :
    ingress ∈ ((scopeNodeApps apps nodeId).flatMap (·.ingresses)).filter (·.node = nodeId) := by
  refine List.mem_filter.mpr ⟨List.mem_flatMap.mpr ⟨scopeNodeApp apps nodeId app, ?_, ?_⟩, by
    simpa using hat⟩
  · exact List.mem_map_of_mem happ
  · exact List.mem_filter.mpr ⟨hingress, by simpa using hat⟩

theorem bound_of_relays {app : AppIr} (happ : app ∈ apps) (h : Relays app nodeId port) :
    port ∈ xrayBound (scopeNodeApps apps nodeId) nodeId apiPort := by
  obtain ⟨step, hstep, hat, hopIn, hhop, rfl⟩ := h
  have hscoped : step ∈ ((scopeNodeApps apps nodeId).flatMap (·.steps)).filter
      (·.node = nodeId) := by
    refine List.mem_filter.mpr ⟨List.mem_flatMap.mpr ⟨scopeNodeApp apps nodeId app, ?_, ?_⟩, by
      simpa using hat⟩
    · exact List.mem_map_of_mem happ
    · exact List.mem_filter.mpr ⟨hstep, by simpa using hat⟩
  have hmem : hopIn.port ∈ (((scopeNodeApps apps nodeId).flatMap (·.steps)).filter
      (·.node = nodeId)).filterMap fun step => step.hopIn.map (·.port) :=
    List.mem_filterMap.mpr ⟨step, hscoped, by rw [hhop]; rfl⟩
  simp only [xrayBound, boundPorts, List.mem_append]
  exact .inl (.inr hmem)

theorem mem_undrawn {app : AppIr} (happ : app ∈ apps) {ingress : Ir.Ingress}
    (hingress : ingress ∈ app.ingresses) (hat : ingress.node = nodeId) {inbound : XrayIngressPlan}
    (h : inbound ∈ ingressInbounds app ingress) : inbound ∈ undrawnIngresses apps nodeId := by
  simp only [undrawnIngresses, sortById, sortedApps, List.mem_insertionSort, List.mem_flatMap,
    List.mem_filter, decide_eq_true_eq]
  exact ⟨app, happ, ingress, ⟨hingress, hat⟩, h⟩

theorem bound_of_admits {app : AppIr} (happ : app ∈ apps) (h : Admits app nodeId port) :
    port ∈ xrayBound (scopeNodeApps apps nodeId) nodeId apiPort := by
  obtain ⟨ingress, hingress, hat, occupied, hoccupied, hproto, rfl⟩ := h
  have hhere := mem_scoped_ingress happ hingress hat
  have hwire : ∀ {port : ℕ} (pick : Ir.Ingress → Option ℕ), pick ingress = some port →
      port ∈ (((scopeNodeApps apps nodeId).flatMap (·.ingresses)).filter
        (·.node = nodeId)).filterMap pick := by
    intro port pick hpick
    exact List.mem_filterMap.mpr ⟨ingress, hhere, hpick⟩
  simp only [occupiedIngressPorts, List.mem_append, List.mem_map, Option.mem_toList,
    List.mem_flatMap, List.mem_cons] at hoccupied
  simp only [xrayBound, boundPorts, List.mem_append]
  rcases hoccupied with ((((⟨vless, hvless, rfl⟩ | ⟨encryption, hencryption, rfl⟩)
    | ⟨anytls, hanytls, rfl⟩) | ⟨mtproto, hmtproto, rfl⟩) | ⟨hysteria2, _, hquic⟩) | hdownload
  · exact .inl (.inl (.inl (.inl (.inr (hwire _ (by rw [hvless]; rfl))))))
  · exact .inl (.inl (.inl (.inl (.inl (.inr (hwire _ (by rw [hencryption]; rfl)))))))
  · exact .inl (.inl (.inl (.inr (hwire _ (by rw [hanytls]; rfl)))))
  · exact .inl (.inl (.inr (hwire _ (by rw [hmtproto]; rfl))))
  · -- a QUIC listener and its hopping range are on UDP
    rcases hquic with rfl | ⟨_, _, _, _, rfl⟩ <;> cases hproto
  · split_ifs at hdownload with hsplit
    · obtain ⟨port, hport, rfl⟩ := List.mem_map.mp hdownload
      obtain ⟨vless, hvless, hshape⟩ := Option.any_eq_true _ _ |>.mp hsplit
      have hsome : ingress.wires.downloadPorts.isEmpty = false := by
        simpa using List.ne_nil_of_mem hport
      refine .inr (List.mem_flatMap.mpr ⟨vlessInbound (ingressTag app ingress.id) ingress vless,
        ?_, ?_⟩)
      · have hscoped : ingress ∈ (scopeNodeApp apps nodeId app).ingresses :=
          List.mem_filter.mpr ⟨hingress, by simpa using hat⟩
        refine mem_undrawn (List.mem_map_of_mem happ) hscoped hat ?_
        simp [ingressInbounds, hvless, scopeNodeApp, ingressTag]
      · simpa [vlessInbound, hshape, hsome] using hport
    · cases hdownload

end

/-! ### Apart -/

/-- The compiler's ports differ from each other and from every port the checks count. -/
def InternalPortsFree (sys : SystemIr) (apps : List AppIr) (nodeId : String)
    (inbounds : List XrayIngressPlan) : Prop :=
  (inbounds.flatMap (·.internalPorts)).Nodup
    ∧ ∀ port ∈ inbounds.flatMap (·.internalPorts), (Proto.tcp, port) ∉ countedPorts sys apps nodeId

/-- No server of a disguised link sits among the first ports the compiler may draw: below each
of them that is in the range and not bound by xray, enough ports are open. -/
def ServersClear (sys : SystemIr) (apps : List AppIr) (nodeId : String) (apiPort : Option ℕ) :
    Prop :=
  let bound := xrayBound apps nodeId apiPort
  internalDemand apps nodeId ≤ (openBelow bound 65535).length →
    ∀ port ∈ fakeTcpPorts sys nodeId, internalPortBase ≤ port → port < 65535 → port ∉ bound →
      internalDemand apps nodeId ≤ (openBelow bound port).length

theorem internalPorts_eq {apps : List AppIr} {apiPort : Option ℕ} {inbounds : List XrayIngressPlan}
    (h : xrayIngresses apps nodeId apiPort = some inbounds) : inbounds.flatMap (·.internalPorts)
        = (openBelow (xrayBound apps nodeId apiPort) 65535).take (internalDemand apps nodeId)
      ∧ internalDemand apps nodeId ≤ (openBelow (xrayBound apps nodeId apiPort) 65535).length :=
  ⟨(drawInbounds_eq_some h).1, (drawInbounds_eq_some h).2.1⟩

theorem xrayNode_eq_some {apps : List AppIr}
    (h : xrayNode (scopeNodeApps apps nodeId) nodeId = some node) :
    node.id = nodeId ∧ ∃ app ∈ apps, node ∈ app.nodes := by
  have hmem := List.mem_of_find?_eq_some h
  obtain ⟨part, hpart, hnode⟩ := List.mem_flatMap.mp hmem
  rw [sortedApps, List.mem_insertionSort] at hpart
  obtain ⟨app, happ, rfl⟩ := List.mem_map.mp hpart
  exact ⟨by simpa using List.find?_some h, app, happ, List.mem_of_mem_filter hnode⟩

section

variable {checks : Checks} {doc : ModelSnapshot} {nodeId : String} {node : AppNode} {port : ℕ}

/-- Whatever the checks count, the compiler keeps clear of, or it is a server of a link. -/
theorem counted_cases (h : (compile checks doc).ensurePublishable = true)
    (hnode : xrayNode (scopeNodeApps (compile checks doc).apps nodeId) nodeId = some node)
    (hcounted : (Proto.tcp, port)
      ∈ countedPorts (compile checks doc).system (compile checks doc).apps nodeId) :
    port ∈ fakeTcpPorts (compile checks doc).system nodeId
      ∨ port ∈ xrayBound (scopeNodeApps (compile checks doc).apps nodeId) nodeId node.apiPort := by
  obtain ⟨hid, owner, howner, hmine⟩ := xrayNode_eq_some hnode
  rcases List.mem_append.mp hcounted with hproject | hacross
  · obtain ⟨app, happ, hclaims⟩ := List.mem_flatMap.mp hproject
    obtain ⟨twin, htwin, hclaim⟩ := List.mem_flatMap.mp hclaims
    obtain ⟨htwin, htwinId⟩ := List.mem_filter.mp htwin
    have hat : twin.id = nodeId := by simpa using htwinId
    rcases tcp_of_portClaims hclaim with hfake | hrelay | hapi | henters
    · exact .inl (hat ▸ hfake)
    · exact .inr (bound_of_relays happ (hat ▸ hrelay))
    · refine .inr ?_
      have hsame : node = twin :=
        compile_node_unique h howner happ hmine htwin (hid.trans hat.symm)
      simp only [xrayBound, boundPorts, List.mem_append]
      exact .inl (.inl (.inl (.inl (.inl (.inl (by rw [hsame, hapi]; simp))))))
    · exact .inr (bound_of_admits happ (hat ▸ henters))
  · obtain ⟨claim, hclaim, hkey⟩ := List.mem_map.mp hacross
    obtain ⟨hclaim, hat⟩ := List.mem_filter.mp hclaim
    obtain ⟨app, happ, hclaim⟩ := List.mem_flatMap.mp hclaim
    have hmem : app.1 ∈ (compile checks doc).apps := List.fst_mem_of_mem_zipIdx happ
    rcases tcp_of_appPortClaims hclaim (by simpa using hat) hkey with hrelay | henters
    · exact .inr (bound_of_relays hmem hrelay)
    · exact .inr (bound_of_admits hmem henters)

/-- **The compiler's ports are free exactly where no server of a disguised link is in their
way.** -/
theorem internalPorts_free_iff (h : (compile checks doc).ensurePublishable = true)
    (hnode : xrayNode (scopeNodeApps (compile checks doc).apps nodeId) nodeId = some node) :
    (∀ inbounds, xrayIngresses (scopeNodeApps (compile checks doc).apps nodeId) nodeId node.apiPort
        = some inbounds →
      InternalPortsFree (compile checks doc).system (compile checks doc).apps nodeId inbounds)
    ↔ ServersClear (compile checks doc).system
        (scopeNodeApps (compile checks doc).apps nodeId) nodeId node.apiPort := by
  obtain ⟨hid, owner, howner, hmine⟩ := xrayNode_eq_some hnode
  constructor
  · intro hfree hroom port hfake hlow hhigh hbound
    obtain ⟨inbounds, hinbounds⟩ := @drawInbounds_isSome
      (undrawnIngresses (scopeNodeApps (compile checks doc).apps nodeId) nodeId)
      ⟨internalPortBase, xrayBound (scopeNodeApps (compile checks doc).apps nodeId) nodeId
        node.apiPort⟩ hroom
    obtain ⟨hports, -⟩ := internalPorts_eq hinbounds
    by_contra hshort
    refine (hfree inbounds hinbounds).2 port ?_ ?_
    · rw [hports, mem_take_openBelow]
      exact ⟨hlow, hhigh, hbound, by omega⟩
    · refine List.mem_append_left _ (List.mem_flatMap.mpr ⟨owner, howner, ?_⟩)
      refine List.mem_flatMap.mpr ⟨node, List.mem_filter.mpr ⟨hmine, by simpa using hid⟩, ?_⟩
      exact fakeTcp_counted (hid ▸ hfake)
  · intro hclear inbounds hinbounds
    obtain ⟨hports, hroom⟩ := internalPorts_eq hinbounds
    have hnodup : (inbounds.flatMap (·.internalPorts)).Nodup := by
      rw [hports]
      exact (List.Nodup.filter _ (List.nodup_range' _)).sublist (List.take_sublist _ _)
    refine ⟨hnodup, ?_⟩
    intro port hport hcounted
    rw [hports, mem_take_openBelow] at hport
    obtain ⟨hlow, hhigh, hbound, hbelow⟩ := hport
    rcases counted_cases h hnode hcounted with hfake | hheld
    · have henough := hclear hroom port hfake hlow hhigh hbound
      omega
    · exact hbound hheld

end

/-- A machine with a local cover and a disguised link, its server under the given port. -/
def crowdedSnapshot (port : ℕ) : ModelSnapshot :=
  plainSnapshot
    [{ plainNode "a" "192.0.2.1" with
        overlay := true, wireguard := ⟨"private", "public", 51820, .fakeTcp port⟩ },
     { plainNode "b" "192.0.2.2" with overlay := true, overlayAddr := 0x0A420002#32 }]
    [plainApp "web" [⟨"c", "acme", "c", none⟩] [{ plainIngress "door" "c" "a" with
          wires := .ofVless (.vlessReality ⟨[], none, .nodeCertificate, false, .null⟩) }]
      [⟨"c", "a", none, none, [⟨.any, .egress none⟩]⟩]]

/-- What is compiled of it, on the machine `a`. -/
def crowdedNode (port : ℕ) : Option AppNode :=
  xrayNode (scopeNodeApps (compile silentChecks (crowdedSnapshot port)).apps "a") "a"

/-- The listeners of a crowded machine. -/
def crowdedInbounds (port : ℕ) : Option (List XrayIngressPlan) :=
  (crowdedNode port).bind fun node => xrayIngresses
    (scopeNodeApps (compile silentChecks (crowdedSnapshot port)).apps "a") "a" node.apiPort

theorem internalPorts_free_plain :
    ∃ node, crowdedNode 4567 = some node ∧ ((∀ inbounds, xrayIngresses
          (scopeNodeApps (compile silentChecks (crowdedSnapshot 4567)).apps "a") "a" node.apiPort
          = some inbounds →
        InternalPortsFree (compile silentChecks (crowdedSnapshot 4567)).system
          (compile silentChecks (crowdedSnapshot 4567)).apps "a" inbounds)
      ↔ ServersClear (compile silentChecks (crowdedSnapshot 4567)).system
          (scopeNodeApps (compile silentChecks (crowdedSnapshot 4567)).apps "a") "a"
          node.apiPort) := by
  have hsome : (crowdedNode 4567).isSome = true := by decide +kernel
  obtain ⟨node, hnode⟩ := Option.isSome_iff_exists.mp hsome
  exact ⟨node, hnode, internalPorts_free_iff (by decide +kernel) hnode⟩

/-- A server under the first port of the range, and the cover is put there too. -/
theorem internalPorts_taken :
    (compile silentChecks (crowdedSnapshot 61101)).ensurePublishable = true
      ∧ ∃ inbounds, crowdedInbounds 61101 = some inbounds
        ∧ ¬ InternalPortsFree (compile silentChecks (crowdedSnapshot 61101)).system
          (compile silentChecks (crowdedSnapshot 61101)).apps "a" inbounds := by
  have hdrawn : (crowdedInbounds 61101).any
      (fun inbounds => decide (61101 ∈ inbounds.flatMap (·.internalPorts))) = true := by
    decide +kernel
  have hcounted : (Proto.tcp, 61101)
      ∈ countedPorts (compile silentChecks (crowdedSnapshot 61101)).system
        (compile silentChecks (crowdedSnapshot 61101)).apps "a" := by decide +kernel
  obtain ⟨inbounds, hinbounds, hport⟩ := (Option.any_eq_true _ _).mp hdrawn
  refine ⟨by decide +kernel, inbounds, hinbounds, ?_⟩
  intro hfree
  exact hfree.2 61101 (by simpa using hport) hcounted

end Brocade.Physical
