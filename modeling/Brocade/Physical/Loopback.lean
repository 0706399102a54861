/-
References over loopback.

A rule that names a listener of its own machine dials it over loopback, in the family the
compiler settles on for its project.  The listener binds its addresses by the hops of all projects.
The two agree unless another project alone enters the listener from outside over IPv6.
-/
import Brocade.Ir.Members
import Brocade.Physical.HopInbounds

namespace Brocade.Physical

open Ir Model

/-- The address a hop dials and the address of a socket are of one family. -/
def sameFamily (address : String) (listen : Ip.Addr) : Bool :=
  match Ip.parse address, listen with
  | some (.v4 _), .v4 _ => true
  | some (.v6 _), .v6 _ => true
  | _, _ => false

/-- A machine in service. -/
def InService (doc : ModelSnapshot) (id : String) : Prop :=
  ∃ node ∈ doc.nodes, node.id = id ∧ node.retired = false

theorem sameFamily_v4 {listen : Ip.Addr} :
    sameFamily "127.0.0.1" listen = true ↔ ∃ bits, listen = .v4 bits := by
  have hparse : Ip.parse "127.0.0.1" = some (.v4 0x7f000001) := by decide +kernel
  unfold sameFamily
  rw [hparse]
  cases listen <;> simp

theorem sameFamily_v6 {listen : Ip.Addr} :
    sameFamily "::1" listen = true ↔ ∃ bits, listen = .v6 bits := by
  have hparse : Ip.parse "::1" = some (.v6 1) := by decide +kernel
  unfold sameFamily
  rw [hparse]
  cases listen <;> simp

/-! ### Where a listener is open -/

section
variable {overlay : Option Address.Ipv4Addr} {arriving : List Hop}

theorem listensFor_ipv6 (h : ∃ hop ∈ arriving, fromOutside hop = true
    ∧ Address.isIpv6 hop.address = true) :
    listensFor overlay arriving = [(unspecifiedV6, false)] := by
  obtain ⟨hop, hhop, houtside, hv6⟩ := h
  have hany : arriving.any fromOutside = true := List.any_eq_true.mpr ⟨hop, hhop, houtside⟩
  have hanyV6 : (arriving.any fun hop => fromOutside hop && Address.isIpv6 hop.address) = true :=
    List.any_eq_true.mpr ⟨hop, hhop, by simp [houtside, hv6]⟩
  rw [listensFor, hany, hanyV6]
  rfl

theorem listensFor_ipv4 (hlocal : ∃ hop ∈ arriving, hop.path = .loopback)
    (h : ∀ hop ∈ arriving, fromOutside hop = true → Address.isIpv6 hop.address = false) :
    ∃ listen copy, (listen, copy) ∈ listensFor overlay arriving
      ∧ (listen = unspecifiedV4 ∨ listen = localhostV4) := by
  have hnone : (arriving.any fun hop => fromOutside hop && Address.isIpv6 hop.address) = false := by
    simp only [List.any_eq_false, Bool.and_eq_true, not_and, Bool.not_eq_true]
    exact h
  have hany : (arriving.any fun hop => hop.path == .loopback) = true := by
    obtain ⟨hop, hhop, hpath⟩ := hlocal
    exact List.any_eq_true.mpr ⟨hop, hhop, by simp [hpath]⟩
  rw [listensFor, hnone, hany]
  cases arriving.any fromOutside with
  | true => exact ⟨unspecifiedV4, false, by simp [hopListens], .inl rfl⟩
  | false =>
    cases arriving.any fun hop => hop.path == .overlay with
    | true =>
      cases overlay with
      | some overlay => exact ⟨localhostV4, true, by simp [hopListens], .inr rfl⟩
      | none => exact ⟨localhostV4, false, by simp [hopListens], .inr rfl⟩
    | false => exact ⟨localhostV4, false, by simp [hopListens], .inr rfl⟩

end

/-! ### The hops of a compilation -/

section
variable {checks : Checks} {doc : ModelSnapshot}

/-- Every hop is that of the first rule of its project for its table, and an address on loopback
is settled by what the project's own rules do. -/
theorem hops_of_publishable (h : (compile checks doc).ensurePublishable = true) {app : AppIr}
    (happ : app ∈ (compile checks doc).apps) :
    ∃ listeners, (∀ listener, listener ∈ listeners ↔ EntersIpv6 app
        (compile checks doc).targetSteps (compile checks doc).system listener)
      ∧ ∀ hop, hop ∈ app.hops ↔ ∃ edge, First app edge ∧ ∃ accept hopIn resolved,
        Dials app (compile checks doc).targetSteps (compile checks doc).system edge accept hopIn
            resolved
          ∧ hop = settleLoopback listeners (hopOf edge.1 edge.2 accept hopIn resolved) := by
  obtain ⟨view, hview, rfl⟩ := mem_compile_apps happ
  simp only [dials_compiled, entersIpv6_compiled]
  exact exists_hops (clean_hops h hview)

theorem outside_arrives_iff {chain nodeId : String} {hop : Hop} :
    arrives chain nodeId hop = true ∧ fromOutside hop = true ↔
      hop.path = .direct ∧ (hop.targetChain, hop.target) = (chain, nodeId)
        ∨ hop.path = .reverse ∧ (hop.chain, hop.source) = (chain, nodeId) := by
  cases hpath : hop.path <;> simp [arrives, fromOutside, hpath]

theorem settleLoopback_path (listeners : List (String × String)) (hop : Hop) :
    (settleLoopback listeners hop).path = hop.path := by
  unfold settleLoopback
  split
  · rfl
  · rfl

theorem settleLoopback_outside {listeners : List (String × String)} {hop : Hop}
    (h : hop.path ≠ .loopback) : settleLoopback listeners hop = hop := by
  unfold settleLoopback
  rw [if_neg fun hboth => h hboth.1]

/-- Some hop arrives from outside over IPv6 just where some project's rule enters so. -/
theorem arrives_ipv6_iff (h : (compile checks doc).ensurePublishable = true)
    {chain nodeId : String} :
    (∃ hop ∈ ((compile checks doc).apps.flatMap (·.hops)).filter (arrives chain nodeId),
        fromOutside hop = true ∧ Address.isIpv6 hop.address = true)
      ↔ ∃ app ∈ (compile checks doc).apps, EntersIpv6 app (compile checks doc).targetSteps
        (compile checks doc).system (chain, nodeId) := by
  constructor
  · rintro ⟨hop, hhop, houtside, hv6⟩
    obtain ⟨hmem, harrives⟩ := List.mem_filter.mp hhop
    obtain ⟨app, happ, hhops⟩ := List.mem_flatMap.mp hmem
    have hplace := outside_arrives_iff.mp ⟨harrives, houtside⟩
    obtain ⟨listeners, -, hhop⟩ := hops_of_publishable h happ
    obtain ⟨edge, hfirst, accept, hopIn, resolved, hdials, heq⟩ := (hhop hop).mp hhops
    have hpath : (hopOf edge.1 edge.2 accept hopIn resolved).path ≠ .loopback := by
      rw [← settleLoopback_path listeners, ← heq]
      rcases hplace with ⟨hdirect, -⟩ | ⟨hreverse, -⟩
      · simp [hdirect]
      · simp [hreverse]
    rw [settleLoopback_outside hpath] at heq
    subst heq
    exact ⟨app, happ, edge, hfirst, accept, hopIn, resolved, hdials, hv6, hplace⟩
  · rintro ⟨app, happ, edge, hfirst, accept, hopIn, resolved, hdials, hv6, hplace⟩
    have hpath : (hopOf edge.1 edge.2 accept hopIn resolved).path ≠ .loopback := by
      rcases hplace with ⟨hdirect, -⟩ | ⟨hreverse, -⟩
      · simp [hopOf, hdirect]
      · simp [hopOf, hreverse]
    have hhop : hopOf edge.1 edge.2 accept hopIn resolved ∈ app.hops := by
      obtain ⟨listeners, -, hhops⟩ := hops_of_publishable h happ
      exact (hhops _).mpr ⟨edge, hfirst, accept, hopIn, resolved, hdials,
        (settleLoopback_outside hpath).symm⟩
    have hplaced := hplace
    simp only [ForwardActionRef.key, Ir.Step.key] at hplaced
    have hthere : arrives chain nodeId (hopOf edge.1 edge.2 accept hopIn resolved) = true
        ∧ fromOutside (hopOf edge.1 edge.2 accept hopIn resolved) = true :=
      outside_arrives_iff.mpr hplaced
    obtain ⟨harrives, houtside⟩ := hthere
    exact ⟨_, List.mem_filter.mpr ⟨List.mem_flatMap.mpr ⟨app, happ, hhop⟩, harrives⟩, houtside, hv6⟩

/-- The listener that a hop on loopback enters, and the address it dials. -/
structure Enters (output : CompileOutput) (app : AppIr) (hop : Hop) (step : Ir.Step)
    (accept : Accept) (hopIn : HopIn) : Prop where
  stored : step ∈ output.targetSteps
  chain : step.chain = hop.targetChain
  node : step.node = hop.target
  accepts : step.accept = some accept
  opens : step.hopIn = some hopIn
  port : hop.port = hopIn.port
  ipv6 : EntersIpv6 app output.targetSteps output.system (hop.targetChain, hop.target) →
    hop.address = "::1"
  ipv4 : ¬ EntersIpv6 app output.targetSteps output.system (hop.targetChain, hop.target) →
    hop.address = "127.0.0.1"

theorem enters_of_loopback (h : (compile checks doc).ensurePublishable = true) {app : AppIr}
    (happ : app ∈ (compile checks doc).apps) {hop : Hop} (hhop : hop ∈ app.hops)
    (hlocal : hop.path = .loopback) :
    ∃ step accept hopIn, Enters (compile checks doc) app hop step accept hopIn := by
  obtain ⟨listeners, hlisteners, hhops⟩ := hops_of_publishable h happ
  obtain ⟨edge, hfirst, accept, hopIn, resolved, hdials, heq⟩ := (hhops hop).mp hhop
  have hpath : resolved.2.2 = .loopback := by
    rw [heq, settleLoopback_path] at hlocal
    exact hlocal
  obtain ⟨hreused, -, hresolved⟩ := resolveEdge_loopback hdials.dialed hpath
  obtain ⟨step, hstep, haccept, hentry⟩ := entryOf_ok hdials.entry
  have hforward : edge.2.dial.isReverse = false := by
    obtain ⟨source, -, hedge⟩ := List.mem_flatMap.mp (List.mem_of_find?_eq_some hfirst)
    obtain ⟨forward, hforward, rfl⟩ := List.mem_map.mp hedge
    obtain ⟨rule, -, hrule⟩ := List.mem_filterMap.mp hforward
    exact reused_dial hrule hreused
  rw [hforward] at hentry
  obtain ⟨hstored, hkey⟩ := findStep_eq_some hstep
  have hplace : hop.targetChain = edge.2.targetChain ∧ hop.target = edge.2.targetNode
      ∧ hop.port = resolved.2.1 := by
    rw [heq]
    unfold settleLoopback
    split
    · exact ⟨rfl, rfl, rfl⟩
    · exact ⟨rfl, rfl, rfl⟩
  have haddress : hop.address = if (hop.targetChain, hop.target) ∈ listeners then "::1"
      else "127.0.0.1" := by
    rw [hplace.1, hplace.2.1, heq]
    unfold settleLoopback
    by_cases hin : (edge.2.targetChain, edge.2.targetNode) ∈ listeners
    · rw [if_pos ⟨hpath, hin⟩, if_pos hin]
    · rw [if_neg fun hboth => hin hboth.2, if_neg hin]
      simp [hopOf, hresolved]
  refine ⟨step, accept, hopIn, hstored, ?_, ?_, haccept, hentry, ?_, fun hin => ?_, fun hout => ?_⟩
  · rw [hplace.1]
    exact congrArg Prod.fst hkey
  · rw [hplace.2.1]
    exact congrArg Prod.snd hkey
  · rw [hplace.2.2, hresolved]
  · rw [haddress, if_pos ((hlisteners _).mpr hin)]
  · rw [haddress, if_neg fun hin => hout ((hlisteners _).mp hin)]

theorem systemNode_iff {step : Ir.Step} {hopIn : HopIn}
    (hstep : step ∈ (compile checks doc).targetSteps) (hhopIn : step.hopIn = some hopIn) :
    (∃ node, (compile checks doc).system.nodes.find? (·.id = step.node) = some node)
      ↔ InService doc step.node := by
  have hsystem : (∃ node, (compile checks doc).system.nodes.find? (·.id = step.node) = some node)
      ↔ ∃ node ∈ (compileSystem doc).1.nodes, node.id = step.node := by
    rw [← Option.isSome_iff_exists, List.find?_isSome]
    simp [compile, finishCompile, compilePrelude]
  rw [hsystem, mem_system_nodes]
  have hrelay : step.node ∈ relays doc := by
    rw [compile_targetSteps] at hstep
    obtain ⟨routing, hrouting, hmem⟩ := List.mem_flatMap.mp hstep
    obtain ⟨view, hview, rfl⟩ := List.mem_map.mp hrouting
    exact relay_of_hopIn hmem hview hhopIn
  constructor
  · rintro ⟨node, hnode, hid, hin⟩
    unfold inSystem at hin
    rw [Bool.and_eq_true, Bool.not_eq_true'] at hin
    exact ⟨node, hnode, hid, hin.1⟩
  · rintro ⟨node, hnode, hid, hlive⟩
    exact ⟨node, hnode, hid, by simp [inSystem, hlive, hid, hrelay]⟩

/-- A listener that a rule enters over loopback is open in the family the rule dials, just where
its machine is in service and no other project alone enters it from outside over IPv6. -/
theorem loopback_family (probeUuid : String → String → String)
    (h : (compile checks doc).ensurePublishable = true) {app : AppIr}
    (happ : app ∈ (compile checks doc).apps) {hop : Hop} (hhop : hop ∈ app.hops)
    (hlocal : hop.path = .loopback) : (∃ plan ∈ xrayHopInbounds probeUuid
          ((compile checks doc).system.nodes.find? (·.id = hop.target)) (compile checks doc).apps
          hop.target,
        plan.chain = hop.targetChain ∧ plan.port = hop.port ∧ sameFamily hop.address plan.listen = true)
      ↔ InService doc hop.target
        ∧ ((∃ other ∈ (compile checks doc).apps, EntersIpv6 other (compile checks doc).targetSteps
            (compile checks doc).system (hop.targetChain, hop.target)) →
          EntersIpv6 app (compile checks doc).targetSteps (compile checks doc).system
            (hop.targetChain, hop.target)) := by
  obtain ⟨step, accept, hopIn, henters⟩ := enters_of_loopback h happ hhop hlocal
  have hservice := systemNode_iff henters.stored henters.opens
  rw [henters.node] at hservice
  constructor
  · rintro ⟨plan, hplan, hchain, -, hfamily⟩
    obtain ⟨node, hnode, owner, -, table, -, -, hopened⟩ := mem_xrayHopInbounds.mp hplan
    refine ⟨hservice.mp ⟨node, hnode⟩, fun hother => ?_⟩
    by_contra hown
    obtain ⟨hsame, copy, hlisten⟩ := mem_stepInbounds hopened
    rw [← hsame, hchain, listensFor_ipv6 ((arrives_ipv6_iff h).mpr hother),
      List.mem_singleton] at hlisten
    have hv6 : plan.listen = unspecifiedV6 := congrArg Prod.fst hlisten
    rw [henters.ipv4 hown, hv6, sameFamily_v4] at hfamily
    obtain ⟨bits, hbits⟩ := hfamily
    cases hbits
  · rintro ⟨hlive, hown⟩
    obtain ⟨node, hnode⟩ := hservice.mpr hlive
    obtain ⟨owner, howner, hstep⟩ := List.mem_flatMap.mp henters.stored
    have hopen : ∃ listen copy, (listen, copy) ∈ listensFor node.overlayAddr
        (((compile checks doc).apps.flatMap (·.hops)).filter (arrives step.chain hop.target))
        ∧ sameFamily hop.address listen = true := by
      rw [henters.chain]
      by_cases hin : EntersIpv6 app (compile checks doc).targetSteps (compile checks doc).system
          (hop.targetChain, hop.target)
      · rw [listensFor_ipv6 ((arrives_ipv6_iff h).mpr ⟨app, happ, hin⟩), henters.ipv6 hin]
        exact ⟨unspecifiedV6, false, by simp, sameFamily_v6.mpr ⟨0, rfl⟩⟩
      · have hnone : ∀ other ∈ ((compile checks doc).apps.flatMap (·.hops)).filter
            (arrives hop.targetChain hop.target), fromOutside other = true →
              Address.isIpv6 other.address = false := by
          intro other hother houtside
          by_contra hv6
          rw [Bool.not_eq_false] at hv6
          exact hin (hown ((arrives_ipv6_iff h).mp ⟨other, hother, houtside, hv6⟩))
        have harrives : hop ∈ ((compile checks doc).apps.flatMap (·.hops)).filter
            (arrives hop.targetChain hop.target) :=
          List.mem_filter.mpr ⟨List.mem_flatMap.mpr ⟨app, happ, hhop⟩, by simp [arrives, hlocal]⟩
        obtain ⟨listen, copy, hlisten, hkind⟩ :=
          @listensFor_ipv4 node.overlayAddr _ ⟨hop, harrives, hlocal⟩ hnone
        refine ⟨listen, copy, hlisten, ?_⟩
        rw [henters.ipv4 hin, sameFamily_v4]
        rcases hkind with hkind | hkind
        · exact ⟨_, hkind⟩
        · exact ⟨_, hkind⟩
    obtain ⟨listen, copy, hlisten, hfamily⟩ := hopen
    obtain ⟨plan, hplan, hchain, hat, hport⟩ :=
      @stepInbounds_of_accept probeUuid _ _ _ owner step accept hopIn henters.accepts henters.opens
        listen copy hlisten
    refine ⟨plan, mem_xrayHopInbounds.mpr ⟨node, hnode, owner, howner, step, hstep, henters.node,
      hplan⟩, hchain.trans henters.chain, hport.trans henters.port.symm, ?_⟩
    rw [hat]
    exact hfamily

end

/-! ### Two projects at one listener -/

/-- A table of the sample. -/
def relayStep (chain node : String) (rules : List Rule) : Model.Step where
  chain := chain
  node := node
  accept := some ⟨s!"uuid of {chain}/{node}", s!"{chain}@{node}"⟩
  hopIn := some ⟨2000, .encryption ⟨"private", "public"⟩⟩
  rules := rules

/-- The project `web` dials the listener of `main` on `jp`, and `tools` references it there. -/
def sharedListener (dial : HopDial) : ModelSnapshot :=
  plainSnapshot
    [{ plainNode "jp" "198.51.100.1" with publicIpv6 := some "2001:db8::1" },
      plainNode "sg" "198.51.100.2"]
    [plainApp "web" [⟨"main", "acme", "main", none⟩] [plainIngress "front" "main" "sg"]
      [⟨"main", "sg", none, none, [⟨.any, .forward "jp" dial .none⟩]⟩,
        relayStep "main" "jp" [⟨.any, .egress none⟩]],
     plainApp "tools" [⟨"side", "acme", "side", none⟩] [plainIngress "near" "side" "jp"]
      [⟨"side", "jp", none, none, [⟨.any, .reuseListener ⟨"main", "jp"⟩ .overlay .none⟩]⟩]]

/-- The hop listeners of the sample. -/
def hopInboundsOn (output : CompileOutput) (node : String) : List XrayHopInboundPlan :=
  xrayHopInbounds (fun key name => key ++ "/" ++ name)
    (output.system.nodes.find? (·.id = node)) output.apps node

theorem loopback_family_ipv4 :
    let output := compile silentChecks (sharedListener (.addr "198.51.100.1:2000"))
    ∃ app ∈ output.apps, ∃ hop ∈ app.hops, hop.path = .loopback
      ∧ ((∃ plan ∈ hopInboundsOn output hop.target, plan.chain = hop.targetChain
          ∧ plan.port = hop.port ∧ sameFamily hop.address plan.listen = true)
        ↔ InService (sharedListener (.addr "198.51.100.1:2000")) hop.target
          ∧ ((∃ other ∈ output.apps, EntersIpv6 other output.targetSteps output.system
              (hop.targetChain, hop.target)) →
            EntersIpv6 app output.targetSteps output.system (hop.targetChain, hop.target))) := by
  have hlocal : ∃ app ∈ (compile silentChecks (sharedListener (.addr "198.51.100.1:2000"))).apps,
      ∃ hop ∈ app.hops, hop.path = .loopback := by decide +kernel
  obtain ⟨app, happ, hop, hhop, hpath⟩ := hlocal
  exact ⟨app, happ, hop, hhop, hpath, loopback_family _ (by decide +kernel) happ hhop hpath⟩

/-- Dialed over IPv6, the listener of `main` is open on `[::]` alone, and `tools` dials
`127.0.0.1`. -/
theorem loopback_mismatch :
    let output := compile silentChecks (sharedListener (.addr "[2001:db8::1]:2000"))
    output.ensurePublishable = true ∧ ∃ app ∈ output.apps, ∃ hop ∈ app.hops,
      hop.path = .loopback ∧ hop.address = "127.0.0.1"
        ∧ ∀ plan ∈ hopInboundsOn output hop.target, plan.chain = hop.targetChain →
          sameFamily hop.address plan.listen = false := by
  decide +kernel

end Brocade.Physical
