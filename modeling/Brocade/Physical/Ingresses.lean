/-
The listeners of one machine's ingresses, and the ports the compiler adds behind them.

An ingress becomes one inbound for every wire it speaks.  A disguised one may need more sockets
on loopback: the core of a split download, the local cover, the guard in front of the disguised
site.  Their ports are drawn after sorting, upwards from a fixed base and past whatever this
xray binds elsewhere, so what is drawn is the first free ports of the range (`takePorts_eq`);
the draw fails where the range runs out.
-/
import Brocade.Physical.Grants

namespace Brocade.Physical

open Ir Model

/-- What an inbound speaks. -/
inductive IngressProtocol where
  | vlessEncryption (privateKey : String) (options : Json.Value)
  | vless
  | anyTls (settings : AnyTls)
  | hysteria2 (settings : Hysteria2)
  | mtProto
deriving DecidableEq

/-- How an inbound is secured. -/
inductive IngressSecurity where
  | reality (params : RealitySettings) (privateKey : String) (shortIds : List String)
  | tls
  | none

/-- The ports of a split download. -/
structure XraySplitIngressPlan where
  corePort : ℕ
  downloadPorts : List ℕ

/-- The inbound of one wire. -/
structure XrayIngressPlan where
  (id tag listen : String)
  port : ℕ
  sniff : Bool
  protocol : IngressProtocol
  security : IngressSecurity
  certificateName : Option String
  certificateNames : List String
  xhttp : Option Xhttp
  split : Option XraySplitIngressPlan
  (coverPort guardPort : Option ℕ)

/-! ### One inbound for each wire -/

/-- A port still to be drawn. -/
def undrawn (needed : Bool) : Option ℕ := if needed then some 0 else none

/-- The listener of plain VLESS. -/
def vlessInbound (tag : String) (ingress : Ir.Ingress) (vless : Transport) : XrayIngressPlan :=
  let downloadPorts := ingress.wires.downloadPorts
  { id := ingress.id
    tag := tag
    listen := ingress.bind
    port := ingress.port
    sniff := ingress.sniff
    protocol := .vless
    security := match ingress.wires.reality with
      | some params => .reality params ingress.identity.privateKey ingress.identity.shortIds
      | none => .tls
    certificateName := ingress.certificateName
    certificateNames := ingress.certificateNames
    xhttp := ingress.wires.xhttp
    split := if vless.isRealityXhttp && !downloadPorts.isEmpty then some ⟨0, downloadPorts⟩ else none
    coverPort := undrawn (ingress.wires.reality.any (·.usesNodeCertificateFallback))
    guardPort := undrawn (ingress.wires.reality.any (·.guardsFallback)) }

/-- The listener of AnyTLS. -/
def anytlsInbound (tag : String) (ingress : Ir.Ingress) (settings : AnyTls) : XrayIngressPlan where
  id := ingress.id
  tag := s!"{tag}:anytls"
  listen := ingress.bind
  port := settings.port
  sniff := ingress.sniff
  protocol := .anyTls settings
  security := match settings.reality with
    | some params => .reality params
        ((ingress.anytlsIdentity.map (·.privateKey)).getD "")
        ((ingress.anytlsIdentity.map (·.shortIds)).getD [])
    | none => .tls
  certificateName := ingress.certificateName
  certificateNames := ingress.certificateNames
  xhttp := none
  split := none
  coverPort := undrawn (settings.reality.any (·.usesNodeCertificateFallback))
  guardPort := undrawn (settings.reality.any (·.guardsFallback))

/-- The listener of Hysteria2. -/
def quicInbound (tag : String) (ingress : Ir.Ingress) (settings : Hysteria2) :
    XrayIngressPlan where
  id := ingress.id
  tag := s!"{tag}:hy2"
  listen := ingress.bind
  port := settings.port
  sniff := ingress.sniff
  protocol := .hysteria2 settings
  security := .tls
  certificateName := ingress.certificateName
  certificateNames := ingress.certificateNames
  xhttp := none
  split := none
  coverPort := none
  guardPort := none

/-- A wire without a certificate of its own: what it has of the ingress, and nothing else. -/
def bareInbound (tag : String) (ingress : Ir.Ingress) (port : ℕ) (sniff : Bool)
    (protocol : IngressProtocol) : XrayIngressPlan where
  id := ingress.id
  tag := tag
  listen := ingress.bind
  port := port
  sniff := sniff
  protocol := protocol
  security := .none
  certificateName := none
  certificateNames := []
  xhttp := none
  split := none
  coverPort := none
  guardPort := none

/-- The listener of encrypted VLESS. -/
def encryptionInbound (tag : String) (ingress : Ir.Ingress) (settings : VlessEncryption) :
    XrayIngressPlan :=
  bareInbound s!"{tag}:vless-encryption" ingress settings.port ingress.sniff
    (.vlessEncryption settings.privateKey settings.options)

/-- The listener of MTProto. -/
def mtprotoInbound (tag : String) (ingress : Ir.Ingress) (settings : MtProto) : XrayIngressPlan :=
  bareInbound s!"{tag}:mtproto" ingress settings.port false .mtProto

/-- The inbounds of one ingress, their internal ports still undrawn. -/
def ingressInbounds (app : AppIr) (ingress : Ir.Ingress) : List XrayIngressPlan :=
  let tag := ingressTag app ingress.id
  (ingress.wires.vless.map (vlessInbound tag ingress)).toList
    ++ (ingress.wires.anytls.map (anytlsInbound tag ingress)).toList
    ++ (ingress.wires.hysteria2.map (quicInbound tag ingress)).toList
    ++ (ingress.wires.vlessEncryption.map (encryptionInbound tag ingress)).toList
    ++ (ingress.wires.mtproto.map (mtprotoInbound tag ingress)).toList

/-- The inbounds of a machine, in the order of their tags. -/
def undrawnIngresses (apps : List AppIr) (nodeId : String) : List XrayIngressPlan :=
  sortById (·.tag) ((sortedApps apps).flatMap fun app =>
    (app.ingresses.filter (·.node = nodeId)).flatMap (ingressInbounds app))

/-! ### Ports drawn by the compiler -/

/-- What this xray binds already. -/
def boundPorts (apps : List AppIr) (nodeId : String) (apiPort : Option ℕ)
    (inbounds : List XrayIngressPlan) : List ℕ :=
  let here := (apps.flatMap (·.ingresses)).filter (·.node = nodeId)
  apiPort.toList ++ here.filterMap (fun ingress => ingress.wires.vlessEncryption.map (·.port))
    ++ here.filterMap (fun ingress => ingress.wires.vless.map fun _ => ingress.port)
    ++ here.filterMap (fun ingress => ingress.wires.anytls.map (·.port))
    ++ here.filterMap (fun ingress => ingress.wires.mtproto.map (·.port))
    ++ ((apps.flatMap (·.steps)).filter (·.node = nodeId)).filterMap
      (fun step => step.hopIn.map (·.port))
    ++ inbounds.flatMap fun inbound => (inbound.split.map (·.downloadPorts)).getD []

/-- Where the next search starts, and what is taken by now. -/
structure PortDraw where
  candidate : ℕ
  used : List ℕ

/-- The first port that is not taken among so many from a candidate on. -/
def freeFrom (used : List ℕ) : ℕ → ℕ → Option ℕ
  | 0, _ => none
  | left + 1, candidate =>
    if candidate ∈ used then freeFrom used left (candidate + 1) else some candidate

/-- Draw one port.  The candidate moves on behind it and must be a port again, so the last port
there is never gets drawn. -/
def PortDraw.take (draw : PortDraw) : Option (ℕ × PortDraw) :=
  (freeFrom draw.used (65535 - draw.candidate) draw.candidate).map fun port =>
    (port, ⟨port + 1, port :: draw.used⟩)

/-- Draw a port where one is asked for. -/
def PortDraw.fill (draw : PortDraw) : Option ℕ → Option (Option ℕ × PortDraw)
  | none => some (none, draw)
  | some _ => draw.take.map fun drawn => (some drawn.1, drawn.2)

/-- The internal ports of one inbound: the core, the cover, the guard. -/
def drawInbound (draw : PortDraw) (inbound : XrayIngressPlan) :
    Option (XrayIngressPlan × PortDraw) := do
  let core ← draw.fill (inbound.split.map (·.corePort))
  let cover ← core.2.fill inbound.coverPort
  let guard ← cover.2.fill inbound.guardPort
  return ({ inbound with
    split := inbound.split.map fun split => { split with corePort := core.1.getD split.corePort }
    coverPort := cover.1
    guardPort := guard.1 }, guard.2)

/-- Ports are drawn one by one. -/
def drawInbounds : PortDraw → List XrayIngressPlan → Option (List XrayIngressPlan)
  | _, [] => some []
  | draw, inbound :: inbounds => do
      let drawn ← drawInbound draw inbound
      let rest ← drawInbounds drawn.2 inbounds
      return drawn.1 :: rest

/-- Above the range the kernel gives to outgoing connections. -/
def internalPortBase : ℕ := 61101

/-- The ingress listeners of a machine; none where the internal ports run out. -/
def xrayIngresses (apps : List AppIr) (nodeId : String) (apiPort : Option ℕ) :
    Option (List XrayIngressPlan) :=
  let inbounds := undrawnIngresses apps nodeId
  drawInbounds ⟨internalPortBase, boundPorts apps nodeId apiPort inbounds⟩ inbounds

/-! ### What is drawn -/

/-- The ports of an inbound that the compiler owns. -/
def XrayIngressPlan.internalPorts (inbound : XrayIngressPlan) : List ℕ :=
  (inbound.split.map (·.corePort)).toList ++ inbound.coverPort.toList ++ inbound.guardPort.toList

/-- Whose inbound it is, for which wire. -/
def XrayIngressPlan.name (inbound : XrayIngressPlan) : String × String × IngressProtocol :=
  (inbound.id, inbound.tag, inbound.protocol)

/-- The ports still to be had, in the order they are drawn. -/
def PortDraw.free (draw : PortDraw) : List ℕ :=
  (List.range' draw.candidate (65535 - draw.candidate)).filter (· ∉ draw.used)

theorem freeFrom_eq_some {used : List ℕ} {left candidate port : ℕ}
    (h : freeFrom used left candidate = some port) : port ∉ used ∧
      (List.range' candidate left).filter (· ∉ used)
        = port :: (List.range' (port + 1) (candidate + left - (port + 1))).filter (· ∉ used) := by
  induction left generalizing candidate with
  | zero => cases h
  | succ left ih =>
    rw [freeFrom] at h
    rw [List.range'_succ]
    by_cases hused : candidate ∈ used
    · rw [if_pos hused] at h
      have hlast : candidate + (left + 1) = candidate + 1 + left := by omega
      rw [List.filter_cons_of_neg (by simpa using hused), hlast]
      exact ih h
    · rw [if_neg hused] at h
      have hlast : candidate + (left + 1) - (candidate + 1) = left := by omega
      rw [← Option.some.inj h, List.filter_cons_of_pos (by simpa using hused), hlast]
      exact ⟨hused, rfl⟩

theorem freeFrom_eq_none {used : List ℕ} {left candidate : ℕ}
    (h : freeFrom used left candidate = none) :
    (List.range' candidate left).filter (· ∉ used) = [] := by
  induction left generalizing candidate with
  | zero => rfl
  | succ left ih =>
    rw [freeFrom] at h
    by_cases hused : candidate ∈ used
    · rw [if_pos hused] at h
      rw [List.range'_succ, List.filter_cons_of_neg (by simpa using hused)]
      exact ih h
    · rw [if_neg hused] at h
      cases h

variable {draw next : PortDraw}

theorem PortDraw.take_eq_some {port : ℕ} (h : draw.take = some (port, next)) :
    draw.free = port :: next.free := by
  obtain ⟨first, hfirst, hdrawn⟩ := Option.map_eq_some_iff.mp h
  obtain ⟨rfl, rfl⟩ := Prod.mk.inj hdrawn
  obtain ⟨-, hfree⟩ := freeFrom_eq_some hfirst
  -- no port above the one drawn is that one
  have hsame : (List.range' (first + 1) (65535 - (first + 1))).filter (· ∉ draw.used)
      = (List.range' (first + 1) (65535 - (first + 1))).filter (· ∉ first :: draw.used) := by
    refine List.filter_congr fun port hport => ?_
    have hhigh := (List.mem_range'_1.mp hport).1
    have hne : port ≠ first := by omega
    simp [hne]
  have hlength : draw.candidate + (65535 - draw.candidate) - (first + 1) = 65535 - (first + 1) := by
    have hmem : first ∈ (List.range' draw.candidate (65535 - draw.candidate)).filter
        (· ∉ draw.used) := by
      rw [hfree]
      exact List.mem_cons_self
    have hrange := List.mem_range'_1.mp (List.mem_of_mem_filter hmem)
    omega
  rw [PortDraw.free, hfree, hlength, hsame]
  rfl

theorem PortDraw.take_eq_none (h : draw.take = none) : draw.free = [] :=
  freeFrom_eq_none (Option.map_eq_none_iff.mp h)

theorem PortDraw.fill_eq_some {slot port : Option ℕ} (h : draw.fill slot = some (port, next)) :
    draw.free = port.toList ++ next.free ∧ port.toList.length = slot.toList.length := by
  cases slot with
  | none =>
    obtain ⟨rfl, rfl⟩ := Prod.mk.inj (Option.some.inj h)
    exact ⟨rfl, rfl⟩
  | some _ =>
    obtain ⟨drawn, hdrawn, hport⟩ := Option.map_eq_some_iff.mp h
    obtain ⟨rfl, rfl⟩ := Prod.mk.inj hport
    exact ⟨PortDraw.take_eq_some hdrawn, rfl⟩

theorem PortDraw.fill_isSome {draw : PortDraw} {slot : Option ℕ}
    (h : slot.toList.length ≤ draw.free.length) : ∃ drawn, draw.fill slot = some drawn := by
  cases slot with
  | none => exact ⟨_, rfl⟩
  | some _ =>
    cases htake : draw.take with
    | none =>
      rw [PortDraw.take_eq_none htake] at h
      simp at h
    | some drawn => exact ⟨_, by rw [PortDraw.fill, htake]; rfl⟩

theorem drawInbound_eq_some {inbound drawn : XrayIngressPlan}
    (h : drawInbound draw inbound = some (drawn, next)) :
    draw.free = drawn.internalPorts ++ next.free
      ∧ drawn.internalPorts.length = inbound.internalPorts.length
      ∧ drawn.name = inbound.name := by
  simp only [drawInbound, Option.bind_eq_bind, Option.bind_eq_some_iff, Option.pure_def,
    Option.some.injEq, Prod.mk.injEq] at h
  obtain ⟨core, hcore, cover, hcover, guard, hguard, rfl, rfl⟩ := h
  obtain ⟨hfreeCore, hcountCore⟩ := PortDraw.fill_eq_some hcore
  obtain ⟨hfreeCover, hcountCover⟩ := PortDraw.fill_eq_some hcover
  obtain ⟨hfreeGuard, hcountGuard⟩ := PortDraw.fill_eq_some hguard
  have hsplit : ((inbound.split.map fun split =>
      { split with corePort := core.1.getD split.corePort }).map (·.corePort)).toList
        = core.1.toList := by
    cases hs : inbound.split with
    | none =>
      rw [hs] at hcountCore
      cases hc : core.1 with
      | none => rfl
      | some port => simp [hc] at hcountCore
    | some split =>
      rw [hs] at hcountCore
      cases hc : core.1 with
      | none => simp [hc] at hcountCore
      | some port => rfl
  refine ⟨?_, ?_, rfl⟩
  · rw [XrayIngressPlan.internalPorts, hsplit, hfreeCore, hfreeCover, hfreeGuard]
    simp
  · simp only [XrayIngressPlan.internalPorts, hsplit, List.length_append]
    rw [hcountCore, hcountCover, hcountGuard]

theorem drawInbound_isSome {draw : PortDraw} {inbound : XrayIngressPlan}
    (h : inbound.internalPorts.length ≤ draw.free.length) :
    ∃ drawn, drawInbound draw inbound = some drawn := by
  simp only [XrayIngressPlan.internalPorts, List.length_append] at h
  obtain ⟨core, hcore⟩ := @PortDraw.fill_isSome draw (inbound.split.map (·.corePort)) (by omega)
  obtain ⟨hfreeCore, hcountCore⟩ := PortDraw.fill_eq_some hcore
  rw [hfreeCore, List.length_append, hcountCore] at h
  obtain ⟨cover, hcover⟩ := @PortDraw.fill_isSome core.2 inbound.coverPort (by omega)
  obtain ⟨hfreeCover, hcountCover⟩ := PortDraw.fill_eq_some hcover
  rw [hfreeCover, List.length_append, hcountCover] at h
  obtain ⟨guard, hguard⟩ := @PortDraw.fill_isSome cover.2 inbound.guardPort (by omega)
  refine Option.isSome_iff_exists.mp ?_
  simp only [drawInbound, hcore, hcover, hguard, Option.bind_eq_bind, Option.bind_some]
  rfl

/-- **The internal ports of a machine are the first free ones.** -/
theorem drawInbounds_eq_some {inbounds : List XrayIngressPlan} :
    ∀ {draw : PortDraw} {drawn : List XrayIngressPlan}, drawInbounds draw inbounds = some drawn →
      drawn.flatMap (·.internalPorts) = draw.free.take (inbounds.flatMap (·.internalPorts)).length
        ∧ (inbounds.flatMap (·.internalPorts)).length ≤ draw.free.length
        ∧ drawn.map (·.name) = inbounds.map (·.name) := by
  induction inbounds with
  | nil =>
    intro draw drawn h
    cases Option.some.inj h
    exact ⟨by simp, by simp, rfl⟩
  | cons inbound inbounds ih =>
    intro draw drawn h
    simp only [drawInbounds, Option.bind_eq_bind, Option.bind_eq_some_iff, Option.pure_def,
      Option.some.injEq] at h
    obtain ⟨first, hfirst, rest, hrest, rfl⟩ := h
    obtain ⟨hfree, hcount, hname⟩ := drawInbound_eq_some hfirst
    obtain ⟨hports, hroom, hnames⟩ := ih hrest
    refine ⟨?_, ?_, ?_⟩
    · rw [List.flatMap_cons, List.flatMap_cons, hports, List.length_append, hfree, ← hcount,
        List.take_length_add_append]
    · rw [List.flatMap_cons, List.length_append, hfree, List.length_append, hcount]
      omega
    · rw [List.map_cons, List.map_cons, hname, hnames]

theorem drawInbounds_isSome {inbounds : List XrayIngressPlan} : ∀ {draw : PortDraw},
    (inbounds.flatMap (·.internalPorts)).length ≤ draw.free.length →
      ∃ drawn, drawInbounds draw inbounds = some drawn := by
  induction inbounds with
  | nil => exact fun _ => ⟨[], rfl⟩
  | cons inbound inbounds ih =>
    intro draw h
    rw [List.flatMap_cons, List.length_append] at h
    obtain ⟨first, hfirst⟩ := @drawInbound_isSome draw inbound (by omega)
    obtain ⟨hfree, hcount, -⟩ := drawInbound_eq_some hfirst
    rw [hfree, List.length_append, hcount] at h
    obtain ⟨rest, hrest⟩ := @ih first.2 (by omega)
    exact ⟨first.1 :: rest, by simp [drawInbounds, hfirst, hrest]⟩

end Brocade.Physical
