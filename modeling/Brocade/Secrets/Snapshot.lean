/-
Snapshots as they are serialised.

An outbound's protocol is written as its tag and its body; the body has the credential, where the
protocol has one, and the settings of the protocol.  The members of a document stand in the order
of their names, so it does not matter in which order they are written.
-/
import Brocade.Secrets.Veil

namespace Brocade.Secrets

open Json

/-! ### The model -/

/-- A machine's end of an outbound. -/
structure ExternalWarpBinding where
  (node deviceId accountId registeredAt : String)
  endpointAddress : Option String
  endpointPort : Option ℕ
  (privateKey peerPublicKey : String)
  localAddresses : List String

/-- The first externally managed protocol set.  Transport and Finalmask are extensible, and here
as they are written. -/
inductive ExternalOutboundProtocol where
  | anytls (credential : String)
  | vless (credential encryption : String) (flow : Option String) (transport : Value)
      (finalMask : Option Value)
  | shadowsocks2022 (credential method : String)
  | socks5 (username : Option String) (credential : String)
  | httpConnect (username : Option String) (credential : String)
  | wireguard (credential peerPublicKey : String) (localAddresses : List String) (mtu : ℕ)
      (reserved : List ℕ) (keepAlive : ℕ) (allowedIps : List String) (noKernelTun : Bool)
      (domainStrategy : String)
  | warp (httpVersion : String) (remoteDns : List String)
  | vpngate (countryCode : String) (serverId : Option String) (serverIds : List String)
      (maxConnectMs minDownloadBps maxCandidates : ℕ)

/-- An outbound outside the fleet. -/
structure ExternalOutbound where
  (id tenant name address : String)
  port : ℕ
  protocol : ExternalOutboundProtocol
  security : Value
  targetStrategy : Option String
  bindings : List ExternalWarpBinding

/-- A snapshot; the members that no pass reads are as they are written. -/
structure ModelSnapshot where
  rest : List (String × Value)
  externalOutbounds : List ExternalOutbound

/-! ### Writing -/

def number (n : ℕ) : Value := .num (.posInt n)

def strings (texts : List String) : Value := .arr (texts.map .str)

/-- A member that is `null` when absent. -/
def nullable : Option Value → Value
  | some v => v
  | none => .null

/-- A member that is left out when absent. -/
def skipped (key : String) : Option Value → List (String × Value)
  | some v => [(key, v)]
  | none => []

/-- The members besides the key. -/
def ExternalWarpBinding.members (b : ExternalWarpBinding) : List (String × Value) :=
  [("node", .str b.node), ("device_id", .str b.deviceId), ("account_id", .str b.accountId),
    ("registered_at", .str b.registeredAt),
    ("endpoint_address", nullable (b.endpointAddress.map .str)),
    ("endpoint_port", nullable (b.endpointPort.map number)),
    ("peer_public_key", .str b.peerPublicKey), ("local_addresses", strings b.localAddresses)]

def ExternalWarpBinding.document (b : ExternalWarpBinding) : Value :=
  (Value.ofFields b.members).put "private_key" (.str b.privateKey)

namespace ExternalOutboundProtocol

/-- The name of a protocol. -/
def tag : ExternalOutboundProtocol → String
  | .anytls _ => "anytls"
  | .vless .. => "vless"
  | .shadowsocks2022 .. => "shadowsocks2022"
  | .socks5 .. => "socks5"
  | .httpConnect .. => "http_connect"
  | .wireguard .. => "wireguard"
  | .warp .. => "warp"
  | .vpngate .. => "vpngate"

/-- The credential, which managed outbounds do not have. -/
def credential? : ExternalOutboundProtocol → Option String
  | .anytls credential => some credential
  | .vless credential .. => some credential
  | .shadowsocks2022 credential _ => some credential
  | .socks5 _ credential => some credential
  | .httpConnect _ credential => some credential
  | .wireguard credential .. => some credential
  | .warp .. | .vpngate .. => none

/-- The members of the body next to the credential. -/
def settings : ExternalOutboundProtocol → List (String × Value)
  | .anytls _ => []
  | .vless _ encryption flow transport finalMask =>
    [("encryption", .str encryption), ("flow", nullable (flow.map .str)),
      ("transport", transport)] ++ skipped "final_mask" finalMask
  | .shadowsocks2022 _ method => [("method", .str method)]
  | .socks5 username _ => [("username", nullable (username.map .str))]
  | .httpConnect username _ => [("username", nullable (username.map .str))]
  | .wireguard _ peerPublicKey localAddresses mtu reserved keepAlive allowedIps noKernelTun
      domainStrategy =>
      [("peer_public_key", .str peerPublicKey), ("local_addresses", strings localAddresses),
        ("mtu", number mtu), ("reserved", .arr (reserved.map number)),
        ("keep_alive", number keepAlive), ("allowed_ips", strings allowedIps),
        ("no_kernel_tun", .bool noKernelTun), ("domain_strategy", .str domainStrategy)]
  | .warp httpVersion remoteDns =>
    [("http_version", .str httpVersion), ("remote_dns", strings remoteDns)]
  | .vpngate countryCode serverId serverIds maxConnectMs minDownloadBps maxCandidates =>
    [("country_code", .str countryCode)] ++ skipped "server_id" (serverId.map .str)
      ++ skipped "server_ids" (if serverIds.isEmpty then none else some (strings serverIds))
      ++ [("max_connect_ms", number maxConnectMs), ("min_download_bps", number minDownloadBps),
        ("max_candidates", number maxCandidates)]

/-- The settings as they stand in a document. -/
def options (p : ExternalOutboundProtocol) : List (String × Value) :=
  (OrdMap.ofList p.settings).entries

/-- The members of a protocol. -/
def body (p : ExternalOutboundProtocol) : List (String × Value) :=
  match p.credential? with
  | some credential => Assoc.insert "credential" (.str credential) p.options
  | none => p.options

def document (p : ExternalOutboundProtocol) : Value :=
  (Value.ofFields [("t", .str p.tag)]).put "v" (.obj p.body)

end ExternalOutboundProtocol

/-- The members besides these. -/
def ExternalOutbound.members (o : ExternalOutbound) : List (String × Value) :=
  [("id", .str o.id), ("tenant", .str o.tenant), ("name", .str o.name),
    ("address", .str o.address), ("port", number o.port), ("security", o.security)]
    ++ skipped "target_strategy" (o.targetStrategy.map .str)

/-- An outbound, as serialised. -/
def ExternalOutbound.document (o : ExternalOutbound) : Value :=
  ((Value.ofFields o.members).put "protocol" o.protocol.document).put "bindings"
    (.arr (o.bindings.map ExternalWarpBinding.document))

/-- A snapshot, as serialised. -/
def ModelSnapshot.document (s : ModelSnapshot) : Value :=
  (Value.ofFields s.rest).put "external_outbounds"
    (.arr (s.externalOutbounds.map ExternalOutbound.document))

/-! ### Without the secrets -/

def ExternalWarpBinding.redact (b : ExternalWarpBinding) : ExternalWarpBinding :=
  { b with privateKey := "" }

/-- A protocol without its credential; of VLESS nothing is left. -/
def ExternalOutboundProtocol.redact : ExternalOutboundProtocol → ExternalOutboundProtocol
  | .anytls _ => .anytls ""
  | .vless .. => .vless "" "" none .null none
  | .shadowsocks2022 _ method => .shadowsocks2022 "" method
  | .socks5 username _ => .socks5 username ""
  | .httpConnect username _ => .httpConnect username ""
  | .wireguard _ peerPublicKey localAddresses mtu reserved keepAlive allowedIps noKernelTun
      domainStrategy =>
      .wireguard "" peerPublicKey localAddresses mtu reserved keepAlive allowedIps noKernelTun
        domainStrategy
  | .warp httpVersion remoteDns => .warp httpVersion remoteDns
  | .vpngate countryCode serverId serverIds maxConnectMs minDownloadBps maxCandidates =>
    .vpngate countryCode serverId serverIds maxConnectMs minDownloadBps maxCandidates

/-- The outbound without its secrets. -/
def ExternalOutbound.redact (o : ExternalOutbound) : ExternalOutbound :=
  { o with
    protocol := o.protocol.redact
    bindings := o.bindings.map ExternalWarpBinding.redact }

/-- A snapshot without what is secret in its external outbounds. -/
def ModelSnapshot.redact (s : ModelSnapshot) : ModelSnapshot :=
  { s with externalOutbounds := s.externalOutbounds.map ExternalOutbound.redact }

/-! ### What is written is well-formed -/

theorem mem_skipped {key : String} {v : Option Value} {e : String × Value}
    (h : e ∈ skipped key v) : e.1 = key := by
  cases v with
  | none => exact absurd h List.not_mem_nil
  | some v => rw [List.mem_singleton.mp h]

theorem lastOf_skipped {key k : String} (hne : k ≠ key) (v : Option Value) :
    OrdMap.lastOf k (skipped key v) = none :=
  OrdMap.lastOf_eq_none.mpr fun _ he hk => hne (hk.symm.trans (mem_skipped he))

namespace ExternalOutboundProtocol

theorem settings_plain (p : ExternalOutboundProtocol) :
    ∀ e ∈ p.settings, e.1 ≠ "credential" ∧ e.1 ≠ "options_sealed" := by
  have hskipped : ∀ key v, (key ≠ "credential" ∧ key ≠ "options_sealed") →
      ∀ e ∈ skipped key v, e.1 ≠ "credential" ∧ e.1 ≠ "options_sealed" := by
    intro key v hkey e he
    rwa [mem_skipped he]
  cases p with
  | vless credential encryption flow transport finalMask =>
    refine List.forall_mem_append.mpr ⟨by simp, hskipped _ _ (by decide)⟩
  | vpngate countryCode serverId serverIds maxConnectMs minDownloadBps maxCandidates =>
    refine List.forall_mem_append.mpr ⟨List.forall_mem_append.mpr
      ⟨List.forall_mem_append.mpr ⟨by simp, ?_⟩, ?_⟩, by simp⟩
    · exact hskipped _ _ (by decide)
    · exact hskipped _ _ (by decide)
  | _ => simp [settings]

theorem lookup_options (p : ExternalOutboundProtocol) {k : String}
    (hk : k = "credential" ∨ k = "options_sealed") : Assoc.lookup k p.options = none :=
  (OrdMap.get?_ofList p.settings k).trans (OrdMap.lastOf_eq_none.mpr (by
    intro e he hkey
    rcases hk with rfl | rfl
    · exact (p.settings_plain e he).1 hkey
    · exact (p.settings_plain e he).2 hkey))

theorem sorted_options (p : ExternalOutboundProtocol) : Assoc.Sorted p.options :=
  (OrdMap.ofList p.settings).sorted

theorem sorted_body (p : ExternalOutboundProtocol) : Assoc.Sorted p.body := by
  unfold body
  split
  · exact Assoc.sorted_insert p.sorted_options _ _
  · exact p.sorted_options

theorem lookup_sealed (p : ExternalOutboundProtocol) :
    Assoc.lookup "options_sealed" p.body = none := by
  unfold body
  split
  · rw [Assoc.lookup_insert, if_neg (by decide), p.lookup_options (Or.inr rfl)]
  · exact p.lookup_options (Or.inr rfl)

theorem hasCredential_body (p : ExternalOutboundProtocol) : HasCredential p.tag p.body := by
  unfold body
  split
  · next credential _ =>
      refine Or.inl ⟨credential, ?_⟩
      rw [Assoc.lookup_insert, if_pos rfl]
  · next hnone =>
      refine Or.inr ⟨?_, p.lookup_options (Or.inl rfl)⟩
      cases p with
      | warp => exact Or.inl rfl
      | vpngate => exact Or.inr rfl
      | _ => exact absurd hnone nofun

theorem erase_credential (p : ExternalOutboundProtocol) :
    Assoc.erase "credential" p.body = p.options := by
  have hnone := p.lookup_options (Or.inl rfl)
  unfold body
  split
  · exact Assoc.erase_insert p.sorted_options hnone
  · exact Assoc.erase_of_lookup p.sorted_options hnone

theorem document_get_v (p : ExternalOutboundProtocol) :
    p.document.get? "v" = some (.obj p.body) := by
  rw [document, Value.ofFields, Value.put_obj, Value.get?_obj, Assoc.lookup_insert, if_pos rfl]

theorem document_tag (p : ExternalOutboundProtocol) : memberText p.document "t" = some p.tag := by
  rw [document, memberText_put_ne _ _ (by decide), memberText, Value.get?_ofFields]
  rfl

end ExternalOutboundProtocol

theorem ExternalWarpBinding.hasKey (b : ExternalWarpBinding) : HasKey b.document := by
  refine ⟨Value.ordered_put (Value.ordered_ofFields _) _ _, b.node, b.privateKey, ?_, ?_⟩
  · rw [document, memberText_put_ne _ _ (by decide), memberText, Value.get?_ofFields]
    simp [members, OrdMap.lastOf, Value.asStr?]
  · refine memberText_put_self (k := "node") (y := .str b.node) ?_ _ _
    rw [Value.get?_ofFields]
    simp [members, OrdMap.lastOf]

namespace ExternalOutbound

variable (o : ExternalOutbound)

theorem memberText_members {k : String} (hprotocol : k ≠ "protocol") (hbindings : k ≠ "bindings") :
    memberText o.document k = (OrdMap.lastOf k o.members).bind Value.asStr? := by
  rw [document, memberText_put_ne _ _ hbindings, memberText_put_ne _ _ hprotocol, memberText,
    Value.get?_ofFields]

theorem identity : externalSnapshotIdentity o.document = .ok (o.tenant, o.id) := by
  have htenant : memberText o.document "tenant" = some o.tenant := by
    rw [o.memberText_members (by decide) (by decide), members, OrdMap.lastOf_append,
      lastOf_skipped (by decide)]
    simp [OrdMap.lastOf, Value.asStr?]
  have hid : memberText o.document "id" = some o.id := by
    rw [o.memberText_members (by decide) (by decide), members, OrdMap.lastOf_append,
      lastOf_skipped (by decide)]
    simp [OrdMap.lastOf, Value.asStr?]
  simp only [externalSnapshotIdentity, htenant, hid]

theorem get?_protocol : o.document.get? "protocol" = some o.protocol.document := by
  rw [document, Value.get?_put_ne _ _ (by decide), Value.ofFields, Value.put_obj, Value.get?_obj,
    Assoc.lookup_insert, if_pos rfl]

theorem bindingsOf_document :
    bindingsOf o.document = some (o.bindings.map ExternalWarpBinding.document) := by
  rw [bindingsOf, document, Value.ofFields, Value.put_obj, Value.put_obj, Value.get?_obj,
    Assoc.lookup_insert, if_pos rfl]
  rfl

/-- **An outbound is written well-formed.** -/
theorem wellFormed : WellFormed o.document o.tenant o.id o.protocol.tag o.protocol.body where
  ordered := Value.ordered_put (Value.ordered_put (Value.ordered_ofFields _) _ _) _ _
  protocolOrdered := by
    intro protocol hprotocol
    rw [o.get?_protocol] at hprotocol
    cases hprotocol
    exact Value.ordered_put (Value.ordered_ofFields _) _ _
  bodyOrdered := o.protocol.sorted_body
  body_eq := by
    rw [protocolBody, o.get?_protocol, Option.bind_some, o.protocol.document_get_v]
  identity := o.identity
  tag_eq := by
    rw [protocolTag, o.get?_protocol, Option.bind_some, o.protocol.document_tag]
  unsealed := o.protocol.lookup_sealed
  hasCredential := o.protocol.hasCredential_body
  hasKeys := by
    intro bindings hbindings b hb
    rw [o.bindingsOf_document] at hbindings
    cases hbindings
    obtain ⟨binding, _, rfl⟩ := List.mem_map.mp hb
    exact binding.hasKey

end ExternalOutbound

theorem ModelSnapshot.ordered (s : ModelSnapshot) : s.document.Ordered :=
  Value.ordered_put (Value.ordered_ofFields _) _ _

theorem ModelSnapshot.get?_outbounds (s : ModelSnapshot) : s.document.get? "external_outbounds"
      = some (.arr (s.externalOutbounds.map ExternalOutbound.document)) := by
  rw [document, Value.ofFields, Value.put_obj, Value.get?_obj, Assoc.lookup_insert, if_pos rfl]

theorem ModelSnapshot.wellFormed (s : ModelSnapshot) : WellFormedSnapshot s.document where
  ordered := s.ordered
  outbounds := by
    refine Or.inr ⟨_, _, s.get?_outbounds, List.forall₂_same.mpr ?_, ?_⟩
    · intro v hv
      obtain ⟨o, _, rfl⟩ := List.mem_map.mp hv
      exact ⟨rfl, o.tenant, o.id, o.protocol.tag, o.protocol.body, o.wellFormed⟩
    · rw [Value.put_get? s.ordered s.get?_outbounds]

/-! ### What is seen of it -/

namespace ExternalOutboundProtocol

theorem tag_redact (p : ExternalOutboundProtocol) : p.redact.tag = p.tag := by
  cases p <;> rfl

theorem veilBody_body (p : ExternalOutboundProtocol) (htag : p.tag ≠ "vless") :
    veilBody p.tag p.body
      = if p.credential?.isSome then Assoc.insert "credential" (.str "") p.options
        else p.options := by
  rw [veilBody, if_neg htag]
  unfold body
  split
  · next credential hcredential =>
      rw [hcredential, Assoc.lookup_insert, if_pos rfl, if_pos Option.isSome_some,
        if_pos Option.isSome_some, Assoc.insert_insert p.sorted_options]
  · next hnone =>
      rw [hnone, p.lookup_options (Or.inl rfl)]
      rfl

theorem veilBody_redact (p : ExternalOutboundProtocol) :
    veilBody p.redact.tag p.redact.body = veilBody p.tag p.body := by
  by_cases htag : p.tag = "vless"
  · rw [veilBody, veilBody, p.tag_redact, if_pos htag, if_pos htag]
  · rw [p.redact.veilBody_body (by rwa [p.tag_redact]), p.veilBody_body htag]
    cases p with
    | vless => exact absurd rfl htag
    | _ => rfl

end ExternalOutboundProtocol

theorem ExternalWarpBinding.veil_redact (b : ExternalWarpBinding) :
    veilBinding b.redact.document = veilBinding b.document := by
  rw [veilBinding, veilBinding, document, document, Value.put_put (Value.ordered_ofFields _),
    Value.put_put (Value.ordered_ofFields _)]
  rfl

namespace ExternalOutbound

/-- What is seen of an outbound. -/
def veiled (o : ExternalOutbound) : Value :=
  veilOutbound o.protocol.tag o.protocol.body o.document

theorem refit_document (o : ExternalOutbound) (body : List (String × Value))
    (bindings : List Value) :
    refit o.document body (some bindings) = ((Value.ofFields o.members).put "protocol"
          ((Value.ofFields [("t", .str o.protocol.tag)]).put "v" (.obj body))).put "bindings"
            (.arr bindings) := by
  have hordered := Value.ordered_ofFields o.members
  have hbody : putBody o.document (.obj body)
      = o.document.put "protocol" (o.protocol.document.put "v" (.obj body)) := by
    simp only [putBody, o.get?_protocol]
  rw [refit, hbody, document, Value.put_comm (Value.ordered_put hordered _ _) (by decide),
    Value.put_put (Value.ordered_put (Value.ordered_put hordered _ _) _ _),
    Value.put_put hordered, ExternalOutboundProtocol.document,
    Value.put_put (Value.ordered_ofFields _)]

theorem veiled_redact (o : ExternalOutbound) : o.redact.veiled = o.veiled := by
  have hbindings : (o.redact.bindings.map ExternalWarpBinding.document).map veilBinding
      = (o.bindings.map ExternalWarpBinding.document).map veilBinding := by
    simp only [redact, List.map_map]
    exact List.map_congr_left fun b _ => b.veil_redact
  have hbody : veilBody o.redact.protocol.tag o.redact.protocol.body
      = veilBody o.protocol.tag o.protocol.body := o.protocol.veilBody_redact
  have htag : o.redact.protocol.tag = o.protocol.tag := o.protocol.tag_redact
  rw [veiled, veiled, veilOutbound, veilOutbound, o.redact.bindingsOf_document,
    o.bindingsOf_document, Option.map_some, Option.map_some, refit_document, refit_document,
    hbody, hbindings, htag]
  rfl

end ExternalOutbound

/-- What is seen of a sealed snapshot. -/
def ModelSnapshot.veiled (s : ModelSnapshot) : Value :=
  (Value.ofFields s.rest).put "external_outbounds"
    (.arr (s.externalOutbounds.map ExternalOutbound.veiled))

/-- **What is seen of a snapshot does not depend on its secrets.** -/
theorem ModelSnapshot.veiled_redact (s : ModelSnapshot) : s.redact.veiled = s.veiled := by
  have houtbounds : (s.externalOutbounds.map ExternalOutbound.redact).map ExternalOutbound.veiled
      = s.externalOutbounds.map ExternalOutbound.veiled := by
    rw [List.map_map]
    exact List.map_congr_left fun o _ => o.veiled_redact
  rw [veiled, veiled, redact, houtbounds]

theorem ModelSnapshot.blank_sealed {aead : Aead} {text : JsonText} (s : ModelSnapshot)
    {sealed : Value} (h : Related (Sealed aead text) s.document sealed) :
    blank sealed = s.veiled := by
  rcases Secrets.blank_sealed s.ordered h with ⟨hnone, _⟩ | ⟨outbounds, veils, hget, hall, hblank⟩
  · rw [s.get?_outbounds] at hnone
    exact absurd hnone nofun
  · rw [s.get?_outbounds] at hget
    cases hget
    have hveils : veils = s.externalOutbounds.map ExternalOutbound.veiled := by
      have hsame : List.Forall₂ Eq (s.externalOutbounds.map ExternalOutbound.veiled) veils := by
        refine List.forall₂_map_left_iff.mpr ((List.forall₂_map_left_iff.mp hall).imp ?_)
        intro o v hv
        obtain ⟨tenant, id, tag, body, hwell, rfl⟩ := hv
        have htag := hwell.tag_eq.symm.trans o.wellFormed.tag_eq
        have hbody := hwell.body_eq.symm.trans o.wellFormed.body_eq
        cases htag
        cases hbody
        rfl
      rw [List.forall₂_eq_eq_eq] at hsame
      exact hsame.symm
    rw [hblank, hveils, veiled, document, Value.put_put (Value.ordered_ofFields _)]

end Brocade.Secrets
