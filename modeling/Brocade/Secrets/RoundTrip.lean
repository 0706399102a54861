/-
What is sealed opens to what it was.

The proof meets in the middle.  Sealing takes an outbound to one that is described by what was
sealed in it: its body, which the two passes seal one inside the other, and the keys of its
machines.  Opening takes every outbound of this description back, in the same order of passes: the
first one unpacks the options, which leaves the credential and the keys for the second.  Documents
from before the options were sealed are what the second pass alone makes, and the first opening
pass leaves them so.
-/
import Brocade.Secrets.Refit
import Brocade.Secrets.Opening

namespace Brocade.Secrets

open Json

variable {aead : Aead} {text : JsonText}

/-! ### Descriptions -/

/-- There is a credential to seal, or the outbound is a managed one. -/
def HasCredential (tag : String) (body : List (String × Value)) : Prop :=
  (∃ credential, Assoc.lookup "credential" body = some (.str credential))
    ∨ (tag = "warp" ∨ tag = "vpngate") ∧ Assoc.lookup "credential" body = none

/-- The machine has a key to seal. -/
def HasKey (binding : Value) : Prop :=
  binding.Ordered ∧ ∃ node key, memberText binding "node" = some node
    ∧ memberText binding "private_key" = some key

/-- An outbound as snapshots have it. -/
structure WellFormed (outbound : Value) (tenant id tag : String) (body : List (String × Value)) :
    Prop extends Framed outbound body where
  identity : externalSnapshotIdentity outbound = .ok (tenant, id)
  tag_eq : protocolTag outbound = some tag
  unsealed : Assoc.lookup "options_sealed" body = none
  hasCredential : HasCredential tag body
  hasKeys : ∀ bindings, bindingsOf outbound = some bindings → ∀ b ∈ bindings, HasKey b

/-- A body with its options sealed, where they are. -/
inductive OptionsSealed (aead : Aead) (text : JsonText) (tenant id tag : String)
    (body : List (String × Value)) : List (String × Value) → Prop
  | sealed (number : ℕ) (credential : Value) (htag : tag = "vless")
      (hcredential : Assoc.lookup "credential" body = some credential) :
      OptionsSealed aead text tenant id tag body
        [("credential", credential), ("options_sealed", .str (aead.seal_ number
          (externalOutboundOptionsContext tenant id) (text.print (Assoc.erase "credential" body))))]
  | plain (htag : tag ≠ "vless") : OptionsSealed aead text tenant id tag body body

/-- A body with its credential sealed. -/
inductive CredentialSealed (aead : Aead) (tenant id tag : String) (body : List (String × Value)) :
    List (String × Value) → Prop
  | sealed (number : ℕ) (credential : String)
      (hcredential : Assoc.lookup "credential" body = some (.str credential)) :
      CredentialSealed aead tenant id tag body (Assoc.insert "credential"
        (.str (aead.seal_ number (externalOutboundContext tenant id) credential)) body)
  | managed (htag : tag = "warp" ∨ tag = "vpngate")
      (hcredential : Assoc.lookup "credential" body = none) :
      CredentialSealed aead tenant id tag body body

/-- A machine with its key sealed. -/
def KeySealed (aead : Aead) (tenant id : String) (binding binding' : Value) : Prop :=
  binding.Ordered ∧ ∃ number node key, memberText binding "node" = some node
    ∧ memberText binding "private_key" = some key
    ∧ binding' = binding.put "private_key" (.str (aead.seal_ number
        (externalOutboundBindingKeyContext tenant id node) key))

/-- The keys of all bindings are sealed. -/
abbrev KeysSealed (aead : Aead) (tenant id : String) : Option (List Value) → Option (List Value) →
    Prop :=
  Option.Rel (List.Forall₂ (KeySealed aead tenant id))

/-- Nothing but the credential and the keys of an outbound is sealed, as it was before the options
were. -/
def HalfSealed (aead : Aead) (outbound outbound' : Value) : Prop :=
  ∃ tenant id tag body body' bindings', WellFormed outbound tenant id tag body
    ∧ CredentialSealed aead tenant id tag body body'
    ∧ KeysSealed aead tenant id (bindingsOf outbound) bindings'
    ∧ outbound' = refit outbound body' bindings'

/-- Everything secret in an outbound is sealed. -/
def Sealed (aead : Aead) (text : JsonText) (outbound outbound' : Value) : Prop :=
  ∃ tenant id tag body packed body' bindings', WellFormed outbound tenant id tag body
    ∧ OptionsSealed aead text tenant id tag body packed
    ∧ CredentialSealed aead tenant id tag packed body'
    ∧ KeysSealed aead tenant id (bindingsOf outbound) bindings'
    ∧ outbound' = refit outbound body' bindings'

/-! ### Sealing -/

variable {tenant id : String} {outbound : Value} {body : List (String × Value)}

theorem transformBinding_sealText {binding : Value} (h : HasKey binding) (n : ℕ) :
    ∃ binding' m, transformBinding (sealText aead) tenant id binding n
      = .ok (binding', m) ∧ KeySealed aead tenant id binding binding' := by
  obtain ⟨hordered, node, key, hnode, hkey⟩ := h
  refine ⟨_, n + 1, ?_, hordered, n, node, key, hnode, hkey, rfl⟩
  simp only [transformBinding, hnode, hkey]
  rfl

theorem transformCredential_eq {transform : String → String → Pass String}
    {credential credential' : String} {n m : ℕ} (hbody : protocolBody outbound = some (.obj body))
    (hcredential : Assoc.lookup "credential" body = some (.str credential))
    (htransform : transform (externalOutboundContext tenant id) credential n
      = .ok (credential', m)) : transformCredential transform tenant id outbound n
      = .ok (putBody outbound (.obj (Assoc.insert "credential" (.str credential') body)), m) := by
  simp only [transformCredential, hbody, memberText_obj hcredential]
  exact Drawing.bind_eq_ok.mpr ⟨credential', m, htransform, Drawing.pure_eq_ok.mpr ⟨rfl, rfl⟩⟩

theorem transformCredential_managed {transform : String → String → Pass String} {tag : String}
    {n : ℕ} (hbody : protocolBody outbound = some (.obj body))
    (htag : protocolTag outbound = some tag) (hmanaged : tag = "warp" ∨ tag = "vpngate")
    (hcredential : Assoc.lookup "credential" body = none) :
    transformCredential transform tenant id outbound n = .ok (outbound, n) := by
  have hmember : memberText (.obj body) "credential" = none := by
    rw [memberText, Value.get?_obj, hcredential]
    rfl
  simp only [transformCredential, hbody, hmember]
  rw [transformCredential.missing, if_pos (by simpa [htag] using hmanaged)]
  rfl

section
variable {outbound : Value} {tenant id tag : String} {body : List (String × Value)}
  {transform : String → String → Pass String}

theorem transformBindings_refit (h : Framed outbound body) {R S : Value → Value → Prop}
    (hstep : ∀ b b', R b b' → ∀ n, ∃ b'' m,
      transformBinding transform tenant id b' n = .ok (b'', m) ∧ S b b'')
    {bindings : Option (List Value)}
    (hbindings : Option.Rel (List.Forall₂ R) (bindingsOf outbound) bindings)
    (body' : List (String × Value)) (n : ℕ) :
    ∃ bindings' m, transformBindings transform tenant id (refit outbound body' bindings) n
        = .ok (refit outbound body' bindings', m)
      ∧ Option.Rel (List.Forall₂ S) (bindingsOf outbound) bindings' := by
  cases bindings with
  | none =>
    cases hnone : bindingsOf outbound with
    | some bs =>
      rw [hnone] at hbindings
      cases hbindings
    | none =>
      refine ⟨none, n, ?_, .none⟩
      have hrefit := (Framed.bindingsOf_refit_none outbound body').trans hnone
      rw [bindingsOf] at hrefit
      simp only [transformBindings, hrefit]
      rfl
  | some bs =>
    cases hsome : bindingsOf outbound with
    | none =>
      rw [hsome] at hbindings
      cases hbindings
    | some own =>
      rw [hsome] at hbindings
      cases hbindings with
      | some hrelated =>
        have hrefit := h.bindingsOf_refit_some body' bs
        rw [bindingsOf] at hrefit
        obtain ⟨bs', m, hmap, hall⟩ := Drawing.mapM_related hrelated hstep n
        refine ⟨some bs', m, ?_, .some hall⟩
        simp only [transformBindings, hrefit]
        exact Drawing.bind_eq_ok.mpr ⟨bs', m, hmap,
          Drawing.pure_eq_ok.mpr ⟨h.put_refit body' bs bs', rfl⟩⟩

theorem transformOutbound_refit (h : WellFormed outbound tenant id tag body)
    {packed body' : List (String × Value)} {bindings bindings' : Option (List Value)} {n k m : ℕ}
    (hcredential : transformCredential transform tenant id (refit outbound packed bindings) n
      = .ok (refit outbound body' bindings, k))
    (hbindings : transformBindings transform tenant id (refit outbound body' bindings) k
      = .ok (refit outbound body' bindings', m)) :
    transformOutbound transform (refit outbound packed bindings) n
      = .ok (refit outbound body' bindings', m) := by
  refine Drawing.bind_eq_ok.mpr ⟨(tenant, id), n, ?_, ?_⟩
  · rw [Drawing.ofExcept_eq_ok, externalSnapshotIdentity_refit, h.identity]
    exact ⟨rfl, rfl⟩
  · exact Drawing.bind_eq_ok.mpr ⟨_, k, hcredential, hbindings⟩

variable (aead) in
theorem sealText_credential (h : WellFormed outbound tenant id tag body)
    {packed : List (String × Value)} (hpacked : HasCredential tag packed)
    (bindings : Option (List Value)) (n : ℕ) :
    ∃ body' m, transformCredential (sealText aead) tenant id (refit outbound packed bindings) n
        = .ok (refit outbound body' bindings, m)
      ∧ CredentialSealed aead tenant id tag packed body' := by
  have hbody := protocolBody_refit h.body_eq packed bindings
  rcases hpacked with ⟨credential, hcredential⟩ | ⟨hmanaged, hnone⟩
  · refine ⟨_, n + 1, ?_, .sealed n credential hcredential⟩
    rw [transformCredential_eq hbody hcredential rfl, h.putBody_refit]
  · refine ⟨packed, n, ?_, .managed hmanaged hnone⟩
    exact transformCredential_managed hbody ((protocolTag_refit outbound _ _).trans h.tag_eq)
      hmanaged hnone

variable (aead) in
theorem sealText_outbound (h : WellFormed outbound tenant id tag body)
    {packed : List (String × Value)} (hpacked : HasCredential tag packed) (n : ℕ) :
    ∃ body' bindings' m, transformOutbound (sealText aead)
        (refit outbound packed (bindingsOf outbound)) n = .ok (refit outbound body' bindings', m)
      ∧ CredentialSealed aead tenant id tag packed body'
      ∧ KeysSealed aead tenant id (bindingsOf outbound) bindings' := by
  have hown : Option.Rel (List.Forall₂ fun b b' => b = b' ∧ HasKey b) (bindingsOf outbound)
      (bindingsOf outbound) := by
    cases hbindings : bindingsOf outbound with
    | none => exact .none
    | some bs => exact .some (List.forall₂_same.mpr fun b hb => ⟨rfl, h.hasKeys bs hbindings b hb⟩)
  obtain ⟨body', k, hcredential, hbody'⟩ :=
    sealText_credential aead h hpacked (bindingsOf outbound) n
  have hstep : ∀ b b', (b = b' ∧ HasKey b) → ∀ n, ∃ b'' m,
      transformBinding (sealText aead) tenant id b' n = .ok (b'', m)
        ∧ KeySealed aead tenant id b b'' := by
    intro b b' hb n
    rw [← hb.1]
    exact transformBinding_sealText hb.2 n
  obtain ⟨bindings', m, hbindings, hkeys⟩ := transformBindings_refit h.toFramed hstep hown body' k
  exact ⟨body', bindings', m, transformOutbound_refit h hcredential hbindings, hbody', hkeys⟩

/-- The pass over the options packs those of an outbound, and leaves a credential to seal. -/
theorem sealVlessOptions_outbound (h : WellFormed outbound tenant id tag body) (n : ℕ) :
    ∃ packed m, sealVlessOptions aead text outbound n
        = .ok (refit outbound packed (bindingsOf outbound), m)
      ∧ OptionsSealed aead text tenant id tag body packed ∧ HasCredential tag packed := by
  unfold sealVlessOptions
  by_cases htag : tag = "vless"
  · obtain ⟨credential, hcredential⟩ : ∃ credential,
        Assoc.lookup "credential" body = some (.str credential) := by
      rcases h.hasCredential with hsome | ⟨hmanaged, _⟩
      · exact hsome
      · rw [htag] at hmanaged
        exact absurd hmanaged (by decide)
    refine ⟨_, n + 1, ?_, .sealed n _ htag hcredential, Or.inl ⟨credential, rfl⟩⟩
    have hoptions : vlessOptions outbound = .ok ((tenant, id), body) := by
      simp only [vlessOptions, h.identity, h.body_eq]
      rfl
    have hlookup : vlessCredential tenant id body = .ok (.str credential) := by
      simp only [vlessCredential, hcredential]
    rw [if_neg (by simp [h.tag_eq, htag]), ← h.putBody_refit body, h.refit_self]
    refine Drawing.bind_eq_ok.mpr ⟨_, n, Drawing.ofExcept_eq_ok.mpr ⟨hoptions, rfl⟩, ?_⟩
    refine Drawing.bind_eq_ok.mpr ⟨_, n, Drawing.ofExcept_eq_ok.mpr ⟨hlookup, rfl⟩, ?_⟩
    rfl
  · refine ⟨body, n, ?_, .plain htag, h.hasCredential⟩
    rw [if_pos (by simpa [h.tag_eq] using htag), h.refit_self]
    rfl

/-! ### Opening -/

theorem openText_eq {context plaintext : String} (number n : ℕ) :
    openText aead context (aead.seal_ number context plaintext) n = .ok (plaintext, n) :=
  openText_eq_ok.mpr ⟨aead.opens number context plaintext, rfl⟩

theorem transformBinding_openText {binding binding' : Value}
    (h : KeySealed aead tenant id binding binding') (n : ℕ) :
    transformBinding (openText aead) tenant id binding' n = .ok (binding, n) := by
  obtain ⟨hordered, number, node, key, hnode, hkey, rfl⟩ := h
  obtain ⟨value, hvalue, htext⟩ := Option.bind_eq_some_iff.mp hkey
  rw [Value.asStr?_eq_some] at htext
  have hnode' := fun x => (memberText_put_ne binding (l := "private_key") x (by decide)).trans hnode
  have hkey' := memberText_put_self hvalue "private_key"
  simp only [transformBinding, hnode', hkey']
  refine Drawing.bind_eq_ok.mpr ⟨key, n, openText_eq number n, Drawing.pure_eq_ok.mpr ⟨?_, rfl⟩⟩
  rw [Value.put_put hordered, ← htext, Value.put_get? hordered hvalue]

theorem openText_credential (h : WellFormed outbound tenant id tag body)
    {body' : List (String × Value)} (hbody' : CredentialSealed aead tenant id tag body body')
    (bindings : Option (List Value)) (n : ℕ) :
    transformCredential (openText aead) tenant id (refit outbound body' bindings) n
      = .ok (refit outbound body bindings, n) := by
  have hbody := protocolBody_refit h.body_eq body' bindings
  cases hbody' with
  | sealed number credential hcredential =>
    have hsealed := Assoc.lookup_insert "credential" "credential" (Value.str (aead.seal_ number
      (externalOutboundContext tenant id) credential)) body
    rw [if_pos rfl] at hsealed
    rw [transformCredential_eq hbody hsealed (openText_eq number n), h.putBody_refit]
    have hput := Value.put_get? (v := .obj body) h.bodyOrdered hcredential
    rw [Assoc.insert_insert h.bodyOrdered, Value.obj.inj hput]
  | managed hmanaged hnone =>
    exact transformCredential_managed hbody ((protocolTag_refit outbound _ _).trans h.tag_eq)
      hmanaged hnone

/-- **What is half sealed opens in the second pass.** -/
theorem openText_outbound {outbound outbound' : Value} (h : HalfSealed aead outbound outbound')
    (n : ℕ) : ∃ m, transformOutbound (openText aead) outbound' n = .ok (outbound, m) := by
  obtain ⟨tenant, id, tag, body, body', bindings', hwell, hbody', hkeys, rfl⟩ := h
  obtain ⟨bindings, m, hbindings, hsame⟩ := transformBindings_refit (S := Eq)
    hwell.toFramed (fun b b' hb n => ⟨b, n, transformBinding_openText hb n, rfl⟩) hkeys body n
  have hown : bindings = bindingsOf outbound := by
    generalize bindingsOf outbound = own at hsame
    cases hsame with
    | some hall =>
      rw [List.forall₂_eq_eq_eq] at hall
      rw [hall]
    | none => rfl
  refine ⟨m, ?_⟩
  rw [transformOutbound_refit hwell (openText_credential hwell hbody' bindings' n) hbindings, hown,
    hwell.refit_self]

end

/-- The options of an outbound read back from their text. -/
def Readable (text : JsonText) (outbound : Value) : Prop :=
  ∀ body, protocolTag outbound = some "vless" → protocolBody outbound = some (.obj body) →
    text.parse (text.print (Assoc.erase "credential" body)) = .ok (Assoc.erase "credential" body)

theorem vlessOptions_refit {tag : String} (h : WellFormed outbound tenant id tag body)
    (body' : List (String × Value)) (bindings : Option (List Value)) :
    vlessOptions (refit outbound body' bindings) = .ok ((tenant, id), body') := by
  have hbody : (protocolBody (refit outbound body' bindings)).bind Value.asObj? = some body' := by
    rw [protocolBody_refit h.body_eq]
    rfl
  simp only [vlessOptions, externalSnapshotIdentity_refit, h.identity, hbody]

/-- **The first opening pass unpacks the options**, and leaves the rest to the second. -/
theorem openVlessOptions_sealed {outbound' : Value} (hread : Readable text outbound)
    (h : Sealed aead text outbound outbound') (n : ℕ) :
    ∃ outbound'' m, openVlessOptions aead text outbound' n = .ok (outbound'', m)
      ∧ HalfSealed aead outbound outbound'' := by
  obtain ⟨tenant, id, tag, body, packed, body', bindings', hwell, hpacked, hbody', hkeys, rfl⟩ := h
  have htag' := protocolTag_refit outbound body' bindings'
  unfold openVlessOptions
  cases hpacked with
  | plain htag =>
    refine ⟨_, n, ?_, tenant, id, tag, body, body', bindings', hwell, hbody', hkeys, rfl⟩
    rw [if_pos (by simpa [htag', hwell.tag_eq] using htag)]
    rfl
  | sealed number credential htag hcredential =>
    cases hbody' with
    | managed hmanaged =>
      rw [htag] at hmanaged
      exact absurd hmanaged (by decide)
    | sealed number' plain hplain =>
      have hcred : credential = .str plain := by simpa [Assoc.lookup] using hplain
      rw [hcred] at hcredential
      refine ⟨_, n, ?_, tenant, id, tag, body, _, bindings', hwell,
        .sealed number' plain hcredential, hkeys, rfl⟩
      rw [if_neg (by simp [htag', hwell.tag_eq, htag])]
      refine Drawing.bind_eq_ok.mpr
        ⟨_, n, Drawing.ofExcept_eq_ok.mpr ⟨vlessOptions_refit hwell _ bindings', rfl⟩, ?_⟩
      refine Drawing.bind_eq_ok.mpr ⟨_, n, Drawing.ofExcept_eq_ok.mpr ⟨rfl, rfl⟩, ?_⟩
      refine Drawing.bind_eq_ok.mpr ⟨_, n, openText_eq number n, ?_⟩
      have hoptions := hread body (by rw [hwell.tag_eq, htag]) hwell.body_eq
      refine Drawing.bind_eq_ok.mpr ⟨_, n, Drawing.ofExcept_eq_ok.mpr ⟨hoptions, rfl⟩, ?_⟩
      rw [Drawing.pure_eq_ok, hwell.putBody_refit, Assoc.insert_erase hwell.bodyOrdered]
      exact ⟨rfl, rfl⟩

theorem openVlessOptions_half {outbound' : Value} (h : HalfSealed aead outbound outbound') (n : ℕ) :
    openVlessOptions aead text outbound' n = .ok (outbound', n) := by
  obtain ⟨tenant, id, tag, body, body', bindings', hwell, hbody', hkeys, rfl⟩ := h
  have htag' := protocolTag_refit outbound body' bindings'
  have hbare : Assoc.lookup "options_sealed" body' = none ∧ Assoc.Sorted body' := by
    cases hbody' with
    | sealed number credential hcredential =>
      rw [Assoc.lookup_insert, if_neg (by decide)]
      exact ⟨hwell.unsealed, Assoc.sorted_insert hwell.bodyOrdered _ _⟩
    | managed => exact ⟨hwell.unsealed, hwell.bodyOrdered⟩
  unfold openVlessOptions
  by_cases htag : tag = "vless"
  · rw [if_neg (by simp [htag', hwell.tag_eq, htag])]
    refine Drawing.bind_eq_ok.mpr
      ⟨_, n, Drawing.ofExcept_eq_ok.mpr ⟨vlessOptions_refit hwell _ bindings', rfl⟩, ?_⟩
    simp only [hbare.1, Option.bind_none]
    rw [Drawing.pure_eq_ok, Assoc.erase_of_lookup hbare.2 hbare.1, hwell.putBody_refit]
    exact ⟨rfl, rfl⟩
  · rw [if_pos (by simpa [htag', hwell.tag_eq] using htag)]
    rfl

/-! ### Documents -/

/-- A document whose outbounds are related to those of another, which it is otherwise. -/
def Related (R : Value → Value → Prop) (snapshot snapshot' : Value) : Prop :=
  (snapshot.get? "external_outbounds" = none ∧ snapshot' = snapshot)
  ∨ ∃ outbounds outbounds', snapshot.get? "external_outbounds" = some (.arr outbounds)
    ∧ List.Forall₂ R outbounds outbounds'
    ∧ snapshot' = snapshot.put "external_outbounds" (.arr outbounds')

theorem updateOutbounds_related {update : Value → Pass Value} {R S : Value → Value → Prop}
    (hstep : ∀ o o', R o o' → ∀ n, ∃ o'' m, update o' n = .ok (o'', m) ∧ S o o'')
    {snapshot snapshot' : Value} (hordered : snapshot.Ordered) (h : Related R snapshot snapshot')
    (n : ℕ) : ∃ snapshot'' m, updateOutbounds update snapshot' n = .ok (snapshot'', m)
      ∧ Related S snapshot snapshot'' := by
  rcases h with ⟨hnone, rfl⟩ | ⟨outbounds, outbounds', houtbounds, hall, rfl⟩
  · refine ⟨snapshot', n, ?_, Or.inl ⟨hnone, rfl⟩⟩
    simp only [updateOutbounds, hnone]
    rfl
  · obtain ⟨outbounds'', m, hmap, hall'⟩ := Drawing.mapM_related hall hstep n
    refine ⟨_, m, ?_, Or.inr ⟨outbounds, outbounds'', houtbounds, hall', rfl⟩⟩
    have hget := Value.get?_put_self houtbounds "external_outbounds" (.arr outbounds')
    simp only [updateOutbounds, hget]
    refine Drawing.bind_eq_ok.mpr ⟨outbounds'', m, hmap, Drawing.pure_eq_ok.mpr ⟨?_, rfl⟩⟩
    exact Value.put_put hordered _ _ _

theorem related_eq {snapshot snapshot' : Value} (hordered : snapshot.Ordered)
    (h : Related Eq snapshot snapshot') : snapshot' = snapshot := by
  rcases h with ⟨_, hsame⟩ | ⟨outbounds, outbounds', houtbounds, hall, hsame⟩
  · exact hsame
  · rw [List.forall₂_eq_eq_eq] at hall
    rw [hsame, ← hall, Value.put_get? hordered houtbounds]

/-- A snapshot whose external outbounds, if it has any, are well-formed. -/
structure WellFormedSnapshot (snapshot : Value) : Prop where
  ordered : snapshot.Ordered
  outbounds : Related (fun o o' => o = o' ∧ ∃ tenant id tag body, WellFormed o tenant id tag body)
    snapshot snapshot

section
variable {snapshot snapshot' : Value}

variable (aead text) in
theorem seal_sealed (h : WellFormedSnapshot snapshot) (n : ℕ) :
    ∃ snapshot' m, sealSnapshotExternalCredentials aead text snapshot n = .ok (snapshot', m)
      ∧ Related (Sealed aead text) snapshot snapshot' := by
  -- what the first pass leaves for the second
  have hpack : ∀ o o', (o = o' ∧ ∃ tenant id tag body, WellFormed o tenant id tag body) →
      ∀ n, ∃ o'' m, sealVlessOptions aead text o' n = .ok (o'', m)
        ∧ ∃ tenant id tag body packed, WellFormed o tenant id tag body
          ∧ OptionsSealed aead text tenant id tag body packed ∧ HasCredential tag packed
          ∧ o'' = refit o packed (bindingsOf o) := by
    intro o o' ho n
    obtain ⟨rfl, tenant, id, tag, body, hwell⟩ := ho
    obtain ⟨packed, m, hseal, hpacked, hcredential⟩ := sealVlessOptions_outbound hwell n
    exact ⟨_, m, hseal, tenant, id, tag, body, packed, hwell, hpacked, hcredential, rfl⟩
  obtain ⟨middle, k, hfirst, hmiddle⟩ := updateOutbounds_related hpack h.ordered h.outbounds n
  have htransform : ∀ o o', (∃ tenant id tag body packed, WellFormed o tenant id tag body
          ∧ OptionsSealed aead text tenant id tag body packed ∧ HasCredential tag packed
          ∧ o' = refit o packed (bindingsOf o)) →
      ∀ n, ∃ o'' m, transformOutbound (sealText aead) o' n = .ok (o'', m)
        ∧ Sealed aead text o o'' := by
    intro o o' ho n
    obtain ⟨tenant, id, tag, body, packed, hwell, hpacked, hcredential, rfl⟩ := ho
    obtain ⟨body', bindings', m, hseal, hbody', hkeys⟩ := sealText_outbound aead hwell hcredential n
    exact ⟨_, m, hseal, tenant, id, tag, body, packed, body', bindings', hwell, hpacked, hbody',
      hkeys, rfl⟩
  obtain ⟨snapshot', m, hsecond, hsealed⟩ :=
    updateOutbounds_related htransform h.ordered hmiddle k
  exact ⟨snapshot', m, Drawing.bind_eq_ok.mpr ⟨middle, k, hfirst, hsecond⟩, hsealed⟩

variable (aead) in
theorem seal_halfSealed (h : WellFormedSnapshot snapshot) (n : ℕ) :
    ∃ snapshot' m, transformSnapshotExternalCredentials (sealText aead) snapshot n
        = .ok (snapshot', m) ∧ Related (HalfSealed aead) snapshot snapshot' := by
  refine updateOutbounds_related ?_ h.ordered h.outbounds n
  intro o o' ho n
  obtain ⟨rfl, tenant, id, tag, body, hwell⟩ := ho
  obtain ⟨body', bindings', m, hseal, hbody', hkeys⟩ :=
    sealText_outbound aead hwell hwell.hasCredential n
  rw [hwell.refit_self] at hseal
  exact ⟨_, m, hseal, tenant, id, tag, body, body', bindings', hwell, hbody', hkeys, rfl⟩

theorem openText_halfSealed (hordered : snapshot.Ordered)
    (h : Related (HalfSealed aead) snapshot snapshot') (n : ℕ) :
    ∃ m, transformSnapshotExternalCredentials (openText aead) snapshot' n = .ok (snapshot, m) := by
  have hstep : ∀ o o', HalfSealed aead o o' → ∀ n, ∃ o'' m,
      transformOutbound (openText aead) o' n = .ok (o'', m) ∧ o = o'' := by
    intro o o' ho n
    obtain ⟨m, hm⟩ := openText_outbound ho n
    exact ⟨o, m, hm, rfl⟩
  obtain ⟨opened, m, hopen, hsame⟩ := updateOutbounds_related hstep hordered h n
  exact ⟨m, related_eq hordered hsame ▸ hopen⟩

/-- **What is sealed opens to what it was.** -/
theorem open_sealed (hordered : snapshot.Ordered)
    (h : Related (fun o o' => Readable text o ∧ Sealed aead text o o') snapshot snapshot') (n : ℕ) :
    ∃ m, openSnapshotExternalCredentials aead text snapshot' n = .ok (snapshot, m) := by
  obtain ⟨middle, k, hfirst, hhalf⟩ := updateOutbounds_related
    (fun o o' ho n => openVlessOptions_sealed ho.1 ho.2 n) hordered h n
  obtain ⟨m, hsecond⟩ := openText_halfSealed hordered hhalf k
  exact ⟨m, Drawing.bind_eq_ok.mpr ⟨middle, k, hfirst, hsecond⟩⟩

/-- **So does what was sealed before the options were.** -/
theorem open_halfSealed (hordered : snapshot.Ordered)
    (h : Related (HalfSealed aead) snapshot snapshot') (n : ℕ) :
    ∃ m, openSnapshotExternalCredentials aead text snapshot' n = .ok (snapshot, m) := by
  obtain ⟨middle, k, hfirst, hhalf⟩ := updateOutbounds_related
    (fun o o' ho n => ⟨o', n, openVlessOptions_half ho n, ho⟩) hordered h n
  obtain ⟨m, hsecond⟩ := openText_halfSealed hordered hhalf k
  exact ⟨m, Drawing.bind_eq_ok.mpr ⟨middle, k, hfirst, hsecond⟩⟩

end

end Brocade.Secrets
