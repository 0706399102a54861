/-
What a sealed document shows.

Blanking the places of a sealed document leaves what is in the clear.  It is the veiled original:
the outbounds with their credentials, their keys and, for VLESS, everything but the credential gone
before anything was sealed.
-/
import Brocade.Secrets.RoundTrip

namespace Brocade.Secrets

open Json

variable {aead : Aead} {text : JsonText}

/-! ### Blanking -/

/-- A text member without its text. -/
def blankMember (v : Value) (key : String) : Value :=
  if (memberText v key).isSome then v.put key (.str "") else v

/-- The body without its secrets. -/
def blankBody (tag : Option String) (body : Value) : Value :=
  let body := blankMember body "credential"
  if tag = some "vless" then blankMember body "options_sealed" else body

def blankBinding (binding : Value) : Value :=
  if (memberText binding "node").isSome then blankMember binding "private_key" else binding

/-- The outbound without its secrets. -/
def blankOutbound (outbound : Value) : Value :=
  let outbound :=
    match protocolBody outbound with
    | some body => putBody outbound (blankBody (protocolTag outbound) body)
    | none => outbound
  match bindingsOf outbound with
  | some bindings => outbound.put "bindings" (.arr (bindings.map blankBinding))
  | none => outbound

/-- A document without the texts in its places. -/
def blank (snapshot : Value) : Value :=
  match snapshot.get? "external_outbounds" with
  | some (.arr outbounds) => snapshot.put "external_outbounds" (.arr (outbounds.map blankOutbound))
  | _ => snapshot

/-! ### Veiling -/

/-- What is seen of a body. -/
def veilBody (tag : String) (body : List (String × Value)) : List (String × Value) :=
  if tag = "vless" then [("credential", .str ""), ("options_sealed", .str "")]
  else if (Assoc.lookup "credential" body).isSome then Assoc.insert "credential" (.str "") body
  else body

def veilBinding (binding : Value) : Value := binding.put "private_key" (.str "")

/-- What is seen of an outbound. -/
def veilOutbound (tag : String) (body : List (String × Value)) (outbound : Value) : Value :=
  refit outbound (veilBody tag body) ((bindingsOf outbound).map (·.map veilBinding))

/-! ### Sealed outbounds -/

theorem blankMember_eq {v : Value} {key s : String} (h : memberText v key = some s) :
    blankMember v key = v.put key (.str "") := by
  rw [blankMember, h, if_pos Option.isSome_some]

variable {tenant id : String}

theorem blankBinding_sealed {binding binding' : Value}
    (h : KeySealed aead tenant id binding binding') :
    blankBinding binding' = veilBinding binding := by
  obtain ⟨hordered, number, node, key, hnode, hkey, rfl⟩ := h
  obtain ⟨value, hvalue, _⟩ := Option.bind_eq_some_iff.mp hkey
  have hnode' := fun x => (memberText_put_ne binding (l := "private_key") x (by decide)).trans hnode
  rw [blankBinding, hnode', if_pos Option.isSome_some,
    blankMember_eq (memberText_put_self hvalue _ _), Value.put_put hordered, veilBinding]

theorem blankBindings_sealed {bindings bindings' : List Value}
    (h : List.Forall₂ (KeySealed aead tenant id) bindings bindings') :
    bindings'.map blankBinding = bindings.map veilBinding := by
  induction h with
  | nil => rfl
  | cons hb _ ih => rw [List.map_cons, List.map_cons, blankBinding_sealed hb, ih]

theorem blankBody_sealed {tag : String} {body packed body' : List (String × Value)}
    (hordered : Assoc.Sorted body) (hpacked : OptionsSealed aead text tenant id tag body packed)
    (hbody' : CredentialSealed aead tenant id tag packed body') :
    blankBody (some tag) (.obj body') = .obj (veilBody tag body) := by
  cases hpacked with
  | sealed number credential htag hcredential =>
    cases hbody' with
    | managed hmanaged =>
      rw [htag] at hmanaged
      exact absurd hmanaged (by decide)
    | sealed number' plain hplain =>
      rw [veilBody, if_pos htag, blankBody, htag]
      rfl
  | plain htag =>
    have htag' : ¬ some tag = some "vless" := by simpa using htag
    rw [veilBody, if_neg htag, blankBody, if_neg htag']
    cases hbody' with
    | managed hmanaged hnone =>
      have hmember : memberText (.obj body) "credential" = none := by
        rw [memberText, Value.get?_obj, hnone]
        rfl
      rw [hnone, blankMember, hmember]
      rfl
    | sealed number plain hplain =>
      have hmember := Assoc.lookup_insert "credential" "credential"
        (Value.str (aead.seal_ number (externalOutboundContext tenant id) plain)) body
      rw [if_pos rfl] at hmember
      rw [hplain, if_pos Option.isSome_some, blankMember_eq (memberText_obj hmember),
        Value.put_obj, Assoc.insert_insert hordered]

/-- **A sealed outbound, blanked, is the veiled one.** -/
theorem blankOutbound_sealed {outbound outbound' : Value}
    (h : Sealed aead text outbound outbound') :
    ∃ tenant id tag body, WellFormed outbound tenant id tag body
      ∧ blankOutbound outbound' = veilOutbound tag body outbound := by
  obtain ⟨tenant, id, tag, body, packed, body', bindings', hwell, hpacked, hbody', hkeys, rfl⟩ := h
  refine ⟨tenant, id, tag, body, hwell, ?_⟩
  have hbody := protocolBody_refit hwell.body_eq body' bindings'
  have htag := (protocolTag_refit outbound body' bindings').trans hwell.tag_eq
  simp only [blankOutbound, hbody, htag, blankBody_sealed hwell.bodyOrdered hpacked hbody',
    hwell.putBody_refit]
  cases bindings' with
  | none =>
    have hnone : bindingsOf outbound = none := by
      generalize bindingsOf outbound = own at hkeys
      cases hkeys
      rfl
    have hnone' := (Framed.bindingsOf_refit_none outbound (veilBody tag body)).trans hnone
    rw [hnone', veilOutbound, hnone]
    rfl
  | some bs' =>
    rw [hwell.bindingsOf_refit_some]
    obtain ⟨bs, hbs, hall⟩ : ∃ bs, bindingsOf outbound = some bs
        ∧ List.Forall₂ (KeySealed aead tenant id) bs bs' := by
      generalize bindingsOf outbound = own at hkeys
      cases hkeys with
      | some hall => exact ⟨_, rfl, hall⟩
    simp only [blankBindings_sealed hall, hwell.put_refit, veilOutbound, hbs, Option.map_some]

/-! ### Places -/

/-- What is in a place was sealed for it. -/
def SealedAt (aead : Aead) (e : Slot × String) : Prop :=
  ∃ number plaintext, e.2 = aead.seal_ number e.1.context plaintext

theorem bindingSlots_sealed {binding binding' : Value}
    (h : KeySealed aead tenant id binding binding') :
    ∀ e ∈ bindingSlots tenant id binding', SealedAt aead e := by
  obtain ⟨hordered, number, node, key, hnode, hkey, rfl⟩ := h
  obtain ⟨value, hvalue, _⟩ := Option.bind_eq_some_iff.mp hkey
  have hnode' := fun x => (memberText_put_ne binding (l := "private_key") x (by decide)).trans hnode
  intro e he
  rw [bindingSlots, hnode', memberText_put_self hvalue] at he
  rw [List.mem_singleton.mp he]
  exact ⟨number, key, rfl⟩

/-- The body of a sealed outbound has nothing in its places but what was sealed for them. -/
theorem bodySlots_sealed {tag : String} {body packed body' : List (String × Value)}
    (hunsealed : Assoc.lookup "options_sealed" body = none)
    (hpacked : OptionsSealed aead text tenant id tag body packed)
    (hbody' : CredentialSealed aead tenant id tag packed body') :
    (∀ sealed, memberText (.obj body') "credential" = some sealed →
        SealedAt aead (.credential tenant id, sealed))
      ∧ ∀ sealed, memberText (.obj body') "options_sealed" = some sealed →
        SealedAt aead (.options tenant id, sealed) := by
  have hoptions : memberText (.obj body') "options_sealed"
      = memberText (.obj packed) "options_sealed" := by
    cases hbody' with
    | sealed => exact memberText_put_ne (.obj packed) _ (by decide)
    | managed => rfl
  constructor
  · intro sealed hsealed
    cases hbody' with
    | sealed number credential hcredential =>
      have hmember := Assoc.lookup_insert "credential" "credential" (Value.str (aead.seal_ number
        (externalOutboundContext tenant id) credential)) packed
      rw [if_pos rfl] at hmember
      rw [memberText_obj hmember] at hsealed
      cases hsealed
      exact ⟨number, credential, rfl⟩
    | managed hmanaged hnone =>
      rw [memberText, Value.get?_obj, hnone] at hsealed
      cases hsealed
  · intro sealed hsealed
    rw [hoptions] at hsealed
    cases hpacked with
    | sealed number credential htag hcredential =>
      have hmember : memberText (.obj [("credential", credential), ("options_sealed",
          .str (aead.seal_ number (externalOutboundOptionsContext tenant id)
            (text.print (Assoc.erase "credential" body))))]) "options_sealed"
          = some (aead.seal_ number (externalOutboundOptionsContext tenant id)
            (text.print (Assoc.erase "credential" body))) := rfl
      rw [hmember] at hsealed
      cases hsealed
      exact ⟨number, _, rfl⟩
    | plain htag =>
      rw [memberText, Value.get?_obj, hunsealed] at hsealed
      cases hsealed

/-- **Every place of a sealed outbound holds what was sealed for it.** -/
theorem outboundSlots_sealed {outbound outbound' : Value}
    (h : Sealed aead text outbound outbound') :
    ∀ e ∈ outboundSlots outbound', SealedAt aead e := by
  obtain ⟨tenant, id, tag, body, packed, body', bindings', hwell, hpacked, hbody', hkeys, rfl⟩ := h
  have hbody := protocolBody_refit hwell.body_eq body' bindings'
  have hidentity := externalSnapshotIdentity_refit outbound body' bindings'
  obtain ⟨hcredential, hoptions⟩ := bodySlots_sealed hwell.unsealed hpacked hbody'
  intro e he
  simp only [outboundSlots, hidentity, hwell.identity, optionsSlots, credentialSlots, hbody,
    Option.bind_some, List.mem_append] at he
  rcases he with (he | he) | he
  · split at he
    · simp only [Option.mem_toList, Option.map_eq_some_iff] at he
      obtain ⟨sealed, hsealed, rfl⟩ := he
      exact hoptions sealed hsealed
    · exact absurd he List.not_mem_nil
  · simp only [Option.mem_toList, Option.map_eq_some_iff] at he
    obtain ⟨sealed, hsealed, rfl⟩ := he
    exact hcredential sealed hsealed
  · rw [← bindingsOf] at he
    obtain ⟨binding', hmem, hslot⟩ := List.mem_flatMap.mp he
    cases bindings' with
    | none =>
      have hnone : bindingsOf outbound = none := by
        generalize bindingsOf outbound = own at hkeys
        cases hkeys
        rfl
      rw [Framed.bindingsOf_refit_none, hnone] at hmem
      exact absurd hmem List.not_mem_nil
    | some bs' =>
      rw [hwell.bindingsOf_refit_some] at hmem
      generalize bindingsOf outbound = own at hkeys
      cases hkeys with
      | some hall =>
        obtain ⟨binding, _, hsealed⟩ := Drawing.related_of_mem hall.flip hmem
        exact bindingSlots_sealed hsealed e hslot

/-! ### Documents -/

theorem slots_sealed {snapshot snapshot' : Value}
    (h : Related (Sealed aead text) snapshot snapshot') :
    ∀ e ∈ slots snapshot', SealedAt aead e := by
  intro e he
  rcases h with ⟨hnone, rfl⟩ | ⟨outbounds, outbounds', houtbounds, hall, rfl⟩
  · simp [slots, hnone] at he
  · have hget := Value.get?_put_self houtbounds "external_outbounds" (.arr outbounds')
    simp only [slots, hget, Option.bind_some, Value.asArr?, Option.getD_some] at he
    obtain ⟨outbound', hmem, he⟩ := List.mem_flatMap.mp he
    obtain ⟨outbound, _, hsealed⟩ := Drawing.related_of_mem hall.flip hmem
    exact outboundSlots_sealed hsealed e he

/-- An outbound that is seen as the veiled one. -/
def Veiled (outbound outbound' : Value) : Prop :=
  ∃ tenant id tag body, WellFormed outbound tenant id tag body
    ∧ outbound' = veilOutbound tag body outbound

theorem blank_sealed {snapshot snapshot' : Value} (hordered : snapshot.Ordered)
    (h : Related (Sealed aead text) snapshot snapshot') :
    Related Veiled snapshot (blank snapshot') := by
  rcases h with ⟨hnone, rfl⟩ | ⟨outbounds, outbounds', houtbounds, hall, rfl⟩
  · refine Or.inl ⟨hnone, ?_⟩
    simp only [blank, hnone]
  · refine Or.inr ⟨outbounds, outbounds'.map blankOutbound, houtbounds, ?_, ?_⟩
    · refine List.forall₂_map_right_iff.mpr (hall.imp ?_)
      intro o o' ho
      exact blankOutbound_sealed ho
    · have hget := Value.get?_put_self houtbounds "external_outbounds" (.arr outbounds')
      simp only [blank, hget, Value.put_put hordered]

end Brocade.Secrets
