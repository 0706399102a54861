/-
What opening a document reads.

A document opens only if every sealed value in it opens under the context of its place.  The first
pass changes nothing but the options of VLESS outbounds: whose an outbound is, its machines and its
credential reach the second pass as they were.
-/
import Brocade.Secrets.Envelope

namespace Brocade.Secrets

open Json

variable {aead : Aead} {text : JsonText} {transform : String → String → Pass String}

/-- What is in a place opens there. -/
def OpensAt (aead : Aead) (e : Slot × String) : Prop :=
  ∃ plaintext, aead.open_ e.1.context e.2 = some plaintext

variable {n m : ℕ} {outbound outbound' : Value} {tenant id : String}

theorem openText_eq_ok {context sealed plaintext : String} :
    openText aead context sealed n = .ok (plaintext, m)
      ↔ aead.open_ context sealed = some plaintext ∧ n = m := by
  unfold openText
  cases hopen : aead.open_ context sealed with
  | none => simp
  | some opened => simp

/-! ### The options -/

theorem vlessOptions_eq_ok {protocol : List (String × Value)}
    (h : vlessOptions outbound = .ok ((tenant, id), protocol)) :
    externalSnapshotIdentity outbound = .ok (tenant, id)
      ∧ protocolBody outbound = some (.obj protocol) := by
  unfold vlessOptions at h
  split at h
  · exact absurd h (by simp)
  · next hidentity =>
      split at h
      · exact absurd h (by simp)
      · next hbody =>
          cases h
          obtain ⟨body, hv, hobj⟩ := Option.bind_eq_some_iff.mp hbody
          rw [Value.asObj?_eq_some] at hobj
          exact ⟨hidentity, by rw [hv, hobj]⟩

theorem vlessCredential_eq_ok {protocol : List (String × Value)} {credential : Value}
    (h : vlessCredential tenant id protocol = .ok credential) :
    Assoc.lookup "credential" protocol = some credential := by
  unfold vlessCredential at h
  split at h
  · exact absurd h (by simp)
  · next hlookup =>
      cases h
      exact hlookup

theorem openVlessOptions_cases (h : openVlessOptions aead text outbound n = .ok (outbound', m)) :
    (protocolTag outbound ≠ some "vless" ∧ outbound' = outbound)
    ∨ ∃ tenant id protocol, protocolTag outbound = some "vless"
      ∧ externalSnapshotIdentity outbound = .ok (tenant, id)
      ∧ protocolBody outbound = some (.obj protocol)
      ∧ (((Assoc.lookup "options_sealed" protocol).bind Value.asStr? = none
          ∧ outbound' = putBody outbound (.obj (Assoc.erase "options_sealed" protocol)))
        ∨ ∃ sealed credential plaintext options,
          (Assoc.lookup "options_sealed" protocol).bind Value.asStr? = some sealed
          ∧ Assoc.lookup "credential" protocol = some credential
          ∧ aead.open_ (externalOutboundOptionsContext tenant id) sealed = some plaintext
          ∧ outbound' = putBody outbound
              (.obj (Assoc.insert "credential" credential options))) := by
  unfold openVlessOptions at h
  by_cases htag : protocolTag outbound = some "vless"
  · rw [if_neg (not_not_intro htag)] at h
    obtain ⟨⟨⟨tenant, id⟩, protocol⟩, k, hoptions, h⟩ := Drawing.bind_eq_ok.mp h
    rw [Drawing.ofExcept_eq_ok] at hoptions
    obtain ⟨hidentity, hbody⟩ := vlessOptions_eq_ok hoptions.1
    refine Or.inr ⟨tenant, id, protocol, htag, hidentity, hbody, ?_⟩
    dsimp only at h
    cases hsealed : (Assoc.lookup "options_sealed" protocol).bind Value.asStr? with
    | none =>
      simp only [hsealed] at h
      exact Or.inl ⟨rfl, (Drawing.pure_eq_ok.mp h).1.symm⟩
    | some sealed =>
      simp only [hsealed] at h
      obtain ⟨credential, k₁, hcredential, h⟩ := Drawing.bind_eq_ok.mp h
      obtain ⟨plaintext, k₂, hopen, h⟩ := Drawing.bind_eq_ok.mp h
      obtain ⟨options, k₃, _, h⟩ := Drawing.bind_eq_ok.mp h
      rw [Drawing.ofExcept_eq_ok] at hcredential
      have hlookup := vlessCredential_eq_ok hcredential.1
      rw [Assoc.lookup_erase, if_neg (by decide)] at hlookup
      exact Or.inr ⟨sealed, credential, plaintext, options, rfl, hlookup,
        (openText_eq_ok.mp hopen).1, (Drawing.pure_eq_ok.mp h).1.symm⟩
  · rw [if_pos htag, Drawing.pure_eq_ok] at h
    exact Or.inl ⟨htag, h.1.symm⟩

/-- The first pass opens the options, and leaves the places of the second as they were. -/
theorem openVlessOptions_slots (h : openVlessOptions aead text outbound n = .ok (outbound', m))
    (tenant id : String) (hidentity : externalSnapshotIdentity outbound = .ok (tenant, id)) :
    (∀ e ∈ optionsSlots tenant id outbound, OpensAt aead e)
      ∧ externalSnapshotIdentity outbound' = .ok (tenant, id)
      ∧ credentialSlots tenant id outbound' = credentialSlots tenant id outbound
      ∧ outbound'.get? "bindings" = outbound.get? "bindings" := by
  rcases openVlessOptions_cases h with ⟨htag, rfl⟩ | ⟨tenant', id', protocol, htag, hidentity',
    hbody, hcase⟩
  · refine ⟨?_, hidentity, rfl, rfl⟩
    intro e he
    rw [optionsSlots, if_neg htag] at he
    exact absurd he List.not_mem_nil
  · rw [hidentity] at hidentity'
    cases hidentity'
    have hslots : ∀ body', memberText body' "credential" = memberText (.obj protocol) "credential" →
        externalSnapshotIdentity (putBody outbound body') = .ok (tenant, id)
        ∧ credentialSlots tenant id (putBody outbound body') = credentialSlots tenant id outbound
        ∧ (putBody outbound body').get? "bindings" = outbound.get? "bindings" := by
      intro body' hcredential
      refine ⟨?_, ?_, get?_putBody_ne outbound body' (by decide)⟩
      · rw [externalSnapshotIdentity_putBody, hidentity]
      · simp only [credentialSlots, protocolBody_putBody hbody, hbody, Option.bind_some,
          hcredential]
    rcases hcase with ⟨hnone, rfl⟩ | ⟨sealed, credential, plaintext, options, hsealed, hcredential,
      hopen, rfl⟩
    · refine ⟨?_, hslots _ ?_⟩
      · intro e he
        have hmember : memberText (.obj protocol) "options_sealed" = none := hnone
        rw [optionsSlots, if_pos htag, hbody, Option.bind_some, hmember] at he
        exact absurd he List.not_mem_nil
      · rw [memberText, memberText, Value.get?_obj, Value.get?_obj, Assoc.lookup_erase,
          if_neg (by decide)]
    · refine ⟨?_, hslots _ ?_⟩
      · intro e he
        have hmember : memberText (.obj protocol) "options_sealed" = some sealed := hsealed
        rw [optionsSlots, if_pos htag, hbody, Option.bind_some, hmember] at he
        rw [List.mem_singleton.mp he]
        exact ⟨plaintext, hopen⟩
      · rw [memberText, memberText, Value.get?_obj, Value.get?_obj, Assoc.lookup_insert, if_pos rfl,
          hcredential]

/-! ### The credentials -/

/-- Going through the credentials opens the credential of an outbound and leaves its machines. -/
theorem transformCredential_slots
    (h : transformCredential transform tenant id outbound n = .ok (outbound', m)) :
    (∀ e ∈ credentialSlots tenant id outbound, ∃ k v, transform e.1.context e.2 k = .ok v)
      ∧ outbound'.get? "bindings" = outbound.get? "bindings" := by
  have hmissing : transformCredential.missing tenant id outbound n = .ok (outbound', m) →
      outbound' = outbound := by
    intro h
    unfold transformCredential.missing at h
    split at h
    · exact (Drawing.pure_eq_ok.mp h).1.symm
    · exact absurd h Drawing.throw_ne_ok
  unfold transformCredential at h
  cases hbody : protocolBody outbound with
  | none =>
    simp only [hbody] at h
    refine ⟨?_, by rw [hmissing h]⟩
    simp [credentialSlots, hbody]
  | some body =>
    simp only [hbody] at h
    cases hcredential : memberText body "credential" with
    | none =>
      simp only [hcredential] at h
      refine ⟨?_, by rw [hmissing h]⟩
      simp [credentialSlots, hbody, hcredential]
    | some credential =>
      simp only [hcredential] at h
      obtain ⟨transformed, k, htransform, h⟩ := Drawing.bind_eq_ok.mp h
      rw [← (Drawing.pure_eq_ok.mp h).1]
      refine ⟨?_, get?_putBody_ne outbound _ (by decide)⟩
      intro e he
      rw [credentialSlots, hbody, Option.bind_some, hcredential] at he
      rw [List.mem_singleton.mp he]
      exact ⟨n, _, htransform⟩

theorem transformBinding_slots {binding binding' : Value}
    (h : transformBinding transform tenant id binding n = .ok (binding', m)) :
    ∀ e ∈ bindingSlots tenant id binding, ∃ k v, transform e.1.context e.2 k = .ok v := by
  intro e he
  unfold transformBinding at h
  cases hnode : memberText binding "node" with
  | none =>
    simp only [hnode] at h
    exact absurd h Drawing.throw_ne_ok
  | some node =>
    simp only [hnode] at h
    cases hkey : memberText binding "private_key" with
    | none =>
      simp only [hkey] at h
      exact absurd h Drawing.throw_ne_ok
    | some key =>
      simp only [hkey] at h
      obtain ⟨transformed, k, htransform, h⟩ := Drawing.bind_eq_ok.mp h
      simp only [bindingSlots, hnode, hkey] at he
      rw [List.mem_singleton.mp he]
      exact ⟨n, _, htransform⟩

theorem transformBindings_slots
    (h : transformBindings transform tenant id outbound n = .ok (outbound', m)) :
    ∀ e ∈ (((outbound.get? "bindings").bind Value.asArr?).getD []).flatMap (bindingSlots tenant id),
      ∃ k v, transform e.1.context e.2 k = .ok v := by
  intro e he
  unfold transformBindings at h
  cases hbindings : (outbound.get? "bindings").bind Value.asArr? with
  | none => simp [hbindings] at he
  | some bindings =>
    simp only [hbindings] at h
    obtain ⟨bindings', k, hall, h⟩ := Drawing.bind_eq_ok.mp h
    rw [hbindings, Option.getD_some, List.mem_flatMap] at he
    obtain ⟨binding, hmem, he⟩ := he
    obtain ⟨binding', _, k₁, k₂, hbinding⟩ :=
      Drawing.related_of_mem (Drawing.forall₂_of_mapM hall) hmem
    exact transformBinding_slots hbinding e he

/-! ### Outbounds and documents -/

theorem openOutbound_slots {outbound'' : Value} {n' m' : ℕ}
    (hopen : openVlessOptions aead text outbound n = .ok (outbound', m))
    (htransform : transformOutbound (openText aead) outbound' n' = .ok (outbound'', m')) :
    ∀ e ∈ outboundSlots outbound, OpensAt aead e := by
  intro e he
  have hopens : (∃ k v, openText aead e.1.context e.2 k = .ok v) → OpensAt aead e := by
    intro ⟨k, v, hv⟩
    exact ⟨v.1, (openText_eq_ok.mp hv).1⟩
  unfold outboundSlots at he
  split at he
  · exact absurd he List.not_mem_nil
  · next tenant id hidentity =>
      obtain ⟨hoptions, hidentity', hcredentials, hbindings⟩ :=
        openVlessOptions_slots hopen tenant id hidentity
      obtain ⟨⟨tenant', id'⟩, k, hk, h⟩ := Drawing.bind_eq_ok.mp htransform
      rw [Drawing.ofExcept_eq_ok, hidentity'] at hk
      cases hk.1
      dsimp only at h
      obtain ⟨middle, l, hcredential, h⟩ := Drawing.bind_eq_ok.mp h
      obtain ⟨hcred, hsame⟩ := transformCredential_slots hcredential
      have hbind := transformBindings_slots h
      rw [hcredentials] at hcred
      rw [hsame, hbindings] at hbind
      rcases List.mem_append.mp he with he | he
      · rcases List.mem_append.mp he with he | he
        · exact hoptions e he
        · exact hopens (hcred e he)
      · exact hopens (hbind e he)

theorem updateOutbounds_each {update : Value → Pass Value} {snapshot snapshot' : Value}
    (h : updateOutbounds update snapshot n = .ok (snapshot', m)) {outbounds : List Value}
    (houtbounds : snapshot.get? "external_outbounds" = some (.arr outbounds)) :
    ∃ outbounds', snapshot'.get? "external_outbounds" = some (.arr outbounds')
      ∧ List.Forall₂ (fun o o' => ∃ k l, update o k = .ok (o', l)) outbounds outbounds' := by
  simp only [updateOutbounds, houtbounds] at h
  obtain ⟨outbounds', k, hall, h⟩ := Drawing.bind_eq_ok.mp h
  rw [← (Drawing.pure_eq_ok.mp h).1]
  exact ⟨outbounds', Value.get?_put_self houtbounds _ _, Drawing.forall₂_of_mapM hall⟩

/-- **A document opens only if every sealed value in it opens in its place.** -/
theorem open_slots {snapshot snapshot' : Value}
    (h : openSnapshotExternalCredentials aead text snapshot n = .ok (snapshot', m)) :
    ∀ e ∈ slots snapshot, OpensAt aead e := by
  intro e he
  obtain ⟨outbounds, houtbounds, he⟩ : ∃ outbounds,
      snapshot.get? "external_outbounds" = some (.arr outbounds)
        ∧ e ∈ outbounds.flatMap outboundSlots := by
    unfold slots at he
    cases hvalue : (snapshot.get? "external_outbounds").bind Value.asArr? with
    | none => simp [hvalue] at he
    | some outbounds =>
      rw [hvalue, Option.getD_some] at he
      obtain ⟨value, hget, harr⟩ := Option.bind_eq_some_iff.mp hvalue
      rw [Value.asArr?_eq_some] at harr
      exact ⟨outbounds, by rw [hget, harr], he⟩
  obtain ⟨middle, k, hfirst, hsecond⟩ := Drawing.bind_eq_ok.mp h
  obtain ⟨outbounds', houtbounds', hopened⟩ := updateOutbounds_each hfirst houtbounds
  obtain ⟨outbounds'', _, htransformed⟩ := updateOutbounds_each hsecond houtbounds'
  obtain ⟨outbound, hmem, he⟩ := List.mem_flatMap.mp he
  obtain ⟨outbound', hmem', k₁, l₁, hopen⟩ := Drawing.related_of_mem hopened hmem
  obtain ⟨outbound'', _, k₂, l₂, htransform⟩ := Drawing.related_of_mem htransformed hmem'
  exact openOutbound_slots hopen htransform e he

end Brocade.Secrets
