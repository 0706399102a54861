/-
The codec, end to end.

A listener is read back through four messages.  Each of them is a list of fields that was written,
so a loop over it sees those fields; what is left is to follow the four loops down to the address.
-/
import Brocade.Xray.ForwardingTarget

namespace Brocade.Xray

open Fallible Forwarding

theorem nested_length {fields : List (ℕ × Field)} (number : ℕ) {value : Bytes}
    (h : (number, .bytes value) ∈ fields) : value.length ≤ (writeFields fields).length := by
  induction fields with
  | nil => simp at h
  | cons field fields ih =>
    rw [writeFields, List.flatMap_cons, List.length_append]
    rcases List.mem_cons.mp h with rfl | hrest
    · have hle := length_le_bytesField number value
      rw [writeField]
      omega
    · have hle := ih hrest
      rw [writeFields] at hle
      omega

section Rule

variable (rule : ForwardingInbound)

theorem proxyFields_sound : ∀ field ∈ proxyFields rule, Sound field := by
  have hport : rule.targetPort.toNat < 2 ^ 64 :=
    Nat.lt_trans rule.targetPort.toNat_lt (by decide)
  intro field hfield
  simp only [proxyFields, List.mem_append, List.mem_cons, List.not_mem_nil, or_false] at hfield
  rcases hfield with ((rfl | rfl | rfl) | htcp) | hudp
  · simp [Sound]
  · simpa [Sound] using hport
  · simp [Sound]
  · by_cases huses : rule.protocol.usesTcp = true
    · simp only [huses, if_true, List.mem_singleton] at htcp
      simp [htcp, Sound]
    · simp [huses] at htcp
  · by_cases huses : rule.protocol.usesUdp = true
    · simp only [huses, if_true, List.mem_singleton] at hudp
      simp [hudp, Sound]
    · simp [huses] at hudp

theorem addressField_sound : ∀ field ∈ [addressField rule.targetHost], Sound field := by
  intro field hfield
  rw [List.mem_singleton.mp hfield]
  unfold addressField
  generalize Ip.parse (trimBrackets rule.targetHost) = parsed
  cases parsed with
  | none => simp [Sound]
  | some address =>
    cases address with
    | v4 bits => simp [Sound]
    | v6 bits => simp [Sound]

theorem decodeProxy_of_address {proxy address : Bytes} {ip domain : Option Bytes}
    (haddress : bytesOf proxy 1 = .ok (some address)) (hip : bytesOf address 1 = .ok ip)
    (hdomain : bytesOf address 2 = .ok domain) :
    decodeProxy proxy = .ok (addressIsPublic ip domain) :=
  bind_eq_ok.mpr ⟨_, haddress, bind_eq_ok.mpr ⟨_, hip, bind_eq_ok.mpr ⟨_, hdomain, rfl⟩⟩⟩

/-- **The innermost message: the address is the policy's to judge.** -/
theorem decodeProxy_targetProxy (hlength : (targetProxy rule).length < 2 ^ 64) :
    decodeProxy (targetProxy rule) = .ok (targetHostIsPublicIp rule.targetHost) := by
  have haddress : (targetAddress rule.targetHost).length < 2 ^ 64 := by
    refine Nat.lt_of_le_of_lt ?_ hlength
    rw [targetProxy_eq]
    exact nested_length 1 (by simp [proxyFields])
  have hread : bytesOf (targetProxy rule) 1 = .ok (some (targetAddress rule.targetHost)) := by
    rw [targetProxy_eq] at hlength ⊢
    rw [bytesOf_written (proxyFields_sound rule) hlength]
    simp [proxyFields, firstOf]
  have hinside : ∀ wanted, bytesOf (targetAddress rule.targetHost) wanted
      = .ok (firstOf wanted [addressField rule.targetHost]) := by
    rw [targetAddress_eq] at haddress ⊢
    exact bytesOf_written (addressField_sound rule) haddress
  rw [decodeProxy_of_address hread (hinside 1) (hinside 2), addressIsPublic_addressField]

theorem typed_sound (typeName : String) (value : Bytes) :
    ∀ field ∈ [(1, Field.bytes (utf8Bytes typeName)), (2, Field.bytes value)], Sound field := by
  intro field hfield
  simp only [List.mem_cons, List.not_mem_nil, or_false] at hfield
  rcases hfield with rfl | rfl
  · simp [Sound]
  · simp [Sound]

theorem decode_protectedProxy (hlength : (protectedProxy rule).length < 2 ^ 64) :
    decodePublicForwardingTarget (protectedProxy rule)
      = .ok (targetHostIsPublicIp rule.targetHost) := by
  rw [protectedProxy, typedMessage_eq] at hlength
  have hinner : (messageField 1 (targetProxy rule)).length < 2 ^ 64 :=
    Nat.lt_of_le_of_lt (nested_length 2 (by simp)) hlength
  have hone : messageField 1 (targetProxy rule) = writeFields [(1, .bytes (targetProxy rule))] := by
    simp [messageField, writeFields, writeField]
  have hsound : ∀ field ∈ [(1, Field.bytes (targetProxy rule))], Sound field := by simp [Sound]
  rw [hone] at hinner
  have hproxy : (targetProxy rule).length < 2 ^ 64 :=
    Nat.lt_of_le_of_lt (nested_length 1 (by simp)) hinner
  have hread := bytesOf_written (typed_sound FORWARDING_CONFIG (messageField 1 (targetProxy rule)))
    hlength
  rw [protectedProxy, typedMessage_eq]
  unfold decodePublicForwardingTarget
  refine bind_eq_ok.mpr ⟨_, hread 1, bind_eq_ok.mpr ⟨_, hread 2, (if_pos rfl).trans ?_⟩⟩
  refine bind_eq_ok.mpr ⟨some (targetProxy rule), ?_, decodeProxy_targetProxy rule hproxy⟩
  show bytesOf (messageField 1 (targetProxy rule)) 1 = _
  rw [hone, bytesOf_written hsound hinner]
  rfl

/-- The fields of a listener. -/
def inboundFields : List (ℕ × Field) :=
  [(1, .bytes (utf8Bytes rule.tag)),
    (2, .bytes (typedMessage RECEIVER_CONFIG (receiver rule.listenPort))),
    (3, .bytes (protectedProxy rule))]

theorem inspectInbound_written (hlength : (forwardingInbound rule).length < 2 ^ 64) (tag : String) :
    inspectInbound tag (forwardingInbound rule)
      = .ok (if rule.tag = tag then .inr (targetHostIsPublicIp rule.targetHost) else .inl ()) := by
  have hfields : forwardingInbound rule = writeFields (inboundFields rule) :=
    forwardingInbound_eq rule
  have hsound : ∀ field ∈ inboundFields rule, Sound field := by simp [inboundFields, Sound]
  rw [hfields] at hlength ⊢
  have hproxy : (protectedProxy rule).length < 2 ^ 64 :=
    Nat.lt_of_le_of_lt (nested_length 3 (by simp [inboundFields])) hlength
  have hloop : (inboundLoop tag).over (inboundFields rule) (false, none)
      = .ok (decide (utf8Bytes rule.tag = utf8Bytes tag), some (protectedProxy rule)) := rfl
  rw [inspectInbound, Loop.run_written _ (writable_of_length hsound hlength), hloop]
  show (if decide (utf8Bytes rule.tag = utf8Bytes tag) = true then
    (decodePublicForwardingTarget (protectedProxy rule)).map Sum.inr else .ok (.inl ())) = _
  by_cases htag : rule.tag = tag
  · rw [if_pos (by simp [htag]), if_pos htag, decode_protectedProxy rule hproxy]
    rfl
  · rw [if_neg (by simpa using fun h => htag (utf8Bytes_inj h)), if_neg htag]

end Rule

/-- **A response that lists rules is read as the rules.** -/
theorem inspect_written (rules : List ForwardingInbound)
    (hlength : (rules.flatMap forwardingInboundRequest).length < 2 ^ 64) (tag : String) :
    (inspectLoop tag).run () (rules.flatMap forwardingInboundRequest)
      = .ok ((rules.find? fun rule => rule.tag = tag).any
          fun rule => targetHostIsPublicIp rule.targetHost) := by
  rw [requests_eq] at hlength ⊢
  have hsound : ∀ field ∈ rules.map fun rule => (1, Field.bytes (forwardingInbound rule)),
      Sound field := by simp [Sound]
  have heach : ∀ rule ∈ rules, (forwardingInbound rule).length < 2 ^ 64 := by
    intro rule hrule
    refine Nat.lt_of_le_of_lt (nested_length 1 ?_) hlength
    exact List.mem_map.mpr ⟨rule, hrule, rfl⟩
  rw [Loop.run_written _ (writable_of_length hsound hlength)]
  clear hlength hsound
  induction rules with
  | nil => rfl
  | cons rule rules ih =>
    have hfirst := inspectInbound_written rule (heach rule List.mem_cons_self) tag
    have hrest := ih fun r hr => heach r (List.mem_cons_of_mem _ hr)
    rw [List.map_cons, Loop.over]
    have hstep : (inspectLoop tag).step () 1 (.bytes (forwardingInbound rule))
        = inspectInbound tag (forwardingInbound rule) := rfl
    rw [hstep, hfirst, List.find?_cons]
    by_cases htag : rule.tag = tag
    · simp [htag]
    · simpa [htag] using hrest

theorem bytesOf_ends (message : Bytes) (wanted : ℕ) : bytesOf message wanted ≠ .error .running := by
  apply Loop.run_ends
  · intro s number field
    rw [firstBytes]
    dsimp only
    split
    · split_ifs
      · exact ok_ne_running _
      · exact ok_ne_running _
    · exact ok_ne_running _
  · intro s
    exact ok_ne_running _

theorem bind_ne_running {α β : Type} {x : Except Stop α} {f : α → Except Stop β}
    (hx : x ≠ .error .running) (hf : ∀ a, f a ≠ .error .running) : (x >>= f) ≠ .error .running := by
  intro h
  rcases bind_eq_error.mp h with hfailed | ⟨a, -, ha⟩
  · exact hx hfailed
  · exact hf a ha

theorem decodePublicForwardingTarget_ends (message : Bytes) :
    decodePublicForwardingTarget message ≠ .error .running := by
  have hproxy : ∀ proxy, decodeProxy proxy ≠ .error .running := fun proxy =>
    bind_ne_running (bytesOf_ends _ _) fun _ => bind_ne_running (bytesOf_ends _ _) fun _ =>
      bind_ne_running (bytesOf_ends _ _) fun _ => ok_ne_running _
  rw [decodePublicForwardingTarget]
  refine bind_ne_running (bytesOf_ends _ _) fun name => ?_
  refine bind_ne_running (bytesOf_ends _ _) fun proxy => ?_
  split_ifs
  · exact bind_ne_running (bytesOf_ends _ _) fun inner => hproxy _
  · exact hproxy _
  · exact ok_ne_running _

theorem inspect_ends (tag : String) (response : Bytes) :
    (inspectLoop tag).run () response ≠ .error .running := by
  have hinbound : ∀ inbound, inspectInbound tag inbound ≠ .error .running := by
    intro inbound
    refine bind_ne_running ?_ fun found => ?_
    · apply Loop.run_ends
      · intro s number field
        rw [inboundLoop]
        dsimp only
        split
        · exact ok_ne_running _
        · exact ok_ne_running _
        · exact ok_ne_running _
      · intro s
        exact ok_ne_running _
    · split_ifs
      · split
        · exact ok_ne_running _
        · exact map_ne_running (decodePublicForwardingTarget_ends _)
      · exact ok_ne_running _
  apply Loop.run_ends
  · intro s number field
    rw [inspectLoop]
    dsimp only
    split
    · exact hinbound _
    · exact ok_ne_running _
  · intro s
    exact ok_ne_running _

/-- **The codec is total and exact.**  A read of a field fails, ends, or moves the cursor on inside
the message, and so every decoder comes to its end; the fields that were written are the fields that
are read; and a listener that was written is judged by its own target. -/
theorem codec_exact :
    (∀ (data : Bytes) (cursor : ℕ), cursor ≤ data.length → (nextField data cursor).2 ≤ data.length ∧
        ((∃ e, (nextField data cursor).1 = .error e) ∨
          ((nextField data cursor).1 = .ok none ∧ cursor = data.length) ∨
          ∃ field, (nextField data cursor).1 = .ok (some field) ∧
            cursor < (nextField data cursor).2)) ∧
    (∀ message : Bytes,
      decodeStats message ≠ .error .running ∧ decodeInboundUsers message ≠ .error .running ∧
        decodeInboundTags message ≠ .error .running ∧
        decodeOnlineSources message ≠ .error .running ∧
        reverseHealth message ≠ .error .running ∧ muxSnapshot message ≠ .error .running ∧
        policyLoop.run () message ≠ .error .running ∧
        decodePublicForwardingTarget message ≠ .error .running ∧
        ∀ tag, (inspectLoop tag).run () message ≠ .error .running) ∧
    (∀ fields : List (ℕ × Field), (∀ field ∈ fields, Writable field) →
      collect.run [] (writeFields fields) = .ok fields) ∧
    ∀ rules : List ForwardingInbound, (rules.map ForwardingInbound.tag).Nodup →
      (rules.flatMap forwardingInboundRequest).length < 2 ^ 64 → ∀ rule ∈ rules,
        forwardingTargetIsPublic (.ok (rules.flatMap forwardingInboundRequest)) rule.tag
          = targetHostIsPublicIp rule.targetHost := by
  refine ⟨fun data cursor => nextField_advances, ?_, fun fields => collect_written, ?_⟩
  · intro message
    exact ⟨repeated_ends decodeStat_ends message, repeated_ends decodeUser_ends message,
      decodeInboundTags_ends message, decodeOnlineSources_ends message, snapshot_ends _ _ message,
      snapshot_ends _ _ message, policy_ends message, decodePublicForwardingTarget_ends message,
      fun tag => inspect_ends tag message⟩
  · intro rules hdistinct hlength rule hrule
    have hfound : (rules.find? fun r => r.tag = rule.tag) = some rule := by
      clear hlength
      induction rules with
      | nil => simp at hrule
      | cons first rules ih =>
        rw [List.map_cons, List.nodup_cons] at hdistinct
        rw [List.find?_cons]
        rcases List.mem_cons.mp hrule with rfl | hrest
        · simp
        · have hother : first.tag ≠ rule.tag := fun h =>
            hdistinct.1 (h ▸ List.mem_map_of_mem hrest)
          simpa [hother] using ih hdistinct.2 hrest
    rw [forwardingTargetIsPublic, inspect_written rules hlength, hfound]
    rfl

def publicListener : ForwardingInbound := ⟨"fwd-1", .tcp, 443, "[2606:4700::1111]", 443, false⟩

def privateListener : ForwardingInbound := ⟨"fwd-2", .udp, 53, "10.0.0.1", 53, true⟩

/-- A byte of a key alone, two fields, and two listeners of which one may stay up. -/
theorem codec_exact_listeners : ((nextField [8] 0).2 ≤ 1 ∧
      ((∃ e, (nextField [8] 0).1 = .error e) ∨ ((nextField [8] 0).1 = .ok none ∧ 0 = 1) ∨
        ∃ field, (nextField [8] 0).1 = .ok (some field) ∧ 0 < (nextField [8] 0).2)) ∧
      collect.run [] (writeFields [(1, .varint 300), (2, .bytes [7, 8])])
        = .ok [(1, .varint 300), (2, .bytes [7, 8])] ∧
      forwardingTargetIsPublic (.ok ([publicListener, privateListener].flatMap
          forwardingInboundRequest)) "fwd-1" = targetHostIsPublicIp "[2606:4700::1111]" :=
  ⟨codec_exact.1 [8] 0 (by decide),
    codec_exact.2.2.1 [(1, .varint 300), (2, .bytes [7, 8])] (by simp [Writable]),
    codec_exact.2.2.2 [publicListener, privateListener] (by decide) (by decide +kernel)
      publicListener (by simp)⟩

end Brocade.Xray
