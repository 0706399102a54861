/-
Reading back the target of a forwarding listener.

A listener that no checkpoint proves may stay up only where its target is a public address, and
what says so is the configuration the data plane lists.  It is four messages deep; what the agent
reads there is what it wrote, so the answer is the policy's about the rule's own target.
-/
import Brocade.Forwarding.Rule
import Brocade.Xray.Decode

namespace Brocade.Xray

open Fallible Forwarding

def RECEIVER_CONFIG : String := "xray.app.proxyman.ReceiverConfig"

def FORWARDING_CONFIG : String := "xray.proxy.dokodemo.ForwardingConfig"

def PLAIN_CONFIG : String := "xray.proxy.dokodemo.Config"

/-- The `count` lowest bytes of a number, the highest of them first. -/
def octets : ℕ → ℕ → Bytes
  | 0, _ => []
  | count + 1, value => octets count (value / 256) ++ [UInt8.ofNat value]

def ofOctets (bytes : Bytes) : ℕ := bytes.foldl (fun value byte => 256 * value + byte.toNat) 0

/-- The arguments of a request to add a listener. -/
structure ForwardingInbound where
  tag : String
  protocol : ForwardingProtocol
  listenPort : UInt16
  targetHost : String
  targetPort : UInt16
  allowPrivateTargets : Bool

/-- What a target may not be in. -/
def blockedTargetCidrs (allowPrivateTargets : Bool) : List String :=
  BLOCKED_TARGET_CIDRS.filter fun cidr => !allowPrivateTargets || decide (cidr ∉ PRIVATE_TARGET_CIDRS)

/-- The receiver of a listener. -/
def receiver (listenPort : UInt16) : Bytes :=
  let portRange := varintField 1 listenPort.toNat ++ varintField 2 listenPort.toNat
  let portList := messageField 1 portRange
  messageField 1 portList

/-- The target's address. -/
def targetAddress (targetHost : String) : Bytes :=
  match Ip.parse (trimBrackets targetHost) with
  | some (.v4 bits) => bytesField 1 (octets 4 bits.toNat)
  | some (.v6 bits) => bytesField 1 (octets 16 bits.toNat)
  | none => bytesField 2 (utf8Bytes targetHost)

/-- The target. -/
def targetProxy (rule : ForwardingInbound) : Bytes :=
  messageField 1 (targetAddress rule.targetHost) ++ varintField 2 rule.targetPort.toNat
    ++ messageField 8 ((blockedTargetCidrs rule.allowPrivateTargets).flatMap fun cidr =>
        bytesField 1 (utf8Bytes cidr))
    ++ (if rule.protocol.usesTcp then varintField 7 2 else [])
    ++ (if rule.protocol.usesUdp then varintField 7 3 else [])

/-- A listener. -/
def forwardingInbound (rule : ForwardingInbound) : Bytes :=
  bytesField 1 (utf8Bytes rule.tag)
    ++ messageField 2 (typedMessage RECEIVER_CONFIG (receiver rule.listenPort))
    ++ messageField 3 (typedMessage FORWARDING_CONFIG (messageField 1 (targetProxy rule)))

def forwardingInboundRequest (rule : ForwardingInbound) : Bytes :=
  messageField 1 (forwardingInbound rule)

/-! ### Inspection -/

/-- The first value of a field, where it holds bytes. -/
def firstBytes (wanted : ℕ) : Loop Unit (Option Bytes) where
  step _ number field :=
    match field with
    | .bytes value => if number = wanted then .ok (.inr (some value)) else .ok (.inl ())
    | _ => .ok (.inl ())
  finish _ := .ok none

def bytesOf (message : Bytes) (wanted : ℕ) : Except Stop (Option Bytes) :=
  (firstBytes wanted).run () message

/-- Whether a target is public: an address by the policy, a name never unless it spells one. -/
def addressIsPublic (ip domain : Option Bytes) : Bool :=
  match ip, domain with
  | some _, some _ => false
  | some ip, none =>
    if ip.length = 4 then !targetIpIsBlocked (.v4 (BitVec.ofNat 32 (ofOctets ip)))
    else if ip.length = 16 then !targetIpIsBlocked (.v6 (BitVec.ofNat 128 (ofOctets ip)))
    else false
  | none, domain => (domain.bind fromUtf8?).any targetHostIsPublicIp

/-- Whether a target is public. -/
def decodeProxy (proxy : Bytes) : Except Stop Bool := do
  let address ← bytesOf proxy 1
  let ip ← bytesOf (address.getD []) 1
  let domain ← bytesOf (address.getD []) 2
  .ok (addressIsPublic ip domain)

/-- Whether a listener's target is. -/
def decodePublicForwardingTarget (message : Bytes) : Except Stop Bool := do
  let name ← bytesOf message 1
  let proxy ← bytesOf message 2
  if name.getD [] = utf8Bytes FORWARDING_CONFIG then do
    let inner ← bytesOf (proxy.getD []) 1
    decodeProxy (inner.getD [])
  else if name.getD [] = utf8Bytes PLAIN_CONFIG then decodeProxy (proxy.getD [])
  else .ok false

/-- Whether an inbound has the tag, and its proxy settings. -/
def inboundLoop (tag : String) : Loop (Bool × Option Bytes) (Bool × Option Bytes) where
  step s number field :=
    match number, field with
    | 1, .bytes value => .ok (.inl (decide (value = utf8Bytes tag), s.2))
    | 3, .bytes value => .ok (.inl (s.1, some value))
    | _, _ => .ok (.inl s)
  finish s := .ok s

/-- What is known of an inbound with the tag, and nothing of another. -/
def inspectInbound (tag : String) (inbound : Bytes) : Except Stop (Unit ⊕ Bool) := do
  let found ← (inboundLoop tag).run (false, none) inbound
  if found.1 then
    match found.2 with
    | none => .ok (.inr false)
    | some proxy => (decodePublicForwardingTarget proxy).map Sum.inr
  else .ok (.inl ())

/-- The listener among the fields. -/
def inspectLoop (tag : String) : Loop Unit Bool where
  step _ number field :=
    match number, field with
    | 1, .bytes inbound => inspectInbound tag inbound
    | _, _ => .ok (.inl ())
  finish _ := .ok false

/-- What cannot be inspected is not public. -/
def forwardingTargetIsPublic (response : Except String Bytes) (tag : String) : Bool :=
  match response with
  | .error _ => false
  | .ok response =>
    match (inspectLoop tag).run () response with
    | .ok public' => public'
    | .error _ => false

/-! ### The messages as lists of fields -/

/-- Nothing is wrong with a field but for its length. -/
def Sound : ℕ × Field → Prop
  | (number, .varint value) => number < 2 ^ 29 ∧ value < 2 ^ 64
  | (number, .bytes _) => number < 2 ^ 29
  | (_, .fixed) => False

theorem length_le_bytesField (number : ℕ) (value : Bytes) :
    value.length ≤ (bytesField number value).length := by
  rw [bytesField, List.length_append]
  exact Nat.le_add_left _ _

theorem writable_of_length {fields : List (ℕ × Field)} (hsound : ∀ field ∈ fields, Sound field)
    (hlength : (writeFields fields).length < 2 ^ 64) : ∀ field ∈ fields, Writable field := by
  induction fields with
  | nil => simp
  | cons field fields ih =>
    rw [writeFields, List.flatMap_cons, List.length_append] at hlength
    intro other hother
    rcases List.mem_cons.mp hother with rfl | hrest
    · have hfield := hsound other hother
      obtain ⟨number, value⟩ := other
      cases value with
      | varint value => exact hfield
      | fixed => exact hfield
      | bytes value =>
        have hle := length_le_bytesField number value
        rw [writeField] at hlength
        exact ⟨hfield, by omega⟩
    · exact ih (fun f hf => hsound f (List.mem_cons_of_mem _ hf)) (by rw [writeFields]; omega)
        other hrest

/-- The field of the address. -/
def addressField (targetHost : String) : ℕ × Field :=
  match Ip.parse (trimBrackets targetHost) with
  | some (.v4 bits) => (1, .bytes (octets 4 bits.toNat))
  | some (.v6 bits) => (1, .bytes (octets 16 bits.toNat))
  | none => (2, .bytes (utf8Bytes targetHost))

theorem targetAddress_eq (targetHost : String) :
    targetAddress targetHost = writeFields [addressField targetHost] := by
  have hone : ∀ field, writeField field = writeFields [field] := fun field => by
    rw [writeFields, List.flatMap_singleton]
  rw [← hone]
  unfold targetAddress addressField
  generalize Ip.parse (trimBrackets targetHost) = parsed
  cases parsed with
  | none => rfl
  | some address =>
    cases address with
    | v4 bits => rfl
    | v6 bits => rfl

/-- The fields of the target. -/
def proxyFields (rule : ForwardingInbound) : List (ℕ × Field) :=
  [(1, .bytes (targetAddress rule.targetHost)), (2, .varint rule.targetPort.toNat),
    (8, .bytes ((blockedTargetCidrs rule.allowPrivateTargets).flatMap fun cidr =>
      bytesField 1 (utf8Bytes cidr)))]
    ++ (if rule.protocol.usesTcp then [(7, .varint 2)] else [])
    ++ (if rule.protocol.usesUdp then [(7, .varint 3)] else [])

theorem targetProxy_eq (rule : ForwardingInbound) :
    targetProxy rule = writeFields (proxyFields rule) := by
  rw [targetProxy, proxyFields]
  by_cases htcp : rule.protocol.usesTcp = true
  · by_cases hudp : rule.protocol.usesUdp = true
    · simp [htcp, hudp, writeFields, writeField, messageField]
    · simp [htcp, hudp, writeFields, writeField, messageField]
  · by_cases hudp : rule.protocol.usesUdp = true
    · simp [htcp, hudp, writeFields, writeField, messageField]
    · simp [htcp, hudp, writeFields, writeField, messageField]

theorem typedMessage_eq (typeName : String) (value : Bytes) : typedMessage typeName value
    = writeFields [(1, .bytes (utf8Bytes typeName)), (2, .bytes value)] := by
  simp [typedMessage, writeFields, writeField]

def protectedProxy (rule : ForwardingInbound) : Bytes :=
  typedMessage FORWARDING_CONFIG (messageField 1 (targetProxy rule))

theorem forwardingInbound_eq (rule : ForwardingInbound) : forwardingInbound rule
    = writeFields [(1, .bytes (utf8Bytes rule.tag)),
        (2, .bytes (typedMessage RECEIVER_CONFIG (receiver rule.listenPort))),
        (3, .bytes (protectedProxy rule))] := by
  simp [forwardingInbound, protectedProxy, writeFields, writeField, messageField]

theorem requests_eq (rules : List ForwardingInbound) : rules.flatMap forwardingInboundRequest
    = writeFields (rules.map fun rule => (1, .bytes (forwardingInbound rule))) := by
  rw [writeFields, List.flatMap_map]
  rfl

/-! ### What is read back -/

/-- The first field of a number, where it holds bytes. -/
def firstOf (wanted : ℕ) : List (ℕ × Field) → Option Bytes
  | [] => none
  | (number, .bytes value) :: fields => if number = wanted then some value else firstOf wanted fields
  | _ :: fields => firstOf wanted fields

theorem firstBytes_over (wanted : ℕ) (fields : List (ℕ × Field)) :
    (firstBytes wanted).over fields () = .ok (firstOf wanted fields) := by
  induction fields with
  | nil => rfl
  | cons field fields ih =>
    obtain ⟨number, value⟩ := field
    cases value with
    | varint value => exact ih
    | fixed => exact ih
    | bytes value =>
      by_cases hwanted : number = wanted
      · simp [Loop.over, firstBytes, firstOf, hwanted]
      · simpa [Loop.over, firstBytes, firstOf, hwanted] using ih

theorem bytesOf_written {fields : List (ℕ × Field)} (hsound : ∀ field ∈ fields, Sound field)
    (hlength : (writeFields fields).length < 2 ^ 64) (wanted : ℕ) :
    bytesOf (writeFields fields) wanted = .ok (firstOf wanted fields) := by
  rw [bytesOf, Loop.run_written _ (writable_of_length hsound hlength), firstBytes_over]

theorem octets_length (count : ℕ) : ∀ value, (octets count value).length = count := by
  induction count with
  | zero => intro value; rfl
  | succ count ih => intro value; simp [octets, ih]

theorem ofOctets_octets (count : ℕ) : ∀ value, value < 256 ^ count →
    ofOctets (octets count value) = value := by
  induction count with
  | zero =>
    intro value hvalue
    simp [octets, ofOctets] at hvalue ⊢
    omega
  | succ count ih =>
    intro value hvalue
    rw [Nat.pow_succ] at hvalue
    have hhigh := ih (value / 256) (by omega)
    rw [ofOctets] at hhigh
    rw [octets, ofOctets, List.foldl_append, hhigh, List.foldl_cons, List.foldl_nil,
      UInt8.toNat_ofNat']
    omega

theorem fromUtf8?_utf8Bytes (s : String) : fromUtf8? (utf8Bytes s) = some s := by
  rw [fromUtf8?, utf8Bytes, Array.toArray_toList, String.fromUTF8?, dif_pos s.isValidUTF8]
  rfl

theorem utf8Bytes_inj {s t : String} (h : utf8Bytes s = utf8Bytes t) : s = t := by
  have hread := congrArg fromUtf8? h
  rw [fromUtf8?_utf8Bytes, fromUtf8?_utf8Bytes] at hread
  exact Option.some.inj hread

theorem addressIsPublic_addressField (targetHost : String) :
    addressIsPublic (firstOf 1 [addressField targetHost]) (firstOf 2 [addressField targetHost])
      = targetHostIsPublicIp targetHost := by
  unfold addressField targetHostIsPublicIp
  cases hparse : Ip.parse (trimBrackets targetHost) with
  | none => simp [firstOf, addressIsPublic, fromUtf8?_utf8Bytes, targetHostIsPublicIp, hparse]
  | some address =>
    cases address with
    | v4 bits =>
      have hbits : ofOctets (octets 4 bits.toNat) = bits.toNat :=
        ofOctets_octets 4 _ (by simpa using bits.isLt)
      simp [firstOf, addressIsPublic, octets_length, hbits]
    | v6 bits =>
      have hbits : ofOctets (octets 16 bits.toNat) = bits.toNat :=
        ofOctets_octets 16 _ (by simpa using bits.isLt)
      simp [firstOf, addressIsPublic, octets_length, hbits]

end Brocade.Xray
