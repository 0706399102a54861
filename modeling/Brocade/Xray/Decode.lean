/-
What the agent decodes from the data plane's answers.

Each decoder is a loop over the fields of a message, some with a loop over a nested message in a
step.  Fields that a decoder does not know are passed over; a text that is not UTF-8 fails it.  The
parsing of a snapshot's JSON is no loop over fields and stays outside.
-/
import Brocade.Lib.Fallible
import Brocade.Lib.Ip
import Brocade.Xray.Exact

namespace Brocade.Xray

open Fallible

def VLESS_ACCOUNT : String := "xray.proxy.vless.Account"

def HYSTERIA2_ACCOUNT : String := "xray.proxy.hysteria.account.Account"

def ANYTLS_ACCOUNT : String := "xray.proxy.anytls.Account"

def MTPROTO_ACCOUNT : String := "xray.proxy.mtproto.Account"

def fromUtf8? (value : Bytes) : Option String := String.fromUTF8? ⟨value.toArray⟩

/-- A text, or a failure. -/
def utf8 (value : Bytes) (what : String) : Except Stop String :=
  match fromUtf8? value with
  | some s => .ok s
  | none => .error (.failed s!"xray sent a non-UTF-8 {what}")

/-- A 64-bit word read as a signed number. -/
def asI64 (raw : ℕ) : ℤ := if raw < 2 ^ 63 then raw else raw - 2 ^ 64

/-- Go on with the loop. -/
def next {σ ρ : Type} (s : Except Stop σ) : Except Stop (σ ⊕ ρ) := s.map Sum.inl

/-! ### Counters -/

/-- A counter of xray. -/
structure XrayStat where
  name : String
  value : ℤ

/-- The fields of a counter. -/
def statLoop : Loop (Option String × ℤ) XrayStat where
  step s number field :=
    match number, field with
    | 1, .bytes value => next ((utf8 value "counter name").map fun name => (some name, s.2))
    | 2, .varint raw => next (.ok (s.1, asI64 raw))
    | _, _ => next (.ok s)
  finish s :=
    match s.1 with
    | some name => .ok ⟨name, s.2⟩
    | none => .error (.failed "xray sent a counter without a name")

def decodeStat (message : Bytes) : Except Stop XrayStat := statLoop.run (none, 0) message

/-- A list of nested messages under field 1. -/
def repeated {α : Type} (decode : Bytes → Except Stop α) : Loop (List α) (List α) where
  step s number field :=
    match number, field with
    | 1, .bytes value => next ((decode value).map fun a => s ++ [a])
    | _, _ => next (.ok s)
  finish s := .ok s

def decodeStats (message : Bytes) : Except Stop (List XrayStat) :=
  (repeated decodeStat).run [] message

/-! ### Users -/

/-- A user of xray. -/
structure XrayUser where
  (email credential : String)
  flow : Option String

/-- The type and the value of a typed message. -/
def typedLoop : Loop (Option String × Option Bytes) (Option String × Option Bytes) where
  step s number field :=
    match number, field with
    | 1, .bytes value => next ((utf8 value "account type").map fun name => (some name, s.2))
    | 2, .bytes value => next (.ok (s.1, some value))
    | _, _ => next (.ok s)
  finish s := .ok s

/-- The fields of an account. -/
def accountLoop (typeName : String) :
    Loop (Option String × Option String) (Option (String × Option String)) where
  step s number field :=
    match field with
    | .bytes value =>
      if typeName = VLESS_ACCOUNT ∧ number = 1 then
        next ((utf8 value "VLESS id").map fun id => (some id, s.2))
      else if typeName = VLESS_ACCOUNT ∧ number = 2 then
        next ((utf8 value "VLESS flow").map fun flow => (s.1, some flow))
      else if typeName = HYSTERIA2_ACCOUNT ∧ number = 1 then
        next ((utf8 value "Hysteria 2 auth").map fun id => (some id, s.2))
      else if typeName = ANYTLS_ACCOUNT ∧ number = 1 then
        next ((utf8 value "AnyTLS password").map fun id => (some id, s.2))
      else if typeName = MTPROTO_ACCOUNT ∧ number = 1 then
        next ((utf8 value "MTProxy secret").map fun id => (some id, s.2))
      else next (.ok s)
    | _ => next (.ok s)
  finish s := .ok (s.1.map fun id => (id, s.2.filter fun flow => flow != ""))

/-- An account of a known type. -/
def decodeAccount (message : Bytes) : Except Stop (Option (String × Option String)) := do
  let typed ← typedLoop.run (none, none) message
  match typed with
  | (some typeName, some value) => (accountLoop typeName).run (none, none) value
  | _ => .ok none

/-- The fields of a user. -/
def userLoop : Loop (Option String × Option (String × Option String)) XrayUser where
  step s number field :=
    match number, field with
    | 2, .bytes value => next ((utf8 value "user email").map fun email => (some email, s.2))
    | 3, .bytes value => next ((decodeAccount value).map fun account => (s.1, account))
    | _, _ => next (.ok s)
  finish s :=
    match s with
    | (none, _) => .error (.failed "xray sent an inbound user without an email")
    | (some email, none) => .error (.failed
        s!"xray sent inbound user {email} without a readable VLESS or Hysteria 2 account")
    | (some email, some (credential, flow)) => .ok ⟨email, credential, flow⟩

def decodeUser (message : Bytes) : Except Stop XrayUser := userLoop.run (none, none) message

def decodeInboundUsers (message : Bytes) : Except Stop (List XrayUser) :=
  (repeated decodeUser).run [] message

/-! ### Tags -/

/-- The tag among the fields. -/
def tagLoop : Loop (List String) (List String) where
  step s number field :=
    match number, field with
    | 1, .bytes value => next ((utf8 value "inbound tag").map fun tag => s ++ [tag])
    | _, _ => next (.ok s)
  finish s := .ok s

/-- The listeners among the fields. -/
def inboundTagsLoop : Loop (List String) (List String) where
  step s number field :=
    match number, field with
    | 1, .bytes inbound => next (tagLoop.run s inbound)
    | _, _ => next (.ok s)
  finish s := .ok (s.mergeSort.dedup)

def decodeInboundTags (message : Bytes) : Except Stop (List String) :=
  inboundTagsLoop.run [] message

/-! ### Online sources -/

def MAX_ONLINE_SOURCE_USERS : ℕ := 2048

def MAX_ONLINE_SOURCE_ENTRIES : ℕ := 4096

def MAX_ONLINE_SOURCE_PROTOCOLS : ℕ := 8

/-- What a source speaks. -/
inductive OnlineSourceProtocol where
  | vless
  | anyTls
  | hysteria2
  | mtProto
  | unknown
deriving DecidableEq

/-- The protocol of a name. -/
def OnlineSourceProtocol.ofBytes (value : Bytes) : OnlineSourceProtocol :=
  if value = utf8Bytes "vless" then .vless
  else if value = utf8Bytes "anytls" then .anyTls
  else if value = utf8Bytes "hysteria" then .hysteria2
  else if value = utf8Bytes "mtproto" then .mtProto
  else .unknown

/-- In the order of their declaration, each once. -/
def OnlineSourceProtocol.sorted (protocols : List OnlineSourceProtocol) :
    List OnlineSourceProtocol :=
  [.vless, .anyTls, .hysteria2, .mtProto, .unknown].filter (· ∈ protocols)

/-- What an online source carries, before it is checked. -/
structure OnlineFields where
  ip : Option String
  lastSeenUnixSecs : ℤ
  protocols : List OnlineSourceProtocol
  (onlineSinceUnixSecs sessionUplinkBytes sessionDownlinkBytes : Option ℤ)

/-- An address a user is online from. -/
structure OnlineSource where
  ip : String
  lastSeenUnixSecs : ℤ
  protocols : Option (List OnlineSourceProtocol)
  onlineSinceUnixSecs : Option ℤ
  (sessionUplinkBytes sessionDownlinkBytes : Option ℕ)

/-- The data plane wraps an address of the newer family in brackets; nothing else may stand there. -/
def parseOnlineIp (raw : String) : Option Ip.Addr :=
  match raw.toList with
  | '[' :: rest =>
    if rest.getLast? = some ']' then Ip.parseIpv6 (String.ofList rest.dropLast) else Ip.parse raw
  | _ => Ip.parse raw

/-- The start of a session and its two counters: a counter left out is zero behind a start, and
nothing is known without one. -/
def sessionMetrics (s : OnlineFields) : Except Stop (Option ℤ × Option ℕ × Option ℕ) :=
  match s.onlineSinceUnixSecs, s.sessionUplinkBytes, s.sessionDownlinkBytes with
  | none, none, none => .ok (none, none, none)
  | some since, uplink, downlink =>
    if 0 < since ∧ 0 ≤ uplink.getD 0 ∧ 0 ≤ downlink.getD 0 then
      .ok (some since, some (uplink.getD 0).toNat, some (downlink.getD 0).toNat)
    else .error (.failed "xray sent incomplete or invalid online source session metrics")
  | none, _, _ => .error (.failed "xray sent incomplete or invalid online source session metrics")

/-- The checks behind the loop over an online source. -/
def OnlineFields.checked (s : OnlineFields) : Except Stop OnlineSource :=
  match s.ip with
  | none => .error (.failed "xray sent an online source without an IP")
  | some raw =>
    match parseOnlineIp raw with
    | none => .error (.failed "xray sent an invalid online source IP")
    | some ip =>
      if s.lastSeenUnixSecs ≤ 0 then
        .error (.failed "xray sent an online source with a non-positive last_seen")
      else (sessionMetrics s).map fun metrics =>
        { ip := ip.text
          lastSeenUnixSecs := s.lastSeenUnixSecs
          protocols :=
            if s.protocols.isEmpty then none
            else some (OnlineSourceProtocol.sorted s.protocols)
          onlineSinceUnixSecs := metrics.1
          sessionUplinkBytes := metrics.2.1
          sessionDownlinkBytes := metrics.2.2 }

/-- The fields of a source. -/
def onlineSourceLoop : Loop OnlineFields OnlineSource where
  step s number field :=
    match number, field with
    | 1, .bytes value => next ((utf8 value "online source IP").map fun ip => { s with ip := some ip })
    | 2, .varint raw => next (.ok { s with lastSeenUnixSecs := asI64 raw })
    | 3, .bytes value =>
      if MAX_ONLINE_SOURCE_PROTOCOLS ≤ s.protocols.length then
        .error (.failed "xray online source protocol count exceeds limit")
      else next (.ok { s with protocols := s.protocols ++ [.ofBytes value] })
    | 4, .varint raw => next (.ok { s with onlineSinceUnixSecs := some (asI64 raw) })
    | 5, .varint raw => next (.ok { s with sessionUplinkBytes := some (asI64 raw) })
    | 6, .varint raw => next (.ok { s with sessionDownlinkBytes := some (asI64 raw) })
    | 4, _ | 5, _ | 6, _ =>
      .error (.failed "xray sent an invalid online source session metric wire type")
    | _, _ => next (.ok s)
  finish := OnlineFields.checked

def decodeOnlineSource (message : Bytes) : Except Stop OnlineSource :=
  onlineSourceLoop.run ⟨none, 0, [], none, none, none⟩ message

/-- The addresses of one user. -/
structure UserOnlineSources where
  label : String
  sources : List OnlineSource

/-- The fields of a user who is online. -/
def onlineUserLoop : Loop (Option String × List OnlineSource) UserOnlineSources where
  step s number field :=
    match number, field with
    | 1, .bytes value => next ((utf8 value "online user label").map fun label => (some label, s.2))
    | 2, .bytes value => next ((decodeOnlineSource value).map fun source => (s.1, s.2 ++ [source]))
    | _, _ => next (.ok s)
  finish s :=
    match s.1 with
    | none => .error (.failed "xray sent online sources without a user label")
    | some label =>
      if label = "" then .error (.failed "xray sent online sources with an empty user label")
      else .ok ⟨label, s.2⟩

def decodeOnlineUser (message : Bytes) : Except Stop UserOnlineSources :=
  onlineUserLoop.run (none, []) message

/-- Sources in the order of addresses. -/
def UserOnlineSources.byIp (user : UserOnlineSources) : UserOnlineSources :=
  { user with sources := user.sources.mergeSort fun a b => decide (a.ip ≤ b.ip) }

/-- The users so far, with the number of their sources. -/
def onlineSourcesLoop : Loop (List UserOnlineSources × ℕ) (List UserOnlineSources) where
  step s number field :=
    match number, field with
    | 1, .bytes value =>
      if MAX_ONLINE_SOURCE_USERS ≤ s.1.length then
        .error (.failed s!"xray online snapshot exceeds {MAX_ONLINE_SOURCE_USERS} users")
      else
        match decodeOnlineUser value with
        | .error e => .error e
        | .ok user =>
          if MAX_ONLINE_SOURCE_ENTRIES < s.2 + user.sources.length then
            .error (.failed s!"xray online snapshot exceeds {MAX_ONLINE_SOURCE_ENTRIES} sources")
          else next (.ok (s.1 ++ [user.byIp], s.2 + user.sources.length))
    | _, _ => next (.ok s)
  finish s := .ok (s.1.mergeSort fun a b => decide (a.label ≤ b.label))

def decodeOnlineSources (message : Bytes) : Except Stop (List UserOnlineSources) :=
  onlineSourcesLoop.run ([], 0) message

/-! ### Answers with one field -/

/-- The first field 1 with bytes, as a snapshot's JSON is sent. -/
def snapshotLoop (limit : ℕ) (what : String) : Loop Unit Bytes where
  step _ number field :=
    match number, field with
    | 1, .bytes value =>
      if limit < value.length then .error (.failed s!"{what} exceeds telemetry limit")
      else .ok (.inr value)
    | _, _ => .ok (.inl ())
  finish _ := .error (.failed s!"missing {what}")

def reverseHealth (response : Bytes) : Except Stop Bytes :=
  (snapshotLoop (256 * 1024) "reverse health snapshot").run () response

def muxSnapshot (response : Bytes) : Except Stop Bytes :=
  (snapshotLoop (384 * 1024) "mux snapshot").run () response

/-- The version among the fields. -/
def policyLoop : Loop Unit Bool where
  step _ number field :=
    match number, field with
    | 1, .varint version => .ok (.inr (decide (1 ≤ version)))
    | _, _ => .ok (.inl ())
  finish _ := .ok false

/-- A response that does not decode supports no policy. -/
def forwardingTargetPolicySupported (response : Except String Bytes) : Bool :=
  match response with
  | .error _ => false
  | .ok response => ((policyLoop.run () response).toOption).getD false

/-! ### Every decoder ends -/

theorem map_ne_running {α β : Type} {f : α → β} {x : Except Stop α} (h : x ≠ .error .running) :
    x.map f ≠ .error .running := by
  cases x with
  | error e => exact fun heq => h (congrArg Except.error (Except.error.inj heq))
  | ok a => exact fun heq => by cases heq

theorem next_ne_running {σ ρ : Type} {x : Except Stop σ} (h : x ≠ .error .running) :
    (next x : Except Stop (σ ⊕ ρ)) ≠ .error .running := map_ne_running h

theorem ok_ne_running {α : Type} (a : α) : (.ok a : Except Stop α) ≠ .error .running :=
  fun h => by cases h

theorem failed_ne_running {α : Type} (message : String) :
    (.error (.failed message) : Except Stop α) ≠ .error .running := fun h => by cases h

theorem utf8_ne_running (value : Bytes) (what : String) : utf8 value what ≠ .error .running := by
  rw [utf8]
  cases fromUtf8? value with
  | none => exact failed_ne_running _
  | some s => exact ok_ne_running s

theorem decodeStat_ends (message : Bytes) : decodeStat message ≠ .error .running := by
  apply Loop.run_ends
  · intro s number field
    rw [statLoop]
    dsimp only
    split
    · exact next_ne_running (map_ne_running (utf8_ne_running _ _))
    · exact ok_ne_running _
    · exact ok_ne_running _
  · intro s
    rw [statLoop]
    dsimp only
    split
    · exact ok_ne_running _
    · exact failed_ne_running _

theorem repeated_ends {α : Type} {decode : Bytes → Except Stop α}
    (hdecode : ∀ message, decode message ≠ .error .running) (message : Bytes) :
    (repeated decode).run [] message ≠ .error .running := by
  apply Loop.run_ends
  · intro s number field
    rw [repeated]
    dsimp only
    split
    · exact next_ne_running (map_ne_running (hdecode _))
    · exact ok_ne_running _
  · intro s
    exact ok_ne_running _

theorem decodeAccount_ends (message : Bytes) : decodeAccount message ≠ .error .running := by
  have htyped : typedLoop.run (none, none) message ≠ .error .running := by
    apply Loop.run_ends
    · intro s number field
      rw [typedLoop]
      dsimp only
      split
      · exact next_ne_running (map_ne_running (utf8_ne_running _ _))
      · exact ok_ne_running _
      · exact ok_ne_running _
    · intro s
      exact ok_ne_running _
  have haccount : ∀ typeName value, (accountLoop typeName).run (none, none) value
      ≠ .error .running := by
    intro typeName value
    apply Loop.run_ends
    · intro s number field
      rw [accountLoop]
      dsimp only
      split
      · split_ifs
        · exact next_ne_running (map_ne_running (utf8_ne_running _ _))
        · exact next_ne_running (map_ne_running (utf8_ne_running _ _))
        · exact next_ne_running (map_ne_running (utf8_ne_running _ _))
        · exact next_ne_running (map_ne_running (utf8_ne_running _ _))
        · exact next_ne_running (map_ne_running (utf8_ne_running _ _))
        · exact ok_ne_running _
      · exact ok_ne_running _
    · intro s
      exact ok_ne_running _
  intro h
  rw [decodeAccount, bind_eq_error] at h
  rcases h with hfailed | ⟨typed, -, h⟩
  · exact htyped hfailed
  · split at h
    · exact haccount _ _ h
    · cases h

theorem decodeUser_ends (message : Bytes) : decodeUser message ≠ .error .running := by
  apply Loop.run_ends
  · intro s number field
    rw [userLoop]
    dsimp only
    split
    · exact next_ne_running (map_ne_running (utf8_ne_running _ _))
    · exact next_ne_running (map_ne_running (decodeAccount_ends _))
    · exact ok_ne_running _
  · intro s
    rw [userLoop]
    dsimp only
    split
    · exact failed_ne_running _
    · exact failed_ne_running _
    · exact ok_ne_running _

theorem decodeInboundTags_ends (message : Bytes) : decodeInboundTags message ≠ .error .running := by
  have htag : ∀ s inbound, tagLoop.run s inbound ≠ .error .running := by
    intro s inbound
    apply Loop.run_ends
    · intro s number field
      rw [tagLoop]
      dsimp only
      split
      · exact next_ne_running (map_ne_running (utf8_ne_running _ _))
      · exact ok_ne_running _
    · intro s
      exact ok_ne_running _
  apply Loop.run_ends
  · intro s number field
    rw [inboundTagsLoop]
    dsimp only
    split
    · exact next_ne_running (htag _ _)
    · exact ok_ne_running _
  · intro s
    exact ok_ne_running _

theorem checked_ne_running (s : OnlineFields) : s.checked ≠ .error .running := by
  have hmetrics : sessionMetrics s ≠ .error .running := by
    rw [sessionMetrics]
    split
    · exact ok_ne_running _
    · split_ifs
      · exact ok_ne_running _
      · exact failed_ne_running _
    · exact failed_ne_running _
  rw [OnlineFields.checked]
  split
  · exact failed_ne_running _
  · split
    · exact failed_ne_running _
    · split
      · exact failed_ne_running _
      · exact map_ne_running hmetrics

theorem decodeOnlineSource_ends (message : Bytes) :
    decodeOnlineSource message ≠ .error .running := by
  apply Loop.run_ends
  · intro s number field
    rw [onlineSourceLoop]
    dsimp only
    split
    · exact next_ne_running (map_ne_running (utf8_ne_running _ _))
    · exact ok_ne_running _
    · split_ifs
      · exact failed_ne_running _
      · exact ok_ne_running _
    all_goals first | exact ok_ne_running _ | exact failed_ne_running _
  · exact checked_ne_running

theorem decodeOnlineUser_ends (message : Bytes) : decodeOnlineUser message ≠ .error .running := by
  apply Loop.run_ends
  · intro s number field
    rw [onlineUserLoop]
    dsimp only
    split
    · exact next_ne_running (map_ne_running (utf8_ne_running _ _))
    · exact next_ne_running (map_ne_running (decodeOnlineSource_ends _))
    · exact ok_ne_running _
  · intro s
    rw [onlineUserLoop]
    dsimp only
    split
    · exact failed_ne_running _
    · split_ifs
      · exact failed_ne_running _
      · exact ok_ne_running _

theorem decodeOnlineSources_ends (message : Bytes) :
    decodeOnlineSources message ≠ .error .running := by
  apply Loop.run_ends
  · intro s number field
    rw [onlineSourcesLoop]
    dsimp only
    split
    · split_ifs
      · exact failed_ne_running _
      · split
        · next e he =>
            intro h
            rw [Except.error.inj h] at he
            exact decodeOnlineUser_ends _ he
        · split_ifs
          · exact failed_ne_running _
          · exact ok_ne_running _
    · exact ok_ne_running _
  · intro s
    exact ok_ne_running _

theorem snapshot_ends (limit : ℕ) (what : String) (response : Bytes) :
    (snapshotLoop limit what).run () response ≠ .error .running := by
  apply Loop.run_ends
  · intro s number field
    rw [snapshotLoop]
    dsimp only
    split
    · split_ifs
      · exact failed_ne_running _
      · exact ok_ne_running _
    · exact ok_ne_running _
  · intro s
    exact failed_ne_running _

theorem policy_ends (response : Bytes) : policyLoop.run () response ≠ .error .running := by
  apply Loop.run_ends
  · intro s number field
    rw [policyLoop]
    dsimp only
    split
    · exact ok_ne_running _
    · exact ok_ne_running _
  · intro s
    exact ok_ne_running _

end Brocade.Xray
