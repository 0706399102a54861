/-
The secrets of stored snapshots.

A snapshot is stored as a JSON document whose secrets are sealed, each under a context that names
the resource it belongs to: the credential of an external outbound, the options of a VLESS one,
which may hold keys of their own, and the private keys of a managed one's machines.  Sealing and
opening go through the document in the same two passes.
-/
import Brocade.Lib.Aead
import Brocade.Lib.Patch

namespace Brocade.Secrets

open Json

/-! ### Contexts -/

def externalOutboundContext (tenantId outboundId : String) : String :=
  s!"external-outbound:{tenantId}/{outboundId}"

def externalOutboundOptionsContext (tenantId outboundId : String) : String :=
  s!"external-outbound-options:{tenantId}/{outboundId}"

/-- What a binding's key is sealed under. -/
def externalOutboundBindingKeyContext (tenantId outboundId nodeId : String) : String :=
  s!"external-outbound-binding-key:{tenantId}/{outboundId}/{nodeId}"

/-- The places of a document that hold sealed values. -/
inductive Slot where
  | credential (tenant id : String)
  | options (tenant id : String)
  | bindingKey (tenant id node : String)
deriving DecidableEq

/-- What a place is sealed under. -/
def Slot.context : Slot → String
  | .credential tenant id => externalOutboundContext tenant id
  | .options tenant id => externalOutboundOptionsContext tenant id
  | .bindingKey tenant id node => externalOutboundBindingKeyContext tenant id node

/-! ### Documents -/

/-- The text of an object, and what is read from one. -/
structure JsonText where
  print : List (String × Value) → String
  parse : String → Except String (List (String × Value))

abbrev Pass := Drawing String

def memberText (v : Value) (key : String) : Option String := (v.get? key).bind Value.asStr?

theorem memberText_put_ne (v : Value) {k l : String} (x : Value) (h : k ≠ l) :
    memberText (v.put l x) k = memberText v k := by
  rw [memberText, Value.get?_put_ne v x h, memberText]

theorem memberText_put_self {v y : Value} {k : String} (hk : v.get? k = some y) (key s : String) :
    memberText (v.put key (.str s)) key = some s := by
  rw [memberText, Value.get?_put_self hk]
  rfl

theorem memberText_obj {fields : List (String × Value)} {key s : String}
    (h : Assoc.lookup key fields = some (.str s)) : memberText (.obj fields) key = some s := by
  rw [memberText, Value.get?_obj, h]
  rfl

/-- `/protocol/t` -/
def protocolTag (outbound : Value) : Option String :=
  (outbound.get? "protocol").bind fun protocol => memberText protocol "t"

/-- `/protocol/v` -/
def protocolBody (outbound : Value) : Option Value :=
  (outbound.get? "protocol").bind fun protocol => protocol.get? "v"

/-- The outbound with the body. -/
def putBody (outbound body : Value) : Value :=
  match outbound.get? "protocol" with
  | some protocol => outbound.put "protocol" (protocol.put "v" body)
  | none => outbound

theorem get?_putBody_ne (outbound body : Value) {k : String} (hk : k ≠ "protocol") :
    (putBody outbound body).get? k = outbound.get? k := by
  unfold putBody
  split
  · exact Value.get?_put_ne outbound _ hk
  · rfl

theorem get?_putBody {outbound protocol : Value} (body : Value)
    (hprotocol : outbound.get? "protocol" = some protocol) :
    (putBody outbound body).get? "protocol" = some (protocol.put "v" body) := by
  simp only [putBody, hprotocol]
  exact Value.get?_put_self hprotocol _ _

theorem protocolBody_putBody {outbound body : Value} (hbody : protocolBody outbound = some body)
    (body' : Value) : protocolBody (putBody outbound body') = some body' := by
  obtain ⟨protocol, hprotocol, hv⟩ := Option.bind_eq_some_iff.mp hbody
  rw [protocolBody, get?_putBody body' hprotocol, Option.bind_some]
  exact Value.get?_put_self hv _ _

@[simp] theorem protocolTag_putBody (outbound body : Value) :
    protocolTag (putBody outbound body) = protocolTag outbound := by
  cases hprotocol : outbound.get? "protocol" with
  | none => simp only [putBody, hprotocol]
  | some protocol =>
    rw [protocolTag, protocolTag, get?_putBody body hprotocol, hprotocol, Option.bind_some,
      Option.bind_some, memberText_put_ne protocol body (by decide)]

/-- The tenant and name of an outbound. -/
def externalSnapshotIdentity (outbound : Value) : Except String (String × String) :=
  match memberText outbound "tenant" with
  | none => .error "external outbound snapshot is missing tenant"
  | some tenant =>
    match memberText outbound "id" with
    | none => .error "external outbound snapshot is missing id"
    | some id => .ok (tenant, id)

@[simp] theorem externalSnapshotIdentity_putBody (outbound body : Value) :
    externalSnapshotIdentity (putBody outbound body) = externalSnapshotIdentity outbound := by
  have htenant := get?_putBody_ne outbound body (k := "tenant") (by decide)
  have hid := get?_putBody_ne outbound body (k := "id") (by decide)
  simp only [externalSnapshotIdentity, memberText, htenant, hid]

/-- What is done to each external outbound of a snapshot; one without any is older than they
are. -/
def updateOutbounds (update : Value → Pass Value) (snapshot : Value) : Pass Value :=
  match snapshot.get? "external_outbounds" with
  | none => pure snapshot
  | some (.arr outbounds) => do
      let outbounds ← outbounds.mapM update
      pure (snapshot.put "external_outbounds" (.arr outbounds))
  | some _ => throw "snapshot external_outbounds is not an array"

/-! ### Sealing and opening -/

variable (aead : Aead) (text : JsonText)

def sealText (context plaintext : String) : Pass String := fun number =>
  .ok (aead.seal_ number context plaintext, number + 1)

/-- A text is opened. -/
def openText (context sealed : String) : Pass String :=
  match aead.open_ context sealed with
  | some plaintext => pure plaintext
  | none => throw "cannot open sealed value: wrong key, wrong context, or the value was altered"

/-! #### The options of VLESS -/

/-- The options of a VLESS outbound and whose they are. -/
def vlessOptions (outbound : Value) :
    Except String ((String × String) × List (String × Value)) :=
  match externalSnapshotIdentity outbound with
  | .error message => .error message
  | .ok (tenant, id) =>
    match (protocolBody outbound).bind Value.asObj? with
    | none => .error s!"external outbound snapshot {tenant}/{id} is missing VLESS options"
    | some protocol => .ok ((tenant, id), protocol)

/-- The credential among the options. -/
def vlessCredential (tenant id : String) (protocol : List (String × Value)) :
    Except String Value :=
  match Assoc.lookup "credential" protocol with
  | none => .error s!"external outbound snapshot {tenant}/{id} is missing credential"
  | some credential => .ok credential

/-- The options are sealed. -/
def sealVlessOptions (outbound : Value) : Pass Value :=
  if protocolTag outbound ≠ some "vless" then pure outbound
  else do
    let ((tenant, id), protocol) ← Drawing.ofExcept (vlessOptions outbound)
    let credential ← Drawing.ofExcept (vlessCredential tenant id protocol)
    let plaintext := text.print (Assoc.erase "credential" protocol)
    let sealed ← sealText aead (externalOutboundOptionsContext tenant id) plaintext
    pure (putBody outbound (.obj [("credential", credential), ("options_sealed", .str sealed)]))

/-- The options are opened. -/
def openVlessOptions (outbound : Value) : Pass Value :=
  if protocolTag outbound ≠ some "vless" then pure outbound
  else do
    let ((tenant, id), protocol) ← Drawing.ofExcept (vlessOptions outbound)
    let rest := Assoc.erase "options_sealed" protocol
    match (Assoc.lookup "options_sealed" protocol).bind Value.asStr? with
    -- written before the options were sealed
    | none => pure (putBody outbound (.obj rest))
    | some sealed => do
        let credential ← Drawing.ofExcept (vlessCredential tenant id rest)
        let plaintext ← openText aead (externalOutboundOptionsContext tenant id) sealed
        let options ← Drawing.ofExcept (text.parse plaintext)
        pure (putBody outbound (.obj (Assoc.insert "credential" credential options)))

/-! #### Credentials -/

section
variable (transform : String → String → Pass String)

/-- The credential of an outbound. -/
def transformCredential (tenant id : String) (outbound : Value) : Pass Value :=
  match protocolBody outbound with
  | none => missing
  | some body =>
    match memberText body "credential" with
    | none => missing
    | some credential => do
        let transformed ← transform (externalOutboundContext tenant id) credential
        pure (putBody outbound (body.put "credential" (.str transformed)))
where
  /-- Managed outbounds have no credential of their own. -/
  missing : Pass Value :=
    if protocolTag outbound = some "warp" ∨ protocolTag outbound = some "vpngate" then
      pure outbound
    else throw s!"external outbound snapshot {tenant}/{id} is missing credential"

/-- The key of a binding. -/
def transformBinding (tenant id : String) (binding : Value) : Pass Value :=
  match memberText binding "node" with
  | none => throw s!"external outbound snapshot {tenant}/{id} has a binding without node"
  | some node =>
    match memberText binding "private_key" with
    | none => throw s!"external outbound snapshot {tenant}/{id}/{node} is missing private_key"
    | some privateKey => do
        let transformed ← transform (externalOutboundBindingKeyContext tenant id node) privateKey
        pure (binding.put "private_key" (.str transformed))

/-- The keys of its bindings. -/
def transformBindings (tenant id : String) (outbound : Value) : Pass Value :=
  match (outbound.get? "bindings").bind Value.asArr? with
  | none => pure outbound
  | some bindings => do
      let bindings ← bindings.mapM (transformBinding transform tenant id)
      pure (outbound.put "bindings" (.arr bindings))

/-- All of an outbound. -/
def transformOutbound (outbound : Value) : Pass Value := do
  let (tenant, id) ← Drawing.ofExcept (externalSnapshotIdentity outbound)
  let outbound ← transformCredential transform tenant id outbound
  transformBindings transform tenant id outbound

end

def sealSnapshotVlessOptions : Value → Pass Value := updateOutbounds (sealVlessOptions aead text)

def openSnapshotVlessOptions : Value → Pass Value := updateOutbounds (openVlessOptions aead text)

/-- The credentials of all. -/
def transformSnapshotExternalCredentials (transform : String → String → Pass String) :
    Value → Pass Value := updateOutbounds (transformOutbound transform)

/-- A snapshot is sealed. -/
def sealSnapshotExternalCredentials (snapshot : Value) : Pass Value := do
  let snapshot ← sealSnapshotVlessOptions aead text snapshot
  transformSnapshotExternalCredentials (sealText aead) snapshot

/-- A snapshot is opened. -/
def openSnapshotExternalCredentials (snapshot : Value) : Pass Value := do
  let snapshot ← openSnapshotVlessOptions aead text snapshot
  transformSnapshotExternalCredentials (openText aead) snapshot

/-! ### What is sealed in a document -/

/-- The sealed values of a binding. -/
def bindingSlots (tenant id : String) (binding : Value) : List (Slot × String) :=
  match memberText binding "node", memberText binding "private_key" with
  | some node, some key => [(.bindingKey tenant id node, key)]
  | _, _ => []

/-- The sealed options of a VLESS outbound. -/
def optionsSlots (tenant id : String) (outbound : Value) : List (Slot × String) :=
  if protocolTag outbound = some "vless" then
    (((protocolBody outbound).bind fun body => memberText body "options_sealed").map fun sealed =>
      (.options tenant id, sealed)).toList
  else []

/-- The credential's place. -/
def credentialSlots (tenant id : String) (outbound : Value) : List (Slot × String) :=
  (((protocolBody outbound).bind fun body => memberText body "credential").map fun credential =>
    (.credential tenant id, credential)).toList

/-- The places of an outbound. -/
def outboundSlots (outbound : Value) : List (Slot × String) :=
  match externalSnapshotIdentity outbound with
  | .error _ => []
  | .ok (tenant, id) =>
    optionsSlots tenant id outbound ++ credentialSlots tenant id outbound
      ++ (((outbound.get? "bindings").bind Value.asArr?).getD []).flatMap
        (bindingSlots tenant id)

/-- The values that opening a document reads, with the places they are in. -/
def slots (snapshot : Value) : List (Slot × String) :=
  (((snapshot.get? "external_outbounds").bind Value.asArr?).getD []).flatMap outboundSlots

end Brocade.Secrets
