/-
Outbounds with their parts replaced.

Both passes, in both directions, leave an outbound as it was except for the body of its protocol
and its machines.  `refit` is the outbound with these two replaced; what a pass does to a refitted
outbound is again a refitted one, and refitting one with its own parts changes nothing.
-/
import Brocade.Secrets.Envelope

namespace Brocade.Secrets

open Json

/-- The machines of an outbound. -/
def bindingsOf (outbound : Value) : Option (List Value) :=
  (outbound.get? "bindings").bind Value.asArr?

/-- An outbound whose members stand in order, down to the body of its protocol. -/
structure Framed (outbound : Value) (body : List (String × Value)) : Prop where
  ordered : outbound.Ordered
  protocolOrdered : ∀ protocol, outbound.get? "protocol" = some protocol → protocol.Ordered
  bodyOrdered : Assoc.Sorted body
  body_eq : protocolBody outbound = some (.obj body)

/-- An outbound with another body and, where it has machines, other machines. -/
def refit (outbound : Value) (body : List (String × Value)) (bindings : Option (List Value)) :
    Value :=
  match bindings with
  | none => putBody outbound (.obj body)
  | some bindings => (putBody outbound (.obj body)).put "bindings" (.arr bindings)

section
variable (outbound : Value) (body : List (String × Value)) (bindings : Option (List Value))

theorem get?_refit_ne {k : String} (hprotocol : k ≠ "protocol") (hbindings : k ≠ "bindings") :
    (refit outbound body bindings).get? k = outbound.get? k := by
  cases bindings with
  | none => exact get?_putBody_ne outbound _ hprotocol
  | some bindings =>
    rw [refit, Value.get?_put_ne _ _ hbindings, get?_putBody_ne outbound _ hprotocol]

theorem get?_refit_protocol : (refit outbound body bindings).get? "protocol"
      = (putBody outbound (.obj body)).get? "protocol" := by
  cases bindings with
  | none => rfl
  | some bindings => exact Value.get?_put_ne _ _ (by decide)

theorem protocolTag_refit : protocolTag (refit outbound body bindings) = protocolTag outbound := by
  rw [protocolTag, get?_refit_protocol, ← protocolTag, protocolTag_putBody]

theorem protocolBody_refit {outbound v : Value} (hbody : protocolBody outbound = some v)
    (body : List (String × Value)) (bindings : Option (List Value)) :
    protocolBody (refit outbound body bindings) = some (.obj body) := by
  rw [protocolBody, get?_refit_protocol, ← protocolBody, protocolBody_putBody hbody]

theorem externalSnapshotIdentity_refit : externalSnapshotIdentity (refit outbound body bindings)
      = externalSnapshotIdentity outbound := by
  have htenant := get?_refit_ne outbound body bindings (k := "tenant") (by decide) (by decide)
  have hid := get?_refit_ne outbound body bindings (k := "id") (by decide) (by decide)
  simp only [externalSnapshotIdentity, memberText, htenant, hid]

end

theorem ordered_putBody {outbound : Value} (h : outbound.Ordered) (body : Value) :
    (putBody outbound body).Ordered := by
  unfold putBody
  split
  · exact Value.ordered_put h _ _
  · exact h

theorem putBody_put {outbound : Value} (h : outbound.Ordered) (bindings body : Value) :
    putBody (outbound.put "bindings" bindings) body
      = (putBody outbound body).put "bindings" bindings := by
  have hprotocol : (outbound.put "bindings" bindings).get? "protocol" = outbound.get? "protocol" :=
    Value.get?_put_ne _ _ (by decide)
  unfold putBody
  rw [hprotocol]
  split
  · exact Value.put_comm h (by decide) _ _
  · rfl

namespace Framed

variable {outbound : Value} {body : List (String × Value)}

section

variable (h : Framed outbound body)

include h

theorem exists_protocol : ∃ protocol,
    outbound.get? "protocol" = some protocol ∧ protocol.get? "v" = some (.obj body) :=
  Option.bind_eq_some_iff.mp h.body_eq

theorem putBody_putBody (b b' : Value) : putBody (putBody outbound b) b' = putBody outbound b' := by
  obtain ⟨protocol, hprotocol, _⟩ := h.exists_protocol
  have hput : putBody outbound b = outbound.put "protocol" (protocol.put "v" b) := by
    simp only [putBody, hprotocol]
  have hget := get?_putBody b hprotocol
  calc putBody (putBody outbound b) b'
      = (putBody outbound b).put "protocol" ((protocol.put "v" b).put "v" b') := by
        rw [putBody.eq_1 (putBody outbound b), hget]
    _ = outbound.put "protocol" (protocol.put "v" b') := by
        rw [Value.put_put (h.protocolOrdered protocol hprotocol), hput, Value.put_put h.ordered]
    _ = putBody outbound b' := by
        simp only [putBody, hprotocol]

theorem putBody_refit (b b' : List (String × Value)) (bindings : Option (List Value)) :
    putBody (refit outbound b bindings) (.obj b') = refit outbound b' bindings := by
  cases bindings with
  | none => exact h.putBody_putBody _ _
  | some bindings => rw [refit, putBody_put (ordered_putBody h.ordered _), h.putBody_putBody, refit]

theorem put_refit (b : List (String × Value)) (bs bs' : List Value) :
    (refit outbound b (some bs)).put "bindings" (.arr bs') = refit outbound b (some bs') :=
  Value.put_put (ordered_putBody h.ordered _) _ _ _

theorem bindingsOf_refit_some (b : List (String × Value)) (bs : List Value) :
    bindingsOf (refit outbound b (some bs)) = some bs := by
  obtain ⟨protocol, hprotocol, _⟩ := h.exists_protocol
  have hget := Value.get?_put_self (get?_putBody (.obj b) hprotocol) "bindings" (.arr bs)
  rw [bindingsOf, refit, hget]
  rfl

end

theorem bindingsOf_refit_none (outbound : Value) (b : List (String × Value)) :
    bindingsOf (refit outbound b none) = bindingsOf outbound := by
  rw [bindingsOf, refit, get?_putBody_ne outbound _ (by decide), bindingsOf]

theorem refit_self (h : Framed outbound body) :
    refit outbound body (bindingsOf outbound) = outbound := by
  obtain ⟨protocol, hprotocol, hv⟩ := h.exists_protocol
  have hsame : putBody outbound (.obj body) = outbound := by
    simp only [putBody, hprotocol]
    rw [Value.put_get? (h.protocolOrdered protocol hprotocol) hv,
      Value.put_get? h.ordered hprotocol]
  cases hbindings : bindingsOf outbound with
  | none => exact hsame
  | some bs =>
    obtain ⟨value, hget, harr⟩ := Option.bind_eq_some_iff.mp hbindings
    rw [Value.asArr?_eq_some] at harr
    rw [refit, hsame, Value.put_get? h.ordered (by rw [hget, harr])]

end Framed

end Brocade.Secrets
