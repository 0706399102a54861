/-
The xray that a swap is applied to.

Two things of a running kernel matter here: the outbounds installed in it, in order
of installation, and its routing configuration.  An operation on a tag that is
already installed, or on one that is not, is rejected by the kernel, so `execute?`
fails there; nothing else about the kernel changes.

A request is routed by the first rule whose conditions hold.  What those conditions
are is not modelled: `accepts` is any predicate on a request and the members of a
rule other than its own tag and its outbound's.  A rule sends to an outbound or to a
balancer, and a request no rule takes goes to the first outbound installed.
-/
import Brocade.Lib.Registry
import Brocade.Lib.Steps
import Brocade.Hotswap.Plan

namespace Brocade.Hotswap

open Json

/-- A running xray. -/
structure Kernel where
  outbounds : List Value
  routing : Value

namespace Kernel

/-- The state a kernel started on this configuration is in. -/
def ofConfig (config : Value) : Kernel where
  outbounds := (config.field "outbounds").asArr?.getD []
  routing := config.field "routing"

def installed (k : Kernel) (tag : String) : Option Value := Registry.find? tag? tag k.outbounds

def rules (k : Kernel) : List Value := (k.routing.field "rules").asArr?.getD []

/-- One runtime operation; `none` where the kernel rejects it. -/
def execute? (k : Kernel) : Operation → Option Kernel
  | .addOutbounds outbounds =>
    (outbounds.foldlM (Registry.add? tag?) k.outbounds).map ({ k with outbounds := · })
  | .removeOutbounds tags =>
    (tags.foldlM (Registry.remove? tag?) k.outbounds).map ({ k with outbounds := · })
  | .reloadRouting routing => some { k with routing }

end Kernel

/-! ### Routing a request -/

/-- Where a rule table sends a request. -/
inductive Destination where
  | outbound (tag : String)
  | balancer (tag : String)
  | default
  | invalid

/-- What a rule's conditions are read from: all its members but the two tags. -/
def conditions : Value → Fields
  | .obj fields => fields.filter fun e => decide (e.1 ≠ "ruleTag") && decide (e.1 ≠ "outboundTag")
  | _ => []

/-- A rule's string under `key`; an empty one counts as absent. -/
def ruleName (rule : Value) (key : String) : Option String :=
  (rule.field key).asStr?.filter fun tag => decide (tag ≠ "")

/-- An outbound tag wins over a balancer's. -/
def ruleTarget (rule : Value) : Destination :=
  match ruleName rule "outboundTag", ruleName rule "balancerTag" with
  | some tag, _ => .outbound tag
  | none, some tag => .balancer tag
  | none, none => .invalid

/-- The verdict of a rule table: its first accepting rule's target. -/
def verdict {Request : Type} (accepts : Request → Fields → Bool) (rules : List Value)
    (request : Request) : Destination :=
  match rules.find? fun rule => accepts request (conditions rule) with
  | some rule => ruleTarget rule
  | none => .default

/-- Where the kernel hands a request over: an installed outbound, if the tag names
one, or a balancer. -/
inductive Handler where
  | outbound (outbound : Option Value)
  | balancer (tag : String)
  | invalid

/-- What a destination comes to. -/
def Kernel.handler (k : Kernel) : Destination → Handler
  | .outbound tag => .outbound (k.installed tag)
  | .balancer tag => .balancer tag
  | .default => .outbound k.outbounds.head?
  | .invalid => .invalid

/-- Where a request goes. -/
def Kernel.route {Request : Type} (k : Kernel) (accepts : Request → Fields → Bool)
    (request : Request) : Handler :=
  k.handler (verdict accepts k.rules request)

/-! ### What a swap must not break -/

/-- Every rule that names an outbound names one of the given ones. -/
def NamesOnly (installed : String → Option Value) (rules : List Value) : Prop :=
  ∀ rule ∈ rules, ∀ tag, rule.field "outboundTag" = .str tag → installed tag ≠ none

instance (installed : String → Option Value) (rules : List Value) :
    Decidable (NamesOnly installed rules) :=
  decidable_of_iff
    (∀ rule ∈ rules, ∀ tag ∈ (rule.field "outboundTag").asStr?, installed tag ≠ none)
    (by simp [NamesOnly])

/-- `a` is the temporary alias of the outbound `o`: the same but for its tag. -/
def IsAlias (a o : Value) : Prop :=
  ∃ tag, o.field "tag" = .str tag ∧ o.set? "tag" (.str (tag ++ ENDPOINT_SWAP_SUFFIX)) = some a

/-- The handler is the one `desired` names, or the alias of a replaced outbound
(`old` under the same tag before) in its place. -/
def Serves (previous : Kernel) (actual desired : Handler) : Prop :=
  actual = desired ∨
    ∃ a o tag old, actual = .outbound (some a) ∧ desired = .outbound (some o) ∧ IsAlias a o ∧
      tag? o = some tag ∧ previous.installed tag = some old ∧ old ≠ o

/-- A state in which live traffic is carried as before the swap or as after it. -/
structure Safe (previous desired k : Kernel) : Prop where
  /-- the default outbound is still the one installed first, unchanged -/
  first : k.outbounds.head? = previous.outbounds.head?
  defined : NamesOnly k.installed k.rules
  routed : ∀ {Request : Type} (accepts : Request → Fields → Bool) (request : Request),
    k.route accepts request = previous.route accepts request ∨
      Serves previous (k.route accepts request) (desired.route accepts request)
  /-- balancers and everything else of the routing are untouched -/
  rest : ∀ key, key ≠ "rules" → k.routing.get? key = previous.routing.get? key

end Brocade.Hotswap
