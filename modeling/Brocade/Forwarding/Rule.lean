/-
Forwarding rules as a machine is told of them, and which targets they may have.

A rule takes a port of a machine for tcp, udp or both and hands its traffic to a target.  A
target spelled as an address must not lie in a blocked network; an entitlement can open the
private networks among them, and no others.  A target spelled as a name is checked where it
is dialled.
-/
import Brocade.Lib.Ip

namespace Brocade.Forwarding

/-- The transports of a rule. -/
inductive ForwardingProtocol where
  | tcp
  | udp
  | tcpUdp
deriving DecidableEq

namespace ForwardingProtocol

def usesTcp : ForwardingProtocol → Bool
  | .tcp | .tcpUdp => true
  | .udp => false

def usesUdp : ForwardingProtocol → Bool
  | .udp | .tcpUdp => true
  | .tcp => false

/-- Both take the same transport. -/
def overlaps (a b : ForwardingProtocol) : Bool :=
  (a.usesTcp && b.usesTcp) || (a.usesUdp && b.usesUdp)

end ForwardingProtocol

/-- A rule as the agent is to install it. -/
structure ForwardingRuleDesired where
  id : ℤ
  protocol : ForwardingProtocol
  listenPort : ℕ
  targetHost : String
  targetPort : ℕ
  /-- missing from an old control plane: public targets only, and no proof of more -/
  allowPrivateTargets : Option Bool
deriving DecidableEq

/-- All rules of a machine, under the counter they were read at. -/
structure ForwardingDesiredState where
  generation : ℤ
  rules : List ForwardingRuleDesired
deriving DecidableEq

/-- What became of one rule. -/
structure ForwardingRuleReconcileResult where
  rule : ForwardingRuleDesired
  applied : Bool
  error : Option String

/-- An agent's report of a round. -/
structure ForwardingReconcileReport where
  generation : ℤ
  appliedRuleIds : List ℤ
  error : Option String
  ruleResults : Option (List ForwardingRuleReconcileResult)

/-! ### Targets -/

/-- Nothing is forwarded there. -/
def BLOCKED_TARGET_CIDRS : List String :=
  ["0.0.0.0/8", "10.0.0.0/8", "100.64.0.0/10", "100.100.100.200/32", "127.0.0.0/8",
    "169.254.0.0/16", "172.16.0.0/12", "192.0.0.0/24", "192.0.2.0/24", "192.88.99.0/24",
    "192.168.0.0/16", "198.18.0.0/15", "198.51.100.0/24", "203.0.113.0/24", "224.0.0.0/3",
    "::/127", "2001:db8::/32", "fc00::/7", "fd00:ec2::254/128", "fe80::/10", "ff00::/8"]

/-- The blocked networks an entitlement can open. -/
def PRIVATE_TARGET_CIDRS : List String :=
  ["10.0.0.0/8", "100.64.0.0/10", "172.16.0.0/12", "192.168.0.0/16", "fc00::/7"]

/-- Whether a rule may not dial the address. -/
def targetIpIsBlockedByPolicy (address : Ip.Addr) (allowPrivateTargets : Bool) : Bool :=
  BLOCKED_TARGET_CIDRS.any fun cidr =>
    (Ip.Net.parse? cidr).any (·.contains address.canonical)
      && (!allowPrivateTargets || decide (cidr ∉ PRIVATE_TARGET_CIDRS))

def targetIpIsBlocked (address : Ip.Addr) : Bool := targetIpIsBlockedByPolicy address false

/-- Without the brackets around it. -/
def trimBrackets (host : String) : String :=
  let isBracket := fun c : Char => c = '[' || c = ']'
  String.ofList ((host.toList.dropWhile isBracket).reverse.dropWhile isBracket).reverse

/-- A target spelled as an address that the policy blocks. -/
def blockedTarget (host : String) (allowPrivateTargets : Bool) : Bool :=
  (Ip.parse (trimBrackets host)).any (targetIpIsBlockedByPolicy · allowPrivateTargets)

def targetHostIsPublicIp (host : String) : Bool :=
  (Ip.parse (trimBrackets host)).any fun address => !targetIpIsBlocked address

theorem blockedTarget_mono {host : String} (h : blockedTarget host true = true) :
    blockedTarget host false = true := by
  unfold blockedTarget at h ⊢
  cases hparse : Ip.parse (trimBrackets host) with
  | none =>
    rw [hparse] at h
    cases h
  | some address =>
    rw [hparse, Option.any_some, targetIpIsBlockedByPolicy, List.any_eq_true] at h
    obtain ⟨cidr, hcidr, hin⟩ := h
    rw [Option.any_some, targetIpIsBlockedByPolicy, List.any_eq_true]
    exact ⟨cidr, hcidr, by simp [(Bool.and_eq_true_iff.mp hin).1]⟩

theorem not_blocked_of_public {host : String} (h : targetHostIsPublicIp host = true)
    (allowPrivateTargets : Bool) : blockedTarget host allowPrivateTargets = false := by
  have hfalse : blockedTarget host false = false := by
    unfold targetHostIsPublicIp at h
    unfold blockedTarget
    cases hparse : Ip.parse (trimBrackets host) with
    | none => rfl
    | some address =>
      rw [hparse, Option.any_some] at h
      simpa [targetIpIsBlocked] using h
  cases allowPrivateTargets with
  | false => exact hfalse
  | true =>
    refine Bool.eq_false_iff.mpr fun htrue => ?_
    rw [blockedTarget_mono htrue] at hfalse
    cases hfalse

example : blockedTarget "127.0.0.1" true ∧ blockedTarget "[::ffff:127.0.0.1]" true
    ∧ blockedTarget "192.168.1.1" false ∧ !blockedTarget "192.168.1.1" true
    ∧ !blockedTarget "localhost" false ∧ targetHostIsPublicIp "1.1.1.1" := by
  decide +kernel

end Brocade.Forwarding
