/-
Deciding whether a config change can be installed into a running xray.

`hotSwap` compares two configurations and either plans the change as a sequence of
runtime operations (outbounds added and removed, the routing table reloaded whole)
or refuses it, which costs a restart.  It is conservative: any difference outside
`outbounds` and `routing.rules`, any change of the default outbound and any
same-tag change other than a VLESS endpoint is refused.

A same-tag change cannot be expressed as one operation, because a tag has to be
removed before it can be added again.  `endpointSwapPlan` bridges that gap: every
changed outbound gets a temporary alias, and a bridge rule table sends its traffic
there while the tag itself is being replaced.

The configurations here are the parsed ones; indexing that panics in the original
is kept apart from a refusal as `Outcome.panicked`.
-/
import Brocade.Lib.Json

namespace Brocade.Hotswap

open Json

/-- How deciding on a swap ends. -/
inductive Outcome (α : Type) where
  | done (a : α)
  | refused
  | panicked

namespace Outcome

variable {α β : Type}

def bind (x : Outcome α) (f : α → Outcome β) : Outcome β :=
  match x with
  | done a => f a
  | refused => refused
  | panicked => panicked

instance : Monad Outcome where
  pure := done
  bind := bind

/-- The `?` operator on an option. -/
def orRefuse : Option α → Outcome α
  | some a => done a
  | none => refused

/-- An `expect`, or an indexed assignment. -/
def orPanic : Option α → Outcome α
  | some a => done a
  | none => panicked

/-- A `return None` under a condition. -/
def refuseIf (c : Prop) [Decidable c] : Outcome Unit := if c then refused else done ()

@[simp] theorem pure_eq_done (a b : α) : (pure a : Outcome α) = done b ↔ a = b := by
  show done a = done b ↔ a = b
  simp

@[simp] theorem bind_eq_done {x : Outcome α} {f : α → Outcome β} {b : β} :
    (x >>= f) = done b ↔ ∃ a, x = done a ∧ f a = done b := by
  show bind x f = done b ↔ _
  cases x <;> simp [bind]

@[simp] theorem map_eq_done {x : Outcome α} {f : α → β} {b : β} :
    f <$> x = done b ↔ ∃ a, x = done a ∧ f a = b := by
  show bind x (fun a => done (f a)) = done b ↔ _
  cases x <;> simp [bind]

@[simp] theorem orRefuse_eq_done {o : Option α} {a : α} : orRefuse o = done a ↔ o = some a := by
  cases o <;> simp [orRefuse]

@[simp] theorem orPanic_eq_done {o : Option α} {a : α} : orPanic o = done a ↔ o = some a := by
  cases o <;> simp [orPanic]

@[simp] theorem refuseIf_eq_done {c : Prop} [Decidable c] {u : Unit} :
    refuseIf c = done u ↔ ¬ c := by
  by_cases h : c <;> simp [refuseIf, h]

instance : LawfulMonad Outcome := LawfulMonad.mk' Outcome
  (by intro α x; cases x <;> rfl) (by intros; rfl)
  (by intro α β γ x f g; cases x <;> rfl)

theorem mapM_eq_done {f : α → Outcome β} {as : List α} {bs : List β} :
    as.mapM f = done bs ↔ List.Forall₂ (fun a b => f a = done b) as bs := by
  induction as generalizing bs with
  | nil =>
    rw [List.mapM_nil, pure_eq_done]
    constructor
    · rintro rfl
      exact List.Forall₂.nil
    · intro h
      cases h
      rfl
  | cons a as ih =>
    simp only [List.mapM_cons, bind_eq_done, pure_eq_done]
    constructor
    · rintro ⟨b, hb, rest, hrest, rfl⟩
      exact List.Forall₂.cons hb (ih.mp hrest)
    · intro h
      cases h with
      | cons hb hrest => exact ⟨_, hb, _, ih.mpr hrest, rfl⟩

theorem forM_eq_done {f : α → Outcome Unit} {as : List α} :
    as.forM f = done () ↔ ∀ a ∈ as, f a = done () := by
  induction as with
  | nil => simp
  | cons a as ih =>
    show (f a >>= fun _ => as.forM f) = done () ↔ _
    rw [bind_eq_done, List.forall_mem_cons, ← ih]
    exact ⟨fun ⟨_, ha, has⟩ => ⟨ha, has⟩, fun ⟨ha, has⟩ => ⟨(), ha, has⟩⟩

end Outcome

open Outcome

/-- The members of a JSON object. -/
abbrev Fields := List (String × Value)

/-- A bounded, reusable runtime alias. -/
def ENDPOINT_SWAP_SUFFIX : String := "~brocade-endpoint-swap"

def ENDPOINT_RULE_PREFIX : String := "brocade:endpoint-swap:"

def LEGACY_HOP_HEALTH_BALANCER_TAG : String := "hop-health"

def NEVER_MATCH_DOMAIN : String := "full:invalid.brocade.never-match"

/-- A runtime operation of xray. -/
inductive Operation where
  | addOutbounds (outbounds : List Value)
  | removeOutbounds (tags : List String)
  | reloadRouting (routing : Value)

/-- The outbounds that change, and what stands in for them. -/
structure EndpointSwap where
  (outbounds bridgeOutbounds bridgeRules : List Value)

/-- What one xray can be made to accept without being restarted. -/
structure HotSwap where
  addOutbounds : List Value
  removeOutbounds : List String
  reloadRouting : Option Value
  endpointSwap : Option EndpointSwap

/-- The tag of an outbound. -/
def tag? (outbound : Value) : Option String := (outbound.get? "tag").bind Value.asStr?

/-- Every entry's string under `key`. -/
def tagsOf (entries : List Value) (key : String) : Option (List String) :=
  entries.mapM fun entry => (entry.field key).asStr?

/-- All mutations in dependency order. -/
def HotSwap.operations (self : HotSwap) : Outcome (List Operation) := do
  let additions := if self.addOutbounds.isEmpty then [] else [.addOutbounds self.addOutbounds]
  let removals :=
    if self.removeOutbounds.isEmpty then [] else [.removeOutbounds self.removeOutbounds]
  match self.endpointSwap with
  | some swap =>
    let routing ← orPanic self.reloadRouting
    let bridge ← orPanic (routing.set? "rules" (.arr swap.bridgeRules))
    let replaced ← orPanic (tagsOf swap.outbounds "tag")
    let aliases ← orPanic (tagsOf swap.bridgeOutbounds "tag")
    return additions ++
      [.addOutbounds swap.bridgeOutbounds, .reloadRouting bridge, .removeOutbounds replaced,
        .addOutbounds swap.outbounds, .reloadRouting routing, .removeOutbounds aliases] ++
      removals
  | none =>
    let reloads := match self.reloadRouting with
      | some routing => [.reloadRouting routing]
      | none => []
    return additions ++ reloads ++ removals

/-! ### What may differ -/

/-- The part of a member that a swap cannot speak about. -/
def untouched (config : Fields) (key : String) : Option Value :=
  if key = "outbounds" then none
  else if key = "routing" then do
    let routing ← (← Assoc.lookup key config).asObj?
    return .obj (Assoc.erase "rules" routing)
  else some ((Assoc.lookup key config).getD .null)

/-- Enter one outbound under its tag, which has to be there, non-empty and new. -/
def insertTagged (tagged : OrdMap String Value) (entry : Value) :
    Option (OrdMap String Value) := do
  let tag ← tag? entry
  if tag = "" ∨ tagged.contains tag then none else some (tagged.insert tag entry)

/-- The entries of a list member by tag. -/
def byTag (config : Fields) (key : String) : Option (OrdMap String Value) := do
  let entries ← (← Assoc.lookup key config).asArr?
  entries.foldlM insertTagged .empty

/-- The tag of the first outbound, the one xray sends anything no rule matched to. -/
def head (config : Fields) : Option String := do
  let outbounds ← (← Assoc.lookup "outbounds" config).asArr?
  tag? (← outbounds.head?)

def rules (config : Fields) : Option (List Value) := do
  (← (← Assoc.lookup "routing" config).get? "rules").asArr?

/-- Non-empty rule tags are distinct; `seen` holds those of the rules before. -/
def validTags : List String → List Value → Bool
  | _, [] => true
  | seen, rule :: rest =>
    match rule.get? "ruleTag" with
    | some (.str tag) =>
      if tag = "" then validTags seen rest
      else !seen.contains tag && validTags (tag :: seen) rest
    | none | some .null => validTags seen rest
    | _ => false

def isWireguard (outbound : Value) : Bool :=
  (outbound.get? "protocol").bind Value.asStr? = some "wireguard"

/-! ### Replacing an endpoint under one tag -/

/-- The outbound's `settings.vnext` list. -/
def vnext (outbound : Value) : Option (List Value) := do
  (← (← outbound.get? "settings").get? "vnext").asArr?

/-- Both outbounds are VLESS and differ in the address and port of their only server. -/
def vlessEndpointOnly (before after : Value) : Outcome Bool :=
  if before.field "protocol" ≠ .str "vless" ∨ after.field "protocol" ≠ .str "vless" then
    return false
  else
    match vnext before, vnext after with
    | some [server], some [_] =>
      match (server.field "users").asArr? with
      | none => return false
      | some users =>
        if users.any fun user => (user.get? "reverse").isSome then return false
        else do
          let path := [Value.Step.key "settings", .key "vnext", .index 0]
          let normalized ←
            orPanic (after.assign? (path ++ [.key "address"]) (server.field "address"))
          let normalized ←
            orPanic (normalized.assign? (path ++ [.key "port"]) (server.field "port"))
          return decide (normalized = before)
    | _, _ => return false

mutual

/-- Some outbound other than a rule's own names a changed tag. -/
def hasIndirectReference (changed : OrdMap String Value) : Value → Bool
  | .obj fields =>
    let names := fun (v : Option Value) =>
      match v.bind Value.asStr? with
      | some tag => changed.contains tag
      | none => false
    names ((Assoc.lookup "proxySettings" fields).bind (·.get? "tag"))
      || ["dialerProxy", "outboundTag"].any (fun key => names (Assoc.lookup key fields))
      || fieldsHaveIndirectReference changed fields
  | .arr items => itemsHaveIndirectReference changed items
  | _ => false

def itemsHaveIndirectReference (changed : OrdMap String Value) : List Value → Bool
  | [] => false
  | v :: rest => hasIndirectReference changed v || itemsHaveIndirectReference changed rest

def fieldsHaveIndirectReference (changed : OrdMap String Value) : Fields → Bool
  | [] => false
  | (_, v) :: rest => hasIndirectReference changed v || fieldsHaveIndirectReference changed rest

end

/-- A balancer whose selection or fallback would see a changed outbound, other than the
monitoring-only balancer of older revisions.  Refuses a selector that is not a list. -/
def checkBalancer (changed : OrdMap String Value) (allRules : List Value) (balancer : Value) :
    Outcome Unit := do
  let selector ← orRefuse (balancer.field "selector").asArr?
  let referencesChanged :=
    selector.any (fun entry =>
      match entry.asStr? with
      | some pre => changed.keys.any fun tag => pre.toList.isPrefixOf tag.toList
      | none => false)
    || (match (balancer.field "fallbackTag").asStr? with
      | some tag => changed.contains tag
      | none => false)
  refuseIf <| referencesChanged && (decide (balancer.field "tag" ≠ .str LEGACY_HOP_HEALTH_BALANCER_TAG)
      || (balancer.get? "fallbackTag").isSome
      || allRules.any fun rule =>
      decide (rule.field "balancerTag" = .str LEGACY_HOP_HEALTH_BALANCER_TAG)
        && decide (rule.field "domain" ≠ .arr [.str NEVER_MATCH_DOMAIN]))

/-- One side's reasons against bridging. -/
def checkConfig (changed : OrdMap String Value) (allRules : List Value) (config : Fields) :
    Outcome Unit := do
  refuseIf <| config.any fun e => decide (e.1 ≠ "routing") && hasIndirectReference changed e.2
  let outbounds ← orRefuse ((← orRefuse (Assoc.lookup "outbounds" config)).asArr?)
  outbounds.forM fun outbound => do
    let tag ← orRefuse (outbound.field "tag").asStr?
    refuseIf <| ENDPOINT_SWAP_SUFFIX.toList.isSuffixOf tag.toList
  let routing ← orRefuse (Assoc.lookup "routing" config)
  match (routing.get? "balancers").bind Value.asArr? with
  | some balancers => balancers.forM (checkBalancer changed allRules)
  | none => return ()

/-- The temporary alias of a changed outbound. -/
def bridgeOutbound (outbound : Value) : Outcome Value := do
  let tag ← orPanic (outbound.field "tag").asStr?
  orPanic (outbound.set? "tag" (.str (tag ++ ENDPOINT_SWAP_SUFFIX)))

/-- A desired rule while the changed outbounds are away. -/
def bridgeRule (changed : OrdMap String Value) (index : Nat) (rule : Value) : Outcome Value := do
  let bridge ← orPanic (rule.set? "ruleTag" (.str (ENDPOINT_RULE_PREFIX ++ toString index)))
  match (rule.field "outboundTag").asStr? with
  | some tag =>
    if changed.contains tag then
      orPanic (bridge.set? "outboundTag" (.str (tag ++ ENDPOINT_SWAP_SUFFIX)))
    else return bridge
  | none => return bridge

/-- The bridge table, rule by rule from position `index`. -/
def bridgeRules (changed : OrdMap String Value) : Nat → List Value → Outcome (List Value)
  | _, [] => return []
  | index, rule :: rest => do
      let bridge ← bridgeRule changed index rule
      return bridge :: (← bridgeRules changed (index + 1) rest)

/-- Whether the endpoints can be swapped, and how. -/
def endpointSwapPlan (before after : Fields) (changed : OrdMap String Value)
    (beforeRules afterRules : List Value) : Outcome EndpointSwap := do
  -- an implicit default selection cannot be redirected through a temporary alias
  refuseIf <| beforeRules.isEmpty || afterRules.isEmpty
  checkConfig changed (beforeRules ++ afterRules) before
  checkConfig changed (beforeRules ++ afterRules) after
  refuseIf <| (beforeRules ++ afterRules).any fun rule =>
    match (rule.field "ruleTag").asStr? with
    | some tag => ENDPOINT_RULE_PREFIX.toList.isPrefixOf tag.toList
    | none => false
  let bridgeOutbounds ← changed.values.mapM bridgeOutbound
  let bridgeRules ← bridgeRules changed 0 afterRules
  return { outbounds := changed.values, bridgeOutbounds, bridgeRules }

/-! ### The decision -/

/-- The outbounds that keep their tag and change their value. -/
def changedOutbounds (beforeOutbounds afterOutbounds : OrdMap String Value) :
    OrdMap String Value :=
  afterOutbounds.filter fun e =>
    match beforeOutbounds.get? e.1 with
    | some old => decide (old ≠ e.2)
    | none => false

/-- Every same-tag change is one that a temporary alias can carry. -/
def checkChanged (beforeOutbounds : OrdMap String Value) (first : String) :
    List (String × Value) → Outcome Unit
  | [] => return ()
  | (tag, outbound) :: rest => do
      refuseIf (tag = first)
      let old ← orPanic (beforeOutbounds.get? tag)
      refuseIf ((← vlessEndpointOnly old outbound) = false)
      checkChanged beforeOutbounds first rest

/-- **The swap from one configuration to another, if a running xray can make it.** -/
def hotSwap (previous desired : Value) : Outcome HotSwap := do
  let before ← orRefuse previous.asObj?
  let after ← orRefuse desired.asObj?
  refuseIf <| (before ++ after).any fun e => decide (untouched before e.1 ≠ untouched after e.1)
  let beforeOutbounds ← orRefuse (byTag before "outbounds")
  let afterOutbounds ← orRefuse (byTag after "outbounds")
  let first ← orRefuse (head before)
  refuseIf (first ≠ (← orRefuse (head after)))
  let changed := changedOutbounds beforeOutbounds afterOutbounds
  checkChanged beforeOutbounds first changed.entries
  let added := afterOutbounds.filter fun e => !beforeOutbounds.contains e.1
  let removed := beforeOutbounds.filter fun e => !afterOutbounds.contains e.1
  refuseIf <| added.values.any isWireguard || removed.values.any isWireguard
  let beforeRules ← orRefuse (rules before)
  let afterRules ← orRefuse (rules after)
  refuseIf (validTags [] afterRules = false)
  let endpointSwap ← (
    if changed.isEmpty then pure none
    else some <$> endpointSwapPlan before after changed beforeRules afterRules)
  let reloadRouting ← (
    if beforeRules = afterRules ∧ endpointSwap.isNone then pure none
    else some <$> orRefuse (Assoc.lookup "routing" after))
  return {
    addOutbounds := added.values
    removeOutbounds := removed.keys
    reloadRouting
    endpointSwap }

end Brocade.Hotswap
