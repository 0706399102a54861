/-
What the control plane keeps authorized, whoever edits in whatever order.

`Authorized` is what a machine may rely on: a rule has its entitlement, an entitlement has no
more rules than it grants, what is active under it stays within its ports, transports and
address policy, and no port is handed out twice.  Two edits break it.  A disabled rule can be
moved to a machine without any check, and the address policy is asked about a target as it
was sent while the target is stored trimmed.  `authorized_iff` says that nothing else does.
-/
import Brocade.Forwarding.Store
import Brocade.Lib.Steps

namespace Brocade.Forwarding

open Usage (StoreError)

/-! ### What is promised -/

/-- No port of one transport twice. -/
def PortsOnce (rules : List ForwardingRuleDesired) : Prop :=
  rules.Pairwise fun a b => a.listenPort = b.listenPort → a.protocol.overlaps b.protocol = false

/-- What an agent is told to forward is entitled, within its bounds, and clear of itself. -/
structure Authorized (db : Db) : Prop where
  entitled : ∀ id rule, db.rules.get? id = some rule → rule.deleted = false →
    ∃ entitlement, db.entitlements.get? rule.key = some entitlement
  bounded : ∀ key entitlement, db.entitlements.get? key = some entitlement →
    entitlement.enabled = true → ruleCount db key none ≤ entitlement.maxRules
  allowed : ∀ id rule entitlement, db.rules.get? id = some rule → rule.active = true →
    db.entitlements.get? rule.key = some entitlement → entitlement.enabled = true →
    withinGrant entitlement rule.protocol rule.listenPort = true
      ∧ blockedTarget rule.targetHost entitlement.allowPrivateTargets = false
  portsOnce : ∀ nodeId, PortsOnce (desiredForNode db nodeId).2.rules

/-! ### Operations -/

/-- The operations on entitlements and rules. -/
inductive Operation where
  | setEntitlement (actor : AdminContext) (tenantId userId nodeId : String)
      (write : ForwardingEntitlement)
  | deleteEntitlement (actor : AdminContext) (tenantId userId nodeId : String)
  | createRule (out : Surroundings) (actor : AdminContext) (tenantId userId : String)
      (write : ForwardingRuleWrite)
  | updateRule (out : Surroundings) (actor : AdminContext) (tenantId userId : String) (ruleId : ℤ)
      (write : ForwardingRuleWrite)
  | deleteRule (actor : AdminContext) (tenantId userId : String) (ruleId : ℤ)
  | readDesired (nodeId : String)
  /-- other transactions, on accounts, machines and quotas -/
  | elsewhere (users : Table (String × String) UserRow) (nodes : Table String NodeRow)
      (quotas : Table EntitlementKey NodeQuota)

/-- What an operation makes of the tables, or its refusal. -/
def Operation.run (db : Db) : Operation → Except StoreError Db
  | .setEntitlement actor tenantId userId nodeId write =>
    Forwarding.setEntitlement db actor tenantId userId nodeId write
  | .deleteEntitlement actor tenantId userId nodeId =>
    Forwarding.deleteEntitlement db actor tenantId userId nodeId
  | .createRule out actor tenantId userId write =>
    Forwarding.createRule out db actor tenantId userId write
  | .updateRule out actor tenantId userId ruleId write =>
    Forwarding.updateRule out db actor tenantId userId ruleId write
  | .deleteRule actor tenantId userId ruleId => Forwarding.deleteRule db actor tenantId userId ruleId
  | .readDesired nodeId => .ok (desiredForNode db nodeId).1
  | .elsewhere users nodes quotas => .ok { db with users, nodes, quotas }

/-- The policy blocks the target that is stored and not the one that is asked about. -/
def hidesTarget (db : Db) (tenantId userId : String) (write : ForwardingRuleWrite) : Bool :=
  write.enabled && (db.entitlements.get? (tenantId, userId, write.nodeId)).any fun entitlement =>
    blockedTarget (Text.trim write.targetHost) entitlement.allowPrivateTargets
      && !blockedTarget write.targetHost entitlement.allowPrivateTargets

/-- There is an entitlement for one rule more, or one that is not enabled. -/
def hasRoom (db : Db) (key : EntitlementKey) : Bool :=
  (db.entitlements.get? key).any fun entitlement =>
    !entitlement.enabled || decide (ruleCount db key none < entitlement.maxRules)

/-- Neither of the two edits that slip through. -/
def Operation.careful (db : Db) : Operation → Bool
  | .createRule _ _ tenantId userId write => !hidesTarget db tenantId userId write
  | .updateRule _ _ tenantId userId ruleId write =>
    (ownRule db tenantId userId ruleId).all fun previous =>
      !(runtimeChanged previous (write.row tenantId userId) && hidesTarget db tenantId userId write)
        && (write.enabled || decide (write.nodeId = previous.nodeId)
          || hasRoom db (tenantId, userId, write.nodeId))
  | _ => true

/-! ### What always holds -/

/-- Rule identities are fresh, and the unique indexes hold. -/
structure WellFormed (db : Db) : Prop where
  fresh : ∀ id rule, db.rules.get? id = some rule → id < db.nextRuleId
  apart : ∀ id rule id' rule', db.rules.get? id = some rule → db.rules.get? id' = some rule' →
    id ≠ id' → rule.active = true → rule'.active = true → rule.nodeId = rule'.nodeId →
    rule.listenPort = rule'.listenPort → rule.protocol.overlaps rule'.protocol = false

theorem overlaps_comm (a b : ForwardingProtocol) : a.overlaps b = b.overlaps a := by
  cases a <;> cases b <;> rfl

theorem wellFormed_empty : WellFormed .empty :=
  ⟨fun _ _ h => absurd h (by simp [Db.empty]), fun _ _ _ _ h => absurd h (by simp [Db.empty])⟩

variable {db db' : Db} {nodeId tenantId userId : String} {rule row previous : ForwardingRule}
    {id ruleId : ℤ} {out : Surroundings} {write : ForwardingRuleWrite} {actor : AdminContext}

theorem WellFormed.weaken (h : WellFormed db) (f : ℤ → ForwardingRule → ForwardingRule)
    (hnext : db'.nextRuleId = db.nextRuleId)
    (hrules : ∀ id, db'.rules.get? id = (db.rules.get? id).map (f id))
    (hkeeps : ∀ id rule, (f id rule).active = true → f id rule = rule) : WellFormed db' where
  fresh id rule hrule := by
    rw [hrules, Option.map_eq_some_iff] at hrule
    obtain ⟨before, hbefore, -⟩ := hrule
    exact hnext ▸ h.fresh id before hbefore
  apart id rule id' rule' hrule hrule' hne hactive hactive' := by
    rw [hrules, Option.map_eq_some_iff] at hrule hrule'
    obtain ⟨before, hbefore, rfl⟩ := hrule
    obtain ⟨before', hbefore', rfl⟩ := hrule'
    have hsame := hkeeps id before hactive
    have hsame' := hkeeps id' before' hactive'
    rw [hsame] at hactive ⊢
    rw [hsame'] at hactive' ⊢
    exact h.apart id before id' before' hbefore hbefore' hne hactive hactive'

theorem disabledIn_of_active {owner : Option (String × String)}
    (h : (disabledIn db nodeId owner rule).active = true) :
    disabledIn db nodeId owner rule = rule ∧ blockedIn db nodeId owner rule = false := by
  unfold disabledIn at h ⊢
  split
  · rename_i hblocked
    rw [if_pos hblocked] at h
    cases h
  · rename_i hclear
    exact ⟨rfl, by simpa using hclear⟩

theorem disabledIn_same (db : Db) (nodeId : String) (owner : Option (String × String))
    (rule : ForwardingRule) : (disabledIn db nodeId owner rule).key = rule.key
      ∧ (disabledIn db nodeId owner rule).deleted = rule.deleted := by
  unfold disabledIn
  split <;> exact ⟨rfl, rfl⟩

theorem WellFormed.disableBlockedRules (h : WellFormed db) (nodeId : String)
    (owner : Option (String × String)) : WellFormed (disableBlockedRules db nodeId owner) :=
  h.weaken (fun _ => disabledIn db nodeId owner) (nextRuleId_disableBlockedRules db nodeId owner)
    (get?_disableBlockedRules db nodeId owner) fun _ _ hactive => (disabledIn_of_active hactive).1

theorem WellFormed.writeRule (h : WellFormed db) (hid : id < db.nextRuleId)
    (hwrite : writeRule db id rule = .ok db') : WellFormed db' := by
  simp only [Forwarding.writeRule, Fallible.bind_eq_ok, require_eq_ok, exists_const,
    Fallible.pure_eq_ok] at hwrite
  obtain ⟨-, hfree, rfl⟩ := hwrite
  have hclear : ∀ id' rule', db.rules.get? id' = some rule' → id' ≠ id → rule.active = true →
      rule'.active = true → rule'.nodeId = rule.nodeId → rule'.listenPort = rule.listenPort →
      rule'.protocol.overlaps rule.protocol = false := by
    intro id' rule' hrule' hne hactive hactive' hnode hport
    simp only [portFree, hactive, Bool.not_true, Bool.false_or, List.all_eq_true] at hfree
    simpa [hne, hactive', hnode, hport] using hfree (id', rule') (Table.mem_rows.mpr hrule')
  constructor
  · intro id' rule' hrule'
    rcases Table.of_get?_put hrule' with ⟨rfl, -⟩ | ⟨-, hold⟩
    · exact hid
    · exact h.fresh id' rule' hold
  · intro a ra b rb ha hb hne hactive hactive' hnode hport
    rw [Table.get?_put] at ha hb
    split at ha
    · rename_i haid
      cases ha
      rw [if_neg (fun hbid => hne (haid.trans hbid.symm))] at hb
      rw [overlaps_comm]
      exact hclear b rb hb (fun hbid => hne (haid.trans hbid.symm)) hactive hactive' hnode.symm
        hport.symm
    · rename_i haid
      split at hb
      · cases hb
        exact hclear a ra ha haid hactive' hactive hnode hport
      · exact h.apart a ra b rb ha hb hne hactive hactive' hnode hport

/-- **No port of one transport is handed out twice.** -/
theorem WellFormed.portsOnce (h : WellFormed db) (nodeId : String) :
    PortsOnce (desiredForNode db nodeId).2.rules := by
  let read := (desiredForNodeTx db nodeId).1
  have hread : WellFormed read := by
    have hblocked := h.disableBlockedRules nodeId none
    exact ⟨hblocked.fresh, hblocked.apart⟩
  show PortsOnce (desiredRules read nodeId)
  refine (List.perm_insertionSort _ _).pairwise_iff ?_ |>.mpr ?_
  · intro a b hab hport
    rw [overlaps_comm]
    exact hab hport.symm
  rw [List.pairwise_map]
  have hids : read.rules.rows.Pairwise fun a b => a.1 ≠ b.1 := List.pairwise_map.mp read.rules.nodup
  have hserved : ∀ row ∈ read.rules.rows.filter (fun row => servedRule read nodeId row.2),
      read.rules.get? row.1 = some row.2 ∧ row.2.nodeId = nodeId ∧ row.2.active = true := by
    intro row hrow
    obtain ⟨hmem, hserved⟩ := List.mem_filter.mp hrow
    simp only [servedRule, Bool.and_eq_true, decide_eq_true_eq] at hserved
    exact ⟨Table.mem_rows.mp hmem, hserved.1.1.1.1.1, hserved.1.1.1.1.2⟩
  refine (hids.sublist List.filter_sublist).imp_of_mem fun {a b} ha hb hne hport => ?_
  obtain ⟨ha, hanode, haactive⟩ := hserved a ha
  obtain ⟨hb, hbnode, hbactive⟩ := hserved b hb
  exact hread.apart a.1 a.2 b.1 b.2 ha hb hne haactive hbactive (hanode.trans hbnode.symm) hport

/-! ### Rows that only lose something -/

theorem Authorized.weaken (h : Authorized db) (hwell : WellFormed db')
    (f : ℤ → ForwardingRule → ForwardingRule) (hentitlements : db'.entitlements = db.entitlements)
    (hrules : ∀ id, db'.rules.get? id = (db.rules.get? id).map (f id))
    (hkey : ∀ id rule, (f id rule).key = rule.key)
    (hdeleted : ∀ id rule, (f id rule).deleted = false → rule.deleted = false)
    (hkeeps : ∀ id rule, (f id rule).active = true → f id rule = rule) : Authorized db' where
  entitled id rule hrule hlive := by
    rw [hrules, Option.map_eq_some_iff] at hrule
    obtain ⟨before, hbefore, rfl⟩ := hrule
    rw [hentitlements, hkey]
    exact h.entitled id before hbefore (hdeleted id before hlive)
  bounded key entitlement hentitlement henabled := by
    rw [hentitlements] at hentitlement
    refine Nat.le_trans (Table.count_le fun id rule hrule hcounted => ?_)
      (h.bounded key entitlement hentitlement henabled)
    rw [hrules, Option.map_eq_some_iff] at hrule
    obtain ⟨before, hbefore, rfl⟩ := hrule
    simp only [hkey, Bool.and_eq_true, decide_eq_true_eq, Bool.not_eq_true'] at hcounted
    exact ⟨before, hbefore, by simp [hcounted.1.1, hdeleted id before hcounted.1.2]⟩
  allowed id rule entitlement hrule hactive hentitlement henabled := by
    rw [hrules, Option.map_eq_some_iff] at hrule
    obtain ⟨before, hbefore, rfl⟩ := hrule
    have hsame := hkeeps id before hactive
    rw [hsame] at hactive hentitlement ⊢
    rw [hentitlements] at hentitlement
    exact h.allowed id before entitlement hbefore hactive hentitlement henabled
  portsOnce := hwell.portsOnce

theorem Authorized.disableBlockedRules (h : Authorized db) (hwell : WellFormed db) (nodeId : String)
    (owner : Option (String × String)) : Authorized (disableBlockedRules db nodeId owner) :=
  h.weaken (hwell.disableBlockedRules nodeId owner) (fun _ => disabledIn db nodeId owner)
    (entitlements_disableBlockedRules db nodeId owner) (get?_disableBlockedRules db nodeId owner)
    (fun _ rule => (disabledIn_same db nodeId owner rule).1)
    (fun _ rule hlive => (disabledIn_same db nodeId owner rule).2 ▸ hlive)
    fun _ _ hactive => (disabledIn_of_active hactive).1

theorem Authorized.congr (h : Authorized db) (hwell : WellFormed db')
    (hrules : db'.rules = db.rules) (hentitlements : db'.entitlements = db.entitlements) :
    Authorized db' :=
  h.weaken hwell (fun _ rule => rule) hentitlements (by simp [hrules]) (fun _ _ => rfl)
    (fun _ _ hlive => hlive) fun _ _ _ => rfl

/-! ### A row that is written -/

/-- What has to be true of a row, with all other rows as they are. -/
structure Admissible (db : Db) (id : ℤ) (row : ForwardingRule) : Prop where
  entitled : ∃ entitlement, db.entitlements.get? row.key = some entitlement
  bounded : ∀ entitlement, db.entitlements.get? row.key = some entitlement →
    entitlement.enabled = true → ruleCount db row.key (some id) + 1 ≤ entitlement.maxRules
  allowed : ∀ entitlement, row.active = true → db.entitlements.get? row.key = some entitlement →
    entitlement.enabled = true → withinGrant entitlement row.protocol row.listenPort = true
      ∧ blockedTarget row.targetHost entitlement.allowPrivateTargets = false

theorem ruleCount_except_le (db : Db) (key : EntitlementKey) (id : ℤ) :
    ruleCount db key (some id) ≤ ruleCount db key none := by
  refine Table.count_le fun id' rule hrule hcounted => ⟨rule, hrule, ?_⟩
  simp only [Bool.and_eq_true] at hcounted ⊢
  exact ⟨hcounted.1, by simp⟩

theorem ruleCount_except (hrule : db.rules.get? id = some rule) (hlive : rule.deleted = false) :
    ruleCount db rule.key none = ruleCount db rule.key (some id) + 1 := by
  have hrest : db.rules.count (fun id' rule' => (decide (rule'.key = rule.key) && !rule'.deleted
      && decide ((none : Option ℤ) ≠ some id')) && decide (id' ≠ id))
        = ruleCount db rule.key (some id) := by
    refine Nat.le_antisymm (Table.count_le fun id' rule' hrule' h => ⟨rule', hrule', ?_⟩)
      (Table.count_le fun id' rule' hrule' h => ⟨rule', hrule', ?_⟩)
    all_goals simp only [Bool.and_eq_true, decide_eq_true_eq, ne_eq, Option.some.injEq] at h ⊢
    · exact ⟨h.1.1, fun heq => h.2 heq.symm⟩
    · exact ⟨⟨h.1, by simp⟩, fun heq => h.2 heq.symm⟩
  rw [ruleCount, Table.count_except _ id, hrest, hrule]
  simp [hlive]

theorem ruleCount_other {key : EntitlementKey} (hrule : db.rules.get? id = some rule)
    (hother : rule.key ≠ key) : ruleCount db key (some id) = ruleCount db key none := by
  refine Nat.le_antisymm (ruleCount_except_le db key id)
    (Table.count_le fun id' rule' hrule' h => ⟨rule', hrule', ?_⟩)
  simp only [Bool.and_eq_true, decide_eq_true_eq] at h ⊢
  refine ⟨h.1, fun heq => hother ?_⟩
  rw [Option.some.injEq] at heq
  rw [← heq, hrule, Option.some.injEq] at hrule'
  exact hrule' ▸ h.1.1

theorem ruleCount_written (hrules : db'.rules = db.rules.put id row) (key : EntitlementKey) :
    ruleCount db' key (some id) = ruleCount db key (some id) := by
  have hsame : ∀ id', id' ≠ id → db'.rules.get? id' = db.rules.get? id' := by
    intro id' hne
    rw [hrules, Table.get?_put, if_neg hne]
  refine Nat.le_antisymm (Table.count_le fun id' rule hrule h => ⟨rule, ?_, h⟩)
    (Table.count_le fun id' rule hrule h => ⟨rule, ?_, h⟩)
  all_goals
    have hne : id' ≠ id := by
      simp only [Bool.and_eq_true, decide_eq_true_eq, ne_eq, Option.some.injEq] at h
      exact fun heq => h.2 heq.symm
  · rwa [← hsame id' hne]
  · rwa [hsame id' hne]

/-- **A written row leaves the database authorized exactly if the row is admissible.** -/
theorem authorized_write_iff (h : Authorized db) (hwell : WellFormed db')
    (hlive : row.deleted = false) (hrules : db'.rules = db.rules.put id row)
    (hentitlements : db'.entitlements = db.entitlements) :
    Authorized db' ↔ Admissible db id row := by
  have hrow : db'.rules.get? id = some row := by rw [hrules, Table.get?_put, if_pos rfl]
  have hcount : ruleCount db' row.key none = ruleCount db row.key (some id) + 1 := by
    rw [ruleCount_except hrow hlive, ruleCount_written hrules]
  constructor
  · intro h'
    refine ⟨?_, fun entitlement hentitlement henabled => ?_,
      fun entitlement hactive hentitlement henabled => ?_⟩
    · rw [← hentitlements]
      exact h'.entitled id row hrow hlive
    · rw [← hcount]
      exact h'.bounded row.key entitlement (hentitlements ▸ hentitlement) henabled
    · exact h'.allowed id row entitlement hrow hactive (hentitlements ▸ hentitlement) henabled
  · intro hadmissible
    have hcases : ∀ id' rule, db'.rules.get? id' = some rule →
        rule = row ∨ db.rules.get? id' = some rule := by
      intro id' rule hrule
      rw [hrules] at hrule
      exact (Table.of_get?_put hrule).imp And.right And.right
    refine ⟨fun id' rule hrule hlive' => ?_, fun key entitlement hentitlement henabled => ?_,
      fun id' rule entitlement hrule hactive hentitlement henabled => ?_, hwell.portsOnce⟩
    · rw [hentitlements]
      rcases hcases id' rule hrule with rfl | hrule
      · exact hadmissible.entitled
      · exact h.entitled id' rule hrule hlive'
    · rw [hentitlements] at hentitlement
      by_cases hkey : key = row.key
      · subst hkey
        rw [hcount]
        exact hadmissible.bounded entitlement hentitlement henabled
      · refine Nat.le_trans ?_ (h.bounded key entitlement hentitlement henabled)
        rw [← ruleCount_other hrow (Ne.symm hkey), ruleCount_written hrules]
        exact ruleCount_except_le db key id
    · rw [hentitlements] at hentitlement
      rcases hcases id' rule hrule with rfl | hrule
      · exact hadmissible.allowed entitlement hactive hentitlement henabled
      · exact h.allowed id' rule entitlement hrule hactive hentitlement henabled

/-! ### One operation -/

theorem writeRule_eq (h : writeRule db id row = .ok db') :
    db' = { db with rules := db.rules.put id row } := by
  simp only [writeRule, Fallible.bind_eq_ok, require_eq_ok, exists_const, Fallible.pure_eq_ok] at h
  exact h.2.2.symm

/-- What a validated write may count on: room, ports and transports, and the address policy for
the target as it was sent. -/
theorem validated {excludeRule : Option ℤ} {u : Unit}
    (h : validateRuleAgainstEntitlement out db tenantId userId write excludeRule = .ok u) :
    ∃ entitlement, db.entitlements.get? (tenantId, userId, write.nodeId) = some entitlement
      ∧ entitlement.enabled = true
      ∧ withinGrant entitlement write.protocol write.listenPort = true
      ∧ ruleCount db (tenantId, userId, write.nodeId) excludeRule < entitlement.maxRules
      ∧ blockedTarget write.targetHost entitlement.allowPrivateTargets = false := by
  simp only [validateRuleAgainstEntitlement, Fallible.bind_eq_ok, require_eq_ok, found_eq_ok,
    exists_const, Bool.and_eq_true, decide_eq_true_eq, Bool.not_eq_true'] at h
  obtain ⟨entitlement, hentitlement, _, -, _, -, ⟨henabled, -⟩, htransports, hports, -, -, hroom,
    hblocked⟩ := h
  refine ⟨entitlement, hentitlement, henabled, ?_, hroom, hblocked⟩
  simp [withinGrant, hports.1, hports.2, htransports.1, htransports.2]

theorem admissible_of_validated {excludeRule : Option ℤ} {u : Unit}
    (h : validateRuleAgainstEntitlement out db tenantId userId write excludeRule = .ok u)
    (hcount : ruleCount db (tenantId, userId, write.nodeId) (some id)
      ≤ ruleCount db (tenantId, userId, write.nodeId) excludeRule) :
    Admissible db id (write.row tenantId userId) ↔ hidesTarget db tenantId userId write = false := by
  obtain ⟨entitlement, hentitlement, henabled, hwithin, hroom, hsent⟩ := validated h
  have hactive : (write.row tenantId userId).active = write.enabled := Bool.and_true _
  have hkey : (write.row tenantId userId).key = (tenantId, userId, write.nodeId) := rfl
  have hhides : hidesTarget db tenantId userId write = (write.enabled
      && blockedTarget (Text.trim write.targetHost) entitlement.allowPrivateTargets) := by
    simp [hidesTarget, hentitlement, hsent]
  rw [hhides]
  constructor
  · intro hadmissible
    refine Bool.eq_false_iff.mpr fun hhidden => ?_
    obtain ⟨hon, hblocked⟩ := Bool.and_eq_true_iff.mp hhidden
    have hclear := (hadmissible.allowed entitlement (hactive.trans hon) hentitlement henabled).2
    rw [show (write.row tenantId userId).targetHost = Text.trim write.targetHost from rfl,
      hblocked] at hclear
    cases hclear
  · intro hclear
    refine ⟨⟨entitlement, hentitlement⟩, fun other hother _ => ?_, fun other hon hother _ => ?_⟩ <;>
      rw [hkey, hentitlement, Option.some.injEq] at hother <;> subst hother
    · rw [hkey]
      omega
    · rw [hactive] at hon
      rw [hon, Bool.true_and] at hclear
      exact ⟨hwithin, hclear⟩

theorem createRule_authorized (hwell : WellFormed db)
    (h : createRule out db actor tenantId userId write = .ok db') :
    WellFormed db' ∧ (Authorized db → (Authorized db'
      ↔ hidesTarget db tenantId userId write = false)) := by
  simp only [createRule, Fallible.bind_eq_ok, Fallible.pure_eq_ok] at h
  obtain ⟨_, -, _, -, _, -, _, hvalid, written, hwrite, rfl⟩ := h
  have hnext : WellFormed { db with nextRuleId := db.nextRuleId + 1 } :=
    ⟨fun id rule hrule => Int.lt_add_one_of_le (hwell.fresh id rule hrule).le, hwell.apart⟩
  have hwritten := hnext.writeRule (Int.lt_add_one_of_le (le_refl db.nextRuleId)) hwrite
  have hwell' : WellFormed (bumpNodeGeneration (rememberRuleNode written db.nextRuleId write.nodeId)
      write.nodeId) := ⟨hwritten.fresh, hwritten.apart⟩
  have heq := writeRule_eq hwrite
  refine ⟨hwell', fun hauthorized => ?_⟩
  rw [← admissible_of_validated hvalid (ruleCount_except_le db _ db.nextRuleId)]
  refine authorized_write_iff hauthorized hwell' rfl ?_ ?_ <;> rw [heq] <;> rfl

theorem admissible_of_stays (h : Authorized db) (hprevious : db.rules.get? id = some previous)
    (hlive : previous.deleted = false) (hkey : row.key = previous.key)
    (hallowed : row.active = true → previous.active = true ∧ row.protocol = previous.protocol
      ∧ row.listenPort = previous.listenPort ∧ row.targetHost = previous.targetHost) :
    Admissible db id row := by
  refine ⟨hkey ▸ h.entitled id previous hprevious hlive, fun entitlement hentitlement henabled => ?_,
    fun entitlement hactive hentitlement henabled => ?_⟩
  · rw [hkey] at hentitlement ⊢
    rw [← ruleCount_except hprevious hlive]
    exact h.bounded previous.key entitlement hentitlement henabled
  · rw [hkey] at hentitlement
    obtain ⟨hon, hprotocol, hport, hhost⟩ := hallowed hactive
    rw [hprotocol, hport, hhost]
    exact h.allowed id previous entitlement hprevious hon hentitlement henabled

/-- A disabled rule that comes to another machine is admissible exactly if there is room. -/
theorem admissible_of_moves (hprevious : db.rules.get? id = some previous)
    (hkey : previous.key ≠ row.key) (hdisabled : row.active = false) :
    Admissible db id row ↔ hasRoom db row.key = true := by
  have hcount := ruleCount_other hprevious hkey
  unfold hasRoom
  constructor
  · intro hadmissible
    obtain ⟨entitlement, hentitlement⟩ := hadmissible.entitled
    rw [hentitlement, Option.any_some]
    cases henabled : entitlement.enabled with
    | false => rfl
    | true =>
      have hroom := hadmissible.bounded entitlement hentitlement henabled
      rw [hcount] at hroom
      simp only [Bool.not_true, Bool.false_or, decide_eq_true_eq]
      omega
  · intro hroom
    obtain ⟨entitlement, hentitlement, hroom⟩ := (Option.any_eq_true _ _).mp hroom
    refine ⟨⟨entitlement, hentitlement⟩, fun other hother henabled => ?_, fun _ hactive => ?_⟩
    · rw [hentitlement, Option.some.injEq] at hother
      subst hother
      simp only [henabled, Bool.not_true, Bool.false_or, decide_eq_true_eq] at hroom
      omega
    · rw [hdisabled] at hactive
      cases hactive

theorem ownRule_spec (h : ownRule db tenantId userId ruleId = some rule) :
    db.rules.get? ruleId = some rule
      ∧ rule.tenantId = tenantId ∧ rule.userId = userId ∧ rule.deleted = false := by
  obtain ⟨hrule, hown⟩ := Option.filter_eq_some_iff.mp h
  simp only [Bool.and_eq_true, decide_eq_true_eq, Bool.not_eq_true'] at hown
  exact ⟨hrule, hown.1.1, hown.1.2, hown.2⟩

theorem runtimeChanged_eq_false : runtimeChanged previous row = false ↔ previous.nodeId = row.nodeId
      ∧ previous.protocol = row.protocol ∧ previous.listenPort = row.listenPort
      ∧ previous.targetHost = row.targetHost ∧ previous.targetPort = row.targetPort
      ∧ previous.enabled = row.enabled := by
  simp only [runtimeChanged, Bool.or_eq_false_iff, decide_eq_false_iff_not, ne_eq, not_not,
    and_assoc]

theorem updateRule_authorized (hwell : WellFormed db)
    (h : updateRule out db actor tenantId userId ruleId write = .ok db') :
    WellFormed db' ∧ (Authorized db → (Authorized db'
      ↔ (Operation.updateRule out actor tenantId userId ruleId write).careful db = true)) := by
  simp only [updateRule, Fallible.bind_eq_ok, found_eq_ok, Fallible.pure_eq_ok] at h
  obtain ⟨_, -, _, -, _, -, previous, hown, h⟩ := h
  obtain ⟨hprevious, htenant, huser, hlive⟩ := ownRule_spec hown
  let row := write.row tenantId userId
  obtain ⟨_, hcheck, written, hwrite, rfl⟩ := h
  have heq := writeRule_eq hwrite
  have hremembered : WellFormed (rememberRuleNode db ruleId previous.nodeId) :=
    ⟨hwell.fresh, hwell.apart⟩
  have hwritten := hremembered.writeRule (hwell.fresh ruleId previous hprevious) hwrite
  let after := rememberRuleNode written ruleId write.nodeId
  obtain ⟨nodeStates, hafter⟩ : ∃ nodeStates, (if runtimeChanged previous row
      then bumpNodes after [previous.nodeId, write.nodeId] else after) = { after with nodeStates } := by
    split
    · exact bumpNodes_eq after _
    · exact ⟨after.nodeStates, rfl⟩
  rw [hafter]
  have hwell' : WellFormed { after with nodeStates } := ⟨hwritten.fresh, hwritten.apart⟩
  refine ⟨hwell', fun hauthorized => ?_⟩
  rw [authorized_write_iff hauthorized hwell' (show row.deleted = false from rfl)
    (show written.rules = db.rules.put ruleId row by rw [heq]; rfl)
    (show written.entitlements = db.entitlements by rw [heq]; rfl)]
  simp only [Operation.careful, hown, Option.all_some]
  have hstays : previous.nodeId = write.nodeId → row.key = previous.key := by
    intro hnode
    simp [row, ForwardingRule.key, ForwardingRuleWrite.row, htenant, huser, hnode]
  cases hchanged : runtimeChanged previous row with
  | false =>
    obtain ⟨hnode, hprotocol, hport, hhost, -, henabled⟩ := runtimeChanged_eq_false.mp hchanged
    have hactive : row.active = previous.active := by
      rw [ForwardingRule.active, ForwardingRule.active, ← henabled, hlive]
      rfl
    have hnode' : write.nodeId = previous.nodeId := hnode.symm
    simp only [Bool.false_and, Bool.not_false, Bool.true_and, hnode', decide_true, Bool.or_true,
      Bool.true_or, iff_true]
    exact admissible_of_stays hauthorized hprevious hlive (hstays hnode)
      fun hon => ⟨hactive ▸ hon, hprotocol.symm, hport.symm, hhost.symm⟩
  | true =>
    cases henabled : write.enabled with
    | true =>
      rw [validateChange, hchanged, henabled] at hcheck
      rw [admissible_of_validated hcheck (Nat.le_refl _)]
      simp
    | false =>
      have hdisabled : row.active = false := by
        simp [ForwardingRule.active, row, ForwardingRuleWrite.row, henabled]
      have hclear : hidesTarget db tenantId userId write = false := by
        simp [hidesTarget, henabled]
      by_cases hnode : previous.nodeId = write.nodeId
      · simp only [hclear, hnode, Bool.and_false, Bool.not_false, eq_self, decide_true,
          Bool.or_true, Bool.true_or, Bool.true_and, iff_true]
        refine admissible_of_stays hauthorized hprevious hlive (hstays hnode) fun hon => ?_
        rw [hdisabled] at hon
        cases hon
      · have hkey : previous.key ≠ row.key := fun heq => hnode (congrArg (·.2.2) heq)
        rw [admissible_of_moves hprevious hkey hdisabled]
        simp [hclear, Ne.symm hnode, row, ForwardingRule.key, ForwardingRuleWrite.row]

theorem setEntitlement_authorized {write : ForwardingEntitlement} (hwell : WellFormed db)
    (h : setEntitlement db actor tenantId userId nodeId write = .ok db') :
    WellFormed db' ∧ (Authorized db → Authorized db') := by
  simp only [setEntitlement, Fallible.bind_eq_ok, require_eq_ok, exists_const,
    Fallible.pure_eq_ok] at h
  obtain ⟨_, -, _, -, _, -, _, -, _, -, hports, hroom, rfl⟩ := h
  let key : EntitlementKey := (tenantId, userId, nodeId)
  let granted := { db with entitlements := db.entitlements.put key write }
  have hgranted : WellFormed granted := ⟨hwell.fresh, hwell.apart⟩
  have hpass := hgranted.disableBlockedRules nodeId (some (tenantId, userId))
  refine ⟨⟨hpass.fresh, hpass.apart⟩, fun hauthorized => ?_⟩
  have hwell' : WellFormed (bumpNodeGeneration
      (disableBlockedRules granted nodeId (some (tenantId, userId))) nodeId) :=
    ⟨hpass.fresh, hpass.apart⟩
  have hrules : ∀ id, (disableBlockedRules granted nodeId (some (tenantId, userId))).rules.get? id
      = (db.rules.get? id).map (disabledIn granted nodeId (some (tenantId, userId))) :=
    get?_disableBlockedRules granted nodeId _
  have hentitlements : ∀ other, (disableBlockedRules granted nodeId
      (some (tenantId, userId))).entitlements.get? other
        = if other = key then some write else db.entitlements.get? other := by
    intro other
    rw [entitlements_disableBlockedRules]
    exact Table.get?_put _ _ _ _
  refine ⟨fun id rule hrule hlive => ?_, fun other entitlement hentitlement henabled => ?_,
    fun id rule entitlement hrule hactive hentitlement henabled => ?_, hwell'.portsOnce⟩
  · rw [rules_bumpNodeGeneration, hrules, Option.map_eq_some_iff] at hrule
    obtain ⟨before, hbefore, rfl⟩ := hrule
    obtain ⟨hsame, hdeleted⟩ := disabledIn_same granted nodeId (some (tenantId, userId)) before
    rw [entitlements_bumpNodeGeneration, hentitlements, hsame]
    split
    · exact ⟨write, rfl⟩
    · exact hauthorized.entitled id before hbefore (hdeleted ▸ hlive)
  · rw [entitlements_bumpNodeGeneration, hentitlements] at hentitlement
    have hcount : ruleCount (disableBlockedRules granted nodeId (some (tenantId, userId))) other none
        ≤ ruleCount db other none := by
      refine Table.count_le fun id rule hrule hcounted => ?_
      rw [hrules, Option.map_eq_some_iff] at hrule
      obtain ⟨before, hbefore, rfl⟩ := hrule
      obtain ⟨hsame, hdeleted⟩ := disabledIn_same granted nodeId (some (tenantId, userId)) before
      rw [hsame, hdeleted] at hcounted
      exact ⟨before, hbefore, hcounted⟩
    refine Nat.le_trans hcount ?_
    split at hentitlement
    · rename_i hother
      subst hother
      cases hentitlement
      simpa [henabled] using hroom
    · exact hauthorized.bounded other entitlement hentitlement henabled
  · rw [rules_bumpNodeGeneration, hrules, Option.map_eq_some_iff] at hrule
    obtain ⟨before, hbefore, rfl⟩ := hrule
    obtain ⟨hsame, hclear⟩ := disabledIn_of_active hactive
    rw [hsame] at hactive hentitlement ⊢
    rw [entitlements_bumpNodeGeneration, hentitlements] at hentitlement
    split at hentitlement
    · rename_i hkey
      cases hentitlement
      simp only [henabled, Bool.not_true, Bool.false_or, decide_eq_true_eq] at hports
      have hwithin := Table.count_eq_zero hports hbefore
      have hkey' : before.key = (tenantId, userId, nodeId) := hkey
      simp only [hkey', decide_true, hactive, Bool.and_self, Bool.true_and, Bool.not_eq_false'] at hwithin
      refine ⟨hwithin, ?_⟩
      obtain ⟨htenant, huser, hnode⟩ : before.tenantId = tenantId ∧ before.userId = userId
          ∧ before.nodeId = nodeId := by simpa [ForwardingRule.key] using hkey'
      have hgranted : granted.entitlements.get? before.key = some write := by
        show (db.entitlements.put key write).get? before.key = _
        rw [Table.get?_put, if_pos hkey]
      simpa [blockedIn, inPass, isBlocked, hactive, hnode, htenant, huser, hgranted] using hclear
    · exact hauthorized.allowed id before entitlement hbefore hactive hentitlement henabled

theorem deleteEntitlement_authorized (hwell : WellFormed db)
    (h : deleteEntitlement db actor tenantId userId nodeId = .ok db') :
    WellFormed db' ∧ (Authorized db → Authorized db') := by
  simp only [deleteEntitlement, Fallible.bind_eq_ok, require_eq_ok, exists_const,
    Fallible.pure_eq_ok] at h
  obtain ⟨_, -, _, -, -, rfl⟩ := h
  let key : EntitlementKey := (tenantId, userId, nodeId)
  let f := fun rule : ForwardingRule =>
    if rule.key = key && !rule.deleted then { rule with deleted := true, enabled := false } else rule
  have hlive : ∀ rule, (f rule).deleted = false → f rule = rule ∧ rule.key ≠ key := by
    intro rule hlive
    by_cases hgone : (decide (rule.key = key) && !rule.deleted) = true
    · simp only [f, if_pos hgone] at hlive
      cases hlive
    · have hsame : f rule = rule := if_neg hgone
      rw [hsame] at hlive
      exact ⟨hsame, by simpa [hlive] using hgone⟩
  have hactive : ∀ rule, (f rule).active = true → f rule = rule ∧ rule.key ≠ key := by
    intro rule hactive
    exact hlive rule (by simpa using (Bool.and_eq_true_iff.mp hactive).2)
  have hrules : ∀ id, (db.rules.update fun _ => f).get? id = (db.rules.get? id).map f :=
    Table.get?_update _ _
  have hentitlements : ∀ other, (db.entitlements.deleteWhere (· = key)).get? other
      = if other = key then none else db.entitlements.get? other := by
    intro other
    rw [Table.get?_deleteWhere]
    simp only [decide_eq_true_eq]
  have hwell' : WellFormed (cancelJobsTx (bumpNodeGeneration { db with
      rules := db.rules.update fun _ => f
      entitlements := db.entitlements.deleteWhere (· = key)
      quotas := db.quotas.deleteWhere (· = key) } nodeId) key) :=
    hwell.weaken (fun _ => f) rfl hrules fun _ rule h => (hactive rule h).1
  refine ⟨hwell', fun hauthorized => ⟨fun id rule hrule hkept => ?_,
    fun other entitlement hentitlement henabled => ?_,
    fun id rule entitlement hrule hon hentitlement henabled => ?_, hwell'.portsOnce⟩⟩
  · obtain ⟨before, hbefore, rfl⟩ := Option.map_eq_some_iff.mp ((hrules id).symm.trans hrule)
    obtain ⟨hsame, hother⟩ := hlive before hkept
    rw [hsame] at hkept ⊢
    obtain ⟨entitlement, hentitlement⟩ := hauthorized.entitled id before hbefore hkept
    exact ⟨entitlement, (hentitlements before.key).trans ((if_neg hother).trans hentitlement)⟩
  · have hother := (hentitlements other).symm.trans hentitlement
    split at hother
    · cases hother
    · refine Nat.le_trans (Table.count_le fun id rule hrule hcounted => ?_)
        (hauthorized.bounded other entitlement hother henabled)
      obtain ⟨before, hbefore, rfl⟩ := Option.map_eq_some_iff.mp ((hrules id).symm.trans hrule)
      have hkept : (f before).deleted = false := by
        simp only [Bool.and_eq_true, Bool.not_eq_true'] at hcounted
        exact hcounted.1.2
      rw [(hlive before hkept).1] at hcounted
      exact ⟨before, hbefore, hcounted⟩
  · obtain ⟨before, hbefore, rfl⟩ := Option.map_eq_some_iff.mp ((hrules id).symm.trans hrule)
    obtain ⟨hsame, hother⟩ := hactive before hon
    rw [hsame] at hon hentitlement ⊢
    have hheld := (hentitlements before.key).symm.trans hentitlement
    rw [if_neg hother] at hheld
    exact hauthorized.allowed id before entitlement hbefore hon hheld henabled

theorem deleteRule_authorized (hwell : WellFormed db)
    (h : deleteRule db actor tenantId userId ruleId = .ok db') :
    WellFormed db' ∧ (Authorized db → Authorized db') := by
  simp only [deleteRule, Fallible.bind_eq_ok, found_eq_ok, Fallible.pure_eq_ok] at h
  obtain ⟨_, -, rule, hown, rfl⟩ := h
  obtain ⟨hrule, -⟩ := ownRule_spec hown
  let f := fun (id : ℤ) (rule : ForwardingRule) =>
    if id = ruleId then { rule with deleted := true, enabled := false } else rule
  have hrules : ∀ id, (db.rules.put ruleId { rule with deleted := true, enabled := false }).get? id
      = (db.rules.get? id).map (f id) := by
    intro id
    rw [Table.get?_put]
    by_cases hid : id = ruleId
    · subst hid
      simp [hrule, f]
    · simp [hid, f]
  have hkeeps : ∀ id rule, (f id rule).active = true → f id rule = rule := by
    intro id rule hactive
    by_cases hid : id = ruleId
    · simp [f, hid, ForwardingRule.active] at hactive
    · exact if_neg hid
  have hwell' : WellFormed (bumpNodeGeneration { db with
      rules := db.rules.put ruleId { rule with deleted := true, enabled := false } } rule.nodeId) :=
    hwell.weaken f rfl hrules hkeeps
  refine ⟨hwell', fun hauthorized => hauthorized.weaken hwell' f rfl hrules (fun id rule => ?_)
    (fun id rule hlive => ?_) hkeeps⟩
  · by_cases hid : id = ruleId <;> simp [f, hid, ForwardingRule.key]
  · by_cases hid : id = ruleId
    · simp [f, hid] at hlive
    · simpa [f, hid] using hlive

/-- **An operation keeps what is authorized exactly if it is careful.** -/
theorem operation_authorized_iff {operation : Operation} (hwell : WellFormed db)
    (h : operation.run db = .ok db') :
    WellFormed db' ∧ (Authorized db → (Authorized db' ↔ operation.careful db = true)) := by
  cases operation with
  | setEntitlement actor tenantId userId nodeId write =>
    obtain ⟨hwell', hkeeps⟩ := setEntitlement_authorized hwell h
    exact ⟨hwell', fun hauthorized => iff_of_true (hkeeps hauthorized) rfl⟩
  | deleteEntitlement actor tenantId userId nodeId =>
    obtain ⟨hwell', hkeeps⟩ := deleteEntitlement_authorized hwell h
    exact ⟨hwell', fun hauthorized => iff_of_true (hkeeps hauthorized) rfl⟩
  | createRule out actor tenantId userId write =>
    obtain ⟨hwell', hkeeps⟩ := createRule_authorized hwell h
    refine ⟨hwell', fun hauthorized => (hkeeps hauthorized).trans ?_⟩
    simp [Operation.careful]
  | updateRule out actor tenantId userId ruleId write => exact updateRule_authorized hwell h
  | deleteRule actor tenantId userId ruleId =>
    obtain ⟨hwell', hkeeps⟩ := deleteRule_authorized hwell h
    exact ⟨hwell', fun hauthorized => iff_of_true (hkeeps hauthorized) rfl⟩
  | readDesired nodeId =>
    cases h
    have hpass := hwell.disableBlockedRules nodeId none
    have hwell' : WellFormed (desiredForNode db nodeId).1 := ⟨hpass.fresh, hpass.apart⟩
    exact ⟨hwell', fun hauthorized => iff_of_true
      ((hauthorized.disableBlockedRules hwell nodeId none).congr hwell' rfl rfl) rfl⟩
  | elsewhere users nodes quotas =>
    cases h
    have hwell' : WellFormed { db with users, nodes, quotas } := ⟨hwell.fresh, hwell.apart⟩
    exact ⟨hwell', fun hauthorized => iff_of_true (hauthorized.congr hwell' rfl rfl) rfl⟩

/-! ### Every run -/

/-- An operation that fails leaves everything as it was, and is no step. -/
def commit (db : Db) (operation : Operation) : Option Db := (operation.run db).toOption

theorem commit_eq_some {operation : Operation} :
    commit db operation = some db' ↔ operation.run db = .ok db' := by
  unfold commit
  cases operation.run db <;> simp [Except.toOption]

/-- Every operation of a run is careful where it is carried out. -/
def carefulAlong : Db → List Operation → Bool
  | _, [] => true
  | db, operation :: rest =>
    operation.careful db && (commit db operation).all fun db' => carefulAlong db' rest

theorem authorized_empty : Authorized .empty := by
  refine ⟨fun _ _ h => ?_, fun _ _ h => ?_, fun _ _ _ h => ?_, wellFormed_empty.portsOnce⟩ <;>
    simp [Db.empty] at h

/-- **Forwarding stays authorized through a run exactly if every edit in it is careful.**  The
induction carries the unique indexes, which the two careless edits respect as well. -/
theorem authorized_iff {operations : List Operation} {db : Db}
    (h : Steps.Along commit (fun _ => True) operations .empty db) :
    Steps.Along commit Authorized operations .empty db ↔ carefulAlong .empty operations = true := by
  have hrun : ∀ before, WellFormed before → Authorized before →
      Steps.Along commit (fun _ => True) operations before db →
      (Steps.Along commit Authorized operations before db
        ↔ carefulAlong before operations = true) := by
    clear h
    induction operations with
    | nil => exact fun before _ _ h => iff_of_true h rfl
    | cons operation rest ih =>
      rintro before hwell hauthorized ⟨after, hcommit, -, hrest⟩
      obtain ⟨hwell', hkeeps⟩ := operation_authorized_iff hwell (commit_eq_some.mp hcommit)
      rw [carefulAlong, hcommit, Option.all_some, Bool.and_eq_true, ← hkeeps hauthorized]
      constructor
      · rintro ⟨next, hnext, hauthorized', halong⟩
        rw [hcommit, Option.some.injEq] at hnext
        subst hnext
        exact ⟨hauthorized', (ih after hwell' hauthorized' hrest).mp halong⟩
      · rintro ⟨hauthorized', hcareful⟩
        exact ⟨after, hcommit, hauthorized', (ih after hwell' hauthorized' hrest).mpr hcareful⟩
  exact hrun .empty wellFormed_empty authorized_empty h

/-! ### A user and two machines -/

def rootActor : AdminContext := ⟨.systemAdmin, none, none⟩

def quietSurroundings : Surroundings := ⟨fun _ _ _ => false, fun _ => 0, 0⟩

/-- A user with an entitlement on one of two machines. -/
def annOnHk : List Operation :=
  [.elsewhere (Table.empty.put ("acme", "ann") ⟨.active, false, 1, none, none⟩)
      ((Table.empty.put "hk" ⟨"acme", some 10085, false⟩).put "jp" ⟨"acme", some 10085, false⟩) .empty,
    .setEntitlement rootActor "acme" "ann" "hk" ⟨true, true, true, 30000, 59999, 100, false⟩]

def webRule (nodeId targetHost : String) (enabled : Bool) : ForwardingRuleWrite :=
  ⟨nodeId, "web", .tcp, 30000, targetHost, 443, enabled⟩

/-- A rule under the entitlement. -/
def grantedRun (targetHost : String) : List Operation :=
  annOnHk ++ [.createRule quietSurroundings rootActor "acme" "ann" (webRule "hk" targetHost true),
    .readDesired "hk"]

/-- The rule is disabled and moved to the other machine in one edit. -/
def movedRun : List Operation :=
  annOnHk ++ [.createRule quietSurroundings rootActor "acme" "ann" (webRule "hk" "example.com" true),
    .updateRule quietSurroundings rootActor "acme" "ann" 1 (webRule "jp" "example.com" false)]

/-- A private target with a blank before it. -/
def hiddenRun : List Operation :=
  annOnHk ++ [.createRule quietSurroundings rootActor "acme" "ann" (webRule "hk" " 10.0.0.1" true)]

theorem authorized_iff_granted :
    ∃ db, Steps.Along commit Authorized (grantedRun "example.com") .empty db := by
  have hruns : ((grantedRun "example.com").foldlM commit .empty).isSome = true := by decide +kernel
  obtain ⟨db, hdb⟩ := Option.isSome_iff_exists.mp hruns
  exact ⟨db, (authorized_iff (Steps.along_iff_foldlM.mpr hdb)).mpr (by decide +kernel)⟩

/-- A disabled rule is moved to a machine its user was never granted, and a target with a blank
before it passes the address policy and is stored without the blank. -/
theorem careless_edits :
    (∃ db, Steps.Along commit (fun _ => True) movedRun .empty db ∧ ¬ Authorized db)
      ∧ ∃ db, Steps.Along commit (fun _ => True) hiddenRun .empty db ∧ ¬ Authorized db := by
  constructor
  · have hrun : (movedRun.foldlM commit .empty).map (fun db =>
        (db.rules.get? 1, (db.entitlements.get? ("acme", "ann", "jp")).isSome))
        = some (some ((webRule "jp" "example.com" false).row "acme" "ann"), false) := by
      decide +kernel
    obtain ⟨db, hdb, hfinal⟩ := Option.map_eq_some_iff.mp hrun
    obtain ⟨hrule, hnone⟩ := Prod.mk.inj hfinal
    refine ⟨db, Steps.along_iff_foldlM.mpr hdb, fun hauthorized => ?_⟩
    obtain ⟨entitlement, hentitlement⟩ := hauthorized.entitled 1 _ hrule rfl
    rw [show ((webRule "jp" "example.com" false).row "acme" "ann").key = ("acme", "ann", "jp")
      from rfl] at hentitlement
    rw [hentitlement] at hnone
    cases hnone
  · have hrun : (hiddenRun.foldlM commit .empty).map (fun db =>
        (db.rules.get? 1, db.entitlements.get? ("acme", "ann", "hk")))
        = some (some ((webRule "hk" " 10.0.0.1" true).row "acme" "ann"),
          some ⟨true, true, true, 30000, 59999, 100, false⟩) := by
      decide +kernel
    obtain ⟨db, hdb, hfinal⟩ := Option.map_eq_some_iff.mp hrun
    obtain ⟨hrule, hentitlement⟩ := Prod.mk.inj hfinal
    refine ⟨db, Steps.along_iff_foldlM.mpr hdb, fun hauthorized => ?_⟩
    have hclear := (hauthorized.allowed 1 _ _ hrule rfl hentitlement rfl).2
    rw [show blockedTarget ((webRule "hk" " 10.0.0.1" true).row "acme" "ann").targetHost false = true
      by decide +kernel] at hclear
    cases hclear

end Brocade.Forwarding
