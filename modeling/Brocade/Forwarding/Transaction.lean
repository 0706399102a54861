/-
The transactions, and what each of them does to the counters.

Every transaction that edits a rule, an entitlement, a quota's suspension or a period of
service advances the counter of each machine whose list it can change.  Two do not: the
status of an account and the status of a machine are read by the list and changed without
any counter.  `Transaction.heard` asks of these two that no rule depends on the status they
change.
-/
import Brocade.Forwarding.Generation

namespace Brocade.Forwarding

open Usage (StoreError)

/-- Each commits as a whole.  A read of the list that was `overtaken` has had its policy pass
before the last transactions committed. -/
inductive Transaction where
  | addUser (tenantId userId : String) (user : UserRow)
  | addNode (nodeId : String) (node : NodeRow)
  | setEntitlement (actor : AdminContext) (tenantId userId nodeId : String)
      (write : ForwardingEntitlement)
  | deleteEntitlement (actor : AdminContext) (tenantId userId nodeId : String)
  | createRule (out : Surroundings) (actor : AdminContext) (tenantId userId : String)
      (write : ForwardingRuleWrite)
  | updateRule (out : Surroundings) (actor : AdminContext) (tenantId userId : String) (ruleId : ℤ)
      (write : ForwardingRuleWrite)
  | deleteRule (actor : AdminContext) (tenantId userId : String) (ruleId : ℤ)
  | setQuota (actor : AdminContext) (tenantId userId nodeId : String) (limitBytes : Option ℕ)
  | enforceQuotas (out : Surroundings)
  | updateService (out : Surroundings) (actor : AdminContext) (tenantId userId : String)
      (policy : UserServicePolicyWrite)
  | enforceService (out : Surroundings)
  | updateUserStatus (actor : AdminContext) (tenantId userId : String) (status : UserStatus)
  | updateNodeStatus (actor : AdminContext) (nodeId : String) (retired : Bool)
  | readDesired (nodeId : String) (overtaken : Bool)
  | recordReconcile (nodeId : String) (report : ForwardingReconcileReport) (overtaken : Bool)

/-- A read, with or without an edit in between. -/
def readTx (db : Db) (nodeId : String) (overtaken : Bool) : Db × ForwardingDesiredState :=
  if overtaken then lockedRead db nodeId else desiredForNodeTx db nodeId

/-- What a transaction makes of the tables, or its refusal. -/
def Transaction.run (db : Db) : Transaction → Except StoreError Db
  | .addUser tenantId userId user => do
      require (!db.users.contains (tenantId, userId)) (.conflict s!"user {tenantId}/{userId}")
      return { db with users := db.users.put (tenantId, userId) user }
  | .addNode nodeId node => do
      require (!db.nodes.contains nodeId) (.conflict s!"node {nodeId}")
      return { db with nodes := db.nodes.put nodeId node }
  | .setEntitlement actor tenantId userId nodeId write =>
    Forwarding.setEntitlement db actor tenantId userId nodeId write
  | .deleteEntitlement actor tenantId userId nodeId =>
    Forwarding.deleteEntitlement db actor tenantId userId nodeId
  | .createRule out actor tenantId userId write =>
    Forwarding.createRule out db actor tenantId userId write
  | .updateRule out actor tenantId userId ruleId write =>
    Forwarding.updateRule out db actor tenantId userId ruleId write
  | .deleteRule actor tenantId userId ruleId => Forwarding.deleteRule db actor tenantId userId ruleId
  | .setQuota actor tenantId userId nodeId limitBytes =>
    Forwarding.setQuota db actor tenantId userId nodeId limitBytes
  | .enforceQuotas out => .ok (Forwarding.enforceQuotas out db)
  | .updateService out actor tenantId userId policy =>
    Forwarding.updateService out db actor tenantId userId policy
  | .enforceService out => .ok (Forwarding.enforceService out db)
  | .updateUserStatus actor tenantId userId status =>
    Forwarding.updateUserStatus db actor tenantId userId status
  | .updateNodeStatus actor nodeId retired => Forwarding.updateNodeStatus db actor nodeId retired
  | .readDesired nodeId overtaken =>
    let read := readTx db nodeId overtaken
    .ok (dispatchedTx read.1 nodeId read.2.generation)
  | .recordReconcile nodeId report overtaken => answerTo (readTx db nodeId overtaken) nodeId report

/-! ### The two that no counter hears of -/

/-- The tables with the status. -/
def withUserStatus (db : Db) (owner : String × String) (user : UserRow) (status : UserStatus) : Db :=
  { db with users := db.users.put owner { user with status } }

/-- The tables with the machine's status. -/
def withNodeStatus (db : Db) (nodeId : String) (node : NodeRow) (retired : Bool) : Db :=
  { db with nodes := db.nodes.put nodeId { node with retired } }

/-- A rule of the account that is served as long as the account is active. -/
def dependsOnUser (db : Db) (owner : String × String) : Bool :=
  (db.users.get? owner).any fun user => db.rules.rows.any fun row =>
    (row.2.tenantId, row.2.userId) = owner
      && servedRule (withUserStatus db owner user .active) row.2.nodeId row.2

/-- A rule on the machine that is served as long as the machine is in service. -/
def dependsOnNode (db : Db) (nodeId : String) : Bool :=
  (db.nodes.get? nodeId).any fun node => db.rules.rows.any fun row =>
    servedRule (withNodeStatus db nodeId node false) nodeId row.2

/-- A status is changed only where no rule depends on it. -/
def Transaction.heard (db : Db) : Transaction → Bool
  | .updateUserStatus _ tenantId userId status =>
    (db.users.get? (tenantId, userId)).all (fun user => user.status = status)
      || !dependsOnUser db (tenantId, userId)
  | .updateNodeStatus _ nodeId retired =>
    (db.nodes.get? nodeId).all (fun node => node.retired = retired) || !dependsOnNode db nodeId
  | _ => true

/-! ### Foreign keys -/

/-- Rule identities are fresh, and a rule's account and machine exist. -/
structure Linked (db : Db) : Prop where
  fresh : ∀ id rule, db.rules.get? id = some rule → id < db.nextRuleId
  user : ∀ id rule, db.rules.get? id = some rule →
    db.users.contains (rule.tenantId, rule.userId) = true
  node : ∀ id rule, db.rules.get? id = some rule → db.nodes.contains rule.nodeId = true

theorem linked_empty : Linked .empty :=
  ⟨fun _ _ h => absurd h (by simp [Db.empty]), fun _ _ h => absurd h (by simp [Db.empty]),
    fun _ _ h => absurd h (by simp [Db.empty])⟩

variable {db db' : Db} {actor : AdminContext} {tenantId userId nodeId : String} {id : ℤ}
    {row rule : ForwardingRule} {user : UserRow} {out : Surroundings} {node : NodeRow}
    {status : UserStatus} {retired : Bool}

/-- A transaction that makes no rule, and removes no account and no machine, keeps the links. -/
theorem Linked.keep (h : Linked db) (hnext : db'.nextRuleId = db.nextRuleId)
    (husers : ∀ owner, db.users.contains owner = true → db'.users.contains owner = true)
    (hnodes : ∀ nodeId, db.nodes.contains nodeId = true → db'.nodes.contains nodeId = true)
    (hrules : ∀ id rule', db'.rules.get? id = some rule' →
      ∃ rule, db.rules.get? id = some rule ∧ rule.key = rule'.key) : Linked db' where
  fresh id rule' hrule' := by
    obtain ⟨rule, hrule, -⟩ := hrules id rule' hrule'
    exact hnext ▸ h.fresh id rule hrule
  user id rule' hrule' := by
    obtain ⟨rule, hrule, hkey⟩ := hrules id rule' hrule'
    have howner : (rule'.tenantId, rule'.userId) = (rule.tenantId, rule.userId) :=
      Prod.ext (congrArg (·.1) hkey).symm (congrArg (·.2.1) hkey).symm
    exact husers _ (howner ▸ h.user id rule hrule)
  node id rule' hrule' := by
    obtain ⟨rule, hrule, hkey⟩ := hrules id rule' hrule'
    have hnode : rule'.nodeId = rule.nodeId := (congrArg (·.2.2) hkey).symm
    exact hnodes _ (hnode ▸ h.node id rule hrule)

theorem Linked.congr (h : Linked db) (hrules : db'.rules = db.rules)
    (hnext : db'.nextRuleId = db.nextRuleId) (husers : db'.users = db.users)
    (hnodes : db'.nodes = db.nodes) : Linked db' :=
  h.keep hnext (fun _ => husers ▸ id) (fun _ => hnodes ▸ id)
    fun _ rule' hrule' => ⟨rule', hrules ▸ hrule', rfl⟩

/-- What every transaction has to do: keep the links and advance. -/
def Fine (db db' : Db) : Prop := Linked db' ∧ Advances db db'

theorem Linked.disableBlockedRules (h : Linked db) (nodeId : String)
    (owner : Option (String × String)) : Linked (disableBlockedRules db nodeId owner) := by
  obtain ⟨rules, nodeStates, heq⟩ := disableBlockedRules_eq db nodeId owner
  refine h.keep (nextRuleId_disableBlockedRules db nodeId owner) (fun _ => by rw [heq]; exact id)
    (fun _ => by rw [heq]; exact id) fun id rule' hrule' => ?_
  rw [get?_disableBlockedRules, Option.map_eq_some_iff] at hrule'
  obtain ⟨rule, hrule, rfl⟩ := hrule'
  exact ⟨rule, hrule, (disabledIn_same db nodeId owner rule).1.symm⟩

/-! ### Entitlements -/

theorem setEntitlement_fine {write : ForwardingEntitlement} (hlinked : Linked db)
    (h : setEntitlement db actor tenantId userId nodeId write = .ok db') : Fine db db' := by
  simp only [setEntitlement, Fallible.bind_eq_ok, Fallible.pure_eq_ok] at h
  obtain ⟨_, -, _, -, _, -, _, -, _, -, _, -, _, -, rfl⟩ := h
  let granted : Db := { db with entitlements := db.entitlements.put (tenantId, userId, nodeId) write }
  have hgranted : Linked granted := hlinked.congr rfl rfl rfl rfl
  have hstart : Counted db granted [] := .of_same rfl
  have hcounted := (hstart.disableBlockedRules nodeId (some (tenantId, userId))).bump nodeId
  refine ⟨(hgranted.disableBlockedRules nodeId _).congr rfl rfl rfl rfl,
    hcounted.advances fun other hother id => ?_⟩
  have hne : other ≠ nodeId := by simpa using hother
  refine (served_disableBlockedRules_other granted hne _ id).trans
    (AgreeOn.served other rfl fun rule _ hnode => ⟨?_, rfl, rfl, rfl⟩)
  have hkey : rule.key ≠ (tenantId, userId, nodeId) :=
    fun heq => hne (hnode.symm.trans (congrArg (·.2.2) heq))
  show (db.entitlements.put _ _).get? _ = _
  rw [Table.get?_put, if_neg hkey]

theorem deleteEntitlement_fine (hlinked : Linked db)
    (h : deleteEntitlement db actor tenantId userId nodeId = .ok db') : Fine db db' := by
  simp only [deleteEntitlement, Fallible.bind_eq_ok, Fallible.pure_eq_ok] at h
  obtain ⟨_, -, _, -, _, -, rfl⟩ := h
  let key : EntitlementKey := (tenantId, userId, nodeId)
  let removed : ForwardingRule → ForwardingRule := fun rule =>
    if rule.key = key && !rule.deleted then { rule with deleted := true, enabled := false } else rule
  let after : Db := { db with
    rules := db.rules.update fun _ => removed
    entitlements := db.entitlements.deleteWhere (· = key)
    quotas := db.quotas.deleteWhere (· = key) }
  have hremoved : ∀ rule, (removed rule).key = rule.key := by
    intro rule
    show (if _ then _ else _ : ForwardingRule).key = _
    split <;> rfl
  have hrules : ∀ id, after.rules.get? id = (db.rules.get? id).map removed :=
    fun id => Table.get?_update _ _ id
  have hstart : Counted db after [] := .of_same rfl
  have hcounted : Counted db (cancelJobsTx (bumpNodeGeneration after nodeId) key) [nodeId] :=
    (hstart.bump nodeId).congr rfl
  refine ⟨hlinked.keep rfl (fun _ => id) (fun _ => id) fun id rule' hrule' => ?_,
    hcounted.advances fun other hother id => ?_⟩
  · have hrule' : after.rules.get? id = some rule' := hrule'
    rw [hrules, Option.map_eq_some_iff] at hrule'
    obtain ⟨rule, hrule, rfl⟩ := hrule'
    exact ⟨rule, hrule, (hremoved rule).symm⟩
  · have hne : other ≠ nodeId := by simpa using hother
    show served after other id = _
    by_cases hhere : ∃ rule, db.rules.get? id = some rule ∧ rule.nodeId = other
    · obtain ⟨rule, hrule, hnode⟩ := hhere
      have hkey : rule.key ≠ key := fun heq => hne (hnode.symm.trans (congrArg (·.2.2) heq))
      have hsame : removed rule = rule := by simp [removed, hkey]
      refine AgreeOn.served other (by rw [hrules, hrule, Option.map_some, hsame])
        fun found hfound _ => ?_
      rw [hrule, Option.some.injEq] at hfound
      subst hfound
      refine ⟨?_, ?_, rfl, rfl⟩
      · show (db.entitlements.deleteWhere _).get? _ = _
        rw [Table.get?_deleteWhere, if_neg (by simpa using hkey)]
      · show ((db.quotas.deleteWhere _).get? _).any _ = _
        rw [Table.get?_deleteWhere, if_neg (by simpa using hkey)]
    · have helsewhere : ∀ rule, db.rules.get? id = some rule → rule.nodeId ≠ other :=
        fun rule hrule hnode => hhere ⟨rule, hrule, hnode⟩
      rw [served_of_other helsewhere, served_of_other fun rule' hrule' => ?_]
      rw [hrules, Option.map_eq_some_iff] at hrule'
      obtain ⟨rule, hrule, rfl⟩ := hrule'
      exact fun hnode => helsewhere rule hrule ((congrArg (·.2.2) (hremoved rule)).symm.trans hnode)

/-! ### Rules -/

theorem served_put_of_other {other : String} (hrow : row.nodeId ≠ other)
    (hprevious : ∀ previous, db.rules.get? id = some previous → previous.nodeId ≠ other) (id' : ℤ) :
    served { db with rules := db.rules.put id row } other id' = served db other id' := by
  by_cases hid : id' = id
  · subst hid
    rw [served_of_other hprevious, served_of_other fun rule hrule => ?_]
    rw [Table.get?_put, if_pos rfl, Option.some.injEq] at hrule
    exact hrule ▸ hrow
  · refine AgreeOn.served other ?_ fun _ _ _ => ⟨rfl, rfl, rfl, rfl⟩
    show (db.rules.put id row).get? id' = _
    rw [Table.get?_put, if_neg hid]

theorem Linked.put (h : Linked db) (hnext : db.nextRuleId ≤ db'.nextRuleId)
    (hid : id < db'.nextRuleId) (hrules : db'.rules = db.rules.put id row)
    (husers : db'.users = db.users) (hnodes : db'.nodes = db.nodes)
    (huser : db.users.contains (row.tenantId, row.userId) = true)
    (hnode : db.nodes.contains row.nodeId = true) : Linked db' := by
  have hcases : ∀ id' rule, db'.rules.get? id' = some rule →
      id' = id ∧ rule = row ∨ id' ≠ id ∧ db.rules.get? id' = some rule :=
    fun id' rule hrule => Table.of_get?_put (hrules ▸ hrule)
  refine ⟨fun id' rule hrule => ?_, fun id' rule hrule => ?_, fun id' rule hrule => ?_⟩
  · rcases hcases id' rule hrule with ⟨rfl, -⟩ | ⟨-, hrule⟩
    · exact hid
    · exact (h.fresh id' rule hrule).trans_le hnext
  · rw [husers]
    rcases hcases id' rule hrule with ⟨-, rfl⟩ | ⟨-, hrule⟩
    · exact huser
    · exact h.user id' rule hrule
  · rw [hnodes]
    rcases hcases id' rule hrule with ⟨-, rfl⟩ | ⟨-, hrule⟩
    · exact hnode
    · exact h.node id' rule hrule

theorem writeRule_node (h : writeRule db id row = .ok db') :
    db.nodes.contains row.nodeId = true := by
  simp only [writeRule, Fallible.bind_eq_ok, require_eq_ok, exists_const, Fallible.pure_eq_ok] at h
  exact h.1

theorem lockUserTx_contains (h : lockUserTx db tenantId userId = .ok user) :
    db.users.contains (tenantId, userId) = true :=
  Table.contains_iff.mpr ⟨user, found_eq_ok.mp h⟩

theorem createRule_fine {write : ForwardingRuleWrite} (hlinked : Linked db)
    (h : createRule out db actor tenantId userId write = .ok db') : Fine db db' := by
  simp only [createRule, Fallible.bind_eq_ok, Fallible.pure_eq_ok] at h
  obtain ⟨_, -, _, -, _, huser, _, -, written, hwrite, rfl⟩ := h
  let row := write.row tenantId userId
  let after : Db := { db with
    nextRuleId := db.nextRuleId + 1, rules := db.rules.put db.nextRuleId row }
  have hlisted := writeRule_node hwrite
  have hnode : db.nodes.contains row.nodeId = true := hlisted
  have heq : written = after := writeRule_eq hwrite
  subst heq
  have hfresh : db.rules.get? db.nextRuleId = none := by
    refine Option.eq_none_iff_forall_ne_some.mpr fun rule hrule => ?_
    exact (hlinked.fresh _ rule hrule).ne rfl
  have hstart : Counted db after [] := .of_same rfl
  have hremembered : Counted db (rememberRuleNode after db.nextRuleId write.nodeId) [] :=
    hstart.congr rfl
  have hcounted := hremembered.bump write.nodeId
  refine ⟨hlinked.put (by show db.nextRuleId ≤ _ + 1; omega)
    (by show _ < db.nextRuleId + 1; omega) rfl rfl rfl (lockUserTx_contains huser) hnode,
    hcounted.advances fun other hother id => ?_⟩
  have hne : write.nodeId ≠ other := fun heq => by simp [heq] at hother
  exact served_put_of_other hne (by simp [hfresh]) id

theorem updateRule_fine {ruleId : ℤ} {write : ForwardingRuleWrite} (hlinked : Linked db)
    (h : updateRule out db actor tenantId userId ruleId write = .ok db') : Fine db db' := by
  simp only [updateRule, Fallible.bind_eq_ok, found_eq_ok, Fallible.pure_eq_ok] at h
  obtain ⟨_, -, _, -, _, huser, previous, hown, _, -, written, hwrite, rfl⟩ := h
  obtain ⟨hprevious, htenant, howner, hlive⟩ := ownRule_spec hown
  let row := write.row tenantId userId
  let before := rememberRuleNode db ruleId previous.nodeId
  have hlisted := writeRule_node hwrite
  have hnode : db.nodes.contains row.nodeId = true := hlisted
  have heq : written = { before with rules := db.rules.put ruleId row } := writeRule_eq hwrite
  subst heq
  let after := rememberRuleNode { before with rules := db.rules.put ruleId row } ruleId write.nodeId
  have hlinked' : Linked after := hlinked.put (le_refl db.nextRuleId)
    (hlinked.fresh ruleId previous hprevious) rfl rfl rfl (lockUserTx_contains huser) hnode
  have hstart : Counted db after [] := .of_same rfl
  show Fine db (if runtimeChanged previous row then bumpNodes after [previous.nodeId, write.nodeId]
    else after)
  cases hchanged : runtimeChanged previous row with
  | true =>
    rw [if_pos rfl]
    obtain ⟨nodeStates, hbumped⟩ := bumpNodes_eq after [previous.nodeId, write.nodeId]
    have hcounted := hstart.bumpNodes [previous.nodeId, write.nodeId]
    refine ⟨by rw [hbumped]; exact hlinked'.congr rfl rfl rfl rfl,
      hcounted.advances fun other hother id => ?_⟩
    rw [hbumped]
    simp only [List.mem_cons, List.not_mem_nil, or_false, not_or] at hother
    refine served_put_of_other (Ne.symm hother.2) (fun found hfound => ?_) id
    rw [hprevious, Option.some.injEq] at hfound
    exact hfound ▸ Ne.symm hother.1
  | false =>
    rw [if_neg Bool.false_ne_true]
    refine ⟨hlinked', hstart.advances fun other _ id => ?_⟩
    obtain ⟨hsame, hprotocol, hport, hhost, htarget, henabled⟩ :=
      runtimeChanged_eq_false.mp hchanged
    by_cases hid : id = ruleId
    · -- only the name can have changed
      subst hid
      have hrow : row = { previous with name := row.name } := by
        rw [ForwardingRule.mk.injEq]
        exact ⟨htenant.symm, howner.symm, hsame.symm, rfl, hprotocol.symm, hport.symm, hhost.symm,
          htarget.symm, henabled.symm, hlive.symm⟩
      show served { db with rules := db.rules.put id row } other id = _
      unfold served
      rw [Table.get?_put, if_pos rfl, hprevious, hrow]
      rfl
    · refine AgreeOn.served other ?_ fun _ _ _ => ⟨rfl, rfl, rfl, rfl⟩
      show (db.rules.put ruleId row).get? id = _
      rw [Table.get?_put, if_neg hid]

theorem deleteRule_fine {ruleId : ℤ} (hlinked : Linked db)
    (h : deleteRule db actor tenantId userId ruleId = .ok db') : Fine db db' := by
  simp only [deleteRule, Fallible.bind_eq_ok, found_eq_ok, Fallible.pure_eq_ok] at h
  obtain ⟨_, -, rule, hown, rfl⟩ := h
  have hrule := (ownRule_spec hown).1
  let row := { rule with deleted := true, enabled := false }
  let after : Db := { db with rules := db.rules.put ruleId row }
  have hstart : Counted db after [] := .of_same rfl
  refine ⟨hlinked.put (le_refl _) (hlinked.fresh ruleId rule hrule) rfl rfl
    rfl (hlinked.user ruleId rule hrule) (hlinked.node ruleId rule hrule),
    (hstart.bump rule.nodeId).advances fun other hother id => ?_⟩
  have hne : rule.nodeId ≠ other := fun heq => by simp [heq] at hother
  show served { db with rules := db.rules.put ruleId row } other id = _
  refine served_put_of_other (show row.nodeId ≠ other from hne) (fun found hfound => ?_) id
  rw [hrule, Option.some.injEq] at hfound
  exact hfound ▸ hne

/-! ### Quotas -/

theorem Linked.fine {nodes : List String} (h : Linked db) (hcounted : Counted db db' nodes)
    (hrules : db'.rules = db.rules) (hnext : db'.nextRuleId = db.nextRuleId)
    (husers : db'.users = db.users) (hnodes : db'.nodes = db.nodes)
    (hagree : ∀ rule, rule.nodeId ∉ nodes → AgreeOn db db' rule) : Fine db db' :=
  ⟨h.congr hrules hnext husers hnodes, hcounted.advances fun _ hother _ =>
    AgreeOn.served _ (by rw [hrules]) fun rule _ hnode => hagree rule (hnode ▸ hother)⟩

theorem setQuota_fine {limitBytes : Option ℕ} (hlinked : Linked db)
    (h : setQuota db actor tenantId userId nodeId limitBytes = .ok db') : Fine db db' := by
  simp only [setQuota, Fallible.bind_eq_ok, Fallible.pure_eq_ok] at h
  obtain ⟨_, -, _, -, _, -, _, -, rfl⟩ := h
  refine hlinked.fine (.of_same rfl) rfl rfl rfl rfl fun rule _ => ⟨rfl, ?_, rfl, rfl⟩
  show ((db.quotas.upsert _ _).get? rule.key).any _ = _
  rw [Table.get?_upsert]
  split
  · rename_i heq
    rw [heq]
    cases db.quotas.get? (tenantId, userId, nodeId) <;> rfl
  · rfl

theorem enforceOne_fine (hlinked : Linked db) (out : Surroundings)
    (due : EntitlementKey × NodeQuota) : Fine db (enforceOne out db due) := by
  have hstart : Counted db db [] := .of_same rfl
  have hcounted : Counted db (enforceOne out db due) [due.1.2.2] :=
    (hstart.bump due.1.2.2).congr rfl
  refine hlinked.fine hcounted rfl rfl rfl rfl fun rule hnode => ⟨rfl, ?_, rfl, rfl⟩
  have hkey : rule.key ≠ due.1 := fun heq => hnode (by simp [← heq, ForwardingRule.key])
  show ((db.quotas.put due.1 _).get? rule.key).any _ = _
  rw [Table.get?_put, if_neg hkey]

theorem Fine.trans {a b c : Db} (hab : Fine a b) (hbc : Fine b c) : Fine a c :=
  ⟨hbc.1, hab.2.trans hbc.2⟩

theorem enforceQuotas_fine (hlinked : Linked db) (out : Surroundings) :
    Fine db (enforceQuotas out db) := by
  have hfold : ∀ (due : List (EntitlementKey × NodeQuota)) (db : Db), Linked db →
      Fine db (due.foldl (enforceOne out) db) := by
    intro due
    induction due with
    | nil => exact fun db hlinked => ⟨hlinked, .refl db⟩
    | cons first rest ih =>
      intro db hlinked
      have hfirst := enforceOne_fine hlinked out first
      exact hfirst.trans (ih _ hfirst.1)
  have hfine := hfold (quotasDue out db) db hlinked
  exact hfine.trans (hfine.1.fine (.of_same rfl) rfl rfl rfl rfl fun _ _ => ⟨rfl, rfl, rfl, rfl⟩)

/-! ### Periods of service -/

theorem bumpForwardingTx_eq (db : Db) (users : List (String × String)) : ∃ nodeStates nodes,
    bumpForwardingTx db users = { db with nodeStates } ∧ Counted db { db with nodeStates } nodes
      ∧ ∀ key, db.entitlements.contains key = true → (key.1, key.2.1) ∈ users → key.2.2 ∈ nodes := by
  let nodes := (db.entitlements.keys.filter fun key => (key.1, key.2.1) ∈ users).map fun key => key.2.2
  obtain ⟨nodeStates, heq⟩ := bumpNodes_eq db nodes
  have hstart : Counted db db [] := .of_same rfl
  refine ⟨nodeStates, nodes, heq, heq ▸ hstart.bumpNodes nodes, fun key hkey howner => ?_⟩
  refine List.mem_map.mpr ⟨key, List.mem_filter.mpr ⟨Table.mem_keys.mpr hkey, ?_⟩, rfl⟩
  simpa using howner

/-- **Accounts may change as long as the machines they are entitled on are counted.** -/
theorem bumpForwardingTx_fine (hlinked : Linked db) {users : Table (String × String) UserRow}
    {changed : List (String × String)}
    (hkept : ∀ owner, db.users.contains owner = true → users.contains owner = true)
    (hsame : ∀ owner, owner ∉ changed → users.get? owner = db.users.get? owner) :
    Fine db (bumpForwardingTx { db with users } changed) := by
  obtain ⟨nodeStates, nodes, heq, hcounted, hnodes⟩ := bumpForwardingTx_eq { db with users } changed
  have hstart : Counted db { db with users, nodeStates } nodes :=
    ⟨hcounted.mono, hcounted.bumped, hcounted.kept⟩
  rw [heq]
  refine ⟨hlinked.keep rfl hkept (fun _ => id) fun _ rule hrule => ⟨rule, hrule, rfl⟩,
    hstart.advances fun other hother id => served_congr rfl fun rule hrule hnode => ?_⟩
  by_cases howner : (rule.tenantId, rule.userId) ∈ changed
  · -- without an entitlement on the machine the rule is served in no case
    have hunentitled : ∀ db' : Db, db'.entitlements = db.entitlements →
        servedRule db' other rule = false := by
      intro db' hentitlements
      refine Bool.eq_false_iff.mpr fun hserved => ?_
      obtain ⟨entitlement, hentitlement⟩ := servedRule_entitled hserved
      rw [hentitlements] at hentitlement
      have hcontains := Table.contains_iff.mpr ⟨entitlement, hentitlement⟩
      exact hother (hnode ▸ hnodes rule.key hcontains howner)
    exact .inr ⟨hunentitled db rfl, hunentitled _ rfl⟩
  · refine .inl ⟨rfl, rfl, ?_, rfl⟩
    show (users.get? _).any _ = _
    rw [hsame _ howner]

theorem contains_put_of {α κ : Type} [DecidableEq κ] {t : Table κ α} {k k' : κ} {v : α}
    (h : t.contains k' = true) : (t.put k v).contains k' = true := by
  rw [Table.put, Table.contains_upsert, h, Bool.or_true]

theorem updateService_fine {policy : UserServicePolicyWrite} (hlinked : Linked db)
    (h : updateService out db actor tenantId userId policy = .ok db') : Fine db db' := by
  simp only [updateService, Fallible.bind_eq_ok, Fallible.pure_eq_ok] at h
  obtain ⟨_, -, _, -, user, huser, h⟩ := h
  let row : UserRow := { user with
    serviceSuspended := outOfService policy.serviceStartsAt policy.serviceExpiresAt out.now
    trafficResetDay := policy.trafficResetDay
    serviceStartsAt := policy.serviceStartsAt
    serviceExpiresAt := policy.serviceExpiresAt }
  have hkept : ∀ owner, db.users.contains owner = true →
      (db.users.put (tenantId, userId) row).contains owner = true := fun _ => contains_put_of
  have hput : ∀ owner, owner ≠ (tenantId, userId) →
      (db.users.put (tenantId, userId) row).get? owner = db.users.get? owner := by
    intro owner hne
    rw [Table.get?_put, if_neg hne]
  by_cases hchanged : user.serviceSuspended ≠ row.serviceSuspended
  · rw [if_pos hchanged] at h
    subst h
    exact bumpForwardingTx_fine hlinked hkept fun owner howner => hput owner (by simpa using howner)
  · rw [if_neg hchanged] at h
    subst h
    have hstart : Counted db { db with users := db.users.put (tenantId, userId) row } [] :=
      .of_same rfl
    refine ⟨hlinked.keep rfl hkept (fun _ => id) fun _ rule hrule => ⟨rule, hrule, rfl⟩,
      hstart.advances fun other _ id => AgreeOn.served other rfl fun rule _ _ => ⟨rfl, rfl, ?_, rfl⟩⟩
    show ((db.users.put _ _).get? (rule.tenantId, rule.userId)).any _ = _
    by_cases howner : (rule.tenantId, rule.userId) = (tenantId, userId)
    · have hsuspended : row.serviceSuspended = user.serviceSuspended := (not_ne_iff.mp hchanged).symm
      rw [howner, Table.get?_put, if_pos rfl, found_eq_ok.mp huser, Option.any_some, Option.any_some,
        hsuspended]
    · rw [hput _ howner]

theorem enforceService_fine (hlinked : Linked db) (out : Surroundings) :
    Fine db (enforceService out db) := by
  refine bumpForwardingTx_fine hlinked (fun owner howner => ?_) fun owner howner => ?_
  · obtain ⟨user, huser⟩ := Table.contains_iff.mp howner
    exact Table.contains_iff.mpr ⟨_, by rw [Table.get?_update, huser]; rfl⟩
  · rw [Table.get?_update]
    cases db.users.get? owner with
    | none => rfl
    | some user => simp [howner]

/-! ### Accounts and machines -/

theorem addUser_fine (hlinked : Linked db)
    (h : (Transaction.addUser tenantId userId user).run db = .ok db') : Fine db db' := by
  simp only [Transaction.run, Fallible.bind_eq_ok, require_eq_ok, exists_const,
    Fallible.pure_eq_ok, Bool.not_eq_true'] at h
  obtain ⟨hnew, rfl⟩ := h
  have hstart : Counted db { db with users := db.users.put (tenantId, userId) user } [] :=
    .of_same rfl
  refine ⟨hlinked.keep rfl (fun _ => contains_put_of) (fun _ => id) fun _ rule hrule =>
      ⟨rule, hrule, rfl⟩,
    hstart.advances fun other _ id => AgreeOn.served other rfl fun rule hrule _ => ⟨rfl, rfl, ?_, rfl⟩⟩
  have howner : (rule.tenantId, rule.userId) ≠ (tenantId, userId) := by
    intro heq
    have hlisted := hlinked.user id rule hrule
    rw [heq, hnew] at hlisted
    cases hlisted
  show ((db.users.put _ _).get? _).any _ = _
  rw [Table.get?_put, if_neg howner]

theorem addNode_fine (hlinked : Linked db)
    (h : (Transaction.addNode nodeId node).run db = .ok db') : Fine db db' := by
  simp only [Transaction.run, Fallible.bind_eq_ok, require_eq_ok, exists_const,
    Fallible.pure_eq_ok, Bool.not_eq_true'] at h
  obtain ⟨hnew, rfl⟩ := h
  have hstart : Counted db { db with nodes := db.nodes.put nodeId node } [] := .of_same rfl
  refine ⟨hlinked.keep rfl (fun _ => id) (fun _ => contains_put_of) fun _ rule hrule =>
      ⟨rule, hrule, rfl⟩,
    hstart.advances fun other _ id => AgreeOn.served other rfl fun rule hrule _ => ⟨rfl, rfl, rfl, ?_⟩⟩
  have hne : rule.nodeId ≠ nodeId := by
    intro heq
    have hlisted := hlinked.node id rule hrule
    rw [heq, hnew] at hlisted
    cases hlisted
  show ((db.nodes.put _ _).get? _).any _ = _
  rw [Table.get?_put, if_neg hne]

theorem agreeOn_withUserStatus {owner : String × String} (huser : db.users.get? owner = some user)
    (hsame : (rule.tenantId, rule.userId) = owner → user.status = status) :
    AgreeOn db (withUserStatus db owner user status) rule := by
  refine ⟨rfl, rfl, ?_, rfl⟩
  show ((db.users.put _ _).get? _).any _ = _
  rw [Table.get?_put]
  split
  · rename_i howner
    rw [howner, huser, Option.any_some, Option.any_some, hsame howner]
  · rfl

theorem agreeOn_withNodeStatus (hnode : db.nodes.get? nodeId = some node)
    (hsame : rule.nodeId = nodeId → node.retired = retired) :
    AgreeOn db (withNodeStatus db nodeId node retired) rule := by
  refine ⟨rfl, rfl, rfl, ?_⟩
  show ((db.nodes.put _ _).get? _).any _ = _
  rw [Table.get?_put]
  split
  · rename_i hhere
    rw [hhere, hnode, Option.any_some, Option.any_some, hsame hhere]
  · rfl

theorem servedRule_withUserStatus {owner : String × String}
    (howner : (rule.tenantId, rule.userId) = owner)
    (h : servedRule (withUserStatus db owner user status) nodeId rule = true) :
    servedRule (withUserStatus db owner user .active) nodeId rule = true := by
  simp only [servedRule, withUserStatus, howner, Table.get?_put, if_true, Option.any_some,
    Bool.and_eq_true, decide_eq_true_eq] at h ⊢
  exact ⟨⟨h.1.1, trivial, h.1.2.2⟩, h.2⟩

theorem servedRule_withNodeStatus
    (h : servedRule (withNodeStatus db nodeId node retired) nodeId rule = true) :
    servedRule (withNodeStatus db nodeId node false) nodeId rule = true := by
  simp only [servedRule, withNodeStatus, Table.get?_put, if_true, Option.any_some,
    Bool.and_eq_true] at h ⊢
  exact ⟨h.1, rfl⟩

theorem updateUserStatus_fine (hlinked : Linked db)
    (hheard : (Transaction.updateUserStatus actor tenantId userId status).heard db = true)
    (h : updateUserStatus db actor tenantId userId status = .ok db') : Fine db db' := by
  simp only [updateUserStatus, Fallible.bind_eq_ok, found_eq_ok, Fallible.pure_eq_ok] at h
  obtain ⟨_, -, user, huser, rfl⟩ := h
  have hstart : Counted db (withUserStatus db (tenantId, userId) user status) [] := .of_same rfl
  refine ⟨hlinked.keep rfl (fun _ => contains_put_of) (fun _ => id) fun _ rule hrule =>
      ⟨rule, hrule, rfl⟩,
    hstart.advances fun other _ id => served_congr rfl fun rule hrule hnode => ?_⟩
  simp only [Transaction.heard, huser, Option.all_some, Bool.or_eq_true, decide_eq_true_eq,
    Bool.not_eq_true'] at hheard
  rcases hheard with hstatus | hnone
  · exact .inl (agreeOn_withUserStatus huser fun _ => hstatus)
  by_cases howner : (rule.tenantId, rule.userId) = (tenantId, userId)
  · -- not served with the account active, so not served before and not after
    have hoff : servedRule (withUserStatus db (tenantId, userId) user .active) other rule = false := by
      rw [dependsOnUser, huser, Option.any_some, List.any_eq_false] at hnone
      simpa [howner, hnode] using hnone (id, rule) (Table.mem_rows.mpr hrule)
    have hnever : ∀ status,
        servedRule (withUserStatus db (tenantId, userId) user status) other rule = false := by
      intro status
      refine Bool.eq_false_iff.mpr fun hserved => ?_
      rw [servedRule_withUserStatus howner hserved] at hoff
      cases hoff
    have hself : AgreeOn db (withUserStatus db (tenantId, userId) user user.status) rule :=
      agreeOn_withUserStatus huser fun _ => rfl
    exact .inr ⟨(hself.servedRule other).symm.trans (hnever user.status), hnever status⟩
  · exact .inl (agreeOn_withUserStatus huser fun heq => absurd heq howner)

theorem updateNodeStatus_fine (hlinked : Linked db)
    (hheard : (Transaction.updateNodeStatus actor nodeId retired).heard db = true)
    (h : updateNodeStatus db actor nodeId retired = .ok db') : Fine db db' := by
  simp only [updateNodeStatus, Fallible.bind_eq_ok, found_eq_ok, Fallible.pure_eq_ok] at h
  obtain ⟨_, -, node, hnode, rfl⟩ := h
  have hstart : Counted db (withNodeStatus db nodeId node retired) [] := .of_same rfl
  refine ⟨hlinked.keep rfl (fun _ => id) (fun _ => contains_put_of) fun _ rule hrule =>
      ⟨rule, hrule, rfl⟩,
    hstart.advances fun other _ id => served_congr rfl fun rule hrule hon => ?_⟩
  simp only [Transaction.heard, hnode, Option.all_some, Bool.or_eq_true, decide_eq_true_eq,
    Bool.not_eq_true'] at hheard
  rcases hheard with hstatus | hnone
  · exact .inl (agreeOn_withNodeStatus hnode fun _ => hstatus)
  by_cases hhere : rule.nodeId = nodeId
  · have hother : other = nodeId := hon.symm.trans hhere
    subst hother
    have hoff : servedRule (withNodeStatus db other node false) other rule = false := by
      rw [dependsOnNode, hnode, Option.any_some, List.any_eq_false] at hnone
      simpa using hnone (id, rule) (Table.mem_rows.mpr hrule)
    have hnever : ∀ retired,
        servedRule (withNodeStatus db other node retired) other rule = false := by
      intro retired
      refine Bool.eq_false_iff.mpr fun hserved => ?_
      rw [servedRule_withNodeStatus hserved] at hoff
      cases hoff
    have hself : AgreeOn db (withNodeStatus db other node node.retired) rule :=
      agreeOn_withNodeStatus hnode fun _ => rfl
    exact .inr ⟨(hself.servedRule other).symm.trans (hnever node.retired), hnever retired⟩
  · exact .inl (agreeOn_withNodeStatus hnode fun heq => absurd heq hhere)

/-! ### Reads -/

theorem readTx_fine (hlinked : Linked db) (nodeId : String) (overtaken : Bool) :
    Fine db (readTx db nodeId overtaken).1 := by
  have hlocked : ∀ db : Db, Linked db → Fine db (lockedRead db nodeId).1 := by
    intro db hlinked
    have hgeneration : ∀ other, generation (lockedRead db nodeId).1 other = generation db other := by
      intro other
      show (((db.nodeStates.upsert nodeId _).get? other).getD .initial).desiredGeneration = _
      rw [Table.get?_upsert]
      split
      · rename_i heq
        subst heq
        rfl
      · rfl
    have hcounted : Counted db (lockedRead db nodeId).1 [] := by
      refine ⟨fun other => (hgeneration other).ge, fun _ hmem => absurd hmem List.not_mem_nil,
        fun other state hstate hconverged => ?_⟩
      have hupsert : (db.nodeStates.upsert nodeId fun state => state.getD .initial).get? other
          = some state := hstate
      rw [Table.get?_upsert] at hupsert
      split at hupsert
      · rename_i heq
        subst heq
        cases hprevious : db.nodeStates.get? other with
        | none =>
          rw [hprevious] at hupsert
          cases hupsert
          cases hconverged
        | some previous =>
          rw [hprevious] at hupsert
          exact hupsert
      · exact hupsert
    exact hlinked.fine hcounted rfl rfl rfl rfl fun _ _ => ⟨rfl, rfl, rfl, rfl⟩
  cases overtaken with
  | true => exact hlocked db hlinked
  | false =>
    have hpass : Fine db (disableBlockedRules db nodeId none) :=
      ⟨hlinked.disableBlockedRules nodeId none, advances_disableBlockedRules db nodeId none⟩
    exact hpass.trans (hlocked _ hpass.1)

end Brocade.Forwarding
