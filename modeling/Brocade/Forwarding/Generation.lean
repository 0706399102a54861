/-
The counter of a machine stands for what the machine is asked.

`served` is what one rule contributes to the list a machine reads.  A transaction `Advances`:
no counter goes back, where a counter stays every rule contributes what it did before, and an
answer that is on record as converged was so before.  Whatever else is promised of counters
follows from that by induction over a run.

A policy pass that finds nothing leaves everything alone, and one that finds something
advances the counter, so that a read is followed like any other transaction.
-/
import Brocade.Forwarding.Authorized
import Brocade.Forwarding.Converge

namespace Brocade.Forwarding

open Usage (StoreError)

/-! ### What one rule contributes -/

/-- The rule a machine is served. -/
def served (db : Db) (nodeId : String) (id : ℤ) : Option ForwardingRuleDesired :=
  (db.rules.get? id).bind fun rule =>
    if servedRule db nodeId rule then some (desiredRule db id rule) else none

variable {db db' : Db} {nodeId : String} {id : ℤ} {rule : ForwardingRule} {nodes : List String}

theorem served_eq_some {desired : ForwardingRuleDesired} :
    served db nodeId id = some desired ↔ ∃ rule, db.rules.get? id = some rule
      ∧ servedRule db nodeId rule = true ∧ desiredRule db id rule = desired := by
  simp only [served, Option.bind_eq_some_iff, Option.ite_none_right_eq_some, Option.some.injEq]

theorem servedRule_nodeId (h : servedRule db nodeId rule = true) : rule.nodeId = nodeId := by
  simp only [servedRule, Bool.and_eq_true, decide_eq_true_eq] at h
  exact h.1.1.1.1.1

theorem servedRule_active (h : servedRule db nodeId rule = true) : rule.active = true := by
  simp only [servedRule, Bool.and_eq_true] at h
  exact h.1.1.1.1.2

theorem servedRule_entitled (h : servedRule db nodeId rule = true) :
    ∃ entitlement, db.entitlements.get? rule.key = some entitlement := by
  simp only [servedRule, Bool.and_eq_true, Option.any_eq_true] at h
  obtain ⟨entitlement, hentitlement, -⟩ := h.1.1.1.2
  exact ⟨entitlement, hentitlement⟩

theorem served_of_other (h : ∀ rule, db.rules.get? id = some rule → rule.nodeId ≠ nodeId) :
    served db nodeId id = none := by
  refine Option.eq_none_iff_forall_ne_some.mpr fun desired hserved => ?_
  obtain ⟨rule, hrule, hserves, -⟩ := served_eq_some.mp hserved
  exact h rule hrule (servedRule_nodeId hserves)

/-- Two databases agree on all that a rule is weighed by. -/
structure AgreeOn (db db' : Db) (rule : ForwardingRule) : Prop where
  entitlement : db'.entitlements.get? rule.key = db.entitlements.get? rule.key
  quota : (db'.quotas.get? rule.key).any (·.suspended) = (db.quotas.get? rule.key).any (·.suspended)
  user : (db'.users.get? (rule.tenantId, rule.userId)).any (fun user =>
      user.status = .active && !user.serviceSuspended)
    = (db.users.get? (rule.tenantId, rule.userId)).any fun user =>
      user.status = .active && !user.serviceSuspended
  node : (db'.nodes.get? rule.nodeId).any (fun node => !node.retired)
    = (db.nodes.get? rule.nodeId).any fun node => !node.retired

theorem AgreeOn.servedRule (h : AgreeOn db db' rule) (nodeId : String) :
    servedRule db' nodeId rule = servedRule db nodeId rule := by
  unfold Forwarding.servedRule
  by_cases hnode : rule.nodeId = nodeId
  · subst hnode
    rw [h.entitlement, h.quota, h.user, h.node]
  · simp [hnode]

/-- A rule is served as before if it is not touched, and what it is weighed by is not, unless
it is served neither before nor after. -/
theorem served_congr (hrules : db'.rules.get? id = db.rules.get? id)
    (h : ∀ rule, db.rules.get? id = some rule → rule.nodeId = nodeId → AgreeOn db db' rule
      ∨ (servedRule db nodeId rule = false ∧ servedRule db' nodeId rule = false)) :
    served db' nodeId id = served db nodeId id := by
  unfold served
  rw [hrules]
  cases hrule : db.rules.get? id with
  | none => rfl
  | some rule =>
    rw [Option.bind_some, Option.bind_some]
    by_cases hnode : rule.nodeId = nodeId
    · rcases h rule hrule hnode with hagree | ⟨hnot, hnot'⟩
      · rw [hagree.servedRule, desiredRule, desiredRule, hagree.entitlement]
      · rw [hnot, hnot']
        simp
    · have hnot : ∀ db, servedRule db nodeId rule = false := by
        intro db
        simp [servedRule, hnode]
      rw [hnot, hnot]
      simp

theorem AgreeOn.served (nodeId : String) (hrules : db'.rules.get? id = db.rules.get? id)
    (h : ∀ rule, db.rules.get? id = some rule → rule.nodeId = nodeId → AgreeOn db db' rule) :
    served db' nodeId id = served db nodeId id :=
  served_congr hrules fun rule hrule hnode => .inl (h rule hrule hnode)

/-! ### The list a machine reads -/

theorem mem_desiredRules {desired : ForwardingRuleDesired} :
    desired ∈ desiredRules db nodeId ↔ served db nodeId desired.id = some desired := by
  rw [served_eq_some]
  have hlist : desired ∈ desiredRules db nodeId ↔ ∃ row ∈ db.rules.rows,
      servedRule db nodeId row.2 = true ∧ desiredRule db row.1 row.2 = desired := by
    simp only [desiredRules, List.mem_insertionSort, List.mem_map, List.mem_filter, and_assoc]
  rw [hlist]
  constructor
  · rintro ⟨row, hrow, hserved, rfl⟩
    exact ⟨row.2, Table.mem_rows.mp hrow, hserved, rfl⟩
  · rintro ⟨rule, hrule, hserved, hdesired⟩
    exact ⟨(desired.id, rule), Table.mem_rows.mpr hrule, hserved, hdesired⟩

theorem desiredRules_ids (db : Db) (nodeId : String) :
    (desiredRules db nodeId).Pairwise fun a b => a.id ≤ b.id :=
  List.pairwise_insertionSort _ _

theorem desiredRules_nodup (db : Db) (nodeId : String) :
    ((desiredRules db nodeId).map (·.id)).Nodup := by
  unfold desiredRules
  refine ((List.perm_insertionSort _ _).map _).nodup_iff.mpr ?_
  rw [List.map_map]
  exact db.rules.nodup.sublist (List.filter_sublist.map Prod.fst)

theorem eq_of_ordered {a b : List ForwardingRuleDesired} (ha : a.Pairwise fun x y => x.id ≤ y.id)
    (hb : b.Pairwise fun x y => x.id ≤ y.id) (hanodup : (a.map (·.id)).Nodup)
    (hbnodup : (b.map (·.id)).Nodup) (hmem : ∀ desired, desired ∈ a ↔ desired ∈ b) : a = b := by
  refine List.Perm.eq_of_pairwise (fun x y hx hy hxy hyx => ?_) ha hb
    ((List.perm_ext_iff_of_nodup hanodup.of_map hbnodup.of_map).mpr hmem)
  exact List.inj_on_of_nodup_map hanodup hx ((hmem y).mpr hy) (le_antisymm hxy hyx)

/-- **Rules that contribute the same make the same list.** -/
theorem desiredRules_congr (h : ∀ id, served db' nodeId id = served db nodeId id) :
    desiredRules db' nodeId = desiredRules db nodeId := by
  apply eq_of_ordered (desiredRules_ids db' nodeId) (desiredRules_ids db nodeId)
    (desiredRules_nodup db' nodeId) (desiredRules_nodup db nodeId)
  intro desired
  rw [mem_desiredRules, mem_desiredRules, h]

/-- What the address policy leaves of a list. -/
def permitted (desired : ForwardingRuleDesired) : Bool :=
  !blockedTarget desired.targetHost (desired.allowPrivateTargets.getD false)

theorem permitted_desiredRule (h : servedRule db nodeId rule = true) :
    permitted (desiredRule db id rule) = !isBlocked db rule := by
  obtain ⟨entitlement, hentitlement⟩ := servedRule_entitled h
  simp [permitted, desiredRule, isBlocked, hentitlement]

theorem disableBlockedRules_eq (db : Db) (nodeId : String) (owner : Option (String × String)) :
    ∃ rules nodeStates, disableBlockedRules db nodeId owner = { db with rules, nodeStates } := by
  unfold disableBlockedRules
  split
  · exact ⟨_, _, rfl⟩
  · exact ⟨db.rules, db.nodeStates, rfl⟩

theorem agreeOn_disableBlockedRules (db : Db) (nodeId : String) (owner : Option (String × String))
    (rule : ForwardingRule) : AgreeOn db (disableBlockedRules db nodeId owner) rule := by
  obtain ⟨rules, nodeStates, heq⟩ := disableBlockedRules_eq db nodeId owner
  rw [heq]
  exact ⟨rfl, rfl, rfl, rfl⟩

theorem served_disableBlockedRules (db : Db) (nodeId : String) (id : ℤ) :
    served (disableBlockedRules db nodeId none) nodeId id
      = (served db nodeId id).filter permitted := by
  unfold served
  rw [get?_disableBlockedRules]
  cases hrule : db.rules.get? id with
  | none => rfl
  | some rule =>
    rw [Option.map_some, Option.bind_some, Option.bind_some]
    have hagree := agreeOn_disableBlockedRules db nodeId none
    by_cases hserved : servedRule db nodeId rule = true
    · have hinPass : inPass nodeId none rule = true := by
        simp [inPass, servedRule_nodeId hserved, servedRule_active hserved]
      have hpermitted : permitted (desiredRule db id rule) = !isBlocked db rule :=
        permitted_desiredRule hserved
      by_cases hblocked : isBlocked db rule = true
      · have hdisabled : (disabledIn db nodeId none rule).active = false := by
          simp [disabledIn, blockedIn, hinPass, hblocked, ForwardingRule.active]
        have hoff : servedRule (disableBlockedRules db nodeId none) nodeId
            (disabledIn db nodeId none rule) = false := by
          simp [servedRule, hdisabled]
        simp [hoff, hserved, hpermitted, hblocked, Option.filter_some]
      · have hsame : disabledIn db nodeId none rule = rule := by
          simp [disabledIn, blockedIn, hblocked]
        have hdesired : desiredRule (disableBlockedRules db nodeId none) id rule
            = desiredRule db id rule := by
          rw [desiredRule, desiredRule, (hagree rule).entitlement]
        rw [hsame, (hagree rule).servedRule, hdesired]
        simp [hserved, hpermitted, hblocked, Option.filter_some]
    · have hoff : servedRule (disableBlockedRules db nodeId none) nodeId
          (disabledIn db nodeId none rule) = false := by
        rw [(hagree _).servedRule]
        refine Bool.eq_false_iff.mpr fun hon => ?_
        rw [(disabledIn_of_active (servedRule_active hon)).1] at hon
        exact hserved hon
      simp [hoff, hserved]

/-- **What a read hands out is what is served and permitted.** -/
theorem desiredForNodeTx_rules (db : Db) (nodeId : String) :
    (desiredForNodeTx db nodeId).2.rules = (desiredRules db nodeId).filter permitted := by
  show desiredRules (disableBlockedRules db nodeId none) nodeId = _
  apply eq_of_ordered (desiredRules_ids _ nodeId)
    ((desiredRules_ids db nodeId).sublist List.filter_sublist) (desiredRules_nodup _ nodeId)
    ((desiredRules_nodup db nodeId).sublist (List.filter_sublist.map _))
  intro desired
  rw [mem_desiredRules, served_disableBlockedRules, List.mem_filter, mem_desiredRules,
    Option.filter_eq_some_iff]

/-! ### Counters -/

/-- How counters move: none goes back, those of `nodes` advance, and what is on record as
converged was so before. -/
structure Counted (db db' : Db) (nodes : List String) : Prop where
  mono : ∀ nodeId, generation db nodeId ≤ generation db' nodeId
  bumped : ∀ nodeId ∈ nodes, generation db nodeId < generation db' nodeId
  kept : ∀ nodeId state, db'.nodeStates.get? nodeId = some state →
    state.reconcileStatus = .converged → db.nodeStates.get? nodeId = some state

theorem Counted.of_same (h : db'.nodeStates = db.nodeStates) : Counted db db' [] where
  mono nodeId := by rw [generation, generation, h]
  bumped nodeId hnode := absurd hnode (List.not_mem_nil)
  kept nodeId state hstate _ := h ▸ hstate

theorem Counted.congr {db'' : Db} (h : Counted db db' nodes)
    (hsame : db''.nodeStates = db'.nodeStates) : Counted db db'' nodes where
  mono nodeId := by
    rw [generation, generation, hsame]
    exact h.mono nodeId
  bumped nodeId hnode := by
    rw [generation, generation, hsame]
    exact h.bumped nodeId hnode
  kept nodeId state hstate := h.kept nodeId state (hsame ▸ hstate)

theorem Counted.bump (h : Counted db db' nodes) (nodeId : String) :
    Counted db (bumpNodeGeneration db' nodeId) (nodeId :: nodes) where
  mono other := by
    have hmono := h.mono other
    rw [generation_bumpNodeGeneration]
    split <;> omega
  bumped other hother := by
    rw [generation_bumpNodeGeneration]
    rcases List.mem_cons.mp hother with rfl | hmem
    · have hmono := h.mono other
      rw [if_pos rfl]
      omega
    · have hlt := h.bumped other hmem
      split <;> omega
  kept other state hstate hconverged := by
    unfold bumpNodeGeneration at hstate
    rw [Table.get?_upsert] at hstate
    split at hstate
    · cases hstate
      cases hconverged
    · exact h.kept other state hstate hconverged

theorem Counted.bumpAll (h : Counted db db' nodes) (more : List String) :
    Counted db (more.foldl bumpNodeGeneration db') (more.reverse ++ nodes) := by
  induction more generalizing db' nodes with
  | nil => exact h
  | cons node rest ih =>
    rw [List.foldl_cons, List.reverse_cons, List.append_assoc]
    exact ih (h.bump node)

theorem Counted.bumpNodes (h : Counted db db' []) (nodes : List String) :
    Counted db (bumpNodes db' nodes) nodes where
  mono := (h.bumpAll nodes.dedup).mono
  bumped nodeId hnode := (h.bumpAll nodes.dedup).bumped nodeId (by simpa using hnode)
  kept := (h.bumpAll nodes.dedup).kept

theorem Counted.disableBlockedRules (h : Counted db db' nodes) (nodeId : String)
    (owner : Option (String × String)) :
    Counted db (disableBlockedRules db' nodeId owner) nodes := by
  unfold Forwarding.disableBlockedRules
  split
  · have hdisabled : Counted db { db' with
        rules := db'.rules.update fun _ => disabledIn db' nodeId owner } nodes := h.congr rfl
    have hbumped := hdisabled.bump nodeId
    exact ⟨hbumped.mono, fun other hother => hbumped.bumped other (List.mem_cons_of_mem _ hother),
      hbumped.kept⟩
  · exact h

/-- No counter goes back, and where one stays so does what every rule contributes. -/
structure Moves (db db' : Db) : Prop where
  mono : ∀ nodeId, generation db nodeId ≤ generation db' nodeId
  same : ∀ nodeId, generation db' nodeId = generation db nodeId →
    ∀ id, served db' nodeId id = served db nodeId id

theorem Moves.refl (db : Db) : Moves db db := ⟨fun _ => le_refl _, fun _ _ _ => rfl⟩

theorem Moves.trans {a b c : Db} (hab : Moves a b) (hbc : Moves b c) : Moves a c where
  mono nodeId := (hab.mono nodeId).trans (hbc.mono nodeId)
  same nodeId hsame id := by
    have hab' := hab.mono nodeId
    have hbc' := hbc.mono nodeId
    rw [hbc.same nodeId (by omega), hab.same nodeId (by omega)]

/-- **A counter that was ever the same meant the same list.** -/
theorem Moves.desiredRules (h : Moves db db')
    (hsame : generation db' nodeId = generation db nodeId) :
    desiredRules db' nodeId = desiredRules db nodeId := desiredRules_congr (h.same nodeId hsame)

/-- A transaction that answers for no machine: what is on record as converged was so before. -/
structure Advances (db db' : Db) : Prop extends Moves db db' where
  kept : ∀ nodeId state, db'.nodeStates.get? nodeId = some state →
    state.reconcileStatus = .converged → db.nodeStates.get? nodeId = some state

theorem Advances.refl (db : Db) : Advances db db := ⟨.refl db, fun _ _ h _ => h⟩

theorem Advances.trans {a b c : Db} (hab : Advances a b) (hbc : Advances b c) : Advances a c where
  toMoves := hab.toMoves.trans hbc.toMoves
  kept nodeId state hstate hconverged :=
    hab.kept nodeId state (hbc.kept nodeId state hstate hconverged) hconverged

/-- **A transaction advances if it touches rules of no machine but those it counts.** -/
theorem Counted.advances (h : Counted db db' nodes)
    (hserved : ∀ nodeId, nodeId ∉ nodes → ∀ id, served db' nodeId id = served db nodeId id) :
    Advances db db' where
  mono := h.mono
  same nodeId hsame := hserved nodeId fun hmem => by
    have hlt := h.bumped nodeId hmem
    omega
  kept := h.kept

theorem served_disableBlockedRules_other (db : Db) {other : String} (hne : other ≠ nodeId)
    (owner : Option (String × String)) (id : ℤ) :
    served (disableBlockedRules db nodeId owner) other id = served db other id := by
  unfold served
  rw [get?_disableBlockedRules]
  cases hrule : db.rules.get? id with
  | none => rfl
  | some rule =>
    rw [Option.map_some, Option.bind_some, Option.bind_some]
    have hagree := agreeOn_disableBlockedRules db nodeId owner rule
    by_cases hblocked : blockedIn db nodeId owner rule = true
    · have hnode : rule.nodeId = nodeId := by
        simp only [blockedIn, inPass, Bool.and_eq_true, decide_eq_true_eq] at hblocked
        exact hblocked.1.1.1
      have hkey : (disabledIn db nodeId owner rule).nodeId = nodeId :=
        (congrArg (·.2.2) (disabledIn_same db nodeId owner rule).1).trans hnode
      have hoff : ∀ db rule, rule.nodeId = nodeId → servedRule db other rule = false := by
        intro db rule hnode
        simp [servedRule, hnode, Ne.symm hne]
      simp [hoff _ _ hnode, hoff _ _ hkey]
    · rw [disabledIn, if_neg hblocked, hagree.servedRule, desiredRule, desiredRule,
        hagree.entitlement]

theorem advances_disableBlockedRules (db : Db) (nodeId : String) (owner : Option (String × String)) :
    Advances db (disableBlockedRules db nodeId owner) := by
  by_cases hany : (db.rules.rows.any fun row => blockedIn db nodeId owner row.2) = true
  · have hstart : Counted db { db with
        rules := db.rules.update fun _ => disabledIn db nodeId owner } [] := .of_same rfl
    have hcounted : Counted db (disableBlockedRules db nodeId owner) [nodeId] := by
      rw [disableBlockedRules, if_pos hany]
      exact hstart.bump nodeId
    refine hcounted.advances fun other hother id => ?_
    exact served_disableBlockedRules_other db (by simpa using hother) owner id
  · rw [disableBlockedRules, if_neg hany]
    exact .refl db

end Brocade.Forwarding
