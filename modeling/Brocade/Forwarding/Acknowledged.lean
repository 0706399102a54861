/-
What a counter, an answer and a finished job stand for, in any run.

A job is made together with the suspension it asks for and is remembered by its quota as the
last one, so that the machine's answer finishes it only while the suspension still stands.
An answer is taken only at the machine's counter, so that it carries the very list this
counter stands for.
-/
import Brocade.Forwarding.Transaction

namespace Brocade.Forwarding

open Usage (StoreError)

/-! ### Jobs -/

/-- The last job of a quota is the newest of its key, and asks for what the quota has. -/
structure JobsSound (db : Db) : Prop where
  fresh : ∀ id job, db.jobs.get? id = some job → id < db.nextJobId
  last : ∀ key quota id, db.quotas.get? key = some quota → quota.lastJobId = some id →
    ∃ job, db.jobs.get? id = some job ∧ job.key = key ∧ job.suspended = quota.suspended
      ∧ ∀ id' other, db.jobs.get? id' = some other → other.key = key → id' ≤ id

theorem jobsSound_empty : JobsSound .empty :=
  ⟨fun _ _ h => absurd h (by simp [Db.empty]), fun _ _ _ h => absurd h (by simp [Db.empty])⟩

/-- A transaction that finishes no job. -/
structure JobsKept (db db' : Db) : Prop where
  sound : JobsSound db → JobsSound db'
  unfinished : ∀ id job, db'.jobs.get? id = some job → job.status = .succeeded →
    db.jobs.get? id = some job

theorem JobsKept.refl (db : Db) : JobsKept db db := ⟨id, fun _ _ h _ => h⟩

theorem JobsKept.trans {a b c : Db} (hab : JobsKept a b) (hbc : JobsKept b c) : JobsKept a c where
  sound h := hbc.sound (hab.sound h)
  unfinished id job hjob hdone := hab.unfinished id job (hbc.unfinished id job hjob hdone) hdone

variable {db db' : Db} {t : Transaction} {nodeId : String} {report : ForwardingReconcileReport}

theorem JobsSound.update (f : ℕ → QuotaJob → QuotaJob) (h : JobsSound db)
    (hnext : db'.nextJobId = db.nextJobId)
    (hjobs : ∀ id, db'.jobs.get? id = (db.jobs.get? id).map (f id))
    (hsame : ∀ id job, (f id job).key = job.key ∧ (f id job).suspended = job.suspended)
    (hquotas : ∀ key quota' id, db'.quotas.get? key = some quota' → quota'.lastJobId = some id →
      ∃ quota, db.quotas.get? key = some quota ∧ quota.lastJobId = some id
        ∧ quota.suspended = quota'.suspended) : JobsSound db' where
  fresh id job hjob := by
    rw [hjobs, Option.map_eq_some_iff] at hjob
    obtain ⟨before, hbefore, -⟩ := hjob
    exact hnext ▸ h.fresh id before hbefore
  last key quota' id hquota' hlast := by
    obtain ⟨quota, hquota, hbefore, hsuspended⟩ := hquotas key quota' id hquota' hlast
    obtain ⟨job, hjob, hkey, hasks, hnewest⟩ := h.last key quota id hquota hbefore
    refine ⟨f id job, by rw [hjobs, hjob]; rfl, (hsame id job).1.trans hkey,
      (hsame id job).2.trans (hasks.trans hsuspended), fun id' other hother hother' => ?_⟩
    rw [hjobs, Option.map_eq_some_iff] at hother
    obtain ⟨before, hbefore, rfl⟩ := hother
    exact hnewest id' before hbefore ((hsame id' before).1.symm.trans hother')

theorem JobsKept.of_same (hjobs : db'.jobs = db.jobs) (hquotas : db'.quotas = db.quotas)
    (hnext : db'.nextJobId = db.nextJobId) : JobsKept db db' where
  sound h := h.update (fun _ => id) hnext (by simp [hjobs]) (fun _ _ => ⟨rfl, rfl⟩)
    fun _ quota _ hquota hlast => ⟨quota, hquotas ▸ hquota, hlast, rfl⟩
  unfinished _ _ hjob _ := hjobs ▸ hjob

theorem JobsKept.of_update (db : Db) {f : ℕ → QuotaJob → QuotaJob}
    (hsame : ∀ id job, (f id job).key = job.key ∧ (f id job).suspended = job.suspended)
    (hdone : ∀ id job, (f id job).status = .succeeded → f id job = job) :
    JobsKept db { db with jobs := db.jobs.update f } where
  sound h := h.update f rfl (fun _ => Table.get?_update _ _ _) hsame
    fun _ quota _ hquota hlast => ⟨quota, hquota, hlast, rfl⟩
  unfinished id job hjob hsucceeded := by
    rw [Table.get?_update, Option.map_eq_some_iff] at hjob
    obtain ⟨before, hbefore, rfl⟩ := hjob
    rw [hdone id before hsucceeded]
    exact hbefore

theorem jobsKept_cancelJobsTx (db : Db) (key : EntitlementKey) : JobsKept db (cancelJobsTx db key) := by
  unfold cancelJobsTx
  refine .of_update db (fun _ job => ?_) (fun _ job => ?_)
  · split <;> exact ⟨rfl, rfl⟩
  · split
    · exact nofun
    · exact fun _ => rfl

theorem jobsKept_dispatchedTx (db : Db) (nodeId : String) (counter : ℤ) :
    JobsKept db (dispatchedTx db nodeId counter) := by
  unfold dispatchedTx
  refine .of_update db (fun _ job => ?_) (fun _ job => ?_)
  · split <;> exact ⟨rfl, rfl⟩
  · split
    · exact nofun
    · exact fun _ => rfl

theorem jobsKept_cancelOrphans (db : Db) : JobsKept db (cancelOrphans db) := by
  unfold cancelOrphans
  refine .of_update db (fun _ job => ?_) (fun _ job => ?_)
  · split <;> exact ⟨rfl, rfl⟩
  · split
    · exact nofun
    · exact fun _ => rfl

theorem jobsKept_enforceOne (out : Surroundings) (db : Db) (due : EntitlementKey × NodeQuota) :
    JobsKept db (enforceOne out db due) := by
  have hbumped : JobsKept db (bumpNodeGeneration db due.1.2.2) := .of_same rfl rfl rfl
  have hcanceled := hbumped.trans (jobsKept_cancelJobsTx (bumpNodeGeneration db due.1.2.2) due.1)
  let canceled := cancelJobsTx (bumpNodeGeneration db due.1.2.2) due.1
  let job : QuotaJob := {
    key := due.1, generation := generation (bumpNodeGeneration db due.1.2.2) due.1.2.2
    suspended := spent out due.1 due.2, status := .queued, lastError := none }
  have hjobs : (enforceOne out db due).jobs = canceled.jobs.put db.nextJobId job := rfl
  have hquotas : (enforceOne out db due).quotas = canceled.quotas.put due.1
      { due.2 with suspended := job.suspended, lastJobId := some db.nextJobId } := rfl
  have hcases : ∀ id other, (enforceOne out db due).jobs.get? id = some other →
      id = db.nextJobId ∧ other = job ∨ id ≠ db.nextJobId ∧ canceled.jobs.get? id = some other :=
    fun id other hother => Table.of_get?_put (hjobs ▸ hother)
  refine ⟨fun hsound => ?_, fun id other hother hdone => ?_⟩
  · have hbefore := hcanceled.sound hsound
    have hfresh : ∀ id other, canceled.jobs.get? id = some other → id < db.nextJobId := hbefore.fresh
    refine ⟨fun id other hother => ?_, fun key quota id hquota hlast => ?_⟩
    · show id < db.nextJobId + 1
      rcases hcases id other hother with ⟨rfl, -⟩ | ⟨-, hother⟩
      · omega
      · have hlt := hfresh id other hother
        omega
    · rw [hquotas] at hquota
      rcases Table.of_get?_put hquota with ⟨hkey, rfl⟩ | ⟨hkey, hquota⟩
      · cases hlast
        refine ⟨job, by rw [hjobs, Table.get?_put, if_pos rfl], hkey.symm, rfl,
          fun id' other hother _ => ?_⟩
        rcases hcases id' other hother with ⟨rfl, -⟩ | ⟨-, hother⟩
        · exact le_refl _
        · exact (hfresh id' other hother).le
      · obtain ⟨last, hjob, hlastKey, hasks, hnewest⟩ := hbefore.last key quota id hquota hlast
        refine ⟨last, ?_, hlastKey, hasks, fun id' other hother hother' => ?_⟩
        · rw [hjobs, Table.get?_put, if_neg (hfresh id last hjob).ne]
          exact hjob
        · rcases hcases id' other hother with ⟨-, rfl⟩ | ⟨-, hother⟩
          · exact absurd hother'.symm hkey
          · exact hnewest id' other hother hother'
  · rcases hcases id other hother with ⟨-, rfl⟩ | ⟨-, hother⟩
    · cases hdone
    · exact hcanceled.unfinished id other hother hdone

theorem jobsKept_enforceQuotas (out : Surroundings) (db : Db) :
    JobsKept db (enforceQuotas out db) := by
  have hfold : ∀ (due : List (EntitlementKey × NodeQuota)) (db : Db),
      JobsKept db (due.foldl (enforceOne out) db) := by
    intro due
    induction due with
    | nil => exact .refl
    | cons first rest ih => exact fun db => (jobsKept_enforceOne out db first).trans (ih _)
  exact (hfold _ db).trans (jobsKept_cancelOrphans _)

theorem jobsKept_disableBlockedRules (db : Db) (nodeId : String) (owner : Option (String × String)) :
    JobsKept db (disableBlockedRules db nodeId owner) := by
  obtain ⟨rules, nodeStates, heq⟩ := disableBlockedRules_eq db nodeId owner
  rw [heq]
  exact .of_same rfl rfl rfl

theorem jobsKept_bumpNodes (db : Db) (nodes : List String) : JobsKept db (bumpNodes db nodes) := by
  obtain ⟨nodeStates, heq⟩ := bumpNodes_eq db nodes
  rw [heq]
  exact .of_same rfl rfl rfl

theorem jobsKept_readTx (db : Db) (nodeId : String) (overtaken : Bool) :
    JobsKept db (readTx db nodeId overtaken).1 := by
  cases overtaken with
  | true => exact .of_same rfl rfl rfl
  | false => exact (jobsKept_disableBlockedRules db nodeId none).trans (.of_same rfl rfl rfl)

/-! ### Transactions that answer for no machine -/

theorem fine_of_run (hlinked : Linked db) (hheard : t.heard db = true)
    (hanswer : ∀ nodeId report overtaken, t ≠ .recordReconcile nodeId report overtaken)
    (h : t.run db = .ok db') : Fine db db' := by
  cases t with
  | addUser => exact addUser_fine hlinked h
  | addNode => exact addNode_fine hlinked h
  | setEntitlement => exact setEntitlement_fine hlinked h
  | deleteEntitlement => exact deleteEntitlement_fine hlinked h
  | createRule => exact createRule_fine hlinked h
  | updateRule => exact updateRule_fine hlinked h
  | deleteRule => exact deleteRule_fine hlinked h
  | setQuota => exact setQuota_fine hlinked h
  | enforceQuotas out => exact Except.ok.inj h ▸ enforceQuotas_fine hlinked out
  | updateService => exact updateService_fine hlinked h
  | enforceService out => exact Except.ok.inj h ▸ enforceService_fine hlinked out
  | updateUserStatus => exact updateUserStatus_fine hlinked hheard h
  | updateNodeStatus => exact updateNodeStatus_fine hlinked hheard h
  | readDesired nodeId overtaken =>
    have hread := readTx_fine hlinked nodeId overtaken
    refine Except.ok.inj h ▸ hread.trans ?_
    exact hread.1.fine (.of_same rfl) rfl rfl rfl rfl fun _ _ => ⟨rfl, rfl, rfl, rfl⟩
  | recordReconcile nodeId report overtaken => exact absurd rfl (hanswer nodeId report overtaken)

theorem jobsKept_of_run
    (hanswer : ∀ nodeId report overtaken, t ≠ .recordReconcile nodeId report overtaken)
    (h : t.run db = .ok db') : JobsKept db db' := by
  cases t with
  | addUser =>
    simp only [Transaction.run, Fallible.bind_eq_ok, Fallible.pure_eq_ok] at h
    obtain ⟨_, -, rfl⟩ := h
    exact .of_same rfl rfl rfl
  | addNode =>
    simp only [Transaction.run, Fallible.bind_eq_ok, Fallible.pure_eq_ok] at h
    obtain ⟨_, -, rfl⟩ := h
    exact .of_same rfl rfl rfl
  | setEntitlement actor tenantId userId nodeId write =>
    simp only [Transaction.run, Forwarding.setEntitlement, Fallible.bind_eq_ok,
      Fallible.pure_eq_ok] at h
    obtain ⟨_, -, _, -, _, -, _, -, _, -, _, -, _, -, rfl⟩ := h
    let granted : Db := { db with
      entitlements := db.entitlements.put (tenantId, userId, nodeId) write }
    have hgranted : JobsKept db granted := .of_same rfl rfl rfl
    have hpassed := hgranted.trans (jobsKept_disableBlockedRules granted nodeId
      (some (tenantId, userId)))
    exact hpassed.trans (.of_same rfl rfl rfl)
  | deleteEntitlement actor tenantId userId nodeId =>
    simp only [Transaction.run, Forwarding.deleteEntitlement, Fallible.bind_eq_ok,
      Fallible.pure_eq_ok] at h
    obtain ⟨_, -, _, -, _, -, rfl⟩ := h
    refine JobsKept.trans ?_ (jobsKept_cancelJobsTx _ (tenantId, userId, nodeId))
    refine ⟨fun hsound => ?_, fun id job hjob _ => hjob⟩
    refine hsound.update (fun _ => id) rfl (fun _ => Option.map_id'.symm)
      (fun _ _ => ⟨rfl, rfl⟩) fun key quota id hquota hlast => ⟨quota, ?_, hlast, rfl⟩
    have hdeleted : (db.quotas.deleteWhere (· = (tenantId, userId, nodeId))).get? key = some quota :=
      hquota
    rw [Table.get?_deleteWhere, Option.ite_none_left_eq_some] at hdeleted
    exact hdeleted.2
  | createRule out actor tenantId userId write =>
    simp only [Transaction.run, Forwarding.createRule, Fallible.bind_eq_ok,
      Fallible.pure_eq_ok] at h
    obtain ⟨_, -, _, -, _, -, _, -, written, hwrite, rfl⟩ := h
    rw [writeRule_eq hwrite]
    exact .of_same rfl rfl rfl
  | updateRule out actor tenantId userId ruleId write =>
    simp only [Transaction.run, Forwarding.updateRule, Fallible.bind_eq_ok,
      Fallible.pure_eq_ok] at h
    obtain ⟨_, -, _, -, _, -, previous, -, _, -, written, hwrite, rfl⟩ := h
    rw [writeRule_eq hwrite]
    split
    · refine JobsKept.trans ?_ (jobsKept_bumpNodes _ _)
      exact .of_same rfl rfl rfl
    · exact .of_same rfl rfl rfl
  | deleteRule =>
    simp only [Transaction.run, Forwarding.deleteRule, Fallible.bind_eq_ok,
      Fallible.pure_eq_ok] at h
    obtain ⟨_, -, rule, -, rfl⟩ := h
    exact .of_same rfl rfl rfl
  | setQuota actor tenantId userId nodeId limitBytes =>
    simp only [Transaction.run, Forwarding.setQuota, Fallible.bind_eq_ok, Fallible.pure_eq_ok] at h
    obtain ⟨_, -, _, -, _, -, _, -, rfl⟩ := h
    refine ⟨fun hsound => ?_, fun id job hjob _ => hjob⟩
    refine hsound.update (fun _ => id) rfl (fun _ => Option.map_id'.symm)
      (fun _ _ => ⟨rfl, rfl⟩) fun key quota id hquota hlast => ?_
    have hupsert : (db.quotas.upsert (tenantId, userId, nodeId) fun quota =>
        { quota.getD ⟨none, false, none⟩ with limitBytes }).get? key = some quota := hquota
    rw [Table.get?_upsert] at hupsert
    split at hupsert
    · rename_i hkey
      subst hkey
      cases hbefore : db.quotas.get? (tenantId, userId, nodeId) with
      | none =>
        rw [hbefore] at hupsert
        cases hupsert
        cases hlast
      | some before =>
        rw [hbefore] at hupsert
        cases hupsert
        exact ⟨before, rfl, hlast, rfl⟩
    · exact ⟨quota, hupsert, hlast, rfl⟩
  | enforceQuotas out => exact Except.ok.inj h ▸ jobsKept_enforceQuotas out db
  | updateService out actor tenantId userId policy =>
    simp only [Transaction.run, Forwarding.updateService, Fallible.bind_eq_ok,
      Fallible.pure_eq_ok] at h
    obtain ⟨_, -, _, -, user, -, rfl⟩ := h
    split
    · refine JobsKept.trans ?_ (jobsKept_bumpNodes _ _)
      exact .of_same rfl rfl rfl
    · exact .of_same rfl rfl rfl
  | enforceService out =>
    refine Except.ok.inj h ▸ JobsKept.trans ?_ (jobsKept_bumpNodes _ _)
    exact .of_same rfl rfl rfl
  | updateUserStatus =>
    simp only [Transaction.run, Forwarding.updateUserStatus, Fallible.bind_eq_ok,
      Fallible.pure_eq_ok] at h
    obtain ⟨_, -, user, -, rfl⟩ := h
    exact .of_same rfl rfl rfl
  | updateNodeStatus =>
    simp only [Transaction.run, Forwarding.updateNodeStatus, Fallible.bind_eq_ok,
      Fallible.pure_eq_ok] at h
    obtain ⟨_, -, node, -, rfl⟩ := h
    exact .of_same rfl rfl rfl
  | readDesired nodeId overtaken =>
    exact Except.ok.inj h ▸ (jobsKept_readTx db nodeId overtaken).trans (jobsKept_dispatchedTx _ _ _)
  | recordReconcile nodeId report overtaken => exact absurd rfl (hanswer nodeId report overtaken)

/-! ### Answers -/

/-- The record of an answer carries exactly these rules, each applied. -/
structure Carries (rules : List ForwardingRuleDesired) (state : NodeState) : Prop where
  applied : ∀ id, id ∈ state.appliedRuleIds ↔ id ∈ rules.map (·.id)
  results : ∃ results, state.ruleResults = some results ∧ (results.map (·.rule)).Perm rules
    ∧ ∀ result ∈ results, result.applied = true ∧ result.error = none

/-- What is on record as converged answers the counter that still stands. -/
def Settled (db : Db) : Prop :=
  ∀ nodeId state, db.nodeStates.get? nodeId = some state → state.reconcileStatus = .converged →
    state.appliedGeneration = some state.desiredGeneration ∧ Carries (desiredRules db nodeId) state

theorem settled_empty : Settled .empty := fun _ _ h => absurd h (by simp [Db.empty])

theorem generation_of_state {state : NodeState} (h : db.nodeStates.get? nodeId = some state) :
    generation db nodeId = state.desiredGeneration := by
  rw [generation, h, Option.getD_some]

/-- **A record stands until its machine's counter moves.** -/
theorem Settled.advances (h : Settled db) (hadvances : Advances db db') : Settled db' := by
  intro nodeId state hstate hconverged
  have hbefore := hadvances.kept nodeId state hstate hconverged
  have hsame : generation db' nodeId = generation db nodeId := by
    rw [generation_of_state hstate, generation_of_state hbefore]
  rw [hadvances.desiredRules hsame]
  exact h nodeId state hbefore hconverged

theorem checkResults_perm {rules : List ForwardingRuleDesired}
    {sent results : List ForwardingRuleReconcileResult} (hnodup : (rules.map (·.id)).Nodup)
    (herror : report.error = none) (h : checkResults rules report sent = .ok results) :
    (results.map (·.rule)).Perm rules
      ∧ ∀ result ∈ results, result.applied = true ∧ result.error = none := by
  simp only [checkResults, Fallible.bind_eq_ok, require_eq_ok, exists_const, Fallible.pure_eq_ok,
    Bool.and_eq_true, decide_eq_true_eq, List.all_eq_true] at h
  obtain ⟨⟨honce, hmatches⟩, hall, rfl⟩ := h
  have hrule : ∀ result ∈ sent.map (completeResult rules), result.rule ∈ rules := by
    intro result hresult
    have hmatch := hmatches result hresult
    simp only [resultMatches, Bool.and_eq_true, decide_eq_true_eq] at hmatch
    exact List.mem_of_find?_eq_some hmatch.1.1
  refine ⟨(List.perm_ext_iff_of_nodup ?_ hnodup.of_map).mpr fun rule => ⟨fun hmem => ?_,
    fun hmem => ?_⟩, fun result hresult => ?_⟩
  · have hids : (((sent.map (completeResult rules)).map (·.rule)).map (·.id)).Nodup := by
      rw [List.map_map]
      exact honce
    exact hids.of_map
  · obtain ⟨result, hresult, rfl⟩ := List.mem_map.mp hmem
    exact hrule result hresult
  · have hid : rule.id ∈ (rules.map (·.id)).toFinset :=
      List.mem_toFinset.mpr (List.mem_map_of_mem hmem)
    rw [← hall, List.mem_toFinset] at hid
    obtain ⟨result, hresult, heq⟩ := List.mem_map.mp hid
    have hsame : result.rule = rule :=
      List.inj_on_of_nodup_map hnodup (hrule result hresult) hmem heq
    exact List.mem_map.mpr ⟨result, hresult, hsame⟩
  · have hmatch := hmatches result hresult
    simp only [resultMatches, herror, Option.isSome_none, Bool.false_or, Bool.and_eq_true,
      Option.isNone_iff_eq_none] at hmatch
    exact hmatch.2

theorem storeReport_spec {rules : List ForwardingRuleDesired} (hnodup : (rules.map (·.id)).Nodup)
    (h : storeReport db nodeId rules report = .ok db') : ∃ stored : NodeState → NodeState,
      db' = acknowledgedTx
          { db with
            nodeStates := db.nodeStates.upsert nodeId fun state => stored (state.getD .initial) }
          nodeId report.generation report.error
      ∧ (∀ state, (stored state).desiredGeneration = state.desiredGeneration)
      ∧ (∀ state, (stored state).reconcileStatus = .converged → report.error = none
        ∧ (stored state).appliedGeneration = some report.generation ∧ Carries rules (stored state)) := by
  simp only [storeReport, Fallible.bind_eq_ok, require_eq_ok, exists_const, Fallible.pure_eq_ok,
    Bool.or_eq_true, decide_eq_true_eq] at h
  obtain ⟨-, hcomplete, results, hresults, rfl⟩ := h
  refine ⟨fun state => { state with
      appliedGeneration := some report.generation
      reconcileStatus := if report.error.isNone then .converged else .error
      appliedRuleIds := report.appliedRuleIds
      lastError := report.error
      ruleResults := results }, rfl, fun _ => rfl, fun state hconverged => ?_⟩
  have herror : report.error = none := by
    cases herror : report.error with
    | none => rfl
    | some error => simp [herror] at hconverged
  have hids : report.appliedRuleIds.toFinset = (rules.map (·.id)).toFinset := by
    simpa [herror] using hcomplete
  refine ⟨herror, rfl, fun id => ?_, ?_⟩
  · rw [← List.mem_toFinset, ← List.mem_toFinset]
    exact hids ▸ Iff.rfl
  · unfold reportedResults at hresults
    split at hresults
    · rename_i sent _
      cases hchecked : checkResults rules report sent with
      | error e =>
        rw [hchecked] at hresults
        cases hresults
      | ok checked =>
        rw [hchecked] at hresults
        cases hresults
        exact ⟨checked, rfl, checkResults_perm hnodup herror hchecked⟩
    · rw [herror] at hresults
      cases hresults
      refine ⟨rules.map fun rule => ⟨rule, true, none⟩, rfl, ?_, fun result hresult => ?_⟩
      · rw [List.map_map]
        exact (List.map_id rules).symm ▸ .refl rules
      · obtain ⟨rule, -, rfl⟩ := List.mem_map.mp hresult
        exact ⟨rfl, rfl⟩

theorem readTx_desired (db : Db) (nodeId : String) (overtaken : Bool) :
    (readTx db nodeId overtaken).2 = ⟨generation (readTx db nodeId overtaken).1 nodeId,
      desiredRules (readTx db nodeId overtaken).1 nodeId⟩ := by
  cases overtaken <;> rfl

theorem answerTo_cases {read : Db × ForwardingDesiredState} {sent : ForwardingReconcileReport}
    (h : answerTo read nodeId sent = .ok db') : db' = read.1 ∨ (read.2.generation = sent.generation
      ∧ storeReport read.1 nodeId read.2.rules (normalizeReport sent) = .ok db') := by
  simp only [answerTo, Fallible.bind_eq_ok] at h
  obtain ⟨_, -, h⟩ := h
  split at h
  · rename_i hsame
    exact .inr ⟨hsame, h⟩
  · exact .inl (Except.ok.inj h).symm

/-- What a run keeps. -/
structure Sound (db : Db) : Prop where
  linked : Linked db
  jobs : JobsSound db
  settled : Settled db

theorem sound_empty : Sound .empty := ⟨linked_empty, jobsSound_empty, settled_empty⟩

theorem sound_of_fine (h : Sound db) (hfine : Fine db db') (hjobs : JobsKept db db') :
    Sound db' := ⟨hfine.1, hjobs.sound h.jobs, h.settled.advances hfine.2⟩

/-- A job is done rightly: its machine has answered without an error at a counter no older, it
is the newest of its key, and if it suspends, nothing of its key is on the machine's list. -/
structure DoneRightly (t : Transaction) (db' : Db) (id : ℕ) (job : QuotaJob) : Prop where
  answered : ∃ report overtaken, t = .recordReconcile job.key.2.2 report overtaken
    ∧ report.error = none ∧ job.generation ≤ report.generation
  newest : ∀ id' other, db'.jobs.get? id' = some other → other.key = job.key → id' ≤ id
  suspended : job.suspended = true → ∀ desired ∈ desiredRules db' job.key.2.2,
    ∀ rule, db'.rules.get? desired.id = some rule → rule.key ≠ job.key

theorem not_served_of_suspended {quota : NodeQuota} {key : EntitlementKey}
    (hquota : db.quotas.get? key = some quota) (hsuspended : quota.suspended = true)
    {desired : ForwardingRuleDesired} (hdesired : desired ∈ desiredRules db nodeId)
    {rule : ForwardingRule} (hrule : db.rules.get? desired.id = some rule) : rule.key ≠ key := by
  obtain ⟨served, hserved, hon, -⟩ := served_eq_some.mp (mem_desiredRules.mp hdesired)
  rw [hrule, Option.some.injEq] at hserved
  subst hserved
  intro hkey
  simp only [servedRule, Bool.and_eq_true, Bool.not_eq_true'] at hon
  have hclear := hon.1.1.2
  rw [hkey, hquota, Option.any_some, hsuspended] at hclear
  cases hclear

theorem acknowledged_of_succeeded {counter : ℤ} {error : Option String} (hsound : JobsSound db)
    (hjobs : db'.jobs = (acknowledgedTx db nodeId counter error).jobs) {id : ℕ} {job : QuotaJob}
    (hjob : db'.jobs.get? id = some job) (hdone : job.status = .succeeded) :
    db.jobs.get? id = some job ∨ (error = none ∧ job.key.2.2 = nodeId ∧ job.generation ≤ counter
      ∧ ∃ quota, db.quotas.get? job.key = some quota ∧ quota.suspended = job.suspended
        ∧ ∀ id' other, db.jobs.get? id' = some other → other.key = job.key → id' ≤ id) := by
  rw [hjobs, acknowledgedTx, Table.get?_update, Option.map_eq_some_iff] at hjob
  obtain ⟨before, hbefore, rfl⟩ := hjob
  split at hdone
  · rename_i hcondition
    rw [if_pos hcondition]
    simp only [Bool.and_eq_true, decide_eq_true_eq] at hcondition
    obtain ⟨⟨⟨-, hnode⟩, hcounter⟩, hlast⟩ := hcondition
    obtain ⟨row, hrow, hlastId⟩ := List.any_eq_true.mp hlast
    have hquota : db.quotas.get? row.1 = some row.2 := Table.mem_rows.mp hrow
    obtain ⟨found, hfound, hkey, hasks, hnewest⟩ :=
      hsound.last row.1 row.2 id hquota (of_decide_eq_true hlastId)
    rw [hbefore, Option.some.injEq] at hfound
    subst hfound
    have herror : error = none := by
      cases error with
      | none => rfl
      | some error => cases hdone
    refine .inr ⟨herror, hnode, hcounter, row.2, hkey ▸ hquota, hasks.symm, ?_⟩
    exact fun id' other hother hother' => hnewest id' other hother (hother'.trans hkey)
  · rename_i hcondition
    rw [if_neg hcondition]
    exact .inl hbefore

/-- **A stored answer is about the list at its counter.** -/
theorem Sound.answer (h : Sound db) (hsame : generation db nodeId = report.generation)
    (hstored : storeReport db nodeId (desiredRules db nodeId) report = .ok db') :
    Sound db' ∧ Moves db db' ∧ ∀ id job, db'.jobs.get? id = some job → job.status = .succeeded →
        db.jobs.get? id = some job ∨ ∀ sent overtaken, sent.error = report.error →
          sent.generation = report.generation →
          DoneRightly (.recordReconcile nodeId sent overtaken) db' id job := by
  obtain ⟨stored, rfl, hcounter, hcarries⟩ := storeReport_spec (desiredRules_nodup db nodeId) hstored
  let answered : Db := { db with
    nodeStates := db.nodeStates.upsert nodeId fun state => stored (state.getD .initial) }
  let after := acknowledgedTx answered nodeId report.generation report.error
  have hgeneration : ∀ other, generation after other = generation db other := by
    intro other
    show (((db.nodeStates.upsert nodeId _).get? other).getD .initial).desiredGeneration = _
    rw [Table.get?_upsert]
    split
    · rename_i heq
      subst heq
      exact hcounter _
    · rfl
  have hmoves : Moves db after := by
    refine ⟨fun other => (hgeneration other).ge, fun other _ id => ?_⟩
    exact AgreeOn.served other rfl fun _ _ _ => ⟨rfl, rfl, rfl, rfl⟩
  have hsound : JobsSound after := by
    refine h.jobs.update _ rfl (fun id => Table.get?_update _ _ id) (fun id job => ?_)
      fun _ quota _ hquota hlast => ⟨quota, hquota, hlast, rfl⟩
    split <;> exact ⟨rfl, rfl⟩
  have hsettled : Settled after := by
    intro other state hstate hconverged
    rw [hmoves.desiredRules (hgeneration other)]
    have hupsert : (db.nodeStates.upsert nodeId fun state => stored (state.getD .initial)).get? other
        = some state := hstate
    rw [Table.get?_upsert] at hupsert
    split at hupsert
    · rename_i heq
      subst heq
      cases hupsert
      obtain ⟨-, happlied, hcarried⟩ := hcarries _ hconverged
      refine ⟨happlied.trans ?_, hcarried⟩
      rw [hcounter, ← hsame]
      rfl
    · exact h.settled other state hupsert hconverged
  refine ⟨⟨h.linked.congr rfl rfl rfl rfl, hsound, hsettled⟩, hmoves, fun id job hjob hdone => ?_⟩
  have hanswered : JobsSound answered := ⟨h.jobs.fresh, h.jobs.last⟩
  rcases acknowledged_of_succeeded hanswered rfl hjob hdone with hbefore
    | ⟨herror, hnode, hold, quota, hquota, hasks, hnewest⟩
  · exact .inl hbefore
  refine .inr fun sent overtaken herror' hsent => ⟨?_, fun id' other hother hkey => ?_,
    fun hsuspends desired hdesired rule hrule => ?_⟩
  · exact ⟨sent, overtaken, by rw [hnode], herror'.trans herror, hsent.symm ▸ hold⟩
  · have hother : (acknowledgedTx answered nodeId report.generation report.error).jobs.get? id'
        = some other := hother
    rw [acknowledgedTx, Table.get?_update, Option.map_eq_some_iff] at hother
    obtain ⟨before, hbefore, rfl⟩ := hother
    refine hnewest id' before hbefore ?_
    split at hkey <;> exact hkey
  · exact not_served_of_suspended hquota (hasks.trans hsuspends) hdesired hrule

theorem Sound.recordReconcile (h : Sound db) {overtaken : Bool}
    (hrun : (Transaction.recordReconcile nodeId report overtaken).run db = .ok db') :
    Sound db' ∧ Moves db db' ∧ ∀ id job, db'.jobs.get? id = some job → job.status = .succeeded →
      db.jobs.get? id = some job
        ∨ DoneRightly (.recordReconcile nodeId report overtaken) db' id job := by
  have hread := readTx_fine h.linked nodeId overtaken
  have hkept := jobsKept_readTx db nodeId overtaken
  have hsound := sound_of_fine h hread hkept
  have hdesired := readTx_desired db nodeId overtaken
  rcases answerTo_cases hrun with rfl | ⟨hsame, hstored⟩
  · exact ⟨hsound, hread.2.toMoves, fun id job hjob hdone => .inl (hkept.unfinished id job hjob hdone)⟩
  rw [hdesired] at hsame hstored
  have hsame' : generation (readTx db nodeId overtaken).1 nodeId
      = (normalizeReport report).generation := hsame
  obtain ⟨hsound', hmoves, hjobs⟩ := hsound.answer hsame' hstored
  refine ⟨hsound', hread.2.toMoves.trans hmoves, fun id job hjob hdone => ?_⟩
  rcases hjobs id job hjob hdone with hbefore | hright
  · exact .inl (hkept.unfinished id job hbefore hdone)
  · exact .inr (hright report overtaken rfl rfl)

/-- **One transaction that is heard keeps what a run keeps, and moves the counters forward.** -/
theorem Sound.run (h : Sound db) (hheard : t.heard db = true) (hrun : t.run db = .ok db') :
    Sound db' ∧ Moves db db' := by
  by_cases hanswer : ∃ nodeId report overtaken, t = .recordReconcile nodeId report overtaken
  · obtain ⟨nodeId, report, overtaken, rfl⟩ := hanswer
    obtain ⟨hsound, hmoves, -⟩ := h.recordReconcile hrun
    exact ⟨hsound, hmoves⟩
  · have hnot : ∀ nodeId report overtaken, t ≠ .recordReconcile nodeId report overtaken :=
      fun nodeId report overtaken heq => hanswer ⟨nodeId, report, overtaken, heq⟩
    have hfine := fine_of_run h.linked hheard hnot hrun
    exact ⟨sound_of_fine h hfine (jobsKept_of_run hnot hrun), hfine.2.toMoves⟩

/-- **A job that becomes done is done rightly.** -/
theorem Sound.done (h : Sound db) (hrun : t.run db = .ok db') {id : ℕ} {job : QuotaJob}
    (hjob : db'.jobs.get? id = some job) (hdone : job.status = .succeeded) :
    db.jobs.get? id = some job ∨ DoneRightly t db' id job := by
  by_cases hanswer : ∃ nodeId report overtaken, t = .recordReconcile nodeId report overtaken
  · obtain ⟨nodeId, report, overtaken, rfl⟩ := hanswer
    obtain ⟨-, -, hright⟩ := h.recordReconcile hrun
    exact hright id job hjob hdone
  · have hnot : ∀ nodeId report overtaken, t ≠ .recordReconcile nodeId report overtaken :=
      fun nodeId report overtaken heq => hanswer ⟨nodeId, report, overtaken, heq⟩
    exact .inl ((jobsKept_of_run hnot hrun).unfinished id job hjob hdone)

/-! ### Suspending and restoring -/

/-- Suspending, restoring, and a change of what suspends. -/
def Transaction.overlays : Transaction → Bool
  | .setQuota .. | .enforceQuotas .. | .updateService .. | .enforceService .. => true
  | .updateUserStatus .. | .updateNodeStatus .. => true
  | _ => false

theorem rules_bumpNodes (db : Db) (nodes : List String) : (bumpNodes db nodes).rules = db.rules := by
  obtain ⟨nodeStates, heq⟩ := bumpNodes_eq db nodes
  rw [heq]

/-- **Suspending and restoring leave every rule as it is.** -/
theorem rules_of_overlays (h : t.overlays = true) (hrun : t.run db = .ok db') :
    db'.rules = db.rules := by
  cases t with
  | setQuota =>
    simp only [Transaction.run, Forwarding.setQuota, Fallible.bind_eq_ok,
      Fallible.pure_eq_ok] at hrun
    obtain ⟨_, -, _, -, _, -, _, -, rfl⟩ := hrun
    rfl
  | enforceQuotas out =>
    have hfold : ∀ (due : List (EntitlementKey × NodeQuota)) (db : Db),
        (due.foldl (enforceOne out) db).rules = db.rules := by
      intro due
      induction due with
      | nil => exact fun _ => rfl
      | cons first rest ih => exact fun db => (ih _).trans rfl
    exact Except.ok.inj hrun ▸ hfold (quotasDue out db) db
  | updateService =>
    simp only [Transaction.run, Forwarding.updateService, Fallible.bind_eq_ok,
      Fallible.pure_eq_ok] at hrun
    obtain ⟨_, -, _, -, user, -, rfl⟩ := hrun
    split
    · exact rules_bumpNodes _ _
    · rfl
  | enforceService out => exact Except.ok.inj hrun ▸ rules_bumpNodes _ _
  | updateUserStatus =>
    simp only [Transaction.run, Forwarding.updateUserStatus, Fallible.bind_eq_ok,
      Fallible.pure_eq_ok] at hrun
    obtain ⟨_, -, user, -, rfl⟩ := hrun
    rfl
  | updateNodeStatus =>
    simp only [Transaction.run, Forwarding.updateNodeStatus, Fallible.bind_eq_ok,
      Fallible.pure_eq_ok] at hrun
    obtain ⟨_, -, node, -, rfl⟩ := hrun
    rfl
  | addUser | addNode | setEntitlement | deleteEntitlement | createRule | updateRule | deleteRule
  | readDesired | recordReconcile => cases h

/-! ### Every run -/

namespace Transaction

def commit (db : Db) (t : Transaction) : Option Db := (t.run db).toOption

theorem commit_eq_some {db db' : Db} {t : Transaction} :
    t.commit db = some db' ↔ t.run db = .ok db' := by
  unfold commit
  cases t.run db <;> simp [Except.toOption]

/-- Every transaction of a run is heard where it commits. -/
def heardAlong : Db → List Transaction → Bool
  | _, [] => true
  | db, t :: rest => t.heard db && (commit db t).all fun db' => heardAlong db' rest

theorem heardAlong_append {db db' : Db} {before after : List Transaction}
    (h : before.foldlM commit db = some db') :
    heardAlong db (before ++ after) = (heardAlong db before && heardAlong db' after) := by
  induction before generalizing db with
  | nil =>
    obtain rfl : db = db' := Option.some.inj h
    rw [List.nil_append, heardAlong, Bool.true_and]
  | cons t rest ih =>
    rw [List.foldlM_cons, Option.bind_eq_bind, Option.bind_eq_some_iff] at h
    obtain ⟨next, hnext, hrest⟩ := h
    rw [List.cons_append, heardAlong, heardAlong, hnext, Option.all_some, Option.all_some, ih hrest,
      Bool.and_assoc]

end Transaction

theorem Sound.runAll {transactions : List Transaction} (h : Sound db)
    (hrun : transactions.foldlM Transaction.commit db = some db')
    (hheard : Transaction.heardAlong db transactions = true) : Sound db' ∧ Moves db db' := by
  induction transactions generalizing db with
  | nil =>
    cases hrun
    exact ⟨h, .refl _⟩
  | cons t rest ih =>
    rw [List.foldlM_cons, Option.bind_eq_bind, Option.bind_eq_some_iff] at hrun
    obtain ⟨next, hnext, hrest⟩ := hrun
    rw [Transaction.heardAlong, hnext, Option.all_some, Bool.and_eq_true] at hheard
    obtain ⟨hsound, hmoves⟩ := h.run hheard.1 (Transaction.commit_eq_some.mp hnext)
    obtain ⟨hsound', hmoves'⟩ := ih hsound hrest hheard.2
    exact ⟨hsound', hmoves.trans hmoves'⟩

/-- **Along a run in which no status changes under a rule that depends on it, a machine's
counter stands for one list, a converged answer carries that list, and a job is done only by an
answer to it; suspending and restoring leave the rules alone.** -/
theorem generations_sound {before after : List Transaction} {earlier later : Db}
    (hbefore : before.foldlM Transaction.commit .empty = some earlier)
    (hafter : after.foldlM Transaction.commit earlier = some later)
    (hheard : Transaction.heardAlong .empty (before ++ after) = true) :
    (∀ nodeId, generation later nodeId = generation earlier nodeId →
        desiredRules later nodeId = desiredRules earlier nodeId
          ∧ (desiredForNodeTx later nodeId).2.rules = (desiredForNodeTx earlier nodeId).2.rules)
      ∧ (∀ nodeId state, later.nodeStates.get? nodeId = some state →
          state.reconcileStatus = .converged →
          state.appliedGeneration = some state.desiredGeneration
            ∧ Carries (desiredRules later nodeId) state)
      ∧ (∀ (t : Transaction) (next : Db) (id : ℕ) (job : QuotaJob), t.run later = .ok next →
          next.jobs.get? id = some job → job.status = .succeeded →
          later.jobs.get? id = some job ∨ DoneRightly t next id job)
      ∧ ∀ (t : Transaction) (next : Db), t.overlays = true → t.run later = .ok next →
          next.rules = later.rules := by
  rw [Transaction.heardAlong_append hbefore, Bool.and_eq_true] at hheard
  obtain ⟨hsound, -⟩ := sound_empty.runAll hbefore hheard.1
  obtain ⟨hsound', hmoves⟩ := hsound.runAll hafter hheard.2
  refine ⟨fun nodeId hsame => ?_, hsound'.settled, fun t next id job hrun hjob hdone => ?_,
    fun t next hoverlays hrun => rules_of_overlays hoverlays hrun⟩
  · have hrules := hmoves.desiredRules hsame
    refine ⟨hrules, ?_⟩
    rw [desiredForNodeTx_rules, desiredForNodeTx_rules, hrules]
  · exact hsound'.done hrun hjob hdone

/-! ### One account on one machine -/

/-- A rule is set up and acknowledged. -/
def forwardingRun : List Transaction :=
  [.addUser "acme" "ann" ⟨.active, false, 1, none, none⟩, .addNode "hk" ⟨"acme", some 10085, false⟩,
    .setEntitlement rootActor "acme" "ann" "hk" ⟨true, true, true, 30000, 59999, 100, false⟩,
    .createRule quietSurroundings rootActor "acme" "ann" (webRule "hk" "example.com" true),
    .readDesired "hk" false, .recordReconcile "hk" ⟨2, [1], none, none⟩ false]

/-- The quota is spent, and the machine has stopped forwarding. -/
def suspendedRun : List Transaction :=
  [.setQuota rootActor "acme" "ann" "hk" (some 100),
    .enforceQuotas ⟨fun _ _ _ => false, fun _ => 100, 0⟩, .readDesired "hk" true,
    .recordReconcile "hk" ⟨3, [], none, none⟩ false]

theorem generations_sound_suspended : ∃ earlier later,
    forwardingRun.foldlM Transaction.commit .empty = some earlier
      ∧ suspendedRun.foldlM Transaction.commit earlier = some later
      ∧ (∃ job, later.jobs.get? 1 = some job ∧ job.status = .succeeded)
      ∧ ∀ nodeId, generation later nodeId = generation earlier nodeId →
        desiredRules later nodeId = desiredRules earlier nodeId
          ∧ (desiredForNodeTx later nodeId).2.rules = (desiredForNodeTx earlier nodeId).2.rules := by
  have hruns : (forwardingRun.foldlM Transaction.commit .empty).isSome = true := by decide +kernel
  obtain ⟨earlier, hearlier⟩ := Option.isSome_iff_exists.mp hruns
  have hboth : ((forwardingRun ++ suspendedRun).foldlM Transaction.commit .empty).map (fun db =>
      (db.jobs.get? 1).map (·.status)) = some (some .succeeded) := by decide +kernel
  obtain ⟨later, hlater, hjob⟩ := Option.map_eq_some_iff.mp hboth
  rw [List.foldlM_append, hearlier] at hlater
  exact ⟨earlier, later, hearlier, hlater, Option.map_eq_some_iff.mp hjob,
    (generations_sound hearlier hlater (by decide +kernel)).1⟩

def disabledRun : List Transaction := [.updateUserStatus rootActor "acme" "ann" .disabled]

/-- Disabling the account empties the list, and neither the counter nor the converged answer
moves. -/
theorem disabled_unheard : ∃ earlier later state,
    forwardingRun.foldlM Transaction.commit .empty = some earlier
      ∧ disabledRun.foldlM Transaction.commit earlier = some later
      ∧ generation later "hk" = generation earlier "hk"
      ∧ (desiredForNodeTx later "hk").2.rules ≠ (desiredForNodeTx earlier "hk").2.rules
      ∧ later.nodeStates.get? "hk" = some state ∧ state.reconcileStatus = .converged
      ∧ ¬ Carries (desiredForNodeTx later "hk").2.rules state := by
  have hruns : (forwardingRun.foldlM Transaction.commit .empty).map (fun db =>
      (generation db "hk", (desiredForNodeTx db "hk").2.rules.map fun desired => desired.id))
      = some ((2 : ℤ), [(1 : ℤ)]) := by decide +kernel
  obtain ⟨earlier, hearlier, hread⟩ := Option.map_eq_some_iff.mp hruns
  obtain ⟨hbefore, hlisted⟩ := Prod.mk.inj hread
  have hboth : ((forwardingRun ++ disabledRun).foldlM Transaction.commit .empty).map (fun db =>
      (generation db "hk", (desiredForNodeTx db "hk").2.rules, (db.nodeStates.get? "hk").map
        fun state : NodeState => (state.reconcileStatus, state.appliedRuleIds)))
      = some ((2 : ℤ), [], some (ReconcileStatus.converged, [(1 : ℤ)])) := by decide +kernel
  obtain ⟨later, hlater, hend⟩ := Option.map_eq_some_iff.mp hboth
  rw [List.foldlM_append, hearlier] at hlater
  obtain ⟨hafter, hend⟩ := Prod.mk.inj hend
  obtain ⟨hempty, hend⟩ := Prod.mk.inj hend
  obtain ⟨state, hstate, hrecord⟩ := Option.map_eq_some_iff.mp hend
  obtain ⟨hconverged, happlied⟩ := Prod.mk.inj hrecord
  refine ⟨earlier, later, state, hearlier, hlater, hafter.trans hbefore.symm, fun heq => ?_, hstate,
    hconverged, fun hcarries => ?_⟩
  · rw [hempty] at heq
    rw [← heq] at hlisted
    cases hlisted
  · have hone := (hcarries.applied 1).mp (by rw [happlied]; exact List.mem_singleton_self 1)
    rw [hempty] at hone
    cases hone

end Brocade.Forwarding
