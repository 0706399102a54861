/-
The usage ledgers agree.

The sample tables are the source of truth; the user rollups, the machine rollups and the
machine windows are kept beside them so that billing, quotas and charts need not scan
samples.  Within a report the windows run behind the samples by what the report has
gathered and not yet flushed; `InFlight` says so, and flushing turns it into `Balanced`.
-/
import Brocade.Usage.Run

namespace Brocade.Usage

open Fallible

/-- The five ledgers agree. -/
structure Balanced (db : Db) : Prop where
  userRolled : ∀ t u a, db.userSampled t u a = db.userRolled t u a
  nodeUserRolled : ∀ n t, db.nodeUserSampled n t = db.nodeUserRolled n t
  nodeRelayRolled : ∀ n t, db.nodeRelaySampled n t = db.nodeRelayRolled n t
  nodeUserWindowed : ∀ n t, db.nodeUserSampled n t = db.nodeUserWindowed n t
  nodeRelayWindowed : ∀ n t, db.nodeRelaySampled n t = db.nodeRelayWindowed n t

/-- The ledgers agree once the windows gathered so far are counted. -/
structure InFlight (progress : Progress) : Prop where
  userRolled : ∀ t u a, progress.db.userSampled t u a = progress.db.userRolled t u a
  nodeUserRolled : ∀ n t, progress.db.nodeUserSampled n t = progress.db.nodeUserRolled n t
  nodeRelayRolled : ∀ n t, progress.db.nodeRelaySampled n t = progress.db.nodeRelayRolled n t
  nodeUserWindowed : ∀ n t, progress.db.nodeUserSampled n t
    = progress.db.nodeUserWindowed n t + progress.nodeWindows.userTotal n t
  nodeRelayWindowed : ∀ n t, progress.db.nodeRelaySampled n t
    = progress.db.nodeRelayWindowed n t + progress.nodeWindows.relayTotal n t

theorem balanced_empty : Balanced Db.empty :=
  ⟨fun _ _ _ => rfl, fun _ _ => rfl, fun _ _ => rfl, fun _ _ => rfl, fun _ _ => rfl⟩

variable {db : Db} {platform : Platform} {tx : Transaction}

theorem inFlight_start (h : Balanced db) (nodeId : String) (request : UsageReportRequest) :
    InFlight (.start db nodeId request) where
  userRolled := h.userRolled
  nodeUserRolled := h.nodeUserRolled
  nodeRelayRolled := h.nodeRelayRolled
  nodeUserWindowed n t := (h.nodeUserWindowed n t).trans (add_zero _).symm
  nodeRelayWindowed n t := (h.nodeRelayWindowed n t).trans (add_zero _).symm

theorem recordCounter_inFlight {nodeId : String} {generation : UsageGeneration}
    {request : UsageReportRequest} {progress progress' : Progress} {counter : UsageCounter}
    (hp : InFlight progress)
    (h : recordCounter platform nodeId generation request progress counter = .ok progress') :
    InFlight progress' := by
  obtain ⟨hcontrol, owner, bytes, hbooked, hgathered⟩ := recordCounter_books h
  refine ⟨fun t u a => ?_, fun n t => ?_, fun n t => ?_, fun n t => ?_, fun n t => ?_⟩
  · rw [hbooked.userSampled, hbooked.userRolled, hp.userRolled]
  · rw [hbooked.nodeUserSampled, hbooked.nodeUserRolled, hp.nodeUserRolled]
  · rw [hbooked.nodeRelaySampled, hbooked.nodeRelayRolled, hp.nodeRelayRolled]
  · rw [hbooked.nodeUserSampled, hp.nodeUserWindowed, hgathered.user, Db.nodeUserWindowed,
      Db.nodeUserWindowed, hcontrol.nodeWindows, add_assoc]
  · rw [hbooked.nodeRelaySampled, hp.nodeRelayWindowed, hgathered.relay, Db.nodeRelayWindowed,
      Db.nodeRelayWindowed, hcontrol.nodeWindows, add_assoc]

theorem persistNodeWindows_ok {readAt : Int} {rows : List ((String × String) × NodeTotals)}
    {table table' : Table (String × Int × String) NodeTotals}
    (h : persistNodeWindows readAt rows table = .ok table') (n t : String) {f : NodeTotals → Bytes}
    (hzero : f .zero = 0) (hadd : ∀ a b, f (a.add b) = f a + f b) :
    table'.total (fun k => decide (k.1 = n ∧ k.2.2 = t)) f
      = table.total (fun k => decide (k.1 = n ∧ k.2.2 = t)) f
        + ((rows.filter fun r => decide (r.1 = (n, t))).map fun r => f r.2).sum := by
  induction rows generalizing table with
  | nil =>
    cases h
    simp
  | cons row rest ih =>
    obtain ⟨⟨node, tenant⟩, totals⟩ := row
    unfold persistNodeWindows at h
    simp only at h
    split at h
    · rw [ih h, Table.total_upsert (d := f totals) _ _ _ _ (by simp [hadd, hzero])
        (by simp [hadd])]
      by_cases hkey : node = n ∧ tenant = t
      · simp [hkey, add_assoc]
      · simp [hkey]
    · cases h

theorem recordFresh_balanced {after : Db} {nodeId : String} {request : UsageReportRequest}
    {generation : UsageGeneration} {result : UsageReportResult} (hdb : Balanced db)
    (h : recordFresh platform db nodeId request generation = .ok (result, after)) :
    Balanced after := by
  obtain ⟨progress, hcount, hrecorded⟩ := recordFresh_ok h
  have hflight : InFlight progress :=
    foldlM_invariant (fun _ _ _ _ hp hstep => recordCounter_inFlight hp hstep)
      (inFlight_start hdb nodeId request) hcount
  have huser := fun n t => persistNodeWindows_ok hrecorded.windows n t
    (f := NodeTotals.user) rfl fun _ _ => rfl
  have hrelay := fun n t => persistNodeWindows_ok hrecorded.windows n t
    (f := NodeTotals.relay) rfl fun _ _ => rfl
  refine ⟨fun t u a => ?_, fun n t => ?_, fun n t => ?_, fun n t => ?_, fun n t => ?_⟩
  · rw [Db.userSampled, hrecorded.samples, Db.userRolled, hrecorded.rollups]
    exact hflight.userRolled t u a
  · rw [Db.nodeUserSampled, hrecorded.samples, Db.nodeUserRolled, hrecorded.nodeRollups]
    exact hflight.nodeUserRolled n t
  · rw [Db.nodeRelaySampled, hrecorded.chainSamples, Db.nodeRelayRolled, hrecorded.nodeRollups]
    exact hflight.nodeRelayRolled n t
  · rw [Db.nodeUserSampled, hrecorded.samples, Db.nodeUserWindowed, huser]
    exact hflight.nodeUserWindowed n t
  · rw [Db.nodeRelaySampled, hrecorded.chainSamples, Db.nodeRelayWindowed, hrelay]
    exact hflight.nodeRelayWindowed n t

theorem step_balanced (h : Balanced db) (event : Event) : Balanced (step platform db event) := by
  cases event with
  | deliver serverNow nodeId request =>
    unfold step
    simp only
    split
    · rename_i hrecord
      rcases recordUsageReport_ok hrecord with ⟨_, -, -, -, rfl⟩ | ⟨-, _, -, hfresh⟩
      · exact h
      · exact recordFresh_balanced h hfresh
    · exact h
  | control generations nodes =>
    exact ⟨h.userRolled, h.nodeUserRolled, h.nodeRelayRolled, h.nodeUserWindowed,
      h.nodeRelayWindowed⟩

/-! ### Redelivery -/

/-- The key a report's receipt is kept under. -/
def Transaction.receiptKey (tx : Transaction) : String × String × ℕ :=
  (tx.nodeId, tx.request.agentInstanceId, tx.request.sequence)

/-- The receipt of the transaction's report is there, and answers with its result. -/
def Receipted (platform : Platform) (tx : Transaction) (db : Db) : Prop :=
  ∃ receipt, db.receipts.get? tx.receiptKey = some receipt ∧
    receipt.payloadSha256 = platform.payloadSha256 tx.request ∧
    { receipt.result with duplicate := true } = { tx.result with duplicate := true }

theorem committed_receipted (h : tx.Committed platform) : Receipted platform tx tx.after := by
  rcases recordUsageReport_ok h with ⟨receipt, hreceipt, hdigest, hresult, hafter⟩ |
    ⟨-, generation, -, hfresh⟩
  · exact ⟨receipt, hafter ▸ hreceipt, hdigest, by rw [hresult]⟩
  · obtain ⟨progress, -, hrecorded⟩ := recordFresh_ok hfresh
    obtain ⟨receipt, hdigest, hresult, hreceipts⟩ := hrecorded.receipts
    refine ⟨receipt, ?_, hdigest, by rw [hresult]⟩
    rw [hreceipts, Transaction.receiptKey, Table.get?_put, if_pos rfl]

theorem step_receipted (h : Receipted platform tx db) (event : Event) :
    Receipted platform tx (step platform db event) := by
  cases event with
  | deliver serverNow nodeId request =>
    unfold step
    simp only
    split
    · rename_i hrecord
      rcases recordUsageReport_ok hrecord with ⟨_, -, -, -, rfl⟩ | ⟨hnew, _, -, hfresh⟩
      · exact h
      · obtain ⟨progress, hcount, hrecorded⟩ := recordFresh_ok hfresh
        obtain ⟨receipt, hreceipt, hrest⟩ := h
        obtain ⟨receipt', -, -, hreceipts⟩ := hrecorded.receipts
        refine ⟨receipt, ?_, hrest⟩
        rw [hreceipts, (countAll_control hcount).2.2, Table.get?_put, if_neg, hreceipt]
        -- the new receipt cannot be at this key, which was taken
        intro hkey
        rw [hkey, hnew] at hreceipt
        cases hreceipt
    · exact h
  | control generations nodes => exact h

theorem historyFrom_receipted {events : List Event} (htx : tx ∈ historyFrom platform db events) :
    Receipted platform tx (runFrom platform db events) := by
  obtain ⟨earlier, later, rfl, hbefore, hcommitted⟩ := mem_historyFrom htx
  have hrun : runFrom platform db (earlier ++ .deliver tx.serverNow tx.nodeId tx.request :: later)
      = runFrom platform tx.after later := by
    rw [runFrom_append, ← hbefore, ← step_of_committed hcommitted]
    rfl
  rw [hrun]
  exact runFrom_invariant (P := Receipted platform tx) (fun _ e _ h => step_receipted h e)
    (committed_receipted hcommitted)

theorem step_of_receipted (h : Receipted platform tx db) (serverNow : Int) :
    step platform db (.deliver serverNow tx.nodeId tx.request) = db := by
  obtain ⟨receipt, hreceipt, -⟩ := h
  unfold step
  simp only
  split
  · rename_i hrecord
    rcases recordUsageReport_ok hrecord with ⟨_, -, -, -, hafter⟩ | ⟨hnew, -⟩
    · exact hafter
    · rw [Transaction.receiptKey, hnew] at hreceipt
      cases hreceipt
  · rfl

/-- **The usage ledgers agree after every step of every run**, and a report that has been
committed can be delivered again at any later time without changing anything. -/
theorem ledgers_agree (platform : Platform) (events : List Event) :
    Balanced (run platform events) ∧ ∀ tx ∈ history platform events, ∀ serverNow,
        step platform (run platform events) (.deliver serverNow tx.nodeId tx.request)
          = run platform events :=
  ⟨runFrom_invariant (P := Balanced) (fun _ event _ h => step_balanced h event) balanced_empty,
    fun _ htx serverNow => step_of_receipted (historyFrom_receipted htx) serverNow⟩

end Brocade.Usage
