/-
Runs of the control plane's usage database.

What the database goes through is a list of events: deliveries of reports, by any
machine and in any order, and changes the rest of the control plane makes to the tables
this code only reads.  A delivery that ends in an error is rolled back.  `history` is the
list of the transactions that committed, each with the database before and after it, so
a statement about every transaction of every run is one about its members.
-/
import Brocade.Usage.Spec

namespace Brocade.Usage

/-- What the database goes through. -/
inductive Event where
  /-- a report arrives from a machine, at a server time -/
  | deliver (serverNow : Int) (nodeId : String) (request : UsageReportRequest)
  /-- frozen generations and machines change -/
  | control (generations : Table (Int × String) UsageGeneration) (nodes : List String)

/-- A committed report. -/
structure Transaction where
  before : Db
  serverNow : Int
  nodeId : String
  request : UsageReportRequest
  result : UsageReportResult
  after : Db

/-- The state after one event. -/
def step (platform : Platform) (db : Db) : Event → Db
  | .deliver serverNow nodeId request =>
    match recordUsageReport platform serverNow db nodeId request with
    | .ok (_, db') => db'
    | .error _ => db
  | .control generations nodes => { db with generations, nodes }

def runFrom (platform : Platform) (db : Db) (events : List Event) : Db :=
  events.foldl (step platform) db

/-- The state a run leaves, starting from empty tables. -/
def run (platform : Platform) (events : List Event) : Db := runFrom platform .empty events

/-- The transactions of a run that committed, in order. -/
def historyFrom (platform : Platform) (db : Db) : List Event → List Transaction
  | [] => []
  | event :: rest =>
    let later := historyFrom platform (step platform db event) rest
    match event with
    | .deliver serverNow nodeId request =>
      match recordUsageReport platform serverNow db nodeId request with
      | .ok (result, after) => { before := db, serverNow, nodeId, request, result, after } :: later
      | .error _ => later
    | .control _ _ => later

def history (platform : Platform) (events : List Event) : List Transaction :=
  historyFrom platform .empty events

variable {platform : Platform}

/-- The transaction is one the code performed. -/
def Transaction.Committed (platform : Platform) (tx : Transaction) : Prop :=
  recordUsageReport platform tx.serverNow tx.before tx.nodeId tx.request = .ok (tx.result, tx.after)

theorem runFrom_append (db : Db) (earlier later : List Event) :
    runFrom platform db (earlier ++ later) = runFrom platform (runFrom platform db earlier) later :=
  List.foldl_append

variable {events : List Event} {db : Db} {tx : Transaction} {nodeId : String}
    {request : UsageReportRequest}

theorem runFrom_invariant {P : Db → Prop}
    (hstep : ∀ db event, event ∈ events → P db → P (step platform db event)) (hdb : P db) :
    P (runFrom platform db events) := by
  induction events generalizing db with
  | nil => exact hdb
  | cons event rest ih =>
    refine ih (fun db e he => hstep db e (List.mem_cons_of_mem _ he)) ?_
    exact hstep db event List.mem_cons_self hdb

theorem step_of_committed (h : tx.Committed platform) :
    step platform tx.before (.deliver tx.serverNow tx.nodeId tx.request) = tx.after := by
  unfold step
  simp only
  rw [h]

theorem step_of_error {serverNow : Int} {e : StoreError}
    (h : recordUsageReport platform serverNow db nodeId request = .error e) :
    step platform db (.deliver serverNow nodeId request) = db := by
  unfold step
  simp only
  rw [h]

theorem historyFrom_of_error {serverNow : Int} {e : StoreError} {rest : List Event}
    (h : recordUsageReport platform serverNow db nodeId request = .error e) :
    historyFrom platform db (.deliver serverNow nodeId request :: rest)
      = historyFrom platform db rest := by
  conv_lhs => unfold historyFrom
  simp only
  rw [h, step_of_error h]

theorem historyFrom_of_committed {rest : List Event} (h : tx.Committed platform) :
    historyFrom platform tx.before (.deliver tx.serverNow tx.nodeId tx.request :: rest)
      = tx :: historyFrom platform tx.after rest := by
  conv_lhs => unfold historyFrom
  simp only
  rw [h, step_of_committed h]

/-- A transaction of a run is a delivery in it, made in the state the events before it left. -/
theorem mem_historyFrom (htx : tx ∈ historyFrom platform db events) :
    ∃ earlier later, events = earlier ++ .deliver tx.serverNow tx.nodeId tx.request :: later ∧
      tx.before = runFrom platform db earlier ∧ tx.Committed platform := by
  induction events generalizing db with
  | nil => cases htx
  | cons event rest ih =>
    have hlater : tx ∈ historyFrom platform (step platform db event) rest → ∃ earlier later,
          event :: rest = earlier ++ .deliver tx.serverNow tx.nodeId tx.request :: later ∧
          tx.before = runFrom platform db earlier ∧ tx.Committed platform := by
      intro h
      obtain ⟨earlier, later, rfl, hbefore, hcommitted⟩ := ih h
      exact ⟨event :: earlier, later, rfl, hbefore, hcommitted⟩
    unfold historyFrom at htx
    simp only at htx
    split at htx
    · split at htx
      · rename_i hrecord
        rcases List.mem_cons.mp htx with rfl | h
        · exact ⟨[], rest, rfl, rfl, hrecord⟩
        · exact hlater h
      · exact hlater htx
    · exact hlater htx

theorem historyFrom_invariant {P : Db → Prop}
    (hstep : ∀ db event, event ∈ events → P db → P (step platform db event)) (hdb : P db)
    (htx : tx ∈ historyFrom platform db events) : P tx.before := by
  obtain ⟨earlier, later, rfl, hbefore, -⟩ := mem_historyFrom htx
  rw [hbefore]
  exact runFrom_invariant (fun db e he => hstep db e (List.mem_append_left _ he)) hdb

theorem runFrom_growth {M : Type} [AddMonoid M] {f : Db → M} {grown : Transaction → M}
    (hcontrol : ∀ (db : Db) generations nodes, f { db with generations, nodes } = f db)
    (hgrown : ∀ tx ∈ historyFrom platform db events, f tx.after = f tx.before + grown tx) :
    f (runFrom platform db events) = f db + ((historyFrom platform db events).map grown).sum := by
  induction events generalizing db with
  | nil => exact (add_zero _).symm
  | cons event rest ih =>
    have hrun : runFrom platform db (event :: rest)
        = runFrom platform (step platform db event) rest := rfl
    cases event with
    | control generations nodes =>
      rw [hrun, ih hgrown, step, hcontrol]
      rfl
    | deliver serverNow nodeId request =>
      cases hrecord : recordUsageReport platform serverNow db nodeId request with
      | error e =>
        rw [historyFrom_of_error hrecord] at hgrown ⊢
        rw [hrun, step_of_error hrecord]
        exact ih hgrown
      | ok answer =>
        obtain ⟨result, after⟩ := answer
        have hcommitted :
            Transaction.Committed platform ⟨db, serverNow, nodeId, request, result, after⟩ :=
          hrecord
        have hhistory : historyFrom platform db (.deliver serverNow nodeId request :: rest)
            = ⟨db, serverNow, nodeId, request, result, after⟩
              :: historyFrom platform after rest := historyFrom_of_committed hcommitted
        rw [hhistory] at hgrown ⊢
        rw [hrun, step_of_committed hcommitted,
          ih fun tx htx => hgrown tx (List.mem_cons_of_mem _ htx),
          hgrown _ List.mem_cons_self, List.map_cons, List.sum_cons, add_assoc]

theorem countAll_control {generation : UsageGeneration} {progress : Progress}
    (h : countAll platform db nodeId request generation = .ok progress) :
    progress.db.generations = db.generations ∧ progress.db.nodes = db.nodes ∧
      progress.db.receipts = db.receipts := by
  refine Fallible.foldlM_invariant
    (P := fun p => p.db.generations = db.generations ∧ p.db.nodes = db.nodes ∧
      p.db.receipts = db.receipts) ?_ ⟨rfl, rfl, rfl⟩ h
  intro p counter p' _ hp hstep
  obtain ⟨hcontrol, -⟩ := recordCounter_books hstep
  exact ⟨hcontrol.generations.trans hp.1, hcontrol.nodes.trans hp.2.1,
    hcontrol.receipts.trans hp.2.2⟩

theorem Transaction.Committed.control (h : tx.Committed platform) :
    tx.after.generations = tx.before.generations ∧ tx.after.nodes = tx.before.nodes := by
  rcases recordUsageReport_ok h with ⟨_, -, -, -, hafter⟩ | ⟨-, _, -, hfresh⟩
  · rw [hafter]
    exact ⟨rfl, rfl⟩
  · obtain ⟨progress, hcount, hrecorded⟩ := recordFresh_ok hfresh
    obtain ⟨hgenerations, hnodes, -⟩ := countAll_control hcount
    exact ⟨hrecorded.generations.trans hgenerations, hrecorded.nodes.trans hnodes⟩

/-- The generations a run works with are ones its events installed. -/
def Installed (events : List Event) (db : Db) : Prop :=
  db.generations = .empty ∨ ∃ nodes, .control db.generations nodes ∈ events

theorem step_installed {event : Event} (hevent : event ∈ events) (h : Installed events db) :
    Installed events (step platform db event) := by
  cases event with
  | deliver serverNow nodeId request =>
    unfold step
    simp only
    split
    · rename_i result after hrecord
      have hcommitted :
          Transaction.Committed platform ⟨db, serverNow, nodeId, request, result, after⟩ := hrecord
      unfold Installed
      rw [hcommitted.control.1]
      exact h
    · exact h
  | control generations nodes => exact Or.inr ⟨nodes, hevent⟩

end Brocade.Usage
