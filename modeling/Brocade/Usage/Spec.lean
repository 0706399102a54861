/-
What recording a counter does to the database.

One inversion lemma for each function of the record path, from the inside out.  The
ledgers are described by what a write adds to them, the rest of the database by what
stays as it is.
-/
import Brocade.Lib.Fallible
import Brocade.Usage.Record

namespace Brocade.Usage

open Fallible

/-! ### What the ledgers add up to -/

namespace Db

/-- Sampled bytes of a user in an application. -/
def userSampled (db : Db) (tenant user app : String) : Bytes :=
  db.samples.total (fun _ => true) fun s =>
    if s.tenantId = tenant ∧ s.userId = user ∧ s.appId = app then s.bytes else 0

/-- A user's hours. -/
def userRolled (db : Db) (tenant user app : String) : Bytes :=
  db.rollups.total (fun k => decide (k.1 = tenant ∧ k.2.1 = user ∧ k.2.2.1 = app)) Prod.fst

/-- Sampled user bytes of a tenant on a machine. -/
def nodeUserSampled (db : Db) (node tenant : String) : Bytes :=
  db.samples.total (fun k => decide (k.1 = node)) fun s =>
    if s.tenantId = tenant then s.bytes else 0

/-- A machine's relayed samples. -/
def nodeRelaySampled (db : Db) (node tenant : String) : Bytes :=
  db.chainSamples.total (fun k => decide (k.1 = node)) fun s =>
    if s.tenantId = tenant then s.bytes else 0

/-- A machine's hours, of users. -/
def nodeUserRolled (db : Db) (node tenant : String) : Bytes :=
  db.nodeRollups.total (fun k => decide (k.1 = tenant ∧ k.2.1 = node)) fun r => r.1.user

/-- A machine's hours, of relays. -/
def nodeRelayRolled (db : Db) (node tenant : String) : Bytes :=
  db.nodeRollups.total (fun k => decide (k.1 = tenant ∧ k.2.1 = node)) fun r => r.1.relay

/-- A machine's windows, of users. -/
def nodeUserWindowed (db : Db) (node tenant : String) : Bytes :=
  db.nodeWindows.total (fun k => decide (k.1 = node ∧ k.2.2 = tenant)) NodeTotals.user

/-- A machine's windows, of relays. -/
def nodeRelayWindowed (db : Db) (node tenant : String) : Bytes :=
  db.nodeWindows.total (fun k => decide (k.1 = node ∧ k.2.2 = tenant)) NodeTotals.relay

/-- Bytes billed on a machine under a grant label. -/
def billed (db : Db) (node label : String) : Bytes :=
  db.samples.total (fun k => decide (k.1 = node ∧ k.2.1 = label)) UsageSample.bytes

/-- Bytes booked for a relay hop on its machine. -/
def relayed (db : Db) (node label : String) : Bytes :=
  db.chainSamples.total (fun k => decide (k.1 = node ∧ k.2.1 = label)) ChainSample.bytes

end Db

/-! ### What a window is worth to each ledger -/

/-- What a user gets of it. -/
def userShare (owner : CounterOwner) (bytes : Bytes) (tenant user app : String) : Bytes :=
  match owner with
  | .user grant =>
    if grant.tenantId = tenant ∧ grant.userId = user ∧ grant.appId = app then bytes else 0
  | .chainHop _ => 0

/-- What a machine's users get of it. -/
def nodeUserShare (reporter : String) (owner : CounterOwner) (bytes : Bytes)
    (node tenant : String) : Bytes :=
  match owner with
  | .user grant => if reporter = node ∧ grant.tenantId = tenant then bytes else 0
  | .chainHop _ => 0

/-- What its relays get of it. -/
def nodeRelayShare (owner : CounterOwner) (bytes : Bytes) (node tenant : String) : Bytes :=
  match owner with
  | .user _ => 0
  | .chainHop hop => if hop.nodeId = node ∧ hop.tenantId = tenant then bytes else 0

/-- What a label gets of it. -/
def labelShare (reporter : String) (owner : CounterOwner) (bytes : Bytes) (node label : String) :
    Bytes :=
  match owner with
  | .user grant => if reporter = node ∧ grant.label = label then bytes else 0
  | .chainHop _ => 0

/-- What a hop gets of it. -/
def hopShare (owner : CounterOwner) (bytes : Bytes) (node label : String) : Bytes :=
  match owner with
  | .user _ => 0
  | .chainHop hop => if hop.nodeId = node ∧ hop.label = label then bytes else 0

/-- The sample tables of `db'` are those of `db` with one window more, and so are its rollups. -/
structure Booked (reporter : String) (owner : CounterOwner) (bytes : Bytes) (db db' : Db) :
    Prop where
  userSampled : ∀ t u a, db'.userSampled t u a = db.userSampled t u a + userShare owner bytes t u a
  userRolled : ∀ t u a, db'.userRolled t u a = db.userRolled t u a + userShare owner bytes t u a
  nodeUserSampled : ∀ n t,
    db'.nodeUserSampled n t = db.nodeUserSampled n t + nodeUserShare reporter owner bytes n t
  nodeUserRolled : ∀ n t,
    db'.nodeUserRolled n t = db.nodeUserRolled n t + nodeUserShare reporter owner bytes n t
  nodeRelaySampled : ∀ n t,
    db'.nodeRelaySampled n t = db.nodeRelaySampled n t + nodeRelayShare owner bytes n t
  nodeRelayRolled : ∀ n t,
    db'.nodeRelayRolled n t = db.nodeRelayRolled n t + nodeRelayShare owner bytes n t
  billed : ∀ n l, db'.billed n l = db.billed n l + labelShare reporter owner bytes n l
  relayed : ∀ n l, db'.relayed n l = db.relayed n l + hopShare owner bytes n l

/-- Everything but the sample tables and the rollups. -/
structure SameElse (db db' : Db) : Prop where
  generations : db'.generations = db.generations
  nodes : db'.nodes = db.nodes
  heads : db'.heads = db.heads
  readings : db'.readings = db.readings
  nodeWindows : db'.nodeWindows = db.nodeWindows
  receipts : db'.receipts = db.receipts
  cursors : db'.cursors = db.cursors

theorem SameElse.refl (db : Db) : SameElse db db := ⟨rfl, rfl, rfl, rfl, rfl, rfl, rfl⟩

variable {bytes : Bytes} {db db' after : Db} {platform : Platform} {sample : UsageSampleInsert}
    {inserted : Bool} {owner : CounterOwner} {nodeId : String} {request : UsageReportRequest}
    {metadata : UsageMetadata} {generationId accounting : Int} {progress progress' : Progress}
    {generation : UsageGeneration} {result : UsageReportResult}

theorem addRollup_ok
    {rollups rollups' : Table (String × String × String × Int × Int) (Bytes × Bool)}
    {key : String × String × String × Int × Int} {hasGap : Bool}
    (h : addRollup rollups key bytes hasGap = .ok rollups')
    (p : String × String × String × Int × Int → Bool) :
    rollups'.total p Prod.fst = rollups.total p Prod.fst + if p key then bytes else 0 := by
  unfold addRollup at h
  simp only at h
  split at h
  · cases h
    exact Table.total_upsert _ _ _ _ (by simp) (by simp)
  · cases h

theorem addNodeRollup_ok {rollups rollups' : Table (String × String × Int × Int) (NodeTotals × Bool)}
    {key : String × String × Int × Int} {totals : NodeTotals} {hasGap : Bool}
    (h : addNodeRollup rollups key totals hasGap = .ok rollups')
    (p : String × String × Int × Int → Bool) :
    rollups'.total p (fun r => r.1.user)
        = rollups.total p (fun r => r.1.user) + (if p key then totals.user else 0) ∧
      rollups'.total p (fun r => r.1.relay)
        = rollups.total p (fun r => r.1.relay) + if p key then totals.relay else 0 := by
  unfold addNodeRollup at h
  simp only at h
  split at h
  · cases h
    constructor
    · exact Table.total_upsert _ _ _ _ (by simp [NodeTotals.add, NodeTotals.zero])
        (by simp [NodeTotals.add])
    · exact Table.total_upsert _ _ _ _ (by simp [NodeTotals.add, NodeTotals.zero])
        (by simp [NodeTotals.add])
  · cases h

theorem total_presence {κ α : Type} [DecidableEq κ] (t : Table κ α) (k : κ) (v : α) (p : κ → Bool)
    {f : α → Bytes} (hf : f v = 0) : ((t.insertNew? k v).getD t).total p f = t.total p f := by
  cases hins : t.insertNew? k v with
  | none => rfl
  | some t' => simp [Table.total_insertNew? hins p f, hf]

/-- The key a window of this owner is booked under. -/
def CounterOwner.windowKey (owner : CounterOwner) (nodeId : String) (start stop : Int) :
    WindowKey :=
  match owner with
  | .user grant => (nodeId, grant.label, start, stop)
  | .chainHop hop => (hop.nodeId, hop.label, start, stop)

/-- Whether a window is booked: an idle user window always is, any other one if its key is free. -/
def bookable (db : Db) (nodeId : String) (owner : CounterOwner) (stop : Int) (window : Window) :
    Bool :=
  match owner with
  | .user _ => (decide (window.bytes = 0) && !window.hasGap)
      || !db.samples.contains (owner.windowKey nodeId window.start stop)
  | .chainHop _ => !db.chainSamples.contains (owner.windowKey nodeId window.start stop)

/-- The window a row is booked for. -/
def UsageSampleInsert.window (sample : UsageSampleInsert) : Window where
  start := sample.windowStartUnixSecs
  bytes := sample.bytes
  hasGap := sample.hasGap

/-- The window it is in. -/
def UsageSampleInsert.key (sample : UsageSampleInsert) (owner : CounterOwner) : WindowKey :=
  owner.windowKey sample.nodeId sample.windowStartUnixSecs sample.windowEndUnixSecs

/-- Whether it is booked. -/
def UsageSampleInsert.bookable (sample : UsageSampleInsert) (db : Db) (owner : CounterOwner) :
    Bool :=
  Usage.bookable db sample.nodeId owner sample.windowEndUnixSecs sample.window

/-- Both sample tables agree away from the owner's key, if there is one. -/
structure SameRows (owner : CounterOwner) (key : Option WindowKey) (db db' : Db) : Prop where
  samples : ∀ k, (∀ grant, owner = .user grant → key ≠ some k) →
    db'.samples.get? k = db.samples.get? k
  chainSamples : ∀ k, (∀ hop, owner = .chainHop hop → key ≠ some k) →
    db'.chainSamples.get? k = db.chainSamples.get? k

theorem SameRows.of_same (owner : CounterOwner) (key : Option WindowKey)
    (hsamples : db'.samples = db.samples) (hchain : db'.chainSamples = db.chainSamples) :
    SameRows owner key db db' :=
  ⟨fun _ _ => by rw [hsamples], fun _ _ => by rw [hchain]⟩

theorem Booked.of_same (reporter : String) (owner : CounterOwner)
    (hsamples : db'.samples = db.samples) (hchain : db'.chainSamples = db.chainSamples)
    (hrollups : db'.rollups = db.rollups) (hnodeRollups : db'.nodeRollups = db.nodeRollups) :
    Booked reporter owner 0 db db' := by
  constructor <;> intros <;> cases owner <;>
    simp [userShare, nodeUserShare, nodeRelayShare, labelShare, hopShare, Db.userSampled,
      Db.userRolled, Db.nodeUserSampled, Db.nodeUserRolled, Db.nodeRelaySampled,
      Db.nodeRelayRolled, Db.billed, Db.relayed, hsamples, hchain, hrollups, hnodeRollups]

theorem Booked.zero (reporter : String) (owner : CounterOwner) (db : Db) :
    Booked reporter owner 0 db db :=
  .of_same reporter owner rfl rfl rfl rfl

theorem insertUsageSample_ok {grant : GrantMapping}
    (h : insertUsageSample platform db grant sample = .ok (inserted, db')) :
    SameElse db db' ∧ inserted = sample.bookable db (.user grant) ∧
      Booked sample.nodeId (.user grant) (if inserted then sample.bytes else 0) db db' ∧
      SameRows (.user grant) (some (sample.key (.user grant))) db db' := by
  unfold insertUsageSample at h
  simp only at h
  split at h
  · rename_i hzero
    cases h
    refine ⟨⟨rfl, rfl, rfl, rfl, rfl, rfl, rfl⟩, by simp [UsageSampleInsert.bookable, bookable, UsageSampleInsert.window, hzero], ?_,
      ⟨fun k _ => rfl, fun k _ => rfl⟩⟩
    have hbytes := hzero.1
    constructor
    · intro t u a
      simp [userShare, hbytes, Db.userSampled]
    · intro t u a
      simp only [userShare, hbytes, Db.userRolled, ite_self, add_zero]
      exact total_presence _ _ _ _ rfl
    · intro n t
      simp [nodeUserShare, hbytes, Db.nodeUserSampled]
    · intro n t
      simp only [nodeUserShare, hbytes, Db.nodeUserRolled, ite_self, add_zero]
      exact total_presence _ _ _ _ rfl
    · intro n t
      simp [nodeRelayShare, Db.nodeRelaySampled]
    · intro n t
      simp only [nodeRelayShare, Db.nodeRelayRolled, add_zero]
      exact total_presence _ _ _ _ rfl
    · intro n l
      simp [labelShare, hbytes, Db.billed]
    · intro n l
      simp [hopShare, Db.relayed]
  · rename_i hzero
    split at h
    · rename_i hins
      cases h
      have htaken := Table.insertNew?_eq_none.mp hins
      refine ⟨.refl db, ?_, Booked.zero _ _ db, ⟨fun k _ => rfl, fun k _ => rfl⟩⟩
      have hnot : (decide (sample.bytes = 0) && !sample.hasGap) = false := by
        by_cases hb : sample.bytes = 0
        · rw [not_and, Bool.not_eq_false] at hzero
          simp [hzero hb]
        · rw [decide_eq_false hb, Bool.false_and]
      show false = ((decide (sample.bytes = 0) && !sample.hasGap) || !db.samples.contains _)
      rw [hnot]
      exact (congrArg Bool.not htaken).symm
    · rename_i samples hins
      simp only [bind_eq_ok, pure_eq_ok, Prod.mk.injEq] at h
      obtain ⟨rollups, hrollups, nodeRollups, hnode, rfl, rfl⟩ := h
      have hsamples := Table.total_insertNew? hins (M := Bytes)
      have hroll := addRollup_ok hrollups
      have hnodeRoll := addNodeRollup_ok hnode
      refine ⟨⟨rfl, rfl, rfl, rfl, rfl, rfl, rfl⟩, ?_, ?_, ?_, fun k _ => rfl⟩
      · simp [UsageSampleInsert.bookable, bookable, UsageSampleInsert.window,
          CounterOwner.windowKey, Table.contains_of_insertNew? hins]
      · constructor
        · intro t u a
          simpa [userShare, Db.userSampled] using hsamples (fun _ => true) _
        · intro t u a
          simp only [userShare, Db.userRolled, hroll, decide_eq_true_eq, if_true]
        · intro n t
          simp only [nodeUserShare, Db.nodeUserSampled, hsamples, decide_eq_true_eq, ← ite_and,
            if_true]
        · intro n t
          simp only [nodeUserShare, Db.nodeUserRolled, (hnodeRoll _).1, decide_eq_true_eq,
            and_comm, if_true]
        · intro n t
          simp [nodeRelayShare, Db.nodeRelaySampled]
        · intro n t
          simp [nodeRelayShare, Db.nodeRelayRolled, (hnodeRoll _).2]
        · intro n l
          simp only [labelShare, Db.billed, hsamples, decide_eq_true_eq, if_true]
        · intro n l
          simp [hopShare, Db.relayed]
      · intro k hk
        rw [Table.get?_insertNew? hins]
        exact if_neg fun heq => hk grant rfl (congrArg some heq.symm)

theorem insertChainSample_ok {hop : ChainHopMapping}
    (h : insertChainSample platform db hop sample = .ok (inserted, db')) :
    SameElse db db' ∧ inserted = sample.bookable db (.chainHop hop) ∧
      Booked sample.nodeId (.chainHop hop) (if inserted then sample.bytes else 0) db db' ∧
      SameRows (.chainHop hop) (some (sample.key (.chainHop hop))) db db' := by
  unfold insertChainSample at h
  simp only at h
  split at h
  · rename_i hins
    cases h
    have htaken := Table.insertNew?_eq_none.mp hins
    refine ⟨.refl db, ?_, Booked.zero _ _ db, ⟨fun k _ => rfl, fun k _ => rfl⟩⟩
    simp [UsageSampleInsert.bookable, bookable, UsageSampleInsert.window,
      CounterOwner.windowKey, htaken]
  · rename_i chainSamples hins
    simp only [bind_eq_ok, pure_eq_ok, Prod.mk.injEq] at h
    obtain ⟨nodeRollups, hnode, rfl, rfl⟩ := h
    have hsamples := Table.total_insertNew? hins (M := Bytes)
    have hnodeRoll := addNodeRollup_ok hnode
    refine ⟨⟨rfl, rfl, rfl, rfl, rfl, rfl, rfl⟩, ?_, ?_, fun k _ => rfl, ?_⟩
    · simp [UsageSampleInsert.bookable, bookable, UsageSampleInsert.window,
          CounterOwner.windowKey, Table.contains_of_insertNew? hins]
    · constructor
      · intro t u a
        simp [userShare, Db.userSampled]
      · intro t u a
        simp [userShare, Db.userRolled]
      · intro n t
        simp [nodeUserShare, Db.nodeUserSampled]
      · intro n t
        simp [nodeUserShare, Db.nodeUserRolled, (hnodeRoll _).1]
      · intro n t
        simp only [nodeRelayShare, Db.nodeRelaySampled, hsamples, decide_eq_true_eq, ← ite_and,
          if_true]
      · intro n t
        simp only [nodeRelayShare, Db.nodeRelayRolled, (hnodeRoll _).2, decide_eq_true_eq,
          and_comm, if_true]
      · intro n l
        simp [labelShare, Db.billed]
      · intro n l
        simp only [hopShare, Db.relayed, hsamples, decide_eq_true_eq, if_true]
    · intro k hk
      rw [Table.get?_insertNew? hins]
      exact if_neg fun heq => hk hop rfl (congrArg some heq.symm)

theorem insertSample_ok (h : insertSample platform db owner sample = .ok (inserted, db')) :
    SameElse db db' ∧ inserted = sample.bookable db owner ∧
      Booked sample.nodeId owner (if inserted then sample.bytes else 0) db db' ∧
      SameRows owner (some (sample.key owner)) db db' := by
  cases owner with
  | user grant => exact insertUsageSample_ok h
  | chainHop hop => exact insertChainSample_ok h

/-! ### The windows of a report in flight -/

/-- User bytes a report has booked so far for a tenant on a machine. -/
def WindowTotals.userTotal (windows : WindowTotals) (node tenant : String) : Bytes :=
  windows.total (fun k => decide (k = (node, tenant))) NodeTotals.user

def WindowTotals.relayTotal (windows : WindowTotals) (node tenant : String) : Bytes :=
  windows.total (fun k => decide (k = (node, tenant))) NodeTotals.relay

/-- `windows'` is `windows` with one booked window more. -/
structure Gathered (reporter : String) (owner : CounterOwner) (bytes : Bytes)
    (windows windows' : WindowTotals) : Prop where
  user : ∀ n t, windows'.userTotal n t = windows.userTotal n t + nodeUserShare reporter owner bytes n t
  relay : ∀ n t, windows'.relayTotal n t = windows.relayTotal n t + nodeRelayShare owner bytes n t

theorem Gathered.zero (reporter : String) (owner : CounterOwner) (windows : WindowTotals) :
    Gathered reporter owner 0 windows windows := by
  constructor <;> intros <;> cases owner <;> simp [nodeUserShare, nodeRelayShare]

theorem addNodeWindow_ok {windows windows' : WindowTotals} {reporter : String}
    (h : addNodeWindow windows reporter owner bytes = .ok windows') :
    Gathered reporter owner bytes windows windows' := by
  unfold addNodeWindow at h
  cases owner with
  | user grant =>
    simp only at h
    split at h
    · cases h
      constructor
      · intro n t
        rw [WindowTotals.userTotal, Table.total_upsert (d := bytes) _ _ _ _
          (by simp [NodeTotals.add, NodeTotals.zero]) (by simp [NodeTotals.add])]
        simp [nodeUserShare, WindowTotals.userTotal]
      · intro n t
        rw [WindowTotals.relayTotal, Table.total_upsert (d := 0) _ _ _ _
          (by simp [NodeTotals.add, NodeTotals.zero]) (by simp [NodeTotals.add])]
        simp [nodeRelayShare, WindowTotals.relayTotal]
    · split at h <;> cases h
  | chainHop hop =>
    simp only at h
    split at h
    · cases h
      constructor
      · intro n t
        rw [WindowTotals.userTotal, Table.total_upsert (d := 0) _ _ _ _
          (by simp [NodeTotals.add, NodeTotals.zero]) (by simp [NodeTotals.add])]
        simp [nodeUserShare, WindowTotals.userTotal]
      · intro n t
        rw [WindowTotals.relayTotal, Table.total_upsert (d := bytes) _ _ _ _
          (by simp [NodeTotals.add, NodeTotals.zero]) (by simp [NodeTotals.add])]
        simp [nodeRelayShare, WindowTotals.relayTotal]
    · split at h <;> cases h

/-! ### One counter -/

/-- What a head move books: the window's bytes, if it has a duration and its row is free. -/
def worth (db : Db) (nodeId : String) (owner : CounterOwner) (readAt : Int) :
    Option Window → Bytes
  | none => 0
  | some window =>
    if window.start < readAt ∧ bookable db nodeId owner readAt window = true then window.bytes
    else 0

/-- What booking a counter's window does to a report in progress. -/
structure BookedWindow (nodeId : String) (readAt : Int) (owner : CounterOwner)
    (window : Option Window) (progress progress' : Progress) : Prop where
  same : SameElse progress.db progress'.db
  labels : progress'.labels = progress.labels
  booked : Booked nodeId owner (worth progress.db nodeId owner readAt window) progress.db
    progress'.db
  gathered : Gathered nodeId owner (worth progress.db nodeId owner readAt window)
    progress.nodeWindows progress'.nodeWindows
  rows : SameRows owner (window.map fun w => owner.windowKey nodeId w.start readAt) progress.db
    progress'.db

theorem BookedWindow.none (nodeId : String) (readAt : Int) (owner : CounterOwner)
    (progress : Progress) : BookedWindow nodeId readAt owner none progress progress where
  same := .refl _
  labels := rfl
  booked := Booked.zero _ _ _
  gathered := Gathered.zero _ _ _
  rows := .of_same _ _ rfl rfl

theorem bookWindow_ok {window : Window}
    (h : bookWindow platform nodeId request owner metadata generationId window progress
      = .ok progress') :
    BookedWindow nodeId request.readAtUnixSecs owner (some window) progress progress' := by
  unfold bookWindow at h
  split at h
  · rename_i hstart
    simp only [bind_eq_ok] at h
    obtain ⟨⟨inserted, db⟩, hinsert, h⟩ := h
    obtain ⟨hsame, hbookable, hbooked, hrows⟩ := insertSample_ok hinsert
    have hworth : worth progress.db nodeId owner request.readAtUnixSecs (some window)
        = if inserted then window.bytes else 0 := by
      rw [hbookable]
      simp only [worth, hstart, true_and]
      rfl
    cases hins : inserted with
    | false =>
      rw [hins] at h hworth hbooked
      rw [if_neg Bool.false_ne_true, pure_eq_ok] at h
      subst h
      exact ⟨hsame, rfl, hworth ▸ hbooked, hworth ▸ Gathered.zero _ _ _, hrows⟩
    | true =>
      rw [hins] at h hworth hbooked
      rw [if_pos rfl, bind_eq_ok] at h
      obtain ⟨nodeWindows, hadd, h⟩ := h
      rw [pure_eq_ok] at h
      subst h
      exact ⟨hsame, rfl, hworth ▸ hbooked, hworth ▸ addNodeWindow_ok hadd, hrows⟩
  · rename_i hstart
    cases h
    have hworth : worth progress.db nodeId owner request.readAtUnixSecs (some window) = 0 := by
      simp [worth, hstart]
    exact ⟨.refl _, rfl, hworth ▸ Booked.zero _ _ _, hworth ▸ Gathered.zero _ _ _,
      .of_same _ _ rfl rfl⟩

/-- Both resolutions of a counter's owner, the second for relay hops only. -/
def resolveTarget (db : Db) (nodeId : String) (generation : UsageGeneration)
    (request : UsageReportRequest) (label : String) (bytes : Bytes) :
    Option (CounterOwner × Int × UsageMetadata) :=
  let previous := db.heads.get? (nodeId, label)
  match resolveOwner db nodeId generation request label bytes previous with
  | none => none
  | some (.user grant, accounting, metadata) => some (.user grant, accounting, metadata)
  | some (.chainHop hop, accounting, metadata) =>
    (resolveChainOwnerNode db hop accounting previous).map fun hop =>
      (.chainHop hop, accounting, metadata)

def CounterOwner.label : CounterOwner → String
  | .user grant => grant.label
  | .chainHop hop => hop.label

theorem toCounterOwner_label {binding : FrozenBinding} {label : String}
    (h : binding.toCounterOwner label = some owner) : owner.label = label := by
  cases binding with
  | foreign => cases h
  | user => cases h; rfl
  | chainHop => cases h; rfl

theorem resolveChainOwnerNode_label {hop hop' : ChainHopMapping} {previous : Option UsageHead}
    (h : resolveChainOwnerNode db hop generationId previous = some hop') :
    hop'.label = hop.label := by
  unfold resolveChainOwnerNode at h
  split at h
  · rw [Option.ite_none_right_eq_some, Option.some.injEq] at h
    rw [← h.2]
  · rw [Option.ite_none_right_eq_some, Option.some.injEq] at h
    rw [← h.2]
  · cases h

theorem retiredChainOwner_label {label : String}
    (h : retiredChainOwner db nodeId label generationId = some (owner, accounting, metadata)) :
    owner.label = label := by
  simp only [retiredChainOwner, Option.bind_eq_bind, Option.bind_eq_some_iff] at h
  obtain ⟨generation, -, binding, -, h⟩ := h
  split at h
  · rename_i hop howner
    cases h
    exact toCounterOwner_label howner
  · cases h

theorem resolveOwner_label {label : String} {previous : Option UsageHead}
    (h : resolveOwner db nodeId generation request label bytes previous
      = some (owner, accounting, metadata)) : owner.label = label := by
  unfold resolveOwner at h
  split at h
  · rename_i owner' howner
    cases h
    obtain ⟨binding, -, hbinding⟩ := Option.bind_eq_some_iff.mp howner
    exact toCounterOwner_label hbinding
  · split at h
    · rw [Option.ite_none_right_eq_some] at h
      exact retiredChainOwner_label h.2
    · cases h

theorem resolveTarget_label {label : String}
    (h : resolveTarget db nodeId generation request label bytes
      = some (owner, accounting, metadata)) : owner.label = label := by
  unfold resolveTarget at h
  simp only at h
  split at h
  · cases h
  · rename_i howner
    cases h
    exact resolveOwner_label howner
  · rename_i hop _ _ howner
    obtain ⟨hop', hhop, heq⟩ := Option.map_eq_some_iff.mp h
    cases heq
    exact (resolveChainOwnerNode_label hhop).trans (resolveOwner_label howner)

/-- Everything but the ledgers, the heads and the readings. -/
structure SameControl (db db' : Db) : Prop where
  generations : db'.generations = db.generations
  nodes : db'.nodes = db.nodes
  nodeWindows : db'.nodeWindows = db.nodeWindows
  receipts : db'.receipts = db.receipts
  cursors : db'.cursors = db.cursors

/-- What accounting one owned reading does: the head moves and its window is booked, or
neither. -/
structure Accounted (nodeId : String) (request : UsageReportRequest) (owner : CounterOwner)
    (head : Option UsageHead) (window : Option Window) (db db' : Db) : Prop where
  control : SameControl db db'
  heads : ∀ k, db'.heads.get? k = if k = (nodeId, owner.label) then head else db.heads.get? k
  booked : Booked nodeId owner (worth db nodeId owner request.readAtUnixSecs window) db db'
  rows : SameRows owner
    (window.map fun w => owner.windowKey nodeId w.start request.readAtUnixSecs) db db'

/-- The head after a reading, and the window its move is worth. -/
def settle (previous : Option UsageHead) (generation : UsageGeneration) (label : String)
    (reading : UsageReading) (accounting : Int) : Option UsageHead × Option Window :=
  match judge previous (generation.firstReadingPolicy label) generation.activatedAtUnixSecs reading
    accounting with
  | .reject => (previous, none)
  | .keep => (previous, none)
  | .advance window => (some (reading.head accounting), window)

theorem accountReading_ok {label : String} (hlabel : owner.label = label)
    (h : accountReading platform nodeId generation request label bytes
      (progress.db.heads.get? (nodeId, label)) owner accounting metadata progress = .ok progress') :
    let settled := settle (progress.db.heads.get? (nodeId, label)) generation label
      (request.reading generation.id bytes) accounting
    progress'.labels = progress.labels ∧
      Accounted nodeId request owner settled.1 settled.2 progress.db progress'.db ∧
      Gathered nodeId owner
        (worth progress.db nodeId owner request.readAtUnixSecs settled.2)
        progress.nodeWindows progress'.nodeWindows := by
  subst hlabel
  intro settled
  have hkept : ∀ (heads : Table (String × String) UsageHead) (k : String × String),
      heads.get? k = if k = (nodeId, owner.label) then heads.get? (nodeId, owner.label)
        else heads.get? k := by
    intro heads k
    split
    · next hk => rw [hk]
    · rfl
  unfold accountReading at h
  simp only at h
  split at h
  · cases h
  · rename_i readings _
    split at h
    · rename_i hjudge
      have hsettled : settled = (progress.db.heads.get? (nodeId, owner.label), none) := by
        show settle _ _ _ _ _ = _
        rw [settle, hjudge]
      cases h
      rw [hsettled]
      exact ⟨rfl, ⟨⟨rfl, rfl, rfl, rfl, rfl⟩, hkept _, .of_same _ _ rfl rfl rfl rfl,
        .of_same _ _ rfl rfl⟩, .zero _ _ _⟩
    · rename_i hjudge
      have hsettled : settled = (progress.db.heads.get? (nodeId, owner.label), none) := by
        show settle _ _ _ _ _ = _
        rw [settle, hjudge]
      cases h
      rw [hsettled]
      exact ⟨rfl, ⟨⟨rfl, rfl, rfl, rfl, rfl⟩, hkept _, .of_same _ _ rfl rfl rfl rfl,
        .of_same _ _ rfl rfl⟩, .zero _ _ _⟩
    · rename_i window hjudge
      have hsettled : settled
          = (some ((request.reading generation.id bytes).head accounting), window) := by
        show settle _ _ _ _ _ = _
        rw [settle, hjudge]
      rw [bind_eq_ok] at h
      obtain ⟨mid, hmid, h⟩ := h
      rw [pure_eq_ok] at h
      subst h
      have hbook : BookedWindow nodeId request.readAtUnixSecs owner window
          { progress with db := { progress.db with readings } } mid := by
        cases window with
        | none =>
          cases hmid
          exact .none _ _ _ _
        | some window => exact bookWindow_ok hmid
      obtain ⟨hsame, hlabels, hbooked, hgathered, hrows⟩ := hbook
      rw [hsettled]
      refine ⟨hlabels, ⟨⟨hsame.generations, hsame.nodes, hsame.nodeWindows, hsame.receipts,
        hsame.cursors⟩, fun k => ?_, ?_, hrows.samples, hrows.chainSamples⟩, hgathered⟩
      · show (mid.db.heads.put _ _).get? k = _
        rw [Table.get?_put, hsame.heads]
      · exact ⟨hbooked.userSampled, hbooked.userRolled, hbooked.nodeUserSampled,
          hbooked.nodeUserRolled, hbooked.nodeRelaySampled, hbooked.nodeRelayRolled,
          hbooked.billed, hbooked.relayed⟩

/-- A counter the loop looks at: named, in range, and not the probe's own. -/
def counts (label : String) (bytes : Bytes) : Prop :=
  label ≠ "" ∧ inRange bytes = true ∧ isProbeLabel label = false

/-- The state a counter leaves that is not accounted. -/
structure Idle (progress progress' : Progress) : Prop where
  db : progress'.db = progress.db
  nodeWindows : progress'.nodeWindows = progress.nodeWindows

theorem recordCounter_ok {counter : UsageCounter}
    (h : recordCounter platform nodeId generation request progress counter = .ok progress') :
    let label := Text.trim counter.label
    let bytes : Bytes := (counter.uplinkBytes, counter.downlinkBytes)
    (label ≠ "" → inRange bytes = true →
      label ∉ progress.labels ∧ progress'.labels = label :: progress.labels) ∧
    (¬(label ≠ "" ∧ inRange bytes = true) → progress'.labels = progress.labels) ∧
    (¬ counts label bytes → Idle progress progress') ∧
    (counts label bytes →
      match resolveTarget progress.db nodeId generation request label bytes with
      | none => Idle progress progress'
      | some (owner, accounting, _) =>
        let settled := settle (progress.db.heads.get? (nodeId, label)) generation label
          (request.reading generation.id bytes) accounting
        Accounted nodeId request owner settled.1 settled.2 progress.db progress'.db ∧
          Gathered nodeId owner (worth progress.db nodeId owner request.readAtUnixSecs settled.2)
            progress.nodeWindows progress'.nodeWindows) := by
  intro label bytes
  unfold recordCounter at h
  simp only at h
  split at h
  · rename_i hempty
    cases h
    refine ⟨fun hne => absurd hempty hne, fun _ => rfl, fun _ => ⟨rfl, rfl⟩, ?_⟩
    exact fun hcounts => absurd hempty hcounts.1
  · rename_i hlabel
    split at h
    · rename_i hrange
      cases h
      refine ⟨fun _ hin => ?_, fun _ => rfl, fun _ => ⟨rfl, rfl⟩, fun hcounts => ?_⟩
      · exact absurd (hin.symm.trans hrange) Bool.noConfusion
      · exact absurd (hcounts.2.1.symm.trans hrange) Bool.noConfusion
    · rename_i hrange
      rw [Bool.not_eq_false] at hrange
      split at h
      · cases h
      · rename_i hnew
        have hin : ¬¬(label ≠ "" ∧ inRange bytes = true) := fun hnot => hnot ⟨hlabel, hrange⟩
        split at h
        · rename_i hprobe
          cases h
          refine ⟨fun _ _ => ⟨hnew, rfl⟩, fun hnot => absurd hnot hin, fun _ => ⟨rfl, rfl⟩, ?_⟩
          exact fun hcounts => absurd (hcounts.2.2.symm.trans hprobe) Bool.noConfusion
        · rename_i hprobe
          rw [Bool.not_eq_true] at hprobe
          have hcounts : counts label bytes := ⟨hlabel, hrange, hprobe⟩
          split at h
          · rename_i hresolve
            have htarget : resolveTarget progress.db nodeId generation request label bytes = none := by
              unfold resolveTarget
              simp only
              rw [hresolve]
            rw [htarget]
            have hidle : progress'.labels = label :: progress.labels ∧ Idle progress progress' := by
              split at h
              · cases h
                exact ⟨rfl, rfl, rfl⟩
              · split at h <;> cases h <;> exact ⟨rfl, rfl, rfl⟩
            exact ⟨fun _ _ => ⟨hnew, hidle.1⟩, fun hnot => absurd hnot hin, fun _ => hidle.2,
              fun _ => hidle.2⟩
          · rename_i grant accounting metadata hresolve
            have htarget : resolveTarget progress.db nodeId generation request label bytes
                = some (.user grant, accounting, metadata) := by
              unfold resolveTarget
              simp only
              rw [hresolve]
            rw [htarget]
            obtain ⟨hlabels, haccounted⟩ := accountReading_ok (resolveOwner_label hresolve) h
            exact ⟨fun _ _ => ⟨hnew, hlabels⟩, fun hnot => absurd hnot hin,
              fun hnot => absurd hcounts hnot, fun _ => haccounted⟩
          · rename_i hop accounting metadata hresolve
            have htarget : resolveTarget progress.db nodeId generation request label bytes
                = (resolveChainOwnerNode progress.db hop accounting
                  (progress.db.heads.get? (nodeId, Text.trim counter.label))).map fun hop =>
                    (.chainHop hop, accounting, metadata) := by
              unfold resolveTarget
              simp only
              rw [hresolve]
            rw [htarget]
            split at h
            · rename_i hnode
              cases h
              rw [hnode]
              exact ⟨fun _ _ => ⟨hnew, rfl⟩, fun hnot => absurd hnot hin, fun _ => ⟨rfl, rfl⟩,
                fun _ => ⟨rfl, rfl⟩⟩
            · rename_i hop' hnode
              rw [hnode]
              have hlabel' : (CounterOwner.chainHop hop').label = label :=
                (resolveChainOwnerNode_label hnode).trans (resolveOwner_label hresolve)
              obtain ⟨hlabels, haccounted⟩ := accountReading_ok hlabel' h
              exact ⟨fun _ _ => ⟨hnew, hlabels⟩, fun hnot => absurd hnot hin,
                fun hnot => absurd hcounts hnot, fun _ => haccounted⟩

theorem recordCounter_books {counter : UsageCounter}
    (h : recordCounter platform nodeId generation request progress counter = .ok progress') :
    SameControl progress.db progress'.db ∧ ∃ owner bytes,
      Booked nodeId owner bytes progress.db progress'.db ∧
        Gathered nodeId owner bytes progress.nodeWindows progress'.nodeWindows := by
  obtain ⟨-, -, hidle, hcounts⟩ := recordCounter_ok h
  have hnothing : Idle progress progress' → SameControl progress.db progress'.db ∧
      ∃ owner bytes, Booked nodeId owner bytes progress.db progress'.db ∧
        Gathered nodeId owner bytes progress.nodeWindows progress'.nodeWindows := by
    rintro ⟨hdb, hwindows⟩
    rw [hdb, hwindows]
    exact ⟨⟨rfl, rfl, rfl, rfl, rfl⟩, .chainHop ⟨"", "", "", "", ""⟩, 0, .zero _ _ _, .zero _ _ _⟩
  by_cases hc : counts (Text.trim counter.label) (counter.uplinkBytes, counter.downlinkBytes)
  · have h := hcounts hc
    split at h
    · exact hnothing h
    · exact ⟨h.1.control, _, _, h.1.booked, h.2⟩
  · exact hnothing (hidle hc)

/-! ### One report -/

/-- The counters of a report in the order they are counted, from a fresh state. -/
def countAll (platform : Platform) (db : Db) (nodeId : String) (request : UsageReportRequest)
    (generation : UsageGeneration) : Except StoreError Progress :=
  (sortCounters request.counters).foldlM (recordCounter platform nodeId generation request)
    (.start db nodeId request)

/-- What a fresh report leaves: the counted state, its windows flushed and its receipt kept. -/
structure Recorded (platform : Platform) (nodeId : String) (request : UsageReportRequest)
    (progress : Progress) (result : UsageReportResult) (after : Db) : Prop where
  windows : persistNodeWindows request.readAtUnixSecs progress.nodeWindows.rows
    progress.db.nodeWindows = .ok after.nodeWindows
  generations : after.generations = progress.db.generations
  nodes : after.nodes = progress.db.nodes
  heads : after.heads = progress.db.heads
  samples : after.samples = progress.db.samples
  chainSamples : after.chainSamples = progress.db.chainSamples
  rollups : after.rollups = progress.db.rollups
  nodeRollups : after.nodeRollups = progress.db.nodeRollups
  receipts : ∃ receipt : Receipt, receipt.payloadSha256 = platform.payloadSha256 request ∧
    receipt.result = result ∧ after.receipts
      = progress.db.receipts.put (nodeId, request.agentInstanceId, request.sequence) receipt
  cursors : after.cursors
    = progress.db.cursors.put (nodeId, request.agentInstanceId) request.sequence

theorem recordFresh_ok
    (h : recordFresh platform db nodeId request generation = .ok (result, after)) :
    ∃ progress, countAll platform db nodeId request generation = .ok progress ∧
      Recorded platform nodeId request progress result after := by
  unfold recordFresh at h
  simp only [bind_eq_ok, pure_eq_ok, Prod.mk.injEq] at h
  obtain ⟨progress, hcount, nodeWindows, hwindows, rfl, rfl⟩ := h
  exact ⟨progress, hcount, hwindows, rfl, rfl, rfl, rfl, rfl, rfl, rfl, ⟨_, rfl, rfl, rfl⟩, rfl⟩

/-- A report is a duplicate of a committed one, or fresh and within a known generation. -/
theorem recordUsageReport_ok {serverNow : Int}
    (h : recordUsageReport platform serverNow db nodeId request = .ok (result, after)) :
    (∃ receipt, db.receipts.get? (nodeId, request.agentInstanceId, request.sequence) = some receipt ∧
      receipt.payloadSha256 = platform.payloadSha256 request ∧
      result = { receipt.result with duplicate := true } ∧ after = db) ∨
    (db.receipts.get? (nodeId, request.agentInstanceId, request.sequence) = none ∧
      ∃ generation, db.generations.get? (request.usageGenerationId, nodeId) = some generation ∧
        recordFresh platform db nodeId request generation = .ok (result, after)) := by
  unfold recordUsageReport at h
  rw [bind_eq_ok] at h
  obtain ⟨-, -, h⟩ := h
  rw [bind_eq_ok] at h
  obtain ⟨-, -, h⟩ := h
  have hgeneration : recordUsageReport.recordGeneration platform db nodeId request
      = .ok (result, after) →
      ∃ generation, db.generations.get? (request.usageGenerationId, nodeId) = some generation ∧
        recordFresh platform db nodeId request generation = .ok (result, after) := by
    intro h
    unfold recordUsageReport.recordGeneration at h
    split at h
    · cases h
    · exact ⟨_, ‹_›, h⟩
  split at h
  · rename_i receipt hreceipt
    split at h
    · cases h
    · rename_i hdigest
      rw [pure_eq_ok, Prod.mk.injEq] at h
      exact Or.inl ⟨receipt, hreceipt, not_not.mp hdigest, h.1.symm, h.2.symm⟩
  · rename_i hreceipt
    refine Or.inr ⟨hreceipt, ?_⟩
    split at h
    · split at h
      · cases h
      · exact hgeneration h
    · exact hgeneration h

theorem startedAt_le_readAt {serverNow : Int}
    (h : recordUsageReport platform serverNow db nodeId request = .ok (result, after)) :
    request.xrayStartedAtUnixSecs ≤ request.readAtUnixSecs := by
  unfold recordUsageReport at h
  rw [bind_eq_ok] at h
  obtain ⟨_, hcheck, -⟩ := h
  unfold checkRequest at hcheck
  split at hcheck
  · cases hcheck
  · split at hcheck
    · cases hcheck
    · omega

end Brocade.Usage
