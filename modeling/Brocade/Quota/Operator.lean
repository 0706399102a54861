/-
Quota enforcement never overrides the operator.

What an operator decided of a grant stands until an operator decides again: the worker gives
back only what it took itself and nobody has touched since, it takes only what is granted and
spent, and it says of nothing else that it took it (`worker_respects_operator`).

The worker's plan may be stale in any way.  What is carried along a run, and inside a round
along its items, is `Sound`: the last thing that happened to a suspended grant is that the
worker suspended it.
-/
import Brocade.Quota.Round

namespace Brocade.Quota


def LogEntry.key : LogEntry → QuotaGrantChange
  | .suspended key _ | .restored key _ | .operator key _ => key

/-- What happened last to a grant. -/
def lastAbout (log : List LogEntry) (key : QuotaGrantChange) : Option LogEntry :=
  log.find? fun entry => decide (entry.key = key)

/-- What an operator decided last of a grant. -/
def lastDecision : List LogEntry → QuotaGrantChange → Option Bool
  | [], _ => none
  | .operator key' enabled :: older, key =>
    if key' = key then some enabled else lastDecision older key
  | _ :: older, key => lastDecision older key

theorem lastAbout_cons (entry : LogEntry) (log : List LogEntry) (key : QuotaGrantChange) :
    lastAbout (entry :: log) key = if entry.key = key then some entry else lastAbout log key := by
  unfold lastAbout
  by_cases h : entry.key = key
  · rw [if_pos h, List.find?_cons_of_pos (by simpa using h)]
  · rw [if_neg h, List.find?_cons_of_neg (by simpa using h)]

/-- What holds of the tables and of what happened to them. -/
structure Sound (db : Db) (log : List LogEntry) : Prop where
  /-- a suspension is the last thing that happened to its grant -/
  suspended : ∀ key ∈ db.suspensions, lastAbout log key = some (.suspended key true)
  absent : ∀ key ∈ db.suspensions, key ∉ db.grants
  /-- what an operator disabled is neither granted nor suspended -/
  manual : ∀ key, lastDecision log key = some false → key ∉ db.grants ∧ key ∉ db.suspensions
  restored : ∀ newer key exceeded older, log = newer ++ .restored key exceeded :: older →
    exceeded = false ∧ lastAbout older key = some (.suspended key true)
  exceeded : ∀ key exceeded, .suspended key exceeded ∈ log → exceeded = true

variable {db db' : Db} {log : List LogEntry} {usage : CycleUsage} {enabled supported changed : Bool}
    {round round' : Round} {s s' : State} {event : Event}

theorem Sound.shrink (h : Sound db log) (hgrants : db'.grants ⊆ db.grants)
    (hsuspensions : db'.suspensions ⊆ db.suspensions) : Sound db' log where
  suspended key hkey := h.suspended key (hsuspensions hkey)
  absent key hkey hgrant := h.absent key (hsuspensions hkey) (hgrants hgrant)
  manual key hkey :=
    ⟨fun hgrant => (h.manual key hkey).1 (hgrants hgrant),
      fun hsuspension => (h.manual key hkey).2 (hsuspensions hsuspension)⟩
  restored := h.restored
  exceeded := h.exceeded

theorem restored_cons {entry : LogEntry} {P : QuotaGrantChange → Bool → List LogEntry → Prop}
    (hentry : ∀ key exceeded, entry = .restored key exceeded → P key exceeded log)
    (h : ∀ newer key exceeded older, log = newer ++ .restored key exceeded :: older →
      P key exceeded older) :
    ∀ newer key exceeded older, entry :: log = newer ++ .restored key exceeded :: older →
      P key exceeded older := by
  intro newer key exceeded older hsplit
  cases newer with
  | nil =>
    obtain ⟨heq, rfl⟩ := List.cons.inj hsplit
    exact hentry key exceeded heq
  | cons e newer => exact h newer key exceeded older (List.cons.inj hsplit).2

/-! ### What a change of a grant does -/

theorem upsertGrantTx_worker {key : QuotaGrantChange}
    (h : upsertGrantTx db usage quotaActor key enabled supported = .ok (db', changed)) :
    db'.suspensions = db.suspensions
      ∧ db'.grants = (if enabled then insert key db.grants else db.grants.erase key)
      ∧ (changed = true ↔ if enabled then key ∉ db.grants else key ∈ db.grants) := by
  unfold upsertGrantTx at h
  split at h
  · exact absurd h nofun
  split at h
  · exact absurd h nofun
  split at h
  · exact absurd h nofun
  have hprepare : prepareOperatorGrantTx db usage quotaActor key enabled supported = .ok db :=
    if_pos rfl
  rw [hprepare] at h
  dsimp only at h
  cases enabled with
  | true =>
    obtain ⟨rfl, rfl⟩ := Prod.mk.inj (Except.ok.inj h)
    simp
  | false =>
    obtain ⟨rfl, rfl⟩ := Prod.mk.inj (Except.ok.inj h)
    simp

theorem upsertGrantTx_operator {operator : Operator} {key : QuotaGrantChange}
    (h : upsertGrantTx db usage operator.actor key enabled supported = .ok (db', changed)) :
    db'.suspensions = db.suspensions.erase key
      ∧ db'.grants = if enabled then insert key db.grants else db.grants.erase key := by
  unfold upsertGrantTx at h
  split at h
  · exact absurd h nofun
  split at h
  · exact absurd h nofun
  split at h
  · exact absurd h nofun
  unfold prepareOperatorGrantTx at h
  rw [if_neg operator.notWorker] at h
  split at h
  · exact absurd h nofun
  rename_i prepared hprepare
  split at hprepare
  · exact absurd hprepare nofun
  split at hprepare
  · exact absurd hprepare nofun
  obtain rfl := Except.ok.inj hprepare
  cases enabled with
  | true =>
    obtain ⟨rfl, -⟩ := Prod.mk.inj (Except.ok.inj h)
    exact ⟨rfl, rfl⟩
  | false =>
    obtain ⟨rfl, -⟩ := Prod.mk.inj (Except.ok.inj h)
    exact ⟨rfl, rfl⟩

/-! ### What an item of a plan does -/

/-- What one item comes to: nothing, a suspension cleared, a grant taken, or one given back. -/
inductive Applied (usage : CycleUsage) (round round' : Round) : Prop
  | nothing : round'.db.grants = round.db.grants →
      round'.db.suspensions ⊆ round.db.suspensions → round'.log = round.log →
      Applied usage round round'
  | suspended (key : QuotaGrantChange) : quotaExceeded usage key = true → key ∈ round.db.grants →
      round'.db.grants = round.db.grants.erase key →
      round'.db.suspensions = insert key round.db.suspensions →
      round'.log = .suspended key true :: round.log → Applied usage round round'
  | restored (key : QuotaGrantChange) : quotaExceeded usage key = false →
      key ∈ round.db.suspensions → key ∉ round.db.grants →
      round'.db.grants = insert key round.db.grants →
      round'.db.suspensions = round.db.suspensions.erase key →
      round'.log = .restored key false :: round.log → Applied usage round round'

theorem suspendItem_applied {key : QuotaGrantChange}
    (h : suspendItem usage round key = .ok round') : Applied usage round round' := by
  unfold suspendItem at h
  dsimp only at h
  split at h
  · obtain rfl := Except.ok.inj h
    exact .nothing rfl subset_rfl rfl
  rename_i hexceeded
  have hexceeded : quotaExceeded usage key = true := by simpa using hexceeded
  split at h
  · exact absurd h nofun
  · rename_i db hupsert
    obtain ⟨hsuspensions, hgrants, hchanged⟩ := upsertGrantTx_worker hupsert
    obtain rfl := Except.ok.inj h
    have habsent : key ∉ round.db.grants := by simpa using hchanged
    refine .nothing ?_ hsuspensions.subset rfl
    rw [if_neg Bool.false_ne_true, Finset.erase_eq_of_notMem habsent] at hgrants
    exact hgrants
  · rename_i db hupsert
    obtain ⟨hsuspensions, hgrants, hchanged⟩ := upsertGrantTx_worker hupsert
    obtain rfl := Except.ok.inj h
    have hpresent : key ∈ round.db.grants := by simpa using hchanged
    refine .suspended key hexceeded hpresent hgrants ?_ ?_
    · exact congrArg (insert key) hsuspensions
    · rw [hexceeded]

theorem restoreItem_applied {key : QuotaGrantChange}
    (h : restoreItem usage round key = .ok round') : Applied usage round round' := by
  unfold restoreItem at h
  dsimp only at h
  split at h
  · obtain rfl := Except.ok.inj h
    exact .nothing rfl subset_rfl rfl
  rename_i hexceeded
  have hexceeded : quotaExceeded usage key = false := by simpa using hexceeded
  split at h
  · obtain rfl := Except.ok.inj h
    exact .nothing rfl (Finset.erase_subset _ _) rfl
  split at h
  · obtain rfl := Except.ok.inj h
    exact .nothing rfl subset_rfl rfl
  rename_i hsuspended
  split at h
  · exact absurd h nofun
  · rename_i db hupsert
    obtain ⟨hsuspensions, hgrants, hchanged⟩ := upsertGrantTx_worker hupsert
    obtain rfl := Except.ok.inj h
    have hpresent : key ∈ round.db.grants := by simpa [clearSuspension] using hchanged
    refine .nothing ?_ (hsuspensions.subset.trans (Finset.erase_subset _ _)) rfl
    rw [if_pos rfl] at hgrants
    exact hgrants.trans (Finset.insert_eq_of_mem hpresent)
  · rename_i db hupsert
    obtain ⟨hsuspensions, hgrants, hchanged⟩ := upsertGrantTx_worker hupsert
    obtain rfl := Except.ok.inj h
    have habsent : key ∉ round.db.grants := by simpa [clearSuspension] using hchanged
    refine .restored key hexceeded (not_not.mp hsuspended) habsent hgrants hsuspensions ?_
    rw [hexceeded]

theorem applyNext_applied (h : applyNext usage round = .ok round') :
    Applied usage round round' := by
  unfold applyNext at h
  split at h
  · cases suspendItem_applied h with
    | nothing hg hs hl => exact .nothing hg hs hl
    | suspended key he hk hg hs hl => exact .suspended key he hk hg hs hl
    | restored key he hk hn hg hs hl => exact .restored key he hk hn hg hs hl
  · cases restoreItem_applied h with
    | nothing hg hs hl => exact .nothing hg hs hl
    | suspended key he hk hg hs hl => exact .suspended key he hk hg hs hl
    | restored key he hk hn hg hs hl => exact .restored key he hk hn hg hs hl
  · obtain rfl := Except.ok.inj h
    exact .nothing rfl subset_rfl rfl

/-- **An item of a plan, however stale, keeps the tables sound.** -/
theorem Sound.applied {older : List LogEntry} (h : Sound round.db (round.log ++ older))
    (ha : Applied usage round round') : Sound round'.db (round'.log ++ older) := by
  cases ha with
  | nothing hgrants hsuspensions hlog =>
    rw [hlog]
    exact h.shrink hgrants.subset hsuspensions
  | suspended key _ hpresent hgrants hsuspensions hlog =>
    rw [hlog, List.cons_append]
    refine ⟨fun k hk => ?_, fun k hk => ?_, fun k hk => ?_, restored_cons nofun h.restored,
      fun k exceeded hk => ?_⟩
    · rw [hsuspensions] at hk
      rw [lastAbout_cons]
      by_cases hkey : key = k
      · subst hkey
        exact if_pos rfl
      · have hother : LogEntry.key (.suspended key true) ≠ k := hkey
        rw [if_neg hother]
        exact h.suspended k (Finset.mem_of_mem_insert_of_ne hk fun heq => hkey heq.symm)
    · rw [hsuspensions] at hk
      rw [hgrants]
      rcases Finset.mem_insert.mp hk with rfl | hk
      · exact Finset.notMem_erase _ _
      · exact fun hgrant => h.absent k hk (Finset.mem_of_mem_erase hgrant)
    · obtain ⟨hgrant, hsuspension⟩ := h.manual k hk
      rw [hgrants, hsuspensions]
      refine ⟨fun hmem => hgrant (Finset.mem_of_mem_erase hmem), fun hmem => ?_⟩
      rcases Finset.mem_insert.mp hmem with rfl | hmem
      · exact hgrant hpresent
      · exact hsuspension hmem
    · rcases List.mem_cons.mp hk with heq | hk
      · exact (LogEntry.suspended.inj heq).2
      · exact h.exceeded k exceeded hk
  | restored key _ hsuspended habsent hgrants hsuspensions hlog =>
    rw [hlog, List.cons_append]
    refine ⟨fun k hk => ?_, fun k hk => ?_, fun k hk => ?_, restored_cons ?_ h.restored,
      fun k exceeded hk => ?_⟩
    · rw [hsuspensions] at hk
      obtain ⟨hne, hk⟩ := Finset.mem_erase.mp hk
      rw [lastAbout_cons]
      have hkey : LogEntry.key (.restored key false) ≠ k := fun heq => hne heq.symm
      rw [if_neg hkey]
      exact h.suspended k hk
    · rw [hsuspensions] at hk
      obtain ⟨hne, hk⟩ := Finset.mem_erase.mp hk
      rw [hgrants]
      exact fun hgrant => h.absent k hk (Finset.mem_of_mem_insert_of_ne hgrant hne)
    · obtain ⟨hgrant, hsuspension⟩ := h.manual k hk
      rw [hgrants, hsuspensions]
      refine ⟨fun hmem => ?_, fun hmem => hsuspension (Finset.mem_of_mem_erase hmem)⟩
      rcases Finset.mem_insert.mp hmem with rfl | hmem
      · exact hsuspension hsuspended
      · exact hgrant hmem
    · intro k exceeded heq
      obtain ⟨rfl, rfl⟩ := LogEntry.restored.inj heq
      exact ⟨rfl, h.suspended key hsuspended⟩
    · rcases List.mem_cons.mp hk with heq | hk
      · exact absurd heq nofun
      · exact h.exceeded k exceeded hk

/-- **An operator's decision keeps the tables sound**, and clears the worker's note. -/
theorem Sound.operated {operator : Operator} {key : QuotaGrantChange} (h : Sound db log)
    (hupsert : upsertGrantTx db usage operator.actor key enabled supported = .ok (db', changed)) :
    Sound db' (.operator key enabled :: log) := by
  obtain ⟨hsuspensions, hgrants⟩ := upsertGrantTx_operator hupsert
  have hgrant : ∀ k, k ≠ key → k ∈ db'.grants → k ∈ db.grants := by
    intro k hne hk
    rw [hgrants] at hk
    split at hk
    · exact Finset.mem_of_mem_insert_of_ne hk hne
    · exact Finset.mem_of_mem_erase hk
  refine ⟨fun k hk => ?_, fun k hk => ?_, fun k hk => ?_, restored_cons nofun h.restored,
    fun k exceeded hk => ?_⟩
  · rw [hsuspensions] at hk
    obtain ⟨hne, hk⟩ := Finset.mem_erase.mp hk
    rw [lastAbout_cons]
    have hkey : LogEntry.key (.operator key enabled) ≠ k := fun heq => hne heq.symm
    rw [if_neg hkey]
    exact h.suspended k hk
  · rw [hsuspensions] at hk
    obtain ⟨hne, hk⟩ := Finset.mem_erase.mp hk
    exact fun hmem => h.absent k hk (hgrant k hne hmem)
  · have hk : (if key = k then some enabled else lastDecision log k) = some false := hk
    by_cases hkey : key = k
    · subst hkey
      rw [if_pos rfl, Option.some.injEq] at hk
      subst hk
      rw [hgrants, hsuspensions]
      exact ⟨Finset.notMem_erase _ _, Finset.notMem_erase _ _⟩
    · rw [if_neg hkey] at hk
      obtain ⟨habsent, hcleared⟩ := h.manual k hk
      refine ⟨fun hmem => habsent (hgrant k (fun heq => hkey heq.symm) hmem), fun hmem => ?_⟩
      rw [hsuspensions] at hmem
      exact hcleared (Finset.mem_of_mem_erase hmem)
  · rcases List.mem_cons.mp hk with heq | hk
    · exact absurd heq nofun
    · exact h.exceeded k exceeded hk

/-! ### Runs -/

/-- What holds of a round's transaction, against the tables it will replace. -/
structure RoundOk (s : State) (round : Round) : Prop where
  sound : Sound round.db (round.log ++ s.log)
  /-- a new suspension is of a grant that was there -/
  owned : ∀ key ∈ round.db.suspensions, key ∉ s.db.suspensions → key ∈ s.db.grants
  enabled : ∀ key ∈ round.db.grants, key ∉ s.db.grants →
    key ∈ s.db.suspensions ∧ lastAbout round.log key = some (.restored key false)
  disabled : ∀ key ∈ s.db.grants, key ∉ round.db.grants →
    lastAbout round.log key = some (.suspended key true)

/-- What holds at any time. -/
structure Inv (s : State) : Prop where
  sound : Sound s.db s.log
  round : ∀ round, s.round = some round → RoundOk s round

theorem RoundOk.applied (h : RoundOk s round) (ha : Applied usage round round') :
    RoundOk s round' := by
  refine ⟨h.sound.applied ha, fun key hkey hnew => ?_, fun key hkey hnew => ?_,
    fun key hkey hgone => ?_⟩
  · cases ha with
    | nothing _ hsuspensions _ => exact h.owned key (hsuspensions hkey) hnew
    | suspended k _ hpresent _ hsuspensions _ =>
      rw [hsuspensions] at hkey
      rcases Finset.mem_insert.mp hkey with rfl | hkey
      · by_contra habsent
        exact hnew (h.enabled key hpresent habsent).1
      · exact h.owned key hkey hnew
    | restored k _ _ _ _ hsuspensions _ =>
      rw [hsuspensions] at hkey
      exact h.owned key (Finset.mem_of_mem_erase hkey) hnew
  · cases ha with
    | nothing hgrants _ hlog =>
      rw [hgrants] at hkey
      rw [hlog]
      exact h.enabled key hkey hnew
    | suspended k _ _ hgrants _ hlog =>
      rw [hgrants] at hkey
      obtain ⟨hne, hkey⟩ := Finset.mem_erase.mp hkey
      have hother : LogEntry.key (.suspended k true) ≠ key := fun heq => hne heq.symm
      rw [hlog, lastAbout_cons, if_neg hother]
      exact h.enabled key hkey hnew
    | restored k _ hsuspended _ hgrants _ hlog =>
      rw [hgrants] at hkey
      rw [hlog, lastAbout_cons]
      by_cases hsame : k = key
      · subst hsame
        refine ⟨?_, if_pos rfl⟩
        by_contra hfresh
        exact hnew (h.owned k hsuspended hfresh)
      · have hother : LogEntry.key (.restored k false) ≠ key := hsame
        rw [if_neg hother]
        exact h.enabled key (Finset.mem_of_mem_insert_of_ne hkey fun heq => hsame heq.symm) hnew
  · cases ha with
    | nothing hgrants _ hlog =>
      rw [hgrants] at hgone
      rw [hlog]
      exact h.disabled key hkey hgone
    | suspended k _ _ hgrants _ hlog =>
      rw [hgrants] at hgone
      rw [hlog, lastAbout_cons]
      by_cases hsame : k = key
      · subst hsame
        exact if_pos rfl
      · have hother : LogEntry.key (.suspended k true) ≠ key := hsame
        rw [if_neg hother]
        exact h.disabled key hkey fun hmem =>
          hgone (Finset.mem_erase.mpr ⟨fun heq => hsame heq.symm, hmem⟩)
    | restored k _ _ _ hgrants _ hlog =>
      rw [hgrants] at hgone
      have hne : k ≠ key := by
        rintro rfl
        exact hgone (Finset.mem_insert_self _ _)
      have hother : LogEntry.key (.restored k false) ≠ key := hne
      rw [hlog, lastAbout_cons, if_neg hother]
      exact h.disabled key hkey fun hmem => hgone (Finset.mem_insert_of_mem hmem)

theorem RoundOk.of_eq (h : RoundOk s round) (hdb : s'.db = s.db) (hlog : s'.log = s.log) :
    RoundOk s' round := by
  obtain ⟨hsound, howned, henabled, hdisabled⟩ := h
  exact ⟨hlog ▸ hsound, hdb ▸ howned, hdb ▸ henabled, hdb ▸ hdisabled⟩

theorem Inv.locked {change : State → State} (h : Inv s)
    (hchange : s.round = none → Inv (change s)) : Inv (locked s change) := by
  unfold Quota.locked
  cases hround : s.round with
  | none => exact hchange hround
  | some _ => exact h

theorem Inv.shrink (h : Inv s) (hlog : s'.log = s.log) (hround : s'.round = none)
    (hgrants : s'.db.grants ⊆ s.db.grants) (hsuspensions : s'.db.suspensions ⊆ s.db.suspensions) :
    Inv s' where
  sound := hlog ▸ h.sound.shrink hgrants hsuspensions
  round _ hsome := absurd (hround.symm.trans hsome) nofun

theorem Inv.takeLock (h : Inv s) (i j : ℕ) : Inv (takeLock i j s) := by
  unfold Quota.takeLock
  split
  · refine ⟨h.sound, fun round hsome => ?_⟩
    obtain rfl := Option.some.inj hsome
    exact ⟨h.sound, fun key hkey hnew => absurd hkey hnew, fun key hkey hnew => absurd hkey hnew,
      fun key hkey hgone => absurd hkey hgone⟩
  · exact h

theorem Inv.work (h : Inv s) : Inv (work s) := by
  unfold Quota.work
  split
  · exact h
  rename_i round hround
  split
  · rename_i round' happly
    refine ⟨h.sound, fun round'' hsome => ?_⟩
    obtain rfl := Option.some.inj hsome
    exact ((h.round round hround).applied (applyNext_applied happly)).of_eq rfl rfl
  · exact h.shrink rfl rfl subset_rfl subset_rfl

theorem Inv.commit (h : Inv s) : Inv (commit s) := by
  unfold Quota.commit
  split
  · exact h
  rename_i round hround
  split
  · exact ⟨(h.round round hround).sound.shrink subset_rfl subset_rfl,
      fun _ hsome => absurd hsome nofun⟩
  · exact h

theorem Inv.operate (h : Inv s) (hround : s.round = none) (operator : Operator)
    (key : QuotaGrantChange) (enabled supported : Bool) :
    Inv (operate operator key enabled supported s) := by
  unfold Quota.operate
  split
  · exact h
  · rename_i db changed hupsert
    exact ⟨(h.sound.operated hupsert).shrink subset_rfl subset_rfl,
      fun _ hsome => absurd (hround.symm.trans hsome) nofun⟩

theorem Inv.step (h : Inv s) (event : Event) : Inv (step s event) := by
  cases event with
  | planSuspend => exact ⟨h.sound, fun round hround => (h.round round hround).of_eq rfl rfl⟩
  | planRestore => exact ⟨h.sound, fun round hround => (h.round round hround).of_eq rfl rfl⟩
  | usage usage => exact ⟨h.sound, fun round hround => (h.round round hround).of_eq rfl rfl⟩
  | rollback => exact h.shrink rfl rfl subset_rfl subset_rfl
  | lock i j => exact h.locked fun _ => h.takeLock i j
  | applyNext => exact h.work
  | commit => exact h.commit
  | operator operator key enabled supported =>
    exact h.locked fun hround => h.operate hround operator key enabled supported
  | createUser tenantId userId =>
    exact h.locked fun hround => h.shrink rfl hround subset_rfl subset_rfl
  | deleteUser tenantId userId =>
    refine h.locked fun hround => ?_
    unfold deleteUser
    split
    · exact h
    · exact h.shrink rfl hround subset_rfl (Finset.filter_subset _ _)
  | createIngress appId ingressId =>
    exact h.locked fun hround => h.shrink rfl hround subset_rfl subset_rfl
  | deleteIngress appId ingressId =>
    exact h.locked fun hround => h.shrink rfl hround (Finset.filter_subset _ _) subset_rfl

theorem Inv.run (h : Inv s) (events : List Event) : Inv (run s events) := by
  induction events generalizing s with
  | nil => exact h
  | cons event events ih => exact ih (h.step event)

theorem Inv.start (db : Db) (usage : CycleUsage) : Inv (start db usage) where
  sound := {
    suspended := fun key hkey => absurd hkey (Finset.notMem_empty key)
    absent := fun key hkey => absurd hkey (Finset.notMem_empty key)
    manual := fun _ hdecision => absurd hdecision nofun
    restored := fun newer _ _ _ hsplit => absurd hsplit (by cases newer <;> exact nofun)
    exceeded := fun _ _ hmem => absurd hmem List.not_mem_nil }
  round _ hsome := absurd hsome nofun

/-! ### What one step may do -/

/-- What a step may do to grants and suspensions, and what it says of it. -/
structure Respects (s : State) (event : Event) (s' : State) : Prop where
  /-- only a round that takes the grant away notes a suspension -/
  suspension : ∀ key ∈ s'.db.suspensions, key ∉ s.db.suspensions →
    event = .commit ∧ key ∈ s.db.grants ∧ key ∉ s'.db.grants
  /-- a grant is given by an operator, or by a round to whom it was suspended -/
  enabled : ∀ key ∈ s'.db.grants, key ∉ s.db.grants →
    (∃ operator supported, event = .operator operator key true supported)
      ∨ event = .commit ∧ key ∈ s.db.suspensions ∧ lastAbout s'.log key = some (.restored key false)
  /-- and taken by an operator, with its ingress, or by a round -/
  disabled : ∀ key ∈ s.db.grants, key ∉ s'.db.grants →
    (∃ operator supported, event = .operator operator key false supported)
      ∨ (∃ appId ingressId, event = .deleteIngress appId ingressId)
      ∨ event = .commit ∧ lastAbout s'.log key = some (.suspended key true)
  /-- a round begins with the tables as they are and nothing done -/
  begins : ∀ round, s.round = none → s'.round = some round → round.log = [] ∧ round.db = s.db
  /-- in a round, a change goes by the usage at that moment -/
  reads : ∀ round round', s.round = some round → s'.round = some round' → round'.log = round.log
    ∨ ∃ key, quotaExceeded s.usage key = true ∧ round'.log = .suspended key true :: round.log
      ∨ quotaExceeded s.usage key = false ∧ round'.log = .restored key false :: round.log
  /-- the log is what operators and rounds did -/
  logged : s'.log = s.log
    ∨ (∃ operator key enabled supported, event = .operator operator key enabled supported
        ∧ s'.log = .operator key enabled :: s.log)
    ∨ ∃ round, event = .commit ∧ s.round = some round ∧ s'.log = round.log ++ s.log

theorem lastAbout_append {newer older : List LogEntry} {key : QuotaGrantChange} {entry : LogEntry}
    (h : lastAbout newer key = some entry) : lastAbout (newer ++ older) key = some entry := by
  unfold lastAbout at h ⊢
  rw [List.find?_append, h]
  rfl

theorem Respects.quiet (hgrants : s'.db.grants = s.db.grants)
    (hsuspensions : s'.db.suspensions ⊆ s.db.suspensions) (hlog : s'.log = s.log)
    (hbegins : ∀ round, s.round = none → s'.round = some round → round.log = [] ∧ round.db = s.db)
    (hreads : ∀ round round', s.round = some round → s'.round = some round' → round'.log = round.log
        ∨ ∃ key, quotaExceeded s.usage key = true ∧ round'.log = .suspended key true :: round.log
          ∨ quotaExceeded s.usage key = false ∧ round'.log = .restored key false :: round.log) :
    Respects s event s' where
  suspension _ hkey hnew := absurd (hsuspensions hkey) hnew
  enabled _ hkey hnew := absurd (hgrants ▸ hkey) hnew
  disabled _ hkey hgone := absurd (hgrants.symm ▸ hkey) hgone
  begins := hbegins
  reads := hreads
  logged := .inl hlog

theorem Respects.refl (s : State) (event : Event) : Respects s event s :=
  .quiet rfl subset_rfl rfl (fun _ hnone hsome => absurd (hnone.symm.trans hsome) nofun)
    fun _ _ hround hround' =>
      .inl (congrArg Round.log (Option.some.inj (hround'.symm.trans hround)))

theorem Respects.still (hgrants : s'.db.grants = s.db.grants)
    (hsuspensions : s'.db.suspensions ⊆ s.db.suspensions) (hlog : s'.log = s.log)
    (hround : s'.round = s.round) : Respects s event s' :=
  .quiet hgrants hsuspensions hlog
    (fun _ hnone hsome => absurd (hnone.symm.trans (hround.symm.trans hsome)) nofun)
    fun _ _ hround' hround'' => .inl
      (congrArg Round.log (Option.some.inj (hround''.symm.trans (hround.trans hround'))))

theorem Respects.locked {change : State → State}
    (h : s.round = none → Respects s event (change s)) : Respects s event (locked s change) := by
  unfold Quota.locked
  cases hround : s.round with
  | none => exact h hround
  | some _ => exact .refl s event

theorem work_respects (s : State) (event : Event) : Respects s event (work s) := by
  unfold work
  split
  · exact .refl s event
  rename_i round hround
  split
  · rename_i round' happly
    refine .quiet rfl subset_rfl rfl (fun _ hnone _ => absurd (hnone.symm.trans hround) nofun) ?_
    intro r r' hr hr'
    obtain rfl : round = r := Option.some.inj (hround.symm.trans hr)
    obtain rfl : round' = r' := Option.some.inj hr'
    cases applyNext_applied happly with
    | nothing _ _ hlog => exact .inl hlog
    | suspended key hexceeded _ _ _ hlog => exact .inr ⟨key, .inl ⟨hexceeded, hlog⟩⟩
    | restored key hexceeded _ _ _ _ hlog => exact .inr ⟨key, .inr ⟨hexceeded, hlog⟩⟩
  · exact .quiet rfl subset_rfl rfl (fun _ _ hsome => absurd hsome nofun)
      fun _ _ _ hsome => absurd hsome nofun

theorem Inv.commit_respects (h : Inv s) : Respects s .commit (Quota.commit s) := by
  unfold Quota.commit
  split
  · exact .refl s .commit
  rename_i round hround
  split
  · have hok := h.round round hround
    refine ⟨fun key hkey hnew => ⟨rfl, hok.owned key hkey hnew, hok.sound.absent key hkey⟩,
      fun key hkey hnew => .inr ⟨rfl, (hok.enabled key hkey hnew).1,
        lastAbout_append (hok.enabled key hkey hnew).2⟩,
      fun key hkey hgone => .inr (.inr ⟨rfl, lastAbout_append (hok.disabled key hkey hgone)⟩),
      fun _ _ hsome => absurd hsome nofun, fun _ _ _ hsome => absurd hsome nofun,
      .inr (.inr ⟨round, rfl, hround, rfl⟩)⟩
  · exact .refl s .commit

theorem operate_respects (hround : s.round = none) (operator : Operator) (key : QuotaGrantChange)
    (enabled supported : Bool) : Respects s (.operator operator key enabled supported)
      (operate operator key enabled supported s) := by
  unfold operate
  split
  · exact .refl s _
  rename_i db changed hupsert
  obtain ⟨hsuspensions, hgrants⟩ := upsertGrantTx_operator hupsert
  have hnoRound : ∀ round, s.round ≠ some round := fun round hsome =>
    absurd (hround.symm.trans hsome) nofun
  refine ⟨fun k hk hnew => ?_, fun k hk hnew => ?_, fun k hk hgone => ?_,
    fun round _ hsome => absurd hsome (hnoRound round),
    fun round _ hsome _ => absurd hsome (hnoRound round),
    .inr (.inl ⟨operator, key, enabled, supported, rfl, rfl⟩)⟩
  · have hk : k ∈ db.suspensions := hk
    rw [hsuspensions] at hk
    exact absurd (Finset.mem_of_mem_erase hk) hnew
  · have hk : k ∈ db.grants := hk
    rw [hgrants] at hk
    split at hk
    · rename_i henabled
      rcases Finset.mem_insert.mp hk with rfl | hk
      · exact .inl ⟨operator, supported, by rw [henabled]⟩
      · exact absurd hk hnew
    · exact absurd (Finset.mem_of_mem_erase hk) hnew
  · have hgone : k ∉ db.grants := hgone
    rw [hgrants] at hgone
    split at hgone
    · exact absurd (Finset.mem_insert_of_mem hk) hgone
    · rename_i henabled
      have hsame : k = key := by
        by_contra hne
        exact hgone (Finset.mem_erase.mpr ⟨hne, hk⟩)
      subst hsame
      rw [Bool.not_eq_true] at henabled
      exact .inl ⟨operator, supported, by rw [henabled]⟩

theorem Inv.respects (h : Inv s) (event : Event) : Respects s event (Quota.step s event) := by
  cases event with
  | planSuspend => exact .still rfl subset_rfl rfl rfl
  | planRestore => exact .still rfl subset_rfl rfl rfl
  | usage usage => exact .still rfl subset_rfl rfl rfl
  | rollback =>
    exact .quiet rfl subset_rfl rfl (fun _ _ hsome => absurd hsome nofun)
      fun _ _ _ hsome => absurd hsome nofun
  | lock i j =>
    refine .locked fun hround => ?_
    unfold Quota.takeLock
    split
    · refine .quiet rfl subset_rfl rfl (fun round _ hsome => ?_)
        fun _ _ hsome _ => absurd (hround.symm.trans hsome) nofun
      obtain rfl := Option.some.inj hsome
      exact ⟨rfl, rfl⟩
    · exact .refl s _
  | applyNext => exact work_respects s _
  | commit => exact h.commit_respects
  | operator operator key enabled supported =>
    exact .locked fun hround => operate_respects hround operator key enabled supported
  | createUser tenantId userId => exact .locked fun _ => .still rfl subset_rfl rfl rfl
  | deleteUser tenantId userId =>
    refine .locked fun _ => ?_
    unfold deleteUser
    split
    · exact .refl s _
    · exact .still rfl (Finset.filter_subset _ _) rfl rfl
  | createIngress appId ingressId => exact .locked fun _ => .still rfl subset_rfl rfl rfl
  | deleteIngress appId ingressId =>
    refine .locked fun hround => ⟨fun key hkey hnew => absurd hkey hnew, fun key hkey hnew => ?_,
      fun key hkey hgone => .inr (.inl ⟨appId, ingressId, rfl⟩), fun round _ hsome => ?_,
      fun round _ hsome _ => ?_, .inl rfl⟩
    · exact absurd ((Finset.filter_subset _ _) hkey) hnew
    · exact absurd (hround.symm.trans hsome) nofun
    · exact absurd (hround.symm.trans hsome) nofun

/-- **Quota enforcement never overrides the operator.**  In every run: whatever the worker gave
back it had taken itself, with no decision of an operator in between, and at a usage below the
quota; whatever it took was spent; what an operator disabled is not granted until an operator
enables it; and no step gives, takes or notes anything else. -/
theorem worker_respects_operator (db : Db) (usage : CycleUsage) (events : List Event) :
    let s := run (start db usage) events
    (∀ newer key exceeded older, s.log = newer ++ .restored key exceeded :: older →
        exceeded = false ∧ lastAbout older key = some (.suspended key true))
      ∧ (∀ key exceeded, .suspended key exceeded ∈ s.log → exceeded = true)
      ∧ (∀ key, lastDecision s.log key = some false → key ∉ s.db.grants)
      ∧ ∀ event, Respects s event (step s event) := by
  intro s
  have h : Inv s := (Inv.start db usage).run events
  exact ⟨h.sound.restored, h.sound.exceeded, fun key hkey => (h.sound.manual key hkey).1,
    fun event => h.respects event⟩

/-! ### A quota that is spent and reset -/

def aliceGrant : QuotaGrantChange := toLex ("acme", toLex ("alice", toLex ("app", "in")))

def aliceUsage (used : ℕ) : CycleUsage where
  quotas _ := some ⟨100, true⟩
  used _ := used

def aliceDb : Db := ⟨{("acme", "alice")}, {("app", "in")}, {aliceGrant}, ∅, 0⟩

def bob : Operator := ⟨⟨"bob", true, none⟩, by decide⟩

/-- The grant is suspended, and is to come back after a reset when an operator disables it. -/
def disabledEvents : List Event :=
  [.planSuspend, .planRestore, .lock 0 0, .applyNext, .commit, .usage (aliceUsage 0), .planSuspend,
    .planRestore, .operator bob aliceGrant false true, .lock 0 0, .applyNext, .commit]

/-- The operator enables it, it is suspended again, and the next reset gives it back. -/
def enabledEvents : List Event :=
  [.operator bob aliceGrant true true, .usage (aliceUsage 120), .planSuspend, .planRestore,
    .lock 0 0, .applyNext, .commit, .usage (aliceUsage 0), .planSuspend, .planRestore, .lock 0 0,
    .applyNext, .commit]

def aliceLog : List LogEntry :=
  [.suspended aliceGrant true, .operator aliceGrant true, .operator aliceGrant false,
    .suspended aliceGrant true]

theorem worker_respects_operator_alice :
    aliceGrant ∉ (run (start aliceDb (aliceUsage 120)) disabledEvents).db.grants
      ∧ (run (start aliceDb (aliceUsage 120)) (disabledEvents ++ enabledEvents)).log
        = .restored aliceGrant false :: aliceLog
      ∧ lastAbout aliceLog aliceGrant = some (.suspended aliceGrant true) := by
  have hdisabled : lastDecision (run (start aliceDb (aliceUsage 120)) disabledEvents).log aliceGrant
      = some false := by decide +kernel
  have hlog : (run (start aliceDb (aliceUsage 120)) (disabledEvents ++ enabledEvents)).log
      = .restored aliceGrant false :: aliceLog := by decide +kernel
  exact ⟨(worker_respects_operator aliceDb (aliceUsage 120) disabledEvents).2.2.1 _ hdisabled, hlog,
    ((worker_respects_operator aliceDb (aliceUsage 120) (disabledEvents ++ enabledEvents)).1 []
      aliceGrant false aliceLog hlog).2⟩

end Brocade.Quota
