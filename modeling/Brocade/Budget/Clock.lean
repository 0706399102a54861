/-
The row of a scope is a pacing clock.

A receipt is inserted only once the clock has come to its instant, and moves it on by what its
bytes take at the rate, whichever machine asks and however the second is shared (`Reserved`).
No edit that leaves a limit in force touches the clock.  So in every run that keeps a limit the
receipts are paced, and every answer with bytes has a receipt behind it (`ServerOk`).
-/
import Brocade.Budget.System

namespace Brocade.Budget

open Pacing (Move Paced)

variable {scope : Scope} {rate : ℕ}

/-! ### What a call does to a scope's row -/

/-- What a call that holds the row comes to. -/
inductive Reserved (bucket : Bucket) (rate : ℕ) (node requestId : String) (now : ℚ) :
    Reservation → Prop
  /-- nothing is inserted; an answer with bytes repeats a receipt -/
  | kept {bucket' : Bucket} {grant : UserBudgetGrant} (hnext : bucket'.nextAt = bucket.nextAt)
      (hreceipts : ∀ key receipt, bucket'.receipts.get? key = some receipt →
        bucket.receipts.get? key = some receipt)
      (hlimited : ∀ bytes rateBps validMs, grant = .limited bytes rateBps validMs →
        ∃ receipt, bucket.receipts.get? (node, requestId) = some receipt ∧ receipt.bytes = bytes)
      (hunlimited : ∀ validMs managed, grant ≠ .unlimited validMs managed) :
      Reserved bucket rate node requestId now ⟨bucket', grant, false⟩
  /-- the clock has come to its instant and moves on -/
  | issued {bucket' : Bucket} {bytes : ℕ} (hready : bucket.nextAt ≤ now)
      (hbytes : bytes ≤ max (rate / 8) 1) (hnext : bucket'.nextAt = now + bytes * 8 / rate)
      (hreceipts : ∀ key receipt, bucket'.receipts.get? key = some receipt →
        key = (node, requestId) ∧ receipt.bytes = bytes ∨ bucket.receipts.get? key = some receipt) :
      Reserved bucket rate node requestId now ⟨bucket', .limited bytes rate BUDGET_TTL_MS, true⟩

theorem share_le (rate active asked : ℕ) : share rate active asked ≤ max (rate / 8) 1 := by
  refine (min_le_right _ _).trans (max_le_max ?_ le_rfl)
  exact Nat.div_le_self _ _

theorem turn_reserved {bucket kept : Bucket} {node : String} {request : UserBudgetRequest}
    {now : ℚ} (hnext : bucket.nextAt = kept.nextAt)
    (hreceipts : ∀ key receipt, bucket.receipts.get? key = some receipt →
      kept.receipts.get? key = some receipt) :
    Reserved kept rate node request.requestId now (turn bucket rate node request now) := by
  unfold turn
  dsimp only
  split
  · exact .kept hnext hreceipts nofun nofun
  rename_i hwait
  split
  · exact .kept hnext hreceipts nofun nofun
  split
  · exact .kept hnext hreceipts nofun nofun
  refine .issued ?_ (share_le _ _ _) rfl fun key receipt hkey => ?_
  · have hle : (bucket.nextAt - now) * 1000 ≤ 0 := (le_max_right _ _).trans (not_lt.mp hwait)
    rw [← hnext]
    linarith
  · have hkey : (bucket.receipts.put (node, request.requestId)
        ⟨share rate (wanting bucket.demand now).length request.bytes, rate, now + 2⟩).get? key
          = some receipt := hkey
    rcases Table.of_get?_put hkey with ⟨heq, rfl⟩ | ⟨-, hkey⟩
    · exact .inl ⟨heq, rfl⟩
    · exact .inr (hreceipts key receipt hkey)

theorem reserve_reserved (bucket : Bucket) (rate : ℕ) (node : String)
    (request : UserBudgetRequest) (now : ℚ) :
    Reserved bucket rate node request.requestId now (reserve bucket rate node request now) := by
  have hlive : ∀ key receipt,
      (bucket.receipts.retain fun _ receipt => now < receipt.expiresAt).get? key = some receipt →
        bucket.receipts.get? key = some receipt := by
    intro key receipt hkey
    rw [Table.get?_retain] at hkey
    exact (Option.filter_eq_some_iff.mp hkey).1
  unfold reserve
  dsimp only
  split
  · rename_i receipt hreceipt
    refine .kept rfl (fun _ _ => id) (fun bytes rateBps validMs hgrant => ?_) nofun
    obtain ⟨hbytes, -, -⟩ := UserBudgetGrant.limited.inj hgrant
    exact ⟨receipt, hlive _ _ hreceipt, hbytes⟩
  · exact turn_reserved rfl hlive

/-! ### An edit leaves a row that is needed -/

variable {r : ℕ} {console : Console} {edited : Scope}

theorem effect_managed {rows : ScopeRows} (h : rows.effect = some (.limited r)) :
    rows.budgetManaged = true := by
  obtain ⟨quota, base⟩ := rows
  cases base with
  | some base => rfl
  | none =>
    cases quota with
    | none => exact absurd h nofun
    | some row =>
      obtain ⟨limit, action, exhausted⟩ := row
      cases action with
      | throttle r => rfl
      | suspend => cases exhausted <;> exact absurd h nofun

theorem deleteQuota_budgets
    (h : edited = scope → (console.scopes scope).baseRateBps.isSome = true) :
    (console.deleteQuota edited).budgets scope = console.budgets scope := by
  unfold Console.deleteQuota Console.quotaDeleted
  split
  · split
    · rfl
    · rename_i hmanaged
      refine Function.update_of_ne (fun heq => hmanaged ?_) _ _
      subst heq
      have hbase := h rfl
      simp only [Console.setRows, Function.update_self, ScopeRows.budgetManaged, hbase,
        Bool.true_or]
  · rfl

theorem deleteBaseRate_budgets (h : edited = scope →
      ((console.scopes scope).quota.map (·.action.isThrottle)).getD false = true) :
    (console.deleteBaseRate edited).budgets scope = console.budgets scope := by
  unfold Console.deleteBaseRate Console.quotaDeleted
  split
  · split
    · rfl
    · rename_i hmanaged
      refine Function.update_of_ne (fun heq => hmanaged ?_) _ _
      subst heq
      have hquota := h rfl
      simp only [Console.setRows, Function.update_self, ScopeRows.budgetManaged, hquota,
        Bool.or_true]
  · rfl

@[simp] theorem setRows_scopes (console : Console) (edited : Scope) (rows : ScopeRows) :
    (console.setRows edited rows).scopes edited = rows := Function.update_self ..

@[simp] theorem setRows_budgets (console : Console) (edited : Scope) (rows : ScopeRows) :
    (console.setRows edited rows).budgets = console.budgets := rfl

@[simp] theorem quotaDeleted_scopes (console : Console) (edited : Scope) :
    (console.quotaDeleted edited).scopes = console.scopes := by
  unfold Console.quotaDeleted
  split <;> rfl

theorem deleteQuota_scopes (console : Console) (edited : Scope) :
    (console.deleteQuota edited).scopes edited = { console.scopes edited with quota := none } := by
  unfold Console.deleteQuota
  split
  · rw [quotaDeleted_scopes, setRows_scopes]
  · rename_i hquota
    have hnone : (console.scopes edited).quota = none := by simpa using hquota
    rw [← hnone]

theorem deleteBaseRate_scopes (console : Console) (edited : Scope) :
    (console.deleteBaseRate edited).scopes edited
      = { console.scopes edited with baseRateBps := none } := by
  unfold Console.deleteBaseRate
  split
  · rw [quotaDeleted_scopes, setRows_scopes]
  · rename_i hbase
    have hnone : (console.scopes edited).baseRateBps = none := by simpa using hbase
    rw [← hnone]

theorem writeQuota_scopes (console : Console) (edited : Scope) (policy : UserTrafficPolicy) :
    (((console.writeQuota edited policy).scopes edited).quota.map (·.action)
        = policy.quotaBytes.map fun _ => policy.exhaustedAction)
      ∧ ((console.writeQuota edited policy).scopes edited).baseRateBps
        = (console.scopes edited).baseRateBps := by
  unfold Console.writeQuota
  cases policy.quotaBytes with
  | none => simp [deleteQuota_scopes]
  | some quota => simp [Console.putQuota]

theorem writeQuota_budgets {policy : UserTrafficPolicy}
    (h : edited = scope → policy.quotaBytes = none →
      (console.scopes scope).baseRateBps.isSome = true) :
    (console.writeQuota edited policy).budgets scope = console.budgets scope := by
  unfold Console.writeQuota
  cases hquota : policy.quotaBytes with
  | none => exact deleteQuota_budgets fun heq => h heq hquota
  | some quota => rfl

theorem writeRate_budgets (console : Console) (edited : Scope) (base : Option ℕ) :
    (console.writeRate edited base).budgets = console.budgets := by
  cases base <;> rfl

theorem evaluate_managed (console : Console) (edited : Scope) (exhausted : Bool) :
    ((console.evaluate edited exhausted).scopes edited).budgetManaged
      = (console.scopes edited).budgetManaged := by
  unfold Console.evaluate
  rw [setRows_scopes]
  obtain ⟨quota, base⟩ := console.scopes edited
  cases quota <;> rfl

/-- **An edit that leaves a limit in force leaves the clock of the scope alone.** -/
theorem update_budgets {policy : UserTrafficPolicy} {replaceBaseRate exhausted : Bool}
    (h : ((console.update edited policy replaceBaseRate exhausted).scopes scope).effect
      = some (.limited r)) : (console.update edited policy replaceBaseRate exhausted).budgets scope
      = console.budgets scope := by
  have hmanaged := effect_managed h
  unfold Console.update at hmanaged ⊢
  dsimp only at hmanaged ⊢
  generalize console.keepRate edited policy replaceBaseRate = policy at hmanaged ⊢
  have hrate := writeRate_budgets console edited policy.baseRateBps
  rw [Console.evaluate, setRows_budgets]
  cases hbase : policy.baseRateBps with
  | some base =>
    rw [hbase] at hrate
    rw [if_neg (by simp), writeQuota_budgets fun heq _ => ?_, hrate]
    subst heq
    simp [Console.writeRate]
  | none =>
    rw [hbase] at hmanaged hrate
    simp only [Option.isNone_none, if_true] at hmanaged ⊢
    have hthrottled : edited = scope →
        policy.quotaBytes ≠ none ∧ policy.exhaustedAction.isThrottle = true := by
      intro heq
      subst heq
      rw [evaluate_managed, deleteBaseRate_scopes] at hmanaged
      have haction := (writeQuota_scopes (console.writeRate edited none) edited policy).1
      cases hquota : policy.quotaBytes with
      | none =>
        rw [hquota] at haction
        simp only [Option.map_none, Option.map_eq_none_iff] at haction
        simp [ScopeRows.budgetManaged, haction] at hmanaged
      | some quota =>
        rw [hquota] at haction
        obtain ⟨row, hrow, hact⟩ := Option.map_eq_some_iff.mp haction
        simp only [ScopeRows.budgetManaged, hrow, Option.map_some, Option.getD_some,
          Option.isSome_none, Bool.false_or, hact] at hmanaged
        exact ⟨nofun, hmanaged⟩
    rw [deleteBaseRate_budgets fun heq => ?_, writeQuota_budgets fun heq hnone => ?_, hrate]
    · exact absurd hnone (hthrottled heq).1
    · have haction := (writeQuota_scopes (console.writeRate edited none) edited policy).1
      subst heq
      obtain ⟨quota, hquota⟩ := Option.ne_none_iff_exists'.mp (hthrottled rfl).1
      rw [hquota] at haction
      obtain ⟨row, hrow, hact⟩ := Option.map_eq_some_iff.mp haction
      rw [hrow, Option.map_some, Option.getD_some, hact]
      exact (hthrottled rfl).2

theorem setUserAppQuota_budgets {limitBytes : Option ℕ}
    (h : ((console.setUserAppQuota edited limitBytes).scopes scope).effect = some (.limited r)) :
    (console.setUserAppQuota edited limitBytes).budgets scope = console.budgets scope := by
  have hmanaged := effect_managed h
  cases limitBytes with
  | some limit => rfl
  | none =>
    refine deleteQuota_budgets fun heq => ?_
    subst heq
    have hscopes : (console.setUserAppQuota edited none).scopes edited
        = { console.scopes edited with quota := none } := deleteQuota_scopes console edited
    rw [hscopes] at hmanaged
    simpa [ScopeRows.budgetManaged] using hmanaged

/-! ### What holds of the control plane -/

/-- What moved on the account of a scope. -/
def onAccount (scope : Scope) (moves : List (Move Account ℚ)) : List (Move Account ℚ) :=
  moves.filter fun m => m.key.scope = some scope

theorem onAccount_cons_of_eq {m : Move Account ℚ} {moves : List (Move Account ℚ)}
    (h : m.key.scope = some scope) : onAccount scope (m :: moves) = m :: onAccount scope moves :=
  List.filter_cons_of_pos (by simpa using h)

theorem onAccount_cons_of_ne {m : Move Account ℚ} {moves : List (Move Account ℚ)}
    (h : m.key.scope ≠ some scope) : onAccount scope (m :: moves) = onAccount scope moves :=
  List.filter_cons_of_neg (by simpa using h)

/-- A receipt of a request, among those of a scope. -/
def ReceiptOf (scope : Scope) (receipts : List (Move Account ℚ)) (node requestId : String)
    (t : Move Account ℚ) : Prop :=
  t ∈ receipts ∧ t.key = ⟨some scope, node, requestId⟩

/-- What an answer on the scope's account may be. -/
structure AnswerOk (scope : Scope) (receipts : List (Move Account ℚ)) (answer : Answer) :
    Prop where
  bounded : ∀ validMs managed, answer.grant ≠ .unlimited validMs managed
  backed : ∀ bytes rateBps validMs, answer.grant = .limited bytes rateBps validMs →
    ∃ t, ReceiptOf scope receipts answer.node answer.requestId t ∧ t.amount = bytes

theorem AnswerOk.mono {receipts receipts' : List (Move Account ℚ)} {answer : Answer}
    (h : AnswerOk scope receipts answer) (hsub : ∀ t ∈ receipts, t ∈ receipts') :
    AnswerOk scope receipts' answer where
  bounded := h.bounded
  backed bytes rateBps validMs hgrant := by
    obtain ⟨t, ⟨ht, hkey⟩, hamount⟩ := h.backed bytes rateBps validMs hgrant
    exact ⟨t, ⟨hsub t ht, hkey⟩, hamount⟩

/-- What holds of the control plane while a scope's effect stays a limit. -/
structure ServerOk (scope : Scope) (rate : ℕ) (w : World) : Prop where
  paced : Paced (8 / rate : ℚ) (onAccount scope w.issued)
  amount : ∀ t ∈ onAccount scope w.issued, t.amount ≤ max (rate / 8) 1
  /-- the next bytes wait for every receipt there is -/
  next : ∀ t ∈ onAccount scope w.issued, ∃ bucket, w.console.budgets scope = some bucket
    ∧ t.at' + 8 / rate * t.amount ≤ bucket.nextAt
  past : ∀ t ∈ onAccount scope w.issued, t.at' ≤ w.now
  /-- a receipt answers a request sent before -/
  asked : ∀ t ∈ onAccount scope w.issued, ∃ x ∈ w.sent, x.node = t.key.node
    ∧ x.request.requestId = t.key.requestId ∧ x.started ≤ t.at'
  receipts : ∀ bucket, w.console.budgets scope = some bucket → ∀ node requestId receipt,
    bucket.receipts.get? (node, requestId) = some receipt →
      ∃ t, ReceiptOf scope (onAccount scope w.issued) node requestId t ∧ t.amount = receipt.bytes
  answers : ∀ a ∈ w.answers, a.scope = some scope → AnswerOk scope (onAccount scope w.issued) a
  started : ∀ x ∈ w.sent, x.started ≤ w.now

theorem budget_cases {dir : Directory} {node : String} {request : UserBudgetRequest} {now : ℚ}
    {result : Called} (heffect : (console.scopes scope).effect = some (.limited rate))
    (h : budget dir console node request now = .ok result) :
    result.scope ≠ some scope ∧ result.console.budgets scope = console.budgets scope
      ∨ ∃ reservation, Reserved ((console.budgets scope).getD (.new now)) rate node
          request.requestId now reservation
        ∧ result = ⟨{ console with
              budgets := Function.update console.budgets scope (some reservation.bucket) },
            reservation.grant, some scope, reservation.issued⟩ := by
  unfold budget at h
  split at h
  · exact absurd h nofun
  split at h
  · exact absurd h nofun
  · obtain rfl := Except.ok.inj h
    exact .inl ⟨nofun, rfl⟩
  · split at h
    · obtain rfl := Except.ok.inj h
      exact .inl ⟨nofun, rfl⟩
    · obtain rfl := Except.ok.inj h
      exact .inl ⟨nofun, rfl⟩
  rename_i asked _
  split at h
  · obtain rfl := Except.ok.inj h
    exact .inl ⟨nofun, rfl⟩
  obtain rfl := Except.ok.inj h
  by_cases hscope : asked = scope
  · subst hscope
    refine .inr ⟨_, reserve_reserved _ rate node request now, ?_⟩
    unfold Console.budgetScope
    rw [heffect]
  · refine .inl ?_
    have hne : some asked ≠ some scope := fun heq => hscope (Option.some.inj heq)
    unfold Console.budgetScope
    split
    · exact ⟨hne, rfl⟩
    · exact ⟨hne, rfl⟩
    · exact ⟨hne, rfl⟩
    · exact ⟨hne, Function.update_of_ne (Ne.symm hscope) _ _⟩

namespace ServerOk

variable {w w' : World}

theorem start (now : ℚ) (scopes : Scope → ScopeRows) :
    ServerOk scope rate (World.start now scopes) where
  paced := List.isChain_nil
  amount := nofun
  next := nofun
  past := nofun
  asked := nofun
  receipts _ h := absurd h nofun
  answers := nofun
  started := nofun

section

variable (h : ServerOk scope rate w)

include h

theorem frame (hnow : w.now ≤ w'.now)
    (hbudgets : w'.console.budgets scope = w.console.budgets scope)
    (hissued : onAccount scope w'.issued = onAccount scope w.issued)
    (hanswers : ∀ a ∈ w'.answers, a.scope = some scope → a ∈ w.answers)
    (hsent : ∀ x ∈ w.sent, x ∈ w'.sent) (hstarted : ∀ x ∈ w'.sent, x.started ≤ w'.now) :
    ServerOk scope rate w' := by
  obtain ⟨hpaced, hamount, hnext, hpast, hasked, hreceipts, hanswer, -⟩ := h
  rw [← hissued] at hpaced hamount hnext hpast hasked hreceipts hanswer
  rw [← hbudgets] at hnext hreceipts
  refine ⟨hpaced, hamount, hnext, fun t ht => (hpast t ht).trans hnow, fun t ht => ?_, hreceipts,
    fun a ha hscope => hanswer a (hanswers a ha hscope) hscope, hstarted⟩
  obtain ⟨x, hx, hsame⟩ := hasked t ht
  exact ⟨x, hsent x hx, hsame⟩

theorem waits {t : Move Account ℚ} (ht : t ∈ onAccount scope w.issued) :
    t.at' + 8 / rate * t.amount ≤ ((w.console.budgets scope).getD (.new w.now)).nextAt := by
  obtain ⟨bucket, hbucket, hle⟩ := h.next t ht
  rw [hbucket]
  exact hle

theorem held {node requestId : String} {receipt : Receipt}
    (hreceipt : ((w.console.budgets scope).getD (.new w.now)).receipts.get? (node, requestId)
      = some receipt) : ∃ t, ReceiptOf scope (onAccount scope w.issued) node requestId t
      ∧ t.amount = receipt.bytes := by
  cases hbucket : w.console.budgets scope with
  | none =>
    rw [hbucket] at hreceipt
    exact absurd hreceipt nofun
  | some bucket =>
    rw [hbucket] at hreceipt
    exact h.receipts bucket hbucket node requestId receipt hreceipt

theorem kept {sent : Sent} {bucket' : Bucket} {grant : UserBudgetGrant}
    (hnext : bucket'.nextAt = ((w.console.budgets scope).getD (.new w.now)).nextAt)
    (hreceipts : ∀ key receipt, bucket'.receipts.get? key = some receipt →
      ((w.console.budgets scope).getD (.new w.now)).receipts.get? key = some receipt)
    (hlimited : ∀ bytes rateBps validMs, grant = .limited bytes rateBps validMs →
      ∃ receipt, ((w.console.budgets scope).getD (.new w.now)).receipts.get?
        (sent.node, sent.request.requestId) = some receipt ∧ receipt.bytes = bytes)
    (hunlimited : ∀ validMs managed, grant ≠ .unlimited validMs managed) :
    ServerOk scope rate (w.called sent ⟨{ w.console with
      budgets := Function.update w.console.budgets scope (some bucket') }, grant, some scope,
        false⟩) where
  paced := h.paced
  amount := h.amount
  next t ht := ⟨bucket', Function.update_self .., hnext ▸ h.waits ht⟩
  past := h.past
  asked := h.asked
  receipts bucket hbucket node requestId receipt hreceipt := by
    have hbucket : Function.update w.console.budgets scope (some bucket') scope = some bucket :=
      hbucket
    rw [Function.update_self] at hbucket
    obtain rfl := Option.some.inj hbucket
    exact h.held (hreceipts _ _ hreceipt)
  answers a ha hscope := by
    rcases List.mem_cons.mp ha with rfl | ha
    · refine ⟨hunlimited, fun bytes rateBps validMs hgrant => ?_⟩
      obtain ⟨receipt, hreceipt, hbytes⟩ := hlimited bytes rateBps validMs hgrant
      obtain ⟨t, ht, hamount⟩ := h.held hreceipt
      exact ⟨t, ht, hamount.trans hbytes⟩
    · exact h.answers a ha hscope
  started := h.started

theorem issued {sent : Sent} (hsent : sent ∈ w.sent) {bucket' : Bucket} {bytes validMs : ℕ}
    (hready : ((w.console.budgets scope).getD (.new w.now)).nextAt ≤ w.now)
    (hbytes : bytes ≤ max (rate / 8) 1) (hnext : bucket'.nextAt = w.now + bytes * 8 / rate)
    (hreceipts : ∀ key receipt, bucket'.receipts.get? key = some receipt →
      key = (sent.node, sent.request.requestId) ∧ receipt.bytes = bytes
        ∨ ((w.console.budgets scope).getD (.new w.now)).receipts.get? key = some receipt) :
    ServerOk scope rate (w.called sent ⟨{ w.console with
      budgets := Function.update w.console.budgets scope (some bucket') },
        .limited bytes rate validMs, some scope, true⟩) := by
  set m : Move Account ℚ := ⟨⟨some scope, sent.node, sent.request.requestId⟩, w.now, bytes⟩ with hm
  have hissued : onAccount scope (m :: w.issued) = m :: onAccount scope w.issued :=
    onAccount_cons_of_eq rfl
  have hcost : (8 : ℚ) / rate * bytes = bytes * 8 / rate := by ring
  have hpositive : (0 : ℚ) ≤ bytes * 8 / rate := by positivity
  have hmem : ∀ t, t ∈ onAccount scope (m :: w.issued) → t = m ∨ t ∈ onAccount scope w.issued := by
    intro t ht
    rw [hissued] at ht
    exact List.mem_cons.mp ht
  refine ⟨?_, fun t ht => ?_, fun t ht => ⟨bucket', Function.update_self .., ?_⟩, fun t ht => ?_,
    fun t ht => ?_, fun bucket hbucket node requestId receipt hreceipt => ?_, fun a ha hscope => ?_,
    h.started⟩
  · show Paced (8 / rate : ℚ) (onAccount scope (m :: w.issued))
    rw [hissued]
    refine List.isChain_cons.mpr ⟨fun t ht => ?_, h.paced⟩
    exact (h.waits (List.mem_of_mem_head? ht)).trans hready
  · rcases hmem t ht with rfl | ht
    · exact hbytes
    · exact h.amount t ht
  · rw [hnext]
    rcases hmem t ht with rfl | ht
    · exact (congrArg (w.now + ·) hcost).le
    · linarith [h.waits ht]
  · rcases hmem t ht with rfl | ht
    · exact le_rfl
    · exact h.past t ht
  · rcases hmem t ht with rfl | ht
    · exact ⟨sent, hsent, rfl, rfl, h.started sent hsent⟩
    · exact h.asked t ht
  · have hbucket : Function.update w.console.budgets scope (some bucket') scope = some bucket :=
      hbucket
    rw [Function.update_self] at hbucket
    obtain rfl := Option.some.inj hbucket
    show ∃ t, ReceiptOf scope (onAccount scope (m :: w.issued)) node requestId t ∧ _
    rw [hissued]
    rcases hreceipts _ _ hreceipt with ⟨hkey, hamount⟩ | hold
    · obtain ⟨rfl, rfl⟩ := Prod.mk.inj hkey
      exact ⟨m, ⟨List.mem_cons_self, rfl⟩, hamount.symm⟩
    · obtain ⟨t, ⟨ht, hkey⟩, hamount⟩ := h.held hold
      exact ⟨t, ⟨List.mem_cons_of_mem _ ht, hkey⟩, hamount⟩
  · show AnswerOk scope (onAccount scope (m :: w.issued)) a
    rw [hissued]
    rcases List.mem_cons.mp ha with rfl | ha
    · refine ⟨nofun, fun bytes' rateBps validMs hgrant => ?_⟩
      obtain ⟨rfl, -, -⟩ := UserBudgetGrant.limited.inj hgrant
      exact ⟨m, ⟨List.mem_cons_self, rfl⟩, rfl⟩
    · exact (h.answers a ha hscope).mono fun t ht => List.mem_cons_of_mem _ ht

/-- **A call keeps the scope's receipts paced.** -/
theorem call (heffect : (w.console.scopes scope).effect = some (.limited rate)) (dir : Directory)
    {sent : Sent} (hsent : sent ∈ w.sent) : ServerOk scope rate (w.call dir sent) := by
  unfold World.call
  split
  · rename_i result hresult
    rcases budget_cases heffect hresult with ⟨hother, hbudgets⟩ | ⟨reservation, hreserved, rfl⟩
    · refine h.frame le_rfl hbudgets ?_ (fun a ha hscope => ?_) (fun _ hx => hx) h.started
      · unfold World.called
        dsimp only
        split
        · exact onAccount_cons_of_ne hother
        · rfl
      · rcases List.mem_cons.mp ha with rfl | ha
        · exact absurd hscope hother
        · exact ha
    · cases hreserved with
      | kept hnext hreceipts hlimited hunlimited => exact h.kept hnext hreceipts hlimited hunlimited
      | issued hready hbytes hnext hreceipts => exact h.issued hsent hready hbytes hnext hreceipts
  · exact h

end

end ServerOk

end Brocade.Budget
