/-
What the machines let through is charged to receipts.

A grant's credits come from one receipt, are taken over once, and expire two seconds after the
request that asked for them began, which was before the receipt was inserted.  The invariant of
a machine is `ServiceOk`: while a request is under way its entry is locked and empty and its
identity is new, so its grant can be taken over with nothing yet spent on it; afterwards the
entry holds what is left of the receipt.
-/
import Brocade.Budget.Clock

namespace Brocade.Budget

open Pacing (Move Charged ChargedTo within)

variable {scope : Scope} {rate : ℕ}

/-! ### What a pass does to an entry -/

variable {entry : Entry} {generation : ℕ} {now : ℚ}

theorem atGeneration_credits (h : 0 < (entry.atGeneration generation now).credits) :
    entry.atGeneration generation now = entry := by
  unfold Entry.atGeneration at h ⊢
  split at h
  · exact absurd h (Nat.lt_irrefl 0)
  · rename_i hsame
    exact if_neg hsame

theorem current_credits (h : 0 < (entry.current generation now).credits) :
    (entry.current generation now).credits = entry.credits
      ∧ (entry.current generation now).expires = entry.expires ∧ now < entry.expires := by
  unfold Entry.current Entry.unexpired at h ⊢
  split at h
  · exact absurd h (Nat.lt_irrefl 0)
  · rename_i hexpires
    rw [if_neg hexpires]
    have hsame := atGeneration_credits h
    rw [hsame] at hexpires ⊢
    exact ⟨rfl, rfl, not_le.mp hexpires⟩

theorem unexpired_unlimited (h : entry.unlimited = false) :
    (entry.unexpired now).unlimited = false := by
  unfold Entry.unexpired
  split
  · rfl
  · exact h

theorem current_unlimited (h : entry.unlimited = false) :
    (entry.current generation now).unlimited = false := by
  refine unexpired_unlimited ?_
  unfold Entry.atGeneration
  split
  · rfl
  · exact h

/-- What a pass comes to, by the entry it finds. -/
inductive Passed (found : Entry) : Entry × Pass → Prop
  /-- the entry opens the way -/
  | opened {admission : Admission} (hopen : found.unlimited = true) :
      Passed found (found, .answered admission)
  | suspended : Passed found (found, .answered .suspended)
  | fetch (hopen : found.unlimited = false) (hcredits : found.credits = 0) :
      Passed found (found, .fetch)
  | wait : Passed found (found, .wait)
  | spent {entry : Entry} {amount : ℕ} (hopen : entry.unlimited = false)
      (hcredits : entry.credits = found.credits - amount) (hamount : amount ≤ found.credits)
      (hexpires : entry.expires = found.expires) (hpositive : 0 < found.credits) :
      Passed found (entry, .spent amount)

theorem admitPass_passed (entry : Entry) (generation : ℕ) (now : ℚ) (bytes : ℕ) :
    Passed (entry.current generation now) (admitPass entry generation now bytes) := by
  unfold admitPass
  dsimp only
  split
  · rename_i hopen
    exact .opened hopen
  rename_i hopen
  rw [Bool.not_eq_true] at hopen
  split
  · exact .suspended
  split
  · rename_i hcredits
    exact .fetch hopen hcredits
  rename_i hcredits
  split
  · exact .wait
  refine .spent hopen rfl ?_ rfl (Nat.pos_of_ne_zero hcredits)
  exact (min_le_left _ _).trans (min_le_right _ _)

theorem applyGrant_ok {entry' : Entry} {started : ℚ} {remembered : Bool} {grant : UserBudgetGrant}
    (hopen : entry.unlimited = false) (hcredits : entry.credits = 0)
    (hgrant : ∀ validMs managed, grant ≠ .unlimited validMs managed)
    (h : applyGrant entry started now remembered grant = .ok entry') :
    entry'.unlimited = false ∧ (0 < entry'.credits → entry'.expires ≤ started + 2
      ∧ ∃ rateBps validMs, grant = .limited entry'.credits rateBps validMs) := by
  unfold applyGrant at h
  split at h
  · exact absurd rfl (hgrant _ _)
  · split at h
    · exact absurd h nofun
    · obtain rfl := Except.ok.inj h
      exact ⟨hopen, fun hpositive => absurd hpositive (by rw [hcredits]; exact Nat.lt_irrefl 0)⟩
  · rename_i bytes rateBps validMs
    split at h
    · exact absurd h nofun
    rename_i hsense
    split at h
    · exact absurd h nofun
    obtain rfl := Except.ok.inj h
    refine ⟨hopen, fun _ => ⟨?_, rateBps, validMs, rfl⟩⟩
    have hvalid : validMs ≤ BUDGET_TTL_MS := by
      by_contra hlong
      exact hsense (.inr (.inr (.inr (.inr (not_le.mp hlong)))))
    have hcast : (validMs : ℚ) ≤ 2000 := by exact_mod_cast hvalid
    show expiry started validMs ≤ started + 2
    unfold expiry
    linarith
  · obtain rfl := Except.ok.inj h
    exact ⟨hopen, fun hpositive => absurd hpositive (by rw [hcredits]; exact Nat.lt_irrefl 0)⟩

/-! ### What holds of a machine -/

/-- A request under way. -/
def Service.Fetching (service : Service) (id : ℕ) (client : Client) (fetch : Fetch) : Prop :=
  service.clients.get? id = some client ∧ client.fetch = some fetch

/-- What holds of a node's service while a scope's effect stays a limit, given what was sent, the
scope's receipts, and what was let through on its account. -/
structure ServiceOk (scope : Scope) (node : String) (sent : List Sent)
    (receipts admitted : List (Move Account ℚ)) (service : Service) : Prop where
  /-- the entry of a request under way is empty -/
  empty : ∀ id client fetch, service.Fetching id client fetch → ∀ entry,
    service.entries.get? client.source = some entry → entry.unlimited = false ∧ entry.credits = 0
  /-- and no other request is under way for its source -/
  one : ∀ id client fetch id' client' fetch', service.Fetching id client fetch →
    service.Fetching id' client' fetch' → client.source = client'.source → id = id'
  asked : ∀ id client fetch, service.Fetching id client fetch →
    ⟨node, ⟨client.source, fetch.requestId, MAX_BUDGET_BYTES⟩, fetch.started⟩ ∈ sent
  /-- nothing was let through on a request under way, and no entry holds its grant -/
  unspent : ∀ id client fetch, service.Fetching id client fetch →
    (∀ m ∈ admitted, m.key ≠ ⟨some scope, node, fetch.requestId⟩)
      ∧ ∀ source, service.leases source ≠ ⟨some scope, fetch.requestId⟩
  leased : ∀ source requestId, service.leases source = ⟨some scope, requestId⟩ →
    ∃ x ∈ sent, x.node = node ∧ x.request.requestId = requestId ∧ x.request.source = source
  /-- credits are what is left of one receipt, and expire with it -/
  entry : ∀ source entry requestId, service.entries.get? source = some entry →
    service.leases source = ⟨some scope, requestId⟩ → entry.unlimited = false
      ∧ (0 < entry.credits → ∃ t, ReceiptOf scope receipts node requestId t
        ∧ entry.expires ≤ t.at' + 2 ∧ ChargedTo 2 admitted t entry.credits)

/-- What holds of everything. -/
structure Inv (scope : Scope) (rate : ℕ) (w : World) : Prop where
  server : ServerOk scope rate w
  service : ∀ node, ServiceOk scope node w.sent (onAccount scope w.issued)
    (onAccount scope w.admitted) (w.services node)
  /-- no identity is drawn twice -/
  drawn : ∀ x ∈ w.sent, ∀ y ∈ w.sent, x.node = y.node →
    x.request.requestId = y.request.requestId → x = y
  used : ∀ m ∈ onAccount scope w.admitted, ∃ x ∈ w.sent, x.node = m.key.node
    ∧ x.request.requestId = m.key.requestId
  charged : Charged 2 (onAccount scope w.issued) (onAccount scope w.admitted)

namespace ServiceOk

variable {node : String} {sent sent' : List Sent} {receipts receipts' admitted : List (Move Account ℚ)}
  {service service' : Service}

theorem new (scope : Scope) (node : String) (sent : List Sent)
    (receipts admitted : List (Move Account ℚ)) :
    ServiceOk scope node sent receipts admitted .new where
  empty _ _ _ h := absurd h.1 nofun
  one _ _ _ _ _ _ h := absurd h.1 nofun
  asked _ _ _ h := absurd h.1 nofun
  unspent _ _ _ h := absurd h.1 nofun
  leased _ _ h := absurd (congrArg Lease.scope h) nofun
  entry _ _ _ h := absurd h nofun

section

variable (h : ServiceOk scope node sent receipts admitted service)

include h

theorem mono (hsent : ∀ x ∈ sent, x ∈ sent') (hreceipts : ∀ t ∈ receipts, t ∈ receipts') :
    ServiceOk scope node sent' receipts' admitted service where
  empty := h.empty
  one := h.one
  asked id client fetch hfetch := hsent _ (h.asked id client fetch hfetch)
  unspent := h.unspent
  leased source requestId hlease := by
    obtain ⟨x, hx, hsame⟩ := h.leased source requestId hlease
    exact ⟨x, hsent x hx, hsame⟩
  entry source entry requestId hentry hlease := by
    refine ⟨(h.entry source entry requestId hentry hlease).1, fun hpositive => ?_⟩
    obtain ⟨t, ⟨ht, hkey⟩, hrest⟩ := (h.entry source entry requestId hentry hlease).2 hpositive
    exact ⟨t, ⟨hreceipts t ht, hkey⟩, hrest⟩

theorem clients (hfetching : ∀ id client fetch, service'.Fetching id client fetch →
      service.Fetching id client fetch) (hentries : service'.entries = service.entries)
    (hleases : service'.leases = service.leases) :
    ServiceOk scope node sent receipts admitted service' where
  empty id client fetch hfetch := by
    rw [hentries]
    exact h.empty id client fetch (hfetching _ _ _ hfetch)
  one id client fetch id' client' fetch' hfetch hfetch' :=
    h.one id client fetch id' client' fetch' (hfetching _ _ _ hfetch) (hfetching _ _ _ hfetch')
  asked id client fetch hfetch := h.asked id client fetch (hfetching _ _ _ hfetch)
  unspent id client fetch hfetch := by
    rw [hleases]
    exact h.unspent id client fetch (hfetching _ _ _ hfetch)
  leased := by
    rw [hleases]
    exact h.leased
  entry := by
    rw [hleases, hentries]
    exact h.entry

theorem dropClient (id : ℕ) :
    ServiceOk scope node sent receipts admitted (service.dropClient id) := by
  refine h.clients (fun other client fetch hfetch => ⟨?_, hfetch.2⟩) rfl rfl
  exact Table.of_get?_deleteWhere hfetch.1

theorem setClient (id : ℕ) {client : Client} (hclient : client.fetch = none) :
    ServiceOk scope node sent receipts admitted (service.setClient id client) := by
  refine h.clients (fun other client' fetch hfetch => ?_) rfl rfl
  obtain ⟨hget, hfetch⟩ := hfetch
  rcases Table.of_get?_put hget with ⟨-, rfl⟩ | ⟨-, hget⟩
  · rw [hclient] at hfetch
    cases hfetch
  · exact ⟨hget, hfetch⟩

theorem sourceEntry {source : String} {now : ℚ} {entries : Table String Entry}
    (hentries : service.sourceEntry source now = some entries) :
    ServiceOk scope node sent receipts admitted { service with entries := entries } := by
  have hold : ∀ s entry, entries.get? s = some entry →
      service.entries.get? s = some entry ∨ entry = .new now :=
    fun s entry hentry => Service.of_sourceEntry hentries hentry
  refine ⟨fun id client fetch hfetch entry hentry => ?_, h.one, h.asked, h.unspent, h.leased,
    fun s entry requestId hentry hlease => ?_⟩
  · rcases hold _ _ hentry with hentry | rfl
    · exact h.empty id client fetch hfetch entry hentry
    · exact ⟨rfl, rfl⟩
  · rcases hold _ _ hentry with hentry | rfl
    · exact h.entry s entry requestId hentry hlease
    · exact ⟨rfl, fun hpositive => absurd hpositive (Nat.lt_irrefl 0)⟩

end

theorem source_ne {source : String} (hlocked : service.locked source = false) {id : ℕ} {client : Client}
    {fetch : Fetch} (hfetch : service.Fetching id client fetch) : client.source ≠ source := by
  intro heq
  have hmem : (id, client) ∈ service.clients.rows := Table.mem_rows.mpr hfetch.1
  have hholds := List.any_eq_false.mp hlocked (id, client) hmem
  simp [heq, hfetch.2] at hholds

section

variable (h : ServiceOk scope node sent receipts admitted service)

include h

theorem setEntry {source : String} {entry : Entry} (hlocked : service.locked source = false)
    (hentry : ∀ requestId, service.leases source = ⟨some scope, requestId⟩ →
      entry.unlimited = false ∧ (0 < entry.credits → ∃ t, ReceiptOf scope receipts node requestId t
        ∧ entry.expires ≤ t.at' + 2 ∧ ChargedTo 2 admitted t entry.credits)) :
    ServiceOk scope node sent receipts admitted (service.setEntry source entry) := by
  refine ⟨fun id client fetch hfetch other hother => ?_, h.one, h.asked, h.unspent, h.leased,
    fun s other requestId hother hlease => ?_⟩
  · have hne : client.source ≠ source := source_ne hlocked hfetch
    simp only [Service.setEntry, Table.get?_put, if_neg hne] at hother
    exact h.empty id client fetch hfetch other hother
  · rcases Table.of_get?_put hother with ⟨rfl, rfl⟩ | ⟨-, hother⟩
    · exact hentry requestId hlease
    · exact h.entry s other requestId hother hlease

theorem found {source : String} {entry : Entry} (hentry : service.entries.get? source = some entry)
    (generation : ℕ) (now : ℚ) (requestId : String)
    (hlease : service.leases source = ⟨some scope, requestId⟩) :
    (entry.current generation now).unlimited = false ∧ (0 < (entry.current generation now).credits →
        ∃ t, ReceiptOf scope receipts node requestId t
          ∧ (entry.current generation now).expires ≤ t.at' + 2 ∧ now < t.at' + 2
          ∧ ChargedTo 2 admitted t (entry.current generation now).credits) := by
  obtain ⟨hopen, hbacked⟩ := h.entry source entry requestId hentry hlease
  refine ⟨current_unlimited hopen, fun hpositive => ?_⟩
  obtain ⟨hcredits, hexpires, hnow⟩ := current_credits hpositive
  rw [hcredits] at hpositive
  obtain ⟨t, hreceipt, huntil, hcharged⟩ := hbacked hpositive
  rw [hcredits, hexpires]
  exact ⟨t, hreceipt, huntil, hnow.trans_le huntil, hcharged⟩

theorem admitted_other {m : Move Account ℚ}
    (hunspent : ∀ id client fetch, service.Fetching id client fetch →
      m.key ≠ ⟨some scope, node, fetch.requestId⟩)
    (hentry : ∀ source requestId, service.leases source = ⟨some scope, requestId⟩ →
      m.key ≠ ⟨some scope, node, requestId⟩) :
    ServiceOk scope node sent receipts (m :: admitted) service where
  empty := h.empty
  one := h.one
  asked := h.asked
  unspent id client fetch hfetch := by
    refine ⟨fun m' hm' => ?_, (h.unspent id client fetch hfetch).2⟩
    rcases List.mem_cons.mp hm' with rfl | hm'
    · exact hunspent id client fetch hfetch
    · exact (h.unspent id client fetch hfetch).1 m' hm'
  leased := h.leased
  entry source entry requestId hget hlease := by
    obtain ⟨hopen, hbacked⟩ := h.entry source entry requestId hget hlease
    refine ⟨hopen, fun hpositive => ?_⟩
    obtain ⟨t, ⟨ht, hkey⟩, huntil, hcharged⟩ := hbacked hpositive
    refine ⟨t, ⟨ht, hkey⟩, huntil, hcharged.other ?_⟩
    rw [hkey]
    exact hentry source requestId hlease

end

end ServiceOk

namespace Inv

variable {w : World}

theorem start (now : ℚ) (scopes : Scope → ScopeRows) : Inv scope rate (World.start now scopes) where
  server := .start now scopes
  service node := .new scope node _ _ _
  drawn := nofun
  used := nofun
  charged := nofun

variable {node : String} {client : Client}

section

variable (h : Inv scope rate w)

include h

theorem setService {service : Service}
    (hservice : ServiceOk scope node w.sent (onAccount scope w.issued) (onAccount scope w.admitted)
      service) : Inv scope rate (w.setService node service) := by
  refine ⟨h.server.frame le_rfl rfl rfl (fun _ ha _ => ha) (fun _ hx => hx) h.server.started,
    fun other => ?_, h.drawn, h.used, h.charged⟩
  show ServiceOk scope other _ _ _ (Function.update w.services node service other)
  by_cases heq : other = node
  · subst heq
    rw [Function.update_self]
    exact hservice
  · rw [Function.update_of_ne heq]
    exact h.service other

theorem server_step {now : ℚ} {console : Console} (hnow : w.now ≤ now)
    (hbudgets : console.budgets scope = w.console.budgets scope) :
    Inv scope rate { w with now := now, console := console } where
  server := h.server.frame hnow hbudgets rfl (fun _ ha _ => ha) (fun _ hx => hx)
    fun x hx => (h.server.started x hx).trans hnow
  service := h.service
  drawn := h.drawn
  used := h.used
  charged := h.charged

theorem call (heffect : (w.console.scopes scope).effect = some (.limited rate)) (dir : Directory)
    {sent : Sent} (hsent : sent ∈ w.sent) : Inv scope rate (w.call dir sent) := by
  have hserver := h.server.call heffect dir hsent
  have hframe : (w.call dir sent).services = w.services ∧ (w.call dir sent).sent = w.sent
      ∧ (w.call dir sent).admitted = w.admitted
      ∧ ∀ t ∈ onAccount scope w.issued, t ∈ onAccount scope (w.call dir sent).issued := by
    unfold World.call
    split
    · refine ⟨rfl, rfl, rfl, fun t ht => ?_⟩
      obtain ⟨ht, hscope⟩ := List.mem_filter.mp ht
      refine List.mem_filter.mpr ⟨?_, hscope⟩
      unfold World.called
      dsimp only
      split
      · exact List.mem_cons_of_mem _ ht
      · exact ht
    · exact ⟨rfl, rfl, rfl, fun _ => id⟩
  obtain ⟨hservices, hsame, hadmitted, hissued⟩ := hframe
  refine ⟨hserver, fun node => ?_, ?_, ?_, ?_⟩
  · rw [hservices, hsame, hadmitted]
    exact (h.service node).mono (fun _ hx => hx) hissued
  · rw [hsame]
    exact h.drawn
  · rw [hsame, hadmitted]
    exact h.used
  · rw [hadmitted]
    intro s hs
    obtain ⟨t, ht, hrest⟩ := h.charged s hs
    exact ⟨t, hissued t ht, hrest⟩

theorem fetch {requestId : String} {id : ℕ}
    (hlocked : (w.services node).locked client.source = false)
    (hempty : ∀ entry, (w.services node).entries.get? client.source = some entry →
      entry.unlimited = false ∧ entry.credits = 0) :
    Inv scope rate (w.fetch node id client requestId) := by
  unfold World.fetch
  split
  · exact h
  rename_i hdrawn
  have hfresh : ∀ x ∈ w.sent, x.node = node → x.request.requestId ≠ requestId := by
    intro x hx hnode hid
    refine hdrawn (List.any_eq_true.mpr ⟨x, hx, ?_⟩)
    simp [hnode, hid]
  set x : Sent := ⟨node, ⟨client.source, requestId, MAX_BUDGET_BYTES⟩, w.now⟩ with hx
  have hold := h.service node
  have hfetching : ∀ id' client' fetch',
      ((w.services node).setClient id { client with fetch := some ⟨requestId, w.now⟩ }).Fetching
        id' client' fetch' →
      (id' = id ∧ client'.source = client.source ∧ fetch' = ⟨requestId, w.now⟩)
        ∨ (w.services node).Fetching id' client' fetch' := by
    intro id' client' fetch' ⟨hget, hfetch⟩
    rcases Table.of_get?_put hget with ⟨hid, rfl⟩ | ⟨-, hget⟩
    · exact .inl ⟨hid, rfl, (Option.some.inj hfetch).symm⟩
    · exact .inr ⟨hget, hfetch⟩
  have hnode : ServiceOk scope node (x :: w.sent) (onAccount scope w.issued)
      (onAccount scope w.admitted)
      ((w.services node).setClient id { client with fetch := some ⟨requestId, w.now⟩ }) := by
    refine ⟨fun id' client' fetch' hfetch => ?_,
      fun id₁ client₁ fetch₁ id₂ client₂ fetch₂ hfetch₁ hfetch₂ hsource => ?_,
      fun id' client' fetch' hfetch => ?_, fun id' client' fetch' hfetch => ?_,
      fun source rid hlease => ?_, hold.entry⟩
    · rcases hfetching _ _ _ hfetch with ⟨-, hsource, -⟩ | hfetch
      · rw [hsource]
        exact hempty
      · exact hold.empty id' client' fetch' hfetch
    · rcases hfetching _ _ _ hfetch₁ with ⟨hid₁, hsource₁, -⟩ | hold₁
      · rcases hfetching _ _ _ hfetch₂ with ⟨hid₂, -, -⟩ | hold₂
        · exact hid₁.trans hid₂.symm
        · exact absurd (hsource.symm.trans hsource₁) (ServiceOk.source_ne hlocked hold₂)
      · rcases hfetching _ _ _ hfetch₂ with ⟨-, hsource₂, -⟩ | hold₂
        · exact absurd (hsource.trans hsource₂) (ServiceOk.source_ne hlocked hold₁)
        · exact hold.one id₁ client₁ fetch₁ id₂ client₂ fetch₂ hold₁ hold₂ hsource
    · rcases hfetching _ _ _ hfetch with ⟨-, hsource, rfl⟩ | hfetch
      · rw [hsource]
        exact List.mem_cons_self
      · exact List.mem_cons_of_mem _ (hold.asked id' client' fetch' hfetch)
    · rcases hfetching _ _ _ hfetch with ⟨-, -, rfl⟩ | hfetch
      · refine ⟨fun m hm hkey => ?_, fun source hlease => ?_⟩
        · obtain ⟨y, hy, hynode, hyid⟩ := h.used m hm
          rw [hkey] at hynode hyid
          exact hfresh y hy hynode hyid
        · obtain ⟨y, hy, hynode, hyid, -⟩ := hold.leased source requestId hlease
          exact hfresh y hy hynode hyid
      · exact hold.unspent id' client' fetch' hfetch
    · obtain ⟨y, hy, hsame⟩ := hold.leased source rid hlease
      exact ⟨y, List.mem_cons_of_mem _ hy, hsame⟩
  refine ⟨h.server.frame le_rfl rfl rfl (fun _ ha _ => ha) (fun _ hy => List.mem_cons_of_mem _ hy)
    (fun y hy => ?_), fun other => ?_, fun y hy z hz hnodes hids => ?_, fun m hm => ?_, h.charged⟩
  · rcases List.mem_cons.mp hy with rfl | hy
    · exact le_rfl
    · exact h.server.started y hy
  · show ServiceOk scope other _ _ _ (Function.update w.services node _ other)
    by_cases heq : other = node
    · subst heq
      rw [Function.update_self]
      exact hnode
    · rw [Function.update_of_ne heq]
      exact (h.service other).mono (fun _ hy => List.mem_cons_of_mem _ hy) fun _ ht => ht
  · rcases List.mem_cons.mp hy with rfl | hy
    · rcases List.mem_cons.mp hz with rfl | hz
      · rfl
      · exact absurd hids.symm (hfresh z hz hnodes.symm)
    · rcases List.mem_cons.mp hz with rfl | hz
      · exact absurd hids (hfresh y hy hnodes)
      · exact h.drawn y hy z hz hnodes hids
  · obtain ⟨y, hy, hsame⟩ := h.used m hm
    exact ⟨y, List.mem_cons_of_mem _ hy, hsame⟩

theorem admit_other {source : String} (bytes : ℕ)
    (hscope : ((w.services node).leases source).scope ≠ some scope) :
    Inv scope rate (w.admitBytes node source bytes) := by
  have hsame : onAccount scope (w.admitBytes node source bytes).admitted = onAccount scope w.admitted :=
    onAccount_cons_of_ne hscope
  refine ⟨h.server.frame le_rfl rfl rfl (fun _ ha _ => ha) (fun _ hx => hx) h.server.started,
    fun other => ?_, h.drawn, ?_, ?_⟩
  · rw [hsame]
    exact h.service other
  · rw [hsame]
    exact h.used
  · rw [hsame]
    exact h.charged

/-- **A pass that spends** is charged to the receipt behind its entry. -/
theorem spend {source requestId : String} {found entry : Entry} {amount : ℕ}
    (hlocked : (w.services node).locked source = false)
    (hlease : (w.services node).leases source = ⟨some scope, requestId⟩)
    (hpositive : 0 < found.credits) (hamount : amount ≤ found.credits)
    (hcredits : entry.credits = found.credits - amount) (hexpires : entry.expires = found.expires)
    (hopen : entry.unlimited = false) (hfound : 0 < found.credits →
      ∃ t, ReceiptOf scope (onAccount scope w.issued) node requestId t
        ∧ found.expires ≤ t.at' + 2 ∧ w.now < t.at' + 2
        ∧ ChargedTo 2 (onAccount scope w.admitted) t found.credits) :
    Inv scope rate ((w.setService node ((w.services node).setEntry source entry)).admitBytes node source
      amount) := by
  obtain ⟨t, ⟨ht, hkey⟩, huntil, hnow, hcharged⟩ := hfound hpositive
  set m : Move Account ℚ := ⟨⟨some scope, node, requestId⟩, w.now, amount⟩ with hm
  have hsetLease : ((w.setService node ((w.services node).setEntry source entry)).services
      node).leases source = ⟨some scope, requestId⟩ := by
    show (Function.update w.services node ((w.services node).setEntry source entry) node).leases
      source = _
    rw [Function.update_self]
    exact hlease
  have hadmitted : onAccount scope ((w.setService node
      ((w.services node).setEntry source entry)).admitBytes node source amount).admitted
      = m :: onAccount scope w.admitted := by
    unfold World.admitBytes
    dsimp only
    rw [hsetLease]
    exact onAccount_cons_of_eq rfl
  have hspent : ChargedTo 2 (m :: onAccount scope w.admitted) t entry.credits := by
    rw [hcredits]
    exact hcharged.spend hkey.symm hamount (h.server.past t ht) hnow.le
  have hold := h.service node
  have hother : ∀ source', source' ≠ source → ∀ requestId',
      (w.services node).leases source' = ⟨some scope, requestId'⟩ →
      m.key ≠ ⟨some scope, node, requestId'⟩ := by
    intro source' hne requestId' hlease' heq
    obtain rfl := (Account.mk.inj heq).2.2
    obtain ⟨x, hx, hxnode, hxid, hxsource⟩ := hold.leased source requestId hlease
    obtain ⟨y, hy, hynode, hyid, hysource⟩ := hold.leased source' requestId hlease'
    obtain rfl := h.drawn x hx y hy (hxnode.trans hynode.symm) (hxid.trans hyid.symm)
    exact hne (hysource.symm.trans hxsource)
  have hnode : ServiceOk scope node w.sent (onAccount scope w.issued)
      (m :: onAccount scope w.admitted) ((w.services node).setEntry source entry) := by
    refine ⟨fun id client fetch hfetch other hget => ?_, hold.one, hold.asked,
      fun id client fetch hfetch => ⟨fun m' hm' => ?_, (hold.unspent id client fetch hfetch).2⟩,
      hold.leased, fun source' other requestId' hget hlease' => ?_⟩
    · have hne : client.source ≠ source := ServiceOk.source_ne hlocked hfetch
      simp only [Service.setEntry, Table.get?_put, if_neg hne] at hget
      exact hold.empty id client fetch hfetch other hget
    · rcases List.mem_cons.mp hm' with rfl | hm'
      · intro heq
        obtain rfl := (Account.mk.inj heq).2.2
        exact (hold.unspent id client fetch hfetch).2 source hlease
      · exact (hold.unspent id client fetch hfetch).1 m' hm'
    · rcases Table.of_get?_put hget with ⟨rfl, rfl⟩ | ⟨hne, hget⟩
      · obtain rfl := (Lease.mk.inj (hlease.symm.trans hlease')).2
        exact ⟨hopen, fun _ => ⟨t, ⟨ht, hkey⟩, hexpires ▸ huntil, hspent⟩⟩
      · obtain ⟨hopen', hbacked⟩ := hold.entry source' other requestId' hget hlease'
        refine ⟨hopen', fun hpositive' => ?_⟩
        obtain ⟨t', ⟨ht', hkey'⟩, huntil', hcharged'⟩ := hbacked hpositive'
        refine ⟨t', ⟨ht', hkey'⟩, huntil', hcharged'.other ?_⟩
        rw [hkey']
        exact hother source' hne requestId' hlease'
  refine ⟨h.server.frame le_rfl rfl rfl (fun _ ha _ => ha) (fun _ hx => hx) h.server.started,
    fun other => ?_, h.drawn, ?_, ?_⟩
  · rw [hadmitted]
    show ServiceOk scope other w.sent (onAccount scope w.issued) _
      (Function.update w.services node _ other)
    by_cases heq : other = node
    · subst heq
      rw [Function.update_self]
      exact hnode
    · rw [Function.update_of_ne heq]
      exact (h.service other).admitted_other
        (fun _ _ _ _ hkey => heq (Account.mk.inj hkey).2.1.symm)
        fun _ _ _ hkey => heq (Account.mk.inj hkey).2.1.symm
  · rw [hadmitted]
    intro m' hm'
    rcases List.mem_cons.mp hm' with rfl | hm'
    · obtain ⟨x, hx, hxnode, hxid, -⟩ := hold.leased source requestId hlease
      exact ⟨x, hx, hxnode, hxid⟩
    · exact h.used m' hm'
  · rw [hadmitted]
    intro s hs
    by_cases hsame : s.key = m.key
    · exact ⟨t, ht, hkey.trans hsame.symm, hspent.zero⟩
    · rcases List.mem_cons.mp hs with rfl | hs
      · exact absurd rfl hsame
      · obtain ⟨t', ht', hkey', hcharged'⟩ := h.charged s hs
        exact ⟨t', ht', hkey', hcharged'.other fun heq => hsame (heq.trans hkey').symm⟩

theorem paid (node : String) (id : ℕ) (hclient : client.fetch = none) (bytes : ℕ) :
    Inv scope rate (w.paid node id client bytes) := by
  unfold World.paid
  split
  · exact h.setService ((h.service node).dropClient id)
  · exact h.setService ((h.service node).setClient id hclient)

/-- **A pass keeps what is let through charged.** -/
theorem pass (node : String) (id : ℕ) (requestId : String) :
    Inv scope rate (w.pass node id requestId) := by
  unfold World.pass
  dsimp only
  split
  · exact h
  rename_i client hclient
  split
  · exact h
  rename_i entry hentry
  split
  · exact h
  rename_i hlocked
  rw [Bool.not_eq_true] at hlocked
  set service := w.services node with hservice
  have hidle : client.fetch = none := by
    cases hfetch : client.fetch with
    | none => rfl
    | some fetch => exact absurd rfl (ServiceOk.source_ne hlocked ⟨hclient, hfetch⟩)
  have hfound := (h.service node).found hentry service.generation w.now
  have hkept : Inv scope rate (w.setService node
      (service.setEntry client.source (entry.current service.generation w.now))) := by
    refine h.setService ((h.service node).setEntry hlocked fun requestId hlease => ?_)
    obtain ⟨hopen, hbacked⟩ := hfound requestId hlease
    refine ⟨hopen, fun hpositive => ?_⟩
    obtain ⟨t, ht, huntil, -, hcharged⟩ := hbacked hpositive
    exact ⟨t, ht, huntil, hcharged⟩
  have hself : ∀ service' : Service, (w.setService node service').services node = service' :=
    fun service' => Function.update_self ..
  have hlocked' : ∀ entry', ((w.setService node (service.setEntry client.source entry')).services
      node).locked client.source = false := by
    intro entry'
    rw [hself]
    exact hlocked
  have hpassed := admitPass_passed entry service.generation w.now client.bytes
  generalize admitPass entry service.generation w.now client.bytes = result at hpassed ⊢
  cases hpassed with
  | wait => exact hkept
  | suspended => exact hkept.setService ((hkept.service node).dropClient id)
  | fetch hopen hcredits =>
    refine hkept.fetch (hlocked' _) fun other hother => ?_
    rw [hself, Service.setEntry, Table.get?_put, if_pos rfl] at hother
    obtain rfl := Option.some.inj hother
    exact ⟨hopen, hcredits⟩
  | opened hopen =>
    have hscope : (service.leases client.source).scope ≠ some scope := by
      intro hscope
      obtain ⟨requestId', hlease⟩ : ∃ r, service.leases client.source = ⟨some scope, r⟩ :=
        ⟨_, Lease.ext hscope rfl⟩
      rw [(hfound requestId' hlease).1] at hopen
      exact Bool.false_ne_true hopen
    have hcharged := hkept.admit_other client.bytes
      (show ((((w.setService node _).services node).leases client.source).scope ≠ _) by
        rw [hself]
        exact hscope)
    have hdropped := hkept.setService ((hkept.service node).dropClient id)
    rename_i admission
    cases admission with
    | suspended => exact hdropped
    | allowed => exact hcharged.setService ((hcharged.service node).dropClient id)
    | open' => exact hcharged.setService ((hcharged.service node).dropClient id)
    | pass => exact hcharged.setService ((hcharged.service node).dropClient id)
  | spent hopen hcredits hamount hexpires hpositive =>
    rename_i entry' amount
    refine paid ?_ node id hidle amount
    by_cases hscope : (service.leases client.source).scope = some scope
    · obtain ⟨requestId', hlease⟩ : ∃ r, service.leases client.source = ⟨some scope, r⟩ :=
        ⟨_, Lease.ext hscope rfl⟩
      exact h.spend hlocked hlease hpositive hamount hcredits hexpires hopen
        (hfound requestId' hlease).2
    · have hset : Inv scope rate (w.setService node (service.setEntry client.source entry')) :=
        h.setService ((h.service node).setEntry hlocked fun requestId' hlease =>
          absurd (congrArg Lease.scope hlease) hscope)
      refine hset.admit_other _ ?_
      rw [hself]
      exact hscope

/-- **A grant taken over** is the whole of a receipt, with nothing spent of it. -/
theorem take {id : ℕ} {fetch : Fetch} (hfetch : (w.services node).Fetching id client fetch)
    {answer : Answer} (hanswer : answer ∈ w.answers) (hnode : answer.node = node)
    (hid : answer.requestId = fetch.requestId) (remembered : Bool) :
    Inv scope rate (w.take node id client fetch answer remembered) := by
  unfold World.take
  dsimp only
  split
  · rename_i entry' hmap
    obtain ⟨entry, hentry, happly⟩ := Option.map_eq_some_iff.mp hmap
    set service := w.services node with hservice
    have hold := h.service node
    obtain ⟨hopen, hempty⟩ := hold.empty id client fetch hfetch entry hentry
    have hsent := hold.asked id client fetch hfetch
    -- the requests still under way are the others, for other sources
    have hfetching : ∀ id' client' fetch',
        (((service.setEntry client.source entry').setLease client.source
          ⟨answer.scope, answer.requestId⟩).setClient id { client with fetch := none }).Fetching
            id' client' fetch' →
        service.Fetching id' client' fetch' ∧ client'.source ≠ client.source := by
      intro id' client' fetch' hfetching
      obtain ⟨hget, hfetch'⟩ := hfetching
      rcases Table.of_get?_put hget with ⟨-, rfl⟩ | ⟨hne, hget⟩
      · cases hfetch'
      · refine ⟨⟨hget, hfetch'⟩, fun heq => hne ?_⟩
        exact hold.one id' client' fetch' id client fetch ⟨hget, hfetch'⟩ hfetch heq
    have hlease : ∀ source, Function.update service.leases client.source
        ⟨answer.scope, answer.requestId⟩ source
        = if source = client.source then ⟨answer.scope, answer.requestId⟩
          else service.leases source := fun source => Function.update_apply ..
    refine h.setService ⟨fun id' client' fetch' hfetch' other hother => ?_,
      fun id₁ client₁ fetch₁ id₂ client₂ fetch₂ hfetch₁ hfetch₂ =>
        hold.one id₁ client₁ fetch₁ id₂ client₂ fetch₂ (hfetching _ _ _ hfetch₁).1
          (hfetching _ _ _ hfetch₂).1,
      fun id' client' fetch' hfetch' => hold.asked id' client' fetch' (hfetching _ _ _ hfetch').1,
      fun id' client' fetch' hfetch' => ?_, fun source requestId hsource => ?_,
      fun source other requestId hother hsource => ?_⟩
    · obtain ⟨hfetch', hne⟩ := hfetching _ _ _ hfetch'
      simp only [Service.setClient, Service.setLease, Service.setEntry, Table.get?_put,
        if_neg hne] at hother
      exact hold.empty id' client' fetch' hfetch' other hother
    · obtain ⟨hfetch', hne⟩ := hfetching _ _ _ hfetch'
      refine ⟨(hold.unspent id' client' fetch' hfetch').1, fun source heq => ?_⟩
      have heq : Function.update service.leases client.source ⟨answer.scope, answer.requestId⟩
          source = ⟨some scope, fetch'.requestId⟩ := heq
      rw [hlease] at heq
      split at heq
      · have hsame : fetch.requestId = fetch'.requestId := hid.symm.trans (Lease.mk.inj heq).2
        have hsent' := hold.asked id' client' fetch' hfetch'
        have hdrawn := h.drawn _ hsent _ hsent' rfl hsame
        exact hne (congrArg (fun x : Sent => x.request.source) hdrawn).symm
      · exact (hold.unspent id' client' fetch' hfetch').2 source heq
    · have hsource : Function.update service.leases client.source
          ⟨answer.scope, answer.requestId⟩ source = ⟨some scope, requestId⟩ := hsource
      rw [hlease] at hsource
      split at hsource
      · rename_i heq
        exact ⟨_, hsent, rfl, hid.symm.trans (Lease.mk.inj hsource).2, heq.symm⟩
      · exact hold.leased source requestId hsource
    · have hsource : Function.update service.leases client.source
          ⟨answer.scope, answer.requestId⟩ source = ⟨some scope, requestId⟩ := hsource
      rw [hlease] at hsource
      simp only [Service.setClient, Service.setLease, Service.setEntry, Table.get?_put] at hother
      by_cases heq : source = client.source
      · rw [if_pos heq] at hsource hother
        obtain rfl := Option.some.inj hother
        obtain ⟨hscope, hrequest⟩ := Lease.mk.inj hsource
        obtain ⟨hbounded, hbacked⟩ := h.server.answers answer hanswer hscope
        obtain ⟨hopen', hgrant⟩ := applyGrant_ok hopen hempty hbounded happly
        refine ⟨hopen', fun hpositive => ?_⟩
        obtain ⟨hexpires, rateBps, validMs, hlimited⟩ := hgrant hpositive
        obtain ⟨t, ⟨ht, hkey⟩, hamount⟩ := hbacked _ _ _ hlimited
        rw [hnode, hrequest] at hkey
        obtain ⟨x, hx, hxnode, hxid, hstarted⟩ := h.server.asked t ht
        rw [hkey] at hxnode hxid
        have hsame := h.drawn x hx _ hsent hxnode (hxid.trans (hrequest.symm.trans hid))
        rw [hsame] at hstarted
        have hbegan : fetch.started ≤ t.at' := hstarted
        refine ⟨t, ⟨ht, hkey⟩, hexpires.trans (by linarith), ?_⟩
        rw [← hamount]
        refine ChargedTo.fresh fun s hs hskey => ?_
        refine (hold.unspent id client fetch hfetch).1 s hs ?_
        rw [hskey, hkey, ← hrequest, hid]
      · rw [if_neg heq] at hsource hother
        exact hold.entry source other requestId hother hsource
  · exact h.setService ((h.service node).dropClient id)

theorem answer (node : String) (id i : ℕ) (remembered : Bool) :
    Inv scope rate (w.answer node id i remembered) := by
  unfold World.answer
  split
  · rename_i client answer hclient hanswer
    split
    · exact h
    rename_i fetch hfetch
    split
    · rename_i hmatch
      exact h.take ⟨hclient, hfetch⟩ (List.mem_of_getElem? hanswer) hmatch.1 hmatch.2 remembered
    · exact h
  · exact h

theorem serve (node : String) (client : ℕ) (source : String) (bytes : ℕ) :
    Inv scope rate (w.serve node client source bytes) := by
  unfold World.serve
  dsimp only
  split
  · exact h
  split
  · exact h
  rename_i entries hentries
  exact h.setService (((h.service node).sourceEntry hentries).setClient client rfl)

end

end Inv

end Brocade.Budget
