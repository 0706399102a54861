/-
A free pass is of the control that is loaded.

Loading another control forgets what was kept, so an entry is of another control only if its answer
came late, after its request's control was replaced.  Where no OPEN and no PASS comes late, every
entry is of the control that is loaded; and what the agent answers to a request of a control it
knows from policies and grants at least as new as that control's generation, since the file comes
first, and a request that saw it waits for the lock.
-/
import Brocade.UserLimit.Client

namespace Brocade.UserLimit

open Budget (UserTrafficEffect UserBudgetGrant Admission Entry Service admitPass applyGrant)
open UserTraffic (Write)

/-- OPEN and PASS let more through than was asked for. -/
def frees : Admission → Bool
  | .open' => true
  | .pass => true
  | _ => false

/-- The answer that a waiter would receive, with the control it was asked under. -/
def World.answerFor (w : World) (id : ℕ) : Option (Control × Admission) :=
  (w.waiters.get? id).bind fun waiter =>
    match waiter.stage with
    | .asked cfg _ request => (w.answers.get? request).map fun admission => (cfg, admission)
    | _ => none

def holds : UserTrafficEffect → Bool
  | .unlimited _ => false
  | _ => true

/-- The policies limit or suspend a source. -/
def Held (effects : OrdMap String UserTrafficEffect) (source : String) : Prop :=
  (effects.get? source).any holds = true

instance decidableHeld (effects : OrdMap String UserTrafficEffect) (source : String) :
    Decidable (Held effects source) :=
  inferInstanceAs (Decidable (_ = _))

/-- The policies that the agent published at a generation hold a source. -/
def World.HeldAt (w : World) (generation : ℕ) (source : String) : Prop :=
  ∃ row ∈ w.published, row.1.token = w.agent.control.token ∧ row.1.generation = generation ∧
    Held row.2 source

instance decidableHeldAt (w : World) (generation : ℕ) (source : String) :
    Decidable (w.HeldAt generation source) :=
  inferInstanceAs (Decidable (∃ row ∈ w.published, _))

/-- No OPEN and no PASS comes once another control is loaded, no write of the control file fails
after it takes effect, and no unlimited grant is taken over for a source that the policies of its
entry's generation hold. -/
def Timely (w : World) : Event → Prop
  | .receive id => ∀ answer ∈ w.answerFor id, frees answer.2 = true → answer.1 = w.client.current
  | .publish effects write => effects ≠ w.agent.effects → write.unclear = false
  | .grant request (.unlimited _ _) true =>
    ∀ client ∈ w.agent.service.clients.get? request,
      ∀ entry ∈ w.agent.service.entries.get? client.source, ¬w.HeldAt entry.generation client.source
  | _ => True

instance decidableTimely (w : World) (event : Event) : Decidable (Timely w event) := by
  unfold Timely
  split <;> infer_instance

/-- Since a control was published, policies opened the way for a source, or a grant did. -/
def FreedSince (published : List (Control × OrdMap String UserTrafficEffect))
    (granted : List Granted) (source : String) (c : Control) : Prop :=
  (∃ row ∈ published, row.1.token = c.token ∧ c.generation ≤ row.1.generation ∧
    ∃ managed, row.2.get? source = some (.unlimited managed)) ∨
  ∃ g ∈ granted, g.token = c.token ∧ c.generation ≤ g.generation ∧ g.source = source

section Facts

variable {published : List (Control × OrdMap String UserTrafficEffect)} {granted : List Granted}
  {source : String} {c : Control}

theorem FreedSince.published_cons (row : Control × OrdMap String UserTrafficEffect)
    (h : FreedSince published granted source c) : FreedSince (row :: published) granted source c := by
  rcases h with ⟨old, hold, hfreed⟩ | hgranted
  · exact .inl ⟨old, List.mem_cons_of_mem _ hold, hfreed⟩
  · exact .inr hgranted

theorem FreedSince.granted_mono {granted' : List Granted} (hsub : granted ⊆ granted')
    (h : FreedSince published granted source c) : FreedSince published granted' source c := by
  rcases h with hpublished | ⟨g, hg, hfreed⟩
  · exact .inl hpublished
  · exact .inr ⟨g, hsub hg, hfreed⟩

variable {entry : Entry} {generation : ℕ} {now : ℚ}

@[simp] theorem current_generation : (entry.current generation now).generation = generation := by
  unfold Entry.current Entry.unexpired Entry.atGeneration Entry.cleared
  by_cases hother : entry.generation ≠ generation
  · rw [if_pos hother]
    split <;> rfl
  · rw [if_neg hother]
    rw [not_not] at hother
    split <;> exact hother

theorem current_open (h : (entry.current generation now).unlimited = true) :
    entry.unlimited = true ∧ entry.generation = generation := by
  unfold Entry.current Entry.unexpired at h
  by_cases hexpired : (({ entry with last := now } : Entry).atGeneration generation now).expires ≤ now
  · rw [if_pos hexpired] at h
    cases h
  rw [if_neg hexpired] at h
  unfold Entry.atGeneration at h
  by_cases hother : ({ entry with last := now } : Entry).generation ≠ generation
  · rw [if_pos hother] at h
    cases h
  rw [if_neg hother] at h
  rw [not_not] at hother
  exact ⟨h, hother⟩

theorem admitPass_entry (entry : Entry) (generation : ℕ) (now : ℚ) (bytes : ℕ) :
    (admitPass entry generation now bytes).1.generation = generation ∧
      ((admitPass entry generation now bytes).1.unlimited = true →
        (entry.current generation now).unlimited = true) := by
  unfold admitPass
  extract_lets state
  have hstate : state.generation = generation := current_generation
  by_cases hunlimited : state.unlimited = true
  · rw [if_pos hunlimited]
    exact ⟨hstate, id⟩
  rw [if_neg hunlimited]
  split
  · exact ⟨hstate, id⟩
  split
  · exact ⟨hstate, id⟩
  split
  · exact ⟨hstate, id⟩
  · exact ⟨hstate, id⟩

theorem admitPass_frees {bytes : ℕ} {admission : Admission}
    (h : (admitPass entry generation now bytes).2 = .answered admission)
    (hfrees : frees admission = true) : (entry.current generation now).unlimited = true := by
  unfold admitPass at h
  extract_lets state at h
  by_cases hunlimited : state.unlimited = true
  · exact hunlimited
  rw [if_neg hunlimited] at h
  by_cases hsuspended : state.suspended = true
  · rw [if_pos hsuspended] at h
    cases h
    cases hfrees
  rw [if_neg hsuspended] at h
  by_cases hcredits : state.credits = 0
  · rw [if_pos hcredits] at h
    cases h
  rw [if_neg hcredits] at h
  by_cases hearly : now < state.next
  · rw [if_pos hearly] at h
    cases h
  · rw [if_neg hearly] at h
    cases h

theorem applyGrant_open {entry' : Entry} {started : ℚ} {remembered : Bool}
    {grant : UserBudgetGrant} (h : applyGrant entry started now remembered grant = .ok entry') :
    entry'.generation = entry.generation ∧ (entry'.unlimited = true → entry.unlimited = true ∨
        ∃ validMs managed, grant = .unlimited validMs managed) := by
  cases grant with
  | unlimited validMs managed =>
    cases remembered with
    | false => cases h
    | true =>
      cases h
      exact ⟨rfl, fun _ => .inr ⟨validMs, managed, rfl⟩⟩
  | suspended validMs =>
    cases remembered with
    | false => cases h
    | true =>
      cases h
      exact ⟨rfl, fun hopen => .inl hopen⟩
  | limited bytes rateBps validMs =>
    unfold applyGrant at h
    dsimp only at h
    split at h
    · cases h
    cases remembered with
    | false => cases h
    | true =>
      cases h
      exact ⟨rfl, fun hopen => .inl hopen⟩
  | retry afterMs =>
    cases h
    exact ⟨rfl, fun hopen => .inl hopen⟩

theorem assigned_frees {a : Agent} {admission : Admission}
    (h : a.assigned source now = some admission) (hfrees : frees admission = true) :
    ∃ managed, a.effects.get? source = some (.unlimited managed) := by
  unfold Agent.assigned at h
  split at h
  · cases h
  cases heffect : a.effects.get? source with
  | none => simp [heffect] at h
  | some effect =>
    rw [heffect] at h
    cases effect with
    | unlimited managed => exact ⟨managed, rfl⟩
    | limited rateBps => cases h
    | suspended =>
      cases h
      cases hfrees

end Facts

/-! ### The invariant -/

/-- The effects to come. -/
def Publishing.effects? : Publishing → Option (OrdMap String UserTrafficEffect)
  | .idle => none
  | .filed effects => some effects
  | .counted effects => some effects

/-- How far the file, and the counter, are ahead of the control. -/
def Publishing.fileAhead : Publishing → ℕ
  | .idle => 0
  | _ => 1

def Publishing.countAhead : Publishing → ℕ
  | .counted _ => 1
  | _ => 0

/-- A control that the data plane may have loaded. -/
def Seen (w : World) (c : Control) : Prop :=
  c.token ∈ w.tokens ∧ (c.token = w.agent.control.token → c.generation ≤ w.file.generation)

/-- The policies of an unlimited grant's generation do not hold its source. -/
def Unheld (published : List (Control × OrdMap String UserTrafficEffect)) (g : Granted) : Prop :=
  1 ≤ g.generation → ∃ row ∈ published, row.1.token = g.token ∧ row.1.generation = g.generation ∧
    ¬Held row.2 g.source

/-- What the controls, the requests and the answers on their way, and the entries on both sides
rest on. -/
structure Inv (w : World) : Prop where
  token : w.file.token = w.agent.control.token
  drawn : w.agent.control.token ∈ w.tokens
  filed : w.file.generation = w.agent.control.generation + w.agent.publishing.fileAhead
  counted : w.agent.service.generation = w.agent.control.generation + w.agent.publishing.countAhead
  current : Seen w w.client.current
  asks : ∀ (n : ℕ) c source, w.asks[n]? = some (c, source) → Seen w c
  waiters : ∀ id waiter cfg again n, w.waiters.get? id = some waiter →
    waiter.stage = .asked cfg again n → w.asks[n]? = some (cfg, waiter.source)
  requests : ∀ n r, w.requests.get? n = some r →
    ∃ c, w.asks[n]? = some (c, r.source) ∧ c.token = r.token
  clients : ∀ n client, w.agent.service.clients.get? n = some client →
    ∃ c, w.asks[n]? = some (c, client.source) ∧ c.token = w.agent.control.token ∧
      c.generation ≤ w.agent.service.generation
  answers : ∀ n admission, w.answers.get? n = some admission → frees admission = true →
    ∃ c source, w.asks[n]? = some (c, source) ∧ FreedSince w.published w.granted source c
  entries : ∀ source entry, w.agent.service.entries.get? source = some entry →
    entry.generation ≤ w.agent.service.generation ∧
      (entry.unlimited = true → ⟨w.agent.control.token, entry.generation, source⟩ ∈ w.granted)
  granted : ∀ g ∈ w.granted, Unheld w.published g
  later : ∀ row ∈ w.published, 1 ≤ row.1.generation
  rows : ∀ generation, 1 ≤ generation → generation ≤ w.file.generation →
    ∃ row ∈ w.published, row.1.token = w.agent.control.token ∧ row.1.generation = generation
  pending : ∀ effects ∈ w.agent.publishing.effects?, (w.agent.next, effects) ∈ w.published
  effects : ∀ source managed, w.agent.effects.get? source = some (.unlimited managed) →
    (w.agent.control, w.agent.effects) ∈ w.published
  free : ∀ source state, w.client.free.get? source = some state →
    state.under = w.client.current ∧ FreedSince w.published w.granted source w.client.current
  passed : ∀ p ∈ w.passed, (p.admission = none → p.under = p.loaded) ∧
    (p.admission ≠ some .allowed → FreedSince w.published w.granted p.source p.loaded)

namespace Inv

theorem start (endpoint token : String) : Inv (World.start endpoint token) where
  token := rfl
  drawn := List.mem_cons_self
  filed := rfl
  counted := rfl
  current := ⟨List.mem_cons_of_mem _ List.mem_cons_self, fun _ => Nat.le_refl 0⟩
  asks n c source hask := by simp [World.start] at hask
  waiters id waiter cfg again n hget := by simp [World.start] at hget
  requests n r hget := by simp [World.start] at hget
  clients n client hget := by simp [World.start, Agent.new, Service.new] at hget
  answers n admission hget := by simp [World.start] at hget
  entries source entry hget := by simp [World.start, Agent.new, Service.new] at hget
  granted g hg := by simp [World.start] at hg
  later row hrow := by simp [World.start] at hrow
  rows generation hfirst hlast := absurd (Nat.le_trans hfirst hlast) (Nat.not_succ_le_zero 0)
  pending effects heffects := by simp [World.start, Agent.new, Publishing.effects?] at heffects
  effects source managed hget := by simp [World.start, Agent.new] at hget
  free source state hget := by simp [World.start, Client.new] at hget
  passed p hp := by simp [World.start] at hp

variable {w : World} (h : Inv w)

include h

/-! ### The data plane -/

theorem seen_file : Seen w w.file := ⟨h.token ▸ h.drawn, fun _ => Nat.le_refl _⟩

theorem seen_loaded : Seen w w.loaded := by
  unfold World.loaded Client.load
  by_cases hfresh : (w.client.refreshed.any fun loaded => decide (w.now - loaded < 1 / 4)) = true
  · rw [if_pos hfresh]
    exact h.current
  · rw [if_neg hfresh]
    exact h.seen_file

theorem load : Inv w.load := by
  have hclient : Seen w (w.client.load w.file w.now).1.current ∧
      ∀ source state, (w.client.load w.file w.now).1.free.get? source = some state →
        state.under = (w.client.load w.file w.now).1.current ∧
          FreedSince w.published w.granted source (w.client.load w.file w.now).1.current := by
    unfold Client.load
    by_cases hfresh : (w.client.refreshed.any fun loaded => decide (w.now - loaded < 1 / 4)) = true
    · rw [if_pos hfresh]
      exact ⟨h.current, h.free⟩
    rw [if_neg hfresh]
    refine ⟨h.seen_file, fun source state hget => ?_⟩
    dsimp only at hget ⊢
    by_cases hother : w.file ≠ w.client.current
    · rw [if_pos hother] at hget
      simp at hget
    · rw [if_neg hother] at hget
      rw [not_not] at hother
      rw [hother]
      exact h.free source state hget
  exact { h with current := hclient.1, free := hclient.2 }

theorem setWaiter (id : ℕ) {waiter : Waiter}
    (hasked : ∀ cfg again n, waiter.stage = .asked cfg again n →
      w.asks[n]? = some (cfg, waiter.source)) : Inv (w.setWaiter id waiter) := by
  refine { h with waiters := fun other found cfg again n hget hstage => ?_ }
  rcases Table.of_get?_put hget with ⟨-, rfl⟩ | ⟨-, hold⟩
  · exact hasked cfg again n hstage
  · exact h.waiters other found cfg again n hold hstage

theorem dropWaiter (id : ℕ) : Inv (w.dropWaiter id) := by
  refine { h with waiters := fun other found cfg again n hget hstage => ?_ }
  exact h.waiters other found cfg again n (Table.of_get?_deleteWhere hget) hstage

theorem pass {p : Passed} (hfree : p.admission = none → p.under = p.loaded)
    (hfreed : p.admission ≠ some .allowed → FreedSince w.published w.granted p.source p.loaded) :
    Inv (w.pass p) := by
  refine { h with passed := fun q hq => ?_ }
  rcases List.mem_cons.mp hq with rfl | hold
  · exact ⟨hfree, hfreed⟩
  · exact h.passed q hold

theorem failed (id : ℕ) (waiter : Waiter) (again canceled : Bool) :
    Inv (w.failed id waiter again canceled) := by
  unfold World.failed
  by_cases hlast : (again || canceled) = true
  · rw [if_pos hlast]
    exact h.dropWaiter id
  · rw [if_neg hlast]
    have hstale : Inv { w with client := { w.client with refreshed := none } } := { h with }
    exact hstale.setWaiter id fun cfg again n hstage => by cases hstage

theorem wait (id : ℕ) (source : String) (bytes : ℕ) : Inv (w.wait id source bytes) := by
  unfold World.wait
  split
  · exact h
  · exact h.load.setWaiter id fun cfg again n hstage => by cases hstage

theorem check (id : ℕ) (waiter : Waiter) (cfg : Control) : Inv (w.check id waiter cfg) := by
  unfold World.check
  cases hpass : w.client.freePass cfg waiter.source w.now with
  | none => exact h.setWaiter id fun cfg again n hstage => by cases hstage
  | some state =>
    have hget := (Option.filter_eq_some_iff.mp hpass).1
    obtain ⟨hunder, hfreed⟩ := h.free waiter.source state hget
    exact (h.pass (fun _ => hunder) fun _ => hfreed).dropWaiter id

theorem ask (id : ℕ) (waiter : Waiter) (again : Bool) : Inv (w.ask id waiter again) := by
  unfold World.ask
  by_cases hlong : 512 < waiter.source.utf8ByteSize
  · rw [if_pos hlong]
    exact h.failed id waiter again false
  rw [if_neg hlong]
  have hloaded := h.load
  have hold : ∀ {n : ℕ} {row : Control × String}, w.asks[n]? = some row →
      (w.asks ++ [(w.loaded, waiter.source)])[n]? = some row := by
    intro n row hrow
    rw [List.getElem?_append_left (List.getElem?_eq_some_iff.mp hrow).1]
    exact hrow
  have hnew : (w.asks ++ [(w.loaded, waiter.source)])[w.asks.length]?
      = some (w.loaded, waiter.source) := by simp
  have hasked : Inv { w.load with
      requests := w.requests.put w.asks.length ⟨w.loaded.token, waiter.source, waiter.bytes⟩
      asks := w.asks ++ [(w.loaded, waiter.source)] } := by
    refine { hloaded with
      asks := fun n c source hask => ?_
      waiters := fun other found cfg again n hget hstage =>
        hold (h.waiters other found cfg again n hget hstage)
      requests := fun n r hget => ?_
      clients := fun n client hget => ?_
      answers := fun n admission hget hfrees => ?_ }
    · rcases List.mem_append.mp (List.mem_of_getElem? hask) with hthere | hlast
      · obtain ⟨m, hm⟩ := List.getElem?_of_mem hthere
        exact h.asks m c source hm
      · cases List.mem_singleton.mp hlast
        exact h.seen_loaded
    · rcases Table.of_get?_put hget with ⟨rfl, rfl⟩ | ⟨-, hthere⟩
      · exact ⟨w.loaded, hnew, rfl⟩
      · obtain ⟨c, hask, htoken⟩ := h.requests n r hthere
        exact ⟨c, hold hask, htoken⟩
    · obtain ⟨c, hask, hc⟩ := h.clients n client hget
      exact ⟨c, hold hask, hc⟩
    · obtain ⟨c, source, hask, hc⟩ := h.answers n admission hget hfrees
      exact ⟨c, source, hold hask, hc⟩
  refine hasked.setWaiter id fun cfg again' n hstage => ?_
  cases hstage
  exact hnew

variable {admission : Admission} {request : ℕ} {client : Budget.Client}

theorem keep {cfg : Control} {source : String} (hcurrent : cfg = w.client.current)
    (hfreed : FreedSince w.published w.granted source w.client.current) :
    Inv { w with client := w.client.keep cfg source w.now admission } := by
  have hclient : (w.client.keep cfg source w.now admission).current = w.client.current ∧
      ∀ other state, (w.client.keep cfg source w.now admission).free.get? other = some state →
        state.under = w.client.current ∧
          FreedSince w.published w.granted other w.client.current := by
    unfold Client.keep
    by_cases hroom : w.client.free.rows.length < MAX_FREE
    · rw [if_pos hroom]
      refine ⟨rfl, fun other state hget => ?_⟩
      rcases Table.of_get?_put hget with ⟨rfl, rfl⟩ | ⟨-, hold⟩
      · exact ⟨hcurrent, hfreed⟩
      · exact h.free other state hold
    · rw [if_neg hroom]
      exact ⟨rfl, h.free⟩
  have hfree : ∀ other state,
      (w.client.keep cfg source w.now admission).free.get? other = some state →
        state.under = (w.client.keep cfg source w.now admission).current ∧
          FreedSince w.published w.granted other
            (w.client.keep cfg source w.now admission).current := by
    rw [hclient.1]
    exact hclient.2
  exact { h with current := hclient.1 ▸ h.current, free := hfree }

theorem receive {id : ℕ} {waiter : Waiter} {cfg : Control} {again : Bool}
    (hwaiter : w.waiters.get? id = some waiter) (hstage : waiter.stage = .asked cfg again request)
    (hanswer : w.answers.get? request = some admission)
    (htimely : frees admission = true → cfg = w.client.current) :
    Inv (w.receive id waiter cfg again admission) := by
  have hfreed : frees admission = true →
      FreedSince w.published w.granted waiter.source w.client.current := by
    intro hfrees
    obtain ⟨c, source, hask, hsince⟩ := h.answers request admission hanswer hfrees
    have hsame := hask.symm.trans (h.waiters id waiter cfg again request hwaiter hstage)
    cases hsame
    exact htimely hfrees ▸ hsince
  cases admission with
  | suspended => exact h.failed id waiter again false
  | allowed =>
    exact (h.pass (fun hnone => by cases hnone) fun hnot => absurd rfl hnot).dropWaiter id
  | open' =>
    have hpassed := h.pass (p := ⟨waiter.source, some .open', cfg, w.client.current⟩)
      (fun hnone => by cases hnone) fun _ => hfreed rfl
    exact (hpassed.keep (htimely rfl) (hfreed rfl)).dropWaiter id
  | pass =>
    have hpassed := h.pass (p := ⟨waiter.source, some .pass, cfg, w.client.current⟩)
      (fun hnone => by cases hnone) fun _ => hfreed rfl
    exact (hpassed.keep (htimely rfl) (hfreed rfl)).dropWaiter id

/-! ### The agent -/

theorem answer (hfreed : frees admission = true → ∃ c source, w.asks[request]? = some (c, source) ∧
      FreedSince w.published w.granted source c) : Inv (w.answer request admission) := by
  refine { h with answers := fun n found hget hfrees => ?_ }
  rcases Table.of_get?_put hget with ⟨rfl, rfl⟩ | ⟨-, hold⟩
  · exact hfreed hfrees
  · exact h.answers n found hold hfrees

theorem setService {service : Service} (hgeneration : service.generation = w.agent.service.generation)
    (hclients : ∀ n client, service.clients.get? n = some client →
      ∃ c, w.asks[n]? = some (c, client.source) ∧ c.token = w.agent.control.token ∧
        c.generation ≤ service.generation)
    (hentries : ∀ source entry, service.entries.get? source = some entry →
      entry.generation ≤ service.generation ∧
        (entry.unlimited = true → ⟨w.agent.control.token, entry.generation, source⟩ ∈ w.granted)) :
    Inv (w.setService service) :=
  { h with counted := hgeneration.trans h.counted, clients := hclients, entries := hentries }

theorem dropClient (request : ℕ) : Inv (w.setService (w.agent.service.dropClient request)) := by
  refine h.setService rfl (fun n client hget => ?_) h.entries
  exact h.clients n client (Table.of_get?_deleteWhere hget)

theorem setClient {client' : Budget.Client}
    (hthere : w.agent.service.clients.get? request = some client)
    (hsource : client'.source = client.source) :
    Inv (w.setService (w.agent.service.setClient request client')) := by
  refine h.setService rfl (fun n found hget => ?_) h.entries
  rcases Table.of_get?_put hget with ⟨rfl, rfl⟩ | ⟨-, hold⟩
  · rw [hsource]
    exact h.clients n client hthere
  · exact h.clients n found hold

theorem setEntry {source : String} {entry : Entry}
    (hat : entry.generation ≤ w.agent.service.generation) (hopen : entry.unlimited = true →
      ⟨w.agent.control.token, entry.generation, source⟩ ∈ w.granted) :
    Inv (w.setService (w.agent.service.setEntry source entry)) := by
  refine h.setService rfl h.clients fun other found hget => ?_
  rcases Table.of_get?_put hget with ⟨rfl, rfl⟩ | ⟨-, hold⟩
  · exact ⟨hat, hopen⟩
  · exact h.entries other found hold

theorem serve (hidle : w.agent.publishing = .idle) {r : Request}
    (hrequest : w.requests.get? request = some r) : Inv ({ w with
      requests := w.requests.deleteWhere fun other => other = request }.serve request r) := by
  have hrest : Inv { w with requests := w.requests.deleteWhere fun other => other = request } := by
    refine { h with requests := fun n found hget => ?_ }
    exact h.requests n found (Table.of_get?_deleteWhere hget)
  obtain ⟨c, hask, htoken⟩ := h.requests request r hrequest
  have hseen := (h.asks request c r.source hask).2
  have hfiled := h.filed
  have hcounted := h.counted
  rw [hidle] at hfiled hcounted
  unfold World.serve
  split
  · exact hrest
  next hvalid =>
  rw [not_or, not_not] at hvalid
  have hknown := hseen (htoken.trans hvalid.1)
  dsimp only
  cases hassigned : w.agent.assigned r.source w.now with
  | some admission =>
    refine hrest.answer fun hfrees => ?_
    obtain ⟨managed, heffect⟩ := assigned_frees hassigned hfrees
    refine ⟨c, r.source, hask, .inl ⟨_, h.effects r.source managed heffect, ?_, ?_, managed, heffect⟩⟩
    · exact (htoken.trans hvalid.1).symm
    · rw [hfiled] at hknown
      exact hknown
  | none =>
    cases hentries : w.agent.service.sourceEntry r.source w.now with
    | none => exact hrest
    | some entries =>
      refine hrest.setService rfl (fun n client hget => ?_) fun source entry hget => ?_
      · rcases Table.of_get?_put hget with ⟨rfl, rfl⟩ | ⟨-, hold⟩
        · refine ⟨c, hask, htoken.trans hvalid.1, ?_⟩
          rw [hfiled] at hknown
          exact hcounted ▸ hknown
        · exact h.clients n client hold
      · rcases Service.of_sourceEntry hentries hget with hold | hnew
        · exact h.entries source entry hold
        · rw [hnew]
          exact ⟨Nat.zero_le _, fun hopen => by cases hopen⟩

theorem done (hthere : w.agent.service.clients.get? request = some client)
    (hopen : frees admission = true →
      ⟨w.agent.control.token, w.agent.service.generation, client.source⟩ ∈ w.granted) :
    Inv (w.done request admission) := by
  refine (h.dropClient request).answer fun hfrees => ?_
  obtain ⟨c, hask, htoken, hknown⟩ := h.clients request client hthere
  exact ⟨c, client.source, hask, .inr ⟨_, hopen hfrees, htoken.symm, hknown, rfl⟩⟩

theorem round (requestId : String) (hthere : w.agent.service.clients.get? request = some client) :
    Inv (w.round request client requestId) := by
  unfold World.round
  cases hentry : w.agent.service.entries.get? client.source with
  | none => exact h
  | some entry =>
    dsimp only
    by_cases hlocked : w.agent.service.locked client.source = true
    · rw [if_pos hlocked]
      exact h
    rw [if_neg hlocked]
    have hgranted : entry.unlimited = true → entry.generation = w.agent.service.generation →
        ⟨w.agent.control.token, w.agent.service.generation, client.source⟩ ∈ w.granted := by
      intro hopen hat
      rw [← hat]
      exact (h.entries client.source entry hentry).2 hopen
    have hset : Inv (w.setService (w.agent.service.setEntry client.source
        (admitPass entry w.agent.service.generation w.now client.bytes).1)) := by
      obtain ⟨hat, hfound⟩ :=
        admitPass_entry entry w.agent.service.generation w.now client.bytes
      refine h.setEntry hat.le fun hopen => ?_
      rw [hat]
      obtain ⟨hwas, hbefore⟩ := current_open (hfound hopen)
      exact hgranted hwas hbefore
    unfold World.rounded
    cases hpass : (admitPass entry w.agent.service.generation w.now client.bytes).2 with
    | answered admission =>
      refine hset.done hthere fun hfrees => ?_
      obtain ⟨hwas, hat⟩ := current_open (admitPass_frees hpass hfrees)
      exact hgranted hwas hat
    | fetch => exact hset.setClient hthere rfl
    | wait => exact hset
    | spent amount =>
      dsimp only
      split
      · exact hset.done hthere fun hfrees => by cases hfrees
      · exact hset.setClient hthere rfl

theorem mono_granted {granted : List Granted} (hsub : w.granted ⊆ granted)
    (hunheld : ∀ g ∈ granted, Unheld w.published g) : Inv { w with granted := granted } :=
  { h with
    granted := hunheld
    answers := fun n admission hget hfrees => by
      obtain ⟨c, source, hask, hfreed⟩ := h.answers n admission hget hfrees
      exact ⟨c, source, hask, hfreed.granted_mono hsub⟩
    entries := fun source entry hget =>
      ⟨(h.entries source entry hget).1, fun hopen => hsub ((h.entries source entry hget).2 hopen)⟩
    free := fun source state hget =>
      ⟨(h.free source state hget).1, (h.free source state hget).2.granted_mono hsub⟩
    passed := fun p hp =>
      ⟨(h.passed p hp).1, fun hnot => ((h.passed p hp).2 hnot).granted_mono hsub⟩ }

theorem counted_le_filed : w.agent.service.generation ≤ w.file.generation := by
  rw [h.filed, h.counted]
  cases w.agent.publishing <;> simp [Publishing.fileAhead, Publishing.countAhead]

/-- An unlimited grant that is taken over in time is for a source that nothing holds. -/
theorem noted {source : String} {entry entry' : Entry} {started : ℚ} {remembered : Bool}
    {grant : UserBudgetGrant} (hentry : w.agent.service.entries.get? source = some entry)
    (happly : applyGrant entry started w.now remembered grant = .ok entry')
    (hheld : ∀ validMs managed, grant = .unlimited validMs managed → remembered = true →
      ¬w.HeldAt entry.generation source) :
    ∀ g ∈ w.noted entry source grant, Unheld w.published g := by
  cases grant with
  | suspended validMs => exact h.granted
  | limited bytes rateBps validMs => exact h.granted
  | retry afterMs => exact h.granted
  | unlimited validMs managed =>
    cases remembered with
    | false => cases happly
    | true =>
      intro g hg
      rcases List.mem_cons.mp hg with rfl | hold
      · intro hfirst
        obtain ⟨row, hrow, htoken, hat⟩ := h.rows entry.generation hfirst
          ((h.entries source entry hentry).1.trans h.counted_le_filed)
        exact ⟨row, hrow, htoken, hat,
          fun hholds => hheld validMs managed rfl rfl ⟨row, hrow, htoken, hat, hholds⟩⟩
      · exact h.granted g hold

theorem grant (started : ℚ) (grant : UserBudgetGrant) (remembered : Bool)
    (hthere : w.agent.service.clients.get? request = some client)
    (hheld : ∀ entry, w.agent.service.entries.get? client.source = some entry →
      ∀ validMs managed, grant = .unlimited validMs managed → remembered = true →
        ¬w.HeldAt entry.generation client.source) :
    Inv (w.grant request client started grant remembered) := by
  unfold World.grant
  cases hentry : w.agent.service.entries.get? client.source with
  | none => exact h
  | some entry =>
    dsimp only
    cases happly : applyGrant entry started w.now remembered grant with
    | error message => exact h.dropClient request
    | ok entry' =>
      dsimp only
      obtain ⟨hgeneration, hopen⟩ := applyGrant_open happly
      have hsub : w.granted ⊆ w.noted entry client.source grant := by
        cases grant with
        | unlimited validMs managed => exact List.subset_cons_self _ _
        | suspended validMs => exact List.Subset.refl _
        | limited bytes rateBps validMs => exact List.Subset.refl _
        | retry afterMs => exact List.Subset.refl _
      have hnoted : entry'.unlimited = true →
          ⟨w.agent.control.token, entry'.generation, client.source⟩
            ∈ w.noted entry client.source grant := by
        intro hunlimited
        rw [hgeneration]
        rcases hopen hunlimited with hwas | ⟨validMs, managed, rfl⟩
        · exact hsub ((h.entries client.source entry hentry).2 hwas)
        · exact List.mem_cons_self
      have hmore := h.mono_granted hsub (h.noted hentry happly (hheld entry hentry))
      have hat : entry'.generation ≤ w.agent.service.generation := by
        rw [hgeneration]
        exact (h.entries client.source entry hentry).1
      exact (hmore.setEntry hat hnoted).setClient hthere rfl

theorem publish (hidle : w.agent.publishing = .idle) (effects : OrdMap String UserTrafficEffect)
    {write : Write} (hclear : effects ≠ w.agent.effects → write.unclear = false) :
    Inv (w.publish effects write) := by
  unfold World.publish
  by_cases hsame : effects = w.agent.effects
  · rw [if_pos hsame]
    exact { h with }
  rw [if_neg hsame]
  by_cases hlast : MAX_GENERATION ≤ w.agent.control.generation
  · rw [if_pos hlast]
    exact h
  rw [if_neg hlast]
  have hfiled := h.filed
  have hcounted := h.counted
  rw [hidle] at hfiled hcounted
  cases write with
  | refused error => exact h
  | unsure error => exact absurd (hclear hsame) (by simp [Write.unclear])
  | written =>
    have hseen : ∀ {c : Control}, Seen w c → c.token ∈ w.tokens ∧ (c.token = w.agent.control.token →
          c.generation ≤ w.agent.control.generation + 1) := by
      intro c hc
      refine ⟨hc.1, fun htoken => ?_⟩
      have hle := hc.2 htoken
      rw [hfiled] at hle
      exact Nat.le_succ_of_le hle
    have hmore : ∀ row ∈ (w.agent.next, effects) :: w.published, 1 ≤ row.1.generation := by
      intro row hrow
      rcases List.mem_cons.mp hrow with rfl | hold
      · exact Nat.le_add_left 1 _
      · exact h.later row hold
    have hrows : ∀ generation, 1 ≤ generation → generation ≤ w.agent.next.generation →
        ∃ row ∈ (w.agent.next, effects) :: w.published,
          row.1.token = w.agent.control.token ∧ row.1.generation = generation := by
      intro generation hfirst hle
      rcases Nat.le_succ_iff.mp hle with hbefore | hnext
      · obtain ⟨row, hrow, hof⟩ := h.rows generation hfirst (hfiled ▸ hbefore)
        exact ⟨row, List.mem_cons_of_mem _ hrow, hof⟩
      · exact ⟨_, List.mem_cons_self, rfl, hnext.symm⟩
    exact { h with
      token := rfl
      filed := rfl
      counted := hcounted
      current := hseen h.current
      asks := fun n c source hask => hseen (h.asks n c source hask)
      answers := fun n admission hget hfrees => by
        obtain ⟨c, source, hask, hfreed⟩ := h.answers n admission hget hfrees
        exact ⟨c, source, hask, hfreed.published_cons _⟩
      granted := fun g hg hfirst => by
        obtain ⟨row, hrow, hof⟩ := h.granted g hg hfirst
        exact ⟨row, List.mem_cons_of_mem _ hrow, hof⟩
      later := hmore
      rows := hrows
      pending := fun _ heffects => by
        cases heffects
        exact List.mem_cons_self
      effects := fun source managed hget => List.mem_cons_of_mem _ (h.effects source managed hget)
      free := fun source state hget =>
        ⟨(h.free source state hget).1, (h.free source state hget).2.published_cons _⟩
      passed := fun p hp =>
        ⟨(h.passed p hp).1, fun hnot => ((h.passed p hp).2 hnot).published_cons _⟩ }

theorem count {effects : OrdMap String UserTrafficEffect}
    (hfiled : w.agent.publishing = .filed effects) : Inv { w with
      agent := { w.agent with
        publishing := .counted effects
        service := { w.agent.service with generation := w.agent.next.generation } } } := by
  have hfile := h.filed
  have hcounted := h.counted
  have hpending := h.pending
  rw [hfiled] at hfile hcounted hpending
  have hgrows : w.agent.service.generation ≤ w.agent.next.generation := by
    rw [hcounted]
    exact Nat.le_add_right _ 1
  refine { h with
    filed := hfile
    counted := rfl
    clients := fun n client hget => ?_
    entries := fun source entry hget =>
      ⟨(h.entries source entry hget).1.trans hgrows, (h.entries source entry hget).2⟩
    pending := hpending }
  obtain ⟨c, hask, htoken, hknown⟩ := h.clients n client hget
  exact ⟨c, hask, htoken, hknown.trans hgrows⟩

theorem install {effects : OrdMap String UserTrafficEffect}
    (hcounted : w.agent.publishing = .counted effects) : Inv { w with
      agent := { w.agent with
        control := w.agent.next, effects := effects, updated := some w.now, publishing := .idle } } := by
  have hfile := h.filed
  have hcount := h.counted
  have hpending := h.pending
  rw [hcounted] at hfile hcount hpending
  exact { h with
    token := h.token
    filed := hfile
    counted := hcount
    rows := h.rows
    pending := fun _ heffects => by cases heffects
    effects := fun _ _ _ => hpending effects rfl }

theorem restart {endpoint token : String} (hfresh : token ∉ w.tokens) : Inv { w with
      file := ⟨endpoint, token, 0⟩
      agent := .new endpoint token
      tokens := token :: w.tokens } := by
  have hseen : ∀ {c : Control}, Seen w c →
      c.token ∈ token :: w.tokens ∧ (c.token = token → c.generation ≤ 0) := by
    intro c hc
    refine ⟨List.mem_cons_of_mem _ hc.1, fun htoken => ?_⟩
    exact absurd (htoken ▸ hc.1) hfresh
  exact { h with
    token := rfl
    drawn := List.mem_cons_self
    filed := rfl
    counted := rfl
    current := hseen h.current
    asks := fun n c source hask => hseen (h.asks n c source hask)
    clients := fun n client hget => by simp [Agent.new, Service.new] at hget
    entries := fun source entry hget => by simp [Agent.new, Service.new] at hget
    rows := fun generation hfirst hlast =>
      absurd (Nat.le_trans hfirst hlast) (Nat.not_succ_le_zero 0)
    pending := fun _ heffects => by cases heffects
    effects := fun source managed hget => by simp [Agent.new] at hget }

/-! ### Runs -/

theorem step {event : Event} {w' : World} (htimely : Timely w event)
    (hstep : w.step event = some w') : Inv w' := by
  cases event with
  | tick elapsed =>
    unfold World.step at hstep
    dsimp only at hstep
    split at hstep
    · cases hstep
    · cases hstep
      exact { h with }
  | wait id source bytes =>
    cases hstep
    exact h.wait id source bytes
  | check id =>
    unfold World.step at hstep
    dsimp only at hstep
    split at hstep
    · split at hstep
      · cases hstep
        exact h.check id _ _
      · cases hstep
    · cases hstep
  | ask id =>
    unfold World.step at hstep
    dsimp only at hstep
    split at hstep
    · split at hstep
      · cases hstep
        exact h.ask id _ _
      · cases hstep
    · cases hstep
  | receive id =>
    unfold World.step at hstep
    dsimp only at hstep
    split at hstep
    · next waiter hwaiter =>
        split at hstep
        · next cfg again request hstage =>
            rw [Option.map_eq_some_iff] at hstep
            obtain ⟨admission, hanswer, rfl⟩ := hstep
            refine h.receive hwaiter hstage hanswer fun hfrees => ?_
            have hfor : w.answerFor id = some (cfg, admission) := by
              unfold World.answerFor
              simp [hwaiter, hstage, hanswer]
            exact htimely (cfg, admission) hfor hfrees
        · cases hstep
    · cases hstep
  | fail id canceled =>
    unfold World.step at hstep
    dsimp only at hstep
    split at hstep
    · split at hstep
      · cases hstep
      · cases hstep
        exact h.failed id _ _ _
      · cases hstep
        exact h.failed id _ _ _
    · cases hstep
  | serve request =>
    unfold World.step at hstep
    dsimp only at hstep
    split at hstep
    · next hidle =>
        rw [Option.map_eq_some_iff] at hstep
        obtain ⟨r, hrequest, rfl⟩ := hstep
        exact h.serve hidle hrequest
    · cases hstep
  | round request requestId =>
    unfold World.step at hstep
    dsimp only at hstep
    rw [Option.map_eq_some_iff] at hstep
    obtain ⟨client, hclient, rfl⟩ := hstep
    exact h.round requestId hclient
  | grant request grant remembered =>
    unfold World.step at hstep
    dsimp only at hstep
    split at hstep
    · next client hclient =>
        rw [Option.map_eq_some_iff] at hstep
        obtain ⟨fetch, -, rfl⟩ := hstep
        refine h.grant fetch.started grant remembered hclient fun entry hentry => ?_
        rintro validMs managed rfl rfl
        exact htimely client hclient entry hentry
    · cases hstep
  | drop request =>
    cases hstep
    exact h.dropClient request
  | publish effects write =>
    unfold World.step at hstep
    dsimp only at hstep
    split at hstep
    · next hidle =>
        cases hstep
        exact h.publish hidle effects htimely
    · cases hstep
  | count =>
    unfold World.step at hstep
    dsimp only at hstep
    split at hstep
    · next effects hfiled =>
        cases hstep
        exact h.count hfiled
    · cases hstep
  | install =>
    unfold World.step at hstep
    dsimp only at hstep
    split at hstep
    · next effects hcounted =>
        cases hstep
        exact h.install hcounted
    · cases hstep
  | restart endpoint token =>
    unfold World.step at hstep
    dsimp only at hstep
    split at hstep
    · cases hstep
    · next hfresh =>
        cases hstep
        exact h.restart hfresh

end Inv

/-- **In a timely run, bytes pass without a request only by an entry of the control that is loaded;
and while every set of policies from one on holds a source, its bytes pass by an OK alone once the
control of that one is loaded.** -/
theorem free_pass_current (endpoint token : String) (events : List Event) (w : World)
    (hrun : events.foldlM World.step (World.start endpoint token) = some w)
    (htimely : Steps.Meets World.step Timely events (World.start endpoint token)) :
    (∀ p ∈ w.passed, p.admission = none → p.under = p.loaded) ∧
    ∀ row ∈ w.published, ∀ source, (∀ later ∈ w.published, later.1.token = row.1.token →
        row.1.generation ≤ later.1.generation → Held later.2 source) →
      ∀ p ∈ w.passed, p.source = source → p.loaded.token = row.1.token →
        row.1.generation ≤ p.loaded.generation → p.admission = some .allowed := by
  have hinv : Inv w :=
    htimely.keeps (P := Inv) (fun _ _ _ h => Inv.step h) (Inv.start endpoint token) hrun
  refine ⟨fun p hp => (hinv.passed p hp).1, fun row hrow source hheld p hp hsource htoken hat => ?_⟩
  by_contra hnot
  rcases (hinv.passed p hp).2 hnot with ⟨later, hlater, hlaterToken, hlaterAt, managed, hopen⟩
    | ⟨g, hg, hgToken, hgAt, hgSource⟩
  · have hholds := hheld later hlater (hlaterToken.trans htoken) (hat.trans hlaterAt)
    rw [← hsource, Held, hopen] at hholds
    cases hholds
  · -- the grant's generation has policies of its own, and these hold the source
    obtain ⟨later, hlater, hlaterToken, hlaterAt, hunheld⟩ :=
      hinv.granted g hg ((hinv.later row hrow).trans (hat.trans hgAt))
    rw [hgSource, hsource] at hunheld
    exact hunheld (hheld later hlater (hlaterToken.trans (hgToken.trans htoken))
      (hlaterAt ▸ hat.trans hgAt))

/-- A source is limited. -/
def limitation : OrdMap String UserTrafficEffect := .ofList [("a#b@c", .limited 1000000)]

/-- A source that was granted all it asks for is limited later, and asks again. -/
def limitedLater : List Event :=
  [.wait 0 "a#b@c" 1000, .check 0, .ask 0, .serve 0, .round 0 "r",
    .grant 0 (.unlimited 1000 false) true, .round 0 "r", .receive 0, .wait 1 "a#b@c" 1000, .check 1,
    .publish limitation .written, .count, .install, .tick 1,
    .wait 2 "a#b@c" 1000, .check 2, .ask 2, .serve 1, .round 1 "r",
    .grant 1 (.limited 10000 1000000 1000) true, .round 1 "r", .receive 2]

theorem free_pass_current_limitedLater :
    ∃ w, limitedLater.foldlM World.step (World.start "127.0.0.1:1" "t") = some w ∧
      (∃ p ∈ w.passed, p.admission = none ∧ p.under = p.loaded) ∧
      ∃ p ∈ w.passed, p.loaded = ⟨"127.0.0.1:1", "t", 1⟩ ∧ p.admission = some .allowed := by
  have hruns : (limitedLater.foldlM World.step (World.start "127.0.0.1:1" "t")).any (fun w =>
      w.passed.any (fun p => decide (p.admission = none)) &&
      w.passed.any (fun p => decide (p.source = "a#b@c" ∧ p.loaded = ⟨"127.0.0.1:1", "t", 1⟩)) &&
      decide (w.published = [(⟨"127.0.0.1:1", "t", 1⟩, limitation)])) = true := by decide +kernel
  have htimely : Steps.Meets World.step Timely limitedLater (World.start "127.0.0.1:1" "t") := by
    decide +kernel
  obtain ⟨w, hrun, hends⟩ := (Option.any_eq_true _ _).mp hruns
  simp only [Bool.and_eq_true, List.any_eq_true, decide_eq_true_eq] at hends
  obtain ⟨⟨⟨p, hp, hfree⟩, q, hq, hsource, hloaded⟩, hpublished⟩ := hends
  have hresult := free_pass_current "127.0.0.1:1" "t" limitedLater w hrun htimely
  refine ⟨w, hrun, ⟨p, hp, hfree, hresult.1 p hp hfree⟩, q, hq, hloaded, ?_⟩
  have hheld : ∀ later ∈ w.published, Held later.2 "a#b@c" := by
    rw [hpublished]
    decide +kernel
  refine hresult.2 (⟨"127.0.0.1:1", "t", 1⟩, limitation) (hpublished ▸ List.mem_cons_self) "a#b@c"
    (fun later hlater _ _ => hheld later hlater) q hq hsource ?_ ?_
  · rw [hloaded]
  · rw [hloaded]

/-- The old agent's PASS comes once the control of the new one is loaded; both are of generation
0. -/
def latePass : List Event :=
  [.wait 0 "a#b@c" 1000, .check 0, .ask 0, .serve 0, .round 0 "r",
    .grant 0 (.unlimited 1000 false) true, .round 0 "r", .restart "127.0.0.1:2" "u", .tick 1,
    .wait 1 "a#b@c" 1000, .receive 0, .check 1]

/-- The file is of the next generation while the policies are still the old ones, and once more
when they are replaced. -/
def unclearWrite : List Event :=
  [.publish (.ofList [("a#b@c", .unlimited false)]) .written, .count, .install,
    .publish (.ofList [("a#b@c", .suspended)]) (.unsure "sync"),
    .wait 0 "a#b@c" 1000, .check 0, .ask 0, .serve 0, .receive 0,
    .publish (.ofList [("a#b@c", .suspended)]) .written, .count, .install, .tick 1,
    .wait 1 "a#b@c" 1000, .check 1]

/-- The policies limit a source, and a grant opens the way for it. -/
def limitedButOpen : List Event :=
  [.publish limitation .written, .count, .install, .wait 0 "a#b@c" 1000, .check 0, .ask 0, .serve 0,
    .round 0 "r", .grant 0 (.unlimited 1000 false) true, .round 0 "r", .receive 0,
    .wait 1 "a#b@c" 1000, .check 1]

/-- **A late PASS of another control lets bytes through without a request; and a write that fails
after it takes effect, or a grant, lets bytes of a source that is held through.** -/
theorem late_pass_kept : (∃ w, latePass.foldlM World.step (World.start "127.0.0.1:1" "t") = some w ∧
      ∃ p ∈ w.passed, p.admission = none ∧ p.under = ⟨"127.0.0.1:1", "t", 0⟩ ∧
        p.loaded = ⟨"127.0.0.1:2", "u", 0⟩) ∧
    ∀ events ∈ [unclearWrite, limitedButOpen],
      ∃ w, events.foldlM World.step (World.start "127.0.0.1:1" "t") = some w ∧
        ∃ p ∈ w.passed, p.admission = none ∧
          ∃ row ∈ w.published, row.1 = p.loaded ∧ Held row.2 p.source := by
  constructor
  · have hruns : (latePass.foldlM World.step (World.start "127.0.0.1:1" "t")).any (fun w =>
        decide (∃ p ∈ w.passed, p.admission = none ∧ p.under = ⟨"127.0.0.1:1", "t", 0⟩ ∧
          p.loaded = ⟨"127.0.0.1:2", "u", 0⟩)) = true := by decide +kernel
    obtain ⟨w, hrun, hends⟩ := (Option.any_eq_true _ _).mp hruns
    exact ⟨w, hrun, of_decide_eq_true hends⟩
  · intro events hevents
    have hruns : ∀ events ∈ [unclearWrite, limitedButOpen],
        (events.foldlM World.step (World.start "127.0.0.1:1" "t")).any (fun w =>
          decide (∃ p ∈ w.passed, p.admission = none ∧
            ∃ row ∈ w.published, row.1 = p.loaded ∧ Held row.2 p.source)) = true := by
      decide +kernel
    obtain ⟨w, hrun, hends⟩ := (Option.any_eq_true _ _).mp (hruns events hevents)
    exact ⟨w, hrun, of_decide_eq_true hends⟩

end Brocade.UserLimit
