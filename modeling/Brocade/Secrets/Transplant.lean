/-
Sealed values stay where they were sealed.

Opening a document opens every sealed value in it under the context of its place.  Two places have
different contexts, as long as the ids in them have no slash: a context ends in them, and begins
with the kind of secret.  So a value that was moved does not open, and the document neither.
-/
import Mathlib.Data.String.Basic
import Brocade.Secrets.Snapshot

namespace Brocade.Secrets

open Json

/-! ### Contexts -/

section Contexts

/-- The ids of the place have no slash; a tenant may have some. -/
def Slot.Plain : Slot → Prop
  | .credential _ id => '/' ∉ id.toList
  | .options _ id => '/' ∉ id.toList
  | .bindingKey _ id node => '/' ∉ id.toList ∧ '/' ∉ node.toList

instance (slot : Slot) : Decidable slot.Plain := by
  cases slot <;> unfold Slot.Plain <;> infer_instance

theorem last_split {c : Char} {a a' b b' : List Char} (hb : c ∉ b) (hb' : c ∉ b')
    (h : a ++ c :: b = a' ++ c :: b') : a = a' ∧ b = b' := by
  rcases List.append_eq_append_iff.mp h with ⟨m, ha', hm⟩ | ⟨m, ha, hm⟩
  · cases m with
    | nil =>
      simp only [List.append_nil, List.nil_append, List.cons.injEq, true_and] at ha' hm
      exact ⟨ha'.symm, hm⟩
    | cons d m =>
      rw [List.cons_append] at hm
      injection hm with _ hm
      exact absurd (hm ▸ List.mem_append_right m List.mem_cons_self) hb
  · cases m with
    | nil =>
      simp only [List.append_nil, List.nil_append, List.cons.injEq, true_and] at ha hm
      exact ⟨ha, hm.symm⟩
    | cons d m =>
      rw [List.cons_append] at hm
      injection hm with _ hm
      exact absurd (hm ▸ List.mem_append_right m List.mem_cons_self) hb'

theorem pair_split {tenant tenant' id id' : String} (hid : '/' ∉ id.toList)
    (hid' : '/' ∉ id'.toList)
    (h : tenant.toList ++ '/' :: id.toList = tenant'.toList ++ '/' :: id'.toList) :
    tenant = tenant' ∧ id = id' := by
  obtain ⟨htenant, hid⟩ := last_split hid hid' h
  exact ⟨String.toList_injective htenant, String.toList_injective hid⟩

theorem credentialContext_toList (tenant id : String) : (Slot.credential tenant id).context.toList
      = "external-outbound".toList ++ ':' :: (tenant.toList ++ '/' :: id.toList) := by
  show ("external-outbound:" ++ tenant ++ "/" ++ id).toList = _
  have hkind : "external-outbound:".toList = "external-outbound".toList ++ [':'] := rfl
  have hslash : "/".toList = ['/'] := rfl
  simp only [String.toList_append, hkind, hslash, List.append_assoc, List.cons_append,
    List.nil_append]

theorem optionsContext_toList (tenant id : String) :
    (Slot.options tenant id).context.toList = "external-outbound".toList
      ++ '-' :: ("options:".toList ++ (tenant.toList ++ '/' :: id.toList)) := by
  show ("external-outbound-options:" ++ tenant ++ "/" ++ id).toList = _
  have hkind : "external-outbound-options:".toList
      = "external-outbound".toList ++ '-' :: "options:".toList := rfl
  have hslash : "/".toList = ['/'] := rfl
  simp only [String.toList_append, hkind, hslash, List.append_assoc, List.cons_append,
    List.nil_append]

theorem bindingKeyContext_toList (tenant id node : String) :
    (Slot.bindingKey tenant id node).context.toList = "external-outbound".toList
      ++ '-' :: ("binding-key:".toList
        ++ ((tenant.toList ++ '/' :: id.toList) ++ '/' :: node.toList)) := by
  show ("external-outbound-binding-key:" ++ tenant ++ "/" ++ id ++ "/" ++ node).toList = _
  have hkind : "external-outbound-binding-key:".toList
      = "external-outbound".toList ++ '-' :: "binding-key:".toList := rfl
  have hslash : "/".toList = ['/'] := rfl
  simp only [String.toList_append, hkind, hslash, List.append_assoc, List.cons_append,
    List.nil_append]

theorem kinds_differ {c c' : Char} {stem a b : List Char} (hne : c ≠ c')
    (h : stem ++ c :: a = stem ++ c' :: b) : False :=
  hne (List.cons.inj (List.append_cancel_left h)).1

theorem options_bindingKey_differ {stem a b : List Char}
    (h : stem ++ '-' :: ("options:".toList ++ a) = stem ++ '-' :: ("binding-key:".toList ++ b)) :
    False := by
  have hkinds : 'o' :: ("ptions:".toList ++ a) = 'b' :: ("inding-key:".toList ++ b) :=
    (List.cons.inj (List.append_cancel_left h)).2
  exact absurd (List.cons.inj hkinds).1 (by decide)

/-- **Different places have different contexts.** -/
theorem context_injective {x y : Slot} (hx : x.Plain) (hy : y.Plain)
    (h : x.context = y.context) : x = y := by
  have hlist := congrArg String.toList h
  cases x with
  | credential tenant id =>
    rw [credentialContext_toList] at hlist
    cases y with
    | credential tenant' id' =>
      rw [credentialContext_toList] at hlist
      have hpair := (List.cons.inj (List.append_cancel_left hlist)).2
      obtain ⟨htenant, hid⟩ := pair_split hx hy hpair
      rw [htenant, hid]
    | options _ _ =>
      rw [optionsContext_toList] at hlist
      exact (kinds_differ (by decide) hlist).elim
    | bindingKey _ _ _ =>
      rw [bindingKeyContext_toList] at hlist
      exact (kinds_differ (by decide) hlist).elim
  | options tenant id =>
    rw [optionsContext_toList] at hlist
    cases y with
    | credential _ _ =>
      rw [credentialContext_toList] at hlist
      exact (kinds_differ (by decide) hlist).elim
    | options tenant' id' =>
      rw [optionsContext_toList] at hlist
      have hpair := (List.cons.inj (List.append_cancel_left hlist)).2
      obtain ⟨htenant, hid⟩ := pair_split hx hy (List.append_cancel_left hpair)
      rw [htenant, hid]
    | bindingKey _ _ _ =>
      rw [bindingKeyContext_toList] at hlist
      exact (options_bindingKey_differ hlist).elim
  | bindingKey tenant id node =>
    rw [bindingKeyContext_toList] at hlist
    cases y with
    | credential _ _ =>
      rw [credentialContext_toList] at hlist
      exact (kinds_differ (by decide) hlist).elim
    | options _ _ =>
      rw [optionsContext_toList] at hlist
      exact (options_bindingKey_differ hlist.symm).elim
    | bindingKey tenant' id' node' =>
      rw [bindingKeyContext_toList] at hlist
      have hids := (List.cons.inj (List.append_cancel_left hlist)).2
      obtain ⟨hpair, hnode⟩ := last_split hx.2 hy.2 (List.append_cancel_left hids)
      obtain ⟨htenant, hid⟩ := pair_split hx.1 hy.1 hpair
      rw [htenant, hid, String.toList_injective hnode]

end Contexts

/-- **A sealed value that was moved keeps its document shut.** -/
theorem moved_refused {aead : Aead} {text : JsonText} {x y : Slot} (hx : x.Plain) (hy : y.Plain)
    (hne : x ≠ y) {snapshot : Value} {sealed : String} (hsealed : SealedAt aead (y, sealed))
    (h : (x, sealed) ∈ slots snapshot) (n : ℕ) :
    ∃ message, openSnapshotExternalCredentials aead text snapshot n = .error message := by
  cases hopen : openSnapshotExternalCredentials aead text snapshot n with
  | error message => exact ⟨message, rfl⟩
  | ok opened =>
    obtain ⟨plaintext, hplaintext⟩ := open_slots hopen (x, sealed) h
    obtain ⟨number, plain, hplain⟩ := hsealed
    have hcontexts : x.context ≠ y.context := fun heq => hne (context_injective hx hy heq)
    have hrefused := aead.refuses number plain hcontexts
    dsimp only at hplaintext hplain
    rw [hplain, hrefused] at hplaintext
    exact absurd hplaintext nofun

/-! ### Snapshots -/

/-- The options of the VLESS outbounds read back from the text they are sealed as. -/
def ModelSnapshot.ReadsBack (text : JsonText) (s : ModelSnapshot) : Prop :=
  ∀ o ∈ s.externalOutbounds, o.protocol.tag = "vless" →
    text.parse (text.print o.protocol.options) = .ok o.protocol.options

theorem ModelSnapshot.readable {aead : Aead} {text : JsonText} {s : ModelSnapshot}
    (hread : s.ReadsBack text) {sealed : Value} (h : Related (Sealed aead text) s.document sealed) :
    Related (fun o o' => Readable text o ∧ Sealed aead text o o') s.document sealed := by
  rcases h with hnone | ⟨outbounds, outbounds', hget, hall, hsealed⟩
  · exact Or.inl hnone
  · refine Or.inr ⟨outbounds, outbounds', hget, ?_, hsealed⟩
    rw [s.get?_outbounds] at hget
    cases hget
    refine (List.forall₂_and_left _ _).mpr ⟨?_, hall⟩
    intro v hv
    obtain ⟨o, ho, rfl⟩ := List.mem_map.mp hv
    intro body htag hbody
    rw [o.wellFormed.tag_eq] at htag
    cases o.wellFormed.body_eq.symm.trans hbody
    rw [o.protocol.erase_credential]
    exact hread o ho (Option.some.inj htag)

/-- **A snapshot is sealed, opens to what it was, shows none of its secrets, and none of its sealed
values opens anywhere else; and what was sealed before the options were opens too.** -/
theorem sealed_snapshots (aead : Aead) (text : JsonText) (s : ModelSnapshot) (n : ℕ) :
    (∃ sealed m, sealSnapshotExternalCredentials aead text s.document n = .ok (sealed, m)
      ∧ (s.ReadsBack text → ∀ k, ∃ l,
          openSnapshotExternalCredentials aead text sealed k = .ok (s.document, l))
      ∧ (∀ e ∈ slots sealed, SealedAt aead e)
      ∧ (∀ (s' : ModelSnapshot) n' sealed' m', s'.redact = s.redact →
          sealSnapshotExternalCredentials aead text s'.document n' = .ok (sealed', m') →
          blank sealed' = blank sealed)
      ∧ ∀ e ∈ slots sealed, ∀ x, x ≠ e.1 → x.Plain → e.1.Plain →
          ∀ v, (x, e.2) ∈ slots v → ∀ k, ∃ message,
            openSnapshotExternalCredentials aead text v k = .error message)
    ∧ ∃ legacy m, transformSnapshotExternalCredentials (sealText aead) s.document n
          = .ok (legacy, m)
        ∧ ∀ k, ∃ l, openSnapshotExternalCredentials aead text legacy k = .ok (s.document, l) := by
  obtain ⟨sealed, m, hseal, hsealed⟩ := seal_sealed aead text s.wellFormed n
  obtain ⟨legacy, m', htransform, hlegacy⟩ := seal_halfSealed aead s.wellFormed n
  have hslots := slots_sealed hsealed
  refine ⟨⟨sealed, m, hseal, ?_, hslots, ?_, ?_⟩, legacy, m', htransform, ?_⟩
  · intro hread k
    exact open_sealed s.ordered (s.readable hread hsealed) k
  · intro s' n' sealed' l hredact hseal'
    obtain ⟨again, l', hagain, hsealed'⟩ := seal_sealed aead text s'.wellFormed n'
    rw [hseal'] at hagain
    cases hagain
    rw [s'.blank_sealed hsealed', s.blank_sealed hsealed, ← s'.veiled_redact, hredact,
      s.veiled_redact]
  · intro e he x hne hx hy v hv k
    exact moved_refused hx hy hne (hslots e he) hv k
  · exact fun k => open_halfSealed s.ordered hlegacy k

section Labelled

/-- The label of a text sealed openly: its number and the length of its context in strokes, and the
context. -/
def label (number : ℕ) (context : String) : List Char :=
  List.replicate number 'n' ++ '.' :: (List.replicate context.length 'c' ++ '.' :: context.toList)

/-- The context and the text that a labelled one holds. -/
def unlabel (chars : List Char) : Option (List Char × List Char) :=
  match chars.dropWhile (· = 'n') with
  | _ :: chars =>
    match chars.dropWhile (· = 'c') with
    | _ :: rest =>
      let length := (chars.takeWhile (· = 'c')).length
      some (rest.take length, rest.drop length)
    | [] => none
  | [] => none

theorem unlabel_label (number : ℕ) (context : String) (text : List Char) :
    unlabel (label number context ++ text) = some (context.toList, text) := by
  have hn : (label number context ++ text).dropWhile (· = 'n')
      = '.' :: (List.replicate context.length 'c' ++ '.' :: (context.toList ++ text)) := by
    rw [label, List.append_assoc, List.dropWhile_append_of_pos (by simp +contextual)]
    simp
  have hc : (List.replicate context.length 'c' ++ '.' :: (context.toList ++ text)).dropWhile
      (· = 'c') = '.' :: (context.toList ++ text) := by
    rw [List.dropWhile_append_of_pos (by simp +contextual)]
    rfl
  have hlength : (List.replicate context.length 'c' ++ '.' :: (context.toList ++ text)).takeWhile
      (· = 'c') = List.replicate context.length 'c' := by
    rw [List.takeWhile_append_of_pos (by simp +contextual)]
    simp
  simp only [unlabel, hn, hc, hlength, List.length_replicate]
  rw [← String.length_toList, List.take_left, List.drop_left]

/-- Sealing that hides nothing, and opens under the context on the label. -/
def labelled : Aead where
  seal_ number context text := String.ofList (label number context ++ text.toList)
  open_ context sealed :=
    match unlabel sealed.toList with
    | some (label, text) => if label = context.toList then some (String.ofList text) else none
    | none => none
  opens := by
    intro number context text
    rw [String.toList_ofList, unlabel_label]
    simp
  bound := by
    intro number context text other text' h
    rw [String.toList_ofList, unlabel_label] at h
    dsimp only at h
    split at h
    · next heq => exact String.toList_injective heq.symm
    · exact absurd h nofun

end Labelled

section Examples

/-- The text of the only options there are. -/
def plainText : JsonText where
  print _ := "\x7b\"encryption\":\"none\",\"flow\":null,\"transport\":\x7b\"t\":\"raw\"\x7d\x7d"
  parse text :=
    if text.startsWith "\x7b\"encryption\":\"none\"" then
      .ok [("encryption", .str "none"), ("flow", .null), ("transport", .obj [("t", .str "raw")])]
    else .error "expected value at line 1 column 1"

/-- A snapshot of one outbound. -/
def single (tenant id : String) (protocol : ExternalOutboundProtocol) : ModelSnapshot where
  rest := []
  externalOutbounds := [{
    id := id
    tenant := tenant
    name := "exit"
    address := "exit.example"
    port := 443
    protocol := protocol
    security := .obj [("t", .str "none")]
    targetStrategy := none
    bindings := [] }]

theorem sealed_snapshots_vless : ∃ sealed m, sealSnapshotExternalCredentials labelled plainText
          (single "a/b" "custom-0000-0001"
            (.vless "hunter2" "none" none (.obj [("t", .str "raw")]) none)).document 0
        = .ok (sealed, m)
      ∧ (∃ l, openSnapshotExternalCredentials labelled plainText sealed 0
          = .ok ((single "a/b" "custom-0000-0001"
              (.vless "hunter2" "none" none (.obj [("t", .str "raw")]) none)).document, l))
      ∧ ∃ message, openSnapshotExternalCredentials labelled plainText
          (single "a" "custom-0000-0002" (.anytls (labelled.seal_ 1
            "external-outbound:a/b/custom-0000-0001" "hunter2"))).document 0
        = .error message := by
  obtain ⟨⟨sealed, m, hseal, hopen, _, _, hmoved⟩, _⟩ := sealed_snapshots labelled plainText
    (single "a/b" "custom-0000-0001" (.vless "hunter2" "none" none (.obj [("t", .str "raw")]) none))
    0
  have hread : (single "a/b" "custom-0000-0001"
      (.vless "hunter2" "none" none (.obj [("t", .str "raw")]) none)).ReadsBack plainText := by
    intro o ho _
    rw [List.mem_singleton.mp ho]
    decide +kernel
  have hslots : (sealSnapshotExternalCredentials labelled plainText (single "a/b" "custom-0000-0001"
        (.vless "hunter2" "none" none (.obj [("t", .str "raw")]) none)).document 0).map
        (fun r => decide ((Slot.credential "a/b" "custom-0000-0001",
          labelled.seal_ 1 "external-outbound:a/b/custom-0000-0001" "hunter2") ∈ slots r.1))
      = .ok true := by
    decide +kernel
  rw [hseal] at hslots
  have hslot := of_decide_eq_true (Except.ok.inj hslots)
  refine ⟨sealed, m, hseal, hopen hread 0, ?_⟩
  exact hmoved _ hslot (.credential "a" "custom-0000-0002") (by decide) (by decide) (by decide) _
    (by decide +kernel) 0

/-- A slash in an id may move from the tenant to it, and a sealed value with it. -/
theorem slash_moves : sealSnapshotExternalCredentials labelled plainText
        (single "a" "b/c" (.anytls "hunter2")).document 0
      = .ok ((single "a" "b/c"
          (.anytls (labelled.seal_ 0 "external-outbound:a/b/c" "hunter2"))).document, 1)
    ∧ openSnapshotExternalCredentials labelled plainText (single "a/b" "c"
          (.anytls (labelled.seal_ 0 "external-outbound:a/b/c" "hunter2"))).document 0
      = .ok ((single "a/b" "c" (.anytls "hunter2")).document, 0) := by
  decide +kernel

end Examples

end Brocade.Secrets
