import EnjiGuard.AuthSession.Store.RoundTrip

/-!
# Which records the journal reader accepts

The writers build a state and a recovery budget, the reader checks how they agree. `Consistent`
spells the reader's relation out, and the two theorems at the end say that it is exact: for a
record that was written, and for whatever a current journal file is read as.
-/

namespace EnjiGuard.AuthSession

open Foundation

/-- What the reader demands of a recovery budget, given the state it belongs to. -/
structure Consistent (state : JournalState) (attempt : RotationAttempt) : Prop where
  owner : attempt.ownerPresent = true → state.terminal? = none
  scheduled : ∀ lane, attempt.continuation = some (.lane lane) →
    (∃ source reason, state = .terminal (.outcomeUnknown source reason)) ∧
      validRecoveryWindow attempt.nextAttemptAt attempt.recoveryDeadline = .ok true ∧
      attempt.stopReason = none
  stopped : attempt.continuation = some .stop →
    (∃ t, state = .terminal t ∧ state.successor? = none) ∧ attempt.nextAttemptAt = none ∧
      attempt.stopReason.getD "" ≠ ""
  idle : attempt.continuation = none → attempt.nextAttemptAt = none ∧ attempt.stopReason = none

/-- A record the reader accepts as it was written. -/
structure Accepted (state : JournalState) (attempt : RotationAttempt) : Prop where
  named : state.sourceRevision ≠ ""
  valid : rotationAttemptIsValid attempt = true
  consistent : Consistent state attempt

variable {state : JournalState} {attempt : RotationAttempt}

lemma ne_none_of_validRecoveryWindow {notBefore deadline : Option String}
    (h : validRecoveryWindow notBefore deadline = .ok true) :
    notBefore ≠ none ∧ deadline ≠ none := by
  cases notBefore <;> cases deadline <;> simp_all [validRecoveryWindow]

section Check

variable (state attempt)

/-- The check of a scheduled attempt. -/
lemma attemptStateError_lane {lane : RecoveryLane}
    (hlane : attempt.continuation = some (.lane lane)) :
    attemptStateError (.str state.name) attempt = .ok none ↔
      (attempt.ownerPresent = true → state.terminal? = none) ∧
        (∃ source reason, state = .terminal (.outcomeUnknown source reason)) ∧
        validRecoveryWindow attempt.nextAttemptAt attempt.recoveryDeadline = .ok true ∧
        attempt.stopReason = none := by
  have hsome := @ne_none_of_validRecoveryWindow attempt.nextAttemptAt attempt.recoveryDeadline
  rcases hwindow : validRecoveryWindow attempt.nextAttemptAt attempt.recoveryDeadline with
      e | _ | _ <;>
    rcases howner : attempt.ownerPresent <;> rcases state with _ | _ | ⟨_ | _ | _⟩ <;>
    simp [attemptStateError, howner, hlane, hwindow, RotationAttempt.scheduled, JournalState.name,
      rawMemberOf, Json.memberOf, Json.equalsStr, bind, Except.bind, pure, Except.pure, Except.map,
      JournalState.terminal?]
  · split_ifs <;> simp
  · split_ifs <;> simp
  · obtain ⟨hnext, hdeadline⟩ := hsome hwindow
    simp [hnext, hdeadline]

/-- The check of a stopped attempt. -/
lemma attemptStateError_stop (hstop : attempt.continuation = some .stop) :
    attemptStateError (.str state.name) attempt = .ok none ↔
      (attempt.ownerPresent = true → state.terminal? = none) ∧
        (∃ t, state = .terminal t ∧ state.successor? = none) ∧ attempt.nextAttemptAt = none ∧
        attempt.stopReason.getD "" ≠ "" := by
  rcases howner : attempt.ownerPresent <;> rcases state with _ | _ | ⟨_ | _ | _⟩ <;>
    simp [attemptStateError, howner, hstop, RotationAttempt.scheduled, JournalState.name,
      rawMemberOf, Json.memberOf, bind, Except.bind, pure, Except.pure, Except.map,
      JournalState.terminal?, JournalState.successor?]

/-- The check of an attempt without a continuation. -/
lemma attemptStateError_none (hnone : attempt.continuation = none) :
    attemptStateError (.str state.name) attempt = .ok none ↔
      (attempt.ownerPresent = true → state.terminal? = none) ∧
        attempt.nextAttemptAt = none ∧ attempt.stopReason = none := by
  rcases howner : attempt.ownerPresent <;> rcases state with _ | _ | ⟨_ | _ | _⟩ <;>
    simp [attemptStateError, howner, hnone, RotationAttempt.scheduled, JournalState.name,
      rawMemberOf, Json.memberOf, bind, Except.bind, pure, Except.pure, Except.map,
      JournalState.terminal?]

end Check

/-- The cross-field check of the reader is the relation `Consistent`. -/
theorem attemptStateError_eq_none_iff :
    attemptStateError (.str state.name) attempt = .ok none ↔ Consistent state attempt := by
  rcases hcontinuation : attempt.continuation with _ | lane | _
  · rw [attemptStateError_none state attempt hcontinuation]
    constructor
    · intro ⟨howner, hidle⟩
      exact ⟨howner, by simp [hcontinuation], by simp [hcontinuation], fun _ => hidle⟩
    · intro h
      exact ⟨h.owner, h.idle hcontinuation⟩
  · rw [attemptStateError_lane state attempt hcontinuation]
    constructor
    · intro ⟨howner, hscheduled⟩
      exact ⟨howner, fun _ _ => hscheduled, by simp [hcontinuation], by simp [hcontinuation]⟩
    · intro h
      exact ⟨h.owner, h.scheduled lane hcontinuation⟩
  · rw [attemptStateError_stop state attempt hcontinuation]
    constructor
    · intro ⟨howner, hstopped⟩
      exact ⟨howner, by simp [hcontinuation], fun _ => hstopped, by simp [hcontinuation]⟩
    · intro h
      exact ⟨h.owner, h.stopped hcontinuation⟩

/-! ### Records that were written -/

/-- A written record that is read back at all is accepted. -/
lemma accepted_of_parseJournal_journalPayload {state' : JournalState} {attempt' : RotationAttempt}
    {enqueued enqueued' : Bool} {migrated : Option Nat}
    (h : parseJournal (journalPayload state enqueued (some attempt)) =
      .ok (.loaded state' enqueued' attempt' migrated)) : Accepted state attempt := by
  rw [parseJournal_journalPayload] at h
  by_cases hsource : state.sourceRevision = ""
  · simp [hsource] at h
  · by_cases hvalid : rotationAttemptIsValid attempt = true
    · refine ⟨hsource, hvalid, attemptStateError_eq_none_iff.1 ?_⟩
      simp only [hsource, hvalid, if_false, Bool.true_eq_false] at h
      rcases hcheck : attemptStateError (.str state.name) attempt with e | ⟨_ | detail⟩ <;>
        simp_all [Except.map]
    · simp [hsource, hvalid] at h

/-- A written record is read back as it was written exactly when it is accepted. -/
theorem parseJournal_journalPayload_iff {enqueued : Bool} :
    parseJournal (journalPayload state enqueued (some attempt)) =
        .ok (.loaded state (state.terminal?.isSome && enqueued) attempt none) ↔
      Accepted state attempt := by
  constructor
  · exact accepted_of_parseJournal_journalPayload
  · intro h
    rw [parseJournal_journalPayload, if_neg h.named, if_neg (by simp [h.valid]),
      attemptStateError_eq_none_iff.2 h.consistent]
    rfl

/-! ### Records of any journal file -/

/-- The state a set of fields stands for has the name and the source the fields give. -/
lemma name_of_journalState {fields : JournalFields} (h : journalState fields = some state) :
    fields.rawState = .str state.name ∧ fields.sourceRevision = state.sourceRevision := by
  unfold journalState at h
  simp only at h
  split at h
  · cases h; simp_all [JournalState.name, JournalState.sourceRevision]
  · cases h; simp_all [JournalState.name, JournalState.sourceRevision]
  all_goals first
    | cases h
    | split_ifs at h
      cases h
      simp_all [JournalState.name, JournalState.sourceRevision, TerminalState.sourceRevision]

/-- Fields without an error name their source. -/
lemma named_of_journalScalarFieldError {payload : List (String × Json)}
    (h : journalScalarFieldError payload = none) :
    (Json.lookup "source_revision" payload).str?.getD "" ≠ "" := by
  unfold journalScalarFieldError at h
  split_ifs at h with hsource
  exact hsource

/-- A budget that is read is valid. -/
lemma valid_of_parseRotationAttempt {payload : List (String × Json)}
    (h : parseRotationAttempt payload = some attempt) : rotationAttemptIsValid attempt = true := by
  simp only [parseRotationAttempt, bind, Option.bind_eq_some_iff] at h
  obtain ⟨_, -, _, -, _, -, _, -, _, -, _, -, _, -, _, -, _, -, _, -, h⟩ := h
  split_ifs at h with hvalid
  cases h
  exact hvalid

/-- Fields that passed the validation: the budget is valid and agrees with the raw state. -/
lemma spec_of_journalFields {payload : List (String × Json)} {fields : JournalFields}
    (h : journalFields payload = .ok (.ok fields)) :
    fields.sourceRevision ≠ "" ∧ rotationAttemptIsValid fields.attempt = true ∧
      attemptStateError fields.rawState fields.attempt = .ok none := by
  simp only [journalFields, journalFieldError, bind, Except.bind, pure, Except.pure] at h
  rcases hscalar : journalScalarFieldError payload with _ | detail
  · rcases hattempt : parseRotationAttempt payload with _ | attempt
    · simp [hscalar, hattempt] at h
    · rcases hcheck : attemptStateError (Json.lookup "state" payload) attempt with e | _ | detail
      · simp [hscalar, hattempt, hcheck] at h
      · simp only [hscalar, hattempt, hcheck] at h
        have hnamed := named_of_journalScalarFieldError hscalar
        have hvalid := valid_of_parseRotationAttempt hattempt
        split at h
        · cases h
        · split at h
          · cases h
            simp_all
          · cases h
      · simp [hscalar, hattempt, hcheck] at h
  · simp [hscalar] at h

/-- A record of the previous schema, as it is migrated. -/
inductive Migrated : JournalState → RotationAttempt → Prop
  | reserved (source : String) :
      Migrated (.reserved source) (v2Attempt source (.str "RESERVED"))
  | requested (source : String) :
      Migrated (.terminal (.outcomeUnknown source "v2 in-flight refresh outcome is unknown"))
        (v2Attempt source (.str "REQUESTED"))
  | terminal (t : TerminalState) :
      Migrated (.terminal t) (v2Attempt t.sourceRevision (.str (JournalState.terminal t).name))

/-- A state of the previous schema is migrated. -/
lemma migrated_of_parseV2State {payload : List (String × Json)} {source : String} {raw : Json}
    (h : parseV2State payload source raw = .ok state) :
    source = state.sourceRevision ∧ Migrated state (v2Attempt source raw) := by
  unfold parseV2State at h
  split at h
  · cases h
    exact ⟨rfl, .reserved source⟩
  · cases h
    exact ⟨rfl, .requested source⟩
  · split at h
    · cases h
      exact ⟨rfl, .terminal (.rotated source _ _)⟩
    · cases h
  · split at h
    · cases h
      exact ⟨rfl, .terminal (.rejected source _)⟩
    · cases h
  · split at h
    · cases h
      exact ⟨rfl, .terminal (.outcomeUnknown source _)⟩
    · cases h
  · cases h

/-- A journal of the previous schema is migrated. -/
lemma migrated_of_parseV2Journal {payload : List (String × Json)} {enqueued : Bool}
    {migrated : Option Nat}
    (h : parseV2Journal payload = .ok (.loaded state enqueued attempt migrated)) :
    migrated = some 2 ∧ state.sourceRevision ≠ "" ∧ Migrated state attempt := by
  simp only [parseV2Journal, bind, Except.bind, pure, Except.pure] at h
  split at h
  · cases h
  · next source hsource =>
    by_cases hempty : source = ""
    · simp [hempty] at h
    · simp only [hempty, if_false] at h
      split at h
      · cases h
      · split at h
        · cases h
        · split at h
          · cases h
          · split at h
            · cases h
            · next state' hstate =>
              cases h
              obtain ⟨hnamed, hmigrated⟩ := migrated_of_parseV2State hstate
              exact ⟨rfl, hnamed ▸ hempty, hmigrated⟩

/-- What the reader accepts is an accepted record of the current schema or a migrated one. -/
theorem accepted_of_parseJournal {payload : Json} {enqueued : Bool} {migrated : Option Nat}
    (h : parseJournal payload = .ok (.loaded state enqueued attempt migrated)) :
    migrated = none ∧ Accepted state attempt ∨
      migrated = some 2 ∧ state.sourceRevision ≠ "" ∧ Migrated state attempt := by
  rcases payload with _ | _ | _ | _ | _ | _ | fields
  case obj =>
    simp only [parseJournal] at h
    split_ifs at h with h2 h3
    · exact .inr (migrated_of_parseV2Journal h)
    · left
      rcases hfields : journalFields fields with e | detail | read
      · simp [hfields, bind, Except.bind] at h
      · simp [hfields, bind, Except.bind, pure, Except.pure] at h
      · simp only [hfields, bind, Except.bind, pure, Except.pure] at h
        rcases hstate : journalState read with _ | state'
        · simp [hstate] at h
        · simp only [hstate, Except.ok.injEq, JournalLoadResult.loaded.injEq] at h
          obtain ⟨rfl, rfl, rfl, rfl⟩ := h
          obtain ⟨hname, hsource⟩ := name_of_journalState hstate
          obtain ⟨hnamed, hvalid, hcheck⟩ := spec_of_journalFields hfields
          rw [hname] at hcheck
          exact ⟨rfl, hsource ▸ hnamed, hvalid, attemptStateError_eq_none_iff.1 hcheck⟩
    · cases h
  all_goals simp [parseJournal] at h

end EnjiGuard.AuthSession
