import EnjiGuard.AuthSession.Store.Acceptance

/-!
# Payloads of any origin

What the readers make of a payload they did not write: a journal of the current schema that is
accepted can be written again without a change, and the predicates `AuthReadable`,
`JournalReadable` and `OutboxReadable` say for which payloads a reader returns at all.
-/

namespace EnjiGuard.AuthSession

open Foundation

variable {state : JournalState} {attempt : RotationAttempt} {raw : Json}

/-! ### Journals that are written again -/

/-- An active state has no flag. -/
lemma enqueued_of_journalState {fields : JournalFields} (h : journalState fields = some state) :
    fields.outboxEnqueued = (state.terminal?.isSome && fields.outboxEnqueued) := by
  unfold journalState at h
  simp only at h
  split at h
  · cases h
    simp_all [JournalState.terminal?]
  · cases h
    simp_all [JournalState.terminal?]
  all_goals first
    | cases h
    | split_ifs at h
      cases h
      simp [JournalState.terminal?]

/-- The version of a journal that is read without a migration. -/
lemma fields_of_parseJournal {payload : Json} {enqueued : Bool}
    (h : parseJournal payload = .ok (.loaded state enqueued attempt none)) :
    ∃ fields : JournalFields, journalState fields = some state ∧
      fields.outboxEnqueued = enqueued := by
  rcases payload with _ | _ | _ | _ | _ | _ | payload
  case obj =>
    simp only [parseJournal] at h
    split_ifs at h with h2 h3
    · cases (migrated_of_parseV2Journal h).1
    · rcases hfields : journalFields payload with e | detail | fields <;>
        simp only [hfields, bind, Except.bind, pure, Except.pure] at h
      · cases h
      · cases h
      · rcases hstate : journalState fields with _ | state' <;> simp only [hstate] at h
        · cases h
        · cases h
          exact ⟨fields, hstate, rfl⟩
    · cases h
  all_goals simp [parseJournal] at h

/-- An accepted journal of the current schema is not a migrated one. -/
lemma migrated_eq_none_of_parseJournal {payload : List (String × Json)} {enqueued : Bool}
    {migrated : Option Nat} (hversion : (Json.lookup "version" payload).equalsInt 3 = true)
    (h : parseJournal (.obj payload) = .ok (.loaded state enqueued attempt migrated)) :
    migrated = none := by
  have hnot : (Json.lookup "version" payload).equalsInt 2 = false := by
    rcases hvalue : Json.lookup "version" payload with _ | b | n | (q | _ | _) | _ | _ | _ <;>
      simp_all [Json.equalsInt]
  simp only [parseJournal, hnot, hversion, Bool.false_eq_true, if_false, if_true] at h
  rcases hfields : journalFields payload with e | detail | fields <;>
    simp only [hfields, bind, Except.bind, pure, Except.pure] at h
  · cases h
  · cases h
  · rcases hstate : journalState fields with _ | state' <;> simp only [hstate] at h
    · cases h
    · cases h
      rfl

/-- What is written is read back as it was, and what is read from a journal of the current schema
is read again when it is written. -/
theorem parseJournal_roundTrip :
    (∀ (state : JournalState) (enqueued : Bool) (attempt : RotationAttempt),
      state.sourceRevision ≠ "" → rotationAttemptIsValid attempt = true →
      attemptStateError (.str state.name) attempt = .ok none →
        parseJournal (journalPayload state enqueued (some attempt)) =
          .ok (.loaded state (state.terminal?.isSome && enqueued) attempt none)) ∧
      ∀ (payload : List (String × Json)) (state : JournalState) (enqueued : Bool)
        (attempt : RotationAttempt) (migrated : Option Nat),
        (Json.lookup "version" payload).equalsInt 3 = true →
        parseJournal (.obj payload) = .ok (.loaded state enqueued attempt migrated) →
          parseJournal (journalPayload state enqueued (some attempt)) =
            .ok (.loaded state enqueued attempt migrated) := by
  constructor
  · intro state enqueued attempt hsource hvalid hcheck
    rw [parseJournal_journalPayload_iff]
    exact ⟨hsource, hvalid, attemptStateError_eq_none_iff.1 hcheck⟩
  · intro payload state enqueued attempt migrated hversion hread
    have hmigrated := migrated_eq_none_of_parseJournal hversion hread
    subst hmigrated
    obtain ⟨fields, hstate, henqueued⟩ := fields_of_parseJournal hread
    have hflag := enqueued_of_journalState hstate
    rw [henqueued] at hflag
    rcases accepted_of_parseJournal hread with ⟨-, haccepted⟩ | ⟨hother, -⟩
    · have hwritten := (@parseJournal_journalPayload_iff state attempt enqueued).2 haccepted
      rwa [← hflag] at hwritten
    · cases hother

/-- The budget of an unknown outcome whose replay is scheduled. -/
def replayAttempt : RotationAttempt where
  rotationId := "r1"
  attemptKind := .normal
  dispatchCount := 1
  recoveryDeadline := some "2026-03-01T12:10:00+00:00"
  continuation := some (.lane .ambiguityReplay)
  nextAttemptAt := some "2026-03-01T12:00:30+00:00"
  responseClass := some "http_500_ambiguity_replay"

theorem parseJournal_roundTrip_scheduled :
    parseJournal (journalPayload (.terminal (.outcomeUnknown "r1" "refresh response HTTP 500")) true
      (some replayAttempt)) =
        .ok (.loaded (.terminal (.outcomeUnknown "r1" "refresh response HTTP 500")) true
          replayAttempt none) :=
  parseJournal_roundTrip.1 _ true replayAttempt (by decide) (by decide +kernel)
    (by decide +kernel)

/-! ### When a reader returns -/

/-- A value that can be looked up in a set. -/
def HasHash : Json → Prop
  | .arr _ | .obj _ => False
  | _ => True

/-- The times of a recovery window, when they are aware timestamps, are datetimes in UTC. -/
def WindowReadable (notBefore deadline : String) : Prop :=
  ∀ a offsetA b offsetB, fromIsoformat notBefore = some ⟨a, some offsetA⟩ →
    fromIsoformat deadline = some ⟨b, some offsetB⟩ →
      (IsoDatetime.toUtc? ⟨a, some offsetA⟩ offsetA).isSome = true ∧
        (IsoDatetime.toUtc? ⟨b, some offsetB⟩ offsetB).isSome = true

/-- A recovery budget that the reader can compare with a raw state. -/
structure BudgetReadable (raw : Json) (attempt : RotationAttempt) : Prop where
  hashed : attempt.ownerPresent = true ∨ attempt.continuation = some .stop → HasHash raw
  window : attempt.ownerPresent = false → attempt.scheduled = true →
    raw.equalsStr "OUTCOME_UNKNOWN" = true → attempt.stopReason = none →
    ∀ notBefore deadline, attempt.nextAttemptAt = some notBefore →
      attempt.recoveryDeadline = some deadline → WindowReadable notBefore deadline

/-- A journal that the reader can read, whatever it says of it. -/
structure JournalReadable (fields : List (String × Json)) : Prop where
  v2 : (Json.lookup "version" fields).equalsInt 2 = true →
    (Json.lookup "source_revision" fields).str?.getD "" ≠ "" →
    (Json.hasKey "outbox_enqueued" fields = true →
      (Json.lookup "outbox_enqueued" fields).bool? ≠ none) → HasHash (Json.lookup "state" fields)
  v3 : (Json.lookup "version" fields).equalsInt 2 = false →
    (Json.lookup "version" fields).equalsInt 3 = true → journalScalarFieldError fields = none →
    ∀ attempt, parseRotationAttempt fields = some attempt →
      BudgetReadable (Json.lookup "state" fields) attempt

/-- A credential that the reader can read at a time. -/
def AuthReadable (fields : List (String × Json)) (now : Datetime) : Prop :=
  (Json.lookup "version" fields).equalsInt 2 = true →
    ∀ revision baseUrl importedAt,
      credentialMetadata fields = some (revision, baseUrl, importedAt) →
      (parseUtcTimestamp importedAt).isSome = true →
        (now.add? importedAtFutureTolerance).isSome = true

/-- What a record of an outbox looks like. -/
structure RecordForm (raw : Json) (record : OutcomeOutboxRecord) : Prop where
  fields : ∃ fields, raw = .obj fields ∧
    (Json.lookup "event_key" fields).str? = some record.eventKey ∧
    (Json.lookup "outcome" fields).str? = some record.outcome.text
  valid : record.Valid

/-- A record that the reader can read. -/
def RecordReadable : Json → Prop
  | .obj fields => (Json.lookup "event_key" fields).str?.getD "" ≠ "" →
      HasHash (Json.lookup "outcome" fields)
  | _ => True

/-- An outbox that the reader can read: the first record that is not one, or has the key of one
before it, can be read. -/
def OutboxReadable (fields : List (String × Json)) : Prop :=
  (Json.lookup "version" fields).equalsInt 2 = true →
    ∀ before raw after records, Json.lookup "records" fields = .arr (before ++ raw :: after) →
      List.Forall₂ RecordForm before records →
      (records.map OutcomeOutboxRecord.eventKey).Nodup → RecordReadable raw

/-- A computation that returns. -/
def Returns {α : Type} (p : Except PyError α) : Prop := ∃ a, p = .ok a

@[simp] lemma returns_ok {α : Type} (a : α) : Returns (.ok a) := ⟨a, rfl⟩

@[simp] lemma returns_pure {α : Type} (a : α) : Returns (pure a) := ⟨a, rfl⟩

@[simp] lemma not_returns_error {α : Type} (e : PyError) :
    ¬ Returns (.error e : Except PyError α) := by
  rintro ⟨a, h⟩
  cases h

lemma rawMemberOf_of_hasHash {texts : List String} (h : HasHash raw) :
    Returns (rawMemberOf raw texts) := by
  cases raw <;> first | exact returns_ok _ | cases h

lemma rawMemberOf_of_not_hasHash {texts : List String} (h : ¬ HasHash raw) :
    rawMemberOf raw texts = .error .typeError ∧ ∀ text, raw.equalsStr text = false := by
  cases raw <;> first | exact absurd trivial h | exact ⟨rfl, fun _ => rfl⟩

/-- A set lookup returns exactly for a value with a hash. -/
lemma returns_rawMemberOf {texts : List String} :
    Returns (rawMemberOf raw texts) ↔ HasHash raw := by
  constructor
  · intro h
    by_contra hnot
    rw [(rawMemberOf_of_not_hasHash hnot).1] at h
    exact not_returns_error _ h
  · exact rawMemberOf_of_hasHash

/-- The check of a window returns exactly when the window can be read. -/
lemma returns_validRecoveryWindow {notBefore deadline : String} :
    Returns (validRecoveryWindow (some notBefore) (some deadline)) ↔
      WindowReadable notBefore deadline := by
  simp only [validRecoveryWindow, WindowReadable]
  rcases hnotBefore : fromIsoformat notBefore with _ | ⟨a, _ | offsetA⟩
  · simp
  · simp
  · rcases hdeadline : fromIsoformat deadline with _ | ⟨b, _ | offsetB⟩
    · simp
    · simp
    · rcases ha : IsoDatetime.toUtc? ⟨a, some offsetA⟩ offsetA with _ | ta <;>
        rcases hb : IsoDatetime.toUtc? ⟨b, some offsetB⟩ offsetB with _ | tb <;> simp [ha, hb]
      rintro _ _ _ _ rfl rfl rfl rfl
      simp [ha, hb]

lemma returns_bind {α β : Type} {p : Except PyError α} {f : α → Except PyError β} :
    Returns (p >>= f) ↔ ∃ a, p = .ok a ∧ Returns (f a) := by
  cases p <;> simp [bind, Except.bind]

/-- A state an owner can have is not the one of a scheduled attempt. -/
lemma equalsStr_of_rawMemberOf
    (h : rawMemberOf raw ["RESERVED", "REQUESTED"] = .ok true) :
    raw.equalsStr "OUTCOME_UNKNOWN" = false := by
  cases raw with
  | str s =>
    simp only [rawMemberOf, Json.memberOf, Except.ok.injEq, decide_eq_true_eq] at h
    rcases List.mem_cons.1 h with rfl | h
    · rfl
    · rw [List.mem_singleton.1 h]
      rfl
  | _ => rfl

/-- The check of the owner, with whether it complains. -/
def strayOwner (raw : Json) (attempt : RotationAttempt) : Except PyError Bool :=
  if attempt.ownerPresent then (rawMemberOf raw ["RESERVED", "REQUESTED"]).map (! ·)
  else .ok false

/-- A scheduled attempt that does not have what a schedule needs. -/
def Unschedulable (raw : Json) (attempt : RotationAttempt) : Prop :=
  (!raw.equalsStr "OUTCOME_UNKNOWN") = true ∨ attempt.nextAttemptAt = none ∨
    attempt.recoveryDeadline = none ∨ attempt.stopReason ≠ none

instance : Decidable (Unschedulable raw attempt) := by
  unfold Unschedulable
  infer_instance

/-- The check of the window, with whether it complains. -/
def badWindow (attempt : RotationAttempt) : Except PyError Bool :=
  if attempt.scheduled then
    (validRecoveryWindow attempt.nextAttemptAt attempt.recoveryDeadline).map (! ·)
  else .ok false

/-- The check of a stopped attempt, with whether it complains. -/
def badStop (raw : Json) (attempt : RotationAttempt) : Except PyError Bool :=
  if attempt.continuation = some .stop then
    (rawMemberOf raw ["OUTCOME_UNKNOWN", "REJECTED"]).map fun known =>
      !known || attempt.nextAttemptAt ≠ none || attempt.stopReason.getD "" = "" ||
        attempt.ownerPresent
  else .ok false

/-- The checks of the reader one after the other. -/
lemma attemptStateError_eq :
    attemptStateError raw attempt =
      strayOwner raw attempt >>= fun stray =>
        if stray then pure (some "terminal journal cannot retain a dispatch owner")
        else if attempt.scheduled ∧ Unschedulable raw attempt then
          pure (some "scheduled recovery metadata is inconsistent")
        else badWindow attempt >>= fun window =>
          if window then pure (some "scheduled recovery timestamps are invalid")
          else badStop raw attempt >>= fun stop =>
            if stop then pure (some "stopped recovery metadata is inconsistent")
            else if attempt.continuation = none ∧
                (attempt.nextAttemptAt ≠ none ∨ attempt.stopReason ≠ none) then
              pure (some "inactive recovery metadata is inconsistent")
            else pure none := by
  unfold attemptStateError strayOwner badWindow badStop Unschedulable
  rcases attempt.ownerPresent <;> rcases attempt.scheduled <;>
    by_cases hstop : attempt.continuation = some .stop <;>
    simp only [hstop, if_true, if_false, Bool.false_eq_true]

/-- The checks after the one of the owner, when the attempt cannot be scheduled. -/
lemma returns_of_unschedulable (howner : strayOwner raw attempt = .ok false)
    (hscheduled : attempt.scheduled = true) (h : Unschedulable raw attempt) :
    Returns (attemptStateError raw attempt) := by
  rw [attemptStateError_eq, howner]
  simp only [bind, Except.bind, Bool.false_eq_true, if_false]
  rw [if_pos ⟨hscheduled, h⟩]
  exact returns_pure _

/-- The checks after the one of the owner, when the attempt is not scheduled. -/
lemma returns_of_unscheduled (howner : strayOwner raw attempt = .ok false)
    (hscheduled : attempt.scheduled = false) :
    Returns (attemptStateError raw attempt) ↔
      (attempt.continuation = some .stop → HasHash raw) := by
  rw [attemptStateError_eq, howner]
  simp only [badWindow, badStop, bind, Except.bind, hscheduled, Bool.false_eq_true, false_and,
    if_false]
  by_cases hstop : attempt.continuation = some .stop
  · rw [if_pos hstop, ← @returns_rawMemberOf _ ["OUTCOME_UNKNOWN", "REJECTED"]]
    cases rawMemberOf raw ["OUTCOME_UNKNOWN", "REJECTED"] with
    | error e => simp [Except.map, hstop]
    | ok known =>
      refine iff_of_true ?_ fun _ => returns_ok _
      simp only [Except.map]
      split_ifs <;> exact returns_pure _
  · rw [if_neg hstop]
    refine iff_of_true ?_ fun h => absurd h hstop
    simp only [Bool.false_eq_true, if_false]
    split_ifs <;> exact returns_pure _

/-- With an owner, the state is looked up in a set. -/
lemma returns_attemptStateError_owned (howner : attempt.ownerPresent = true) :
    Returns (attemptStateError raw attempt) ↔ HasHash raw := by
  constructor
  · intro h
    by_contra hnot
    have hmember := (@rawMemberOf_of_not_hasHash _ ["RESERVED", "REQUESTED"] hnot).1
    simp [attemptStateError, howner, hmember, Except.map, bind, Except.bind] at h
  · intro hhash
    obtain ⟨active, hactive⟩ := @rawMemberOf_of_hasHash _ ["RESERVED", "REQUESTED"] hhash
    cases active with
    | false => simp [attemptStateError, howner, hactive, Except.map, bind, Except.bind]
    | true =>
      have hstray : strayOwner raw attempt = .ok false := by
        rw [strayOwner, if_pos howner, hactive]
        rfl
      rcases hscheduled : attempt.scheduled
      · exact (returns_of_unscheduled hstray hscheduled).2 fun _ => hhash
      · have hequals := equalsStr_of_rawMemberOf hactive
        exact returns_of_unschedulable hstray hscheduled (.inl (by rw [hequals]; rfl))

/-- A scheduled attempt without an owner is compared with its window. -/
lemma returns_attemptStateError_scheduled (howner : strayOwner raw attempt = .ok false)
    (hscheduled : attempt.scheduled = true) :
    Returns (attemptStateError raw attempt) ↔
      (raw.equalsStr "OUTCOME_UNKNOWN" = true → attempt.stopReason = none →
        ∀ notBefore deadline, attempt.nextAttemptAt = some notBefore →
          attempt.recoveryDeadline = some deadline → WindowReadable notBefore deadline) := by
  by_cases hunschedulable : Unschedulable raw attempt
  · refine iff_of_true (returns_of_unschedulable howner hscheduled hunschedulable) ?_
    intro hequals hreason notBefore deadline hnext hdeadline
    simp [Unschedulable, hequals, hreason, hnext, hdeadline] at hunschedulable
  · have hschedulable := hunschedulable
    simp only [Unschedulable, not_or, not_not] at hschedulable
    obtain ⟨hequals, hnext, hdeadline, hreason⟩ := hschedulable
    obtain ⟨notBefore, hnext⟩ := Option.ne_none_iff_exists'.1 hnext
    obtain ⟨deadline, hdeadline⟩ := Option.ne_none_iff_exists'.1 hdeadline
    have hstop : attempt.continuation ≠ some .stop := by
      intro hstop
      simp [RotationAttempt.scheduled, hstop] at hscheduled
    have hwindow : Returns (attemptStateError raw attempt) ↔
        Returns (validRecoveryWindow (some notBefore) (some deadline)) := by
      rw [attemptStateError_eq, howner]
      simp only [badWindow, badStop, bind, Except.bind, Bool.false_eq_true, if_false]
      rw [if_neg fun h => hunschedulable h.2, if_pos hscheduled, if_neg hstop, hnext, hdeadline]
      cases validRecoveryWindow (some notBefore) (some deadline) with
      | error e => simp [Except.map]
      | ok valid =>
        refine iff_of_true ?_ (returns_ok _)
        simp only [Except.map, Bool.false_eq_true, if_false]
        split_ifs <;> exact returns_pure _
    have hequal : raw.equalsStr "OUTCOME_UNKNOWN" = true := by simpa using hequals
    rw [hwindow, returns_validRecoveryWindow]
    simp [hequal, hreason, hnext, hdeadline]

/-- The comparison of a budget with a raw state returns exactly when the budget can be read. -/
lemma returns_attemptStateError :
    Returns (attemptStateError raw attempt) ↔ BudgetReadable raw attempt := by
  rcases howner : attempt.ownerPresent
  · have hstray : strayOwner raw attempt = .ok false := by simp [strayOwner, howner]
    rcases hscheduled : attempt.scheduled
    · rw [returns_of_unscheduled hstray hscheduled]
      constructor
      · intro h
        exact ⟨fun hor => h (hor.resolve_left (by simp [howner])), by simp [hscheduled]⟩
      · intro h hstop
        exact h.hashed (.inr hstop)
    · have hstop : attempt.continuation ≠ some .stop := by
        intro hstop
        simp [RotationAttempt.scheduled, hstop] at hscheduled
      rw [returns_attemptStateError_scheduled hstray hscheduled]
      constructor
      · intro h
        exact ⟨by simp [howner, hstop], fun _ _ => h⟩
      · intro h
        exact h.window howner hscheduled
  · rw [returns_attemptStateError_owned howner]
    constructor
    · intro h
      exact ⟨fun _ => h, by simp [howner]⟩
    · intro h
      exact h.hashed (.inl howner)

/-! ### The journal -/

/-- Fields without an error have the types the reader relies on. -/
lemma typed_of_journalScalarFieldError {payload : List (String × Json)}
    (h : journalScalarFieldError payload = none) :
    (∃ source, (Json.lookup "source_revision" payload).str? = some source) ∧
      (∃ replacement, (Json.lookup "replacement_cookie_header" payload).optionalStr? =
        some replacement) ∧
      (∃ reason, (Json.lookup "reason" payload).optionalStr? = some reason) ∧
      (∃ successor, (Json.lookup "successor_revision" payload).optionalStr? = some successor) ∧
      (∃ eventKey, (Json.lookup "event_key" payload).optionalStr? = some eventKey) ∧
      ∃ enqueued, (Json.lookup "outbox_enqueued" payload).bool? = some enqueued := by
  unfold journalScalarFieldError at h
  split_ifs at h with hsource hreplacement hsuccessor henqueued
  rw [not_or] at hreplacement hsuccessor
  refine ⟨?_, Option.ne_none_iff_exists'.1 hreplacement.1,
    Option.ne_none_iff_exists'.1 hreplacement.2, Option.ne_none_iff_exists'.1 hsuccessor.1,
    Option.ne_none_iff_exists'.1 hsuccessor.2, Option.ne_none_iff_exists'.1 henqueued⟩
  cases hvalue : (Json.lookup "source_revision" payload).str? with
  | none => simp [hvalue] at hsource
  | some source => exact ⟨source, rfl⟩

/-- The assertions of the reader hold: it returns when the check of the fields does. -/
lemma returns_journalFields {payload : List (String × Json)} :
    Returns (journalFields payload) ↔
      (journalScalarFieldError payload = none → ∀ attempt,
        parseRotationAttempt payload = some attempt →
          BudgetReadable (Json.lookup "state" payload) attempt) := by
  rcases hscalar : journalScalarFieldError payload with _ | detail
  · rcases hattempt : parseRotationAttempt payload with _ | attempt
    · simp [journalFields, journalFieldError, hscalar, hattempt, bind, Except.bind]
    · have hcheck : Returns (journalFields payload) ↔
          Returns (attemptStateError (Json.lookup "state" payload) attempt) := by
        obtain ⟨⟨source, h1⟩, ⟨replacement, h2⟩, ⟨reason, h3⟩, ⟨successor, h4⟩, ⟨eventKey, h5⟩,
          enqueued, h6⟩ := typed_of_journalScalarFieldError hscalar
        rcases hstate : attemptStateError (Json.lookup "state" payload) attempt with e | _ | detail
        · simp [journalFields, journalFieldError, hscalar, hattempt, hstate, bind, Except.bind]
        · rcases houtcome : parseJournalOutcome (Json.lookup "outcome" payload) with _ | outcome <;>
            simp [journalFields, journalFieldError, hscalar, hattempt, hstate, houtcome, h1, h2, h3,
              h4, h5, h6, bind, Except.bind]
        · simp [journalFields, journalFieldError, hscalar, hattempt, hstate, bind, Except.bind]
      rw [hcheck, returns_attemptStateError]
      simp
  · simp [journalFields, journalFieldError, hscalar, bind, Except.bind]

/-- The reader of the previous schema looks the state up once the other fields are in order. -/
lemma returns_parseV2Journal {payload : List (String × Json)} :
    Returns (parseV2Journal payload) ↔
      ((Json.lookup "source_revision" payload).str?.getD "" ≠ "" →
        (Json.hasKey "outbox_enqueued" payload = true →
          (Json.lookup "outbox_enqueued" payload).bool? ≠ none) →
        HasHash (Json.lookup "state" payload)) := by
  rcases hsource : (Json.lookup "source_revision" payload).str? with _ | source
  · simp [parseV2Journal, hsource]
  · by_cases hempty : source = ""
    · simp [parseV2Journal, hsource, hempty]
    · have henqueued : (Json.hasKey "outbox_enqueued" payload = true →
          (Json.lookup "outbox_enqueued" payload).bool? ≠ none) ↔
            ∃ enqueued, (if Json.hasKey "outbox_enqueued" payload then
              Json.lookup "outbox_enqueued" payload else .bool false).bool? = some enqueued := by
        rcases Json.hasKey "outbox_enqueued" payload
        · simp
        · simp [Option.ne_none_iff_exists']
      rw [henqueued]
      rcases hflag : (if Json.hasKey "outbox_enqueued" payload then
          Json.lookup "outbox_enqueued" payload else .bool false).bool? with _ | enqueued
      · simp [parseV2Journal, hsource, hempty, hflag]
      · rw [← @returns_rawMemberOf _ ["RESERVED", "REQUESTED"]]
        rcases hmember : rawMemberOf (Json.lookup "state" payload) ["RESERVED", "REQUESTED"] with
          e | active
        · simp [parseV2Journal, hsource, hempty, hflag, hmember, bind, Except.bind]
        · refine iff_of_true ?_ fun _ _ => returns_ok _
          simp only [parseV2Journal, hsource, hempty, hflag, hmember, bind, Except.bind, if_false]
          split_ifs
          · exact returns_pure _
          · cases parseV2State payload source (Json.lookup "state" payload) <;> exact returns_pure _

/-- The reader of the journal returns exactly for the payloads that can be read. -/
lemma returns_parseJournal {payload : List (String × Json)} :
    Returns (parseJournal (.obj payload)) ↔ JournalReadable payload := by
  rcases h2 : (Json.lookup "version" payload).equalsInt 2
  · rcases h3 : (Json.lookup "version" payload).equalsInt 3
    · refine iff_of_true ?_ ⟨by simp [h2], by simp [h3]⟩
      simp [parseJournal, h2, h3]
    · have hfields : Returns (parseJournal (.obj payload)) ↔ Returns (journalFields payload) := by
        rcases hread : journalFields payload with e | detail | fields
        · simp [parseJournal, h2, h3, hread, bind, Except.bind]
        · simp [parseJournal, h2, h3, hread, bind, Except.bind]
        · rcases hstate : journalState fields with _ | state <;>
            simp [parseJournal, h2, h3, hread, hstate, bind, Except.bind]
      rw [hfields, returns_journalFields]
      constructor
      · intro h
        exact ⟨by simp [h2], fun _ _ => h⟩
      · intro h
        exact h.v3 h2 h3
  · have hfields : Returns (parseJournal (.obj payload)) ↔ Returns (parseV2Journal payload) := by
      simp [parseJournal, h2]
    rw [hfields, returns_parseV2Journal]
    constructor
    · intro h
      exact ⟨fun _ => h, by simp [h2]⟩
    · intro h
      exact h.v2 h2

/-! ### The credential and the outbox -/

/-- An import time is checked when the clock can be compared with it. -/
lemma returns_validateImportedAt {value : String} {now parsed : Datetime}
    (hparsed : parseUtcTimestamp value = some parsed) :
    Returns (validateImportedAt value now) ↔
      (now.add? importedAtFutureTolerance).isSome = true := by
  constructor
  · rintro ⟨refused, h⟩
    rw [validateImportedAt, hparsed] at h
    rcases hlatest : now.add? importedAtFutureTolerance with _ | latest <;> rw [hlatest] at h
    · cases h
    · rfl
  · intro hsome
    obtain ⟨latest, hlatest⟩ := Option.isSome_iff_exists.1 hsome
    rcases hresult : validateImportedAt value now with e | refused
    · rw [validateImportedAt, hparsed] at hresult
      rw [hlatest] at hresult
      cases hresult
    · exact returns_ok _

/-- The reader of the credential returns exactly for what can be read at the time. -/
lemma returns_parseAuth {payload : List (String × Json)} {now : Datetime} :
    Returns (parseAuth (.obj payload) now) ↔ AuthReadable payload now := by
  unfold AuthReadable
  rcases hversion : (Json.lookup "version" payload).equalsInt 2
  · simp [parseAuth, hversion]
  · rcases hmetadata : credentialMetadata payload with _ | ⟨revision, baseUrl, importedAt⟩
    · simp [parseAuth, hversion, hmetadata]
    · have hvalidate : Returns (parseAuth (.obj payload) now) ↔
          Returns (validateImportedAt importedAt now) := by
        rcases hresult : validateImportedAt importedAt now with e | _ | refused
        · simp [parseAuth, hversion, hmetadata, hresult, bind, Except.bind]
        · rcases hcredential : parseCredential (Json.lookup "credential" payload) with
            _ | credential <;>
            simp [parseAuth, hversion, hmetadata, hresult, hcredential, bind, Except.bind]
        · simp [parseAuth, hversion, hmetadata, hresult, bind, Except.bind]
      rw [hvalidate]
      rcases hparsed : parseUtcTimestamp importedAt with _ | parsed
      · simp [validateImportedAt, hparsed]
      · rw [returns_validateImportedAt hparsed]
        constructor
        · intro h _ revision' baseUrl' importedAt' heq _
          cases heq
          exact h
        · intro h
          exact h rfl revision baseUrl importedAt rfl (by rw [hparsed]; rfl)

/-- The reader of a record returns exactly for a record that can be read. -/
lemma returns_parseOutboxRecord : Returns (parseOutboxRecord raw) ↔ RecordReadable raw := by
  rcases raw with _ | _ | _ | _ | _ | _ | fields
  case obj =>
    simp only [RecordReadable]
    rcases hkey : (Json.lookup "event_key" fields).str? with _ | key
    · simp [parseOutboxRecord, hkey]
    · by_cases hempty : key = ""
      · simp [parseOutboxRecord, hkey, hempty]
      · rw [← @returns_rawMemberOf _ ["rotated", "rejected", "outcome_unknown"]]
        rcases hmember : rawMemberOf (Json.lookup "outcome" fields)
            ["rotated", "rejected", "outcome_unknown"] with e | known
        · simp [parseOutboxRecord, hkey, hempty, hmember, bind, Except.bind]
        · refine iff_of_true ?_ fun _ => returns_ok _
          simp only [parseOutboxRecord, hkey, if_neg hempty, hmember, bind, Except.bind]
          split
          · split_ifs <;> exact returns_pure _
          · exact returns_pure _
  all_goals exact iff_of_true (returns_ok _) trivial

lemma text_of_parseOutcome {text : String} {outcome : RotationOutcome}
    (h : parseOutcome text = some outcome) : text = outcome.text := by
  unfold parseOutcome at h
  split_ifs at h with h1 h2 h3
  · cases h
    exact h1
  · cases h
    exact h2
  · cases h
    exact h3

/-- What the reader takes for a record is one. -/
lemma parseOutboxRecord_eq_some {record : OutcomeOutboxRecord} :
    parseOutboxRecord raw = .ok (some record) ↔ RecordForm raw record := by
  constructor
  · intro h
    refine ⟨?_, valid_of_parseOutboxRecord h⟩
    rcases raw with _ | _ | _ | _ | _ | _ | fields
    case obj =>
      rcases hkey : (Json.lookup "event_key" fields).str? with _ | key
      · simp [parseOutboxRecord, hkey] at h
      · by_cases hempty : key = ""
        · simp [parseOutboxRecord, hkey, hempty] at h
        · rcases hmember : rawMemberOf (Json.lookup "outcome" fields)
            ["rotated", "rejected", "outcome_unknown"] with e | _ | _ <;>
            rcases houtcome : (Json.lookup "outcome" fields).str? with _ | text <;>
            simp [parseOutboxRecord, hkey, hempty, hmember, houtcome, bind, Except.bind, pure,
              Except.pure] at h
          rcases hparsed : parseOutcome text with _ | outcome
          · simp [hparsed] at h
          · simp only [hparsed] at h
            split_ifs at h
            · cases h
              exact ⟨fields, rfl, hkey, by rw [houtcome, text_of_parseOutcome hparsed]⟩
            · cases h
    all_goals simp [parseOutboxRecord] at h
  · rintro ⟨⟨fields, rfl, hkey, houtcome⟩, hvalid⟩
    have hvalue : Json.lookup "outcome" fields = .str record.outcome.text := by
      cases hraw : Json.lookup "outcome" fields <;> simp_all [Json.str?]
    have hknown : rawMemberOf (.str record.outcome.text)
        ["rotated", "rejected", "outcome_unknown"] = .ok true := by
      cases record.outcome <;> rfl
    simp only [parseOutboxRecord, hkey, if_neg hvalid.1, hvalue, hknown, bind, Except.bind,
      Json.str?_str, Option.bind_some, parseOutcome_text, if_pos hvalid.2]
    rfl

/-- The records of an outbox are read up to the first that is not a new one. -/
lemma returns_parseOutboxRecords {done : List OutcomeOutboxRecord} {raws : List Json} :
    Returns (parseOutboxRecords done raws) ↔
      ∀ before raw after records, raws = before ++ raw :: after →
        List.Forall₂ RecordForm before records →
        (∀ record ∈ records, record.eventKey ∉ done.map OutcomeOutboxRecord.eventKey) →
        (records.map OutcomeOutboxRecord.eventKey).Nodup → RecordReadable raw := by
  induction raws generalizing done with
  | nil => simp [parseOutboxRecords]
  | cons first rest ih =>
    constructor
    · intro h before raw after records hsplit hform hfresh hnodup
      rcases before with _ | ⟨head, before⟩
      · obtain ⟨rfl, rfl⟩ := List.cons.inj hsplit
        rw [← returns_parseOutboxRecord]
        obtain ⟨record, hrecord, -⟩ := returns_bind.1 h
        exact ⟨record, hrecord⟩
      · obtain ⟨rfl, rfl⟩ := List.cons.inj hsplit
        rcases hform with _ | ⟨hhead, hform⟩
        rename_i record records
        rw [parseOutboxRecords, parseOutboxRecord_eq_some.2 hhead] at h
        -- the first record is a new one, so the reader goes on behind it
        have hnew : (done.any fun existing => existing.eventKey = record.eventKey) = false := by
          have hmem := hfresh record List.mem_cons_self
          rw [List.any_eq_false]
          intro existing hexisting heq
          exact hmem (List.mem_map.2 ⟨existing, hexisting, of_decide_eq_true heq⟩)
        simp only [bind, Except.bind, hnew] at h
        rw [List.map_cons, List.nodup_cons] at hnodup
        refine ih.1 h before raw after records rfl hform ?_ hnodup.2
        intro other hother
        rw [List.map_append, List.mem_append, not_or]
        refine ⟨hfresh other (List.mem_cons_of_mem _ hother), ?_⟩
        intro heq
        rw [List.map_cons, List.map_nil, List.mem_singleton] at heq
        exact hnodup.1 (heq ▸ List.mem_map_of_mem hother)
    · intro h
      have hfirst : Returns (parseOutboxRecord first) :=
        returns_parseOutboxRecord.2 (h [] first rest [] rfl .nil (by simp) (by simp))
      obtain ⟨read, hread⟩ := hfirst
      rw [parseOutboxRecords, hread]
      rcases read with _ | record
      · exact returns_pure _
      · rcases hnew : (done.any fun existing => existing.eventKey = record.eventKey)
        · simp only [bind, Except.bind, hnew]
          refine ih.2 fun before raw after records hsplit hform hfresh hnodup => ?_
          have hseparate : ∀ other ∈ records, other.eventKey ≠ record.eventKey ∧
              other.eventKey ∉ done.map OutcomeOutboxRecord.eventKey := by
            intro other hother
            have hmem := hfresh other hother
            rw [List.map_append, List.mem_append, not_or] at hmem
            exact ⟨by simpa using hmem.2, hmem.1⟩
          refine h (first :: before) raw after (record :: records) (by rw [hsplit]; rfl)
            (.cons (parseOutboxRecord_eq_some.1 hread) hform) ?_ ?_
          · intro other hother
            rcases List.mem_cons.1 hother with rfl | hother
            · intro hmem
              obtain ⟨existing, hexisting, heq⟩ := List.mem_map.1 hmem
              have hall := List.any_eq_false.1 hnew existing hexisting
              exact hall (decide_eq_true heq)
            · exact (hseparate other hother).2
          · rw [List.map_cons, List.nodup_cons]
            refine ⟨?_, hnodup⟩
            intro hmem
            obtain ⟨other, hother, heq⟩ := List.mem_map.1 hmem
            exact (hseparate other hother).1 heq
        · -- a key that was read before ends the reading
          simp only [bind, Except.bind, hnew]
          exact returns_pure _

/-- The reader of the outbox returns exactly for what can be read. -/
lemma returns_parseOutbox {payload : List (String × Json)} :
    Returns (parseOutbox (.obj payload)) ↔ OutboxReadable payload := by
  unfold OutboxReadable
  rcases hversion : (Json.lookup "version" payload).equalsInt 2
  · simp [parseOutbox, hversion]
  · rcases hrecords : Json.lookup "records" payload with _ | _ | _ | _ | _ | raws | _
    case arr =>
      simp only [parseOutbox, hversion, if_true, hrecords]
      rw [returns_parseOutboxRecords]
      constructor
      · intro h _ before raw after records hsplit hform hnodup
        exact h before raw after records (Json.arr.inj hsplit) hform (by simp) hnodup
      · intro h before raw after records hsplit hform _ hnodup
        exact h trivial before raw after records (by rw [hsplit]) hform hnodup
    all_goals simp [parseOutbox, hversion, hrecords]

/-! ### All readers -/

/-- The results a reader of the credential has for a payload. -/
def AuthLoadResult.OfPayload : AuthLoadResult → Prop
  | .absent | .ioFailure .. => False
  | _ => True

/-- The results a reader of the journal has for a payload. -/
def JournalLoadResult.OfPayload : JournalLoadResult → Prop
  | .absent | .ioFailure .. => False
  | _ => True

/-- The results a reader of the outbox has for a payload. -/
def OutcomeOutboxLoadResult.OfPayload : OutcomeOutboxLoadResult → Prop
  | .absent | .ioFailure .. => False
  | _ => True

lemma ofPayload_of_validateImportedAt {value : String} {now : Datetime} {refused : AuthLoadResult}
    (h : validateImportedAt value now = .ok (some refused)) : refused.OfPayload := by
  rcases refused_of_validateImportedAt h with rfl | ⟨detail, rfl⟩ <;> trivial

lemma ofPayload_of_parseAuth {payload : Json} {now : Datetime} {result : AuthLoadResult}
    (h : parseAuth payload now = .ok result) : result.OfPayload := by
  rcases payload with _ | _ | _ | _ | _ | _ | fields
  case obj =>
    simp only [parseAuth] at h
    split_ifs at h
    · rcases hmetadata : credentialMetadata fields with _ | ⟨revision, baseUrl, importedAt⟩ <;>
        simp only [hmetadata] at h
      · cases h
        trivial
      · rcases hresult : validateImportedAt importedAt now with e | _ | refused <;>
          simp only [hresult, bind, Except.bind] at h
        · cases h
        · split at h <;> cases h <;> trivial
        · cases h
          exact ofPayload_of_validateImportedAt hresult
    · cases h
      trivial
  all_goals
    cases h
    trivial

lemma ofPayload_of_parseV2Journal {payload : List (String × Json)} {result : JournalLoadResult}
    (h : parseV2Journal payload = .ok result) : result.OfPayload := by
  rw [parseV2Journal] at h
  rcases hsource : (Json.lookup "source_revision" payload).str? with _ | source <;>
    simp only [hsource] at h
  · cases h
    trivial
  · by_cases hempty : source = ""
    · rw [if_pos hempty] at h
      cases h
      trivial
    · rw [if_neg hempty] at h
      rcases hmember : rawMemberOf (Json.lookup "state" payload) ["RESERVED", "REQUESTED"] with
        e | active <;> simp only [hmember, bind, Except.bind] at h
      · split at h <;> cases h
        trivial
      · split at h
        · cases h
          trivial
        · split_ifs at h
          · cases h
            trivial
          · split at h <;> cases h <;> trivial

lemma ofPayload_of_parseJournal {payload : Json} {result : JournalLoadResult}
    (h : parseJournal payload = .ok result) : result.OfPayload := by
  rcases payload with _ | _ | _ | _ | _ | _ | fields
  case obj =>
    simp only [parseJournal] at h
    split_ifs at h
    · exact ofPayload_of_parseV2Journal h
    · rcases hfields : journalFields fields with e | detail | read <;>
        simp only [hfields, bind, Except.bind] at h
      · cases h
      · cases h
        trivial
      · split at h <;> cases h <;> trivial
    · cases h
      trivial
  all_goals
    cases h
    trivial

lemma ofPayload_of_parseOutboxRecords {done : List OutcomeOutboxRecord} {raws : List Json}
    {result : OutcomeOutboxLoadResult} (h : parseOutboxRecords done raws = .ok result) :
    result.OfPayload := by
  induction raws generalizing done with
  | nil =>
    cases h
    trivial
  | cons raw rest ih =>
    rw [parseOutboxRecords] at h
    rcases hrecord : parseOutboxRecord raw with e | _ | record <;>
      simp only [hrecord, bind, Except.bind] at h
    · cases h
    · cases h
      trivial
    · split_ifs at h
      · cases h
        trivial
      · exact ih h

lemma ofPayload_of_parseOutbox {payload : Json} {result : OutcomeOutboxLoadResult}
    (h : parseOutbox payload = .ok result) : result.OfPayload := by
  rcases payload with _ | _ | _ | _ | _ | _ | fields
  case obj =>
    simp only [parseOutbox] at h
    split_ifs at h
    · rcases hrecords : Json.lookup "records" fields with _ | _ | _ | _ | _ | raws | _ <;>
        simp only [hrecords] at h
      case arr => exact ofPayload_of_parseOutboxRecords h
      all_goals
        cases h
        trivial
    · cases h
      trivial
  all_goals
    cases h
    trivial

/-- For which payloads the readers return one of their typed results. -/
theorem readers_return_iff (payload : Json) (now : Datetime) :
    ((∃ result, parseAuth payload now = .ok result ∧ result.OfPayload) ↔
        ∀ fields, payload = .obj fields → AuthReadable fields now) ∧
      ((∃ result, parseJournal payload = .ok result ∧ result.OfPayload) ↔
        ∀ fields, payload = .obj fields → JournalReadable fields) ∧
      ((∃ result, parseOutbox payload = .ok result ∧ result.OfPayload) ↔
        ∀ fields, payload = .obj fields → OutboxReadable fields) := by
  have hauth : (∃ result, parseAuth payload now = .ok result ∧ result.OfPayload) ↔
      Returns (parseAuth payload now) :=
    ⟨fun ⟨result, h, _⟩ => ⟨result, h⟩, fun ⟨result, h⟩ => ⟨result, h, ofPayload_of_parseAuth h⟩⟩
  have hjournal : (∃ result, parseJournal payload = .ok result ∧ result.OfPayload) ↔
      Returns (parseJournal payload) :=
    ⟨fun ⟨result, h, _⟩ => ⟨result, h⟩,
      fun ⟨result, h⟩ => ⟨result, h, ofPayload_of_parseJournal h⟩⟩
  have houtbox : (∃ result, parseOutbox payload = .ok result ∧ result.OfPayload) ↔
      Returns (parseOutbox payload) :=
    ⟨fun ⟨result, h, _⟩ => ⟨result, h⟩, fun ⟨result, h⟩ => ⟨result, h, ofPayload_of_parseOutbox h⟩⟩
  rw [hauth, hjournal, houtbox]
  rcases payload with _ | _ | _ | _ | _ | _ | fields
  case obj =>
    rw [returns_parseAuth, returns_parseJournal, returns_parseOutbox]
    simp
  all_goals simp [parseAuth, parseJournal, parseOutbox]

/-- A state that is a list cannot be looked up in a set. -/
theorem not_readers_return :
    ¬ ∀ payload now,
      (∃ result, parseAuth payload now = .ok result ∧ result.OfPayload) ∧
        (∃ result, parseJournal payload = .ok result ∧ result.OfPayload) ∧
        ∃ result, parseOutbox payload = .ok result ∧ result.OfPayload := by
  intro h
  obtain ⟨-, ⟨result, hresult, -⟩, -⟩ := h
    (.obj [("version", .int 2), ("source_revision", .str "r1"), ("state", .arr [])])
    ⟨0, by decide⟩
  have htype : parseJournal
      (.obj [("version", .int 2), ("source_revision", .str "r1"), ("state", .arr [])]) =
        .error .typeError := rfl
  rw [htype] at hresult
  cases hresult

end EnjiGuard.AuthSession
