import EnjiGuard.AuthSession.InFlight
import EnjiGuard.AuthSession.Store.Acceptance

/-!
# The coordinator reads back its own journal

Every writer of the journal builds a record the reader accepts, as long as it starts from one that
is `Fit`. Two of them can go wrong: stopping a scheduled recovery after its deadline keeps the
retry time, and committing a rotation or a rejection keeps the continuation of the record it finds.
The theorem at the end excludes just these two, the traces after it show them.
-/

namespace EnjiGuard.AuthSession

open Foundation Action Relation

variable {state : JournalState} {attempt attempt' held next : RotationAttempt}
variable {source reason deadline : String} {lane : RecoveryLane} {w w' start : World} {env : Env}

/-! ### Fit records -/

/-- A record the reader accepts, whose successor has a name and whose scheduled lane has room. -/
structure Fit (state : JournalState) (attempt : RotationAttempt) : Prop
    extends Accepted state attempt where
  successor : ∀ successor, state.successor? = some successor → successor ≠ ""
  available : ∀ lane, attempt.continuation = some (.lane lane) →
    continuationAvailable attempt lane = true

lemma RotationAttempt.Ownerless.absent (h : attempt.Ownerless) :
    attempt.ownerPresent = false := by
  simp [RotationAttempt.ownerPresent, h.1]

lemma Fit.inBudget (h : Fit state attempt) : attempt.InBudget :=
  (rotationAttemptIsValid_iff.1 h.valid).1

/-- A terminal record whose budget has no continuation. -/
lemma Fit.idle {t : TerminalState} (hnamed : t.sourceRevision ≠ "")
    (hsuccessor : ∀ successor, t.successor? = some successor → successor ≠ "")
    (hbudget : attempt.InBudget) (howner : attempt.Ownerless)
    (hcontinuation : attempt.continuation = none) (hnext : attempt.nextAttemptAt = none)
    (hreason : attempt.stopReason = none) : Fit (.terminal t) attempt := by
  refine ⟨⟨hnamed, valid_of_ownerless hbudget howner, ?_, ?_, ?_, ?_⟩, hsuccessor, ?_⟩
  · simp [howner.absent]
  · simp [hcontinuation]
  · simp [hcontinuation]
  · exact fun _ => ⟨hnext, hreason⟩
  · simp [hcontinuation]

/-- A terminal record, other than a rotation, whose budget is stopped. -/
lemma Fit.stopped {t : TerminalState} (hnamed : t.sourceRevision ≠ "")
    (hsuccessor : t.successor? = none) (hbudget : attempt.InBudget)
    (howner : attempt.Ownerless) (hcontinuation : attempt.continuation = some .stop)
    (hnext : attempt.nextAttemptAt = none) (hreason : attempt.stopReason.getD "" ≠ "") :
    Fit (.terminal t) attempt := by
  refine ⟨⟨hnamed, valid_of_ownerless hbudget howner, ?_, ?_, ?_, ?_⟩, ?_, ?_⟩
  · simp [howner.absent]
  · simp [hcontinuation]
  · exact fun _ => ⟨⟨t, rfl, hsuccessor⟩, hnext, hreason⟩
  · simp [hcontinuation]
  · intro successor hsome
    change t.successor? = some successor at hsome
    simp [hsuccessor] at hsome
  · simp [hcontinuation]

/-- A retry time at or before a deadline makes a valid window. -/
lemma validRecoveryWindow_isoformat {next absolute : Datetime}
    (hdeadline : parseAware deadline = .ok (some absolute)) (hle : next ≤ absolute) :
    validRecoveryWindow (some (isoformat next)) (some deadline) = .ok true := by
  rw [validRecoveryWindow_of_parseAware (parseAware_isoformat next) hdeadline]
  simpa using hle

/-- Scheduling a continuation makes a consistent record of an unknown outcome. -/
lemma Consistent.of_withContinuation {now : Datetime}
    (h : withContinuation attempt lane deadline now = .ok attempt') :
    Consistent (.terminal (.outcomeUnknown source reason)) attempt' := by
  obtain ⟨text, -, -, hcontinued⟩ := withContinuation_cases h
  cases hcontinued with
  | stopped why hwhy =>
    constructor <;> simp [stoppedAttempt, RotationAttempt.ownerPresent, withoutOwner,
      JournalState.successor?, hwhy]
  | scheduled havailable hretry hdeadline hnow hle =>
    refine ⟨?_, ?_, ?_, ?_⟩
    · simp [RotationAttempt.ownerPresent, scheduledAttempt, withoutOwner]
    · exact fun _ _ => ⟨⟨source, reason, rfl⟩, validRecoveryWindow_isoformat hdeadline hle, rfl⟩
    · simp [scheduledAttempt]
    · simp [scheduledAttempt]

/-- Scheduling a continuation makes a fit record of an unknown outcome. -/
lemma Fit.of_withContinuation {now : Datetime} (hnamed : source ≠ "")
    (hbudget : attempt.InBudget) (h : withContinuation attempt lane deadline now = .ok attempt') :
    Fit (.terminal (.outcomeUnknown source reason)) attempt' := by
  have hbudget' := hbudget.congr (withContinuation_spec h).1
  have hconsistent : Consistent (.terminal (.outcomeUnknown source reason)) attempt' :=
    .of_withContinuation h
  obtain ⟨text, -, -, hcontinued⟩ := withContinuation_cases h
  cases hcontinued with
  | stopped why hwhy => exact .stopped hnamed rfl hbudget' ⟨rfl, rfl, rfl⟩ rfl rfl hwhy
  | scheduled havailable hretry hdeadline hnow hle =>
    refine ⟨⟨hnamed, valid_of_ownerless hbudget' ⟨rfl, rfl, rfl⟩, hconsistent⟩, ?_, ?_⟩
    · simp [JournalState.successor?]
    · rintro _ ⟨⟩
      exact havailable

/-- The class of a response is not looked at. -/
lemma Fit.responseClass {responseClass : Option String} (h : Fit state attempt) :
    Fit state { attempt with responseClass := responseClass } := by
  obtain ⟨⟨hnamed, hvalid, howner, hscheduled, hstopped, hidle⟩, hsuccessor, havailable⟩ := h
  refine ⟨⟨hnamed, ?_, howner, hscheduled, hstopped, hidle⟩, hsuccessor, havailable⟩
  rw [rotationAttemptIsValid_iff] at hvalid ⊢
  exact ⟨hvalid.1.congr ⟨rfl, rfl, rfl, rfl, rfl, rfl, rfl⟩, hvalid.2⟩

/-- The records of a dispatch. -/
lemma Fit.owned {owner : RefreshOwner} (hnamed : state.sourceRevision ≠ "")
    (hactive : state.terminal? = none) (howner : owner.Identified)
    (hbudget : attempt.InBudget) : Fit state (ownedAttempt attempt owner) := by
  refine ⟨⟨hnamed, valid_ownedAttempt hbudget howner, fun _ => hactive, ?_, ?_, ?_⟩, ?_, ?_⟩
  · simp [ownedAttempt]
  · simp [ownedAttempt]
  · simp [ownedAttempt]
  · cases state with
    | terminal => cases hactive
    | _ => simp [JournalState.successor?]
  · simp [ownedAttempt]

/-- The attempt of a source without a record is in budget. -/
lemma inBudget_fresh {deadline : Option String} (hnamed : source ≠ "") :
    RotationAttempt.InBudget
      { rotationId := source, attemptKind := .normal, dispatchCount := 1,
        recoveryDeadline := deadline } := by
  refine ⟨hnamed, rfl, by simp [totalDispatchCap], ?_, .inr rfl⟩
  intro lane
  cases lane <;> simp [RotationAttempt.laneCount, RecoveryLane.limit, safeRetryLimit,
    validationRetryLimit, ambiguityReplayLimit]

/-! ### Legible files -/

/-- The journal is absent or holds a fit record, and the stored revision has a name. -/
structure World.Legible (w : World) : Prop where
  journal : w.journal = none ∨ ∃ state enqueued attempt, w.JournalHolds state enqueued attempt
  fit : ∀ state enqueued attempt, w.JournalHolds state enqueued attempt → Fit state attempt
  current : ¬ w.Current ""

/-- The journal holds a rotation. -/
def World.Rotating (w : World) : Prop :=
  ∃ source header successor enqueued attempt,
    w.JournalHolds (.terminal (.rotated source header successor)) enqueued attempt

/-- The journal file is read as absent or as a record. -/
def World.Readable (w : World) : Prop :=
  journalOf w.journal = .ok .absent ∨ ∃ state enqueued attempt migrated,
    journalOf w.journal = .ok (.loaded state enqueued attempt migrated)

namespace World.Legible

lemma readable (h : w.Legible) : w.Readable := by
  rcases h.journal with hnone | ⟨state, enqueued, attempt, hjournal⟩
  · left
    rw [hnone]
    rfl
  · right
    have hfit := h.fit _ _ _ hjournal
    obtain ⟨payload, hfile, rfl | ⟨migrated, hload⟩⟩ := hjournal
    · rw [hfile]
      exact ⟨_, _, _, _, parseJournal_journalPayload_iff.2 hfit.toAccepted⟩
    · rw [hfile]
      exact ⟨_, _, _, _, hload⟩

lemma named (h : w.Legible) {current : StoredAuth} (hheld : w.Holds current) :
    current.revision ≠ "" := by
  intro hempty
  exact h.current ⟨current, hheld, hempty⟩

lemma same (h : w.Legible) (hsame : w.SameRotation w') : w'.Legible := by
  refine ⟨?_, ?_, ?_⟩
  · simp only [hsame.journal, hsame.journalHolds]
    exact h.journal
  · intro state enqueued attempt hjournal
    exact h.fit _ _ _ (hsame.journalHolds.1 hjournal)
  · rw [hsame.sameDispatches.sameSuccession.current]
    exact h.current

lemma removeJournal (h : w.Legible) : w.removeJournal.Legible := by
  refine ⟨.inl rfl, ?_, ?_⟩
  · rintro _ _ _ ⟨_, ⟨⟩, _⟩
  · rw [w.sameDispatches_removeJournal.sameSuccession.current]
    exact h.current

lemma setJournal {enqueued : Bool} {clock : Option Datetime} (h : w.Legible)
    (hfit : Fit state attempt) : (w.setJournal state enqueued attempt clock).Legible := by
  have hnew := w.journalHolds_setJournal state enqueued attempt clock
  refine ⟨.inr ⟨_, _, _, hnew⟩, ?_, ?_⟩
  · intro state' enqueued' attempt' hjournal
    obtain ⟨rfl, rfl, -⟩ := hjournal.unique hnew
    exact hfit
  · rw [(w.sameSuccession_setJournal _ _ _ _).current]
    exact h.current

lemma setCredential {auth : StoredAuth} {cause : WriteCause} (h : w.Legible)
    (hnamed : auth.revision ≠ "") : (w.setCredential auth cause).Legible := by
  refine ⟨h.journal, h.fit, ?_⟩
  intro hempty
  exact hnamed (World.current_setCredential.1 hempty).symm

lemma outbox (h : w.Legible) (hstep : OutboxStep w w') : w'.Legible := h.same hstep.sameRotation

/-- Recording an outcome; what precedes the mark depends on the section. -/
lemma recordStep {t : TerminalState} {prior : World → Prop}
    (hmark : prior w → Fit (.terminal t) attempt) (h : w.Legible)
    (hstep : RecordStep t attempt prior w w') : w'.Legible := by
  cases hstep with
  | outbox hstep => exact h.outbox hstep
  | mark clock hprior => exact h.setJournal (hmark hprior)
  | delete => exact h.removeJournal

lemma recordStep_pending {t : TerminalState} (h : w.Legible)
    (hstep : RecordStep t attempt (World.Pending t attempt) w w') : w'.Legible :=
  h.recordStep (fun hpending => h.fit _ _ _ hpending) hstep

lemma project {current auth : StoredAuth} {header successor : String} {enqueued : Bool}
    {cause : WriteCause} (h : w.Legible)
    (hjournal : w.JournalHolds (.terminal (.rotated current.revision header successor)) enqueued
      attempt) (hrevision : auth.revision = successor) : (w.setCredential auth cause).Legible := by
  apply h.setCredential
  rw [hrevision]
  exact (h.fit _ _ _ hjournal).successor successor rfl

/-- The steps of a startup recovery. -/
lemma reconcileStep (h : w.Legible) (hstep : ReconcileStep env start w w') : w'.Legible := by
  cases hstep with
  | outbox hstep => exact h.outbox hstep
  | record hstep => exact h.recordStep_pending hstep
  | discard => exact h.removeJournal
  | dropReserved => exact h.removeJournal
  | abandon clock hheld hjournal hdead hattempt =>
    exact h.setJournal (.of_withContinuation (h.named hheld) (h.fit _ _ _ hjournal).inBudget
      hattempt)
  | project hheld hjournal hrevision => exact h.project hjournal hrevision

end World.Legible

/-- A record that is found is in budget. -/
lemma Found.inBudget {revision : String} {offset : Nat} (hstart : start.Legible)
    (h : Found env start revision reason held offset) : held.InBudget := by
  cases h with
  | unknown hjournal => exact (hstart.fit _ _ _ hjournal).inBudget
  | requested hjournal hdead hdeadline hattempt =>
    exact (hstart.fit _ _ _ hjournal).inBudget.congr (withContinuation_spec hattempt).1

/-- An authorized attempt is in budget. -/
lemma Authorised.inBudget {revision : String} {origin : Option (String × RotationAttempt)}
    {clock : Datetime} (hstart : start.Legible) (hnamed : revision ≠ "")
    (h : Authorised env start revision origin attempt clock) : attempt.InBudget := by
  cases h with
  | normal => exact inBudget_fresh hnamed
  | recovery hfound hnext => exact (hfound.inBudget hstart).of_next hnext

/-- No recovery of the current revision is found scheduled at or after its deadline. -/
def World.InTime (start : World) (env : Env) : Prop :=
  ∀ revision reason held offset, start.Current revision →
    Found env start revision reason held offset → held.scheduled = true →
    deadlinePassed held.recoveryDeadline (env.now offset) ≠ .ok true

/-- A stopped record is fit when the recovery was not scheduled before. -/
lemma Fit.stop (h : Fit (.terminal (.outcomeUnknown source reason)) held)
    (hidle : held.scheduled = false) :
    Fit (.terminal (.outcomeUnknown source reason)) (stopAttempt held) := by
  have hnext : held.nextAttemptAt = none := by
    rcases hcontinuation : held.continuation with _ | lane | _
    · exact (h.consistent.idle hcontinuation).1
    · simp [RotationAttempt.scheduled, hcontinuation] at hidle
    · exact (h.consistent.stopped hcontinuation).2.1
  refine .stopped h.named rfl (h.inBudget.congr ⟨rfl, rfl, rfl, rfl, rfl, rfl, rfl⟩)
    ⟨rfl, rfl, rfl⟩ rfl hnext ?_
  rcases hreason : held.stopReason with _ | text
  · simp [stopAttempt, hreason]
  · by_cases hempty : text = "" <;> simp [stopAttempt, hreason, hempty]

/-- Where a recovery section has come from: it journals no rotation of its own, and replaces the
credential only by the rotation it found. -/
structure Recovers (start w : World) : Prop where
  rotated : ∀ source header successor enqueued attempt,
    w.JournalHolds (.terminal (.rotated source header successor)) enqueued attempt →
    start.Rotating
  current : (∀ revision, w.Current revision → start.Current revision) ∨ start.Rotating

namespace Recovers

lemma begin : Recovers start start := by
  constructor
  · intro source header successor enqueued attempt hjournal
    exact ⟨_, _, _, _, _, hjournal⟩
  · exact .inl fun _ h => h

lemma sameRotation (h : Recovers start w) (hsame : w.SameRotation w') : Recovers start w' := by
  constructor
  · intro source header successor enqueued attempt hjournal
    exact h.rotated _ _ _ _ _ (hsame.journalHolds.1 hjournal)
  · refine h.current.imp (fun hcurrent revision hrevision => hcurrent revision ?_) id
    exact hsame.sameDispatches.sameSuccession.current.1 hrevision

lemma removeJournal (h : Recovers start w) : Recovers start w.removeJournal := by
  constructor
  · rintro _ _ _ _ _ ⟨_, ⟨⟩, _⟩
  · refine h.current.imp (fun hcurrent revision hrevision => hcurrent revision ?_) id
    exact w.sameDispatches_removeJournal.sameSuccession.current.1 hrevision

lemma setJournal {enqueued : Bool} {clock : Option Datetime} (h : Recovers start w)
    (hrotated : state.successor?.isSome → start.Rotating) :
    Recovers start (w.setJournal state enqueued attempt clock) := by
  constructor
  · intro source header successor enqueued' attempt' hjournal
    apply hrotated
    rw [← (hjournal.unique (w.journalHolds_setJournal _ _ _ _)).1]
    rfl
  · refine h.current.imp (fun hcurrent revision hrevision => hcurrent revision ?_) id
    exact (w.sameSuccession_setJournal _ _ _ _).current.1 hrevision

lemma recoveryStep (h : Recovers start w) {start' : World}
    (hstep : RecoveryStep env start' w w') : Recovers start w' := by
  cases hstep with
  | outbox hstep => exact h.sameRotation hstep.sameRotation
  | @record _ t _ hstep =>
    cases hstep with
    | outbox hstep => exact h.sameRotation hstep.sameRotation
    | mark clock hpending =>
      apply h.setJournal
      intro hsome
      cases t with
      | rotated => exact h.rotated _ _ _ _ _ hpending
      | rejected => cases hsome
      | outcomeUnknown => cases hsome
    | delete => exact h.removeJournal
  | discard => exact h.removeJournal
  | dropReserved => exact h.removeJournal
  | abandon => exact h.setJournal (by simp [JournalState.successor?])
  | project hheld hjournal =>
    have hrotated := h.rotated _ _ _ _ _ hjournal
    exact ⟨h.rotated, .inr hrotated⟩
  | reserve => exact h.setJournal (by simp [JournalState.successor?])
  | request => exact h.setJournal (by simp [JournalState.successor?])
  | stop => exact h.setJournal (by simp [JournalState.successor?])

/-- A recovery that continues an unknown outcome has not replaced the credential. -/
lemma current_of_found {revision revision' : String} {offset : Nat} (h : Recovers start w)
    (hfound : Found env start revision reason held offset) (hcurrent : w.Current revision') :
    start.Current revision' := by
  rcases h.current with hsame | ⟨source, header, successor, enqueued, attempt, hjournal⟩
  · exact hsame revision' hcurrent
  · cases hfound with
    | unknown hunknown => cases (hjournal.unique hunknown).1
    | requested hrequested => cases (hjournal.unique hrequested).1

end Recovers

namespace World.Legible

/-- The steps of a preparation, when no scheduled recovery is found after its deadline. -/
lemma recoveryStep (howner : env.owner.Identified) (hstart : start.Legible)
    (htime : start.InTime env) (hrecovers : Recovers start w) (h : w.Legible)
    (hstep : RecoveryStep env start w w') : w'.Legible := by
  cases hstep with
  | outbox hstep => exact h.outbox hstep
  | record hstep => exact h.recordStep_pending hstep
  | discard => exact h.removeJournal
  | dropReserved => exact h.removeJournal
  | abandon clock hheld hjournal hdead hattempt =>
    exact h.setJournal (.of_withContinuation (h.named hheld) (h.fit _ _ _ hjournal).inBudget
      hattempt)
  | project hheld hjournal hrevision => exact h.project hjournal hrevision
  | reserve reading hheld hauthorised =>
    exact h.setJournal (.owned (h.named hheld) rfl howner
      (hauthorised.inBudget hstart (h.named hheld)))
  | request hheld hauthorised =>
    exact h.setJournal (.owned (h.named hheld) rfl howner
      (hauthorised.inBudget hstart (h.named hheld)))
  | @stop current held reason offset clock hheld hjournal hfound hnone =>
    have hfit := h.fit _ _ _ hjournal
    apply h.setJournal
    apply hfit.stop
    by_contra hscheduled
    rw [Bool.not_eq_false] at hscheduled
    -- a scheduled attempt has room, so only its deadline stops it
    rcases hcontinuation : held.continuation with _ | lane | _
    · simp [RotationAttempt.scheduled, hcontinuation] at hscheduled
    · rw [nextRecoveryAttemptAt_of_available hcontinuation (hfit.available lane hcontinuation)]
        at hnone
      apply htime _ _ _ _ (hrecovers.current_of_found hfound hheld.current) hfound hscheduled
      rcases hpassed : deadlinePassed held.recoveryDeadline (env.now offset) with e | _ | _
      · simp [hpassed, Except.map] at hnone
      · simp [hpassed, Except.map] at hnone
      · rfl
    · simp [RotationAttempt.scheduled, hcontinuation] at hscheduled

end World.Legible

/-! ### Commits, projections and imports -/

/-- A terminal state agrees with the continuation of the attempt it is committed with. -/
def TerminalState.Settles (held : RotationAttempt) : TerminalState → Prop
  | .rotated .. => held.continuation = none
  | .rejected .. => held.scheduled = false
  | .outcomeUnknown .. => True

/-- What a commit of a source may end in agrees with the attempt it looks up. -/
def World.Settled (start : World) (env : Env) (source : String) (allowed : TerminalState → Prop) :
    Prop :=
  ∀ t held, allowed t → LookedUp env start source held → t.Settles held

/-- An attempt that is looked up belongs to a fit record or is a fresh one. -/
lemma LookedUp.fit (hstart : start.Legible) (hnamed : source ≠ "")
    (h : LookedUp env start source held) :
    held.InBudget ∧
      (held.continuation = none → held.nextAttemptAt = none ∧ held.stopReason = none) ∧
      (held.continuation = some .stop →
        held.nextAttemptAt = none ∧ held.stopReason.getD "" ≠ "") := by
  cases h with
  | found h =>
    have hfit := hstart.fit _ _ _ (World.journalHolds_of_journalOf h)
    exact ⟨hfit.inBudget, hfit.consistent.idle, fun hstop => (hfit.consistent.stopped hstop).2⟩
  | fallback => exact ⟨inBudget_fresh hnamed, fun _ => ⟨rfl, rfl⟩, by simp⟩

/-- A record that is committed is fit when it settles. -/
lemma Committed.fit {t : TerminalState} (hstart : start.Legible) (hnamed : t.sourceRevision ≠ "")
    (hsuccessor : ∀ successor, t.successor? = some successor → successor ≠ "")
    (hlooked : LookedUp env start t.sourceRevision held) (hsettles : t.Settles held)
    (h : Committed held t attempt) : Fit (.terminal t) attempt := by
  obtain ⟨hbudget, hidle, hstopped⟩ := hlooked.fit hstart hnamed
  have hbudget' : (withoutOwner held).InBudget := hbudget.congr ⟨rfl, rfl, rfl, rfl, rfl, rfl, rfl⟩
  cases h with
  | rotated =>
    obtain ⟨hnext, hreason⟩ := hidle hsettles
    exact .idle hnamed hsuccessor hbudget' ⟨rfl, rfl, rfl⟩ hsettles hnext hreason
  | rejected =>
    rcases hcontinuation : held.continuation with _ | lane | _
    · obtain ⟨hnext, hreason⟩ := hidle hcontinuation
      exact .idle hnamed hsuccessor hbudget' ⟨rfl, rfl, rfl⟩ hcontinuation hnext hreason
    · simp [TerminalState.Settles, RotationAttempt.scheduled, hcontinuation] at hsettles
    · obtain ⟨hnext, hreason⟩ := hstopped hcontinuation
      exact .stopped hnamed rfl hbudget' ⟨rfl, rfl, rfl⟩ hcontinuation hnext hreason
  | unknown source reason responseClass hattempt =>
    exact (Fit.of_withContinuation hnamed hbudget hattempt).responseClass

namespace World.Legible

variable {allowed : TerminalState → Prop} {retained : RetainedRefreshSuccessor}

/-- The steps of a commit, when the record it finds settles. -/
lemma commitStep (hnamed : source ≠ "") (hstart : start.Legible)
    (hallowed : ∀ t, allowed t → t.sourceRevision = source →
      ∀ successor, t.successor? = some successor → successor ≠ "")
    (hsettled : start.Current source → start.Settled env source allowed)
    (h : w.Legible ∧ (w.Current source → start.Current source))
    (hstep : CommitStep env start source allowed w w') :
    w'.Legible ∧ (w'.Current source → start.Current source) := by
  obtain ⟨hlegible, hcurrent⟩ := h
  cases hstep with
  | record _ hstep =>
    refine ⟨hlegible.recordStep_pending hstep, fun h => hcurrent ?_⟩
    exact hstep.sameDispatches.sameSuccession.current.1 h
  | terminal clock ht hheld hrevision hsource hjournal hlooked hattempt =>
    refine ⟨hlegible.setJournal ?_, fun h => hcurrent ?_⟩
    · have hsettles := hsettled (hcurrent ⟨_, hheld, hrevision⟩) _ _ ht hlooked
      subst hsource
      exact hattempt.fit hstart hnamed (hallowed _ ht rfl) hlooked hsettles
    · exact (w.sameSuccession_setJournal _ _ _ _).current.1 h
  | project ht hheld hrevision hjournal hsuccessor =>
    subst hrevision
    exact ⟨hlegible.project hjournal hsuccessor, fun _ => hcurrent hheld.current⟩

/-- The steps of a projection, when the record it finds has no continuation. -/
lemma projectStep (hsource : retained.sourceRevision ≠ "")
    (hsuccessor : retained.auth.revision ≠ "") (hstart : start.Legible)
    (hsettled : start.Current retained.sourceRevision ∨ start.Current retained.auth.revision →
      ∀ held, LookedUp env start retained.sourceRevision held → held.continuation = none)
    (h : w.Legible ∧ (w.Current retained.sourceRevision → start.Current retained.sourceRevision))
    (hstep : ProjectStep env start retained w w') :
    w'.Legible ∧
      (w'.Current retained.sourceRevision → start.Current retained.sourceRevision) := by
  have hnamed : ∀ header successor',
      (TerminalState.rotated retained.sourceRevision header retained.auth.revision).successor? =
        some successor' → successor' ≠ "" := by
    rintro header _ ⟨⟩
    exact hsuccessor
  cases hstep with
  | commit hstep =>
    refine commitStep hsource hstart ?_ ?_ h hstep
    · rintro _ ⟨header, rfl⟩ -
      exact hnamed header
    · rintro hcurrent _ held ⟨header, rfl⟩ hlooked
      exact hsettled (.inl hcurrent) held hlooked
  | already ht hlooked hstored hstep =>
    obtain ⟨header, rfl⟩ := ht
    refine ⟨h.1.recordStep (fun _ => ?_) hstep, fun hcurrent => h.2 ?_⟩
    · exact Committed.fit hstart hsource (hnamed header) hlooked
        (hsettled (.inr hstored) _ hlooked) (.rotated _ _ _)
    · exact hstep.sameDispatches.sameSuccession.current.1 hcurrent

/-- The steps of an import. -/
lemma importStep {auth : StoredAuth} (hnamed : auth.revision ≠ "") (hstart : start.Legible)
    (h : w.Legible) (hstep : ImportStep env start auth w w') : w'.Legible := by
  cases hstep with
  | outbox hstep => exact h.outbox hstep
  | write => exact hstart.setCredential hnamed
  | delete => exact h.removeJournal

end World.Legible

/-! ### Runs -/

/-- The processes can tell who they are, and the revisions they generate have names. -/
structure Label.Named (l : Label) : Prop where
  owner : l.Identified
  minted : ∀ index env, l = .commit index env → env.minted 0 ≠ ""
  imported : ∀ auth env, l = .importCredential auth env → auth.revision ≠ ""

/-- No refresh finds a scheduled recovery after its deadline, and no commit and no projection looks
up an attempt whose continuation does not agree with what it journals. -/
def Sys.Settling (codec : CookieCodec) (s : Sys) : Label → Prop
  | .refresh _ env => s.world.InTime env
  | .commit index env => ∀ source result,
      s.exchanges[index]? = some ⟨env.owner, source, some result⟩ →
      s.world.Current source.revision →
      s.world.Settled env source.revision (Outcomes codec env s.world source result)
  | .projectRetained index env => ∀ r, s.retained[index]? = some r →
      s.world.Current r.successor.sourceRevision ∨ s.world.Current r.successor.auth.revision →
      ∀ held, LookedUp env s.world r.successor.sourceRevision held → held.continuation = none
  | _ => True

/-- The files are legible, and the revisions the processes hold have names. -/
structure Sys.Legible (s : Sys) : Prop where
  world : s.world.Legible
  sources : ∀ e ∈ s.exchanges, e.source.revision ≠ ""
  retained : ∀ r ∈ s.retained,
    r.successor.sourceRevision ≠ "" ∧ r.successor.auth.revision ≠ ""

variable {codec : CookieCodec} {s s' : Sys} {l : Label}

lemma Moved.legible (hmoved : Moved codec s l w) (h : s.Legible) (hnamed : l.Named)
    (hsettling : s.Settling codec l) : w.Legible := by
  cases hmoved with
  | prepared hmoves =>
    exact (keeps_of_moves (I := fun v => Recovers s.world v ∧ v.Legible) ⟨.begin, h.world⟩ hmoves
      fun v v' hv hstep => ⟨hv.1.recoveryStep hstep,
        h.world.recoveryStep (hnamed.owner _ rfl) hsettling hv.1 hv.2 hstep⟩).2
  | returned => exact h.world
  | @committed index env _ source result hget hmoves =>
    refine (keeps_of_moves (I := fun v => v.Legible ∧
      (v.Current source.revision → s.world.Current source.revision)) ⟨h.world, id⟩ hmoves
      fun v v' hv hstep => h.world.commitStep ?_ ?_ (hsettling source result hget) hv hstep).1
    · exact h.sources _ (List.mem_of_getElem? hget)
    · intro t ht _ successor hsuccessor
      rw [ht.names.2 successor hsuccessor]
      exact hnamed.minted index env rfl
  | recovered hmoves =>
    exact keeps_of_moves h.world hmoves fun _ _ hv hstep => hv.reconcileStep hstep
  | imported hmoves =>
    exact keeps_of_moves h.world hmoves fun _ _ hv hstep =>
      h.world.importStep (hnamed.imported _ _ rfl) hv hstep
  | @projected index env _ retained hget hmoves =>
    obtain ⟨hsource, hsuccessor⟩ := h.retained _ (List.mem_of_getElem? hget)
    exact (keeps_of_moves (I := fun v => v.Legible ∧
      (v.Current retained.sourceRevision → s.world.Current retained.sourceRevision))
      ⟨h.world, id⟩ hmoves fun v v' hv hstep =>
        h.world.projectStep hsource hsuccessor (hsettling _ hget) hv hstep).1
  | crashed => exact h.world

lemma Sys.Legible.kill (h : s.Legible) (owner : RefreshOwner) : (s.kill owner).Legible :=
  ⟨h.world, fun e he => h.sources e (List.mem_filter.1 he).1,
    fun r hr => h.retained r (List.mem_filter.1 hr).1⟩

/-- The revisions the processes hold keep their names. -/
lemma Stepped.legible {t : Sys} (ht : Stepped codec s l t) (hworld : t.world.Legible)
    (h : s.Legible) (hnamed : l.Named) : t.Legible := by
  cases ht with
  | prepared => exact ⟨hworld, h.sources, h.retained⟩
  | dispatched clock hlive hmoves hdispatched =>
    refine ⟨hworld, ?_, h.retained⟩
    intro e he
    rcases List.mem_append.1 he with he | he
    · exact h.sources e he
    · rw [List.mem_singleton.1 he]
      exact hworld.named hdispatched.holds
  | returned hget =>
    refine ⟨hworld, ?_, h.retained⟩
    intro e he
    rcases List.mem_or_eq_of_mem_set he with he | rfl
    · exact h.sources e he
    · have hnamed := h.sources _ (List.mem_of_getElem? hget)
      exact hnamed
  | committed => exact ⟨hworld, fun e he => h.sources e (List.mem_of_mem_eraseIdx he), h.retained⟩
  | @kept index env _ source _ retained clock hget _ _ hsource hsuccessor =>
    refine ⟨hworld, fun e he => h.sources e (List.mem_of_mem_eraseIdx he), ?_⟩
    intro r hr
    rcases List.mem_append.1 hr with hr | hr
    · exact h.retained r hr
    · rw [List.mem_singleton.1 hr]
      constructor
      · rw [hsource]
        exact h.sources _ (List.mem_of_getElem? hget)
      · rw [hsuccessor]
        exact hnamed.minted index env rfl
  | recovered => exact ⟨hworld, h.sources, h.retained⟩
  | imported => exact ⟨hworld, h.sources, h.retained⟩
  | projected clock kept hget hlive hmoves hkept =>
    refine ⟨hworld, h.sources, ?_⟩
    intro r hr
    rcases hkept with rfl | rfl
    · exact h.retained r hr
    · exact h.retained r (List.mem_of_mem_eraseIdx hr)
  | crashed => exact h

lemma Sys.Legible.step (h : s.Legible) (hnamed : l.Named) (hsettling : s.Settling codec l)
    (hstep : Sys.step codec s l = some s') : s'.Legible := by
  have hworld := (Sys.step_moved hstep).legible h hnamed hsettling
  obtain ⟨t, ht, rfl | ⟨owner, -, rfl⟩⟩ := Sys.step_cases hstep
  · exact ht.legible hworld h hnamed
  · exact (ht.legible hworld h hnamed).kill owner

/-- A new installation without a journal is legible when the stored revision has a name. -/
lemma Sys.Initial.legible (h : s.Initial) (hnamed : ¬ s.world.Current "") : s.Legible := by
  refine ⟨⟨.inl h.journal, ?_, hnamed⟩, ?_, ?_⟩
  · rintro _ _ _ ⟨_, hfile, _⟩
    simp [h.journal] at hfile
  · simp [h.exchanges]
  · simp [h.retained]

/-- The initial states of installations whose stored revision, if any, has a name. -/
def Sys.NamedInitial (s : Sys) : Prop := s.Initial ∧ ¬ s.world.Current ""

/-- A step with named revisions that meets the settling condition. -/
structure Sys.Orderly (codec : CookieCodec) (s : Sys) (l : Label) : Prop where
  named : l.Named
  settling : s.Settling codec l

/-- In every state of an orderly run the journal is read as absent or as a record. -/
theorem readable_of_orderly
    (h : Reachable Sys.NamedInitial (Sys.step codec) (Sys.Orderly codec) s) :
    s.world.Readable := by
  have hlegible : s.Legible := h.invariant (fun _ hinit => hinit.1.legible hinit.2)
    fun _ _ _ hs hok hstep => hs.step hok.named hok.settling hstep
  exact hlegible.world.readable

lemma Sys.installed_named (auth : StoredAuth) (hnamed : auth.revision ≠ "") :
    (Sys.installed auth).NamedInitial := by
  refine ⟨Sys.installed_initial auth, ?_⟩
  rintro ⟨auth', hheld, hempty⟩
  rw [hheld.unique ⟨_, rfl, .inl rfl⟩] at hempty
  exact hnamed hempty

/-- A process of a calm run can tell who it is. -/
lemma Label.named_of_worker {pid : Int} {now : Datetime} {minted : String} (hpid : 0 < pid)
    (hminted : minted ≠ "") {l : Label} (henv : l.env? = some (.calm (worker pid) now minted))
    (himport : ∀ auth env, l = .importCredential auth env → auth.revision ≠ "") : l.Named := by
  refine ⟨?_, ?_, himport⟩
  · intro env h
    obtain rfl := Option.some.inj (henv.symm.trans h)
    exact ⟨by simp [Env.calm, worker], hpid, by simp [Env.calm, worker]⟩
  · intro index env h
    subst h
    obtain rfl := Option.some.inj henv
    exact hminted

/-- Whether a refresh finds no journal, or an outcome in time, and a commit is of an exchange that
got no answer. -/
def Sys.settles (s : Sys) : Label → Bool
  | .refresh _ env =>
    match journalOf s.world.journal with
    | .ok .absent => true
    | .ok (.loaded (.terminal _) _ attempt _) =>
      deadlinePassed attempt.recoveryDeadline (env.now 0) ≠ .ok true
    | _ => false
  | .commit index _ =>
    match s.exchanges[index]? with
    | some ⟨_, _, some (.httpError _)⟩ => true
    | _ => false
  | .projectRetained .. => false
  | _ => true

lemma Sys.settling_of_settles {codec : CookieCodec} {s : Sys} {l : Label}
    (h : s.settles l = true) (hcalm : l.Calm) : s.Settling codec l := by
  cases l with
  | refresh expected env =>
    intro revision reason held offset _ hfound _
    rw [(hcalm env rfl).1 offset]
    simp only [Sys.settles] at h
    -- what is found is what the journal is read as
    have hread : ∀ state enqueued attempt, s.world.JournalHolds state enqueued attempt →
        (∃ t, state = .terminal t) ∧
          deadlinePassed attempt.recoveryDeadline (env.now 0) ≠ .ok true := by
      intro state enqueued attempt hholds
      split at h
      · next habsent =>
        obtain ⟨payload, hfile, -⟩ := hholds
        rw [hfile] at habsent
        exact absurd habsent (parseJournal_ne_absent payload)
      · next hloaded =>
        obtain ⟨rfl, rfl, -⟩ := (World.journalHolds_of_journalOf hloaded).unique hholds
        exact ⟨⟨_, rfl⟩, of_decide_eq_true h⟩
      · cases h
    cases hfound with
    | unknown hholds => exact (hread _ _ _ hholds).2
    | requested hholds =>
      obtain ⟨⟨_, ⟨⟩⟩, -⟩ := hread _ _ _ hholds
  | commit index env =>
    intro source result hexchange _ t held hallowed _
    simp only [Sys.settles, hexchange] at h
    cases result with
    | httpError code =>
      cases t with
      | rotated source header successor =>
        obtain ⟨_, _, ⟨⟩, _⟩ := hallowed.ends
      | rejected source reason =>
        obtain ⟨_, ⟨⟩, _⟩ := hallowed.ends
      | outcomeUnknown source reason => trivial
    | _ => cases h
  | projectRetained index env => cases h
  | _ => trivial

theorem readable_of_orderly_replay :
    ∃ s : Sys, s.posts.map (fun d => d.attempt.attemptKind) =
      [.normal, .recovery .ambiguityReplay] ∧ s.world.Readable := by
  obtain ⟨s, hreplay, hposts⟩ := Option.map_eq_some_iff.1
    (show (replay (Sys.step plainCodec) Sys.settles (Sys.installed firstAuth) replayedTrace).map
      (fun s => s.posts.map fun d => d.attempt.attemptKind) =
        some [.normal, .recovery .ambiguityReplay] by decide +kernel)
  have hnamed : ∀ l ∈ replayedTrace, l.Named := by
    simp only [replayedTrace, List.forall_mem_cons]
    refine ⟨?_, ⟨by rintro _ ⟨⟩, by rintro _ _ ⟨⟩, by rintro _ _ ⟨⟩⟩, ?_, ?_, by rintro _ ⟨⟩⟩
    all_goals exact Label.named_of_worker (by decide) (by decide) rfl (by rintro _ _ ⟨⟩)
  refine ⟨s, hposts, readable_of_orderly ⟨_, _, Sys.installed_named firstAuth
    (by simp [firstAuth]), .of_replay (fun l hl s hsettles => ?_) hreplay⟩⟩
  exact ⟨hnamed l hl, Sys.settling_of_settles hsettles (replayedTrace_calm l hl)⟩

/-- An exchange without an answer is committed as an unknown outcome with a scheduled replay, and
the next refresh comes after the deadline. -/
def lateTrace : List Label :=
  [.refresh none (.calm (worker 1) launch "r1"),
    .exchangeReturns 0 (.httpError "NETWORK"),
    .commit 0 (.calm (worker 1) launch "r1"),
    .refresh none (.calm (worker 1) (launchAfter 600) "r2")]

lemma lateTrace_calm : ∀ l ∈ lateTrace, l.Calm ∧ l.Named := by
  simp only [lateTrace, List.forall_mem_cons]
  refine ⟨⟨?_, ?_⟩, ⟨?_, ?_⟩, ⟨?_, ?_⟩, ⟨?_, ?_⟩, by rintro _ ⟨⟩⟩
  · rintro env ⟨⟩; exact ⟨fun _ => rfl, fun _ => rfl⟩
  · exact Label.named_of_worker (by decide) (by decide) rfl (by rintro _ _ ⟨⟩)
  · rintro env ⟨⟩
  · exact ⟨by rintro _ ⟨⟩, by rintro _ _ ⟨⟩, by rintro _ _ ⟨⟩⟩
  · rintro env ⟨⟩; exact ⟨fun _ => rfl, fun _ => rfl⟩
  · exact Label.named_of_worker (by decide) (by decide) rfl (by rintro _ _ ⟨⟩)
  · rintro env ⟨⟩; exact ⟨fun _ => rfl, fun _ => rfl⟩
  · exact Label.named_of_worker (by decide) (by decide) rfl (by rintro _ _ ⟨⟩)

/-- A run that meets all assumptions can leave a journal that is not read back. -/
theorem not_readable_of_assumed :
    ¬ ∀ s, Reachable Sys.NamedInitial (Sys.step plainCodec)
      (fun s l => s.Assumed l ∧ l.Named) s → s.world.Readable := by
  intro h
  obtain ⟨s, hreplay, hcorrupt⟩ := Option.map_eq_some_iff.1
    (show (replay (Sys.step plainCodec) Sys.suits (Sys.installed firstAuth)
      lateTrace).map (fun s => journalOf s.world.journal) =
        some (.ok (.corrupt "stopped recovery metadata is inconsistent")) by decide +kernel)
  have hpath : Path (Sys.step plainCodec) (fun s l => s.Assumed l ∧ l.Named)
      (Sys.installed firstAuth) lateTrace s := .of_replay (fun l hl s hsuits =>
    ⟨(lateTrace_calm l hl).1.assumed hsuits, (lateTrace_calm l hl).2⟩) hreplay
  have hreadable := h s ⟨_, _, Sys.installed_named firstAuth (by simp [firstAuth]), hpath⟩
  simp [World.Readable, hcorrupt] at hreadable

end EnjiGuard.AuthSession
