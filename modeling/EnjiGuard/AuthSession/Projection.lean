import EnjiGuard.AuthSession.Budget
import EnjiGuard.AuthSession.InFlight
import EnjiGuard.AuthSession.Retrying

/-!
# The read-only observer

Status and readiness calls look at the credential and the journal without the lock, and classify
what they see. The classification agrees with the coordinator: it says whether a preparation that
finds the same files dispatches. A verdict that a fresh credential has to be imported is final: no
later section of any process dispatches the revision it was given for, whatever fails in between.
-/

namespace EnjiGuard.AuthSession

open Foundation Action Relation

/-! ### Projections -/

/-- What an observer makes of the files. -/
inductive AuthProjection
  | credentialReady (auth : StoredAuth)
  | rotationReserved (auth : StoredAuth) (source : String)
  | rotationInProgress (auth : StoredAuth) (source : String)
  | rotationRecoveryAvailable (auth : StoredAuth) (source replacement successor : String)
  | rotationRecovering (auth : StoredAuth) (source reason : String) (attempt : RotationAttempt)
  | rotationRecoveryExhausted (auth : StoredAuth) (source reason : String)
      (attempt : RotationAttempt)
  /-- The state is a rejection or an unknown outcome. -/
  | reimportRequired (auth : StoredAuth) (state : TerminalState)
  | credentialAbsent
  | credentialCorrupt (detail : String)
  | credentialUnsupported (version : Json)
  | credentialIoFailure (operation error : String)
  | credentialClockAnomaly
  | journalCorrupt (detail : String)
  | journalIoFailure (operation error : String)

/-- A failure that is shown to a caller. -/
structure AuthProjectionError where
  code : String
  message : String
  deriving DecidableEq, Repr

/-- The state of the renewal, beside the authentication. -/
structure RefreshProjectionStatus where
  refreshState : Option String
  reauthRequired : Bool
  message : Option String := none
  deriving DecidableEq, Repr

/-- A journal record about the revision of a credential. -/
def projectMatchingRotationState (auth : StoredAuth) (journal : JournalState)
    (attempt : RotationAttempt) : AuthProjection :=
  match journal with
  | .reserved source => .rotationReserved auth source
  | .requested source => .rotationInProgress auth source
  | .terminal (.rotated source replacement successor) =>
    .rotationRecoveryAvailable auth source replacement successor
  | .terminal (.outcomeUnknown source reason) =>
    match attempt.continuation with
    | some (.lane _) => .rotationRecovering auth source reason attempt
    | some .stop => .rotationRecoveryExhausted auth source reason attempt
    | none => .reimportRequired auth (.outcomeUnknown source reason)
  | .terminal (.rejected source reason) => .reimportRequired auth (.rejected source reason)

/-- A journal record beside a credential. -/
def projectRotationState (auth : StoredAuth) (journal : JournalState)
    (attempt : RotationAttempt) : AuthProjection :=
  if journal.sourceRevision ≠ auth.revision then .credentialReady auth
  else projectMatchingRotationState auth journal attempt

/-- What there is beside a credential that is found. -/
def projectLoaded (auth : StoredAuth) : JournalLoadResult → AuthProjection
  | .absent => .credentialReady auth
  | .corrupt detail => .journalCorrupt detail
  | .ioFailure operation error => .journalIoFailure operation error
  | .loaded journal _ attempt _ => projectRotationState auth journal attempt

/-- Classifies what was read of the files. -/
def projectAuth (loaded : AuthLoadResult) (journal : JournalLoadResult) : AuthProjection :=
  match loaded with
  | .loaded auth => projectLoaded auth journal
  | .absent => .credentialAbsent
  | .corrupt detail => .credentialCorrupt detail
  | .unsupported version => .credentialUnsupported version
  | .ioFailure operation error => .credentialIoFailure operation error
  | .clockAnomaly => .credentialClockAnomaly

/-- The credential a request may be made with. -/
def networkCredential : AuthProjection → Except AuthProjectionError StoredAuth
  | .credentialReady auth | .rotationReserved auth _ | .rotationInProgress auth _
  | .rotationRecovering auth .. | .rotationRecoveryExhausted auth ..
  | .reimportRequired auth _ => .ok auth
  | .rotationRecoveryAvailable .. => .error ⟨"AUTH_ROTATION_RECOVERY_PENDING",
      "auth rotation recovery is pending; restart the service or import a fresh browser credential"⟩
  | .credentialAbsent => .error ⟨"AUTH_REQUIRED", "auth file does not exist"⟩
  | .credentialCorrupt _ =>
    .error ⟨"AUTH_CORRUPT", "auth file is corrupt; import a fresh browser credential"⟩
  | .credentialUnsupported _ => .error ⟨"AUTH_UNSUPPORTED",
      "auth file version is unsupported; import a fresh browser credential"⟩
  | .credentialIoFailure .. =>
    .error ⟨"AUTH_IO_FAILURE", "auth credential storage is unavailable"⟩
  | .credentialClockAnomaly =>
    .error ⟨"AUTH_CLOCK_ANOMALY", "auth file imported_at is in the future"⟩
  | .journalCorrupt _ => .error ⟨"AUTH_JOURNAL_CORRUPT",
      "refresh journal is corrupt; import a fresh browser credential"⟩
  | .journalIoFailure .. =>
    .error ⟨"AUTH_JOURNAL_IO_FAILURE", "refresh journal storage is unavailable"⟩

/-- The state of the renewal a projection shows. -/
def refreshProjectionStatus : AuthProjection → RefreshProjectionStatus
  | .credentialReady _ => ⟨none, false, none⟩
  | .rotationReserved .. => ⟨some "reserved", false, none⟩
  | .rotationInProgress .. => ⟨some "requested", false, none⟩
  | .rotationRecoveryAvailable .. => ⟨some "rotated", false, some
      "auth rotation recovery is pending; restart the service or import a fresh browser credential"⟩
  | .rotationRecovering _ _ reason _ =>
    ⟨some "recovering", false, some ("refresh recovery is scheduled (" ++ reason ++ ")")⟩
  | .rotationRecoveryExhausted _ _ reason _ => ⟨some "exhausted", true, some
      ("refresh recovery is exhausted (" ++ reason ++ "); import a fresh browser credential")⟩
  | .reimportRequired _ (.rejected _ reason) => ⟨some "rejected", true, some
      ("refresh was rejected (" ++ reason ++ "); import a fresh browser credential")⟩
  | .reimportRequired _ (.outcomeUnknown _ reason) => ⟨some "outcome_unknown", true, some
      ("refresh outcome is unknown (" ++ reason ++ "); import a fresh browser credential")⟩
  | _ => ⟨none, true, none⟩

/-- Reads the credential and then the journal, without the lock, and classifies them. -/
def observeAuth (env : Env) : Auth AuthProjection := do
  let loaded ← loadAuth env
  let journal ← loadJournal env
  return projectAuth loaded journal

/-! ### What was read -/

/-- A credential file that is read as a credential holds it. -/
lemma World.holds_of_authOf {w : World} {now : Datetime} {auth : StoredAuth}
    (h : authOf now w.credential = .ok (.loaded auth)) : w.Holds auth := by
  rcases hfile : w.credential with _ | _ | detail | typeName | payload <;> rw [hfile] at h
  · cases h
  · cases h
  · cases h
  · cases h
  · exact ⟨payload, hfile, .inr ⟨_, h⟩⟩

/-- An observer classifies what it reads of the files. -/
lemma concludes_observeAuth {watcher : Env} {r : Run} :
    Concludes watcher.faults (observeAuth watcher) r
      (fun projection _ => ∃ loaded journal, projection = projectAuth loaded journal ∧
        (∀ auth, loaded = .loaded auth → r.world.Holds auth) ∧
        (journalOf r.world.journal = .ok journal ∨
          ∃ operation error, journal = .ioFailure operation error))
      fun _ _ => True := by
  refine ((concludes_loadAuth watcher).weaken (fun _ _ h => h) fun _ _ _ => trivial).bind
    fun loaded r₁ h₁ => ?_
  obtain ⟨hleft, hloaded⟩ := h₁
  refine ((concludes_loadJournal watcher).weaken (fun _ _ h => h) fun _ _ _ => trivial).bind
    fun journal r₂ h₂ => Concludes.pure ⟨loaded, journal, rfl, ?_, ?_⟩
  · rintro auth rfl
    rcases hloaded with hfile | ⟨-, _, _, ⟨⟩⟩
    exact World.holds_of_authOf hfile
  · rw [hleft.world] at h₂
    exact h₂.2.imp_right And.right

/-- Where nothing fails an observer classifies the files as they are. -/
lemma observeAuth_calm {w : World} {now : Datetime} {loaded : AuthLoadResult}
    {journal : JournalLoadResult} (owner : RefreshOwner) (minted : String)
    (hloaded : authOf now w.credential = .ok loaded)
    (hjournal : journalOf w.journal = .ok journal) :
    observeAuth (.calm owner now minted) (Run.start w) =
      (.ok (projectAuth loaded journal),
        (observeAuth (.calm owner now minted) (Run.start w)).2) := by
  have hends : Ends (observeAuth (.calm owner now minted)) (Run.start w)
      (fun projection _ => projection = projectAuth loaded journal) fun _ _ => False := by
    refine ((ends_loadAuth (Env.healthy_calm owner now minted)).weaken (fun _ _ h => h) ?_).bind
      fun result r₁ h₁ => ?_
    · rintro e r' ⟨-, herror⟩
      cases hloaded.symm.trans herror
    obtain ⟨hleft, hresult⟩ := h₁
    cases hloaded.symm.trans hresult
    refine ((ends_loadJournal (Env.healthy_calm owner now minted)).weaken (fun _ _ h => h)
      ?_).bind fun result r₂ h₂ => Ends.pure ?_
    · rintro e r' ⟨-, herror⟩
      rw [hleft.world] at herror
      cases hjournal.symm.trans herror
    · have hresult := h₂.2
      rw [hleft.world] at hresult
      cases hjournal.symm.trans hresult
      rfl
  rcases hrun : observeAuth (.calm owner now minted) (Run.start w) with ⟨projection | e | _, r⟩
  · rw [hends.returned (congrArg Prod.fst hrun)]
  · exact (hends.raised (congrArg Prod.fst hrun)).elim
  · exact absurd (congrArg Prod.fst hrun) hends.not_crashed

/-! ### The observer and the coordinator -/

section Foretelling

variable {env watcher : Env} {expected : Option StoredAuth} {w : World} {r : Run}
  {auth current : StoredAuth} {projection : AuthProjection} {journal : JournalLoadResult}
  {attempt : RotationAttempt} {header : String}

/-- The journal holds the rotation that produced a credential. -/
def World.Succeeds (w : World) (auth : StoredAuth) : Prop :=
  ∃ state enqueued attempt migrated,
    journalOf w.journal = .ok (.loaded state enqueued attempt migrated) ∧
      state.successor? = some auth.revision

/-- What a projection foretells of the next preparation: whether it dispatches the credential. -/
def Foretells (env : Env) (expected : Option StoredAuth) (w : World) (current : StoredAuth) :
    AuthProjection → Prop
  | .credentialReady auth => auth = current ∧
      (Dispatches env expected w current ↔
        w.OutboxReady ∧ Starts env expected current 0 ∧ ¬ w.Succeeds current)
  | .rotationReserved auth _ => auth = current ∧
      (Dispatches env expected w current ↔ w.OutboxReady ∧ Starts env expected current 0)
  | .rotationInProgress auth source => auth = current ∧
      (Dispatches env expected w current ↔ w.OutboxReady ∧ ∃ enqueued attempt migrated held,
        journalOf w.journal = .ok (.loaded (.requested source) enqueued attempt migrated) ∧
        ownerIsAlive env attempt = false ∧ AbandonedAs env attempt 0 held ∧ Due env held 2)
  | .rotationRecovering auth _ _ attempt => auth = current ∧
      (Dispatches env expected w current ↔ w.OutboxReady ∧ Due env attempt 0)
  | .rotationRecoveryAvailable auth .. | .rotationRecoveryExhausted auth ..
  | .reimportRequired auth _ => auth = current ∧ ¬ Dispatches env expected w current
  | .journalCorrupt _ => ¬ Dispatches env expected w current
  | _ => True

/-- A dispatch that is due continues the record in a lane. -/
lemma Due.lane {n : Nat} (h : Due env attempt n) :
    ∃ lane, attempt.continuation = some (.lane lane) := by
  obtain ⟨-, next, lane, passed, left, left', hnext, -⟩ := h
  obtain ⟨lane, hlane, -⟩ := nextRecoveryAttemptAt_eq_some hnext
  exact ⟨lane, hlane⟩

/-- A classified journal foretells whether a preparation that finds it dispatches. -/
lemma foretells_projectLoaded (hhealthy : env.Healthy) (hsink : env.SinkContained)
    (hfinds : env.Finds w current) (hcookie : current.credential = .cookie header)
    (hjournal : journalOf w.journal = .ok journal ∨
      ∃ operation error, journal = .ioFailure operation error) :
    Foretells env expected w current (projectLoaded current journal) := by
  have hiff := @dispatches_iff env expected _ _ w hhealthy hsink hfinds hcookie
  rcases hjournal with hjournal | ⟨operation, error, rfl⟩
  swap
  · exact trivial
  rw [goesOn_iff hjournal] at hiff
  have hsucceeds : w.Succeeds current ↔ ∃ state enqueued attempt migrated,
      journal = .loaded state enqueued attempt migrated ∧
        state.successor? = some current.revision := by
    simp only [World.Succeeds, hjournal, Except.ok.injEq]
  cases journal with
  | absent =>
    refine ⟨rfl, hiff.trans (and_congr Iff.rfl (iff_self_and.2 fun _ => ?_))⟩
    rw [hsucceeds]
    rintro ⟨_, _, _, _, ⟨⟩, _⟩
  | corrupt detail => exact fun h => (hiff.1 h).2
  | ioFailure operation error => exact trivial
  | loaded state enqueued attempt migrated =>
    simp only [projectLoaded, projectRotationState]
    simp only [GoesFrom, Goes] at hiff
    have hsucceeds' : w.Succeeds current ↔ state.successor? = some current.revision := by
      rw [hsucceeds]
      constructor
      · rintro ⟨_, _, _, _, ⟨⟩, h⟩
        exact h
      · exact fun h => ⟨_, _, _, _, rfl, h⟩
    by_cases hsource : state.sourceRevision ≠ current.revision
    · rw [if_pos hsource] at hiff ⊢
      refine ⟨rfl, hiff.trans (and_congr Iff.rfl ?_)⟩
      rw [hsucceeds']
      split_ifs with hsuccessor
      · exact ⟨False.elim, fun h => h.2 hsuccessor⟩
      · exact ⟨fun h => ⟨h, hsuccessor⟩, fun h => h.1⟩
    · rw [if_neg hsource] at hiff ⊢
      -- the record is about the credential
      rcases state with source | source | ⟨source, replacement, successor⟩ | ⟨source, reason⟩ |
        ⟨source, reason⟩
      · exact ⟨rfl, hiff⟩
      · refine ⟨rfl, hiff.trans (and_congr Iff.rfl ?_)⟩
        constructor
        · rintro ⟨hdead, held, hheld, hdue⟩
          exact ⟨_, _, _, held, hjournal, hdead, hheld, hdue⟩
        · rintro ⟨_, _, _, held, hjournal', hdead, hheld, hdue⟩
          rw [hjournal] at hjournal'
          cases hjournal'
          exact ⟨hdead, held, hheld, hdue⟩
      · refine ⟨rfl, fun h => ?_⟩
        have hgoes := (hiff.1 h).2
        split_ifs at hgoes
        exact hgoes
      · exact ⟨rfl, fun h => (hiff.1 h).2⟩
      · simp only [projectMatchingRotationState]
        rcases hcontinuation : attempt.continuation with _ | lane | _
        · refine ⟨rfl, fun h => ?_⟩
          obtain ⟨lane, hlane⟩ := Due.lane (hiff.1 h).2
          rw [hcontinuation] at hlane
          cases hlane
        · exact ⟨rfl, hiff⟩
        · refine ⟨rfl, fun h => ?_⟩
          obtain ⟨lane, hlane⟩ := Due.lane (hiff.1 h).2
          rw [hcontinuation] at hlane
          cases hlane

/-- What an observer sees foretells the next preparation, unless the observer cannot read. -/
theorem foretells_of_observeAuth (hhealthy : env.Healthy) (hsink : env.SinkContained)
    (hfinds : env.Finds w current) (hcookie : current.credential = .cookie header)
    (hseen : observeAuth watcher (Run.start w) = (.ok projection, r)) :
    Foretells env expected w current projection := by
  have hreturns := (@concludes_observeAuth watcher (Run.start w)).returns projection
    (congrArg Prod.fst hseen)
  obtain ⟨loaded, journal, rfl, hheld, hjournal⟩ := hreturns
  cases loaded with
  | loaded auth =>
    rw [World.Holds.unique (hheld auth rfl) hfinds.holds]
    exact foretells_projectLoaded hhealthy hsink hfinds hcookie hjournal
  | _ => exact trivial

end Foretelling

lemma Env.healthy_reading (now : Nat → Datetime) : (Env.reading now).Healthy :=
  ⟨fun _ _ => rfl, fun _ _ => rfl⟩

theorem foretells_of_observeAuth_awaiting :
    Dispatches (.reading fun _ => launchAfter 100) none firstAwaiting firstAuth ↔
      firstAwaiting.OutboxReady ∧ Due (.reading fun _ => launchAfter 100) firstUnknown 0 := by
  have hseen : observeAuth (.calm (worker 2) launch "r2") (Run.start firstAwaiting) =
      (.ok (.rotationRecovering firstAuth "r0" "no response" firstUnknown),
        (observeAuth (.calm (worker 2) launch "r2") (Run.start firstAwaiting)).2) := by
    rfl
  have hforetells : Foretells (.reading fun _ => launchAfter 100) none firstAwaiting firstAuth
      (.rotationRecovering firstAuth "r0" "no response" firstUnknown) :=
    foretells_of_observeAuth (Env.healthy_reading _) (Env.sinkContained_reading _)
      (Env.finds_reading _) rfl hseen
  exact hforetells.2

/-! ### A verdict is final -/

section Verdicts

variable {codec : CookieCodec} {revision : String} {sent : List Dispatch} {env : Env}
variable {w w' start : World} {state : JournalState} {attempt : RotationAttempt} {enqueued : Bool}

/-- A record that ends the renewal of a revision. -/
def Final (revision : String) (attempt : RotationAttempt) : JournalState → Prop
  | .terminal (.rejected source _) => source = revision
  | .terminal (.outcomeUnknown source _) =>
    source = revision ∧ ∀ lane, attempt.continuation ≠ some (.lane lane)
  | _ => False

lemma Final.source (h : Final revision attempt state) : state.sourceRevision = revision := by
  rcases state with _ | _ | ⟨_ | _ | _⟩
  · cases h
  · cases h
  · cases h
  · exact h
  · exact h.1

/-- While a revision is stored the journal holds a record that ends its renewal, and once another
one is stored it does not come back. The dispatches of the revision are in the past. -/
structure World.Closed (revision : String) (sent : List Dispatch) (w : World) : Prop where
  rotated : ∀ source header successor enqueued attempt,
    w.JournalHolds (.terminal (.rotated source header successor)) enqueued attempt →
    successor ≠ revision
  present : w.Current revision → w.journal ≠ none
  final : w.Current revision → ∀ state enqueued attempt, w.JournalHolds state enqueued attempt →
    Final revision attempt state
  sent : sentFor revision w.dispatches = sent

namespace World.Closed

lemma sameRotation (h : w.Closed revision sent) (hsame : w.SameRotation w') :
    w'.Closed revision sent := by
  have hcurrent : w'.Current revision ↔ w.Current revision :=
    hsame.sameDispatches.sameSuccession.current
  constructor
  · intro source header successor enqueued attempt hjournal
    exact h.rotated _ _ _ _ _ (hsame.journalHolds.1 hjournal)
  · rw [hcurrent, hsame.journal]
    exact h.present
  · rw [hcurrent]
    intro hstored state enqueued attempt hjournal
    exact h.final hstored _ _ _ (hsame.journalHolds.1 hjournal)
  · rw [hsame.dispatches]
    exact h.sent

/-- A journal is removed only while another revision is stored. -/
lemma removeJournal (h : w.Closed revision sent) (hother : ¬ w.Current revision) :
    w.removeJournal.Closed revision sent := by
  have hcurrent : w.removeJournal.Current revision ↔ w.Current revision :=
    w.sameDispatches_removeJournal.sameSuccession.current
  constructor
  · rintro _ _ _ _ _ ⟨_, ⟨⟩, _⟩
  · rw [hcurrent]
    exact fun hstored => absurd hstored hother
  · rw [hcurrent]
    exact fun hstored => absurd hstored hother
  · exact h.sent

/-- A journal is replaced by a final record, or while another revision is stored. -/
lemma setJournal {clock : Option Datetime} (h : w.Closed revision sent)
    (hrotated : ∀ successor, state.successor? = some successor → successor ≠ revision)
    (hfinal : w.Current revision → Final revision attempt state)
    (hrequested : state ≠ .requested revision) :
    (w.setJournal state enqueued attempt clock).Closed revision sent := by
  have hnew := w.journalHolds_setJournal state enqueued attempt clock
  have hcurrent : (w.setJournal state enqueued attempt clock).Current revision ↔
      w.Current revision := (w.sameSuccession_setJournal state enqueued attempt clock).current
  constructor
  · intro source header successor enqueued' attempt' hjournal
    apply hrotated
    rw [← (hjournal.unique hnew).1]
    rfl
  · intro _ hnone
    simp [World.setJournal] at hnone
  · rw [hcurrent]
    intro hstored state' enqueued' attempt' hjournal
    obtain ⟨rfl, rfl, -⟩ := hjournal.unique hnew
    exact hfinal hstored
  · rw [← h.sent]
    cases state with
    | requested source =>
      have hother : source ≠ revision := fun heq => hrequested (by rw [heq])
      simp [World.setJournal, sentFor, hother]
    | _ => rfl

/-- Another revision is stored. -/
lemma setCredential {auth : StoredAuth} {cause : WriteCause} (h : w.Closed revision sent)
    (hother : auth.revision ≠ revision) : (w.setCredential auth cause).Closed revision sent := by
  have hgone : ¬ (w.setCredential auth cause).Current revision := fun hstored =>
    hother (World.current_setCredential.1 hstored).symm
  exact ⟨h.rotated, fun hstored => absurd hstored hgone, fun hstored => absurd hstored hgone,
    h.sent⟩

/-- A record that is not final shows that another revision is stored. -/
lemma not_current (h : w.Closed revision sent) (hjournal : w.JournalHolds state enqueued attempt)
    (hfinal : ¬ Final revision attempt state) : ¬ w.Current revision :=
  fun hstored => hfinal (h.final hstored _ _ _ hjournal)

lemma recordStep {t : TerminalState} (h : w.Closed revision sent)
    (hstep : RecordStep t attempt (World.Pending t attempt) w w') : w'.Closed revision sent := by
  cases hstep with
  | outbox hstep => exact h.sameRotation hstep.sameRotation
  | mark clock hpending =>
    refine h.setJournal ?_ (fun hstored => h.final hstored _ _ _ hpending) (by simp)
    intro successor hsuccessor
    cases t with
    | rotated source header successor' =>
      cases hsuccessor
      exact h.rotated _ _ _ _ _ hpending
    | _ => cases hsuccessor
  | delete hjournal hprojected hsome =>
    refine h.removeJournal (h.not_current hjournal ?_)
    cases t with
    | rotated source header successor' => exact not_false
    | _ => cases hsome

/-- A recovery neither dispatches the revision nor drops its final record. -/
lemma recoveryStep (h : w.Closed revision sent) (hstep : RecoveryStep env start w w') :
    w'.Closed revision sent := by
  cases hstep with
  | outbox hstep => exact h.sameRotation hstep.sameRotation
  | record hstep => exact h.recordStep hstep
  | @discard current state _ _ hheld hjournal hother =>
    refine h.removeJournal fun hstored => hother ?_
    rw [(h.final hstored _ _ _ hjournal).source, hstored.unique hheld.current]
  | dropReserved hheld hjournal => exact h.removeJournal (h.not_current hjournal not_false)
  | abandon clock hheld hjournal =>
    have hother := h.not_current hjournal not_false
    exact h.setJournal (by simp [JournalState.successor?]) (fun hstored => absurd hstored hother)
      (by simp)
  | project hheld hjournal hsuccessor =>
    apply h.setCredential
    rw [hsuccessor]
    exact h.rotated _ _ _ _ _ hjournal
  | @reserve current origin _ _ reading hheld hauthorised hawaits =>
    refine h.setJournal (by simp [JournalState.successor?]) (fun hstored => ?_) (by simp)
    cases origin with
    | none => exact absurd hawaits (h.present hstored)
    | some found =>
      -- a record without a lane authorizes no dispatch
      obtain ⟨-, hended⟩ := h.final hstored _ _ _ hawaits
      cases hauthorised with
      | recovery hfound hnext =>
        obtain ⟨lane, hlane, -⟩ := nextRecoveryAttemptAt_eq_some hnext
        exact absurd hlane (hended lane)
  | request hheld hauthorised hjournal =>
    have hother := h.not_current hjournal not_false
    refine h.setJournal (by simp [JournalState.successor?]) (fun hstored => absurd hstored hother)
      ?_
    rintro ⟨⟩
    exact hother hheld.current
  | stop clock hheld =>
    refine h.setJournal (by simp [JournalState.successor?]) (fun hstored => ?_) (by simp)
    exact ⟨(hstored.unique hheld.current).symm, by rintro lane ⟨⟩⟩

/-- A commit for another revision that ends in another one. -/
lemma commitStep {source : String} {allowed : TerminalState → Prop} (hsource : source ≠ revision)
    (hallowed : ∀ t, allowed t → ∀ successor, t.successor? = some successor →
      successor ≠ revision) (h : w.Closed revision sent)
    (hstep : CommitStep env start source allowed w w') : w'.Closed revision sent := by
  cases hstep with
  | record _ hstep => exact h.recordStep hstep
  | terminal clock ht hheld hcurrent =>
    refine h.setJournal (hallowed _ ht) (fun hstored => ?_) (by simp)
    exact absurd (hcurrent ▸ hheld.current.unique hstored) hsource
  | project _ hheld _ hjournal hsuccessor =>
    apply h.setCredential
    rw [hsuccessor]
    exact h.rotated _ _ _ _ _ hjournal

/-- A retained successor that has nothing to do with the revision is projected. -/
lemma projectStep {retained : RetainedRefreshSuccessor}
    (hsource : retained.sourceRevision ≠ revision) (hsuccessor : retained.auth.revision ≠ revision)
    (h : w.Closed revision sent) (hstep : ProjectStep env start retained w w') :
    w'.Closed revision sent := by
  cases hstep with
  | commit hstep =>
    refine h.commitStep hsource ?_ hstep
    rintro _ ⟨header, rfl⟩ _ ⟨⟩
    exact hsuccessor
  | already ht hlooked hstored hstep =>
    obtain ⟨header, rfl⟩ := ht
    cases hstep with
    | outbox hstep => exact h.sameRotation hstep.sameRotation
    | mark clock hsame =>
      obtain ⟨current, hheld, hcurrent⟩ := hstored
      refine h.setJournal (by rintro _ ⟨⟩; exact hsuccessor) (fun hstored => ?_) (by simp)
      have hstart := hsame.sameDispatches.sameSuccession.current.1 hstored
      exact absurd (hcurrent.symm.trans (hheld.current.unique hstart)) hsuccessor
    | delete hjournal => exact h.removeJournal (h.not_current hjournal not_false)

/-- A fresh credential is imported. -/
lemma importStep {auth : StoredAuth} (hother : auth.revision ≠ revision)
    (hstart : start.Closed revision sent) (h : w.Closed revision sent)
    (hstep : ImportStep env start auth w w') : w'.Closed revision sent := by
  cases hstep with
  | outbox hstep => exact h.sameRotation hstep.sameRotation
  | write => exact hstart.setCredential hother
  | delete hheld => exact h.removeJournal fun hstored => hother (hheld.current.unique hstored)

end World.Closed

/-- A successor that is projected is not the revision. -/
def Sys.Spares (revision : String) (s : Sys) : Label → Prop
  | .projectRetained index _ => ∀ r, s.retained[index]? = some r →
      r.successor.auth.revision ≠ revision
  | _ => True

/-- The renewal of a revision has ended: no process holds a ticket for it, and what was sent for it
is in the past. -/
structure Sys.Closed (revision : String) (sent posted : List Dispatch) (s : Sys) : Prop where
  world : s.world.Closed revision sent
  tickets : ∀ t ∈ s.tickets, t.source ≠ revision
  posts : sentFor revision s.posts = posted
  known : revision ∈ s.known

variable {posted : List Dispatch}

lemma Moved.closed {s : Sys} {l : Label} (hmoved : Moved codec s l w)
    (h : s.Closed revision sent posted) (hfresh : s.Fresh l) (hspares : s.Spares revision l) :
    w.Closed revision sent := by
  cases hmoved with
  | prepared hmoves =>
    exact keeps_of_moves h.world hmoves fun _ _ hv hstep => hv.recoveryStep hstep
  | returned => exact h.world
  | @committed index env _ source result hget hmoves =>
    refine keeps_of_moves h.world hmoves fun _ _ hv hstep => hv.commitStep ?_ ?_ hstep
    · exact h.tickets _ (List.mem_append_left _ (List.mem_map_of_mem (List.mem_of_getElem? hget)))
    · intro t ht successor hsuccessor
      rw [ht.names.2 successor hsuccessor]
      rintro rfl
      exact hfresh h.known
  | recovered hmoves =>
    exact keeps_of_moves h.world hmoves fun _ _ hv hstep => hv.recoveryStep hstep.recovery
  | imported hmoves =>
    refine keeps_of_moves h.world hmoves fun _ _ hv hstep => .importStep ?_ h.world hv hstep
    rintro rfl
    exact hfresh h.known
  | @projected index env _ retained hget hmoves =>
    refine keeps_of_moves h.world hmoves fun _ _ hv hstep =>
      hv.projectStep ?_ (hspares _ hget) hstep
    exact h.tickets _ (List.mem_append_right _ (List.mem_map_of_mem (List.mem_of_getElem? hget)))
  | crashed => exact h.world

lemma Sys.Closed.kill {s : Sys} (h : s.Closed revision sent posted) (owner : RefreshOwner) :
    (s.kill owner).Closed revision sent posted := by
  refine ⟨h.world, fun t ht => h.tickets t ?_, h.posts, h.known⟩
  exact ((List.filter_sublist.map _).append (List.filter_sublist.map _)).subset ht

lemma Sys.Closed.step {s s' : Sys} {l : Label} (h : s.Closed revision sent posted)
    (hfresh : s.Fresh l) (hspares : s.Spares revision l) (hstep : Sys.step codec s l = some s') :
    s'.Closed revision sent posted := by
  have hmoved := (Sys.step_moved hstep).closed h hfresh hspares
  obtain ⟨t, ht, hend⟩ := Sys.step_cases hstep
  have hworld : t.world.Closed revision sent := by
    rcases hend with rfl | ⟨_, -, rfl⟩ <;> exact hmoved
  suffices t.Closed revision sent posted by
    rcases hend with rfl | ⟨owner, -, rfl⟩
    · exact this
    · exact this.kill owner
  cases ht with
  | prepared => exact ⟨hworld, h.tickets, h.posts, h.known⟩
  | @dispatched expected env w auth clock hlive hmoves hdispatched =>
    -- a request of the revision is no final record
    have hother : auth.revision ≠ revision := by
      intro heq
      obtain ⟨_, hjournal, -⟩ := hdispatched.journal
      exact hworld.not_current hjournal not_false (heq ▸ hdispatched.holds.current)
    refine ⟨hworld, fun t ht => ?_, ?_, h.known⟩
    · simp only [Sys.tickets, List.map_append, List.mem_append] at ht
      rcases ht with (ht | ht) | ht
      · exact h.tickets t (List.mem_append_left _ ht)
      · rw [List.mem_singleton.1 ht]
        exact hother
      · exact h.tickets t (List.mem_append_right _ ht)
    · obtain ⟨dispatch, hdispatches, hsource⟩ := hdispatched.dispatches
      rw [← h.posts]
      simp [sentFor, hdispatches, hsource, hother]
  | @returned index result owner source hget =>
    refine ⟨hworld, ?_, h.posts, h.known⟩
    have hsame : Sys.tickets
        { s with exchanges := s.exchanges.set index ⟨owner, source, some result⟩ } =
        s.tickets := by
      dsimp only [Sys.tickets]
      rw [map_set_eq_map ⟨owner, source, some result⟩ hget rfl]
    rw [hsame]
    exact h.tickets
  | @committed index =>
    exact ⟨hworld, fun t ht => h.tickets t ((s.tickets_erased_sublist index).subset ht), h.posts,
      List.mem_cons_of_mem _ h.known⟩
  | @kept index env w source result retained clock hget hlive hmoves hsource hsuccessor =>
    refine ⟨hworld, fun t ht => ?_, h.posts, List.mem_cons_of_mem _ h.known⟩
    rcases List.mem_cons.1 ((s.tickets_kept_perm index _).mem_iff.1 ht) with rfl | ht
    · rw [Retained.ticket, hsource]
      exact h.tickets (Exchange.ticket ⟨env.owner, source, some result⟩)
        (List.mem_append_left _ (List.mem_map_of_mem (List.mem_of_getElem? hget)))
    · exact h.tickets t ((s.tickets_erased_sublist index).subset ht)
  | recovered => exact ⟨hworld, h.tickets, h.posts, h.known⟩
  | imported => exact ⟨hworld, h.tickets, h.posts, List.mem_cons_of_mem _ h.known⟩
  | projected clock kept hget hlive hmoves hkept =>
    refine ⟨hworld, fun t ht => h.tickets t ?_, h.posts, h.known⟩
    refine ((List.Sublist.refl _).append (List.Sublist.map _ ?_)).subset ht
    rcases hkept with rfl | rfl
    · exact List.Sublist.refl _
    · exact List.eraseIdx_sublist _ _
  | crashed => exact h

/-- A final record of the stored revision closes it, when its tickets are guarded. -/
lemma Sys.Guarded.closed {s : Sys} (h : s.Guarded) (hcurrent : s.world.Current revision)
    (hjournal : s.world.JournalHolds state enqueued attempt)
    (hfinal : Final revision attempt state) :
    s.Closed revision (sentFor revision s.world.dispatches) (sentFor revision s.posts) := by
  refine ⟨⟨?_, ?_, ?_, rfl⟩, ?_, rfl, h.lineage.everKnown _ hcurrent.ever⟩
  · intro source header successor _ _ hrotated
    rw [(hjournal.unique hrotated).1] at hfinal
    cases hfinal
  · intro _ hnone
    obtain ⟨payload, hfile, -⟩ := hjournal
    rw [hnone] at hfile
    cases hfile
  · intro _ state' enqueued' attempt' hjournal'
    obtain ⟨rfl, rfl, -⟩ := hjournal.unique hjournal'
    exact hfinal
  · rintro t ht rfl
    refine (h.guards t ht).not_current hjournal ?_ ?_ hcurrent
    · rintro rfl
      cases hfinal
    · rintro header successor - rfl
      cases hfinal

/-! ### What a verdict says of the files -/

/-- A credential that is shown is the one that was classified. -/
lemma shown_eq {stored auth : StoredAuth} {journal : JournalLoadResult}
    (hshown : networkCredential (projectLoaded stored journal) = .ok auth) : stored = auth := by
  cases journal with
  | absent => exact Except.ok.inj hshown
  | loaded state enqueued attempt migrated =>
    simp only [projectLoaded, projectRotationState] at hshown
    split_ifs at hshown
    · exact Except.ok.inj hshown
    · rcases state with _ | _ | ⟨_ | _ | _⟩ <;> simp only [projectMatchingRotationState] at hshown
      · exact Except.ok.inj hshown
      · exact Except.ok.inj hshown
      · cases hshown
      · exact Except.ok.inj hshown
      · split at hshown <;> exact Except.ok.inj hshown
  | _ => cases hshown

/-- A credential that is shown is the stored one, beside the journal that was read. -/
lemma read_of_observeAuth {watcher : Env} {projection : AuthProjection} {auth : StoredAuth}
    {r : Run} (hseen : observeAuth watcher (Run.start w) = (.ok projection, r))
    (hshown : networkCredential projection = .ok auth) :
    w.Holds auth ∧ ∃ journal, journalOf w.journal = .ok journal ∧
      projection = projectLoaded auth journal := by
  obtain ⟨loaded, journal, rfl, hheld, hjournal⟩ :=
    (@concludes_observeAuth watcher (Run.start w)).returns projection (congrArg Prod.fst hseen)
  cases loaded with
  | loaded stored =>
    rcases hjournal with hjournal | ⟨operation, error, rfl⟩
    · have hauth : stored = auth := shown_eq hshown
      exact ⟨hauth ▸ hheld stored rfl, journal, hjournal, by rw [hauth]; rfl⟩
    · cases hshown
  | _ => cases hshown

/-- The verdict about a shown credential is what the journal says. -/
lemma reauthRequired_iff {auth : StoredAuth} {journal : JournalLoadResult}
    (hshown : networkCredential (projectLoaded auth journal) = .ok auth) :
    (refreshProjectionStatus (projectLoaded auth journal)).reauthRequired = true ↔
      ∃ state enqueued attempt migrated, journal = .loaded state enqueued attempt migrated ∧
        Final auth.revision attempt state := by
  cases journal with
  | loaded state enqueued attempt migrated =>
    have hfinal : (refreshProjectionStatus
        (projectRotationState auth state attempt)).reauthRequired = true ↔
        Final auth.revision attempt state := by
      simp only [projectRotationState]
      split_ifs with hsource
      · exact ⟨by rintro ⟨⟩, fun h => absurd h.source hsource⟩
      · rw [not_not] at hsource
        rcases state with _ | _ | ⟨_ | _ | _⟩ <;> simp only [projectMatchingRotationState]
        · exact ⟨by rintro ⟨⟩, False.elim⟩
        · exact ⟨by rintro ⟨⟩, False.elim⟩
        · exact ⟨by rintro ⟨⟩, False.elim⟩
        · exact ⟨fun _ => hsource, fun _ => rfl⟩
        · rcases hcontinuation : attempt.continuation with _ | lane | _
          · exact ⟨fun _ => ⟨hsource, by simp [hcontinuation]⟩, fun _ => rfl⟩
          · exact ⟨by rintro ⟨⟩, fun h => absurd hcontinuation (h.2 lane)⟩
          · exact ⟨fun _ => ⟨hsource, by simp [hcontinuation]⟩, fun _ => rfl⟩
    refine hfinal.trans ⟨fun h => ⟨_, _, _, _, rfl, h⟩, ?_⟩
    rintro ⟨_, _, _, _, ⟨⟩, h⟩
    exact h
  | absent =>
    refine ⟨by rintro ⟨⟩, ?_⟩
    rintro ⟨_, _, _, _, ⟨⟩, _⟩
  | _ => cases hshown

/-- **A verdict is final**: when an observer of an undisturbed run shows that a stored credential
has to be imported anew, no later step of any process sends its revision again, and every observer
that still shows the revision repeats the verdict. -/
theorem final_of_observeAuth {s s' : Sys} {ls : List Label} {watcher : Env}
    {projection : AuthProjection} {r : Run} {auth : StoredAuth}
    (hreachable : Reachable Sys.Initial (Sys.step codec) Sys.Undisturbed s)
    (hseen : observeAuth watcher (Run.start s.world) = (.ok projection, r))
    (hshown : networkCredential projection = .ok auth)
    (hverdict : (refreshProjectionStatus projection).reauthRequired = true)
    (hpath : Path (Sys.step codec) (fun s l => s.Fresh l ∧ s.Spares auth.revision l) s ls s') :
    sentFor auth.revision s'.world.dispatches = sentFor auth.revision s.world.dispatches ∧
      sentFor auth.revision s'.posts = sentFor auth.revision s.posts ∧
      ∀ watcher' projection' r' auth',
        observeAuth watcher' (Run.start s'.world) = (.ok projection', r') →
        networkCredential projection' = .ok auth' → auth'.revision = auth.revision →
        (refreshProjectionStatus projection').reauthRequired = true := by
  obtain ⟨hheld, journal, hjournal, rfl⟩ := read_of_observeAuth hseen hshown
  obtain ⟨state, enqueued, attempt, migrated, rfl, hfinal⟩ := (reauthRequired_iff hshown).1 hverdict
  have hclosed := hpath.invariant ((Sys.guarded_of_reachable hreachable).closed hheld.current
    (World.journalHolds_of_journalOf hjournal) hfinal)
    fun _ _ _ h hok hstep => h.step hok.1 hok.2 hstep
  refine ⟨hclosed.world.sent, hclosed.posts, ?_⟩
  intro watcher' projection' r' auth' hseen' hshown' hrevision
  obtain ⟨hheld', journal', hjournal', rfl⟩ := read_of_observeAuth hseen' hshown'
  have hcurrent : s'.world.Current auth.revision := hrevision ▸ hheld'.current
  rw [reauthRequired_iff hshown', hrevision]
  cases journal' with
  | absent =>
    have hnone := World.journal_eq_none_of_absent hjournal'
    exact absurd hnone (hclosed.world.present hcurrent)
  | loaded state' enqueued' attempt' migrated' =>
    exact ⟨_, _, _, _, rfl, hclosed.world.final hcurrent _ _ _
      (World.journalHolds_of_journalOf hjournal')⟩
  | _ => cases hshown'

/-- A response that says that the session has ended for good. -/
def blockedResponse : EnjiHttpResponse :=
  ⟨403, some (.json (.obj [("message", .str "account is blocked")])), []⟩

/-- The first exchange is rejected. -/
def rejectedTrace : List Label :=
  [.refresh none (.calm (worker 1) launch "r1"),
    .exchangeReturns 0 (.response blockedResponse),
    .commit 0 (.calm (worker 1) launch "r1")]

lemma rejectedTrace_calm : ∀ l ∈ rejectedTrace, l.Calm ∧ ∀ s : Sys, s.Unobstructed l := by
  simp only [rejectedTrace, List.forall_mem_cons]
  refine ⟨⟨?_, fun _ => trivial⟩, ⟨?_, fun _ => trivial⟩, ⟨?_, fun _ => trivial⟩, by rintro _ ⟨⟩⟩
  · rintro env ⟨⟩
    exact ⟨fun _ => rfl, fun _ => rfl⟩
  · rintro env ⟨⟩
  · rintro env ⟨⟩
    exact ⟨fun _ => rfl, fun _ => rfl⟩

/-- The credential a reading finds. -/
def AuthLoadResult.auth? : AuthLoadResult → Option StoredAuth
  | .loaded auth => some auth
  | _ => none

lemma AuthLoadResult.eq_loaded {loaded : AuthLoadResult} {auth : StoredAuth}
    (h : loaded.auth? = some auth) : loaded = .loaded auth := by
  cases loaded <;> cases h
  rfl

lemma eq_ok_of_toOption {ε α : Type} {x : Except ε α} {a : α} (h : x.toOption = some a) :
    x = .ok a := by
  cases x with
  | error e => cases h
  | ok b => rw [Option.some.inj h]

theorem final_of_observeAuth_rejected :
    ∃ s s' : Sys, Sys.step plainCodec s (.refresh none (.calm (worker 2) launch "r2")) = some s' ∧
      (sentFor "r0" s.posts).length = 1 ∧ (sentFor "r0" s'.posts).length = 1 := by
  obtain ⟨s, hreplay, hfiles⟩ := Option.map_eq_some_iff.1
    (show (replay (Sys.step plainCodec) Sys.suits (Sys.installed firstAuth) rejectedTrace).map
      (fun s => ((authOf launch s.world.credential).toOption.bind AuthLoadResult.auth?,
        (journalOf s.world.journal).toOption, s.dead, (sentFor "r0" s.posts).length)) =
      some (some firstAuth,
        some (.loaded (.terminal (.rejected "r0" "refresh rejected with HTTP 403")) true
          (firstAttempt "r0" (isoformat (launchAfter 600))) none), [], 1) by decide +kernel)
  simp only [Prod.mk.injEq] at hfiles
  obtain ⟨hstored, hjournaled, hdead, hposts⟩ := hfiles
  obtain ⟨loaded, hloaded, hfirst⟩ := Option.bind_eq_some_iff.1 hstored
  rw [AuthLoadResult.eq_loaded hfirst] at hloaded
  have hseen := observeAuth_calm (worker 2) "r2" (eq_ok_of_toOption hloaded)
    (eq_ok_of_toOption hjournaled)
  have hprojected : projectAuth (.loaded firstAuth) (.loaded (.terminal
      (.rejected "r0" "refresh rejected with HTTP 403")) true
      (firstAttempt "r0" (isoformat (launchAfter 600))) none) =
      .reimportRequired firstAuth (.rejected "r0" "refresh rejected with HTTP 403") := by
    simp [projectAuth, projectLoaded, projectRotationState, projectMatchingRotationState,
      JournalState.sourceRevision, TerminalState.sourceRevision, firstAuth]
  rw [hprojected] at hseen
  have hreachable : Reachable Sys.Initial (Sys.step plainCodec) Sys.Undisturbed s := by
    refine ⟨_, _, Sys.installed_initial firstAuth, .of_replay (fun l hl s hsuits => ?_) hreplay⟩
    have hassumed := (rejectedTrace_calm l hl).1.assumed hsuits
    exact ⟨hassumed.truthful, hassumed.fresh, (rejectedTrace_calm l hl).2 s⟩
  have hstep : Sys.step plainCodec s (.refresh none (.calm (worker 2) launch "r2")) =
      some (s.refresh none (.calm (worker 2) launch "r2")) := by
    simp [Sys.step, hdead]
  have hpath : Path (Sys.step plainCodec) (fun s l => s.Fresh l ∧ s.Spares "r0" l) s
      [.refresh none (.calm (worker 2) launch "r2")]
      (s.refresh none (.calm (worker 2) launch "r2")) :=
    .cons ⟨trivial, trivial⟩ hstep (.nil _)
  have hfinal := (final_of_observeAuth hreachable hseen rfl rfl hpath).2.1
  exact ⟨s, _, hstep, hposts, hposts ▸ congrArg List.length hfinal⟩

end Verdicts

end EnjiGuard.AuthSession
