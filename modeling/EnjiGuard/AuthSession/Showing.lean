import EnjiGuard.AuthSession.Migration
import EnjiGuard.AuthSession.Projection

/-!
# What a preparation shows

An observer reads the credential, and then the journal, between two storage operations of a process
that prepares a refresh. Whatever the preparation has written by then, the credential is the one
that it found and the journal lets a request be made with it, unless the preparation stops a
recovery that is exhausted, and then neither dispatches nor returns.
-/

namespace EnjiGuard.AuthSession

open Foundation Action Relation

variable {state : JournalState} {attempt held held' : RotationAttempt} {enqueued : Bool}
  {auth current : StoredAuth} {revision reason reason' : String} {offset offset' : Nat}
  {w w' start : World} {env : Env}

/-! ### What a journal shows -/

/-- The record of a rotation of a revision. -/
def JournalState.RotatesFrom (revision : String) : JournalState → Prop
  | .terminal (.rotated source ..) => source = revision
  | _ => False

instance (revision : String) (state : JournalState) : Decidable (state.RotatesFrom revision) :=
  match state with
  | .terminal (.rotated source ..) => inferInstanceAs (Decidable (source = revision))
  | .terminal (.rejected ..) | .terminal (.outcomeUnknown ..) | .reserved _ | .requested _ =>
    .isFalse not_false

/-- What a request is refused with beside the record of a rotation. -/
def rotationPending : AuthProjectionError :=
  ⟨"AUTH_ROTATION_RECOVERY_PENDING",
    "auth rotation recovery is pending; restart the service or import a fresh browser credential"⟩

/-- A request is made with a credential beside a journal record, unless the record rotates it. -/
lemma networkCredential_projectLoaded {migrated : Option Nat} :
    networkCredential (projectLoaded auth (.loaded state enqueued attempt migrated)) =
      if state.RotatesFrom auth.revision then .error rotationPending else .ok auth := by
  simp only [projectLoaded, projectRotationState]
  by_cases hrotates : state.RotatesFrom auth.revision
  · rw [if_pos hrotates]
    rcases state with _ | _ | ⟨source, replacement, successor⟩ | _ | _
    case terminal.rotated =>
      have hsource :
          (JournalState.terminal (.rotated source replacement successor)).sourceRevision =
            auth.revision := hrotates
      rw [if_neg (not_not.2 hsource)]
      rfl
    all_goals exact hrotates.elim
  · rw [if_neg hrotates]
    split_ifs with hsource
    · rfl
    · rcases state with source | source | ⟨source, replacement, successor⟩ | ⟨source, reason⟩ |
        ⟨source, reason⟩
      case neg.terminal.rotated => exact absurd (not_not.1 hsource) hrotates
      case neg.terminal.outcomeUnknown =>
        simp only [projectMatchingRotationState]
        split <;> rfl
      all_goals rfl

/-- A request can be made with a credential beside a journal file. -/
def ShowsWith (auth : StoredAuth) (journal : Option FileText) : Prop :=
  ∃ loaded, journalOf journal = .ok loaded ∧
    networkCredential (projectLoaded auth loaded) = .ok auth

lemma showsWith_none (auth : StoredAuth) : ShowsWith auth none := ⟨.absent, rfl, rfl⟩

/-- Whatever a section has left: the credential is the one at its start, and the journal is absent
or holds a record that is read back and does not rotate a revision. -/
structure World.Usable (w start : World) (revision : String) : Prop where
  credential : w.credential = start.credential
  journal : w.journal = none ∨ ∃ state enqueued attempt, w.JournalHolds state enqueued attempt
  accepted : ∀ state enqueued attempt, w.JournalHolds state enqueued attempt →
    Accepted state attempt ∧ ¬ state.RotatesFrom revision

namespace World.Usable

lemma showsWith (h : w.Usable start auth.revision) : ShowsWith auth w.journal := by
  rcases h.journal with hnone | ⟨state, enqueued, attempt, hjournal⟩
  · rw [hnone]
    exact showsWith_none auth
  · obtain ⟨haccepted, hnot⟩ := h.accepted _ _ _ hjournal
    obtain ⟨payload, hfile, rfl | ⟨migrated, hload⟩⟩ := hjournal
    · rw [hfile]
      exact ⟨_, parseJournal_journalPayload_iff.2 haccepted, by
        rw [networkCredential_projectLoaded, if_neg hnot]⟩
    · rw [hfile]
      exact ⟨_, hload, by rw [networkCredential_projectLoaded, if_neg hnot]⟩

lemma sameRotation (h : w.Usable start revision) (hsame : w.SameRotation w') :
    w'.Usable start revision := by
  refine ⟨hsame.credential.trans h.credential, ?_, ?_⟩
  · simp only [hsame.journal, hsame.journalHolds]
    exact h.journal
  · intro state enqueued attempt hjournal
    exact h.accepted _ _ _ (hsame.journalHolds.1 hjournal)

lemma removeJournal (hcredential : w.credential = start.credential) :
    w.removeJournal.Usable start revision := by
  refine ⟨hcredential, .inl rfl, ?_⟩
  rintro _ _ _ ⟨_, ⟨⟩, _⟩

lemma setJournal {clock : Option Datetime} (hcredential : w.credential = start.credential)
    (haccepted : Accepted state attempt) (hnot : ¬ state.RotatesFrom revision) :
    (w.setJournal state enqueued attempt clock).Usable start revision := by
  have hnew := w.journalHolds_setJournal state enqueued attempt clock
  refine ⟨hcredential, .inr ⟨_, _, _, hnew⟩, ?_⟩
  intro state' enqueued' attempt' hjournal
  obtain ⟨rfl, rfl, -⟩ := hjournal.unique hnew
  exact ⟨haccepted, hnot⟩

lemma recordStep {t : TerminalState} (h : w.Usable start revision)
    (hstep : RecordStep t attempt (World.Pending t attempt) w w') : w'.Usable start revision := by
  cases hstep with
  | outbox hstep => exact h.sameRotation hstep.sameRotation
  | mark clock hpending =>
    obtain ⟨haccepted, hnot⟩ := h.accepted _ _ _ hpending
    exact setJournal h.credential haccepted hnot
  | delete => exact removeJournal h.credential

end World.Usable

/-! ### Recoveries that go on -/

/-- The journal holds the exchange whose outcome is found. -/
lemma Found.journal (h : Found env start revision reason held offset) :
    ∃ state enqueued attempt, start.JournalHolds state enqueued attempt ∧
      state.sourceRevision = revision ∧ state.successor? = none := by
  cases h with
  | unknown hjournal => exact ⟨_, _, _, hjournal, rfl, rfl⟩
  | requested hjournal => exact ⟨_, _, _, hjournal, rfl, rfl⟩

/-- The recovery of a revision, if there is one, goes on with another dispatch. -/
def World.Proceeds (start : World) (env : Env) (revision : String) : Prop :=
  ∀ reason held offset, Found env start revision reason held offset →
    ∃ next, nextRecoveryAttemptAt held (env.now offset) = .ok (some next)

/-- A preparation that asks for no other dispatch goes from a usable state to usable ones. -/
lemma World.Usable.recoveryStep (howner : env.owner.Identified) (hheld : start.Holds auth)
    (hnamed : auth.revision ≠ "")
    (hbudget : ∀ reason held offset, Found env start auth.revision reason held offset →
      held.InBudget)
    (hproceeds : start.Proceeds env auth.revision) (h : w.Usable start auth.revision)
    (hstep : RecoveryStep env start w w') : w'.Usable start auth.revision := by
  have hcurrent : ∀ {current}, w.Holds current → current = auth := by
    intro current hstored
    rw [World.Holds, h.credential] at hstored
    exact World.Holds.unique hstored hheld
  have howned : ∀ {origin attempt clock} {state : JournalState},
      Authorised env start auth.revision origin attempt clock →
      state.sourceRevision = auth.revision → state.terminal? = none →
      Accepted state (ownedAttempt attempt env.owner) := by
    intro origin attempt clock state hauthorised hsource hactive
    refine (Fit.owned (hsource ▸ hnamed) hactive howner ?_).toAccepted
    cases hauthorised with
    | normal => exact inBudget_fresh hnamed
    | recovery hfound hnext => exact (hbudget _ _ _ hfound).of_next hnext
  cases hstep with
  | outbox hstep => exact h.sameRotation hstep.sameRotation
  | record hstep => exact h.recordStep hstep
  | discard => exact removeJournal h.credential
  | dropReserved => exact removeJournal h.credential
  | abandon clock hstored hjournal hdead hattempt =>
    cases hcurrent hstored
    have hvalid := (h.accepted _ _ _ hjournal).1.valid
    exact setJournal h.credential (Fit.of_withContinuation hnamed
      (rotationAttemptIsValid_iff.1 hvalid).1 hattempt).toAccepted not_false
  | project hstored hjournal =>
    cases hcurrent hstored
    exact absurd rfl (h.accepted _ _ _ hjournal).2
  | reserve reading hstored hauthorised =>
    cases hcurrent hstored
    exact setJournal h.credential (howned hauthorised rfl rfl) not_false
  | request hstored hauthorised =>
    cases hcurrent hstored
    exact setJournal h.credential (howned hauthorised rfl rfl) not_false
  | stop clock hstored hjournal hfound hnone =>
    cases hcurrent hstored
    obtain ⟨next, hnext⟩ := hproceeds _ _ _ hfound
    rw [hnone] at hnext
    cases hnext

/-! ### What the result of a preparation says -/

/-- Nothing is asked of a run. -/
lemma tracks_any {α : Type} (p : Auth α) (r : Run) :
    Tracks Run.world (fun _ _ => True) p r (fun _ _ => True) fun _ _ => True :=
  ⟨.single trivial, fun _ _ => trivial, fun _ _ => trivial⟩

/-- What a preparation does with the credential it has loaded. -/
def prepareLoaded (env : Env) (expected : Option StoredAuth) (current : StoredAuth) :
    Auth Preparation := do
  match ← recoverOrWait env current with
  | some preparation => return preparation
  | none => do
    drainOutbox env
    if (expected.map StoredAuth.revision).getD current.revision ≠ current.revision then
      return .returnAuth current
    else
      let deadline ← recoveryDeadline env
      prepareDispatch env current (firstAttempt current.revision deadline) none

section

variable {R : World → World → Prop} {r : Run} {expected : Option StoredAuth}

/-- A preparation is about the credential that is stored. -/
lemma tracks_prepare_loaded {P : Preparation → Prop} (hheld : start.Holds auth)
    (hbody : ∀ r, r.world = start → r.cursor.now = 0 →
      Tracks Run.world R (prepareLoaded env expected auth) r (fun preparation _ => P preparation)
        fun _ _ => True) :
    Tracks Run.world R (prepare env expected) (Run.start start) (fun preparation _ => P preparation)
      fun _ _ => True := by
  refine tracks_withAuthFileLock (fun r₀ h₀ => ?_) (fun _ _ _ => trivial)
    (fun _ _ _ h _ => h) (fun _ _ _ _ _ _ => trivial) fun _ _ _ _ _ _ => trivial
  refine ((tracks_loadAuth env r₀).weaken (fun _ _ h => h) fun _ _ _ => trivial).bind
    fun loaded r₁ _ h₁ => ?_
  obtain ⟨hsame₁, hloaded⟩ := h₁
  rw [h₀.world] at hloaded
  refine (tracks_ofExcept _).bind fun current r₂ _ h₂ => ?_
  obtain ⟨hcurrent, rfl⟩ := h₂
  obtain rfl : current = auth := by
    cases loaded <;> cases hcurrent
    exact (hloaded _ rfl).unique hheld
  cases current.credential with
  | bearerToken token => exact Tracks.raise trivial
  | cookie header => exact hbody r₂ (hsame₁.world.trans h₀.world) (hsame₁.now.trans h₀.now)

/-- Recovering an exchange whose record is in the journal. -/
lemma tracks_recoverOrWait_of_journal {Q : Option Preparation → Run → Prop}
    (hjournal : r.world.JournalHolds state enqueued attempt) (hsuccessor : state.successor? = none)
    (hgo : ∀ enqueued' attempt' r', r'.world = r.world → r'.cursor.now = r.cursor.now →
      r'.world.JournalHolds state enqueued' attempt' →
      Tracks Run.world R
        (if state.sourceRevision ≠ current.revision then do
          discardRotationState env state enqueued'
          return none
        else recoverMatchingState env current state attempt' enqueued') r' Q fun _ _ => True) :
    Tracks Run.world R (recoverOrWait env current) r Q fun _ _ => True := by
  refine ((tracks_loadJournal env r).weaken (fun _ _ h => h) fun _ _ _ => trivial).bind
    fun loaded r₁ _ h₁ => ?_
  obtain ⟨hread, hloaded, habsent, -⟩ := h₁
  cases loaded with
  | corrupt detail => exact Tracks.raise trivial
  | ioFailure operation error => exact Tracks.raise trivial
  | absent =>
    obtain ⟨_, hfile, -⟩ := hjournal
    rw [habsent rfl] at hfile
    cases hfile
  | loaded state' enqueued' attempt' migrated =>
    have hjournal' := World.journalHolds_of_journalOf (hloaded _ _ _ _ rfl)
    obtain ⟨rfl, -, -⟩ := hjournal.unique hjournal'
    simp only [hsuccessor]
    exact hgo _ _ _ hread.world hread.now (hread.world ▸ hjournal')

/-- A preparation that does not wait goes on with another dispatch. -/
def Advances (env : Env) (held : RotationAttempt) (offset : Nat) (preparation : Preparation) :
    Prop :=
  (∀ source, preparation ≠ .waitForRevision source) →
    ∃ next, nextRecoveryAttemptAt held (env.now offset) = .ok (some next)

lemma tracks_recoverUnknown_advances {t : TerminalState} (hstage : Stage start offset r) :
    Tracks Run.world (fun _ _ => True) (recoverUnknown env current t held) r
      (fun preparation _ => Advances env held offset preparation) fun _ _ => True := by
  refine (tracks_nextRecoveryAttempt hstage).bind fun next r₁ _ h₁ => ?_
  obtain ⟨hnext, -, -⟩ := h₁
  cases next with
  | none =>
    refine (tracks_any _ _).bind fun _ r₂ _ _ => Tracks.pure fun hwaits => ?_
    exact absurd rfl (hwaits _)
  | some next => exact (tracks_any _ _).weaken (fun _ _ _ _ => ⟨next, hnext⟩) fun _ _ h => h

/-- Taking over an exchange of the stored revision, or continuing its unknown outcome. -/
lemma tracks_recoverMatchingState_advances (hstage : Stage start 0 r)
    (hstored : r.world.Holds current) (hjournal : r.world.JournalHolds state enqueued attempt)
    (hstart : start.JournalHolds state enqueued attempt)
    (hfound : Found env start current.revision reason held offset) :
    Tracks Run.world (fun _ _ => True) (recoverMatchingState env current state attempt enqueued) r
      (fun result _ => ∃ preparation, result = some preparation ∧
        Advances env held offset preparation) fun _ _ => True := by
  cases hfound with
  | unknown hheld =>
    obtain ⟨rfl, rfl, -⟩ := hstart.unique hheld
    have hrecord := @tracks_record env start r _ attempt enqueued hjournal
      (World.projected_of_none rfl)
    refine ((hrecord.mono fun _ _ _ => trivial).weaken (fun _ _ h => h)
      fun _ _ _ => trivial).bind fun _ r₁ _ h₁ => ?_
    obtain ⟨hquiet, -, hsame⟩ := h₁
    exact (tracks_recoverUnknown_advances (hstage.quiet hquiet hsame)).bind
      fun preparation _ _ h => Tracks.pure ⟨preparation, rfl, h⟩
  | requested hheld hdead hdeadline hattempt =>
    obtain ⟨rfl, rfl, -⟩ := hstart.unique hheld
    refine Tracks.bind (Q := fun preparation _ => Advances env held 2 preparation) ?_
      fun preparation _ _ h => Tracks.pure ⟨preparation, rfl, h⟩
    simp only [recoverRequested, hdead, Bool.false_eq_true, if_false]
    refine ((tracks_abandonRequested hstage hstored hjournal hdead).mono
      fun _ _ _ => trivial).bind fun found r₁ _ h₁ => ?_
    obtain ⟨-, hstage₁, -, -, deadline', hdeadline', hattempt'⟩ := h₁
    rw [hdeadline, Except.ok.injEq] at hdeadline'
    subst hdeadline'
    rw [hattempt, Except.ok.injEq] at hattempt'
    subst hattempt'
    exact tracks_recoverUnknown_advances hstage₁

/-- A preparation that returns, or asks for a dispatch, goes on with the recovery it finds. -/
lemma proceeds_of_prepare {preparation : Preparation} (hheld : start.Holds auth)
    (hrun : (prepare env expected (Run.start start)).1 = .ok preparation)
    (hwaits : ∀ source, preparation ≠ .waitForRevision source) :
    start.Proceeds env auth.revision := by
  intro reason held offset hfound
  suffices h : Tracks Run.world (fun _ _ => True) (prepare env expected) (Run.start start)
      (fun preparation _ => Advances env held offset preparation) fun _ _ => True by
    exact h.returns _ hrun hwaits
  refine tracks_prepare_loaded hheld fun r hworld hnow => ?_
  refine Tracks.bind (Q := fun result _ => ∃ preparation, result = some preparation ∧
    Advances env held offset preparation) ?_ fun result r₃ _ h₃ => ?_
  · obtain ⟨state, enqueued, attempt, hjournal, hsource, hsuccessor⟩ := hfound.journal
    rw [← hworld] at hjournal
    refine tracks_recoverOrWait_of_journal hjournal hsuccessor fun enqueued' attempt' r' hsame hnow'
      hjournal' => ?_
    rw [if_neg (not_not.2 hsource)]
    have hstart : r'.world = start := hsame.trans hworld
    exact tracks_recoverMatchingState_advances ⟨hstart ▸ .refl _, hnow'.trans hnow⟩
      (hstart ▸ hheld) hjournal' (hstart ▸ hjournal') hfound
  · obtain ⟨preparation, rfl, h⟩ := h₃
    exact Tracks.pure h

/-- A preparation that waits, waits for another revision than a given one. -/
def Awaits (revision : String) (preparation : Preparation) : Prop :=
  ∀ source, preparation = .waitForRevision source → source = revision

lemma tracks_prepareDispatch_awaits {t : Option TerminalState} :
    Tracks Run.world (fun _ _ => True) (prepareDispatch env current attempt t) r
      (fun preparation _ => Awaits revision preparation) fun _ _ => True := by
  refine (tracks_any _ _).bind fun owner r₁ _ _ => (tracks_any _ _).bind fun state r₂ _ _ => ?_
  split
  · refine (tracks_any _ _).bind fun _ r₃ _ _ => (tracks_any _ _).bind fun state' r₄ _ _ => ?_
    split
    · exact (tracks_any _ _).bind fun _ r₅ _ _ => Tracks.pure (by rintro _ ⟨⟩)
    · exact Tracks.raise trivial
  · exact Tracks.raise trivial

lemma tracks_recoverUnknown_awaits {t : TerminalState} (hsource : t.sourceRevision = revision) :
    Tracks Run.world (fun _ _ => True) (recoverUnknown env current t held) r
      (fun preparation _ => Awaits revision preparation) fun _ _ => True := by
  refine (tracks_any _ _).bind fun next r₁ _ _ => ?_
  cases next with
  | none =>
    refine (tracks_any _ _).bind fun _ r₂ _ _ => Tracks.pure ?_
    rintro _ ⟨⟩
    exact hsource
  | some next =>
    refine (tracks_any _ _).bind fun now r₂ _ _ => (tracks_any _ _).bind fun left r₃ _ _ => ?_
    split_ifs
    · split <;> exact Tracks.raise trivial
    · exact tracks_prepareDispatch_awaits

lemma tracks_abandonRequested_source {source reason : String} :
    Tracks Run.world (fun _ _ => True) (abandonRequested env source held reason) r
      (fun found _ => found.1.sourceRevision = source) fun _ _ => True := by
  refine (tracks_transitionOrRaise (E := fun _ _ => True) fun _ => trivial).bind
    fun state r₁ _ h₁ => ?_
  obtain ⟨rfl, t, ht, rfl⟩ := h₁
  cases ht
  refine (tracks_any _ _).bind fun deadline r₂ _ _ => (tracks_any _ _).bind fun now r₃ _ _ => ?_
  refine (tracks_any _ _).bind fun attempt r₄ _ _ => (tracks_any _ _).bind fun _ r₅ _ _ => ?_
  exact (tracks_any _ _).bind fun _ r₆ _ _ => Tracks.pure rfl

lemma tracks_recoverMatchingState_awaits (hsource : state.sourceRevision = revision) :
    Tracks Run.world (fun _ _ => True) (recoverMatchingState env current state attempt enqueued) r
      (fun result _ => ∀ preparation, result = some preparation → Awaits revision preparation)
      fun _ _ => True := by
  rcases state with source | source | ⟨source, replacement, successor⟩ | ⟨source, reason⟩ |
    ⟨source, reason⟩ <;> cases hsource
  case reserved.refl => exact (tracks_any _ _).bind fun _ _ _ _ => Tracks.pure (by rintro _ ⟨⟩)
  case requested.refl =>
    refine Tracks.bind (Q := fun preparation _ => Awaits source preparation) ?_
      fun preparation _ _ h => Tracks.pure (by rintro _ ⟨⟩; exact h)
    unfold recoverRequested
    split_ifs
    · exact Tracks.pure (by rintro _ ⟨⟩; rfl)
    · exact tracks_abandonRequested_source.bind fun found _ _ h => tracks_recoverUnknown_awaits h
  case terminal.rotated.refl =>
    exact (tracks_any _ _).bind fun _ _ _ _ => Tracks.pure (by rintro _ ⟨⟩ _ ⟨⟩)
  case terminal.rejected.refl =>
    exact (tracks_any _ _).bind fun _ _ _ _ => Tracks.pure (by rintro _ ⟨⟩ _ ⟨⟩; rfl)
  case terminal.outcomeUnknown.refl =>
    refine (tracks_any _ _).bind fun _ _ _ _ => (tracks_recoverUnknown_awaits rfl).bind
      fun preparation _ _ h => Tracks.pure (by rintro _ ⟨⟩; exact h)

lemma tracks_recoverOrWait_awaits :
    Tracks Run.world (fun _ _ => True) (recoverOrWait env current) r
      (fun result _ => ∀ preparation, result = some preparation →
        Awaits current.revision preparation) fun _ _ => True := by
  have hother : ∀ (state : JournalState) (enqueued : Bool) (attempt : RotationAttempt) (r : Run),
      Tracks Run.world (fun _ _ => True)
        (if state.sourceRevision ≠ current.revision then do
          discardRotationState env state enqueued
          return none
        else recoverMatchingState env current state attempt enqueued) r
        (fun result _ => ∀ preparation, result = some preparation →
          Awaits current.revision preparation) fun _ _ => True := by
    intro state enqueued attempt r
    split_ifs with hsource
    · exact (tracks_any _ _).bind fun _ _ _ _ => Tracks.pure (by rintro _ ⟨⟩)
    · exact tracks_recoverMatchingState_awaits (not_not.1 hsource)
  refine (tracks_any _ _).bind fun loaded r₁ _ _ => ?_
  cases loaded with
  | corrupt detail => exact Tracks.raise trivial
  | ioFailure operation error => exact Tracks.raise trivial
  | absent => exact Tracks.pure (by rintro _ ⟨⟩)
  | loaded state enqueued attempt migrated =>
    rcases hsuccessor : state.successor? with _ | successor <;> simp only [hsuccessor]
    · exact hother _ _ _ _
    · split_ifs
      · split
        · exact (tracks_any _ _).bind fun _ _ _ _ => Tracks.pure (by rintro _ ⟨⟩ _ ⟨⟩)
        · exact Tracks.raise trivial
      · exact (tracks_any _ _).bind fun _ _ _ _ => Tracks.pure (by rintro _ ⟨⟩)
      · exact tracks_recoverMatchingState_awaits (not_not.1 ‹_›)

/-- A preparation that waits, waits for another revision than the stored one. -/
lemma awaits_of_prepare {source : String} (hheld : start.Holds auth)
    (hrun : (prepare env expected (Run.start start)).1 = .ok (.waitForRevision source)) :
    source = auth.revision := by
  suffices h : Tracks Run.world (fun _ _ => True) (prepare env expected) (Run.start start)
      (fun preparation _ => Awaits auth.revision preparation) fun _ _ => True by
    exact h.returns _ hrun _ rfl
  refine tracks_prepare_loaded hheld fun r _ _ => tracks_recoverOrWait_awaits.bind
    fun result r₁ _ h₁ => ?_
  cases result with
  | some preparation => exact Tracks.pure (h₁ _ rfl)
  | none =>
    refine (tracks_any _ _).bind fun _ r₂ _ _ => ?_
    split_ifs
    · exact Tracks.pure (by rintro _ ⟨⟩)
    · exact (tracks_any _ _).bind fun deadline r₃ _ _ => tracks_prepareDispatch_awaits

/-- Waiting for another revision does not return while the revision is stored. -/
lemma tracks_waitForTerminalRevision {source : String} (polls : Nat)
    (hstored : ∀ current, r.world.Holds current → current.revision = source) :
    Tracks Run.world R (waitForTerminalRevision env source polls) r (fun _ _ => False)
      fun _ _ => True := by
  have hpoll : ∀ {polls r}, (∀ current, r.world.Holds current → current.revision = source) →
      (∀ r', r'.world = r.world → Tracks Run.world R
        (waitForTerminalRevision.waitAgain env source polls) r' (fun _ _ => False)
          fun _ _ => True) →
      Tracks Run.world R (waitForTerminalRevision env source polls) r (fun _ _ => False)
        fun _ _ => True := by
    intro polls r hstored hagain
    rw [waitForTerminalRevision]
    refine ((tracks_loadAuth env r).weaken (fun _ _ h => h) fun _ _ _ => trivial).bind
      fun loaded r₁ _ h₁ => ?_
    obtain ⟨hsame, hloaded⟩ := h₁
    cases loaded with
    | loaded current =>
      simp only [currentRevision, hstored current (hloaded _ rfl), ne_eq, not_true_eq_false,
        if_false]
      exact hagain r₁ hsame.world
    | _ => exact hagain r₁ hsame.world
  induction polls generalizing r with
  | zero =>
    refine hpoll hstored fun r' _ => ?_
    rw [waitForTerminalRevision.waitAgain]
    exact Tracks.raise trivial
  | succ polls ih =>
    refine hpoll hstored fun r' hworld => ?_
    rw [waitForTerminalRevision.waitAgain]
    exact ih (hworld ▸ hstored)

end

/-! ### What a preparation leaves at any moment -/

/-- What holds of the files at the start and is kept by every step holds before every step. -/
lemma Tracks.within {α : Type} {p : Auth α} {r : Run} {R : World → World → Prop}
    {Q : α → Run → Prop} {E : PyError → Run → Prop} {I : World → Prop}
    (hp : Tracks Run.world R p r Q E) (hstart : I r.world)
    (hstep : ∀ v v', I v → R v v' → I v') :
    Tracks Run.world (fun v v' => R v v' ∧ I v) p r Q E := by
  refine ⟨?_, hp.returns, hp.raises⟩
  suffices h : ∀ v, ReflTransGen R r.world v →
      ReflTransGen (fun v v' => R v v' ∧ I v) r.world v ∧ I v from (h _ hp.moves).1
  intro v hmoves
  induction hmoves with
  | refl => exact ⟨.refl, hstart⟩
  | tail _ hR ih => exact ⟨ih.1.tail ⟨hR, ih.2⟩, hstep _ _ ih.2 hR⟩

/-- The files are usable, or the credential and the journal are those at the start. -/
def World.Shown (w start : World) (revision : String) : Prop :=
  w.Usable start revision ∨ w.credential = start.credential ∧ w.journal = start.journal

lemma World.Shown.showsWith (h : w.Shown start auth.revision)
    (hstart : ShowsWith auth start.journal) :
    w.credential = start.credential ∧ ShowsWith auth w.journal := by
  rcases h with h | ⟨hcredential, hjournal⟩
  · exact ⟨h.credential, h.showsWith⟩
  · exact ⟨hcredential, hjournal ▸ hstart⟩

lemma World.Shown.credential (h : w.Shown start revision) : w.credential = start.credential :=
  h.elim World.Usable.credential And.left

lemma World.Shown.sameRotation (h : w.Shown start revision) (hsame : w.SameRotation w') :
    w'.Shown start revision :=
  h.imp (fun h => h.sameRotation hsame)
    fun ⟨hcredential, hjournal⟩ =>
      ⟨hsame.credential.trans hcredential, hsame.journal.trans hjournal⟩

/-- A preparation that finds the journal of another revision discards it before anything else. -/
lemma tracks_prepare_discards {expected : Option StoredAuth} (howner : env.owner.Identified)
    (hheld : start.Holds auth) (hnamed : auth.revision ≠ "")
    (hjournal : start.JournalHolds state enqueued attempt)
    (hother : state.sourceRevision ≠ auth.revision) (hsuccessor : state.successor? = none) :
    Tracks Run.world (fun v v' => v.Shown start auth.revision → v'.Shown start auth.revision)
      (prepare env expected) (Run.start start) (fun _ _ => True) fun _ _ => True := by
  have hfound : ∀ reason held offset, ¬ Found env start auth.revision reason held offset := by
    intro reason held offset h
    obtain ⟨_, _, _, hjournal', hsource, -⟩ := h.journal
    rw [(hjournal'.unique hjournal).1] at hsource
    exact hother hsource
  have houtbox : ∀ v v', OutboxStep v v' → v.Shown start auth.revision →
      v'.Shown start auth.revision := fun _ _ hstep hv => hv.sameRotation hstep.sameRotation
  refine tracks_prepare_loaded (P := fun _ => True) hheld fun r hworld hnow => ?_
  refine Tracks.bind (Q := fun result r' => result = none ∧ Stage start 0 r' ∧
    r'.world.journal = none) ?_ fun result r₃ _ h₃ => ?_
  · rw [← hworld] at hjournal
    refine tracks_recoverOrWait_of_journal hjournal hsuccessor fun enqueued' attempt' r' hsame hnow'
      _ => ?_
    rw [if_pos hother]
    refine ((tracks_discardRotationState houtbox fun v hsame _ hv =>
      .inl (.removeJournal hv.credential)).weaken (fun _ _ h => h) fun _ _ _ => trivial).bind
        fun _ r₄ _ h₄ => Tracks.pure ?_
    have hstage : Stage start 0 r' := ⟨hsame.trans hworld ▸ .refl _, hnow'.trans hnow⟩
    exact ⟨rfl, hstage.quiet h₄.1 h₄.2.2, h₄.2.1⟩
  obtain ⟨rfl, hstage₃, hnone⟩ := h₃
  dsimp only
  refine (((tracks_drainOutbox env r₃).traced.mono houtbox).weaken (fun _ _ h => h)
    fun _ _ _ => trivial).bind fun _ r₄ _ h₄ => ?_
  have hsame₄ := World.SameRotation.of_outboxSteps h₄.2
  have hstage₄ := hstage₃.quiet h₄.1 hsame₄.sameDispatches
  split_ifs
  · exact Tracks.pure trivial
  · refine Tracks.bind (Q := fun deadline r' =>
      isoformatAfter (env.now 0) recoveryWindow = .ok deadline ∧ r'.world = r₄.world ∧
      Stage start 1 r') ?_ fun deadline r₅ _ h₅ => ?_
    · refine hstage₄.tracks_nowFn.bind fun now r₅ _ h₅ => ?_
      obtain ⟨rfl, hworld₅, hstage₅⟩ := h₅
      refine (tracks_ofExcept _).weaken ?_ fun _ _ h => h
      rintro deadline r₆ ⟨hdeadline, rfl⟩
      exact ⟨hdeadline, hworld₅, hstage₅⟩
    · obtain ⟨hdeadline, hworld₅, hstage₅⟩ := h₅
      have hnone₅ : r₅.world.journal = none := by
        rw [hworld₅, hsame₄.journal, hnone]
      have husable : r₅.world.Usable start auth.revision := by
        refine ⟨hstage₅.dispatches.credential, .inl hnone₅, ?_⟩
        rintro _ _ _ ⟨_, hfile, -⟩
        rw [hnone₅] at hfile
        cases hfile
      have hkept : ∀ v v', v.Usable start auth.revision → RecoveryStep env start v v' →
          v'.Usable start auth.revision := fun v v' hv hstep =>
        hv.recoveryStep howner hheld hnamed (fun _ _ _ h => absurd h (hfound _ _ _))
          (fun _ _ _ h => absurd h (hfound _ _ _)) hstep
      refine ((Tracks.within (tracks_prepareDispatch_normal hstage₅ ?_ hnone₅ hdeadline) husable
        hkept).mono fun v v' h _ => .inl (hkept v v' h.2 h.1)).weaken (fun _ _ _ => trivial)
          fun _ _ h => h
      rw [hstage₅.dispatches.holds]
      exact hheld

/-- A record beside a credential that is shown is read back, and does not rotate it. -/
lemma ShowsWith.loaded (h : ShowsWith auth w.journal)
    (hjournal : w.JournalHolds state enqueued attempt) : ∃ payload enqueued' migrated,
    parseJournal payload = .ok (.loaded state enqueued' attempt migrated) ∧
      ¬ state.RotatesFrom auth.revision := by
  obtain ⟨loaded, hload, hnetwork⟩ := h
  have hheld := hjournal
  obtain ⟨payload, hfile, -⟩ := hjournal
  rw [hfile] at hload
  cases loaded with
  | absent => exact absurd hload (parseJournal_ne_absent payload)
  | corrupt detail => cases hnetwork
  | ioFailure operation error => cases hnetwork
  | loaded state' enqueued' attempt' migrated =>
    obtain ⟨rfl, rfl, -⟩ := hheld.unique ⟨payload, hfile, .inr ⟨migrated, hload⟩⟩
    refine ⟨payload, enqueued', migrated, hload, fun hrotates => ?_⟩
    rw [networkCredential_projectLoaded, if_pos hrotates] at hnetwork
    cases hnetwork

/-- A credential is shown beside no record that rotates it. -/
lemma ShowsWith.not_rotatesFrom (h : ShowsWith auth w.journal)
    (hjournal : w.JournalHolds state enqueued attempt) : ¬ state.RotatesFrom auth.revision := by
  obtain ⟨_, _, _, -, hnot⟩ := h.loaded hjournal
  exact hnot

/-- A preparation leaves a credential that no record in the journal rotates. -/
lemma credential_of_prepare {expected : Option StoredAuth} (hheld : start.Holds auth)
    (hshows : ShowsWith auth start.journal) :
    (prepare env expected (Run.start start)).2.world.credential = start.credential := by
  refine ((tracks_prepare env start expected).invariant
    (I := fun v => v.credential = start.credential ∧ ∀ state enqueued attempt,
      v.JournalHolds state enqueued attempt → ¬ state.RotatesFrom auth.revision)
    ⟨rfl, fun _ _ _ hjournal => hshows.not_rotatesFrom hjournal⟩ fun v v' hv hstep => ?_).1
  obtain ⟨hcredential, hrotates⟩ := hv
  have hset : ∀ {state enqueued attempt clock}, ¬ state.RotatesFrom auth.revision →
      ∀ state' enqueued' attempt',
        (v.setJournal state enqueued attempt clock).JournalHolds state' enqueued' attempt' →
        ¬ state'.RotatesFrom auth.revision := by
    intro state enqueued attempt clock hnot state' enqueued' attempt' hjournal
    rw [(hjournal.unique (v.journalHolds_setJournal _ _ _ _)).1]
    exact hnot
  have hremove : ∀ state enqueued attempt, v.removeJournal.JournalHolds state enqueued attempt →
      ¬ state.RotatesFrom auth.revision := by
    rintro _ _ _ ⟨_, ⟨⟩, _⟩
  have houtbox : ∀ {v'}, OutboxStep v v' → v'.credential = start.credential ∧
      ∀ state enqueued attempt, v'.JournalHolds state enqueued attempt →
        ¬ state.RotatesFrom auth.revision := fun hstep =>
    ⟨hstep.sameRotation.credential.trans hcredential, fun _ _ _ hjournal =>
      hrotates _ _ _ (hstep.sameRotation.journalHolds.1 hjournal)⟩
  cases hstep with
  | outbox hstep => exact houtbox hstep
  | record hstep =>
    cases hstep with
    | outbox hstep => exact houtbox hstep
    | mark clock hpending => exact ⟨hcredential, hset (hrotates _ _ _ hpending)⟩
    | delete => exact ⟨hcredential, hremove⟩
  | discard => exact ⟨hcredential, hremove⟩
  | dropReserved => exact ⟨hcredential, hremove⟩
  | project hstored hjournal =>
    rw [World.Holds, hcredential] at hstored
    cases World.Holds.unique hstored hheld
    exact absurd rfl (hrotates _ _ _ hjournal)
  | abandon => exact ⟨hcredential, hset not_false⟩
  | reserve => exact ⟨hcredential, hset not_false⟩
  | request => exact ⟨hcredential, hset not_false⟩
  | stop => exact ⟨hcredential, hset not_false⟩

/-- A journal beside which a credential is shown can be read. -/
lemma ShowsWith.readable (h : ShowsWith auth w.journal) : w.Readable := by
  obtain ⟨loaded, hload, hnetwork⟩ := h
  cases loaded with
  | absent => exact .inl hload
  | corrupt detail => cases hnetwork
  | ioFailure operation error => cases hnetwork
  | loaded state enqueued attempt migrated => exact .inr ⟨_, _, _, _, hload⟩

/-- What a section finds does not depend on what fails. -/
lemma Found.of_fault {fault : Nat → String → Fault}
    (h : Found { env with fault := fault } start revision reason held offset) :
    Found env start revision reason held offset := by
  cases h with
  | unknown hjournal => exact .unknown hjournal
  | requested hjournal hdead hdeadline hattempt =>
    exact .requested hjournal hdead hdeadline hattempt

/-- A record that is read is accepted, or is an unknown outcome of the previous schema that is never
continued. -/
lemma accepted_or_stopped {payload : Json} {migrated : Option Nat}
    (h : parseJournal payload = .ok (.loaded state enqueued attempt migrated)) :
    Accepted state attempt ∨ (∃ source reason, state = .terminal (.outcomeUnknown source reason)) ∧
      attempt.continuation = some .stop := by
  rcases accepted_of_parseJournal h with ⟨-, haccepted⟩ | ⟨-, hnamed, hmigrated⟩
  · exact .inl haccepted
  · by_cases hcap : attempt.totalDispatchCap = totalDispatchCap
    · exact .inl (hmigrated.accepted hnamed hcap)
    · right
      cases hmigrated with
      | reserved source => simp [v2Attempt, Json.equalsStr, totalDispatchCap] at hcap
      | requested source => exact ⟨⟨_, _, rfl⟩, by simp [v2Attempt, Json.equalsStr]⟩
      | terminal t =>
        cases t <;> simp [v2Attempt, Json.equalsStr, JournalState.name, totalDispatchCap] at hcap

/-- A journal file that shows a credential is usable, or is stopped. -/
lemma usable_or_stopped (hshows : ShowsWith auth start.journal) :
    start.Usable start auth.revision ∨ ∃ source reason enqueued attempt,
      start.JournalHolds (.terminal (.outcomeUnknown source reason)) enqueued attempt ∧
        attempt.continuation = some .stop := by
  obtain ⟨loaded, hload, hnetwork⟩ := hshows
  rcases hfile : start.journal with _ | _ | detail | typeName | payload
  · left
    refine ⟨rfl, .inl hfile, ?_⟩
    rintro _ _ _ ⟨_, hsome, -⟩
    rw [hfile] at hsome
    cases hsome
  all_goals rw [hfile] at hload
  · cases hload
    cases hnetwork
  · cases hload
    cases hnetwork
  · cases hload
  · cases loaded with
    | absent => exact absurd hload (parseJournal_ne_absent payload)
    | corrupt detail => cases hnetwork
    | ioFailure operation error => cases hnetwork
    | loaded state enqueued attempt migrated =>
      have hjournal : start.JournalHolds state enqueued attempt := ⟨payload, hfile, .inr ⟨_, hload⟩⟩
      rcases accepted_or_stopped hload with haccepted | ⟨⟨source, reason, rfl⟩, hstop⟩
      · left
        refine ⟨rfl, .inr ⟨_, _, _, hjournal⟩, ?_⟩
        intro state' enqueued' attempt' hjournal'
        obtain ⟨rfl, rfl, -⟩ := hjournal.unique hjournal'
        refine ⟨haccepted, fun hrotates => ?_⟩
        rw [networkCredential_projectLoaded, if_pos hrotates] at hnetwork
        cases hnetwork
      · exact .inr ⟨_, _, _, _, hjournal, hstop⟩

/-- Wherever it is cut off, a preparation that would not wait for another revision leaves the
credential that it found and a journal that lets a request be made with it. -/
theorem shown_of_prepare {expected : Option StoredAuth} {preparation : Preparation}
    (howner : env.owner.Identified) (hheld : start.Holds auth) (hnamed : auth.revision ≠ "")
    (hshows : ShowsWith auth start.journal)
    (hrun : (prepare env expected (Run.start start)).1 = .ok preparation)
    (hwaits : ∀ source, preparation ≠ .waitForRevision source) (fault : Nat → String → Fault) :
    (prepare { env with fault := fault } expected (Run.start start)).2.world.Shown start
      auth.revision := by
  have hproceeds := proceeds_of_prepare hheld hrun hwaits
  have howner : { env with fault := fault }.owner.Identified := howner
  rcases usable_or_stopped hshows with
    husable | ⟨source, reason, enqueued, attempt, hjournal, hstop⟩
  · left
    refine (tracks_prepare { env with fault := fault } start expected).invariant
      (I := fun v => v.Usable start auth.revision) husable fun v v' hv hstep => ?_
    refine hv.recoveryStep howner hheld hnamed (fun _ _ _ hfound => ?_)
      (fun _ _ _ hfound => hproceeds _ _ _ hfound.of_fault) hstep
    cases hfound with
    | unknown hjournal =>
      exact (rotationAttemptIsValid_iff.1 (husable.accepted _ _ _ hjournal).1.valid).1
    | requested hjournal _ _ hattempt =>
      exact (rotationAttemptIsValid_iff.1 (husable.accepted _ _ _ hjournal).1.valid).1.congr
        (withContinuation_spec hattempt).1
  · have hother : source ≠ auth.revision := by
      rintro rfl
      obtain ⟨next, hnext⟩ := hproceeds _ _ _ (.unknown hjournal)
      obtain ⟨lane, hlane, -⟩ := nextRecoveryAttemptAt_eq_some hnext
      rw [hstop] at hlane
      cases hlane
    exact (tracks_prepare_discards howner hheld hnamed hjournal hother rfl).invariant
      (I := fun v => v.Shown start auth.revision) (.inr ⟨rfl, rfl⟩) fun _ _ hv hstep => hstep hv

end EnjiGuard.AuthSession
