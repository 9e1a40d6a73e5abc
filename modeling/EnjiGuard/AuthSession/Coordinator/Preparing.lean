import EnjiGuard.AuthSession.Coordinator.Delivery

/-!
# Specifications of preparation and recovery

A preparation and a startup recovery move the files along `RecoveryStep` only. When a preparation
asks for a dispatch, the journal holds the request under the name of this process, and exactly
one authorization was added.
-/

namespace EnjiGuard.AuthSession

open Foundation Action Relation

variable {env : Env} {start : World} {r : Run} {current : StoredAuth}

/-! ### The stage of a section -/

/-- How far a section is: the credential is as at its start, nothing was dispatched yet, and so
many clock readings are used. -/
structure Stage (start : World) (readings : Nat) (r : Run) : Prop where
  dispatches : start.SameDispatches r.world
  now : r.cursor.now = readings

lemma Stage.same {r' : Run} {n : Nat} (h : Stage start n r) (h' : r.Same r') :
    Stage start n r' := ⟨h'.world ▸ h.dispatches, h'.now.trans h.now⟩

lemma Stage.quiet {r' : Run} {n : Nat} (h : Stage start n r) (h' : r.Quiet r')
    (hd : r.world.SameDispatches r'.world) : Stage start n r' :=
  ⟨h.dispatches.trans hd, h'.now.trans h.now⟩

/-- A preparation asked for a dispatch. -/
structure World.Dispatched (w : World) (env : Env) (start : World) (auth : StoredAuth) :
    Prop where
  holds : w.Holds auth
  journal : ∃ attempt, w.JournalHolds (.requested auth.revision) false attempt ∧
    attemptOwner attempt = some env.owner
  dispatches : ∃ dispatch, w.dispatches = start.dispatches ++ [dispatch] ∧
    dispatch.sourceRevision = auth.revision

/-- What is known of the files when a preparation ends. -/
def World.Prepared (w : World) (env : Env) (start : World) (preparation : Preparation) : Prop :=
  ∀ auth, preparation = .dispatch auth → w.Dispatched env start auth

/-! ### Transitions -/

/-- A transition of the state machine that goes through. -/
lemma tracks_transitionOrRaise {R : World → World → Prop} {E : PyError → Run → Prop}
    {source : RotationState} {event : RotationEvent} (hE : ∀ e, E e r) :
    Tracks Run.world R (transitionOrRaise source event) r
      (fun state r' => r' = r ∧ ∃ t, transition source event = some t ∧ t.state = state) E := by
  rcases h : transition source event with _ | t <;> simp only [transitionOrRaise, h]
  · exact Tracks.raise (hE _)
  · exact Tracks.pure ⟨rfl, t, rfl, rfl⟩

/-! ### Dispatching -/

/-- The retry time of the record a reservation replaces is the one of the record it awaits. -/
lemma scheduledAt_of_journalHolds {w : World} {state : JournalState} {enqueued : Bool}
    {held : RotationAttempt} {text : String} (h : w.JournalHolds state enqueued held)
    (htext : scheduledAt w.journal = some text) : held.nextAttemptAt = some text := by
  obtain ⟨payload, hfile, hload⟩ := h
  rw [hfile, scheduledAt] at htext
  split at htext
  · next state' enqueued' attempt' migrated hparse =>
    rcases hload with rfl | ⟨migrated', hload⟩
    · obtain ⟨-, -, rfl⟩ := eq_of_parseJournal_journalPayload hparse
      exact htext
    · rw [hload] at hparse
      cases hparse
      exact htext
  · cases htext

/-- Persisting a dispatch: the reservation, then the request. -/
lemma tracks_persistDispatch {origin : Option (String × RotationAttempt)}
    {attempt : RotationAttempt} {clock : Datetime} {n : Nat} (hstage : Stage start n r)
    (hheld : r.world.Holds current)
    (hauthorised : Authorised env start current.revision origin attempt clock)
    (hawaits : r.world.Awaits current.revision origin)
    (hreading : r.lastReading env = some clock) :
    Tracks Run.world (RecoveryStep env start)
      (do
        writeJournal env (.reserved current.revision) false (ownedAttempt attempt env.owner)
        match ← transitionOrRaise (.journaled (.reserved current.revision)) .dispatchBegun with
        | .journaled (.requested source) => do
          writeJournal env (.requested source) false (ownedAttempt attempt env.owner)
          return .dispatch current
        | _ => raise .assertion) r
      (fun preparation r' => r'.world.Prepared env start preparation) (fun _ _ => True) := by
  refine ((tracks_writeJournal env (.reserve _ hheld hauthorised hawaits)).weaken (fun _ _ h => h)
    fun _ _ _ => trivial).bind fun _ r₁ _ h₁ => ?_
  refine (tracks_transitionOrRaise fun _ => True.intro).bind fun state r₂ _ h₂ => ?_
  obtain ⟨rfl, t, ht, rfl⟩ := h₂
  cases ht
  dsimp only
  have hheld₁ : r₂.world.Holds current := by rw [h₁.world]; exact hheld
  have hjournal₁ : r₂.world.JournalHolds (.reserved current.revision) false
      (ownedAttempt attempt env.owner) := by
    rw [h₁.world]; exact World.journalHolds_setJournal _ _ _ _ _
  have hreading₁ : r₂.lastReading env = some clock := by
    rw [← hreading, Run.lastReading, Run.lastReading, h₁.now]
  have hschedule : ∀ text, r₂.world.schedule = some text →
      ∃ reason held, origin = some (reason, held) ∧ held.nextAttemptAt = some text := by
    intro text htext
    rw [h₁.world] at htext
    change scheduledAt r.world.journal = some text at htext
    rcases origin with _ | ⟨reason, held⟩
    · rw [show r.world.journal = none from hawaits] at htext
      cases htext
    · exact ⟨reason, held, rfl, scheduledAt_of_journalHolds hawaits htext⟩
  refine ((tracks_writeJournal env ?_).weaken (fun _ _ h => h) fun _ _ _ => trivial).bind
    fun _ r₃ _ h₃ => Tracks.pure ?_
  · rw [hreading₁]
    exact .request hheld₁ hauthorised hjournal₁ hschedule
  · rintro _ ⟨⟩
    refine ⟨?_, ⟨_, ?_, attemptOwner_ownedAttempt attempt env.owner⟩, ?_⟩
    · rw [h₃.world]; exact hheld₁
    · rw [h₃.world]; exact World.journalHolds_setJournal _ _ _ _ _
    · rw [h₃.world, h₁.world]
      exact ⟨_, congrArg (· ++ [_]) hstage.dispatches.dispatches, rfl⟩

/-- The process names itself in what it persists. -/
lemma tracks_ownerFn {R : World → World → Prop} :
    Tracks Run.world R (ownerFn env) r (fun owner r' => owner = env.owner ∧ r' = r)
      (fun _ _ => True) := by
  rcases h : env.ownerFault with _ | detail <;> simp only [ownerFn, h]
  · exact Tracks.pure ⟨rfl, rfl⟩
  · exact Tracks.raise trivial

/-- Preparing the first dispatch of a revision. -/
lemma tracks_prepareDispatch_normal {deadline : String} (hstage : Stage start 1 r)
    (hheld : r.world.Holds current) (hjournal : r.world.journal = none)
    (hdeadline : isoformatAfter (env.now 0) recoveryWindow = .ok deadline) :
    Tracks Run.world (RecoveryStep env start)
      (prepareDispatch env current (firstAttempt current.revision deadline) none) r
      (fun preparation r' => r'.world.Prepared env start preparation) (fun _ _ => True) := by
  refine tracks_ownerFn.bind fun owner r₁ _ h₁ => ?_
  obtain ⟨rfl, rfl⟩ := h₁
  simp only [authorizeDispatch]
  refine (tracks_transitionOrRaise (E := fun _ _ => True) fun _ => trivial).bind
    fun state r₂ _ h₂ => ?_
  obtain ⟨rfl, t, ht, rfl⟩ := h₂
  cases ht
  refine tracks_persistDispatch hstage hheld (.normal hdeadline) hjournal ?_
  rw [Run.lastReading, hstage.now]
  rfl

/-- A clock reading in a section. -/
lemma Stage.tracks_nowFn {R : World → World → Prop} {E : PyError → Run → Prop} {n : Nat}
    (hstage : Stage start n r) :
    Tracks Run.world R (nowFn env) r
      (fun now r' => now = env.now n ∧ r'.world = r.world ∧ Stage start (n + 1) r') E := by
  refine (AuthSession.tracks_nowFn env r).weaken (fun now r' h => ?_) fun _ _ h => h
  obtain ⟨hnow, hworld, hcursor, -⟩ := h
  rw [hstage.now] at hnow hcursor
  exact ⟨hnow, hworld, hworld ▸ hstage.dispatches, hcursor⟩

/-- A pure computation in a section. -/
lemma tracks_ofExcept {α : Type} {R : World → World → Prop} (x : Except PyError α) :
    Tracks Run.world R (ofExcept x) r (fun a r' => x = .ok a ∧ r' = r) (fun _ _ => True) :=
  Tracks.ofExcept (fun _ h => ⟨h, rfl⟩) fun _ _ => trivial

/-- Preparing a recovery dispatch. -/
lemma tracks_prepareDispatch_recovery {reason : String} {held next : RotationAttempt}
    {offset : Nat} {left : Timedelta} (hstage : Stage start (offset + 2) r)
    (hheld : r.world.Holds current)
    (hjournal : r.world.JournalHolds (.terminal (.outcomeUnknown current.revision reason)) true
      held)
    (hfound : Found env start current.revision reason held offset)
    (hnext : nextRecoveryAttemptAt held (env.now offset) = .ok (some next))
    (hwaited : secondsUntil next.nextAttemptAt (env.now (offset + 1)) = .ok left)
    (hleft : left ≤ 0) :
    Tracks Run.world (RecoveryStep env start)
      (prepareDispatch env current next (some (.outcomeUnknown current.revision reason))) r
      (fun preparation r' => r'.world.Prepared env start preparation) (fun _ _ => True) := by
  refine tracks_ownerFn.bind fun owner r₁ _ h₁ => ?_
  obtain ⟨rfl, rfl⟩ := h₁
  -- the authorization reads the clock twice, once for the deadline and once for the cooldown
  refine Tracks.bind (Q := fun state r' => state = .journaled (.reserved current.revision) ∧
    r'.world = r₁.world ∧ r'.cursor.now = offset + 4 ∧
    Authorised env start current.revision (some (reason, held)) next (env.now (offset + 3)))
    ?_ fun state r₂ _ h₂ => ?_
  · rcases hkind : next.attemptKind with _ | lane <;> simp only [authorizeDispatch, hkind]
    · exact Tracks.raise trivial
    · refine hstage.tracks_nowFn.bind fun now r₂ _ h₂ => ?_
      obtain ⟨rfl, hworld₂, hstage₂⟩ := h₂
      refine (tracks_ofExcept _).bind fun passed r₃ _ h₃ => ?_
      obtain ⟨hpassed, rfl⟩ := h₃
      refine hstage₂.tracks_nowFn.bind fun now r₄ _ h₄ => ?_
      obtain ⟨rfl, hworld₄, hstage₄⟩ := h₄
      refine (tracks_ofExcept _).bind fun left' r₅ _ h₅ => ?_
      obtain ⟨hleft', rfl⟩ := h₅
      refine (tracks_transitionOrRaise fun _ => True.intro).weaken ?_ fun _ _ h => h
      rintro state r₆ ⟨rfl, t, ht, rfl⟩
      obtain ⟨hauthorized, hstate⟩ := transition_authorize ht
      obtain ⟨-, -, -, -, hopen, hcooled⟩ := dispatchCount_le_of_authorized hauthorized
      have hpassed' : passed = false := by simpa [authorization] using hopen
      have hcooled' : left' ≤ 0 := by simpa [authorization] using hcooled
      subst hpassed'
      have hevent : authorization lane next (!false) (decide (left' ≤ 0)) =
          authorization lane next true true := by simp [hcooled']
      exact ⟨hstate, hworld₄.trans hworld₂, hstage₄.now,
        .recovery hfound hnext hkind hwaited hleft hpassed hleft' hcooled'
          (hevent ▸ hauthorized)⟩
  · obtain ⟨rfl, hworld, hnow, hauthorised⟩ := h₂
    rw [← hworld] at hheld hjournal
    refine tracks_persistDispatch (n := offset + 4) ⟨hworld ▸ hstage.dispatches, hnow⟩ hheld
      hauthorised hjournal ?_
    rw [Run.lastReading, hnow]
    rfl

/-! ### Continuing an unknown outcome -/

/-- The next recovery dispatch takes one clock reading at most. -/
lemma tracks_nextRecoveryAttempt {R : World → World → Prop} {held : RotationAttempt} {n : Nat}
    (hstage : Stage start n r) :
    Tracks Run.world R (nextRecoveryAttempt env held) r
      (fun next r' => nextRecoveryAttemptAt held (env.now n) = .ok next ∧ r'.world = r.world ∧
        (next.isSome → Stage start (n + 1) r')) (fun _ _ => True) := by
  rcases hresumable : held.resumable with _ | lane <;>
    simp only [nextRecoveryAttempt, hresumable]
  · refine Tracks.pure ⟨?_, rfl, by rintro ⟨⟩⟩
    simp only [nextRecoveryAttemptAt, hresumable]
  · refine hstage.tracks_nowFn.bind fun now r₁ _ h₁ => ?_
    obtain ⟨rfl, hworld, hstage₁⟩ := h₁
    refine (tracks_ofExcept _).weaken ?_ fun _ _ h => h
    rintro next r₂ ⟨hnext, rfl⟩
    exact ⟨hnext, hworld, fun _ => hstage₁⟩

/-- Continuing an unknown outcome that is marked in the journal. -/
lemma tracks_recoverUnknown {reason : String} {held : RotationAttempt} {offset : Nat}
    (hstage : Stage start offset r) (hheld : r.world.Holds current)
    (hjournal : r.world.JournalHolds (.terminal (.outcomeUnknown current.revision reason)) true
      held)
    (hfound : Found env start current.revision reason held offset) :
    Tracks Run.world (RecoveryStep env start)
      (recoverUnknown env current (.outcomeUnknown current.revision reason) held) r
      (fun preparation r' => r'.world.Prepared env start preparation) (fun _ _ => True) := by
  refine (tracks_nextRecoveryAttempt hstage).bind fun next r₁ _ h₁ => ?_
  obtain ⟨hnext, hworld₁, hstage₁⟩ := h₁
  rw [← hworld₁] at hheld hjournal
  cases next with
  | none =>
    refine ((tracks_writeJournal env (.stop _ hheld hjournal hfound hnext)).weaken (fun _ _ h => h)
      fun _ _ _ => trivial).bind fun _ r₂ _ _ => Tracks.pure ?_
    rintro _ ⟨⟩
  | some next =>
    refine (hstage₁ rfl).tracks_nowFn.bind fun now r₂ _ h₂ => ?_
    obtain ⟨rfl, hworld₂, hstage₂⟩ := h₂
    rw [← hworld₂] at hheld hjournal
    refine (tracks_ofExcept _).bind fun left r₃ _ h₃ => ?_
    obtain ⟨hleft, rfl⟩ := h₃
    by_cases hwait : 0 < left
    · rw [if_pos hwait]
      split
      · exact Tracks.raise trivial
      · exact Tracks.raise trivial
    · rw [if_neg hwait]
      exact tracks_prepareDispatch_recovery hstage₂ hheld hjournal hfound hnext hleft
        (Int.not_lt.1 hwait)

/-- Recording an outcome that has no successor leaves it marked. -/
lemma World.Recorded.journalHolds {w : World} {t : TerminalState} {attempt : RotationAttempt}
    (h : w.Recorded t attempt) (hnone : t.successor? = none) :
    w.JournalHolds (.terminal t) true attempt := by
  rcases h with h | ⟨hsome, -⟩
  · exact h
  · rw [hnone] at hsome
    cases hsome

/-- A state without a successor has nothing to project. -/
lemma World.projected_of_none {w : World} {t : TerminalState} (h : t.successor? = none) :
    w.Projected t := by
  intro successor hsuccessor
  rw [h] at hsuccessor
  cases hsuccessor

/-- Recording an outcome within a recovery. -/
lemma tracks_record (t : TerminalState) (attempt : RotationAttempt) (enqueued : Bool)
    (hjournal : r.world.JournalHolds (.terminal t) enqueued attempt)
    (hprojected : r.world.Projected t) :
    Tracks Run.world (ReconcileStep env start) (recordTerminalOutcome env t attempt enqueued) r
      (fun _ r' => r.Quiet r' ∧ r'.world.Recorded t attempt ∧
        r.world.SameDispatches r'.world) (fun _ => r.Quiet) := by
  refine ((tracks_recordTerminalOutcome (World.Pending t attempt)
    (fun _ _ h => World.Pending.of_sameRotation h) ?_ ?_ hprojected).traced.mono
      fun _ _ h => .record h).weaken ?_ fun _ _ h => h.1
  · rintro rfl; exact hjournal
  · rintro rfl; exact hjournal
  · rintro _ _ ⟨⟨hquiet, hrecorded⟩, hsteps⟩
    exact ⟨hquiet, hrecorded, .of_recordSteps hsteps⟩

/-- An abandoned exchange becomes a marked unknown outcome. -/
lemma tracks_abandonRequested {reason : String} {enqueued : Bool} {held : RotationAttempt}
    (hstage : Stage start 0 r) (hheld : r.world.Holds current)
    (hjournal : r.world.JournalHolds (.requested current.revision) enqueued held)
    (hdead : ownerIsAlive env held = false) :
    Tracks Run.world (ReconcileStep env start)
      (abandonRequested env current.revision held reason) r
      (fun found r' => found.1 = .outcomeUnknown current.revision reason ∧
        Stage start 2 r' ∧ r'.world.Holds current ∧
        r'.world.JournalHolds (.terminal (.outcomeUnknown current.revision reason)) true found.2 ∧
        ∃ deadline, isoformatAfter (env.now 0) recoveryWindow = .ok deadline ∧
          withContinuation held .ambiguityReplay deadline (env.now 1) = .ok found.2)
      (fun _ _ => True) := by
  refine (tracks_transitionOrRaise fun _ => True.intro).bind fun state r₁ _ h₁ => ?_
  obtain ⟨rfl, t, ht, rfl⟩ := h₁
  cases ht
  dsimp only [terminate]
  refine Tracks.bind (Q := fun deadline r' =>
    isoformatAfter (env.now 0) recoveryWindow = .ok deadline ∧ r'.world = r₁.world ∧
    Stage start 1 r') ?_ fun deadline r₂ _ h₂ => ?_
  · refine hstage.tracks_nowFn.bind fun now r₂ _ h₂ => ?_
    obtain ⟨rfl, hworld₂, hstage₂⟩ := h₂
    refine (tracks_ofExcept _).weaken ?_ fun _ _ h => h
    rintro deadline r₃ ⟨hdeadline, rfl⟩
    exact ⟨hdeadline, hworld₂, hstage₂⟩
  obtain ⟨hdeadline, hworld₂, hstage₂⟩ := h₂
  refine hstage₂.tracks_nowFn.bind fun now r₃ _ h₃ => ?_
  obtain ⟨rfl, hworld₃, hstage₃⟩ := h₃
  refine (tracks_ofExcept _).bind fun attempt r₄ _ h₄ => ?_
  obtain ⟨hattempt, rfl⟩ := h₄
  rw [← hworld₂, ← hworld₃] at hheld hjournal
  refine ((tracks_writeJournal env (.abandon _ hheld hjournal hdead hattempt)).weaken
    (fun _ _ h => h) fun _ _ _ => trivial).bind fun _ r₅ _ h₅ => ?_
  have hsame₅ : r₄.world.SameDispatches r₅.world := by
    rw [h₅.world]; exact World.sameDispatches_setTerminal _ _ _ _ _
  have hstage₅ : Stage start 2 r₅ := hstage₃.quiet h₅.quiet hsame₅
  have hjournal₅ : r₅.world.JournalHolds
      (.terminal (.outcomeUnknown current.revision reason)) false attempt := by
    rw [h₅.world]; exact World.journalHolds_setJournal _ _ _ _ _
  refine ((tracks_record _ _ _ hjournal₅ (World.projected_of_none rfl)).weaken (fun _ _ h => h)
    fun _ _ _ => trivial).bind fun _ r₆ _ h₆ => Tracks.pure ?_
  obtain ⟨hquiet₆, hrecorded, hsame₆⟩ := h₆
  exact ⟨rfl, hstage₅.quiet hquiet₆ hsame₆, hsame₆.holds.2 (hsame₅.holds.2 hheld),
    hrecorded.journalHolds rfl, deadline, hdeadline, hattempt⟩

/-! ### Recovering a journal -/

/-- Projecting a journaled successor. -/
lemma tracks_recoverRotated {replacement successor : String} {attempt : RotationAttempt}
    {enqueued : Bool}
    (hjournal : r.world.JournalHolds
      (.terminal (.rotated current.revision replacement successor)) enqueued attempt) :
    Tracks Run.world (ReconcileStep env start)
      (recoverRotated env (.rotated current.revision replacement successor) current.revision
        replacement successor attempt enqueued) r
      (fun _ _ => True) (fun _ _ => True) := by
  refine ((tracks_casReplaceCookie ?_).weaken (fun _ _ h => h) fun _ _ _ => trivial).bind
    fun result r₁ _ h₁ => ?_
  · intro stored auth hstored hsource hrevision hcookie
    exact hsource ▸ .project hstored (hsource ▸ hjournal) hrevision hcookie
  · cases result with
    | written auth =>
      obtain ⟨hrevision, -, -, hworld⟩ := h₁
      refine ((tracks_record (.rotated current.revision replacement successor) attempt enqueued
        ?_ ?_).weaken (fun _ _ h => h)
          fun _ _ _ => trivial).bind fun _ _ _ _ => Tracks.pure trivial
      · rw [hworld.world]; exact hjournal
      · rintro _ ⟨⟩
        exact ⟨auth, hworld.world ▸ World.holds_setCredential _ _ _, hrevision⟩
    | superseded _ =>
      exact ((tracks_loadAuth env r₁).weaken (fun _ _ h => h) fun _ _ _ => trivial).bind
        fun _ _ _ _ => (tracks_ofExcept _).weaken (fun _ _ _ => trivial) fun _ _ _ => trivial

/-- What recovering the journal leaves to the preparation: no journal, and nothing dispatched. -/
def Recovered (env : Env) (start : World) (result : Option Preparation) (r : Run) : Prop :=
  match result with
  | some preparation => r.world.Prepared env start preparation
  | none => Stage start 0 r ∧ r.world.journal = none

/-- Recovering a journal about the stored revision. -/
lemma tracks_recoverMatchingState {state : JournalState} {attempt : RotationAttempt}
    {enqueued : Bool} (hstage : Stage start 0 r) (hheld : r.world.Holds current)
    (hjournal : r.world.JournalHolds state enqueued attempt)
    (hstart : start.JournalHolds state enqueued attempt)
    (hsource : state.sourceRevision = current.revision) :
    Tracks Run.world (RecoveryStep env start)
      (recoverMatchingState env current state attempt enqueued) r (Recovered env start)
      (fun _ _ => True) := by
  rcases state with source | source | ⟨source, replacement, successor⟩ | ⟨source, reason⟩ |
    ⟨source, reason⟩ <;> cases hsource
  case reserved.refl =>
    refine ((tracks_deleteJournal (.dropReserved hheld hjournal hstart)).weaken (fun _ _ h => h)
      fun _ _ _ => trivial).bind fun _ r₁ _ h₁ => Tracks.pure ?_
    exact ⟨hstage.quiet h₁.quiet (h₁.world ▸ World.sameDispatches_removeJournal _),
      h₁.world ▸ rfl⟩
  case requested.refl =>
    refine Tracks.bind (Q := fun preparation r' => r'.world.Prepared env start preparation)
      ?_ fun _ _ _ h => Tracks.pure h
    by_cases hdead : ownerIsAlive env attempt = true
    · rw [recoverRequested, if_pos hdead]
      exact Tracks.pure (by rintro _ ⟨⟩)
    · rw [recoverRequested, if_neg hdead]
      refine ((tracks_abandonRequested hstage hheld hjournal (by simpa using hdead)).mono
        fun _ _ h => h.recovery).bind fun found r₁ _ h₁ => ?_
      obtain ⟨hstate, hstage₁, hheld₁, hjournal₁, deadline, hdeadline, hattempt⟩ := h₁
      obtain ⟨t, held⟩ := found
      cases hstate
      exact tracks_recoverUnknown hstage₁ hheld₁ hjournal₁
        (.requested hstart (by simpa using hdead) hdeadline hattempt)
  case terminal.rotated.refl =>
    refine ((tracks_recoverRotated hjournal).mono fun _ _ h => h.recovery).bind
      fun _ r₁ _ _ => Tracks.pure ?_
    rintro _ ⟨⟩
  case terminal.rejected.refl =>
    refine (((tracks_record _ _ _ hjournal (World.projected_of_none rfl)).mono fun _ _ h =>
      h.recovery).weaken (fun _ _ h => h)
      fun _ _ _ => trivial).bind fun _ r₁ _ _ => Tracks.pure ?_
    rintro _ ⟨⟩
  case terminal.outcomeUnknown.refl =>
    refine (((tracks_record _ _ _ hjournal (World.projected_of_none rfl)).mono fun _ _ h =>
      h.recovery).weaken (fun _ _ h => h)
      fun _ _ _ => trivial).bind fun _ r₁ _ h₁ => ?_
    obtain ⟨hquiet₁, hrecorded, hsame₁⟩ := h₁
    exact (tracks_recoverUnknown (hstage.quiet hquiet₁ hsame₁) (hsame₁.holds.2 hheld)
      (hrecorded.journalHolds rfl) (.unknown hstart)).bind fun _ _ _ h => Tracks.pure h

/-- Recovering whatever the journal holds. -/
lemma tracks_recoverOrWait (hstage : Stage start 0 r) (hworld : r.world = start)
    (hheld : r.world.Holds current) :
    Tracks Run.world (RecoveryStep env start) (recoverOrWait env current) r (Recovered env start)
      (fun _ _ => True) := by
  refine ((tracks_loadJournal env r).weaken (fun _ _ h => h) fun _ _ _ => trivial).bind
    fun loaded r₁ _ h₁ => ?_
  obtain ⟨hread, hloaded, habsent, -⟩ := h₁
  have hstage₁ : Stage start 0 r₁ := ⟨hread.world ▸ hstage.dispatches, hread.now.trans hstage.now⟩
  rw [← hread.world] at hheld hloaded habsent
  have hworld₁ : r₁.world = start := hread.world.trans hworld
  cases loaded with
  | corrupt detail => exact Tracks.raise trivial
  | ioFailure operation error => exact Tracks.raise trivial
  | absent => exact Tracks.pure ⟨hstage₁, habsent rfl⟩
  | loaded state enqueued attempt migrated =>
    have hjournal := World.journalHolds_of_journalOf (hloaded state enqueued attempt migrated rfl)
    have hother : Tracks Run.world (RecoveryStep env start)
        (if state.sourceRevision ≠ current.revision then do
          discardRotationState env state enqueued
          return none
        else recoverMatchingState env current state attempt enqueued) r₁
        (Recovered env start) (fun _ _ => True) := by
      by_cases hsource : state.sourceRevision ≠ current.revision
      · rw [if_pos hsource]
        refine ((tracks_discardRotationState (fun _ _ h => .outbox h)
          fun w hsame hsafe => ?_).weaken (fun _ _ h => h) fun _ _ _ => trivial).bind
            fun _ r₂ _ h₂ => Tracks.pure ?_
        · exact .discard (hsame.holds.2 hheld) (hsame.journalHolds.2 hjournal) hsource hsafe
        · exact ⟨hstage₁.quiet h₂.1 h₂.2.2, h₂.2.1⟩
      · rw [if_neg hsource]
        exact tracks_recoverMatchingState hstage₁ hheld hjournal (hworld₁ ▸ hjournal)
          (not_not.1 hsource)
    rcases hsuccessor : state.successor? with _ | successor <;> simp only [hsuccessor]
    · exact hother
    · by_cases hcurrent : successor = current.revision
      · rw [if_pos hcurrent]
        rcases state with source | source | t
        · cases hsuccessor
        · cases hsuccessor
        · refine (((tracks_record _ _ _ hjournal ?_).mono fun _ _ h => h.recovery).weaken
            (fun _ _ h => h) fun _ _ _ => trivial).bind fun _ r₂ _ _ => Tracks.pure ?_
          · intro successor' hsuccessor'
            refine ⟨current, hheld, ?_⟩
            rw [← hcurrent]
            exact Option.some.inj (hsuccessor.symm.trans hsuccessor')
          · rintro _ ⟨⟩
      · rw [if_neg hcurrent]
        exact hother

/-! ### The sections -/

/-- Preparing a refresh. -/
theorem tracks_prepare (env : Env) (start : World) (expected : Option StoredAuth) :
    Tracks Run.world (RecoveryStep env start) (prepare env expected) (Run.start start)
      (fun preparation r' => r'.world.Prepared env start preparation) (fun _ _ => True) := by
  refine tracks_withAuthFileLock (fun r₀ h₀ => ?_) (fun _ _ _ => trivial) ?_
    (fun _ _ _ _ _ _ => trivial) fun _ _ _ _ _ _ => trivial
  · have hworld₀ : r₀.world = start := h₀.world
    refine ((tracks_loadAuth env r₀).weaken (fun _ _ h => h) fun _ _ _ => trivial).bind
      fun loaded r₁ _ h₁ => ?_
    obtain ⟨hsame₁, hloaded⟩ := h₁
    have hworld₁ : r₁.world = start := hsame₁.world.trans hworld₀
    refine (tracks_ofExcept _).bind fun current r₂ _ h₂ => ?_
    obtain ⟨hcurrent, rfl⟩ := h₂
    have hheld : r₂.world.Holds current := by
      cases loaded <;> cases hcurrent
      exact hsame₁.world ▸ hloaded _ rfl
    have hstage : Stage start 0 r₂ :=
      ⟨hworld₁ ▸ .refl _, (hsame₁.now.trans h₀.now).trans rfl⟩
    rcases current.credential with _ | _
    · refine (tracks_recoverOrWait hstage hworld₁ hheld).bind fun result r₃ _ h₃ => ?_
      cases result with
      | some preparation => exact Tracks.pure h₃
      | none =>
        obtain ⟨hstage₃, hjournal₃⟩ := h₃
        refine (((tracks_drainOutbox env r₃).traced.mono fun _ _ h => .outbox h).weaken
          (fun _ _ h => h) fun _ _ _ => trivial).bind fun _ r₄ _ h₄ => ?_
        have hsame₄ := World.SameRotation.of_outboxSteps h₄.2
        have hstage₄ := hstage₃.quiet h₄.1 hsame₄.sameDispatches
        split_ifs
        · exact Tracks.pure (by rintro _ ⟨⟩)
        · refine Tracks.bind (Q := fun deadline r' =>
            isoformatAfter (env.now 0) recoveryWindow = .ok deadline ∧ r'.world = r₄.world ∧
            Stage start 1 r') ?_ fun deadline r₅ _ h₅ => ?_
          · refine hstage₄.tracks_nowFn.bind fun now r₅ _ h₅ => ?_
            obtain ⟨rfl, hworld₅, hstage₅⟩ := h₅
            refine (tracks_ofExcept _).weaken ?_ fun _ _ h => h
            rintro deadline r₆ ⟨hdeadline, rfl⟩
            exact ⟨hdeadline, hworld₅, hstage₅⟩
          · obtain ⟨hdeadline, hworld₅, hstage₅⟩ := h₅
            refine tracks_prepareDispatch_normal hstage₅ ?_ ?_ hdeadline
            · rw [hstage₅.dispatches.holds, ← hstage.dispatches.holds]
              exact hheld
            · rw [hworld₅, hsame₄.journal, hjournal₃]
    · exact Tracks.raise trivial
  · intro preparation r' r'' h hsame auth hauth
    exact hsame.world ▸ h auth hauth

/-- Reconciling the journal at startup. -/
lemma tracks_recoverStartupJournal (hstage : Stage start 0 r) (hworld : start.SameRotation r.world)
    (hheld : r.world.Holds current) :
    Tracks Run.world (ReconcileStep env start) (recoverStartupJournal env current) r
      (fun _ _ => True) (fun _ _ => True) := by
  refine ((tracks_loadJournal env r).weaken (fun _ _ h => h) fun _ _ _ => trivial).bind
    fun loaded r₁ _ h₁ => ?_
  obtain ⟨hread, hloaded, -, -⟩ := h₁
  have hstage₁ : Stage start 0 r₁ := ⟨hread.world ▸ hstage.dispatches, hread.now.trans hstage.now⟩
  rw [← hread.world] at hheld hloaded hworld
  cases loaded with
  | loaded state enqueued attempt migrated =>
    have hjournal := World.journalHolds_of_journalOf (hloaded state enqueued attempt migrated rfl)
    have hrecord : ∀ t, state = .terminal t → r₁.world.Projected t →
        Tracks Run.world (ReconcileStep env start)
          (do recordTerminalOutcome env t attempt enqueued; return current) r₁
          (fun _ _ => True) (fun _ _ => True) := by
      rintro t rfl hprojected
      exact ((tracks_record _ _ _ hjournal hprojected).weaken (fun _ _ h => h)
        fun _ _ _ => trivial).bind fun _ _ _ _ => Tracks.pure trivial
    by_cases hcurrent : state.successor? = some current.revision
    · simp only [if_pos hcurrent]
      rcases state with source | source | t
      · cases hcurrent
      · cases hcurrent
      · refine hrecord t rfl fun successor hsuccessor => ⟨current, hheld, ?_⟩
        exact Option.some.inj (hcurrent.symm.trans hsuccessor)
    by_cases hsource : state.sourceRevision ≠ current.revision
    · simp only [if_neg hcurrent, if_pos hsource]
      refine ((tracks_discardRotationState (fun _ _ h => .outbox h)
        fun w hsame hsafe => ?_).weaken (fun _ _ h => h) fun _ _ _ => trivial).bind
          fun _ r₂ _ h₂ => Tracks.pure trivial
      exact .discard (hsame.holds.2 hheld) (hsame.journalHolds.2 hjournal) hsource hsafe
    · simp only [if_neg hcurrent, if_neg hsource]
      rcases state with source | source | ⟨source, replacement, successor⟩ | ⟨source, reason⟩ |
        ⟨source, reason⟩ <;> cases not_not.1 hsource
      case neg.reserved.refl =>
        exact ((tracks_deleteJournal (.dropReserved hheld hjournal
          (hworld.journalHolds.1 hjournal))).weaken (fun _ _ h => h)
          fun _ _ _ => trivial).bind fun _ _ _ _ => Tracks.pure trivial
      case neg.requested.refl =>
        by_cases hdead : ownerIsAlive env attempt = true
        · simp only [hdead, if_true]
          exact Tracks.pure trivial
        · simp only [hdead]
          exact (tracks_abandonRequested hstage₁ hheld hjournal (by simpa using hdead)).bind
            fun _ _ _ _ => Tracks.pure trivial
      case neg.terminal.rotated.refl => exact tracks_recoverRotated hjournal
      case neg.terminal.rejected.refl => exact hrecord _ rfl (World.projected_of_none rfl)
      case neg.terminal.outcomeUnknown.refl => exact hrecord _ rfl (World.projected_of_none rfl)
  | _ => exact Tracks.pure trivial

/-- Recovering at startup. -/
theorem tracks_recoverStartup (env : Env) (start : World) :
    Tracks Run.world (ReconcileStep env start) (recoverStartup env) (Run.start start)
      (fun _ _ => True) (fun _ _ => True) := by
  refine tracks_withAuthFileLock (fun r₀ h₀ => ?_) (fun _ _ _ => trivial)
    (fun _ _ _ _ _ => trivial) (fun _ _ _ _ _ _ => trivial) fun _ _ _ _ _ _ => trivial
  refine ((tracks_loadAuth env r₀).weaken (fun _ _ h => h) fun _ _ _ => trivial).bind
    fun loaded r₁ _ h₁ => ?_
  obtain ⟨hsame₁, hloaded⟩ := h₁
  have hworld₁ : r₁.world = start := hsame₁.world.trans h₀.world
  cases loaded with
  | loaded current =>
    have hheld : r₁.world.Holds current := hsame₁.world ▸ hloaded _ rfl
    refine (((tracks_drainOutbox env r₁).traced.mono fun _ _ h => .outbox h).weaken
      (fun _ _ h => h) fun _ _ _ => trivial).bind fun _ r₂ _ h₂ => ?_
    have hsame₂ := World.SameRotation.of_outboxSteps h₂.2
    have hstage₁ : Stage start 0 r₁ := ⟨hworld₁ ▸ .refl _, (hsame₁.now.trans h₀.now).trans rfl⟩
    exact (tracks_recoverStartupJournal (hstage₁.quiet h₂.1 hsame₂.sameDispatches)
      (hworld₁ ▸ hsame₂) (hsame₂.holds.2 hheld)).bind fun _ _ _ _ => Tracks.pure trivial
  | _ => exact Tracks.pure trivial

end EnjiGuard.AuthSession
