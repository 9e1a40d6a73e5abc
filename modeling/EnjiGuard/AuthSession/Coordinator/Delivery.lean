import EnjiGuard.AuthSession.Coordinator.Steps

/-!
# Specifications of outcome delivery

Draining the outbox, recording a terminal outcome and discarding an obsolete journal. Recording
moves the files along `RecordStep` and leaves the journal marked, or removed when the rotation it
was about is delivered.
-/

namespace EnjiGuard.AuthSession

open Foundation Action Relation

variable {r : Run}

/-! ### Frames -/

/-- Two states of the files agree on the credential and on what was dispatched. -/
structure World.SameDispatches (w w' : World) : Prop where
  credential : w'.credential = w.credential
  credentialWrites : w'.credentialWrites = w.credentialWrites
  schedule : w'.schedule = w.schedule
  dispatches : w'.dispatches = w.dispatches

lemma World.SameDispatches.refl (w : World) : w.SameDispatches w := ⟨rfl, rfl, rfl, rfl⟩

lemma World.SameDispatches.trans {w w' w'' : World} (h : w.SameDispatches w')
    (h' : w'.SameDispatches w'') : w.SameDispatches w'' :=
  ⟨h'.1.trans h.1, h'.2.trans h.2, h'.3.trans h.3, h'.4.trans h.4⟩

lemma World.SameRotation.sameDispatches {w w' : World} (h : w.SameRotation w') :
    w.SameDispatches w' := ⟨h.credential, h.credentialWrites, h.schedule, h.dispatches⟩

lemma World.SameDispatches.holds {w w' : World} {auth : StoredAuth} (h : w.SameDispatches w') :
    w'.Holds auth ↔ w.Holds auth := by
  simp only [World.Holds, h.credential]

lemma World.SameDispatches.projected {w w' : World} {t : TerminalState}
    (h : w.SameDispatches w') (ht : w.Projected t) : w'.Projected t := by
  intro successor hsuccessor
  obtain ⟨auth, hheld, hrevision⟩ := ht successor hsuccessor
  exact ⟨auth, h.holds.2 hheld, hrevision⟩

lemma World.sameDispatches_setTerminal (w : World) (t : TerminalState) (enqueued : Bool)
    (attempt : RotationAttempt) (clock : Option Datetime) :
    w.SameDispatches (w.setJournal (.terminal t) enqueued attempt clock) := ⟨rfl, rfl, rfl, rfl⟩

lemma World.sameDispatches_removeJournal (w : World) : w.SameDispatches w.removeJournal :=
  ⟨rfl, rfl, rfl, rfl⟩

lemma RecordStep.sameDispatches {t : TerminalState} {attempt : RotationAttempt}
    {prior : World → Prop} {w w' : World} (h : RecordStep t attempt prior w w') :
    w.SameDispatches w' := by
  cases h with
  | outbox h => exact h.sameRotation.sameDispatches
  | mark => exact w.sameDispatches_setTerminal _ _ _ _
  | delete => exact w.sameDispatches_removeJournal

lemma World.SameDispatches.of_recordSteps {t : TerminalState} {attempt : RotationAttempt}
    {prior : World → Prop} {w w' : World} (h : ReflTransGen (RecordStep t attempt prior) w w') :
    w.SameDispatches w' := by
  induction h with
  | refl => exact .refl _
  | tail _ hstep ih => exact ih.trans hstep.sameDispatches

/-! ### Draining -/

/-- Offering a record to the sink notes at most that it was accepted. -/
lemma tracks_deliverOutboxRecord (env : Env) (record : OutcomeOutboxRecord) (r : Run) :
    Tracks Run.world OutboxStep (deliverOutboxRecord env record) r
      (fun accepted r' => r.Quiet r' ∧
        (accepted = true → record.eventKey ∈ r'.world.accepted))
      (fun _ => r.Quiet) := by
  rcases hsink : env.sink with _ | reply <;> simp only [deliverOutboxRecord, hsink]
  · exact Tracks.pure ⟨.refl r, by rintro ⟨⟩⟩
  · have hnext : Tracks Run.world OutboxStep (nextReply reply) r (fun _ => r.Quiet)
        (fun _ => r.Quiet) := ⟨.refl, by rintro _ -; exact ⟨rfl, rfl⟩, by rintro _ ⟨⟩⟩
    refine hnext.bind fun answer r₁ _ h₁ => ?_
    rcases answer with ⟨_ | _⟩ | ⟨_ | _ | _ | typeName⟩
    case returned.true =>
      refine (Tracks.step (Q := fun _ r' => r.Quiet r' ∧ record.eventKey ∈ r'.world.accepted)
        (.accept _ _) ⟨⟨h₁.now, h₁.journalReads⟩, ?_⟩).bind
          fun _ _ _ h => Tracks.pure ⟨h.1, fun _ => h.2⟩
      simp [World.accept]
    case raised.other => exact Tracks.raise h₁
    all_goals exact Tracks.pure ⟨h₁, by rintro ⟨⟩⟩

/-- Draining takes outbox steps only. -/
lemma tracks_drainOutbox (env : Env) (r : Run) :
    Tracks Run.world OutboxStep (drainOutbox env) r (fun _ => r.Quiet) (fun _ => r.Quiet) := by
  refine ((tracks_loadOutbox env r).weaken (fun _ _ h => h) fun _ _ h => h.quiet).bind
    fun loaded r₁ _ h₁ => ?_
  have hquiet := h₁.1.quiet
  cases loaded with
  | loaded records =>
    refine Tracks.each hquiet fun record _ r₂ h₂ => ?_
    refine ((tracks_deliverOutboxRecord env record r₂).weaken (fun _ _ h => h)
      fun _ _ h => h₂.trans h).bind fun accepted r₃ _ h₃ => ?_
    obtain ⟨hquiet₃, haccepted⟩ := h₃
    have hquiet₃ := h₂.trans hquiet₃
    cases accepted with
    | true =>
      rw [if_pos rfl]
      exact (tracks_acknowledgeOutcome (haccepted rfl)).weaken (fun _ _ h => hquiet₃.trans h)
        fun _ _ h => hquiet₃.trans h
    | false => exact Tracks.pure hquiet₃
  | absent => exact Tracks.pure hquiet
  | corrupt detail => exact Tracks.raise hquiet
  | ioFailure operation error => exact Tracks.raise hquiet

/-- A key that is reported missing is not in the outbox. -/
lemma tracks_outboxContains {R : World → World → Prop} (env : Env) (key : String) (r : Run) :
    Tracks Run.world R (outboxContains env key) r
      (fun there r' => r.Same r' ∧ (there = false → ¬ r.world.InOutbox key))
      (fun _ => r.Same) := by
  refine (tracks_loadOutbox env r).bind fun loaded r₁ _ h₁ => ?_
  obtain ⟨hsame, hloaded, habsent⟩ := h₁
  cases loaded with
  | loaded records =>
    refine Tracks.pure ⟨hsame, fun hany => ?_⟩
    rintro ⟨records', hold, record, hmem, hkey⟩
    cases (hloaded records rfl).unique hold
    have := List.any_eq_false.1 hany record hmem
    simp [hkey] at this
  | absent =>
    refine Tracks.pure ⟨hsame, fun _ => ?_⟩
    rintro ⟨records', hold, record, hmem, hkey⟩
    cases (habsent rfl).unique hold
    cases hmem
  | corrupt detail => exact Tracks.raise hsame
  | ioFailure operation error => exact Tracks.raise hsame

/-! ### Recording -/

/-- What a recorded outcome leaves: a marked journal, or none for a delivered rotation. -/
def World.Recorded (w : World) (t : TerminalState) (attempt : RotationAttempt) : Prop :=
  w.JournalHolds (.terminal t) true attempt ∨ t.successor?.isSome ∧ w.journal = none

variable {t : TerminalState} {attempt : RotationAttempt} {prior : World → Prop}

/-- A marked journal is removed when its outcome has left the outbox. -/
lemma tracks_deleteDelivered {env : Env}
    (hjournal : r.world.JournalHolds (.terminal t) true attempt)
    (hprojected : r.world.Projected t) :
    Tracks Run.world (RecordStep t attempt prior) (deleteDelivered env t) r
      (fun _ r' => r.Quiet r' ∧ r'.world.Recorded t attempt) (fun _ => r.Quiet) := by
  cases t with
  | rotated source replacement successor =>
    refine ((tracks_outboxContains env _ r).weaken (fun _ _ h => h) fun _ _ h => h.quiet).bind
      fun there r₁ _ h₁ => ?_
    obtain ⟨hsame, hgone⟩ := h₁
    cases there with
    | true => exact Tracks.pure ⟨hsame.quiet, .inl (hsame.world ▸ hjournal)⟩
    | false =>
      refine (tracks_deleteJournal ?_).weaken (fun _ r' h => ⟨hsame.quiet.trans h.quiet, ?_⟩)
        fun _ _ h => hsame.quiet.trans h.quiet
      · rw [hsame.world]
        exact .delete hjournal hprojected rfl (hgone rfl)
      · rw [h.world]
        exact .inr ⟨rfl, rfl⟩
  | rejected => exact Tracks.pure ⟨.refl r, .inl hjournal⟩
  | outcomeUnknown => exact Tracks.pure ⟨.refl r, .inl hjournal⟩

/-- After the journal is marked, the outbox is drained and a delivered rotation removed. -/
lemma tracks_drain_deleteDelivered {env : Env}
    (hjournal : r.world.JournalHolds (.terminal t) true attempt)
    (hprojected : r.world.Projected t) :
    Tracks Run.world (RecordStep t attempt prior)
      (do drainOutbox env; deleteDelivered env t) r
      (fun _ r' => r.Quiet r' ∧ r'.world.Recorded t attempt) (fun _ => r.Quiet) := by
  refine (((tracks_drainOutbox env r).traced.mono fun _ _ h => .outbox h).weaken (fun _ _ h => h)
    fun _ _ h => h.1).bind fun _ r₁ _ h₁ => ?_
  have hsame := World.SameRotation.of_outboxSteps h₁.2
  exact (tracks_deleteDelivered (hsame.journalHolds.2 hjournal)
    (hsame.sameDispatches.projected hprojected)).weaken
      (fun _ _ h => ⟨h₁.1.trans h.1, h.2⟩) fun _ _ h => h₁.1.trans h

/-- Recording a terminal outcome. -/
lemma tracks_recordTerminalOutcome (P : World → Prop) {env : Env} {enqueued : Bool}
    (hstable : ∀ w w', w.SameRotation w' → P w → P w')
    (hfresh : enqueued = false → P r.world)
    (hmarked : enqueued = true → r.world.JournalHolds (.terminal t) true attempt)
    (hprojected : r.world.Projected t) :
    Tracks Run.world (RecordStep t attempt P) (recordTerminalOutcome env t attempt enqueued) r
      (fun _ r' => r.Quiet r' ∧ r'.world.Recorded t attempt) (fun _ => r.Quiet) := by
  cases enqueued with
  | true => exact tracks_drain_deleteDelivered (hmarked rfl) hprojected
  | false =>
    refine (((tracks_enqueueOutcome (outboxRecord_valid t)).traced.mono
      fun _ _ h => .outbox h).weaken (fun _ _ h => h) fun _ _ h => h.1).bind fun _ r₁ _ h₁ => ?_
    obtain ⟨⟨hquiet₁, hkey⟩, hsteps⟩ := h₁
    have hsame := World.SameRotation.of_outboxSteps hsteps
    have hprojected₁ := hsame.sameDispatches.projected hprojected
    refine ((tracks_writeJournal env ?_).weaken (fun _ _ h => h)
      fun _ _ h => hquiet₁.trans h.quiet).bind fun _ r₂ _ h₂ => ?_
    · exact .mark _ (hstable _ _ hsame (hfresh rfl)) hprojected₁ (.inr hkey)
    · refine (tracks_drain_deleteDelivered ?_ ?_).weaken
        (fun _ _ h => ⟨(hquiet₁.trans h₂.quiet).trans h.1, h.2⟩)
        fun _ _ h => (hquiet₁.trans h₂.quiet).trans h
      · rw [h₂.world]; exact World.journalHolds_setJournal _ _ _ _ _
      · rw [h₂.world]
        exact (World.sameDispatches_setTerminal _ _ _ _ _).projected hprojected₁

/-- A pending journal stays pending while the outbox moves. -/
lemma World.Pending.of_sameRotation {w w' : World} (hsame : w.SameRotation w')
    (h : w.Pending t attempt) : w'.Pending t attempt := hsame.journalHolds.2 h

/-- Discarding removes a journal whose outcome is on its way. -/
lemma tracks_discardRotationState {R : World → World → Prop} {env : Env} {state : JournalState}
    {enqueued : Bool} (houtbox : ∀ w w', OutboxStep w w' → R w w')
    (hdelete : ∀ w, r.world.SameRotation w →
      (∀ t, state = .terminal t → enqueued = false → w.Delivering t.eventKey) →
      R w w.removeJournal) :
    Tracks Run.world R (discardRotationState env state enqueued) r
      (fun _ r' => r.Quiet r' ∧ r'.world.journal = none ∧ r.world.SameDispatches r'.world)
      (fun _ => r.Quiet) := by
  have hnow : (∀ t, state = .terminal t → enqueued = false → r.world.Delivering t.eventKey) →
      Tracks Run.world R (deleteJournal env) r
        (fun _ r' => r.Quiet r' ∧ r'.world.journal = none ∧ r.world.SameDispatches r'.world)
        (fun _ => r.Quiet) := by
    intro hsafe
    refine (tracks_deleteJournal (hdelete _ (.refl _) hsafe)).weaken
      (fun _ r' h => ⟨h.quiet, ?_⟩) fun _ _ h => h.quiet
    rw [h.world]
    exact ⟨rfl, World.sameDispatches_removeJournal _⟩
  rcases state with source | source | t
  · exact hnow (by rintro _ ⟨⟩)
  · exact hnow (by rintro _ ⟨⟩)
  · cases enqueued with
    | true => exact hnow (by rintro _ _ ⟨⟩)
    | false =>
      refine (((tracks_enqueueOutcome (outboxRecord_valid t)).traced.mono houtbox).weaken
        (fun _ _ h => h) fun _ _ h => h.1).bind fun _ r₁ _ h₁ => ?_
      obtain ⟨⟨hquiet₁, hkey⟩, hsteps⟩ := h₁
      have hsame := World.SameRotation.of_outboxSteps hsteps
      refine (tracks_deleteJournal (hdelete _ hsame ?_)).weaken
        (fun _ r' h => ⟨hquiet₁.trans h.quiet, ?_⟩) fun _ _ h => hquiet₁.trans h.quiet
      · rintro _ ⟨⟩ -
        exact .inr hkey
      · rw [h.world]
        exact ⟨rfl, hsame.sameDispatches.trans (World.sameDispatches_removeJournal _)⟩

end EnjiGuard.AuthSession
