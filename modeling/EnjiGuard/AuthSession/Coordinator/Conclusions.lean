import EnjiGuard.AuthSession.Coordinator.Committing
import EnjiGuard.AuthSession.Store.Conclusions

/-!
# The coordinator under failures

Apart from failures of the storage, the delivery of outcomes raises only what a look at the outbox
raises. When it returns the outbox was ready, and it still is. A credential that is found is loaded
and replaced.
-/

namespace EnjiGuard.AuthSession

open Foundation Action Relation

/-- At every reading of the wall clock the credential file is read as a record. -/
def Env.Finds (env : Env) (w : World) (auth : StoredAuth) : Prop :=
  ∀ n, authOf (env.wall n) w.credential = .ok (.loaded auth)

lemma Env.Finds.congr {env : Env} {w w' : World} {auth : StoredAuth} (h : env.Finds w auth)
    (hsame : w'.credential = w.credential) : env.Finds w' auth := fun n => hsame ▸ h n

lemma Env.Finds.holds {env : Env} {w : World} {auth : StoredAuth} (h : env.Finds w auth) :
    w.Holds auth := by
  have hload := h 0
  rcases hfile : w.credential with _ | _ | detail | typeName | payload <;> rw [hfile] at hload
  · cases hload
  · cases hload
  · cases hload
  · cases hload
  · exact ⟨payload, hfile, .inr ⟨_, hload⟩⟩

/-- The outcome sink raises only what the coordinator catches. -/
def Env.SinkContained (env : Env) : Prop :=
  ∀ reply, env.sink = some reply → ∀ n typeName, reply n ≠ .raised (.other typeName)

/-- After a delivery that went through: the outbox is ready as before, the rest is untouched. -/
structure Run.Delivered (r r' : Run) : Prop where
  before : r.world.OutboxReady
  after : r'.world.OutboxReady
  quiet : r.Quiet r'
  same : r.world.SameRotation r'.world

/-- An outbox that is read as neither absent nor records is not ready, and the error is typed. -/
lemma World.outboxRefuses_of_loaded {w : World} {loaded : OutcomeOutboxLoadResult} {e : PyError}
    (hload : outboxOf w.outbox = .ok loaded) (hrefused : ∀ records, loaded ≠ .loaded records)
    (habsent : loaded ≠ .absent) (htyped : e.isTyped = true) :
    w.OutboxRefuses e := by
  refine .inr ⟨⟨loaded, hload⟩, ?_, htyped⟩
  rintro ⟨records, hheld | ⟨hnone, -⟩⟩
  · rw [hheld] at hload
    exact hrefused records (Except.ok.inj hload).symm
  · rw [hnone] at hload
    exact habsent (Except.ok.inj hload).symm

section

variable {env : Env} {r : Run} {E : PyError → Run → Prop}

/-! ### The outbox -/

lemma concludes_enqueueOutcome {record : OutcomeOutboxRecord} (hvalid : record.Valid) :
    Concludes env.faults (enqueueOutcome env record) r
      (fun _ r' => r.Delivered r' ∧ r'.world.InOutbox record.eventKey)
      (fun e _ => r.world.OutboxRefuses e) := by
  have hconcludes : Concludes env.faults (enqueueOutcome env record) r
      (fun _ _ => r.world.OutboxReady) (fun e _ => r.world.OutboxRefuses e) := by
    refine ((concludes_loadOutbox env).weaken (fun _ _ h => h) fun e r' h => .inl h.2).bind
      fun loaded r₁ h₁ => ?_
    obtain ⟨-, hload | ⟨hnot, operation, error, rfl⟩⟩ := h₁
    · have hready : ∀ {records}, outboxRecordsOrRaise loaded = .ok records →
          r.world.OutboxReady := fun h => ⟨_, World.outboxReady_of_loaded hload h⟩
      have hwrite : ∀ {records : List OutcomeOutboxRecord}, r.world.OutboxReady →
          Concludes env.faults (if records.any fun existing => existing.eventKey = record.eventKey
            then return () else do
              trigger env "before_enqueue_outcome"
              writeAtomicJson env fun w _ => w.setOutbox (records ++ [record])
              trigger env "after_enqueue_outcome") r₁ (fun _ _ => r.world.OutboxReady)
            (fun e _ => r.world.OutboxRefuses e) := by
        intro records hready
        split_ifs
        · exact Concludes.pure hready
        · exact concludes_write.weaken (fun _ _ _ => hready) fun _ _ k => k
      cases loaded with
      | absent => exact Concludes.of_ok rfl (hwrite (hready rfl))
      | loaded records => exact Concludes.of_ok rfl (hwrite (hready rfl))
      | corrupt detail =>
        exact Concludes.of_error rfl
          (World.outboxRefuses_of_loaded hload (by simp) (by simp) rfl)
      | ioFailure operation error =>
        exact Concludes.of_error rfl
          (World.outboxRefuses_of_loaded hload (by simp) (by simp) rfl)
    · exact Concludes.of_excused rfl ⟨hnot, rfl⟩
  refine (hconcludes.and_tracks (tracks_enqueueOutcome hvalid)).weaken
    (fun _ r' h => ?_) fun _ _ h => h.1
  obtain ⟨hready, ⟨hquiet, hkey⟩, hmoves⟩ := h
  exact ⟨⟨hready, hready.of_steps hmoves, hquiet, World.SameRotation.of_outboxSteps hmoves⟩, hkey⟩

/-- Acknowledging only fails as the storage does while the outbox is ready. -/
lemma concludes_acknowledgeOutcome {eventKey : String} (hready : r.world.OutboxReady) :
    Concludes env.faults (acknowledgeOutcome env eventKey) r (fun _ _ => True) E := by
  refine ((concludes_loadOutbox env).weaken (fun _ _ h => h) ?_).bind fun loaded r₁ h₁ => ?_
  · rintro e r' ⟨-, herror⟩
    obtain ⟨loaded, hload⟩ := hready.parses
    rw [hload] at herror
    cases herror
  · obtain ⟨-, hload⟩ := h₁
    refine Concludes.bind (Q := fun _ _ => True) ?_ fun records r₂ _ => ?_
    · rcases hload with hload | ⟨hnot, operation, error, rfl⟩
      · cases loaded with
        | absent => exact Concludes.pure trivial
        | loaded records => exact Concludes.pure trivial
        | corrupt detail =>
          exact absurd (World.outboxRefuses_of_loaded (e := .osError "") hload (by simp) (by simp)
            rfl) hready.not_refuses
        | ioFailure operation error =>
          exact absurd (World.outboxRefuses_of_loaded (e := .osError "") hload (by simp) (by simp)
            rfl) hready.not_refuses
      · exact Concludes.excused ⟨hnot, rfl⟩
    · dsimp only
      split_ifs
      · exact Concludes.pure trivial
      · refine concludes_trigger_then fun r₃ h₃ => ?_
        generalize records.filter (fun record => record.eventKey ≠ eventKey) = retained
        cases retained with
        | nil =>
          refine concludes_trigger_then fun r₄ h₄ => (concludes_unlinkFile ?_).bind
            fun there r₅ h₅ => ?_
          · intro hnone
            change r₄.world.outbox = none at hnone
            rw [World.removeOutbox, ← hnone]
          · split_ifs
            · exact concludes_trigger_then fun r₆ h₆ =>
                (concludes_trigger env _).weaken (fun _ _ _ => trivial) fun _ _ k => k
            · exact Concludes.pure trivial
        | cons record retained =>
          exact concludes_writeAtomicJson.bind fun _ r₄ h₄ =>
            (concludes_trigger env _).weaken (fun _ _ _ => trivial) fun _ _ k => k

/-- A contained sink never stops a delivery. -/
lemma concludes_deliverOutboxRecord (hsink : env.SinkContained) (record : OutcomeOutboxRecord) :
    Concludes env.faults (deliverOutboxRecord env record) r (fun _ _ => True) E := by
  rcases hreply : env.sink with _ | reply <;> simp only [deliverOutboxRecord, hreply]
  · exact Concludes.pure trivial
  · have hnext : Concludes env.faults (nextReply reply) r
        (fun answer _ => answer = reply r.cursor.deliveries) E := Concludes.of_run rfl rfl
    refine hnext.bind fun answer r₁ h₁ => ?_
    rcases answer with ⟨_ | _⟩ | ⟨_ | _ | _ | typeName⟩
    case returned.true =>
      exact Concludes.bind (Q := fun _ _ => True) (Concludes.update trivial) fun _ _ _ =>
        Concludes.pure trivial
    case raised.other => exact absurd h₁.symm (hsink reply hreply _ _)
    all_goals exact Concludes.pure trivial

lemma concludes_drainOutbox (hsink : env.SinkContained) :
    Concludes env.faults (drainOutbox env) r (fun _ r' => r.Delivered r')
      (fun e _ => r.world.OutboxRefuses e) := by
  have hconcludes : Concludes env.faults (drainOutbox env) r (fun _ _ => r.world.OutboxReady)
      (fun e _ => r.world.OutboxRefuses e) := by
    refine ((concludes_loadOutbox env).weaken (fun _ _ h => h) fun e r' h => .inl h.2).bind
      fun loaded r₁ h₁ => ?_
    obtain ⟨hleft, hload | ⟨hnot, operation, error, rfl⟩⟩ := h₁
    · cases loaded with
      | absent => exact Concludes.pure ⟨_, World.outboxReady_of_loaded hload rfl⟩
      | corrupt detail =>
        exact Concludes.raise
          (World.outboxRefuses_of_loaded hload (by simp) (by simp) rfl)
      | ioFailure operation error =>
        exact Concludes.raise
          (World.outboxRefuses_of_loaded hload (by simp) (by simp) rfl)
      | loaded records =>
        have hready : r.world.OutboxReady := ⟨_, World.outboxReady_of_loaded hload rfl⟩
        refine (Concludes.each (I := fun r' => r'.world.OutboxReady)
          (E := fun e _ => r.world.OutboxRefuses e) (by rw [hleft.world]; exact hready)
          fun record r₂ h₂ => ?_).weaken (fun _ _ _ => hready) fun _ _ k => k
        refine (((concludes_deliverOutboxRecord hsink record).and_tracks
          (tracks_deliverOutboxRecord env record r₂)).weaken (fun _ _ h => h)
          fun _ _ h => h.1).bind fun accepted r₃ h₃ => ?_
        obtain ⟨-, ⟨-, haccepted⟩, hmoves⟩ := h₃
        have hready₃ : r₃.world.OutboxReady := h₂.of_steps hmoves
        cases accepted with
        | true =>
          exact ((concludes_acknowledgeOutcome hready₃).and_tracks
            (tracks_acknowledgeOutcome (haccepted rfl))).weaken
              (fun _ _ h => hready₃.of_steps h.2.2) fun _ _ h => h.1
        | false => exact Concludes.pure hready₃
    · exact Concludes.excused ⟨hnot, rfl⟩
  refine (hconcludes.and_tracks (tracks_drainOutbox env r)).weaken (fun _ r' h => ?_)
    fun _ _ h => h.1
  exact ⟨h.1, h.1.of_steps h.2.2, h.2.1, World.SameRotation.of_outboxSteps h.2.2⟩

/-! ### Journaled outcomes -/

/-- After a journaled outcome was dealt with: the outbox is ready as before, and the credential and
the clock are untouched. -/
structure Run.Passed (r r' : Run) : Prop where
  before : r.world.OutboxReady
  after : r'.world.OutboxReady
  now : r'.cursor.now = r.cursor.now
  credential : r'.world.credential = r.world.credential

lemma Run.Delivered.passed {r' : Run} (h : r.Delivered r') : r.Passed r' :=
  ⟨h.before, h.after, h.quiet.now, h.same.credential⟩

lemma Run.Passed.trans {r' r'' : Run} (h : r.Passed r') (h' : r'.Passed r'') : r.Passed r'' :=
  ⟨h.before, h'.after, h'.now.trans h.now, h'.credential.trans h.credential⟩

/-- A change of the journal file alone. -/
lemma Run.Left.passed {r' : Run} {w : World} (h : r.Left w r') (hready : r.world.OutboxReady)
    (houtbox : w.outbox = r.world.outbox) (hcredential : w.credential = r.world.credential) :
    r.Passed r' := by
  refine ⟨hready, ?_, h.now, by rw [h.world, hcredential]⟩
  unfold World.OutboxReady World.OutboxHolds at hready ⊢
  rw [h.world, houtbox]
  exact hready

lemma concludes_deleteDelivered {t : TerminalState} (hready : r.world.OutboxReady) :
    Concludes env.faults (deleteDelivered env t) r (fun _ r' => r.Passed r') E := by
  have hdone : r.Passed r := (Run.Left.refl r).passed hready rfl rfl
  cases t with
  | rotated source replacement successor =>
    have hcontains : Concludes env.faults
        (outboxContains env (TerminalState.rotated source replacement successor).eventKey) r
        (fun _ r' => r.Left r.world r') E := by
      refine ((concludes_loadOutbox env).weaken (fun _ _ h => h) ?_).bind fun loaded r₁ h₁ => ?_
      · rintro e r' ⟨-, herror⟩
        exact absurd (.inl herror) (hready.not_refuses (e := e))
      · obtain ⟨hleft, hload | ⟨hnot, operation, error, rfl⟩⟩ := h₁
        · cases loaded with
          | absent => exact Concludes.pure hleft
          | loaded records => exact Concludes.pure hleft
          | corrupt detail =>
            exact absurd (World.outboxRefuses_of_loaded (e := .osError "") hload (by simp)
              (by simp) rfl) hready.not_refuses
          | ioFailure operation error =>
            exact absurd (World.outboxRefuses_of_loaded (e := .osError "") hload (by simp)
              (by simp) rfl) hready.not_refuses
        · exact Concludes.excused ⟨hnot, rfl⟩
    refine hcontains.bind fun there r₁ h₁ => ?_
    have hpassed := h₁.passed hready rfl rfl
    cases there with
    | true => exact Concludes.pure hpassed
    | false =>
      exact concludes_deleteJournal.weaken
        (fun _ _ h => hpassed.trans (h.passed hpassed.after rfl rfl)) fun _ _ k => k
  | rejected => exact Concludes.pure hdone
  | outcomeUnknown => exact Concludes.pure hdone

lemma concludes_recordTerminalOutcome (hsink : env.SinkContained) {t : TerminalState}
    {attempt : RotationAttempt} {enqueued : Bool} :
    Concludes env.faults (recordTerminalOutcome env t attempt enqueued) r
      (fun _ r' => r.Passed r') (fun e _ => r.world.OutboxRefuses e) := by
  cases enqueued with
  | true =>
    refine (concludes_drainOutbox hsink).bind fun _ r₁ h₁ => ?_
    exact (concludes_deleteDelivered h₁.after).weaken (fun _ _ h => h₁.passed.trans h)
      fun _ _ k => k
  | false =>
    refine (concludes_enqueueOutcome (outboxRecord_valid t)).bind fun _ r₁ h₁ => ?_
    have hpassed₁ := h₁.1.passed
    refine concludes_writeJournal.bind fun _ r₂ h₂ => ?_
    have hpassed₂ := hpassed₁.trans (h₂.passed hpassed₁.after rfl rfl)
    refine ((concludes_drainOutbox hsink).weaken (fun _ _ h => h) fun e _ hrefuses =>
      absurd hrefuses hpassed₂.after.not_refuses).bind fun _ r₃ h₃ => ?_
    have hpassed₃ := hpassed₂.trans h₃.passed
    exact (concludes_deleteDelivered hpassed₃.after).weaken (fun _ _ h => hpassed₃.trans h)
      fun _ _ k => k

/-- Discarding looks at the outbox only for an outcome that was not enqueued. -/
lemma concludes_discardRotationState {journal : JournalState} {enqueued : Bool} :
    Concludes env.faults (discardRotationState env journal enqueued) r
      (fun _ r' => r'.cursor.now = r.cursor.now ∧ r'.world.credential = r.world.credential ∧
        r'.world.outbox = r.world.outbox ∨ r.Passed r')
      (fun e _ => r.world.OutboxRefuses e) := by
  have hdelete : Concludes env.faults (deleteJournal env) r
      (fun _ r' => r'.cursor.now = r.cursor.now ∧ r'.world.credential = r.world.credential ∧
        r'.world.outbox = r.world.outbox ∨ r.Passed r')
      (fun e _ => r.world.OutboxRefuses e) := by
    refine concludes_deleteJournal.weaken (fun _ r' h => .inl ⟨h.now, ?_, ?_⟩) fun _ _ k => k
    · rw [h.world]; rfl
    · rw [h.world]; rfl
  rcases journal with source | source | t
  · exact hdelete
  · exact hdelete
  · cases enqueued with
    | true => exact hdelete
    | false =>
      refine (concludes_enqueueOutcome (outboxRecord_valid t)).bind fun _ r₁ h₁ => ?_
      have hpassed₁ := h₁.1.passed
      exact concludes_deleteJournal.weaken
        (fun _ _ h => .inr (hpassed₁.trans (h.passed hpassed₁.after rfl rfl))) fun _ _ k => k

/-! ### The credential -/

variable {auth : StoredAuth}

/-- A credential that is found is loaded, unless reading it fails. -/
lemma concludes_loadAuth_of_finds (hfinds : env.Finds r.world auth) :
    Concludes env.faults (loadAuth env) r
      (fun result r' => r.Left r.world r' ∧ (result = .loaded auth ∨
        ¬ env.Healthy ∧ ∃ operation error, result = .ioFailure operation error)) E := by
  refine (concludes_loadAuth env).weaken ?_ ?_
  · rintro result r' ⟨hleft, hload | hfailed⟩
    · rw [hfinds] at hload
      exact ⟨hleft, .inl (Except.ok.inj hload).symm⟩
    · exact ⟨hleft, .inr hfailed⟩
  · rintro e r' ⟨-, herror⟩
    rw [hfinds] at herror
    cases herror

/-- Projecting a successor onto the credential that is found. -/
lemma concludes_casReplaceCookie (hfinds : env.Finds r.world auth) {header : String}
    (hcookie : auth.credential = .cookie header) (replacement successor : String) :
    Concludes env.faults (casReplaceCookie env auth.revision replacement successor) r
      (fun result r' => (∃ written, result = .written written ∧ written.revision = successor ∧
          written.credential = .cookie replacement ∧
          r.Left (r.world.setCredential written (.projected auth.revision)) r') ∨
        ¬ env.Healthy ∧ r.Left r.world r' ∧ ∃ current, result = .superseded current) E := by
  refine (concludes_loadAuth_of_finds hfinds).bind fun loaded r₁ h₁ => ?_
  obtain ⟨hleft, rfl | ⟨hnot, operation, error, rfl⟩⟩ := h₁
  · simp only [hcookie, ne_eq, not_true_eq_false, if_false]
    refine Concludes.bind (Q := fun written r' => r₁.Left r₁.world r' ∧
      written.revision = successor ∧ written.credential = .cookie replacement)
      (Concludes.of_run rfl ⟨⟨rfl, rfl⟩, rfl, rfl⟩) fun written r₂ h₂ => ?_
    obtain ⟨hleft₂, hrevision, hcredential⟩ := h₂
    refine concludes_writeAuthFile.bind fun _ r₃ h₃ => Concludes.pure
      (.inl ⟨written, rfl, hrevision, hcredential, ?_⟩)
    rw [hleft₂.world, hleft.world] at h₃
    exact hleft.trans (hleft₂.trans h₃)
  · exact Concludes.pure (.inr ⟨hnot, hleft, _, rfl⟩)

end

end EnjiGuard.AuthSession
