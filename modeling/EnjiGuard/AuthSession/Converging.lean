import EnjiGuard.AuthSession.Restarting

/-!
# Recoveries that are not cut off

Where nothing fails and the outcome sink accepts what it is offered, a drained outbox is empty, a
recorded rotation is removed and every other recorded outcome stays marked. A startup recovery then
ends where its files lead, however often it was cut off before.
-/

namespace EnjiGuard.AuthSession

open Foundation Action Relation

variable {env : Env} {w w' : World} {r : Run} {current : StoredAuth} {state : JournalState}
  {t : TerminalState} {attempt held : RotationAttempt} {enqueued : Bool} {migrated : Option Nat}
  {loaded : JournalLoadResult} {credential journal : Option FileText} {key : String}
  {records : List OutcomeOutboxRecord} {E : PyError → Run → Prop}

/-- The outcome sink accepts whatever it is offered. -/
def Env.Accepts (env : Env) : Prop := ∃ reply, env.sink = some reply ∧ ∀ n, reply n = .returned true

lemma Env.Accepts.contained (h : env.Accepts) : env.SinkContained := by
  obtain ⟨reply, hsink, haccepts⟩ := h
  intro reply' hsink' n typeName
  rw [hsink] at hsink'
  cases hsink'
  simp [haccepts]

/-! ### The outbox -/

/-- A transaction on an outbox goes on with the records it holds. -/
lemma ends_records_then {α : Type} {f : List OutcomeOutboxRecord → Auth α} {Q : α → Run → Prop}
    (h : env.Healthy) (hold : r.world.OutboxHolds records)
    (hf : ∀ r', r'.world = r.world → Ends (f records) r' Q E) :
    Ends (do
      let loaded ← loadOutbox env
      let records ← ofExcept (outboxRecordsOrRaise loaded)
      f records) r Q E := by
  refine ((ends_loadOutbox h).weaken (fun _ _ h => h) ?_).bind fun loaded r₁ h₁ => ?_
  · rintro e r' ⟨-, herror⟩
    rcases hold with hload | ⟨hnone, -⟩
    · rw [hload] at herror
      cases herror
    · rw [hnone] at herror
      cases herror
  · obtain ⟨hleft, hload⟩ := h₁
    have hrecords : outboxRecordsOrRaise loaded = .ok records := by
      rcases hold with hload' | ⟨hnone, rfl⟩
      · rw [hload'] at hload
        cases hload
        rfl
      · rw [hnone] at hload
        cases hload
        rfl
    exact Ends.of_ok hrecords (hf r₁ hleft.world)

/-- A storage operation comes first. -/
lemma ends_trigger_then {α : Type} {p : Auth α} {Q : α → Run → Prop} {operation : String}
    (h : env.Healthy) (hp : ∀ r', r'.world = r.world → Ends p r' Q E) :
    Ends (trigger env operation >>= fun _ => p) r Q E :=
  (ends_trigger h operation).bind fun _ r' h' => hp r' h'.world

/-- The outbox is written. -/
lemma ends_setOutbox (h : env.Healthy) (hrecords : OutboxConsistent records) :
    Ends (writeAtomicJson env fun w _ => w.setOutbox records) r
      (fun _ r' => r'.world.OutboxHolds records) E :=
  (h.ends concludes_writeAtomicJson).weaken
    (fun _ r' h' => by rw [h'.world]; exact World.outboxHolds_setOutbox hrecords) fun _ _ k => k

/-- The only record of an outbox is the one that is enqueued in it while it is empty. -/
lemma ends_enqueueOutcome_empty (h : env.Healthy) {record : OutcomeOutboxRecord}
    (hvalid : record.Valid) (hold : r.world.OutboxHolds []) :
    Ends (enqueueOutcome env record) r (fun _ r' => r'.world.OutboxHolds [record]) E := by
  refine ends_records_then h hold fun r₁ h₁ => ?_
  simp only [List.any_nil, Bool.false_eq_true, if_false, List.nil_append]
  refine ends_trigger_then h fun r₂ h₂ => ?_
  refine (ends_setOutbox h ?_).bind fun _ r₃ h₃ => ?_
  · exact hold.consistent.append hvalid (by simp)
  · exact (ends_trigger h _).weaken (fun _ _ h₄ => by rw [h₄.world]; exact h₃) fun _ _ k => k

/-- Acknowledging a key removes its records. -/
lemma ends_acknowledgeOutcome (h : env.Healthy) (hold : r.world.OutboxHolds records) :
    Ends (acknowledgeOutcome env key) r
      (fun _ r' => r'.world.OutboxHolds (records.filter fun record => record.eventKey ≠ key))
      E := by
  refine ends_records_then h hold fun r₁ h₁ => ?_
  have hconsistent := hold.consistent.filter fun record => record.eventKey ≠ key
  dsimp only
  split_ifs with hlength
  · refine Ends.pure ?_
    rw [h₁, List.filter_eq_self.2 (List.length_filter_eq_length_iff.1 hlength)]
    exact hold
  · refine ends_trigger_then h fun r₂ h₂ => ?_
    generalize records.filter (fun record => record.eventKey ≠ key) = retained at hconsistent ⊢
    cases retained with
    | nil =>
      refine ends_trigger_then h fun r₃ h₃ => ?_
      refine (h.ends (concludes_unlinkFile fun hnone => ?_)).bind fun there r₄ h₄ => ?_
      · change r₃.world.outbox = none at hnone
        rw [World.removeOutbox, ← hnone]
      · have hempty : r₄.world.OutboxHolds [] := .inr ⟨by rw [h₄.world]; rfl, rfl⟩
        split_ifs
        · refine ends_trigger_then h fun r₅ h₅ => ?_
          exact (ends_trigger h _).weaken
            (fun _ _ h₆ => by rw [h₆.world, h₅]; exact hempty) fun _ _ k => k
        · exact Ends.pure hempty
    | cons record retained =>
      refine (ends_setOutbox h hconsistent).bind fun _ r₃ h₃ => ?_
      exact (ends_trigger h _).weaken (fun _ _ h₄ => by rw [h₄.world]; exact h₃) fun _ _ k => k

/-- An accepting sink accepts a record. -/
lemma ends_deliverOutboxRecord (haccepts : env.Accepts) (record : OutcomeOutboxRecord) :
    Ends (deliverOutboxRecord env record) r
      (fun accepted r' => accepted = true ∧ r'.world.outbox = r.world.outbox) E := by
  obtain ⟨reply, hsink, haccepts⟩ := haccepts
  simp only [deliverOutboxRecord, hsink]
  have hnext : Ends (nextReply reply) r
      (fun answer r' => answer = .returned true ∧ r'.world = r.world) E :=
    Ends.of_run rfl ⟨haccepts _, rfl⟩
  refine hnext.bind fun answer r₁ h₁ => ?_
  obtain ⟨rfl, hworld⟩ := h₁
  refine Ends.of_run rfl ⟨rfl, ?_⟩
  change r₁.world.outbox = r.world.outbox
  rw [hworld]

/-- A drained outbox is empty. -/
lemma ends_drainOutbox (h : env.Healthy) (haccepts : env.Accepts) :
    Ends (drainOutbox env) r (fun _ r' => r.Delivered r' ∧ r'.world.OutboxHolds [])
      fun _ _ => ¬ r.world.OutboxReady := by
  have hempties : Ends (drainOutbox env) r (fun _ r' => r'.world.OutboxHolds [])
      fun _ _ => True := by
    refine ((ends_loadOutbox h).weaken (fun _ _ h => h) fun _ _ _ => trivial).bind
      fun loaded r₁ h₁ => ?_
    obtain ⟨hleft, hload⟩ := h₁
    rw [← hleft.world] at hload
    cases loaded with
    | absent => exact Ends.pure (World.outboxReady_of_loaded hload rfl)
    | corrupt detail => exact Ends.raise trivial
    | ioFailure operation error => exact Ends.raise trivial
    | loaded records =>
      refine (Ends.each (I := fun rest r' => ∃ held, r'.world.OutboxHolds held ∧
        ∀ record ∈ held, record ∈ rest) ⟨records, .inl hload, fun _ hmem => hmem⟩
        fun record rest r₂ h₂ => ?_).weaken (fun _ r' h' => ?_) fun _ _ k => k
      · obtain ⟨held, hold, hrest⟩ := h₂
        refine (ends_deliverOutboxRecord haccepts record).bind fun accepted r₃ h₃ => ?_
        obtain ⟨rfl, houtbox⟩ := h₃
        have hold₃ : r₃.world.OutboxHolds held := by
          unfold World.OutboxHolds at hold ⊢
          rw [houtbox]
          exact hold
        refine (ends_acknowledgeOutcome h hold₃).weaken (fun _ r₄ h₄ => ⟨_, h₄, ?_⟩)
          fun _ _ k => k
        intro other hother
        obtain ⟨hmem, hkey⟩ := List.mem_filter.1 hother
        rcases List.mem_cons.1 (hrest other hmem) with rfl | hmem
        · simp at hkey
        · exact hmem
      · obtain ⟨held, hold, hnone⟩ := h'
        rwa [List.eq_nil_iff_forall_not_mem.2 fun record hmem =>
          List.not_mem_nil (hnone record hmem)] at hold
  exact ((h.ends (concludes_drainOutbox haccepts.contained)).and hempties).weaken
    (fun _ _ h' => h') fun _ _ h' hready => hready.not_refuses h'.1

/-! ### Outcomes -/

/-- A rotation that has left the outbox leaves no journal. -/
lemma ends_deleteDelivered (h : env.Healthy) (hempty : r.world.OutboxHolds []) :
    Ends (deleteDelivered env t) r
      (fun _ => r.Left (if t.successor?.isSome then r.world.removeJournal else r.world)) E := by
  have hdone : r.Left r.world r := .refl r
  cases t with
  | rotated source replacement successor =>
    have hcontains : Ends
        (outboxContains env (TerminalState.rotated source replacement successor).eventKey) r
        (fun there r' => there = false ∧ r.Left r.world r') E := by
      refine ((ends_loadOutbox h).weaken (fun _ _ h => h) ?_).bind fun loaded r₁ h₁ => ?_
      · rintro e r' ⟨-, herror⟩
        obtain ⟨loaded, hload⟩ := World.OutboxReady.parses ⟨_, hempty⟩
        rw [hload] at herror
        cases herror
      · obtain ⟨hleft, hload⟩ := h₁
        rcases hempty with hload' | ⟨hnone, -⟩
        · rw [hload'] at hload
          cases hload
          exact Ends.pure ⟨rfl, hleft⟩
        · rw [hnone] at hload
          cases hload
          exact Ends.pure ⟨rfl, hleft⟩
    refine hcontains.bind fun there r₁ h₁ => ?_
    obtain ⟨rfl, hleft⟩ := h₁
    refine (ends_deleteJournal h).weaken (fun _ _ h' => ?_) fun _ _ k => k
    rw [hleft.world] at h'
    exact hleft.trans h'
  | rejected => exact Ends.pure hdone
  | outcomeUnknown => exact Ends.pure hdone

/-- After the outbox is drained, a rotation leaves no journal. -/
lemma ends_drain_deleteDelivered (h : env.Healthy) (haccepts : env.Accepts) :
    Ends (do drainOutbox env; deleteDelivered env t) r
      (fun _ r' => r.Passed r' ∧ r'.world.OutboxHolds [] ∧
        r'.world.journal = if t.successor?.isSome then none else r.world.journal)
      fun _ _ => ¬ r.world.OutboxReady := by
  refine (ends_drainOutbox h haccepts).bind fun _ r₁ h₁ => ?_
  obtain ⟨hdelivered, hempty⟩ := h₁
  refine (ends_deleteDelivered h hempty).weaken (fun _ r₂ h₂ => ?_) fun _ _ k => k
  have hpassed := hdelivered.passed
  by_cases hrotated : t.successor?.isSome
  · simp only [if_pos hrotated] at h₂ ⊢
    refine ⟨hpassed.trans (h₂.passed hpassed.after rfl rfl), ?_, by rw [h₂.world]; rfl⟩
    rw [h₂.world]
    exact hempty
  · simp only [if_neg hrotated] at h₂ ⊢
    refine ⟨hpassed.trans (h₂.passed hpassed.after rfl rfl), ?_, ?_⟩
    · rw [h₂.world]
      exact hempty
    · rw [h₂.world]
      exact hdelivered.same.journal

/-- What recording an outcome leaves of a journal. -/
def recordedJournal (t : TerminalState) (attempt : RotationAttempt) (enqueued : Bool)
    (journal : Option FileText) : Option FileText :=
  if t.successor?.isSome then none
  else if enqueued then journal
  else some (.json (journalPayload (.terminal t) true (some attempt)))

lemma ends_recordTerminalOutcome (h : env.Healthy) (haccepts : env.Accepts) :
    Ends (recordTerminalOutcome env t attempt enqueued) r
      (fun _ r' => r.Passed r' ∧ r'.world.OutboxHolds [] ∧
        r'.world.journal = recordedJournal t attempt enqueued r.world.journal)
      fun _ _ => ¬ r.world.OutboxReady := by
  cases enqueued with
  | true => exact ends_drain_deleteDelivered h haccepts
  | false =>
    refine ((h.ends (concludes_enqueueOutcome (outboxRecord_valid t))).weaken (fun _ _ k => k)
      fun _ _ hrefuses hready => hready.not_refuses hrefuses).bind fun _ r₁ h₁ => ?_
    have hpassed₁ := h₁.1.passed
    refine (ends_writeJournal h).bind fun _ r₂ h₂ => ?_
    have hpassed₂ := hpassed₁.trans (h₂.passed hpassed₁.after rfl rfl)
    refine (ends_drain_deleteDelivered h haccepts).weaken (fun _ r₃ h₃ => ?_)
      fun _ _ hnot => absurd hpassed₂.after hnot
    refine ⟨hpassed₂.trans h₃.1, h₃.2.1, h₃.2.2.trans ?_⟩
    rw [h₂.world]
    rfl

/-! ### Credentials -/

/-- The successor of a rotation that is stored. -/
def successorAuth (env : Env) (current : StoredAuth) (replacement successor : String) :
    StoredAuth :=
  ⟨successor, current.baseUrl, .cookie replacement, isoformat (env.wall 0)⟩

/-- Projecting a journaled successor stores it, and removes the journal. -/
lemma ends_recoverRotated_cookie {header replacement successor : String} (h : env.Healthy)
    (hsteady : env.Steady) (haccepts : env.Accepts) (hready : r.world.OutboxReady)
    (hfinds : env.Finds r.world current) (hcookie : current.credential = .cookie header) :
    Ends (recoverRotated env (.rotated current.revision replacement successor) current.revision
        replacement successor attempt enqueued) r
      (fun _ r' => r'.world.OutboxHolds [] ∧ r'.world.journal = none ∧
        r'.world.credential =
          some (.json (authPayload (successorAuth env current replacement successor)))) E := by
  have hcas := (ends_casReplaceCookie_of_finds (E := fun _ _ => False) h hfinds hcookie replacement
    successor).and_tracks (tracks_casReplaceCookie_renews (R := fun _ _ => True)
      fun _ _ _ _ _ => trivial)
  refine (hcas.weaken (fun _ _ k => k) fun _ _ k => k.1.elim).bind fun result r₁ h₁ => ?_
  obtain ⟨⟨written, rfl, -, -, hleft⟩, current', hheld, -, hrenews, -⟩ := h₁
  cases hheld.unique hfinds.holds
  have hready₁ : r₁.world.OutboxReady := by
    rw [hleft.world]
    exact hready
  refine ((ends_recordTerminalOutcome h haccepts).weaken (fun _ _ k => k)
    fun _ _ hnot => absurd hready₁ hnot).bind fun _ r₂ h₂ => Ends.pure ?_
  obtain ⟨hpassed, hempty, hjournal⟩ := h₂
  refine ⟨hempty, hjournal, ?_⟩
  obtain ⟨k, rfl⟩ := hrenews.renewed
  rw [hpassed.credential, hleft.world, hsteady k]
  rfl

/-- A bearer token is not replaced by a cookie. -/
lemma ends_recoverRotated_bearer {token replacement successor : String} (h : env.Healthy)
    (hfinds : env.Finds r.world current) (hbearer : current.credential = .bearerToken token) :
    Ends (recoverRotated env (.rotated current.revision replacement successor) current.revision
        replacement successor attempt enqueued) r (fun _ r' => r'.world = r.world) E := by
  have hcas : Ends (casReplaceCookie env current.revision replacement successor) r
      (fun result r' => result = .superseded (some current.revision) ∧ r'.world = r.world) E := by
    refine (ends_loadAuth_of_finds h hfinds).bind fun loaded r₁ h₁ => ?_
    obtain ⟨hleft, rfl⟩ := h₁
    simp only [hbearer, ne_eq, not_true_eq_false, if_false]
    exact Ends.pure ⟨rfl, hleft.world⟩
  refine hcas.bind fun result r₁ h₁ => ?_
  obtain ⟨rfl, hworld⟩ := h₁
  rw [← hworld] at hfinds ⊢
  refine (ends_loadAuth_of_finds h hfinds).bind fun loaded r₂ h₂ => ?_
  obtain ⟨hleft, rfl⟩ := h₂
  exact Ends.of_run rfl hleft.world

/-- Giving up an exchange leaves its outcome marked. -/
lemma ends_abandonRequested {reason : String} (h : env.Healthy) (haccepts : env.Accepts)
    (hready : r.world.OutboxReady) (hnow : r.cursor.now = 0) :
    Ends (abandonRequested env current.revision attempt reason) r
      (fun _ r' => r'.world.OutboxHolds [] ∧ r'.world.credential = r.world.credential ∧
        ∃ held, AbandonedAs env attempt 0 held ∧ r'.world.journal = some (.json (journalPayload
          (.terminal (.outcomeUnknown current.revision reason)) true (some held))))
      fun _ _ => ∀ held, ¬ AbandonedAs env attempt 0 held := by
  refine Ends.bind (Q := fun state r' => state =
    .journaled (.terminal (.outcomeUnknown current.revision reason)) ∧ r' = r)
    (Ends.of_run rfl ⟨rfl, rfl⟩) fun state r₁ h₁ => ?_
  obtain ⟨rfl, rfl⟩ := h₁
  dsimp only
  refine (ends_recoveryDeadline.weaken (fun _ _ k => k) fun e _ k => ?_).bind
    fun deadline r₂ h₂ => ?_
  · rintro held ⟨deadline, hadd, -⟩
    have hraised := k.2
    rw [hnow, isoformatAfter_eq_ok hadd] at hraised
    cases hraised
  obtain ⟨hticked, hdeadline⟩ := h₂
  rw [hnow] at hdeadline
  refine (ends_nowFn env).bind fun now r₃ h₃ => ?_
  obtain ⟨rfl, hworld₃, -⟩ := h₃
  rw [hticked.now, hnow]
  rcases hattempt : withContinuation attempt .ambiguityReplay deadline (env.now (0 + 1)) with
    e | held
  · refine Ends.of_error rfl ?_
    rintro held ⟨deadline', hadd, hattempt'⟩
    rw [isoformatAfter_eq_ok hadd] at hdeadline
    cases hdeadline
    rw [hattempt] at hattempt'
    cases hattempt'
  · refine Ends.of_ok rfl ((ends_writeJournal h).bind fun _ r₄ h₄ => ?_)
    have hready₄ : r₄.world.OutboxReady := by
      rw [h₄.world, hworld₃, hticked.world]
      exact hready
    refine ((ends_recordTerminalOutcome h haccepts).weaken (fun _ _ k => k)
      fun _ _ hnot => absurd hready₄ hnot).bind fun _ r₅ h₅ => Ends.pure ?_
    obtain ⟨hpassed, hempty, hjournal⟩ := h₅
    refine ⟨hempty, ?_, held, .of_deadline hdeadline hattempt, hjournal⟩
    rw [hpassed.credential, h₄.world, ← hticked.world, ← hworld₃]
    rfl

/-! ### Whole recoveries -/

/-- The journal holds a rotation of the stored cookie to a successor without a revision. -/
def World.Blanks (env : Env) (w : World) : Prop :=
  ∃ current header replacement enqueued attempt migrated, env.Finds w current ∧
    current.credential = .cookie header ∧ journalOf w.journal =
      .ok (.loaded (.terminal (.rotated current.revision replacement "")) enqueued attempt migrated)

lemma World.OutboxHolds.not_inOutbox (h : w.OutboxHolds []) : ¬ w.InOutbox key := by
  rintro ⟨records, hold, record, hmem, -⟩
  cases hold.unique h
  exact List.not_mem_nil hmem

/-- Files that a recovery ends with: they are where the files before lead, and an outcome that
waits in the outbox was journaled about another revision. -/
structure World.Reaches (env : Env) (w w' : World) : Prop where
  heads : w.Heads env w'.credential w'.journal
  displaced : ∀ key, w'.InOutbox key → w.Displaced env key

/-- What recording an outcome leaves of the journal is where the files lead. -/
lemma leads_recordedJournal (hplace : t.successor? = some current.revision ∨
      t.successor? = none ∧ t.sourceRevision = current.revision) :
    Leads env w current (.loaded (.terminal t) enqueued attempt migrated) w.credential
      (recordedJournal t attempt enqueued w.journal) := by
  rcases hplace with hcurrent | ⟨hnone, hsource⟩
  · simp only [recordedJournal, hcurrent, Option.isSome_some, if_true]
    exact .drop (.inl hcurrent)
  · simp only [recordedJournal, hnone, Option.isSome_none, Bool.false_eq_true, if_false]
    cases enqueued with
    | true => exact .stay (.marked hsource hnone)
    | false => exact .mark hsource hnone

/-- A record about another revision is removed, and its outcome waits in the outbox. -/
lemma ends_discardRotationState (h : env.Healthy) (hempty : r.world.OutboxHolds [])
    (hfinds : env.Finds r.world current)
    (hload : journalOf r.world.journal = .ok (.loaded state enqueued attempt migrated))
    (hcurrent : state.successor? ≠ some current.revision)
    (hsource : state.sourceRevision ≠ current.revision) :
    Ends (discardRotationState env state enqueued) r (fun _ r' => r.world.Reaches env r'.world)
      E := by
  have hheads : r.world.Heads env r.world.credential none :=
    ⟨current, _, hfinds, hload, .drop (.inr (.inl hsource))⟩
  have hdelete : Ends (deleteJournal env) r (fun _ r' => r.world.Reaches env r'.world) E := by
    refine (ends_deleteJournal h).weaken (fun _ r' h' => ?_) fun _ _ k => k
    rw [h'.world]
    exact ⟨hheads, fun key hkey =>
      absurd hkey (show r.world.removeJournal.OutboxHolds [] from hempty).not_inOutbox⟩
  rcases state with source | source | t
  · exact hdelete
  · exact hdelete
  cases enqueued with
  | true => exact hdelete
  | false =>
    have hvalid := outboxRecord_valid t
    refine (((h.ends (concludes_enqueueOutcome hvalid)).and
      (ends_enqueueOutcome_empty h hvalid hempty)).weaken (fun _ _ k => k) fun _ _ k => k.2).bind
        fun _ r₁ h₁ => ?_
    obtain ⟨⟨hdelivered, -⟩, hold⟩ := h₁
    refine (ends_deleteJournal h).weaken (fun _ r₂ h₂ => ?_) fun _ _ k => k
    rw [h₂.world]
    refine ⟨?_, ?_⟩
    · rw [show r₁.world.removeJournal.credential = r.world.credential from
        hdelivered.same.credential]
      exact hheads
    · rintro key ⟨records, hold', record, hmem, rfl⟩
      cases hold'.unique (show r₁.world.removeJournal.OutboxHolds _ from hold)
      obtain rfl := List.mem_singleton.1 hmem
      exact ⟨current, t, attempt, migrated, hfinds, hload, hcurrent, hsource, rfl⟩

/-- A recovery of the journal that is not cut off ends where the files lead. -/
lemma ends_recoverStartupJournal (h : env.Healthy) (hsteady : env.Steady) (haccepts : env.Accepts)
    (hempty : r.world.OutboxHolds []) (hnow : r.cursor.now = 0)
    (hfinds : env.Finds r.world current) (hblank : ¬ r.world.Blanks env) :
    Ends (recoverStartupJournal env current) r (fun _ r' => r.world.Reaches env r'.world)
      fun _ _ => ∀ credential journal, ¬ r.world.Heads env credential journal := by
  have hready : r.world.OutboxReady := ⟨_, hempty⟩
  refine ((ends_loadJournal h).weaken (fun _ _ k => k) ?_).bind fun loaded r₁ h₁ => ?_
  · rintro e r' ⟨-, herror⟩ credential journal ⟨_, _, -, hload, -⟩
    rw [herror] at hload
    cases hload
  obtain ⟨hleft, hload⟩ := h₁
  have hnow₁ := hleft.now.trans hnow
  replace hleft := hleft.world
  rw [← hleft] at hload hfinds hempty hready hblank ⊢
  have hstay : ∀ {w}, w = r₁.world → Inert env current loaded → r₁.world.Reaches env w := by
    rintro w rfl hinert
    exact ⟨⟨current, loaded, hfinds, hload, .stay hinert⟩, fun key hkey =>
      absurd hkey hempty.not_inOutbox⟩
  cases loaded with
  | absent => exact Ends.pure (hstay rfl (.unread (by simp)))
  | corrupt detail => exact Ends.pure (hstay rfl (.unread (by simp)))
  | ioFailure operation error => exact Ends.pure (hstay rfl (.unread (by simp)))
  | loaded state enqueued attempt migrated =>
    have hrecord : ∀ t, state = .terminal t →
        (t.successor? = some current.revision ∨
          t.successor? = none ∧ t.sourceRevision = current.revision) →
        Ends (do recordTerminalOutcome env t attempt enqueued; return current) r₁
          (fun _ r' => r₁.world.Reaches env r'.world)
          fun _ _ => ∀ credential journal, ¬ r₁.world.Heads env credential journal := by
      rintro t rfl hplace
      refine ((ends_recordTerminalOutcome h haccepts).weaken (fun _ _ k => k)
        fun _ _ hnot => absurd hready hnot).bind fun _ r₂ h₂ => Ends.pure ?_
      obtain ⟨hpassed, hempty₂, hjournal⟩ := h₂
      refine ⟨?_, fun key hkey => absurd hkey hempty₂.not_inOutbox⟩
      rw [hpassed.credential, hjournal]
      exact ⟨current, _, hfinds, hload, leads_recordedJournal hplace⟩
    by_cases hcurrent : state.successor? = some current.revision
    · simp only [if_pos hcurrent]
      rcases state with source | source | t
      · cases hcurrent
      · cases hcurrent
      · exact hrecord t rfl (.inl hcurrent)
    by_cases hsource : state.sourceRevision ≠ current.revision
    · simp only [if_neg hcurrent, if_pos hsource]
      exact (ends_discardRotationState h hempty hfinds hload hcurrent hsource).bind
        fun _ _ hreaches => Ends.pure hreaches
    · -- a record of the stored revision: each state has its own sequence of writes
      simp only [if_neg hcurrent, if_neg hsource]
      rcases state with source | source | ⟨source, replacement, successor⟩ | ⟨source, reason⟩ |
        ⟨source, reason⟩ <;> cases not_not.1 hsource
      case neg.reserved.refl =>
        refine (ends_deleteJournal h).bind fun _ r₂ h₂ => Ends.pure ?_
        rw [h₂.world]
        exact ⟨⟨current, _, hfinds, hload, .drop (.inr (.inr rfl))⟩, fun key hkey =>
          absurd hkey (show r₁.world.removeJournal.OutboxHolds [] from hempty).not_inOutbox⟩
      case neg.requested.refl =>
        by_cases hdead : ownerIsAlive env attempt = true
        · simp only [hdead, if_true]
          exact Ends.pure (hstay rfl (.alive hdead))
        · have hreason : "process exited after refresh dispatch" = startupReason := rfl
          simp only [hdead]
          refine ((ends_abandonRequested h haccepts hready hnow₁).weaken (fun _ _ k => k)
            fun _ _ hnone => ?_).bind fun _ r₂ h₂ => Ends.pure ?_
          · rintro credential journal ⟨current', _, hfinds', hload', hleads⟩
            cases hfinds.holds.unique hfinds'.holds
            rw [hload] at hload'
            cases hload'
            cases hleads with
            | stay hinert =>
              cases hinert with
              | unread hunread => exact hunread _ _ _ _ rfl
              | alive halive => exact hdead halive
            | drop hdrops =>
              rcases hdrops with hsuccessor | hother | hreserved
              · cases hsuccessor
              · exact hother rfl
              · cases hreserved
            | abandon _ hheld => exact hnone _ hheld
          · obtain ⟨hempty₂, hcredential, held, hheld, hjournal⟩ := h₂
            refine ⟨?_, fun key hkey => absurd hkey hempty₂.not_inOutbox⟩
            rw [hcredential, hjournal, hreason]
            exact ⟨current, _, hfinds, hload, .abandon (by simpa using hdead) hheld⟩
      case neg.terminal.rotated.refl =>
        have hother : successor ≠ current.revision := fun h => hcurrent (congrArg some h)
        rcases hcredential : current.credential with header | token
        · refine (ends_recoverRotated_cookie h hsteady haccepts hready hfinds hcredential).weaken
            (fun _ r₂ h₂ => ?_) fun _ _ k => k
          obtain ⟨hempty₂, hjournal, hcookie⟩ := h₂
          have hnamed : successor ≠ "" := by
            rintro rfl
            exact hblank ⟨current, header, replacement, enqueued, attempt, migrated, hfinds,
              hcredential, hload⟩
          refine ⟨?_, fun key hkey => absurd hkey hempty₂.not_inOutbox⟩
          rw [hjournal, hcookie]
          exact ⟨current, _, hfinds, hload, .project hcredential hother hnamed⟩
        · exact (ends_recoverRotated_bearer h hfinds hcredential).weaken
            (fun _ _ hworld => hstay hworld (.bearer hcredential hother)) fun _ _ k => k
      case neg.terminal.rejected.refl => exact hrecord _ rfl (.inr ⟨rfl, rfl⟩)
      case neg.terminal.outcomeUnknown.refl => exact hrecord _ rfl (.inr ⟨rfl, rfl⟩)

lemma World.Heads.congr (h : w.Heads env credential journal)
    (hcredential : w'.credential = w.credential) (hjournal : w'.journal = w.journal) :
    w'.Heads env credential journal := by
  obtain ⟨current, loaded, hfinds, hload, hleads⟩ := h
  exact ⟨current, loaded, hfinds.congr hcredential, hjournal ▸ hload,
    hleads.congr hcredential hjournal⟩

lemma World.Displaced.congr (h : w.Displaced env key) (hcredential : w'.credential = w.credential)
    (hjournal : w'.journal = w.journal) : w'.Displaced env key := by
  obtain ⟨current, t, attempt, migrated, hfinds, hload, hrest⟩ := h
  exact ⟨current, t, attempt, migrated, hfinds.congr hcredential, hjournal ▸ hload, hrest⟩

lemma World.Blanks.congr (h : w.Blanks env) (hcredential : w'.credential = w.credential)
    (hjournal : w'.journal = w.journal) : w'.Blanks env := by
  obtain ⟨current, header, replacement, enqueued, attempt, migrated, hfinds, hcookie, hload⟩ := h
  exact ⟨current, header, replacement, enqueued, attempt, migrated, hfinds.congr hcredential,
    hcookie, hjournal ▸ hload⟩

/-- A recovery of a credential that is found drains the outbox, and recovers the journal. -/
lemma ends_recoverStartup_of {P : World → Prop} {D : Prop} (h : env.Healthy)
    (haccepts : env.Accepts) (hfinds : env.Finds w current) (hrefused : ¬ w.OutboxReady → D)
    (hjournal : ∀ r, w.SameRotation r.world → r.world.OutboxHolds [] → r.cursor.now = 0 →
      Ends (recoverStartupJournal env current) r (fun _ r' => P r'.world) fun _ _ => D) :
    Ends (recoverStartup env) (Run.start w) (fun _ r' => w.OutboxReady ∧ P r'.world)
      fun _ _ => D := by
  refine (ends_trigger h _).bind fun _ r₁ h₁ => (ends_trigger h _).bind fun _ r₂ h₂ => ?_
  have hsame₂ := h₁.trans h₂
  refine Ends.ensure (Q := fun _ r' => w.OutboxReady ∧ P r'.world) (E := fun _ _ => D) ?_
    (fun _ _ hq => (ends_trigger h _).weaken (fun _ _ h' => ⟨hq.1, h'.world ▸ hq.2⟩)
      fun _ _ k => k) fun _ _ hd => (ends_trigger h _).weaken (fun _ _ _ => hd) fun _ _ k => k
  rw [← show r₂.world = w from hsame₂.world] at hfinds
  refine (ends_loadAuth_of_finds h hfinds).bind fun loaded r₃ h₃ => ?_
  obtain ⟨hleft₃, rfl⟩ := h₃
  have hworld₃ : r₃.world = w := hleft₃.world.trans hsame₂.world
  refine ((ends_drainOutbox h haccepts).weaken (fun _ _ k => k)
    fun _ _ hnot => hrefused (hworld₃ ▸ hnot)).bind fun _ r₄ h₄ => ?_
  obtain ⟨hdelivered, hempty⟩ := h₄
  have hnow₄ : r₄.cursor.now = 0 :=
    (hdelivered.quiet.now.trans hleft₃.now).trans (hsame₂.now.trans rfl)
  have hready : w.OutboxReady := hworld₃ ▸ hdelivered.before
  exact (hjournal r₄ (hworld₃ ▸ hdelivered.same) hempty hnow₄).bind
    fun _ _ hend => Ends.pure ⟨hready, hend⟩

/-- A recovery that is not cut off ends where the files lead, if the outbox is ready. -/
lemma ends_recoverStartup (h : env.Healthy) (hsteady : env.Steady) (haccepts : env.Accepts)
    (hfinds : env.Finds w current) (hblank : ¬ w.Blanks env) :
    Ends (recoverStartup env) (Run.start w)
      (fun _ r' => w.OutboxReady ∧ w.Reaches env r'.world)
      fun _ _ => w.OutboxReady → ∀ credential journal, ¬ w.Heads env credential journal := by
  refine ends_recoverStartup_of h haccepts hfinds (fun hnot hready => absurd hready hnot)
    fun r hsame hempty hnow => ?_
  refine (ends_recoverStartupJournal h hsteady haccepts hempty hnow
    (hfinds.congr hsame.credential) fun hblanks =>
      hblank (hblanks.congr hsame.credential.symm hsame.journal.symm)).weaken
        (fun _ r' hreaches => ?_) fun _ _ hnone _ credential journal hheads =>
          hnone credential journal (hheads.congr hsame.credential hsame.journal)
  exact ⟨hreaches.heads.congr hsame.credential.symm hsame.journal.symm, fun key hkey =>
    (hreaches.displaced key hkey).congr hsame.credential.symm hsame.journal.symm⟩

/-- What a recovery leaves. -/
def World.recovered (w : World) (env : Env) : World := (recoverStartup env (Run.start w)).2.world

/-- A recovery that finds no credential changes nothing. -/
lemma recovered_of_unfound (hsteady : env.Steady) (hnone : ∀ current, ¬ env.Finds w current)
    (fault : Nat → String → Fault) : w.recovered (env.under fault) = w := by
  have hmoves : Tracks Run.world (fun _ _ => False) (recoverStartup (env.under fault))
      (Run.start w) (fun _ _ => True) fun _ _ => True := by
    refine tracks_withAuthFileLock (fun r₀ h₀ => ?_) (fun _ _ _ => trivial)
      (fun _ _ _ _ _ => trivial) (fun _ _ _ _ _ _ => trivial) fun _ _ _ _ _ _ => trivial
    refine ((tracks_loadAuth (env.under fault) r₀).evaluated.weaken (fun _ _ h => h)
      fun _ _ _ => trivial).bind fun loaded r₁ _ h₁ => ?_
    cases loaded with
    | loaded auth =>
      obtain ⟨-, hread | ⟨-, _, _, ⟨⟩⟩⟩ := (concludes_loadAuth (env.under fault)).returns _ h₁.2
      refine absurd (fun n => ?_) (hnone auth)
      rw [hsteady n]
      rw [show (env.under fault).wall = env.wall from rfl, hsteady] at hread
      rw [h₀.world] at hread
      exact hread
    | _ => exact Tracks.pure trivial
  exact (hmoves.invariant (I := fun v => v = w) rfl fun _ _ _ hstep => hstep.elim)

/-! ### Recoveries that were cut off before -/

/-- What recoveries leave that are each cut off before a storage operation. -/
def World.interrupted (env : Env) (w : World) (cuts : List Nat) : World :=
  cuts.foldl (fun w n => w.recovered (env.cut n)) w

/-- A recovery after others that were cut off ends like one that was not: it returns, and stores the
same credential and the same journal; what the latter leaves in the outbox is delivered or in the
outbox; and no exchange is dispatched. -/
structure Converges (env : Env) (w : World) (cuts : List Nat) : Prop where
  returns : ∃ auth, (recoverStartup env (Run.start (w.interrupted env cuts))).1 = .ok auth
  credential : ((w.interrupted env cuts).recovered env).credential = (w.recovered env).credential
  journal : ((w.interrupted env cuts).recovered env).journal = (w.recovered env).journal
  outcomes : ∀ key, (w.recovered env).InOutbox key →
    ((w.interrupted env cuts).recovered env).Delivering key
  dispatches : ((w.interrupted env cuts).recovered env).dispatches = w.dispatches

/-- Recoveries that are cut off are on the way of the whole one. -/
lemma onWay_interrupted (hsteady : env.Steady) {cuts : List Nat}
    (hheads : w.Heads env credential journal) : OnWay env w (w.interrupted env cuts) := by
  induction cuts generalizing w with
  | nil => exact .refl w
  | cons n cuts ih =>
    have hfirst : OnWay env w (w.recovered (env.cut n)) := onWay_recoverStartup hsteady hheads
    exact hfirst.trans (ih (hfirst.heads _ _ hheads))

/-- Where no credential is found, recoveries change nothing. -/
lemma interrupted_of_unfound (hsteady : env.Steady) (hnone : ∀ current, ¬ env.Finds w current)
    (cuts : List Nat) : w.interrupted env cuts = w := by
  induction cuts with
  | nil => rfl
  | cons n cuts ih =>
    have hfirst : w.recovered (env.cut n) = w := recovered_of_unfound hsteady hnone _
    change (w.recovered (env.cut n)).interrupted env cuts = w
    rw [hfirst, ih]

/-- Where the files have led, no outcome is displaced. -/
lemma not_displaced_of_heads (hheads : w.Heads env w'.credential w'.journal) :
    ¬ w'.Displaced env key := by
  obtain ⟨current, loaded, hfinds, hload, hleads⟩ := hheads
  rintro ⟨current', t, attempt, migrated, hfinds', hload', -, hother, -⟩
  have hmarked : ∀ {t' attempt'}, w'.journal =
      some (.json (journalPayload (.terminal t') true (some attempt'))) → False := by
    intro t' attempt' hfile
    rw [hfile] at hload'
    obtain ⟨-, hflag, -⟩ := eq_of_parseJournal_journalPayload hload'
    cases hflag
  generalize hcredential : w'.credential = credential at hleads
  generalize hjournal : w'.journal = journal at hleads
  cases hleads with
  | stay hinert =>
    -- a journal that stays holds no unmarked outcome
    cases hfinds.holds.unique (hfinds'.congr hcredential.symm).holds
    rw [hjournal, hload] at hload'
    cases hload'
    cases hinert with
    | unread hunread => exact hunread _ _ _ _ rfl
    | bearer => exact hother rfl
  | drop => rw [hjournal] at hload'; cases hload'
  | mark => exact hmarked hjournal
  | abandon => exact hmarked hjournal
  | project => rw [hjournal] at hload'; cases hload'

/-- Where every successor that is to be stored has a revision, recoveries converge. -/
lemma converges_of_not_blanks (h : env.Healthy) (hsteady : env.Steady) (haccepts : env.Accepts)
    (hwhole : ∃ auth, (recoverStartup env (Run.start w)).1 = .ok auth) (hblank : ¬ w.Blanks env)
    (cuts : List Nat) : Converges env w cuts := by
  obtain ⟨auth, hwhole⟩ := hwhole
  by_cases hfound : ∃ current, env.Finds w current
  · obtain ⟨current, hfinds⟩ := hfound
    -- the whole recovery fixes where the files lead, and no cut leaves that way
    obtain ⟨hready, hreaches⟩ :=
      (ends_recoverStartup h hsteady haccepts hfinds hblank).returned hwhole
    have hway : OnWay env w (w.interrupted env cuts) := onWay_interrupted hsteady hreaches.heads
    have hheads := hway.heads _ _ hreaches.heads
    obtain ⟨current', loaded, hfinds', hload, hleads⟩ := id hheads
    have hblank' : ¬ (w.interrupted env cuts).Blanks env := by
      rintro ⟨current'', header, replacement, enqueued, attempt, migrated, hfinds'', hcookie,
        hload'⟩
      exact named_of_heads hheads hfinds'' hload' (named_of_authOf (hfinds'' 0)).1.symm hcookie rfl
    -- so the last recovery ends there too
    have hends := ends_recoverStartup h hsteady haccepts hfinds' hblank'
    rcases hends.cases with ⟨auth', r', hrun, -, hreaches'⟩ | ⟨e, r', hrun, hnone⟩
    · have hdone : r'.world = (w.interrupted env cuts).recovered env := by
        rw [World.recovered, hrun]
      rw [hdone] at hreaches'
      obtain ⟨_, _, hfinds'', hload'', hleads''⟩ := hreaches'.heads
      cases hfinds'.holds.unique hfinds''.holds
      rw [hload] at hload''
      cases hload''
      obtain ⟨hcredential, hjournal⟩ := hleads''.unique hleads
      have hlast : OnWay env (w.interrupted env cuts) ((w.interrupted env cuts).recovered env) :=
        onWay_recoverStartup hsteady hheads
      refine ⟨⟨auth', congrArg Prod.fst hrun⟩, hcredential, hjournal, fun key hkey => ?_,
        hlast.dispatches.trans hway.dispatches⟩
      have hdisplaced := hway.tells key (.inr (hreaches.displaced key hkey))
      exact (hlast.tells key hdisplaced).resolve_right (not_displaced_of_heads hreaches'.heads)
    · exact absurd hheads (hnone (hway.ready hready) _ _)
  · have hnone : ∀ current, ¬ env.Finds w current := fun current hfinds => hfound ⟨current, hfinds⟩
    have hsame := interrupted_of_unfound hsteady hnone cuts
    have hlast : w.recovered env = w := recovered_of_unfound hsteady hnone env.fault
    refine ⟨⟨auth, by rw [hsame]; exact hwhole⟩, by rw [hsame], by rw [hsame], fun key hkey => ?_,
      by rw [hsame, hlast]⟩
    rw [hsame]
    exact .inr hkey

/-! ### A recovery that is cut off after it stored a successor -/

section Cut

variable {n : Nat} {operation : String}

lemma trigger_cut_of_lt (h : env.Healthy) (hn : r.cursor.faults < n) :
    trigger (env.cut n) operation r =
      (.ok (), { r with cursor := { r.cursor with faults := r.cursor.faults + 1 } }) := by
  simp only [trigger, Env.cut, if_pos hn, h.fault]

/-- Before the process is gone, its run is the one that is not cut off. -/
lemma eq_of_shortens {α : Type} {p q : Auth α} (h : Shortens env n p q r)
    (hn : (q r).2.cursor.faults ≤ n) : p r = q r :=
  h.eq_of fun _ hlate hext => absurd hext.faults (by omega)

/-- After eight operations of the write the file is replaced. -/
lemma writeAuthFile_cut (h : env.Healthy) (auth : StoredAuth) (cause : WriteCause) (r : Run) :
    ∃ r', writeAuthFile (env.cut (r.cursor.faults + 8)) auth cause r = (.crashed, r') ∧
      r'.world = r.world.setCredential auth cause := by
  refine ⟨⟨r.world.setCredential auth cause, { r.cursor with faults := r.cursor.faults + 9 }⟩, ?_,
    rfl⟩
  simp [writeAuthFile, writeAtomicJson, bind_apply, tryCatch_apply, trigger, Env.cut, h.fault]

lemma loadAuth_of_finds (h : env.Healthy) (hfinds : env.Finds r.world current) :
    ∃ r', loadAuth env r = (.ok (.loaded current), r') ∧ r'.world = r.world ∧
      r.cursor.faults ≤ r'.cursor.faults := by
  have hshortens : Shortens env 0 (loadAuth (env.cut 0)) (loadAuth env) r := shortens_loadAuth
  have hfaults := hshortens.stretch.faults
  rcases (ends_loadAuth_of_finds (E := fun _ _ => False) h hfinds).cases with
    ⟨_, r', hrun, hleft, rfl⟩ | ⟨_, _, -, hfalse⟩
  · rw [hrun] at hfaults
    exact ⟨r', hrun, hleft.world, hfaults⟩
  · exact hfalse.elim

lemma loadJournal_of_load (h : env.Healthy) (hload : journalOf r.world.journal = .ok loaded) :
    ∃ r', loadJournal env r = (.ok loaded, r') ∧ r'.world = r.world ∧
      r.cursor.faults ≤ r'.cursor.faults := by
  have hshortens : Shortens env 0 (loadJournal (env.cut 0)) (loadJournal env) r :=
    shortens_loadJournalFor .journal
  have hfaults := hshortens.stretch.faults
  rcases (ends_loadJournal h).cases with ⟨_, r', hrun, hleft, hread⟩ | ⟨_, _, -, -, hread⟩ <;>
    rw [hload] at hread <;> cases hread
  rw [hrun] at hfaults
  exact ⟨r', hrun, hleft.world, hfaults⟩

/-- A rotation of the stored revision to another one is projected. -/
lemma recoverStartupJournal_rotated {replacement successor : String} {r' : Run}
    (hrun : loadJournal env r = (.ok (.loaded
      (.terminal (.rotated current.revision replacement successor)) enqueued attempt migrated), r'))
    (hother : successor ≠ current.revision) :
    recoverStartupJournal env current r =
      recoverRotated env (.rotated current.revision replacement successor) current.revision
        replacement successor attempt enqueued r' := by
  have hsuccessor : ¬ (JournalState.terminal (.rotated current.revision replacement
      successor)).successor? = some current.revision := fun hsome => hother (Option.some.inj hsome)
  have hsource : ¬ (JournalState.terminal (.rotated current.revision replacement
      successor)).sourceRevision ≠ current.revision := not_not.2 rfl
  refine (bind_of_ok hrun).trans ?_
  simp only [if_neg hsuccessor, if_neg hsource]

/-- A recovery can be cut off between the write of a successor and what follows it. -/
lemma exists_recovered_cut {header replacement successor : String} (h : env.Healthy)
    (haccepts : env.Accepts) (hready : w.OutboxReady) (hfinds : env.Finds w current)
    (hcookie : current.credential = .cookie header)
    (hload : journalOf w.journal = .ok (.loaded
      (.terminal (.rotated current.revision replacement successor)) enqueued attempt migrated))
    (hother : successor ≠ current.revision) :
    ∃ n auth, auth.revision = successor ∧ (w.recovered (env.cut n)).journal = w.journal ∧
      (w.recovered (env.cut n)).credential = some (.json (authPayload auth)) := by
  -- the run that is not cut off, up to the write
  obtain ⟨r₃, hauth₃, hworld₃, -⟩ := loadAuth_of_finds (r := ⟨w, { faults := 2 }⟩) h hfinds
  obtain ⟨r₄, hdrain, hdelivered⟩ : ∃ r₄, drainOutbox env r₃ = (.ok (), r₄) ∧ r₃.Delivered r₄ := by
    rcases (ends_drainOutbox h haccepts).cases with ⟨_, r₄, hrun, hdelivered, -⟩ | ⟨_, _, -, hnot⟩
    · exact ⟨r₄, hrun, hdelivered⟩
    · exact absurd (hworld₃.symm ▸ hready) hnot
  have hsame₄ : w.SameRotation r₄.world := by
    have hsame := hdelivered.same
    rwa [hworld₃] at hsame
  obtain ⟨r₅, hjournal₅, hworld₅, hfaults₅⟩ := loadJournal_of_load (r := r₄) h
    (hsame₄.journal ▸ hload)
  obtain ⟨r₆, hauth₆, hworld₆, hfaults₆⟩ := loadAuth_of_finds (r := r₅) h
    (hfinds.congr (hworld₅ ▸ hsame₄.credential))
  let auth : StoredAuth :=
    ⟨successor, current.baseUrl, .cookie replacement, isoformat (env.wall r₆.cursor.wall)⟩
  let r₇ : Run := { r₆ with cursor := { r₆.cursor with wall := r₆.cursor.wall + 1 } }
  obtain ⟨r₈, hwrite, hworld₈⟩ := writeAuthFile_cut h auth (.projected current.revision) r₇
  have hworld₈ : r₈.world = r₄.world.setCredential auth (.projected current.revision) := by
    rw [hworld₈, ← hworld₅, ← hworld₆]
  generalize hn : r₇.cursor.faults + 8 = n at hwrite
  replace hn : r₆.cursor.faults + 8 = n := hn
  -- the run that is cut off
  have hdrain' : drainOutbox (env.cut n) r₃ = (.ok (), r₄) :=
    (eq_of_shortens shortens_drainOutbox (by rw [hdrain]; dsimp only; omega)).trans hdrain
  have hcas : casReplaceCookie (env.cut n) current.revision replacement successor r₅ =
      (.crashed, r₈) := by
    refine (bind_of_ok (show loadAuth (env.cut n) r₅ = _ from hauth₆)).trans ?_
    simp only [hcookie, ne_eq, not_true_eq_false, if_false]
    exact (bind_of_ok (show storedAuth (env.cut n) current.baseUrl (.cookie replacement)
      (some successor) r₆ = (.ok auth, r₇) from rfl)).trans (bind_of_crashed hwrite)
  have hrecover : recoverStartupJournal (env.cut n) current r₄ = (.crashed, r₈) :=
    (recoverStartupJournal_rotated (show loadJournal (env.cut n) r₄ = _ from hjournal₅)
      hother).trans (bind_of_crashed hcas)
  have hrun : recoverStartup (env.cut n) (Run.start w) = (.crashed, r₈) := by
    refine (bind_of_ok (trigger_cut_of_lt h (by simp [Run.start]; omega))).trans ?_
    refine (bind_of_ok (trigger_cut_of_lt h (by simp [Run.start]; omega))).trans ?_
    refine ensure_of_crashed ?_
    refine (bind_of_ok (show loadAuth (env.cut n) _ = _ from hauth₃)).trans ?_
    exact (bind_of_ok hdrain').trans (bind_of_crashed hrecover)
  refine ⟨n, auth, rfl, ?_, ?_⟩
  · rw [World.recovered, hrun, hworld₈]
    exact hsame₄.journal
  · rw [World.recovered, hrun, hworld₈]
    rfl

end Cut

/-- A credential without a revision is not found. -/
lemma unfound_of_nameless {auth : StoredAuth}
    (hfile : w.credential = some (.json (authPayload auth))) (hnameless : auth.revision = "") :
    ∀ current, ¬ env.Finds w current := by
  intro current hfinds
  have hload := hfinds 0
  rw [hfile] at hload
  have hsame : current = auth := eq_of_parseAuth_authPayload hload
  exact (named_of_authOf (hfinds 0)).1 (hsame ▸ hnameless)

/-- A recovery that projects a successor leaves no journal. -/
lemma ends_recoverStartup_rotated (h : env.Healthy) (hsteady : env.Steady) (haccepts : env.Accepts)
    {header replacement successor : String} (hfinds : env.Finds w current)
    (hcookie : current.credential = .cookie header)
    (hload : journalOf w.journal = .ok (.loaded
      (.terminal (.rotated current.revision replacement successor)) enqueued attempt migrated))
    (hother : successor ≠ current.revision) :
    Ends (recoverStartup env) (Run.start w)
      (fun _ r' => w.OutboxReady ∧ r'.world.journal = none) fun _ _ => True := by
  refine ends_recoverStartup_of (P := fun v => v.journal = none) h haccepts hfinds
    (fun _ => trivial) fun r hsame hempty _ => ?_
  have hready : r.world.OutboxReady := ⟨_, hempty⟩
  obtain ⟨r₁, hrun, hworld, -⟩ := loadJournal_of_load (r := r) h (hsame.journal ▸ hload)
  rw [← hworld] at hready
  refine Ends.resume (recoverStartupJournal_rotated hrun hother) ?_
  exact (ends_recoverRotated_cookie h hsteady haccepts hready
    (hfinds.congr (hworld ▸ hsame.credential)) hcookie).weaken (fun _ _ hend => hend.2.1)
      fun _ _ k => k

/-- However often recoveries of it are cut off, the next one ends as a recovery that is not cut off
exactly when the journal does not hold a rotation of the stored cookie to a successor without a
revision. -/
theorem converges_iff (h : env.Healthy) (hsteady : env.Steady) (haccepts : env.Accepts)
    (hwhole : ∃ auth, (recoverStartup env (Run.start w)).1 = .ok auth) :
    (∀ cuts, Converges env w cuts) ↔ ¬ w.Blanks env := by
  refine ⟨?_, converges_of_not_blanks h hsteady haccepts hwhole⟩
  rintro hconverges ⟨current, header, replacement, enqueued, attempt, migrated, hfinds, hcookie,
    hload⟩
  obtain ⟨auth, hwhole⟩ := hwhole
  have hother : "" ≠ current.revision := (named_of_authOf (hfinds 0)).1.symm
  obtain ⟨hready, hnone⟩ :=
    (ends_recoverStartup_rotated h hsteady haccepts hfinds hcookie hload hother).returned hwhole
  obtain ⟨n, auth, hnameless, hjournal, hcredential⟩ :=
    exists_recovered_cut h haccepts hready hfinds hcookie hload hother
  -- the credential that is stored cannot be read, and the next recovery gives up
  have hstuck : (w.recovered (env.cut n)).recovered env = w.recovered (env.cut n) :=
    recovered_of_unfound hsteady (unfound_of_nameless hcredential hnameless) env.fault
  have hend := (hconverges [n]).journal
  rw [show w.interrupted env [n] = w.recovered (env.cut n) from rfl, hstuck, hjournal,
    show (w.recovered env).journal = none from hnone] at hend
  rw [hend] at hload
  cases hload

/-! ### A rotation that was cut off -/

/-- The first credential, whose rotation is journaled and not yet stored. -/
def rotatedTo (successor : String) : World :=
  (Sys.installed firstAuth).world.setJournal
    (.terminal (.rotated "r0" "access_token=c; refresh_token=d" successor)) false
    { rotationId := "r0", attemptKind := .normal, dispatchCount := 1,
      recoveryDeadline := some (isoformat (launchAfter 300)) } (some launch)

/-- A worker that starts beside it. -/
def starter : Env := .calm (worker 2) launch "r2"

lemma healthy_starter : starter.Healthy := ⟨fun _ _ => rfl, fun _ _ => rfl⟩

lemma accepts_starter : starter.Accepts := ⟨_, rfl, fun _ => rfl⟩

/-- The recovery of a rotation is cut off after the successor is stored, and the next one after the
outcome is in the outbox. -/
theorem converges_iff_rotated : Converges starter (rotatedTo "r1") [12, 15] := by
  refine (converges_iff healthy_starter (fun _ => rfl) accepts_starter
    ⟨some ⟨"r1", "https://fleet.enji.ai", .cookie "access_token=c; refresh_token=d",
      isoformat launch⟩, by decide +kernel⟩).2 ?_ [12, 15]
  rintro ⟨current, header, replacement, enqueued, attempt, migrated, -, -, hload⟩
  obtain ⟨hstate, -, -⟩ := eq_of_parseJournal_journalPayload hload
  simp at hstate

/-- Once a successor without a revision is stored, recoveries leave its journal. -/
theorem not_converges_blank :
    ¬ ∀ env w cuts, env.Healthy → env.Steady → env.Accepts →
      (∃ auth, (recoverStartup env (Run.start w)).1 = .ok auth) → Converges env w cuts := by
  intro h
  have hsame := (h starter (rotatedTo "") [12] healthy_starter (fun _ => rfl) accepts_starter
    ⟨some ⟨"", "https://fleet.enji.ai", .cookie "access_token=c; refresh_token=d",
      isoformat launch⟩, by decide +kernel⟩).journal
  have hstuck : (((rotatedTo "").interrupted starter [12]).recovered starter).journal.isSome =
      true := by decide +kernel
  have hwhole : ((rotatedTo "").recovered starter).journal.isSome = false := by decide +kernel
  rw [hsame, hwhole] at hstuck
  cases hstuck

end EnjiGuard.AuthSession
