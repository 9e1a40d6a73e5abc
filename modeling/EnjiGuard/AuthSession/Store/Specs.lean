import EnjiGuard.AuthSession.Store.Operations

/-!
# Specifications of the store operations

One specification for each operation. `OutboxStep` lists what the outbox operations can do to the
files; it never touches the credential, the journal or the record of dispatches.
-/

namespace EnjiGuard.AuthSession

open Foundation Action Relation

variable {R : World → World → Prop} {r : Run}

/-! ### Steps of the outbox -/

/-- What the outbox operations and the sink can do to the files. -/
inductive OutboxStep : World → World → Prop
  | enqueue {w : World} {records : List OutcomeOutboxRecord} {record : OutcomeOutboxRecord}
      (hold : w.OutboxHolds records) (hvalid : record.Valid)
      (hfresh : ∀ existing ∈ records, existing.eventKey ≠ record.eventKey) :
      OutboxStep w (w.setOutbox (records ++ [record]))
  | accept (w : World) (eventKey : String) : OutboxStep w (w.accept eventKey)
  | acknowledge {w : World} {records : List OutcomeOutboxRecord} {eventKey : String}
      (hold : w.OutboxHolds records) (haccepted : eventKey ∈ w.accepted) :
      OutboxStep w (w.setOutbox (records.filter fun record => record.eventKey ≠ eventKey))
  | remove {w : World} {records : List OutcomeOutboxRecord} {eventKey : String}
      (hold : w.OutboxHolds records) (haccepted : eventKey ∈ w.accepted)
      (hlast : ∀ record ∈ records, record.eventKey = eventKey) :
      OutboxStep w w.removeOutbox

/-- Two states of the files differ in the outbox and the accepted keys only. -/
structure World.SameRotation (w w' : World) : Prop where
  credential : w'.credential = w.credential
  journal : w'.journal = w.journal
  credentialWrites : w'.credentialWrites = w.credentialWrites
  journaledOutcomes : w'.journaledOutcomes = w.journaledOutcomes
  schedule : w'.schedule = w.schedule
  dispatches : w'.dispatches = w.dispatches

lemma World.SameRotation.refl (w : World) : w.SameRotation w := ⟨rfl, rfl, rfl, rfl, rfl, rfl⟩

lemma World.SameRotation.trans {w w' w'' : World} (h : w.SameRotation w')
    (h' : w'.SameRotation w'') : w.SameRotation w'' :=
  ⟨h'.1.trans h.1, h'.2.trans h.2, h'.3.trans h.3, h'.4.trans h.4, h'.5.trans h.5,
    h'.6.trans h.6⟩

lemma OutboxStep.sameRotation {w w' : World} (h : OutboxStep w w') : w.SameRotation w' := by
  cases h <;> exact ⟨rfl, rfl, rfl, rfl, rfl, rfl⟩

lemma World.SameRotation.of_outboxSteps {w w' : World} (h : ReflTransGen OutboxStep w w') :
    w.SameRotation w' := by
  induction h with
  | refl => exact .refl _
  | tail _ hstep ih => exact ih.trans hstep.sameRotation

lemma World.SameRotation.holds {w w' : World} {auth : StoredAuth} (h : w.SameRotation w') :
    w'.Holds auth ↔ w.Holds auth := by
  simp only [World.Holds, h.credential]

lemma World.SameRotation.journalHolds {w w' : World} {state : JournalState} {enqueued : Bool}
    {attempt : RotationAttempt} (h : w.SameRotation w') :
    w'.JournalHolds state enqueued attempt ↔ w.JournalHolds state enqueued attempt := by
  simp only [World.JournalHolds, h.journal]

/-! ### What the outbox holds -/

lemma World.OutboxHolds.consistent {w : World} {records : List OutcomeOutboxRecord}
    (h : w.OutboxHolds records) : OutboxConsistent records := by
  rcases h with h | ⟨-, rfl⟩
  · rcases hfile : w.outbox with _ | _ | detail | typeName | payload <;> rw [hfile] at h
    · cases h
    · cases h
    · cases h
    · cases h
    · exact consistent_of_parseOutbox h
  · exact ⟨by simp, by simp⟩

lemma World.OutboxHolds.unique {w : World} {records records' : List OutcomeOutboxRecord}
    (h : w.OutboxHolds records) (h' : w.OutboxHolds records') : records = records' := by
  rcases h with h | ⟨hnone, rfl⟩ <;> rcases h' with h' | ⟨hnone', rfl⟩
  · rw [h] at h'; cases h'; rfl
  · rw [hnone'] at h; cases h
  · rw [hnone] at h'; cases h'
  · rfl

lemma World.outboxHolds_setOutbox {w : World} {records : List OutcomeOutboxRecord}
    (h : OutboxConsistent records) : (w.setOutbox records).OutboxHolds records :=
  .inl (parseOutbox_outboxPayload h)

lemma OutboxConsistent.append {records : List OutcomeOutboxRecord} {record : OutcomeOutboxRecord}
    (h : OutboxConsistent records) (hvalid : record.Valid)
    (hfresh : ∀ existing ∈ records, existing.eventKey ≠ record.eventKey) :
    OutboxConsistent (records ++ [record]) := by
  refine ⟨?_, ?_⟩
  · intro other hother
    rcases List.mem_append.1 hother with hmem | hmem
    · exact h.valid other hmem
    · exact (List.mem_singleton.1 hmem) ▸ hvalid
  · rw [List.map_append, List.nodup_append]
    refine ⟨h.distinct, by simp, ?_⟩
    rintro key hkey other hother rfl
    obtain ⟨existing, hmem, hexisting⟩ := List.mem_map.1 hkey
    simp only [List.map_cons, List.map_nil, List.mem_singleton] at hother
    exact hfresh existing hmem (hexisting.trans hother)

lemma OutboxConsistent.filter {records : List OutcomeOutboxRecord} (h : OutboxConsistent records)
    (keep : OutcomeOutboxRecord → Bool) : OutboxConsistent (records.filter keep) :=
  ⟨fun record hmem => h.valid record (List.mem_filter.1 hmem).1,
    h.distinct.sublist ((List.filter_sublist).map _)⟩

/-- An event key is in the outbox. -/
def World.InOutbox (w : World) (eventKey : String) : Prop :=
  ∃ records, w.OutboxHolds records ∧ ∃ record ∈ records, record.eventKey = eventKey

/-- An event key that was enqueued stays in the outbox until it is accepted. -/
lemma OutboxStep.kept {w w' : World} {key : String} (h : OutboxStep w w')
    (hkey : key ∈ w.accepted ∨ w.InOutbox key) : key ∈ w'.accepted ∨ w'.InOutbox key := by
  cases h with
  | enqueue hold hvalid hfresh =>
    refine hkey.imp id ?_
    rintro ⟨records', hold', record', hmem, hrecord⟩
    cases hold.unique hold'
    exact ⟨_, World.outboxHolds_setOutbox (hold.consistent.append hvalid hfresh), record',
      List.mem_append_left _ hmem, hrecord⟩
  | accept eventKey => exact hkey.imp (List.mem_append_left _) id
  | @acknowledge records eventKey hold haccepted =>
    rcases hkey with hkey | ⟨records', hold', record', hmem, rfl⟩
    · exact .inl hkey
    · cases hold.unique hold'
      by_cases heq : record'.eventKey = eventKey
      · exact .inl (heq ▸ haccepted)
      · exact .inr ⟨_, World.outboxHolds_setOutbox (hold.consistent.filter _), record',
          List.mem_filter.2 ⟨hmem, by simpa using heq⟩, rfl⟩
  | remove hold haccepted hlast =>
    rcases hkey with hkey | ⟨records', hold', record', hmem, rfl⟩
    · exact .inl hkey
    · cases hold.unique hold'
      exact .inl (hlast record' hmem ▸ haccepted)

/-! ### Quiet runs -/

/-- Two runs have used the same clock readings and journal reads. -/
structure Run.Quiet (r r' : Run) : Prop where
  now : r'.cursor.now = r.cursor.now
  journalReads : r'.cursor.journalReads = r.cursor.journalReads

lemma Run.Quiet.refl (r : Run) : r.Quiet r := ⟨rfl, rfl⟩

lemma Run.Quiet.trans {r r' r'' : Run} (h : r.Quiet r') (h' : r'.Quiet r'') : r.Quiet r'' :=
  ⟨h'.1.trans h.1, h'.2.trans h.2⟩

lemma Run.Same.quiet {r r' : Run} (h : r.Same r') : r.Quiet r' := ⟨h.now, h.journalReads⟩

lemma Run.Replaced.quiet {r r' : Run} {w : World} (h : r.Replaced w r') : r.Quiet r' :=
  ⟨h.now, h.journalReads⟩

lemma Run.MaybeReplaced.quiet {r r' : Run} {w : World} (h : r.MaybeReplaced w r') : r.Quiet r' :=
  ⟨h.now, h.journalReads⟩

/-! ### Loading -/

/-- A journal that is there is not read as absent. -/
lemma parseJournal_ne_absent (payload : Json) : parseJournal payload ≠ .ok .absent := by
  intro h
  unfold parseJournal at h
  split at h
  · next fields =>
    dsimp only at h
    split_ifs at h
    · simp only [parseV2Journal, bind, Except.bind, pure, Except.pure] at h
      repeat' split at h
      all_goals cases h
    · rcases hfields : journalFields fields with e | ⟨detail | parsed⟩ <;>
        simp only [hfields, bind, Except.bind, pure, Except.pure] at h
      · cases h
      · cases h
      · split at h <;> cases h
    · cases h
  · cases h

/-- An outbox that is there is not read as absent. -/
lemma parseOutbox_ne_absent (payload : Json) : parseOutbox payload ≠ .ok .absent := by
  have hrecords : ∀ (raw : List Json) (done : List OutcomeOutboxRecord),
      parseOutboxRecords done raw ≠ .ok .absent := by
    intro raw
    induction raw with
    | nil => rintro done ⟨⟩
    | cons value raw ih =>
      intro done h
      rcases hvalue : parseOutboxRecord value with e | ⟨_ | record⟩ <;>
        simp only [parseOutboxRecords, hvalue, bind, Except.bind, pure, Except.pure] at h
      · cases h
      · cases h
      · split_ifs at h
        · cases h
        · exact ih _ h
  intro h
  unfold parseOutbox at h
  split at h
  · split_ifs at h
    · split at h
      · exact hrecords _ _ h
      · cases h
    · cases h
  · cases h

/-- Loading the credential finds what the file holds. -/
lemma tracks_loadAuth (env : Env) (r : Run) :
    Tracks Run.world R (loadAuth env) r
      (fun result r' => r.Same r' ∧ ∀ auth, result = .loaded auth → r.world.Holds auth)
      (fun _ => r.Same) := by
  refine (tracks_readText env .credential r).bind fun text r₁ _ h₁ => ?_
  obtain ⟨hread, htext⟩ := h₁
  have hsame := hread.same (by decide)
  cases text with
  | error detail => exact Tracks.pure ⟨hsame, by rintro _ ⟨⟩⟩
  | ok content =>
    have hcontent : content = r.world.credential := by
      rcases hfault : env.readFault .credential (r.cursor.reads .credential) with _ | _ <;>
        rw [hfault] at htext
      · cases htext; rfl
      · cases htext
    refine (tracks_wallNow env r₁).bind fun now r₂ _ h₂ => ?_
    have hsame₂ := hsame.trans h₂
    refine Tracks.ofExcept (fun result hresult => ⟨hsame₂, ?_⟩) fun _ _ => hsame₂
    rintro auth rfl
    rcases content with _ | _ | detail | typeName | payload
    · cases hresult
    · cases hresult
    · cases hresult
    · cases hresult
    · exact ⟨payload, hcontent.symm, .inr ⟨now, hresult⟩⟩

/-- A journal that is read holds what it is read as. -/
lemma World.journalHolds_of_journalOf {w : World} {state : JournalState} {enqueued : Bool}
    {attempt : RotationAttempt} {migrated : Option Nat}
    (h : journalOf w.journal = .ok (.loaded state enqueued attempt migrated)) :
    w.JournalHolds state enqueued attempt := by
  rcases hfile : w.journal with _ | _ | detail | typeName | payload <;> rw [hfile] at h
  · cases h
  · cases h
  · cases h
  · cases h
  · exact ⟨payload, hfile, .inr ⟨migrated, h⟩⟩

/-- Loading the journal finds what the file holds, and fails only when the read does. -/
lemma tracks_loadJournal (env : Env) (r : Run) :
    Tracks Run.world R (loadJournal env) r
      (fun result r' => r.Read .journal r' ∧
        (∀ state enqueued attempt migrated, result = .loaded state enqueued attempt migrated →
          journalOf r.world.journal = .ok (.loaded state enqueued attempt migrated)) ∧
        (result = .absent → r.world.journal = none) ∧
        (env.readFault .journal r.cursor.journalReads = none →
          journalOf r.world.journal = .ok result))
      (fun _ r' => r.Read .journal r') := by
  refine (tracks_readText env .journal r).bind fun text r₁ _ h₁ => ?_
  obtain ⟨hread, htext⟩ := h₁
  cases text with
  | error detail =>
    refine Tracks.pure ⟨hread, by rintro _ _ _ _ ⟨⟩, by rintro ⟨⟩, fun hfault => ?_⟩
    rw [show r.cursor.journalReads = r.cursor.reads .journal from rfl] at hfault
    rw [hfault] at htext
    cases htext
  | ok content =>
    have hcontent : content = r.world.journal := by
      rcases hfault : env.readFault .journal (r.cursor.reads .journal) with _ | _ <;>
        rw [hfault] at htext
      · cases htext; rfl
      · cases htext
    refine Tracks.ofExcept (fun result hresult => ⟨hread, ?_, ?_, ?_⟩) fun _ _ => hread
    · rintro state enqueued attempt migrated rfl
      rw [← hcontent]; exact hresult
    · rintro rfl
      rcases content with _ | _ | detail | typeName | payload
      · exact hcontent.symm
      · cases hresult
      · cases hresult
      · cases hresult
      · exfalso
        exact absurd hresult (parseJournal_ne_absent payload)
    · rintro -
      rw [← hcontent]; exact hresult

/-- Loading the outbox finds what the file holds. -/
lemma tracks_loadOutbox (env : Env) (r : Run) :
    Tracks Run.world R (loadOutbox env) r
      (fun result r' => r.Same r' ∧
        (∀ records, result = .loaded records → r.world.OutboxHolds records) ∧
        (result = .absent → r.world.OutboxHolds []))
      (fun _ => r.Same) := by
  refine (tracks_readText env .outbox r).bind fun text r₁ _ h₁ => ?_
  obtain ⟨hread, htext⟩ := h₁
  have hsame := hread.same (by decide)
  cases text with
  | error detail => exact Tracks.pure ⟨hsame, by rintro _ ⟨⟩, by rintro ⟨⟩⟩
  | ok content =>
    have hcontent : content = r.world.outbox := by
      rcases hfault : env.readFault .outbox (r.cursor.reads .outbox) with _ | _ <;>
        rw [hfault] at htext
      · cases htext; rfl
      · cases htext
    refine Tracks.ofExcept (fun result hresult => ⟨hsame, ?_, ?_⟩) fun _ _ => hsame
    · rintro records rfl
      exact .inl (hcontent ▸ hresult)
    · rintro rfl
      rcases content with _ | _ | detail | typeName | payload
      · exact .inr ⟨hcontent.symm, rfl⟩
      · cases hresult
      · cases hresult
      · cases hresult
      · exact absurd hresult (parseOutbox_ne_absent payload)

/-! ### Writing -/

/-- A new record has the fields it was asked for, and the date of a reading of the wall clock. -/
lemma tracks_storedAuth {E : PyError → Run → Prop} (env : Env) (baseUrl : String)
    (credential : Credential) (revision : String) (r : Run) :
    Tracks Run.world R (storedAuth env baseUrl credential (some revision)) r
      (fun auth r' => r.Same r' ∧
        ∃ k, auth = ⟨revision, baseUrl, credential, isoformat (env.wall k)⟩) E := by
  change Tracks Run.world R (wallNow env >>= fun now =>
    pure (StoredAuth.mk revision baseUrl credential (isoformat now))) r _ _
  refine (tracks_wallNow env r).evaluated.bind fun now _ _ h => Tracks.pure ⟨h.1, r.cursor.wall, ?_⟩
  rw [← Outcome.ok.inj h.2]

/-- An atomic write between two storage operations replaces the file or leaves it. -/
lemma tracks_write (env : Env) {before after : String}
    (replace : World → Option Datetime → World) {w : World}
    (hw : replace r.world (r.lastReading env) = w) (hR : R r.world w) :
    Tracks Run.world R
      (do trigger env before; writeAtomicJson env replace; trigger env after) r
      (fun _ => r.Replaced w) (fun _ => r.MaybeReplaced w) := by
  refine tracks_trigger_then (fun r₁ h₁ => ?_) fun _ _ h => h.maybe
  have hw₁ : replace r₁.world (r₁.lastReading env) = w := by
    rw [h₁.world, show r₁.lastReading env = r.lastReading env by simp [Run.lastReading, h₁.now],
      hw]
  refine ((tracks_writeAtomicJson env hw₁ (h₁.world ▸ hR)).weaken (fun _ _ h => h₁.replaced h)
    (fun _ _ h => h₁.maybeReplaced h)).bind fun _ r₂ _ h₂ => ?_
  exact (tracks_trigger env after r₂).weaken (fun _ _ h => h₂.same h) fun _ _ h => h₂.maybe.same h

/-- Writing the credential. -/
lemma tracks_writeAuthFile {env : Env} {auth : StoredAuth} {cause : WriteCause}
    (hR : R r.world (r.world.setCredential auth cause)) :
    Tracks Run.world R (writeAuthFile env auth cause) r
      (fun _ => r.Replaced (r.world.setCredential auth cause))
      (fun _ => r.MaybeReplaced (r.world.setCredential auth cause)) :=
  tracks_write env _ rfl hR

/-- Writing the journal. -/
lemma tracks_writeJournal (env : Env) {state : JournalState} {enqueued : Bool}
    {attempt : RotationAttempt}
    (hR : R r.world (r.world.setJournal state enqueued attempt (r.lastReading env))) :
    Tracks Run.world R (writeJournal env state enqueued attempt) r
      (fun _ => r.Replaced (r.world.setJournal state enqueued attempt (r.lastReading env)))
      (fun _ => r.MaybeReplaced
        (r.world.setJournal state enqueued attempt (r.lastReading env))) :=
  tracks_write env _ rfl hR

/-- Unlinking removes the file or leaves it. -/
lemma tracks_unlinkFile (env : Env) (file : ReadSite) (remove : World → World)
    (habsent : r.world.file file = none → remove r.world = r.world)
    (hR : R r.world (remove r.world)) :
    Tracks Run.world R (unlinkFile env file remove) r (fun _ => r.Replaced (remove r.world))
      (fun _ => r.MaybeReplaced (remove r.world)) := by
  refine tracks_trigger_then (fun r₁ h₁ => ?_) fun _ _ h => h.maybe
  refine (Tracks.state (Q := fun s r' => s = r₁ ∧ r' = r₁) ⟨rfl, rfl⟩).bind ?_
  rintro _ r₂ - ⟨rfl, rfl⟩
  rcases hfile : r₂.world.file file with _ | text
  · refine Tracks.pure ⟨?_, h₁.now, h₁.journalReads⟩
    rw [habsent (h₁.world ▸ hfile), h₁.world]
  · refine (Tracks.step (Q := fun _ => r.Replaced (remove r.world)) ?_ ?_).bind
      fun _ r₃ _ h₃ => ?_
    · change R r₂.world (remove r₂.world)
      rw [h₁.world]; exact hR
    · exact ⟨by rw [h₁.world], h₁.now, h₁.journalReads⟩
    · exact ((tracks_fsyncDirectory env r₃).weaken (fun _ _ h => h₃.same h)
        (fun _ _ h => h₃.maybe.same h)).bind fun _ _ _ h => Tracks.pure h

/-- Deleting the journal. -/
lemma tracks_deleteJournal {env : Env} (hR : R r.world r.world.removeJournal) :
    Tracks Run.world R (deleteJournal env) r (fun _ => r.Replaced r.world.removeJournal)
      (fun _ => r.MaybeReplaced r.world.removeJournal) := by
  refine tracks_trigger_then (fun r₁ h₁ => ?_) fun _ _ h => h.maybe
  have habsent : r₁.world.file .journal = none → r₁.world.removeJournal = r₁.world := by
    intro h
    change r₁.world.journal = none at h
    rw [World.removeJournal, ← h]
  refine ((tracks_unlinkFile env .journal World.removeJournal habsent ?_).weaken
    (P := fun _ => r.Replaced r.world.removeJournal)
    (F := fun _ => r.MaybeReplaced r.world.removeJournal) ?_ ?_).bind fun there r₂ _ h₂ => ?_
  · rw [h₁.world]; exact hR
  · intro _ _ h; rw [h₁.world] at h; exact h₁.replaced h
  · intro _ _ h; rw [h₁.world] at h; exact h₁.maybeReplaced h
  · cases there with
    | true =>
      rw [if_pos rfl]
      exact (tracks_trigger env _ r₂).weaken (fun _ _ h => h₂.same h) fun _ _ h =>
        h₂.maybe.same h
    | false => exact Tracks.pure h₂

/-! ### Outbox transactions -/

/-- The records of a load result are what the outbox holds. -/
lemma outboxHolds_of_records {w : World} {loaded : OutcomeOutboxLoadResult}
    {records : List OutcomeOutboxRecord}
    (hloaded : ∀ records, loaded = .loaded records → w.OutboxHolds records)
    (habsent : loaded = .absent → w.OutboxHolds [])
    (h : outboxRecordsOrRaise loaded = .ok records) : w.OutboxHolds records := by
  cases loaded with
  | absent => cases h; exact habsent rfl
  | loaded records' => cases h; exact hloaded _ rfl
  | corrupt detail => cases h
  | ioFailure operation error => cases h

/-- After enqueueing, the outbox holds the key. -/
lemma tracks_enqueueOutcome {env : Env} {record : OutcomeOutboxRecord} (hvalid : record.Valid) :
    Tracks Run.world OutboxStep (enqueueOutcome env record) r
      (fun _ r' => r.Quiet r' ∧ r'.world.InOutbox record.eventKey) (fun _ => r.Quiet) := by
  refine ((tracks_loadOutbox env r).weaken (fun _ _ h => h) fun _ _ h => h.quiet).bind
    fun loaded r₁ _ h₁ => ?_
  obtain ⟨hsame, hloaded, habsent⟩ := h₁
  refine (Tracks.ofExcept (Q := fun records r' => r' = r₁ ∧ r.world.OutboxHolds records)
    (fun records h => ⟨rfl, outboxHolds_of_records hloaded habsent h⟩)
    fun _ _ => hsame.quiet).bind ?_
  rintro records r₂ - ⟨rfl, hrecords⟩
  split_ifs with hthere
  · obtain ⟨existing, hmem, hkey⟩ := List.any_eq_true.1 hthere
    refine Tracks.pure ⟨hsame.quiet, records, hsame.world ▸ hrecords, existing, hmem, ?_⟩
    simpa using hkey
  · have hfresh : ∀ existing ∈ records, existing.eventKey ≠ record.eventKey := by
      intro existing hmem heq
      exact hthere (List.any_eq_true.2 ⟨existing, hmem, by simp [heq]⟩)
    refine (tracks_write env (fun w _ => w.setOutbox (records ++ [record])) rfl ?_).weaken
      (fun _ r' h => ⟨hsame.quiet.trans h.quiet, ?_⟩) fun _ _ h => hsame.quiet.trans h.quiet
    · exact .enqueue (hsame.world ▸ hrecords) hvalid hfresh
    · rw [h.world]
      exact ⟨_, World.outboxHolds_setOutbox (hrecords.consistent.append hvalid hfresh), record,
        List.mem_append_right _ (List.mem_singleton.2 rfl), rfl⟩

/-- Acknowledging removes an accepted key only. -/
lemma tracks_acknowledgeOutcome {env : Env} {eventKey : String}
    (haccepted : eventKey ∈ r.world.accepted) :
    Tracks Run.world OutboxStep (acknowledgeOutcome env eventKey) r (fun _ => r.Quiet)
      (fun _ => r.Quiet) := by
  refine ((tracks_loadOutbox env r).weaken (fun _ _ h => h) fun _ _ h => h.quiet).bind
    fun loaded r₁ _ h₁ => ?_
  obtain ⟨hsame, hloaded, habsent⟩ := h₁
  refine (Tracks.ofExcept (Q := fun records r' => r' = r₁ ∧ r.world.OutboxHolds records)
    (fun records h => ⟨rfl, outboxHolds_of_records hloaded habsent h⟩)
    fun _ _ => hsame.quiet).bind ?_
  rintro records r₂ - ⟨rfl, hrecords⟩
  rw [← hsame.world] at hrecords haccepted
  dsimp only
  split_ifs with hlen
  · exact Tracks.pure hsame.quiet
  · refine tracks_trigger_then (fun r₃ h₃ => ?_) fun _ _ h => hsame.quiet.trans h.quiet
    have h₃q := hsame.quiet.trans h₃.quiet
    rw [← h₃.world] at hrecords haccepted
    split
    · next hnil =>
      have hlast : ∀ record ∈ records, record.eventKey = eventKey := by
        intro record hmem
        by_contra hne
        have : record ∈ records.filter fun record => record.eventKey ≠ eventKey :=
          List.mem_filter.2 ⟨hmem, by simpa using hne⟩
        rw [hnil] at this
        cases this
      refine tracks_trigger_then (fun r₄ h₄ => ?_) fun _ _ h => h₃q.trans h.quiet
      have h₄q := h₃q.trans h₄.quiet
      rw [← h₄.world] at hrecords haccepted
      refine ((tracks_unlinkFile env .outbox World.removeOutbox ?_ ?_).weaken
        (P := fun _ => r.Quiet) (fun _ _ h => h₄q.trans h.quiet)
          fun _ _ h => h₄q.trans h.quiet).bind fun there r₅ _ h₅ => ?_
      · intro h
        change r₄.world.outbox = none at h
        rw [World.removeOutbox, ← h]
      · exact .remove hrecords haccepted hlast
      · cases there with
        | true =>
          rw [if_pos rfl]
          exact tracks_trigger_then (fun r₆ h₆ => (tracks_trigger env _ r₆).weaken
            (fun _ _ h => (h₅.trans h₆.quiet).trans h.quiet)
            fun _ _ h => (h₅.trans h₆.quiet).trans h.quiet) fun _ _ h => h₅.trans h.quiet
        | false => exact Tracks.pure h₅
    · refine ((tracks_writeAtomicJson env rfl ?_).weaken (P := fun _ => r.Quiet)
        (fun _ _ h => h₃q.trans h.quiet) fun _ _ h => h₃q.trans h.quiet).bind
          fun _ r₄ _ h₄ => ?_
      · exact .acknowledge hrecords haccepted
      · exact (tracks_trigger env _ r₄).weaken (fun _ _ h => h₄.trans h.quiet)
          fun _ _ h => h₄.trans h.quiet

/-- The record that renews the cookie of the stored one. -/
structure Env.Renews (env : Env) (current : StoredAuth) (successor header : String)
    (auth : StoredAuth) : Prop where
  cookie : ∃ old, current.credential = .cookie old
  renewed : ∃ k, auth = ⟨successor, current.baseUrl, .cookie header, isoformat (env.wall k)⟩

lemma Env.Renews.revision {env : Env} {current auth : StoredAuth} {successor header : String}
    (h : env.Renews current successor header auth) : auth.revision = successor := by
  obtain ⟨k, rfl⟩ := h.renewed
  rfl

lemma Env.Renews.credential {env : Env} {current auth : StoredAuth} {successor header : String}
    (h : env.Renews current successor header auth) : auth.credential = .cookie header := by
  obtain ⟨k, rfl⟩ := h.renewed
  rfl

/-- A compare-and-swap renews the cookie of the stored revision, or writes nothing. -/
lemma tracks_casReplaceCookie_renews {env : Env} {source header successor : String}
    (hR : ∀ current auth, r.world.Holds current → current.revision = source →
      env.Renews current successor header auth →
      R r.world (r.world.setCredential auth (.projected source))) :
    Tracks Run.world R (casReplaceCookie env source header successor) r
      (fun result r' => match result with
        | .written auth => ∃ current, r.world.Holds current ∧ current.revision = source ∧
          env.Renews current successor header auth ∧
          r.Replaced (r.world.setCredential auth (.projected source)) r'
        | .superseded _ => r.Same r')
      (fun _ r' => r.Same r' ∨ ∃ current auth, r.world.Holds current ∧
        current.revision = source ∧ env.Renews current successor header auth ∧
        r.MaybeReplaced (r.world.setCredential auth (.projected source)) r') := by
  refine ((tracks_loadAuth env r).weaken (fun _ _ h => h) fun _ _ h => .inl h).bind
    fun loaded r₁ _ h₁ => ?_
  obtain ⟨hsame, hloaded⟩ := h₁
  cases loaded with
  | loaded current =>
    have hcurrent := hloaded current rfl
    dsimp only
    split_ifs with hne
    · exact Tracks.pure hsame
    · rcases hcred : current.credential with old | _
      · have hsource : current.revision = source := not_not.1 hne
        refine (tracks_storedAuth env current.baseUrl (.cookie header) successor r₁).bind
          fun auth r₂ _ h₂ => ?_
        obtain ⟨hsame₂, hauth⟩ := h₂
        have hrenews : env.Renews current successor header auth := ⟨⟨old, hcred⟩, hauth⟩
        have hsame₂ := hsame.trans hsame₂
        refine ((tracks_writeAuthFile ?_).weaken
          (P := fun _ => r.Replaced (r.world.setCredential auth (.projected source))) ?_
          ?_).bind ?_
        · rw [hsame₂.world]
          exact hR current auth hcurrent hsource hrenews
        · intro _ r' h
          rw [hsame₂.world] at h
          exact hsame₂.replaced h
        · intro _ r' h
          rw [hsame₂.world] at h
          exact .inr ⟨current, auth, hcurrent, hsource, hrenews, hsame₂.maybeReplaced h⟩
        · intro _ r₃ _ h₃
          exact Tracks.pure ⟨current, hcurrent, hsource, hrenews, h₃⟩
      · exact Tracks.pure hsame
  | _ => exact Tracks.pure hsame

/-- A compare-and-swap replaces the cookie of the stored revision, or writes nothing. -/
lemma tracks_casReplaceCookie {env : Env} {source header successor : String}
    (hR : ∀ current auth, r.world.Holds current → current.revision = source →
      auth.revision = successor → auth.credential = .cookie header →
      R r.world (r.world.setCredential auth (.projected source))) :
    Tracks Run.world R (casReplaceCookie env source header successor) r
      (fun result r' => match result with
        | .written auth => auth.revision = successor ∧ auth.credential = .cookie header ∧
          (∃ current, r.world.Holds current ∧ current.revision = source) ∧
          r.Replaced (r.world.setCredential auth (.projected source)) r'
        | .superseded _ => r.Same r')
      (fun _ r' => r.Same r' ∨ ∃ current auth, r.world.Holds current ∧
        current.revision = source ∧ auth.revision = successor ∧
        auth.credential = .cookie header ∧
        r.MaybeReplaced (r.world.setCredential auth (.projected source)) r') := by
  refine (tracks_casReplaceCookie_renews fun current auth hheld hsource hrenews =>
    hR current auth hheld hsource hrenews.revision hrenews.credential).weaken ?_ ?_
  · rintro (auth | _) r' h
    · obtain ⟨current, hheld, hsource, hrenews, hreplaced⟩ := h
      exact ⟨hrenews.revision, hrenews.credential, ⟨current, hheld, hsource⟩, hreplaced⟩
    · exact h
  · rintro _ r' (hsame | ⟨current, auth, hheld, hsource, hrenews, hreplaced⟩)
    · exact .inl hsame
    · exact .inr ⟨current, auth, hheld, hsource, hrenews.revision, hrenews.credential, hreplaced⟩

end EnjiGuard.AuthSession
