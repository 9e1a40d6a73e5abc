import EnjiGuard.AuthSession.Coordinator.Committing
import EnjiGuard.Foundation.Coupling

/-!
# Two runs of a commit

Two runs that find the same files and have used their environments alike go on alike. They may be
at different readings of the clock; a part that reads it needs the clocks to agree from there on.
-/

namespace EnjiGuard.AuthSession

open Foundation Action

/-- The same environment with another clock and without an event sink. -/
def Env.plain (env : Env) (now : Nat → Datetime) : Env :=
  { env with eventSink := false, now := now }

/-- Two runs agree on the files and on what they have used, and `K` relates their clock readings. -/
structure Run.Twins (K : Nat → Nat → Prop) (r r' : Run) : Prop where
  credential : r.world.credential = r'.world.credential
  journal : r.world.journal = r'.world.journal
  outbox : r.world.outbox = r'.world.outbox
  faults : r.cursor.faults = r'.cursor.faults
  credentialReads : r.cursor.credentialReads = r'.cursor.credentialReads
  journalReads : r.cursor.journalReads = r'.cursor.journalReads
  outboxReads : r.cursor.outboxReads = r'.cursor.outboxReads
  wall : r.cursor.wall = r'.cursor.wall
  deliveries : r.cursor.deliveries = r'.cursor.deliveries
  minted : r.cursor.minted = r'.cursor.minted
  clock : K r.cursor.now r'.cursor.now

lemma Run.Twins.refl {K : Nat → Nat → Prop} {r : Run} (h : K r.cursor.now r.cursor.now) :
    Run.Twins K r r := ⟨rfl, rfl, rfl, rfl, rfl, rfl, rfl, rfl, rfl, rfl, h⟩

/-- A change of the files that does the same to the same files. -/
def Uniform (f g : World → World) : Prop :=
  ∀ w w' : World, w.credential = w'.credential → w.journal = w'.journal → w.outbox = w'.outbox →
    (f w).credential = (g w').credential ∧ (f w).journal = (g w').journal ∧
      (f w).outbox = (g w').outbox

lemma uniform_removeJournal : Uniform World.removeJournal World.removeJournal :=
  fun _ _ hcredential _ houtbox => ⟨hcredential, rfl, houtbox⟩

lemma uniform_removeOutbox : Uniform World.removeOutbox World.removeOutbox :=
  fun _ _ hcredential hjournal _ => ⟨hcredential, hjournal, rfl⟩

lemma uniform_accept (eventKey : String) :
    Uniform (fun w => w.accept eventKey) fun w => w.accept eventKey :=
  fun _ _ hcredential hjournal houtbox => ⟨hcredential, hjournal, houtbox⟩

section

variable {α : Type} {env : Env} {now : Nat → Datetime} {K : Nat → Nat → Prop}
  {X : PyError → PyError → Prop} {r r' : Run}

/-! ### Primitives -/

lemma couples_trigger (hX : ∀ e, X e e) (operation : String) (h : Run.Twins K r r') :
    Couples (Run.Twins K) X (trigger env operation) (trigger (env.plain now) operation) r r' := by
  have hfault : env.fault r.cursor.faults operation = env.fault r'.cursor.faults operation := by
    rw [h.faults]
  have hnext : Run.Twins K { r with cursor := { r.cursor with faults := r.cursor.faults + 1 } }
      { r' with cursor := { r'.cursor with faults := r'.cursor.faults + 1 } } :=
    { h with faults := by rw [h.faults] }
  unfold Couples
  simp only [trigger, Env.plain]
  rw [← hfault]
  rcases env.fault r.cursor.faults operation with _ | detail | _
  · exact .returned () hnext
  · exact .raised (hX _) hnext
  · exact .crashed hnext

lemma couples_change {f g : World → World} (hfg : Uniform f g) (h : Run.Twins K r r') :
    Couples (Run.Twins K) X (change f) (change g) r r' := by
  obtain ⟨hcredential, hjournal, houtbox⟩ :=
    hfg r.world r'.world h.credential h.journal h.outbox
  exact Couples.update
    { h with credential := hcredential, journal := hjournal, outbox := houtbox }

/-- Storage operations that come first. -/
lemma couples_trigger_then {p q : Auth α} {operation : String} (hX : ∀ e, X e e)
    (h : Run.Twins K r r')
    (hpq : ∀ r r', Run.Twins K r r' → Couples (Run.Twins K) X p q r r') :
    Couples (Run.Twins K) X (trigger env operation >>= fun _ => p)
      (trigger (env.plain now) operation >>= fun _ => q) r r' :=
  (couples_trigger hX operation h).bind fun _ _ _ _ h' => hpq _ _ h'

lemma couples_fsyncDirectory (hX : ∀ e, X e e) (h : Run.Twins K r r') :
    Couples (Run.Twins K) X (fsyncDirectory env) (fsyncDirectory (env.plain now)) r r' := by
  refine couples_trigger_then hX h fun r₁ r₁' h₁ => ?_
  exact (couples_trigger hX _ h₁).ensure fun r₂ r₂' h₂ => couples_trigger hX _ h₂

lemma couples_writeAtomicJson {f g : World → Option Datetime → World} (hX : ∀ e, X e e)
    (hfg : ∀ x y, Uniform (fun w => f w x) fun w => g w y) (h : Run.Twins K r r') :
    Couples (Run.Twins K) X (writeAtomicJson env f) (writeAtomicJson (env.plain now) g) r r' := by
  refine couples_trigger_then hX h fun r₁ r₁' h₁ => ?_
  refine couples_trigger_then hX h₁ fun r₂ r₂' h₂ => ?_
  refine couples_trigger_then hX h₂ fun r₃ r₃' h₃ => ?_
  refine Couples.tryCatch (X := Eq) ?_ ?_
  · refine couples_trigger_then (fun _ => rfl) h₃ fun r₄ r₄' h₄ => ?_
    refine couples_trigger_then (fun _ => rfl) h₄ fun r₅ r₅' h₅ => ?_
    refine couples_trigger_then (fun _ => rfl) h₅ fun r₆ r₆' h₆ => ?_
    refine couples_trigger_then (fun _ => rfl) h₆ fun r₇ r₇' h₇ => ?_
    refine Couples.bind (Couples.update ?_) fun _ r₈ r₈' _ h₈ => ?_
    · obtain ⟨hcredential, hjournal, houtbox⟩ := hfg (r₇.lastReading env)
        (r₇'.lastReading (env.plain now)) r₇.world r₇'.world h₇.credential h₇.journal h₇.outbox
      exact { h₇ with credential := hcredential, journal := hjournal, outbox := houtbox }
    · exact couples_trigger_then (fun _ => rfl) h₈ fun r₉ r₉' h₉ =>
        couples_fsyncDirectory (fun _ => rfl) h₉
  · rintro original _ r₄ r₄' rfl h₄
    cases original with
    | osError detail =>
      refine Couples.bind (Couples.tryCatch (X := Eq) (couples_trigger (fun _ => rfl) _ h₄) ?_)
        fun _ r₅ r₅' _ h₅ => Couples.raise (hX _) h₅
      rintro cleanup _ r₅ r₅' rfl h₅
      cases cleanup with
      | osError cleanupDetail => exact Couples.raise (hX _) h₅
      | _ => exact Couples.raise (hX _) h₅
    | _ => exact Couples.raise (hX _) h₄

/-- What a storage operation that goes through leaves. -/
lemma eq_of_trigger {operation : String} {u : Unit} (h : trigger env operation r = (.ok u, r')) :
    r' = { r with cursor := { r.cursor with faults := r.cursor.faults + 1 } } := by
  rcases hfault : env.fault r.cursor.faults operation with _ | detail | _ <;>
    simp only [trigger, hfault] at h <;> cases h
  rfl

/-- A section under the lock, which may end further apart than it starts. -/
lemma couples_locked {p q : Auth α} {R : Run → Run → Prop} (hX : ∀ e, X e e)
    (hR : ∀ r r', Run.Twins K r r' → R r r')
    (hunlock : ∀ r r', R r r' →
      Couples R X (trigger env "unlock") (trigger (env.plain now) "unlock") r r')
    (h : Run.Twins K r r')
    (hpq : ∀ r₁', Run.Twins K { r with cursor := { r.cursor with faults := r.cursor.faults + 2 } }
      r₁' → Couples R X p q { r with cursor := { r.cursor with faults := r.cursor.faults + 2 } }
        r₁') :
    Couples R X (withAuthFileLock env p) (withAuthFileLock (env.plain now) q) r r' := by
  refine (couples_trigger hX _ h).seq hR fun _ r₁ r₁' hrun₁ h₁ => ?_
  refine (couples_trigger hX _ h₁).seq hR fun _ r₂ r₂' hrun₂ h₂ => ?_
  rw [eq_of_trigger hrun₁] at hrun₂
  rw [eq_of_trigger hrun₂] at h₂ ⊢
  exact (hpq _ h₂).ensure hunlock

lemma couples_withAuthFileLock {p q : Auth α} (hX : ∀ e, X e e) (h : Run.Twins K r r')
    (hpq : ∀ r r', Run.Twins K r r' → Couples (Run.Twins K) X p q r r') :
    Couples (Run.Twins K) X (withAuthFileLock env p) (withAuthFileLock (env.plain now) q) r r' :=
  couples_locked hX (fun _ _ h => h) (fun _ _ h => couples_trigger hX _ h) h fun _ h => hpq _ _ h

/-- A reading of the clock at which the clocks agree. -/
lemma couples_nowFn (h : Run.Twins K r r')
    (hagree : env.now r.cursor.now = now r'.cursor.now)
    (hnext : K (r.cursor.now + 1) (r'.cursor.now + 1)) :
    Couples (Run.Twins K) X (nowFn env) (nowFn (env.plain now)) r r' := by
  unfold Couples
  simp only [nowFn, Env.plain]
  rw [← hagree]
  exact .returned _ { h with clock := hnext }

lemma couples_wallNow (h : Run.Twins K r r') :
    Couples (Run.Twins K) X (wallNow env) (wallNow (env.plain now)) r r' := by
  unfold Couples
  simp only [wallNow, Env.plain]
  rw [← h.wall]
  exact .returned _ { h with wall := by rw [h.wall] }

lemma couples_mintRevision (h : Run.Twins K r r') :
    Couples (Run.Twins K) X (mintRevision env) (mintRevision (env.plain now)) r r' := by
  unfold Couples
  simp only [mintRevision, Env.plain]
  rw [← h.minted]
  exact .returned _ { h with minted := by rw [h.minted] }

lemma Run.Twins.file (h : Run.Twins K r r') (site : ReadSite) :
    r.world.file site = r'.world.file site := by
  cases site
  · exact h.credential
  · exact h.journal
  · exact h.outbox
  · exact h.journal

lemma couples_readText (file : ReadSite) (hfile : file ≠ .observation) (h : Run.Twins K r r') :
    Couples (Run.Twins K) X (readText env file) (readText (env.plain now) file) r r' := by
  have hreads : r.cursor.reads file = r'.cursor.reads file := by
    cases file
    · exact h.credentialReads
    · exact h.journalReads
    · exact h.outboxReads
    · exact absurd rfl hfile
  have hnext : Run.Twins K { r with cursor := r.cursor.countRead file }
      { r' with cursor := r'.cursor.countRead file } := by
    cases file
    · exact { h with credentialReads := congrArg (· + 1) h.credentialReads }
    · exact { h with journalReads := congrArg (· + 1) h.journalReads }
    · exact { h with outboxReads := congrArg (· + 1) h.outboxReads }
    · exact absurd rfl hfile
  unfold Couples
  simp only [readText, Env.plain]
  rw [← hreads, h.file file]
  rcases env.readFault file (r.cursor.reads file) with _ | detail
  · exact .returned _ hnext
  · exact .returned _ hnext

/-! ### The store -/

lemma couples_loadAuth (hX : ∀ e, X e e) (h : Run.Twins K r r') :
    Couples (Run.Twins K) X (loadAuth env) (loadAuth (env.plain now)) r r' := by
  refine (couples_readText .credential (by simp) h).bind fun text r₁ r₁' _ h₁ => ?_
  rcases text with detail | text
  · exact Couples.pure h₁
  · exact (couples_wallNow h₁).bind fun _ r₂ r₂' _ h₂ => Couples.ofExcept hX h₂

lemma couples_loadJournal (hX : ∀ e, X e e) (h : Run.Twins K r r') :
    Couples (Run.Twins K) X (loadJournal env) (loadJournal (env.plain now)) r r' := by
  refine (couples_readText .journal (by simp) h).bind fun text r₁ r₁' _ h₁ => ?_
  rcases text with detail | text
  · exact Couples.pure h₁
  · exact Couples.ofExcept hX h₁

lemma couples_loadOutbox (hX : ∀ e, X e e) (h : Run.Twins K r r') :
    Couples (Run.Twins K) X (loadOutbox env) (loadOutbox (env.plain now)) r r' := by
  refine (couples_readText .outbox (by simp) h).bind fun text r₁ r₁' _ h₁ => ?_
  rcases text with detail | text
  · exact Couples.pure h₁
  · exact Couples.ofExcept hX h₁

/-- A credential record with a given revision. -/
lemma couples_storedAuth {baseUrl revision : String} {credential : Credential}
    (h : Run.Twins K r r') :
    Couples (Run.Twins K) X (storedAuth env baseUrl credential (some revision))
      (storedAuth (env.plain now) baseUrl credential (some revision)) r r' := by
  refine Couples.bind (Couples.pure h) fun _ r₁ r₁' _ h₁ => ?_
  exact (couples_wallNow h₁).bind fun _ r₂ r₂' _ h₂ => Couples.pure h₂

/-- Writing a file between two named operations. -/
lemma couples_write {before after : String} {f g : World → Option Datetime → World}
    (hX : ∀ e, X e e) (hfg : ∀ x y, Uniform (fun w => f w x) fun w => g w y)
    (h : Run.Twins K r r') :
    Couples (Run.Twins K) X
      (do trigger env before; writeAtomicJson env f; trigger env after)
      (do
        trigger (env.plain now) before
        writeAtomicJson (env.plain now) g
        trigger (env.plain now) after) r r' :=
  couples_trigger_then hX h fun _ _ h₁ => (couples_writeAtomicJson hX hfg h₁).bind
    fun _ _ _ _ h₂ => couples_trigger hX _ h₂

lemma couples_writeAuthFile {auth : StoredAuth} {cause : WriteCause} (hX : ∀ e, X e e)
    (h : Run.Twins K r r') :
    Couples (Run.Twins K) X (writeAuthFile env auth cause)
      (writeAuthFile (env.plain now) auth cause) r r' :=
  couples_write hX (fun _ _ _ _ _ hjournal houtbox => ⟨rfl, hjournal, houtbox⟩) h

lemma couples_writeJournal {state : JournalState} {enqueued : Bool} {attempt : RotationAttempt}
    (hX : ∀ e, X e e) (h : Run.Twins K r r') :
    Couples (Run.Twins K) X (writeJournal env state enqueued attempt)
      (writeJournal (env.plain now) state enqueued attempt) r r' :=
  couples_write hX (fun _ _ _ _ hcredential _ houtbox => ⟨hcredential, rfl, houtbox⟩) h

lemma couples_unlinkFile {file : ReadSite} {remove : World → World} (hX : ∀ e, X e e)
    (hremove : Uniform remove remove) (h : Run.Twins K r r') :
    Couples (Run.Twins K) X (unlinkFile env file remove) (unlinkFile (env.plain now) file remove)
      r r' := by
  refine couples_trigger_then hX h fun r₁ r₁' h₁ => ?_
  -- both runs find the same file
  have hfile := h₁.file file
  refine Couples.state ?_
  rw [← hfile]
  rcases r₁.world.file file with _ | text
  · exact Couples.pure h₁
  · refine (couples_change hremove h₁).bind fun _ r₂ r₂' _ h₂ => ?_
    exact (couples_fsyncDirectory hX h₂).bind fun _ r₃ r₃' _ h₃ => Couples.pure h₃

lemma couples_deleteJournal (hX : ∀ e, X e e) (h : Run.Twins K r r') :
    Couples (Run.Twins K) X (deleteJournal env) (deleteJournal (env.plain now)) r r' := by
  refine couples_trigger_then hX h fun r₁ r₁' h₁ => ?_
  refine (couples_unlinkFile hX uniform_removeJournal h₁).bind fun there r₂ r₂' _ h₂ => ?_
  cases there with
  | true => exact couples_trigger hX _ h₂
  | false => exact Couples.pure h₂

lemma couples_setOutbox {records : List OutcomeOutboxRecord} (hX : ∀ e, X e e)
    (h : Run.Twins K r r') :
    Couples (Run.Twins K) X (writeAtomicJson env fun w _ => w.setOutbox records)
      (writeAtomicJson (env.plain now) fun w _ => w.setOutbox records) r r' :=
  couples_writeAtomicJson hX
    (fun _ _ _ _ hcredential hjournal _ => ⟨hcredential, hjournal, rfl⟩) h

lemma couples_enqueueOutcome {record : OutcomeOutboxRecord} (hX : ∀ e, X e e)
    (h : Run.Twins K r r') :
    Couples (Run.Twins K) X (enqueueOutcome env record) (enqueueOutcome (env.plain now) record)
      r r' := by
  refine (couples_loadOutbox hX h).bind fun loaded r₁ r₁' _ h₁ => ?_
  refine Couples.bind (Couples.ofExcept hX h₁) fun records r₂ r₂' _ h₂ => ?_
  split_ifs
  · exact Couples.pure h₂
  · exact couples_trigger_then hX h₂ fun r₃ r₃' h₃ =>
      (couples_setOutbox hX h₃).bind fun _ r₄ r₄' _ h₄ => couples_trigger hX _ h₄

lemma couples_acknowledgeOutcome {eventKey : String} (hX : ∀ e, X e e) (h : Run.Twins K r r') :
    Couples (Run.Twins K) X (acknowledgeOutcome env eventKey)
      (acknowledgeOutcome (env.plain now) eventKey) r r' := by
  refine (couples_loadOutbox hX h).bind fun loaded r₁ r₁' _ h₁ => ?_
  refine Couples.bind (Couples.ofExcept hX h₁) fun records r₂ r₂' _ h₂ => ?_
  dsimp only
  split_ifs
  · exact Couples.pure h₂
  · refine couples_trigger_then hX h₂ fun r₃ r₃' h₃ => ?_
    generalize records.filter (fun record => record.eventKey ≠ eventKey) = retained
    cases retained with
    | nil =>
      refine couples_trigger_then hX h₃ fun r₄ r₄' h₄ => ?_
      refine (couples_unlinkFile hX uniform_removeOutbox h₄).bind fun there r₅ r₅' _ h₅ => ?_
      cases there with
      | true => exact couples_trigger_then hX h₅ fun r₆ r₆' h₆ => couples_trigger hX _ h₆
      | false => exact Couples.pure h₅
    | cons record retained =>
      exact (couples_setOutbox hX h₃).bind fun _ r₄ r₄' _ h₄ => couples_trigger hX _ h₄

lemma couples_casReplaceCookie {source replacement successor : String} (hX : ∀ e, X e e)
    (h : Run.Twins K r r') :
    Couples (Run.Twins K) X (casReplaceCookie env source replacement successor)
      (casReplaceCookie (env.plain now) source replacement successor) r r' := by
  refine (couples_loadAuth hX h).bind fun loaded r₁ r₁' _ h₁ => ?_
  cases loaded with
  | loaded current =>
    dsimp only
    split_ifs
    · exact Couples.pure h₁
    · rcases current.credential with header | token
      · refine (couples_storedAuth h₁).bind fun written r₂ r₂' _ h₂ => ?_
        exact (couples_writeAuthFile hX h₂).bind fun _ r₃ r₃' _ h₃ => Couples.pure h₃
      · exact Couples.pure h₁
  | _ => exact Couples.pure h₁

/-! ### Outcomes -/

lemma couples_deliverOutboxRecord (record : OutcomeOutboxRecord) (hX : ∀ e, X e e)
    (h : Run.Twins K r r') :
    Couples (Run.Twins K) X (deliverOutboxRecord env record)
      (deliverOutboxRecord (env.plain now) record) r r' := by
  rcases hsink : env.sink with _ | reply <;> simp only [deliverOutboxRecord, Env.plain, hsink]
  · exact Couples.pure h
  · refine Couples.bind (X := X) (R := Run.Twins K) ?_ fun answer r₁ r₁' _ h₁ => ?_
    · unfold Couples
      simp only [nextReply]
      rw [← h.deliveries]
      exact .returned _ { h with deliveries := by rw [h.deliveries] }
    · rcases answer with ⟨_ | _⟩ | ⟨_ | _ | _ | typeName⟩
      case returned.true =>
        exact (couples_change (uniform_accept _) h₁).bind fun _ r₂ r₂' _ h₂ => Couples.pure h₂
      case raised.other => exact Couples.raise (hX _) h₁
      all_goals exact Couples.pure h₁

lemma couples_drainOutbox (hX : ∀ e, X e e) (h : Run.Twins K r r') :
    Couples (Run.Twins K) X (drainOutbox env) (drainOutbox (env.plain now)) r r' := by
  refine (couples_loadOutbox hX h).bind fun loaded r₁ r₁' _ h₁ => ?_
  cases loaded with
  | absent => exact Couples.pure h₁
  | corrupt detail => exact Couples.raise (hX _) h₁
  | ioFailure operation error => exact Couples.raise (hX _) h₁
  | loaded records =>
    refine Couples.each h₁ fun record r₂ r₂' h₂ => ?_
    refine (couples_deliverOutboxRecord record hX h₂).bind fun accepted r₃ r₃' _ h₃ => ?_
    cases accepted with
    | true => exact couples_acknowledgeOutcome hX h₃
    | false => exact Couples.pure h₃

lemma couples_deleteDelivered {t : TerminalState} (hX : ∀ e, X e e) (h : Run.Twins K r r') :
    Couples (Run.Twins K) X (deleteDelivered env t) (deleteDelivered (env.plain now) t) r r' := by
  cases t with
  | rotated source replacement successor =>
    refine Couples.bind (X := X) (R := Run.Twins K) ?_ fun there r₁ r₁' _ h₁ => ?_
    · refine (couples_loadOutbox hX h).bind fun loaded r₁ r₁' _ h₁ => ?_
      cases loaded with
      | absent => exact Couples.pure h₁
      | corrupt detail => exact Couples.raise (hX _) h₁
      | ioFailure operation error => exact Couples.raise (hX _) h₁
      | loaded records => exact Couples.pure h₁
    · cases there with
      | true => exact Couples.pure h₁
      | false => exact couples_deleteJournal hX h₁
  | rejected => exact Couples.pure h
  | outcomeUnknown => exact Couples.pure h

lemma couples_recordTerminalOutcome {t : TerminalState} {attempt : RotationAttempt}
    {enqueued : Bool} (hX : ∀ e, X e e) (h : Run.Twins K r r') :
    Couples (Run.Twins K) X (recordTerminalOutcome env t attempt enqueued)
      (recordTerminalOutcome (env.plain now) t attempt enqueued) r r' := by
  cases enqueued with
  | true =>
    exact (couples_drainOutbox hX h).bind fun _ r₁ r₁' _ h₁ => couples_deleteDelivered hX h₁
  | false =>
    refine (couples_enqueueOutcome hX h).bind fun _ r₁ r₁' _ h₁ => ?_
    refine (couples_writeJournal hX h₁).bind fun _ r₂ r₂' _ h₂ => ?_
    exact (couples_drainOutbox hX h₂).bind fun _ r₃ r₃' _ h₃ => couples_deleteDelivered hX h₃

/-! ### Committing -/

lemma couples_currentOrRaise (hX : ∀ e, X e e) (h : Run.Twins K r r') :
    Couples (Run.Twins K) X (currentOrRaise env) (currentOrRaise (env.plain now)) r r' :=
  (couples_loadAuth hX h).bind fun _ _ _ _ h₁ => Couples.ofExcept hX h₁

lemma couples_isSuperseded {source : String} (hX : ∀ e, X e e) (h : Run.Twins K r r') :
    Couples (Run.Twins K) X (isSuperseded env source) (isSuperseded (env.plain now) source) r r' :=
  (couples_loadAuth hX h).bind fun _ _ _ _ h₁ => Couples.pure h₁

lemma couples_attemptForSource {source : String} (hX : ∀ e, X e e) (h : Run.Twins K r r') :
    Couples (Run.Twins K) X (attemptForSource env source) (attemptForSource (env.plain now) source)
      r r' :=
  (couples_loadJournal hX h).bind fun _ _ _ _ h₁ => Couples.pure h₁

lemma couples_commitSuccessor {source cookieHeader successor : String} (hX : ∀ e, X e e)
    (h : Run.Twins K r r') :
    Couples (Run.Twins K) X (commitSuccessor env source cookieHeader successor)
      (commitSuccessor (env.plain now) source cookieHeader successor) r r' := by
  refine couples_withAuthFileLock hX h fun r₁ r₁' h₁ => ?_
  refine (couples_isSuperseded hX h₁).bind fun superseded r₂ r₂' _ h₂ => ?_
  cases superseded with
  | true => exact couples_currentOrRaise hX h₂
  | false =>
    refine (couples_attemptForSource hX h₂).bind fun found r₃ r₃' _ h₃ => ?_
    refine (couples_writeJournal hX h₃).bind fun _ r₄ r₄' _ h₄ => ?_
    refine (couples_casReplaceCookie hX h₄).bind fun result r₅ r₅' _ h₅ => ?_
    cases result with
    | written auth =>
      exact (couples_recordTerminalOutcome hX h₅).bind fun _ _ _ _ h₆ => Couples.pure h₆
    | superseded current => exact couples_currentOrRaise hX h₅

lemma couples_commitRejected {source reason : String} (hX : ∀ e, X e e) (h : Run.Twins K r r') :
    Couples (Run.Twins K) X (commitRejected env source reason)
      (commitRejected (env.plain now) source reason) r r' := by
  refine Couples.bind (couples_withAuthFileLock hX h fun r₁ r₁' h₁ => ?_)
    fun current r₁ r₁' _ h₁ => ?_
  · refine (couples_isSuperseded hX h₁).bind fun superseded r₂ r₂' _ h₂ => ?_
    cases superseded with
    | true => exact (couples_currentOrRaise hX h₂).bind fun _ _ _ _ h₃ => Couples.pure h₃
    | false =>
      refine (couples_attemptForSource hX h₂).bind fun found r₃ r₃' _ h₃ => ?_
      refine (couples_writeJournal hX h₃).bind fun _ r₄ r₄' _ h₄ => ?_
      exact (couples_recordTerminalOutcome hX h₄).bind fun _ _ _ _ h₅ => Couples.pure h₅
  · cases current with
    | none => exact Couples.raise (hX _) h₁
    | some current => exact Couples.pure h₁

/-- Clocks that agree from two readings on. -/
def Synchronous (env : Env) (now : Nat → Datetime) (K : Nat → Nat → Prop) : Prop :=
  ∀ n n', K n n' → env.now n = now n' ∧ K (n + 1) (n' + 1)

lemma couples_recoveryDeadline (hK : Synchronous env now K) (hX : ∀ e, X e e)
    (h : Run.Twins K r r') :
    Couples (Run.Twins K) X (recoveryDeadline env) (recoveryDeadline (env.plain now)) r r' :=
  (couples_nowFn h (hK _ _ h.clock).1 (hK _ _ h.clock).2).bind
    fun _ _ _ _ h₁ => Couples.ofExcept hX h₁

end

end EnjiGuard.AuthSession
