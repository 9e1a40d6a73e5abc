import EnjiGuard.AuthSession.Coordinator.Sections
import EnjiGuard.AuthSession.Store.Conclusions
import EnjiGuard.Foundation.Cutting

/-!
# Commits cut short

A section that is cut off before one of its storage operations has done what the whole section has
done by then. What a commit that is cut off has stored in the credential file the whole commit
stores too, and every such record is dated by a reading of the wall clock before it.
-/

namespace EnjiGuard.AuthSession

open Foundation Action

variable {codec : CookieCodec} {env : Env} {n : Nat} {r : Run}

/-- The same environment, and the process is gone before a storage operation. -/
def Env.cut (env : Env) (n : Nat) : Env :=
  { env with fault := fun k operation => if k < n then env.fault k operation else .crash }

/-- A credential record has a base URL, and is dated by one of the first readings of the wall
clock. -/
structure Env.Stamps (env : Env) (readings : Nat) (auth : StoredAuth) : Prop where
  baseUrl : auth.baseUrl ≠ ""
  importedAt : ∃ k < readings, auth.importedAt = isoformat (env.wall k)

/-- A stretch of a run: the credential records that it stores come after the others, and are dated
by readings of the wall clock that have been made. -/
structure Run.Extends (env : Env) (r r' : Run) : Prop where
  faults : r.cursor.faults ≤ r'.cursor.faults
  wall : r.cursor.wall ≤ r'.cursor.wall
  writes : ∃ later, r'.world.credentialWrites = r.world.credentialWrites ++ later ∧
    ∀ write ∈ later, env.Stamps r'.cursor.wall write.auth

lemma Env.Stamps.mono {k k' : Nat} {auth : StoredAuth} (h : env.Stamps k auth) (hle : k ≤ k') :
    env.Stamps k' auth := by
  obtain ⟨hurl, j, hj, hdate⟩ := h
  exact ⟨hurl, j, hj.trans_le hle, hdate⟩

lemma Run.Extends.of_eq {r' : Run} (hfaults : r.cursor.faults ≤ r'.cursor.faults)
    (hwall : r.cursor.wall ≤ r'.cursor.wall)
    (hwrites : r'.world.credentialWrites = r.world.credentialWrites) : r.Extends env r' :=
  ⟨hfaults, hwall, [], by rw [hwrites, List.append_nil], by simp⟩

lemma Run.Extends.trans {r' r'' : Run} (h : r.Extends env r') (h' : r'.Extends env r'') :
    r.Extends env r'' := by
  obtain ⟨hfaults, hwall, later, hwrites, hstamps⟩ := h
  obtain ⟨hfaults', hwall', later', hwrites', hstamps'⟩ := h'
  refine ⟨hfaults.trans hfaults', hwall.trans hwall', later ++ later', ?_, ?_⟩
  · rw [hwrites', hwrites, List.append_assoc]
  · intro write hwrite
    rcases List.mem_append.1 hwrite with hwrite | hwrite
    · exact (hstamps write hwrite).mono hwall'
    · exact hstamps' write hwrite

instance : IsPreorder Run (Run.Extends env) where
  refl _ := .of_eq le_rfl le_rfl rfl
  trans _ _ _ := Run.Extends.trans

/-- The run of a section in the cut environment is its run cut short. -/
abbrev Shortens {ε α : Type} (env : Env) (n : Nat) (p q : Action ε Run α) (r : Run) : Prop :=
  Cuts (Run.Extends env) (fun r' => n < r'.cursor.faults) p q r

/-! ### Primitives -/

section

variable {α : Type}

lemma shortens_trigger (operation : String) :
    Shortens env n (trigger (env.cut n) operation) (trigger env operation) r := by
  have hnext : r.Extends env
      { r with cursor := { r.cursor with faults := r.cursor.faults + 1 } } :=
    .of_eq (Nat.le_succ _) le_rfl rfl
  have hend : (trigger env operation r).2 =
      { r with cursor := { r.cursor with faults := r.cursor.faults + 1 } } := by
    simp only [trigger]
    split <;> rfl
  by_cases hn : r.cursor.faults < n
  · refine ⟨hend ▸ hnext, .inl ?_⟩
    simp only [trigger, Env.cut, if_pos hn]
  · refine .crashed ?_ (Nat.lt_succ_of_le (not_lt.1 hn)) hnext (hend ▸ refl _)
    simp only [trigger, Env.cut, if_neg hn]

/-- Storage operations that come first. -/
lemma shortens_trigger_then {p q : Auth α} {operation : String}
    (hpq : ∀ r', r.Extends env r' → Shortens env n p q r') :
    Shortens env n (trigger (env.cut n) operation >>= fun _ => p)
      (trigger env operation >>= fun _ => q) r :=
  (shortens_trigger operation).bind fun _ => hpq

lemma shortens_fsyncDirectory :
    Shortens env n (fsyncDirectory (env.cut n)) (fsyncDirectory env) r :=
  shortens_trigger_then fun _ _ => (shortens_trigger _).ensure fun _ => shortens_trigger _

/-- An atomic write whose effect is a stretch. -/
lemma shortens_writeAtomicJson {f : World → Option Datetime → World}
    (hf : ∀ r', r.Extends env r' →
      r'.Extends env { r' with world := f r'.world (r'.lastReading env) }) :
    Shortens env n (writeAtomicJson (env.cut n) f) (writeAtomicJson env f) r := by
  refine shortens_trigger_then fun r₁ h₁ => ?_
  refine shortens_trigger_then fun r₂ h₂ => ?_
  refine shortens_trigger_then fun r₃ h₃ => ?_
  refine Cuts.tryCatch ?_ fun original r' => ?_
  · refine shortens_trigger_then fun r₄ h₄ => ?_
    refine shortens_trigger_then fun r₅ h₅ => ?_
    refine shortens_trigger_then fun r₆ h₆ => ?_
    refine shortens_trigger_then fun r₇ h₇ => ?_
    have h : r.Extends env r₇ :=
      (h₁.trans h₂).trans ((h₃.trans h₄).trans ((h₅.trans h₆).trans h₇))
    refine (Cuts.same (hf r₇ h)).bind fun _ r₈ _ => ?_
    exact shortens_trigger_then fun _ _ => shortens_fsyncDirectory
  · cases original with
    | osError detail =>
      refine Cuts.bind ((shortens_trigger _).tryCatch fun cleanup _ => ?_)
        fun _ _ _ => Cuts.raise _
      cases cleanup <;> exact Cuts.raise _
    | _ => exact Cuts.raise _

lemma shortens_withAuthFileLock {p q : Auth α}
    (hpq : ∀ r', r.Extends env r' → Shortens env n p q r') :
    Shortens env n (withAuthFileLock (env.cut n) p) (withAuthFileLock env q) r := by
  refine shortens_trigger_then fun r₁ h₁ => ?_
  refine shortens_trigger_then fun r₂ h₂ => ?_
  exact (hpq r₂ (h₁.trans h₂)).ensure fun _ => shortens_trigger _

/-! ### The store -/

lemma shortens_readText (file : ReadSite) :
    Shortens env n (readText (env.cut n) file) (readText env file) r := by
  refine Cuts.same (.of_eq ?_ ?_ ?_)
  · simp only [readText]
    split <;> cases file <;> rfl
  · simp only [readText]
    split <;> cases file <;> rfl
  · simp only [readText]
    split <;> rfl

lemma shortens_wallNow : Shortens env n (wallNow (env.cut n)) (wallNow env) r :=
  Cuts.same (.of_eq le_rfl (Nat.le_succ _) rfl)

lemma shortens_loadAuth : Shortens env n (loadAuth (env.cut n)) (loadAuth env) r := by
  refine (shortens_readText .credential).bind fun text r₁ _ => ?_
  cases text with
  | error detail => exact Cuts.pure _
  | ok text => exact shortens_wallNow.bind fun _ _ _ => Cuts.ofExcept _

lemma shortens_loadJournalFor (site : ReadSite) :
    Shortens env n (loadJournalFor (env.cut n) site) (loadJournalFor env site) r := by
  refine (shortens_readText site).bind fun text r₁ _ => ?_
  cases text with
  | error detail => exact Cuts.pure _
  | ok text => exact Cuts.ofExcept _

lemma shortens_loadOutbox : Shortens env n (loadOutbox (env.cut n)) (loadOutbox env) r := by
  refine (shortens_readText .outbox).bind fun text r₁ _ => ?_
  cases text with
  | error detail => exact Cuts.pure _
  | ok text => exact Cuts.ofExcept _

/-- A write that leaves the records of the credential file. -/
lemma shortens_write {before after : String} {f : World → Option Datetime → World}
    (hf : ∀ r', r.Extends env r' →
      r'.Extends env { r' with world := f r'.world (r'.lastReading env) }) :
    Shortens env n
      (do trigger (env.cut n) before; writeAtomicJson (env.cut n) f; trigger (env.cut n) after)
      (do trigger env before; writeAtomicJson env f; trigger env after) r := by
  refine shortens_trigger_then fun r₁ h₁ => ?_
  refine (shortens_writeAtomicJson fun r' h => hf r' (h₁.trans h)).bind fun _ _ _ => ?_
  exact shortens_trigger _

lemma shortens_writeAuthFile {auth : StoredAuth} {cause : WriteCause}
    (hstamps : env.Stamps r.cursor.wall auth) :
    Shortens env n (writeAuthFile (env.cut n) auth cause) (writeAuthFile env auth cause) r := by
  refine shortens_write fun r' h =>
    ⟨le_rfl, le_rfl, [⟨r'.world.credential, auth, cause, _⟩], rfl, ?_⟩
  intro write hwrite
  rw [List.mem_singleton.1 hwrite]
  exact hstamps.mono h.wall

lemma shortens_writeJournal {state : JournalState} {enqueued : Bool} {attempt : RotationAttempt} :
    Shortens env n (writeJournal (env.cut n) state enqueued attempt)
      (writeJournal env state enqueued attempt) r :=
  shortens_write fun _ _ => .of_eq le_rfl le_rfl rfl

lemma shortens_unlinkFile {file : ReadSite} (remove : World → World)
    (hremove : ∀ w, (remove w).credentialWrites = w.credentialWrites) :
    Shortens env n (unlinkFile (env.cut n) file remove) (unlinkFile env file remove) r := by
  refine shortens_trigger_then fun r₁ _ => ?_
  refine Cuts.bind (Cuts.same (p := state) (refl r₁)) fun r₂ r₃ _ => ?_
  rcases r₂.world.file file with _ | text
  · exact Cuts.pure _
  · refine (Cuts.update (.of_eq le_rfl le_rfl (hremove _))).bind fun _ r₄ _ => ?_
    exact shortens_fsyncDirectory.bind fun _ _ _ => Cuts.pure _

lemma shortens_deleteJournal :
    Shortens env n (deleteJournal (env.cut n)) (deleteJournal env) r := by
  refine shortens_trigger_then fun r₁ _ => ?_
  refine (shortens_unlinkFile World.removeJournal fun _ => rfl).bind fun there r₂ _ => ?_
  cases there with
  | true => exact shortens_trigger _
  | false => exact Cuts.pure _

lemma shortens_setOutbox {records : List OutcomeOutboxRecord} :
    Shortens env n (writeAtomicJson (env.cut n) fun w _ => w.setOutbox records)
      (writeAtomicJson env fun w _ => w.setOutbox records) r :=
  shortens_writeAtomicJson fun _ _ => .of_eq le_rfl le_rfl rfl

lemma shortens_enqueueOutcome {record : OutcomeOutboxRecord} :
    Shortens env n (enqueueOutcome (env.cut n) record) (enqueueOutcome env record) r := by
  refine shortens_loadOutbox.bind fun loaded r₁ _ => ?_
  refine Cuts.bind (Cuts.ofExcept _) fun records r₂ _ => ?_
  split_ifs
  · exact Cuts.pure _
  · exact shortens_trigger_then fun r₃ _ =>
      shortens_setOutbox.bind fun _ r₄ _ => shortens_trigger _

lemma shortens_acknowledgeOutcome {eventKey : String} :
    Shortens env n (acknowledgeOutcome (env.cut n) eventKey) (acknowledgeOutcome env eventKey)
      r := by
  refine shortens_loadOutbox.bind fun loaded r₁ _ => ?_
  refine Cuts.bind (Cuts.ofExcept _) fun records r₂ _ => ?_
  dsimp only
  split_ifs
  · exact Cuts.pure _
  · refine shortens_trigger_then fun r₃ _ => ?_
    generalize records.filter (fun record => record.eventKey ≠ eventKey) = retained
    cases retained with
    | nil =>
      refine shortens_trigger_then fun r₄ _ => ?_
      refine (shortens_unlinkFile World.removeOutbox fun _ => rfl).bind fun there r₅ _ => ?_
      cases there with
      | true => exact shortens_trigger_then fun r₆ _ => shortens_trigger _
      | false => exact Cuts.pure _
    | cons record retained => exact shortens_setOutbox.bind fun _ r₄ _ => shortens_trigger _

/-- A record with a given revision is dated by the reading it takes. -/
lemma shortens_storedAuth_then {baseUrl revision : String} {credential : Credential}
    (hurl : baseUrl ≠ "") {p q : StoredAuth → Auth α}
    (hpq : ∀ auth r', env.Stamps r'.cursor.wall auth → Shortens env n (p auth) (q auth) r') :
    Shortens env n (storedAuth (env.cut n) baseUrl credential (some revision) >>= p)
      (storedAuth env baseUrl credential (some revision) >>= q) r := by
  refine (Cuts.same (p := storedAuth env baseUrl credential (some revision))
    (.of_eq le_rfl (Nat.le_succ r.cursor.wall) rfl)).seq fun auth r' hrun => ?_
  cases hrun
  exact hpq _ _ ⟨hurl, r.cursor.wall, Nat.lt_succ_self _, rfl⟩

/-- A credential that is read has a revision and a base URL. -/
lemma named_of_authOf {file : Option FileText} {now : Datetime} {auth : StoredAuth}
    (h : authOf now file = .ok (.loaded auth)) : auth.revision ≠ "" ∧ auth.baseUrl ≠ "" := by
  rcases file with _ | _ | detail | typeName | payload
  · cases h
  · cases h
  · cases h
  · cases h
  · obtain ⟨fields, -, hmetadata, -⟩ := fields_of_parseAuth h
    unfold credentialMetadata at hmetadata
    split at hmetadata
    · split_ifs at hmetadata with hnamed
      cases hmetadata
      exact ⟨hnamed.1, hnamed.2.1⟩
    · cases hmetadata

lemma shortens_casReplaceCookie {source replacement successor : String} :
    Shortens env n (casReplaceCookie (env.cut n) source replacement successor)
      (casReplaceCookie env source replacement successor) r := by
  refine shortens_loadAuth.seq fun loaded r₁ hrun => ?_
  cases loaded with
  | loaded current =>
    have hurl : current.baseUrl ≠ "" := by
      obtain ⟨-, hread | ⟨-, _, _, ⟨⟩⟩⟩ :=
        (@concludes_loadAuth r env).returns _ (congrArg Prod.fst hrun)
      exact (named_of_authOf hread).2
    dsimp only
    split_ifs
    · exact Cuts.pure _
    · rcases current.credential with header | token
      · exact shortens_storedAuth_then hurl fun auth r₂ hstamps =>
          (shortens_writeAuthFile hstamps).bind fun _ _ _ => Cuts.pure _
      · exact Cuts.pure _
  | _ => exact Cuts.pure _

/-! ### Outcomes -/

lemma shortens_deliverOutboxRecord {record : OutcomeOutboxRecord} :
    Shortens env n (deliverOutboxRecord (env.cut n) record) (deliverOutboxRecord env record) r := by
  rcases hsink : env.sink with _ | reply <;> simp only [deliverOutboxRecord, Env.cut, hsink]
  · exact Cuts.pure _
  · refine Cuts.bind (Cuts.same (.of_eq le_rfl le_rfl rfl)) fun answer r₁ _ => ?_
    rcases answer with ⟨_ | _⟩ | ⟨_ | _ | _ | typeName⟩
    case returned.true =>
      exact (Cuts.update (.of_eq le_rfl le_rfl rfl)).bind fun _ _ _ => Cuts.pure _
    case raised.other => exact Cuts.raise _
    all_goals exact Cuts.pure _

lemma shortens_drainOutbox : Shortens env n (drainOutbox (env.cut n)) (drainOutbox env) r := by
  refine shortens_loadOutbox.bind fun loaded r₁ _ => ?_
  cases loaded with
  | absent => exact Cuts.pure _
  | corrupt detail => exact Cuts.raise _
  | ioFailure operation error => exact Cuts.raise _
  | loaded records =>
    refine Cuts.each fun record r₂ => ?_
    refine shortens_deliverOutboxRecord.bind fun accepted r₃ _ => ?_
    cases accepted with
    | true => exact shortens_acknowledgeOutcome
    | false => exact Cuts.pure _

lemma shortens_deleteDelivered {t : TerminalState} :
    Shortens env n (deleteDelivered (env.cut n) t) (deleteDelivered env t) r := by
  cases t with
  | rotated source replacement successor =>
    refine Cuts.bind (shortens_loadOutbox.bind fun loaded r₁ _ => ?_) fun there r₁ _ => ?_
    · cases loaded with
      | absent => exact Cuts.pure _
      | corrupt detail => exact Cuts.raise _
      | ioFailure operation error => exact Cuts.raise _
      | loaded records => exact Cuts.pure _
    · cases there with
      | true => exact Cuts.pure _
      | false => exact shortens_deleteJournal
  | rejected => exact Cuts.pure _
  | outcomeUnknown => exact Cuts.pure _

lemma shortens_recordTerminalOutcome {t : TerminalState} {attempt : RotationAttempt}
    {enqueued : Bool} :
    Shortens env n (recordTerminalOutcome (env.cut n) t attempt enqueued)
      (recordTerminalOutcome env t attempt enqueued) r := by
  cases enqueued with
  | true => exact shortens_drainOutbox.bind fun _ _ _ => shortens_deleteDelivered
  | false =>
    refine shortens_enqueueOutcome.bind fun _ r₁ _ => ?_
    refine shortens_writeJournal.bind fun _ r₂ _ => ?_
    exact shortens_drainOutbox.bind fun _ _ _ => shortens_deleteDelivered

/-! ### The commit of a successor -/

lemma shortens_currentOrRaise :
    Shortens env n (currentOrRaise (env.cut n)) (currentOrRaise env) r :=
  shortens_loadAuth.bind fun _ _ _ => Cuts.ofExcept _

lemma shortens_commitSuccessor {source header successor : String} :
    Shortens env n (commitSuccessor (env.cut n) source header successor)
      (commitSuccessor env source header successor) r := by
  refine shortens_withAuthFileLock fun r₁ _ => ?_
  refine Cuts.bind (shortens_loadAuth.bind fun _ _ _ => Cuts.pure _) fun superseded r₂ _ => ?_
  cases superseded with
  | true => exact shortens_currentOrRaise
  | false =>
    refine Cuts.bind ((shortens_loadJournalFor .journal).bind fun _ _ _ => Cuts.pure _)
      fun found r₃ _ => ?_
    refine shortens_writeJournal.bind fun _ r₄ _ => ?_
    refine shortens_casReplaceCookie.bind fun result r₅ _ => ?_
    cases result with
    | written auth => exact shortens_recordTerminalOutcome.bind fun _ _ _ => Cuts.pure _
    | superseded current => exact shortens_currentOrRaise

lemma shortens_plain {p q : Auth α} (h : Shortens env n p q r) :
    Shortens env n (Auth.plain p) (Auth.plain q) r := h.tryCatch fun _ _ => Cuts.raise _

lemma shortens_emitRefreshObservation {source : StoredAuth} {response : Option EnjiHttpResponse}
    {header : Option String} :
    Shortens env n (emitRefreshObservation codec (env.cut n) source response header)
      (emitRefreshObservation codec env source response header) r := by
  simp only [emitRefreshObservation, deliverEvent_eq, Env.cut]
  split_ifs
  · exact Cuts.pure _
  · refine (shortens_loadJournalFor .observation).bind fun _ r₁ _ => ?_
    have hfields : ∀ r', Shortens env n
        (do
          let now ← nowFn (env.cut n)
          let _ ← ofExcept (refreshDiagnosticFields codec source header now)
          return ())
        (do
          let now ← nowFn env
          let _ ← ofExcept (refreshDiagnosticFields codec source header now)
          return ()) r' := fun r' =>
      (Cuts.same (p := nowFn env) (.of_eq le_rfl le_rfl rfl)).bind fun _ _ _ =>
        Cuts.bind (Cuts.ofExcept _) fun _ _ _ => Cuts.pure _
    cases response with
    | none => exact hfields r₁
    | some response => exact Cuts.bind (Cuts.ofExcept _) fun _ r₂ _ => hfields r₂

lemma shortens_commitSuccess {source : StoredAuth} {header : String}
    {response : EnjiHttpResponse} :
    Shortens env n (commitSuccess codec (env.cut n) source header response)
      (commitSuccess codec env source header response) r := by
  refine (shortens_plain (Cuts.same (p := mintRevision env) (.of_eq le_rfl le_rfl rfl))).bind
    fun successor r₁ _ => ?_
  refine (shortens_plain (Cuts.same (p := transitionOrRaise _ _) (refl r₁))).bind
    fun state r₂ _ => ?_
  split
  · refine (shortens_plain shortens_emitRefreshObservation).bind fun _ r₃ _ => ?_
    refine (shortens_plain (Cuts.same (p := storedAuth env _ _ (some _))
      (.of_eq le_rfl (Nat.le_succ _) rfl))).bind fun stored r₄ _ => ?_
    refine shortens_commitSuccessor.tryCatch fun e r₅ => ?_
    split_ifs <;> exact Cuts.raise _
  · exact Cuts.raise _

end

/-- A commit of a response with a complete successor, from where the successor is extracted. -/
lemma commitExchange_of_replacement {w : World} {source : StoredAuth}
    {response : EnjiHttpResponse} {header : String} {r₁ : Run}
    (h : successfulReplacement codec env source response (Run.start w) = (.ok (some header), r₁)) :
    commitExchange codec env source (.response response) (Run.start w) =
      tryCatch (commitSuccess codec env source header response) (fun e =>
        match e with
        | .plain e =>
          if e.isOsError then
            raise (.plain (.terminalRevisionRequired source.revision
              "refresh dispatch completed; import a fresh browser credential"))
          else raise (.plain e)
        | .postDispatchPersistence retained => raise (.postDispatchPersistence retained)) r₁ := by
  have hplain : Auth.plain (successfulReplacement codec env source response) (Run.start w) =
      (.ok (some header), r₁) := by
    rw [Auth.plain, tryCatch_apply, h]
  have hresponse : commitResponse codec env source response (Run.start w) =
      commitSuccess codec env source header response r₁ := bind_of_ok hplain
  refine (tryCatch_apply _ _ _).trans ?_
  rw [hresponse]
  exact (tryCatch_apply _ _ _).symm

/-- A commit of a complete successor that is cut off stores, after a part that leaves the files,
what the whole commit stores. -/
lemma extends_commitExchange {w : World} {source : StoredAuth} {response : EnjiHttpResponse}
    {header : String} {r₁ : Run}
    (h : successfulReplacement codec env source response (Run.start w) = (.ok (some header), r₁)) :
    r₁.Extends env
        (commitExchange codec (env.cut n) source (.response response) (Run.start w)).2 ∧
      Run.Extends env
        (commitExchange codec (env.cut n) source (.response response) (Run.start w)).2
        (commitExchange codec env source (.response response) (Run.start w)).2 := by
  have h' : successfulReplacement codec (env.cut n) source response (Run.start w) =
      (.ok (some header), r₁) := by
    rw [successfulReplacement_congr (show (env.cut n).wall = env.wall from rfl), h]
  rw [commitExchange_of_replacement h, commitExchange_of_replacement h']
  refine Cuts.split (shortens_commitSuccess.tryCatch fun e r₂ => ?_)
  cases e with
  | plain e =>
    dsimp only
    split_ifs <;> exact Cuts.raise _
  | postDispatchPersistence retained => exact Cuts.raise _

end EnjiGuard.AuthSession
