import EnjiGuard.AuthSession.Store.World

/-!
# Operations of the durable store

Loading, writing and deleting the three files, the outbox transactions, and the compare-and-swap
that projects a rotated cookie. `OutboxStep` lists what the outbox operations can do to the files;
their specifications say that they do nothing else.
-/

namespace EnjiGuard.AuthSession

open Foundation Action Relation

/-! ### Loading -/

/-- What the content of the credential file is read as. -/
def authOf (now : Datetime) : Option FileText → Except PyError AuthLoadResult
  | none => .ok .absent
  | some .notUtf8 => .ok (.corrupt "credential file is not valid UTF-8")
  | some (.notJson detail) => .ok (.corrupt ("invalid JSON: " ++ detail))
  | some (.refused typeName) => .error (.ofRefused typeName)
  | some (.json payload) => parseAuth payload now

/-- Reads the credential. -/
def loadAuth (env : Env) : Auth AuthLoadResult := do
  match ← readText env .credential with
  | .error detail => return .ioFailure "read credential" detail
  | .ok text =>
    let now ← wallNow env
    ofExcept (authOf now text)

/-- What the content of the journal file is read as. -/
def journalOf : Option FileText → Except PyError JournalLoadResult
  | none => .ok .absent
  | some .notUtf8 => .ok (.corrupt "refresh journal file is not valid UTF-8")
  | some (.notJson detail) => .ok (.corrupt ("invalid JSON: " ++ detail))
  | some (.refused typeName) => .error (.ofRefused typeName)
  | some (.json payload) => parseJournal payload

def loadJournalFor (env : Env) (site : ReadSite) : Auth JournalLoadResult := do
  match ← readText env site with
  | .error detail => return .ioFailure "read refresh journal" detail
  | .ok text => ofExcept (journalOf text)

/-- Reads the journal. -/
def loadJournal (env : Env) : Auth JournalLoadResult := loadJournalFor env .journal

/-- What the content of the outbox file is read as. -/
def outboxOf : Option FileText → Except PyError OutcomeOutboxLoadResult
  | none => .ok .absent
  | some .notUtf8 => .ok (.corrupt "outcome outbox file is not valid UTF-8")
  | some (.notJson detail) => .ok (.corrupt ("invalid JSON: " ++ detail))
  | some (.refused typeName) => .error (.ofRefused typeName)
  | some (.json payload) => parseOutbox payload

/-- Reads the outbox. -/
def loadOutbox (env : Env) : Auth OutcomeOutboxLoadResult := do
  match ← readText env .outbox with
  | .error detail => return .ioFailure "read outcome outbox" detail
  | .ok text => ofExcept (outboxOf text)

/-! ### Writing and deleting -/

/-- A credential record with a given or a fresh revision. -/
def storedAuth (env : Env) (baseUrl : String) (credential : Credential)
    (revision : Option String) : Auth StoredAuth := do
  let revision ← match revision with
    | some revision => pure revision
    | none => mintRevision env
  let now ← wallNow env
  return ⟨revision, baseUrl, credential, isoformat now⟩

/-- Writes the credential. -/
def writeAuthFile (env : Env) (auth : StoredAuth) (cause : WriteCause) : Auth Unit := do
  trigger env "before_write_credential"
  writeAtomicJson env fun w _ => w.setCredential auth cause
  trigger env "after_write_credential"

def writeJournal (env : Env) (state : JournalState) (outboxEnqueued : Bool)
    (attempt : RotationAttempt) : Auth Unit := do
  trigger env "before_write_journal"
  writeAtomicJson env fun w clock => w.setJournal state outboxEnqueued attempt clock
  trigger env "after_write_journal"

/-- Removes a file durably; the result is whether it was there. -/
def unlinkFile (env : Env) (file : ReadSite) (remove : World → World) : Auth Bool := do
  trigger env "unlink"
  let r ← state
  match r.world.file file with
  | none => return false
  | some _ =>
    change remove
    fsyncDirectory env
    return true

def deleteJournal (env : Env) : Auth Unit := do
  trigger env "before_delete_journal"
  if ← unlinkFile env .journal World.removeJournal then trigger env "after_delete_journal"
  else return ()

def outboxRecordsOrRaise : OutcomeOutboxLoadResult → Except PyError (List OutcomeOutboxRecord)
  | .absent => .ok []
  | .loaded records => .ok records
  | .corrupt detail => .error (.osError ("outcome outbox is corrupt: " ++ detail))
  | .ioFailure operation error => .error (.osError (operation ++ " failed: " ++ error))

/-- Appends an outcome to the outbox unless its key is there. -/
def enqueueOutcome (env : Env) (record : OutcomeOutboxRecord) : Auth Unit := do
  let loaded ← loadOutbox env
  let records ← ofExcept (outboxRecordsOrRaise loaded)
  if records.any fun existing => existing.eventKey = record.eventKey then return ()
  else
    trigger env "before_enqueue_outcome"
    writeAtomicJson env fun w _ => w.setOutbox (records ++ [record])
    trigger env "after_enqueue_outcome"

/-- Removes an accepted outcome from the outbox. -/
def acknowledgeOutcome (env : Env) (eventKey : String) : Auth Unit := do
  let loaded ← loadOutbox env
  let records ← ofExcept (outboxRecordsOrRaise loaded)
  let retained := records.filter fun record => record.eventKey ≠ eventKey
  if retained.length = records.length then return ()
  else
    trigger env "before_acknowledge_outcome"
    match retained with
    | [] => do
      trigger env "before_unlink_outcome"
      if ← unlinkFile env .outbox World.removeOutbox then
        trigger env "after_unlink_outcome"
        trigger env "after_acknowledge_outcome"
      else return ()
    | _ => do
      writeAtomicJson env fun w _ => w.setOutbox retained
      trigger env "after_acknowledge_outcome"

/-- The result of a compare-and-swap. -/
inductive CasResult
  | written (auth : StoredAuth)
  | superseded (currentRevision : Option String)

/-- Replaces the cookie of a revision that is still the stored one. -/
def casReplaceCookie (env : Env)
    (sourceRevision replacementCookieHeader successorRevision : String) : Auth CasResult := do
  match ← loadAuth env with
  | .loaded current =>
    if current.revision ≠ sourceRevision then return .superseded (some current.revision)
    else
      match current.credential with
      | .cookie _ => do
        let replacement ← storedAuth env current.baseUrl (.cookie replacementCookieHeader)
          (some successorRevision)
        writeAuthFile env replacement (.projected sourceRevision)
        return .written replacement
      | .bearerToken _ => return .superseded (some current.revision)
  | _ => return .superseded none

/-! ### What the files hold -/

/-- A credential file holds a record: it was written so, or it is read so at some time. -/
def Stores (file : Option FileText) (auth : StoredAuth) : Prop :=
  ∃ payload, file = some (.json payload) ∧
    (payload = authPayload auth ∨ ∃ now, parseAuth payload now = .ok (.loaded auth))

/-- A journal file holds a record: it was written so, or it is read so. -/
def Journals (file : Option FileText) (state : JournalState) (outboxEnqueued : Bool)
    (attempt : RotationAttempt) : Prop :=
  ∃ payload, file = some (.json payload) ∧
    (payload = journalPayload state outboxEnqueued (some attempt) ∨
      ∃ migrated, parseJournal payload = .ok (.loaded state outboxEnqueued attempt migrated))

namespace World

/-- The record in the credential file. -/
def Holds (w : World) (auth : StoredAuth) : Prop := Stores w.credential auth

/-- The record in the journal file. -/
def JournalHolds (w : World) (state : JournalState) (outboxEnqueued : Bool)
    (attempt : RotationAttempt) : Prop := Journals w.journal state outboxEnqueued attempt

/-- The records the outbox holds. -/
def OutboxHolds (w : World) (records : List OutcomeOutboxRecord) : Prop :=
  outboxOf w.outbox = .ok (.loaded records) ∨ w.outbox = none ∧ records = []

end World

/-- The identity fields of a credential payload say what it is read as. -/
lemma fields_of_parseAuth {payload : Json} {now : Datetime} {auth : StoredAuth}
    (h : parseAuth payload now = .ok (.loaded auth)) :
    ∃ fields, payload = .obj fields ∧
      credentialMetadata fields = some (auth.revision, auth.baseUrl, auth.importedAt) ∧
      parseCredential (Json.lookup "credential" fields) = some auth.credential := by
  rcases payload with _ | _ | _ | _ | _ | _ | fields
  case obj =>
    refine ⟨fields, rfl, ?_⟩
    simp only [parseAuth] at h
    split_ifs at h with hversion
    · rcases hmeta : credentialMetadata fields with _ | ⟨revision, baseUrl, importedAt⟩ <;>
        rw [hmeta] at h
      · cases h
      · rcases hcheck : validateImportedAt importedAt now with e | ⟨_ | refused⟩ <;>
          simp only [hcheck, bind, Except.bind] at h
        · cases h
        · rcases hcred : parseCredential (Json.lookup "credential" fields) with _ | credential <;>
            rw [hcred] at h
          · cases h
          · cases h; exact ⟨rfl, rfl⟩
        · rcases refused_of_validateImportedAt hcheck with rfl | ⟨_, rfl⟩ <;> cases h
    · cases h
  all_goals cases h

/-- What a credential payload is read as does not depend on the time. -/
lemma parseAuth_unique {payload : Json} {now now' : Datetime} {auth auth' : StoredAuth}
    (h : parseAuth payload now = .ok (.loaded auth))
    (h' : parseAuth payload now' = .ok (.loaded auth')) : auth = auth' := by
  obtain ⟨fields, rfl, hmeta, hcred⟩ := fields_of_parseAuth h
  obtain ⟨fields', hfields, hmeta', hcred'⟩ := fields_of_parseAuth h'
  cases hfields
  rw [hmeta] at hmeta'
  rw [hcred] at hcred'
  obtain ⟨revision, baseUrl, credential, importedAt⟩ := auth
  obtain ⟨revision', baseUrl', credential', importedAt'⟩ := auth'
  simp only [Option.some.injEq, Prod.mk.injEq] at hmeta' hcred'
  obtain ⟨rfl, rfl, rfl⟩ := hmeta'
  rw [hcred']

lemma authPayload_injective {auth auth' : StoredAuth} (h : authPayload auth = authPayload auth') :
    auth = auth' := by
  obtain ⟨revision, baseUrl, credential, importedAt⟩ := auth
  obtain ⟨revision', baseUrl', credential', importedAt'⟩ := auth'
  cases credential <;> cases credential' <;> simp [authPayload] at h ⊢ <;> tauto

/-- The credential file holds at most one record. -/
theorem World.Holds.unique {w : World} {auth auth' : StoredAuth} (h : w.Holds auth)
    (h' : w.Holds auth') : auth = auth' := by
  obtain ⟨payload, hfile, hload⟩ := h
  obtain ⟨payload', hfile', hload'⟩ := h'
  rw [hfile] at hfile'
  cases hfile'
  rcases hload with rfl | ⟨now, hload⟩ <;> rcases hload' with hpayload' | ⟨now', hload'⟩
  · exact authPayload_injective hpayload'
  · exact (eq_of_parseAuth_authPayload hload').symm
  · rw [hpayload'] at hload
    exact eq_of_parseAuth_authPayload hload
  · exact parseAuth_unique hload hload'

lemma World.holds_setCredential (w : World) (auth : StoredAuth) (cause : WriteCause) :
    (w.setCredential auth cause).Holds auth := ⟨_, rfl, .inl rfl⟩

lemma World.holds_setCredential_iff {w : World} {auth auth' : StoredAuth} {cause : WriteCause} :
    (w.setCredential auth cause).Holds auth' ↔ auth' = auth :=
  ⟨fun h => h.unique (w.holds_setCredential auth cause),
    fun h => h ▸ w.holds_setCredential auth cause⟩

/-- The journal file holds at most one record. -/
theorem World.JournalHolds.unique {w : World} {state state' : JournalState}
    {enqueued enqueued' : Bool} {attempt attempt' : RotationAttempt}
    (h : w.JournalHolds state enqueued attempt) (h' : w.JournalHolds state' enqueued' attempt') :
    state = state' ∧ attempt = attempt' ∧
      (state.terminal?.isSome && enqueued) = (state'.terminal?.isSome && enqueued') := by
  obtain ⟨payload, hfile, hload⟩ := h
  obtain ⟨payload', hfile', hload'⟩ := h'
  rw [hfile] at hfile'
  cases hfile'
  rcases hload with rfl | ⟨_, hload⟩ <;> rcases hload' with hpayload' | ⟨_, hload'⟩
  · exact journalPayload_injective hpayload'
  · obtain ⟨rfl, rfl, rfl⟩ := eq_of_parseJournal_journalPayload hload'
    refine ⟨rfl, rfl, ?_⟩
    cases state'.terminal?.isSome <;> simp
  · rw [hpayload'] at hload
    obtain ⟨rfl, rfl, rfl⟩ := eq_of_parseJournal_journalPayload hload
    refine ⟨rfl, rfl, ?_⟩
    cases state.terminal?.isSome <;> simp
  · rw [hload] at hload'
    cases hload'
    exact ⟨rfl, rfl, rfl⟩

lemma World.journalHolds_setJournal (w : World) (state : JournalState) (enqueued : Bool)
    (attempt : RotationAttempt) (clock : Option Datetime) :
    (w.setJournal state enqueued attempt clock).JournalHolds state enqueued attempt :=
  ⟨_, rfl, .inl rfl⟩

end EnjiGuard.AuthSession
