import EnjiGuard.AuthSession.Store.Records

/-!
# Reading back what is written

What the three readers make of the payloads the writers produce. A journal payload is read back
as the state, flag and attempt it was made from when the attempt passes the reader's own checks,
and as a corrupt journal otherwise; a credential payload and an outbox payload likewise.
-/

namespace EnjiGuard.AuthSession

open Foundation

@[simp] lemma parseRecoveryLane_text (lane : RecoveryLane) :
    parseRecoveryLane lane.text = some lane := by
  cases lane <;> rfl

@[simp] lemma parseAttemptKind_text (kind : AttemptKind) :
    parseAttemptKind kind.text = some kind := by
  rcases kind with _ | ⟨_ | _ | _⟩ <;> rfl

@[simp] lemma parseOptionalContinuation_text (continuation : Option Continuation) :
    parseOptionalContinuation (.ofOptionalStr (continuation.map Continuation.text)) =
      some continuation := by
  rcases continuation with _ | ⟨⟨_ | _ | _⟩ | _⟩ <;> rfl

@[simp] lemma parseOutcome_text (outcome : RotationOutcome) :
    parseOutcome outcome.text = some outcome := by
  cases outcome <;> rfl

/-! ### The journal -/

/-- The reader accepts a recovery budget exactly when it is valid. -/
lemma parseRotationAttempt_payload {payload : List (String × Json)} {state : JournalState}
    {outboxEnqueued : Bool} {attempt : RotationAttempt}
    (h : journalPayload state outboxEnqueued (some attempt) = .obj payload) :
    parseRotationAttempt payload =
      if rotationAttemptIsValid attempt then some attempt else none := by
  simp only [journalPayload, Option.getD_some, Json.obj.injEq] at h
  subst h
  simp [parseRotationAttempt, parseAttemptCounts, Json.lookup]

/-- The only scalar field a writer can get wrong is an empty source revision. -/
lemma journalScalarFieldError_payload {payload : List (String × Json)} {state : JournalState}
    {outboxEnqueued : Bool} {attempt : RotationAttempt}
    (h : journalPayload state outboxEnqueued (some attempt) = .obj payload) :
    journalScalarFieldError payload = if state.sourceRevision = "" then
      some "journal source_revision must be a non-empty string" else none := by
  simp only [journalPayload, Option.getD_some, Json.obj.injEq] at h
  subst h
  simp [journalScalarFieldError, Json.lookup]

/-- The fields a writer puts down for a state stand for that state. -/
lemma journalState_of_state (state : JournalState) (outboxEnqueued : Bool)
    (attempt : RotationAttempt) :
    journalState ⟨state.sourceRevision, .str state.name, state.replacement?, state.reason?,
      state.successor?, state.terminal?.map TerminalState.outcome,
      state.terminal?.map TerminalState.eventKey, state.terminal?.isSome && outboxEnqueued,
      attempt⟩ = some state := by
  rcases state with _ | _ | ⟨_ | _ | _⟩ <;>
    simp [journalState, JournalState.name, JournalState.replacement?, JournalState.reason?,
      JournalState.successor?, JournalState.terminal?, JournalState.sourceRevision,
      TerminalState.sourceRevision, TerminalState.outcome]

/-- The fields of a journal payload outside the recovery budget. -/
lemma lookup_journalPayload {payload : List (String × Json)} {state : JournalState}
    {outboxEnqueued : Bool} {attempt : RotationAttempt}
    (h : journalPayload state outboxEnqueued (some attempt) = .obj payload) :
    Json.lookup "version" payload = .int 3 ∧
      Json.lookup "source_revision" payload = .str state.sourceRevision ∧
      Json.lookup "state" payload = .str state.name ∧
      Json.lookup "replacement_cookie_header" payload = .ofOptionalStr state.replacement? ∧
      Json.lookup "reason" payload = .ofOptionalStr state.reason? ∧
      Json.lookup "successor_revision" payload = .ofOptionalStr state.successor? ∧
      Json.lookup "outcome" payload =
        .ofOptionalStr (state.terminal?.map fun t => t.outcome.text) ∧
      Json.lookup "event_key" payload =
        .ofOptionalStr (state.terminal?.map TerminalState.eventKey) ∧
      Json.lookup "outbox_enqueued" payload =
        .bool (state.terminal?.isSome && outboxEnqueued) := by
  simp only [journalPayload, Option.getD_some, Json.obj.injEq] at h
  subst h
  simp [Json.lookup]

/-- The validated fields of a journal payload. -/
lemma journalFields_payload {payload : List (String × Json)} {state : JournalState}
    {outboxEnqueued : Bool} {attempt : RotationAttempt}
    (h : journalPayload state outboxEnqueued (some attempt) = .obj payload)
    (hfield : journalFieldError payload (some attempt) = .ok none)
    (hattempt : parseRotationAttempt payload = some attempt) :
    journalFields payload = .ok (.ok ⟨state.sourceRevision, .str state.name, state.replacement?,
      state.reason?, state.successor?, state.terminal?.map TerminalState.outcome,
      state.terminal?.map TerminalState.eventKey, state.terminal?.isSome && outboxEnqueued,
      attempt⟩) := by
  have houtcome : parseJournalOutcome
      (.ofOptionalStr (state.terminal?.map fun t => t.outcome.text)) =
        some (state.terminal?.map TerminalState.outcome) := by
    rcases state with _ | _ | ⟨_ | _ | _⟩ <;> rfl
  obtain ⟨-, h1, h2, h3, h4, h5, h6, h7, h8⟩ := lookup_journalPayload h
  simp only [journalFields, hattempt, hfield, h1, h2, h3, h4, h5, h6, h7, h8, houtcome, bind,
    Except.bind, Json.str?_str, Json.optionalStr?_ofOptionalStr, Json.bool?_bool]
  rfl

/-- A journal payload is read back when its budget agrees with its state. -/
theorem parseJournal_journalPayload (state : JournalState) (outboxEnqueued : Bool)
    (attempt : RotationAttempt) :
    parseJournal (journalPayload state outboxEnqueued (some attempt)) =
      if state.sourceRevision = "" then
        .ok (.corrupt "journal source_revision must be a non-empty string")
      else if rotationAttemptIsValid attempt = false then
        .ok (.corrupt "journal recovery budget is invalid")
      else (attemptStateError (.str state.name) attempt).map fun
        | some detail => .corrupt detail
        | none => .loaded state (state.terminal?.isSome && outboxEnqueued) attempt none := by
  obtain ⟨payload, hpayload⟩ : ∃ payload,
      journalPayload state outboxEnqueued (some attempt) = .obj payload := ⟨_, rfl⟩
  have hattempt := parseRotationAttempt_payload hpayload
  have hscalar := journalScalarFieldError_payload hpayload
  have hfields := journalFields_payload hpayload
  obtain ⟨hversion, -, hstate, -⟩ := lookup_journalPayload hpayload
  rw [hpayload, parseJournal, hversion]
  simp only [Json.equalsInt_int, show ¬ ((3 : Int) = 2) by decide, decide_false,
    Bool.false_eq_true, if_false, decide_true, if_true]
  by_cases hsource : state.sourceRevision = ""
  · rw [if_pos hsource] at hscalar ⊢
    simp [journalFields, journalFieldError, hscalar, bind, Except.bind, pure, Except.pure]
  rw [if_neg hsource] at hscalar ⊢
  cases hvalid : rotationAttemptIsValid attempt with
  | false =>
    rw [hvalid] at hattempt
    simp [journalFields, journalFieldError, hscalar, hattempt, bind, Except.bind, pure,
      Except.pure]
  | true =>
    rw [hvalid, if_pos rfl] at hattempt
    have herror : journalFieldError payload (some attempt) =
        attemptStateError (.str state.name) attempt := by
      simp only [journalFieldError, hscalar, hstate]
    simp only [Bool.true_eq_false, if_false]
    rcases hcheck : attemptStateError (.str state.name) attempt with e | ⟨_ | detail⟩
    · simp [journalFields, hattempt, herror, hcheck, bind, Except.bind, Except.map]
    · rw [hfields (herror.trans hcheck) hattempt]
      simp [journalState_of_state, bind, Except.bind, pure, Except.pure, Except.map]
    · simp [journalFields, hattempt, herror, hcheck, bind, Except.bind, pure, Except.pure,
        Except.map]

/-- What the reader makes of a journal payload is never another state or attempt. -/
lemma eq_of_parseJournal_journalPayload {state state' : JournalState} {enqueued enqueued' : Bool}
    {attempt attempt' : RotationAttempt} {migrated : Option Nat}
    (h : parseJournal (journalPayload state enqueued (some attempt)) =
      .ok (.loaded state' enqueued' attempt' migrated)) :
    state' = state ∧ enqueued' = (state.terminal?.isSome && enqueued) ∧ attempt' = attempt := by
  rw [parseJournal_journalPayload] at h
  split_ifs at h with hsource hvalid
  · cases h
  · cases h
  rcases hcheck : attemptStateError (.str state.name) attempt with e | ⟨_ | detail⟩ <;>
    rw [hcheck] at h
  · cases h
  · simp only [Except.map, Except.ok.injEq, JournalLoadResult.loaded.injEq] at h
    exact ⟨h.1.symm, h.2.1.symm, h.2.2.1.symm⟩
  · cases h

/-- The payloads of different journals differ. -/
lemma journalPayload_injective {state state' : JournalState} {enqueued enqueued' : Bool}
    {attempt attempt' : RotationAttempt}
    (h : journalPayload state enqueued (some attempt) =
      journalPayload state' enqueued' (some attempt')) :
    state = state' ∧ attempt = attempt' ∧
      (state.terminal?.isSome && enqueued) = (state'.terminal?.isSome && enqueued') := by
  have hstr : ∀ {s s' : Option String}, Json.ofOptionalStr s = Json.ofOptionalStr s' → s = s' :=
    fun {s s'} h => Option.some.inj <| by
      rw [← Json.optionalStr?_ofOptionalStr s, h, Json.optionalStr?_ofOptionalStr]
  have hint : ∀ {n n' : Option Int}, Json.ofOptionalInt n = Json.ofOptionalInt n' → n = n' :=
    fun {n n'} h => Option.some.inj <| by
      rw [← Json.optionalInt?_ofOptionalInt n, h, Json.optionalInt?_ofOptionalInt]
  have hkind : ∀ {k k' : AttemptKind}, k.text = k'.text → k = k' := fun {k k'} h =>
    Option.some.inj <| by rw [← parseAttemptKind_text k, h, parseAttemptKind_text]
  have hcontinuation : ∀ {c c' : Option Continuation},
      Json.ofOptionalStr (c.map Continuation.text) =
        Json.ofOptionalStr (c'.map Continuation.text) → c = c' := fun {c c'} h =>
    Option.some.inj <| by
      rw [← parseOptionalContinuation_text c, h, parseOptionalContinuation_text]
  simp only [journalPayload, Option.getD_some, Json.obj.injEq, List.cons.injEq, Prod.mk.injEq,
    true_and, and_true, Json.str.injEq, Json.int.injEq, Json.bool.injEq] at h
  obtain ⟨hsource, hname, hreplacement, hreason, hsuccessor, houtcome, hkey, hflag, h1, h2, h3,
    h4, h5, h6, h7, h8, h9, h10, h11, h12, h13, h14, h15⟩ := h
  refine ⟨?_, ?_, hflag⟩
  · -- both states are the one the fields stand for
    have houtcome : state.terminal?.map TerminalState.outcome =
        state'.terminal?.map TerminalState.outcome := by
      have htext : ∀ o : Option TerminalState, parseJournalOutcome
          (.ofOptionalStr (o.map fun t => t.outcome.text)) =
            some (o.map TerminalState.outcome) := by
        rintro (_ | ⟨_ | _ | _⟩) <;> rfl
      exact Option.some.inj <| by rw [← htext, houtcome, htext]
    have hstate := journalState_of_state state enqueued attempt
    rw [hsource, hname, hstr hreplacement, hstr hreason, hstr hsuccessor, houtcome, hstr hkey,
      hflag, journalState_of_state] at hstate
    exact (Option.some.inj hstate).symm
  · cases attempt
    cases attempt'
    simp only [RotationAttempt.mk.injEq]
    exact ⟨h1, hkind h2, h3, h4, h5, h6, hstr h7, hcontinuation h8, hstr h9, hint h10, hstr h11,
      hstr h12, h13, hstr h14, hstr h15⟩

/-! ### The credential -/

/-- The credential proper is read back. -/
lemma parseCredential_payload (credential : Credential) :
    parseCredential (match credential with
      | .cookie header => .obj [("type", .str "cookie"), ("cookie_header", .str header)]
      | .bearerToken token => .obj [("type", .str "bearer_token"), ("token", .str token)]) =
      some credential := by
  cases credential <;> simp [parseCredential, Json.lookup, Json.equalsStr, Json.str?]

/-- The fields of a credential payload. -/
lemma lookup_authPayload {payload : List (String × Json)} {auth : StoredAuth}
    (h : authPayload auth = .obj payload) :
    Json.lookup "version" payload = .int 2 ∧
      Json.lookup "revision" payload = .str auth.revision ∧
      Json.lookup "base_url" payload = .str auth.baseUrl ∧
      Json.lookup "imported_at" payload = .str auth.importedAt ∧
      parseCredential (Json.lookup "credential" payload) = some auth.credential := by
  simp only [authPayload, Json.obj.injEq] at h
  subst h
  have hcredential := parseCredential_payload auth.credential
  exact ⟨rfl, rfl, rfl, rfl, hcredential⟩

/-- What a stored credential is read back as depends on its import time only. -/
lemma parseAuth_authPayload (auth : StoredAuth) (now : Datetime) :
    parseAuth (authPayload auth) now =
      if auth.revision ≠ "" ∧ auth.baseUrl ≠ "" ∧ auth.importedAt ≠ "" then
        (validateImportedAt auth.importedAt now).map fun
          | some refused => refused
          | none => .loaded auth
      else
        .ok (.corrupt "credential revision, base_url, and imported_at must be non-empty strings")
    := by
  obtain ⟨payload, hpayload⟩ : ∃ payload, authPayload auth = .obj payload := ⟨_, rfl⟩
  obtain ⟨hversion, hrevision, hurl, himported, hcredential⟩ := lookup_authPayload hpayload
  rw [hpayload]
  simp only [parseAuth, credentialMetadata, hversion, hrevision, hurl, himported, hcredential,
    Json.equalsInt_int, decide_true, if_true, Json.str?_str]
  by_cases h : auth.revision ≠ "" ∧ auth.baseUrl ≠ "" ∧ auth.importedAt ≠ ""
  · rw [if_pos h, if_pos h]
    rcases hcheck : validateImportedAt auth.importedAt now with e | ⟨_ | refused⟩ <;>
      simp [hcheck, bind, Except.bind, Except.map]
  · rw [if_neg h, if_neg h]

/-- An import time is refused as malformed or as lying in the future. -/
lemma refused_of_validateImportedAt {value : String} {now : Datetime} {refused : AuthLoadResult}
    (h : validateImportedAt value now = .ok (some refused)) :
    refused = .clockAnomaly ∨ ∃ detail, refused = .corrupt detail := by
  rw [validateImportedAt] at h
  rcases hparsed : parseUtcTimestamp value with _ | parsed <;> rw [hparsed] at h
  · simp only [Except.ok.injEq, Option.some.injEq] at h
    exact .inr ⟨_, h.symm⟩
  · rcases hadd : now.add? importedAtFutureTolerance with _ | latest <;> rw [hadd] at h
    · cases h
    · by_cases hlt : latest < parsed
      · simp only [if_pos hlt, Except.ok.injEq, Option.some.injEq] at h
        exact .inl h.symm
      · simp only [if_neg hlt, Except.ok.injEq, reduceCtorEq] at h

/-- What the reader makes of a stored credential is never another credential. -/
lemma eq_of_parseAuth_authPayload {auth auth' : StoredAuth} {now : Datetime}
    (h : parseAuth (authPayload auth) now = .ok (.loaded auth')) : auth' = auth := by
  rw [parseAuth_authPayload] at h
  by_cases hid : auth.revision ≠ "" ∧ auth.baseUrl ≠ "" ∧ auth.importedAt ≠ ""
  · rw [if_pos hid] at h
    rcases hcheck : validateImportedAt auth.importedAt now with e | ⟨_ | refused⟩ <;>
      rw [hcheck] at h
    · cases h
    · simp only [Except.map, Except.ok.injEq, AuthLoadResult.loaded.injEq] at h
      exact h.symm
    · rcases refused_of_validateImportedAt hcheck with rfl | ⟨_, rfl⟩ <;> cases h
  · rw [if_neg hid] at h
    cases h

/-! ### The outbox -/

/-- Whether the reader accepts a record. -/
def OutcomeOutboxRecord.Valid (record : OutcomeOutboxRecord) : Prop :=
  record.eventKey ≠ "" ∧ eventKeyMatches record.eventKey record.outcome = true

/-- Whether the reader accepts a list of records. -/
structure OutboxConsistent (records : List OutcomeOutboxRecord) : Prop where
  valid : ∀ record ∈ records, record.Valid
  distinct : (records.map OutcomeOutboxRecord.eventKey).Nodup

lemma parseOutboxRecord_payload {record : OutcomeOutboxRecord} (h : record.Valid) :
    parseOutboxRecord (.obj [("outcome", .str record.outcome.text),
      ("event_key", .str record.eventKey)]) = .ok (some record) := by
  have hknown : rawMemberOf (.str record.outcome.text) ["rotated", "rejected", "outcome_unknown"] =
      .ok true := by
    cases record.outcome <;> rfl
  have hkey : Json.lookup "event_key" [("outcome", .str record.outcome.text),
      ("event_key", .str record.eventKey)] = .str record.eventKey := rfl
  have houtcome : Json.lookup "outcome" [("outcome", .str record.outcome.text),
      ("event_key", .str record.eventKey)] = .str record.outcome.text := rfl
  simp only [parseOutboxRecord, hkey, houtcome, Json.str?_str, if_neg h.1, hknown, bind,
    Except.bind, Option.bind_some, parseOutcome_text, if_pos h.2]
  rfl

lemma valid_of_parseOutboxRecord {raw : Json} {record : OutcomeOutboxRecord}
    (h : parseOutboxRecord raw = .ok (some record)) : record.Valid := by
  unfold parseOutboxRecord at h
  split at h
  · next payload =>
    split at h
    · cases h
    · split_ifs at h with hne
      · cases h
      rcases hraw : rawMemberOf (Json.lookup "outcome" payload)
        ["rotated", "rejected", "outcome_unknown"] with e | known <;>
        simp only [hraw, bind, Except.bind] at h
      · cases h
      · split at h
        · split_ifs at h with hmatch
          · cases h; exact ⟨hne, hmatch⟩
          · cases h
        · cases h
  · cases h

/-- The records of a payload are read back onto the ones before them. -/
lemma parseOutboxRecords_payload {done records : List OutcomeOutboxRecord}
    (h : OutboxConsistent (done ++ records)) :
    parseOutboxRecords done (records.map fun record =>
      .obj [("outcome", .str record.outcome.text), ("event_key", .str record.eventKey)]) =
      .ok (.loaded (done ++ records)) := by
  induction records generalizing done with
  | nil => simp [parseOutboxRecords]
  | cons record records ih =>
    have hvalid : record.Valid := h.valid record (by simp)
    have hfresh : (done.any fun existing => existing.eventKey = record.eventKey) = false := by
      have hnodup := h.distinct
      rw [List.map_append, List.map_cons, List.nodup_append] at hnodup
      rw [List.any_eq_false]
      intro existing hmem heq
      exact hnodup.2.2 existing.eventKey (List.mem_map_of_mem hmem) record.eventKey (by simp)
        (of_decide_eq_true heq)
    rw [List.append_cons] at h
    simp only [List.map_cons, parseOutboxRecords, parseOutboxRecord_payload hvalid, bind,
      Except.bind, hfresh]
    simpa using ih h

/-- A consistent outbox is read back. -/
theorem parseOutbox_outboxPayload {records : List OutcomeOutboxRecord}
    (h : OutboxConsistent records) :
    parseOutbox (outboxPayload records) = .ok (.loaded records) := by
  have := @parseOutboxRecords_payload [] records h
  simpa [parseOutbox, outboxPayload, Json.lookup] using this

lemma consistent_of_parseOutboxRecords {done records : List OutcomeOutboxRecord} {raw : List Json}
    (hdone : OutboxConsistent done)
    (h : parseOutboxRecords done raw = .ok (.loaded records)) : OutboxConsistent records := by
  induction raw generalizing done with
  | nil =>
    simp only [parseOutboxRecords, Except.ok.injEq, OutcomeOutboxLoadResult.loaded.injEq] at h
    exact h ▸ hdone
  | cons value raw ih =>
    rcases hvalue : parseOutboxRecord value with e | ⟨_ | record⟩ <;>
      simp only [parseOutboxRecords, hvalue, bind, Except.bind] at h
    · cases h
    · cases h
    · split_ifs at h with hfresh
      · cases h
      refine ih ⟨?_, ?_⟩ h
      · intro other hother
        rcases List.mem_append.1 hother with hmem | hmem
        · exact hdone.valid other hmem
        · exact (List.mem_singleton.1 hmem) ▸ valid_of_parseOutboxRecord hvalue
      · rw [List.map_append, List.nodup_append]
        refine ⟨hdone.distinct, by simp, ?_⟩
        intro key hkey other hother heq
        obtain ⟨existing, hmem, rfl⟩ := List.mem_map.1 hkey
        simp only [List.map_cons, List.map_nil, List.mem_singleton] at hother
        exact hfresh (List.any_eq_true.2 ⟨existing, hmem, by simp [heq, hother]⟩)

/-- Whatever outbox the reader loads is consistent. -/
theorem consistent_of_parseOutbox {payload : Json} {records : List OutcomeOutboxRecord}
    (h : parseOutbox payload = .ok (.loaded records)) : OutboxConsistent records := by
  unfold parseOutbox at h
  split at h
  · split_ifs at h
    · split at h
      · exact consistent_of_parseOutboxRecords ⟨by simp, by simp⟩ h
      · cases h
    · cases h
  · cases h

def outboxRecord (state : TerminalState) : OutcomeOutboxRecord := ⟨state.outcome, state.eventKey⟩

/-- The record of a terminal state is one the reader accepts. -/
lemma outboxRecord_valid (state : TerminalState) : (outboxRecord state).Valid := by
  have htext : state.eventKey =
      "auth-rotation:" ++ (state.sourceRevision ++ (":" ++ state.outcome.text)) :=
    (String.append_assoc ..).trans (String.append_assoc ..)
  have hkey : state.eventKey.toList = "auth-rotation:".toList ++
      (state.sourceRevision.toList ++ (":" ++ state.outcome.text).toList) :=
    (congrArg String.toList htext).trans
      ((String.toList_append ..).trans (congrArg _ (String.toList_append ..)))
  refine ⟨fun h => ?_, ?_⟩
  · have hnil : state.eventKey.toList = [] := congrArg String.toList h
    have happend := hkey.symm.trans hnil
    exact absurd (List.append_eq_nil_iff.1 happend).1 (by decide)
  · have hprefix : "auth-rotation:".toList <+: state.eventKey.toList := ⟨_, hkey.symm⟩
    have hsuffix : (":" ++ state.outcome.text).toList <:+ state.eventKey.toList :=
      ⟨_, (List.append_assoc _ _ _).trans hkey.symm⟩
    exact Bool.and_eq_true_iff.2
      ⟨List.isPrefixOf_iff_prefix.2 hprefix, List.isSuffixOf_iff_suffix.2 hsuffix⟩

end EnjiGuard.AuthSession
