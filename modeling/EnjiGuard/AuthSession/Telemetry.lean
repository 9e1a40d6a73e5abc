import EnjiGuard.AuthSession.Coordinator.Twins
import EnjiGuard.AuthSession.Coordinator.Healthy
import EnjiGuard.AuthSession.Readable
import EnjiGuard.AuthSession.Healing

/-!
# Refreshes with and without an event sink

A refresh with an event sink ends as one without, whatever the storage does, under one condition:
the diagnostics it prepares on the way can be prepared. They are prepared outside of the handler
that contains the sink, so where one of them raises the outcome of the exchange is lost.
-/

namespace EnjiGuard.AuthSession

open Foundation Action

variable {codec : CookieCodec} {env : Env} {now : Nat → Datetime} {source : StoredAuth}
  {response : Option EnjiHttpResponse} {replacement : Option String} {r r' : Run}

/-! ### Preparing diagnostics -/

/-- After diagnostics: one more look at the journal and one more reading of the clock. -/
def Run.diagnosed (r : Run) : Run :=
  { r with cursor := { r.cursor.countRead .observation with now := r.cursor.now + 1 } }

/-- Diagnostics whose journal and response can be looked at. -/
lemma emitRefreshObservation_apply (hsink : env.eventSink = true)
    (hjournal : ∃ loaded, journalOf r.world.journal = .ok loaded)
    (hclass : ∀ observed, response = some observed →
      ∃ text, normalizedResponseClass observed = .ok text) :
    emitRefreshObservation codec env source response replacement r =
      (match refreshDiagnosticFields codec source replacement (env.now r.cursor.now) with
        | .ok _ => .ok ()
        | .error e => .raised e, r.diagnosed) := by
  obtain ⟨loaded, hloaded⟩ := hjournal
  have hread : ∃ found, loadJournalFor env .observation r =
      (.ok found, { r with cursor := r.cursor.countRead .observation }) := by
    rcases hfault : env.readFault .observation (r.cursor.reads .observation) with _ | detail
    · refine ⟨loaded, ?_⟩
      have htext : readText env .observation r =
          (.ok (.ok r.world.journal), { r with cursor := r.cursor.countRead .observation }) := by
        simp only [readText, hfault]
        rfl
      rw [loadJournalFor, bind_of_ok htext]
      simp only [hloaded]
      rfl
    · refine ⟨.ioFailure "read refresh journal" detail, ?_⟩
      have htext : readText env .observation r =
          (.ok (.error detail), { r with cursor := r.cursor.countRead .observation }) := by
        simp only [readText, hfault]
      rw [loadJournalFor, bind_of_ok htext]
      rfl
  obtain ⟨found, hfound⟩ := hread
  have hfields : ∀ r' : Run, r'.cursor.now = r.cursor.now → (do
      let now ← nowFn env
      let _ ← ofExcept (refreshDiagnosticFields codec source replacement now)
      return () : Auth Unit) r' =
        (match refreshDiagnosticFields codec source replacement (env.now r.cursor.now) with
          | .ok _ => .ok ()
          | .error e => .raised e, { r' with cursor := { r'.cursor with now := r.cursor.now + 1 } })
      := by
    intro r' hnow
    have hclock : nowFn env r' = (.ok (env.now r.cursor.now),
        { r' with cursor := { r'.cursor with now := r.cursor.now + 1 } }) := by
      simp only [nowFn, hnow]
    rw [bind_of_ok hclock]
    rcases refreshDiagnosticFields codec source replacement (env.now r.cursor.now) with e | fields
    · rfl
    · rfl
  simp only [emitRefreshObservation, deliverEvent_eq, hsink, Bool.not_true, Bool.false_eq_true,
    if_false]
  rw [bind_of_ok hfound]
  cases response with
  | none => exact hfields _ rfl
  | some observed =>
    obtain ⟨text, htext⟩ := hclass observed rfl
    simp only [htext]
    exact hfields _ rfl

/-- Diagnostics that can be prepared do not disturb a run. -/
lemma couples_emitRefreshObservation {K K' : Nat → Nat → Prop} {X : PyError → PyError → Prop}
    (hsink : env.eventSink = true)
    (hobservable : Observable codec env r.world source response replacement
      (env.now r.cursor.now))
    (hK : K' (r.cursor.now + 1) r'.cursor.now) (h : Run.Twins K r r') :
    Couples (Run.Twins K') X (emitRefreshObservation codec env source response replacement)
      (emitRefreshObservation codec (env.plain now) source response replacement) r r' := by
  obtain ⟨hjournal, hclass, fields, hfields⟩ := hobservable hsink
  have hrun : emitRefreshObservation codec env source response replacement r = _ :=
    emitRefreshObservation_apply hsink hjournal hclass
  rw [hfields] at hrun
  refine Couples.resume (f := Action.ret ()) (g := Action.ret ()) hrun ?_
    (Couples.ret { h with clock := hK } : Couples _ _ _ _ r.diagnosed r')
  simp only [emitRefreshObservation, Env.plain]
  rfl

/-! ### Unknown outcomes -/

/-- An attempt the commit of a source may go on from: the one of its journal or, when the journal
cannot be read, a fresh one. -/
def Candidate (w : World) (source : String) (found : RotationAttempt) : Prop :=
  found = attemptOfJournal source .absent ∨
    ∃ loaded, journalOf w.journal = .ok loaded ∧ found = attemptOfJournal source loaded

/-- The commit of an unknown outcome gets to its record: its source is still the stored revision,
and the times of an attempt it may go on from are representable. -/
structure Reaches (env : Env) (r : Run) (revision : String) (lane : RecoveryLane) : Prop where
  current : ∃ auth, authOf (env.wall r.cursor.wall) r.world.credential = .ok (.loaded auth) ∧
    auth.revision = revision
  attempt : ∃ found, Candidate r.world revision found ∧ Schedulable env r.cursor.now found lane

/-- What follows the record of an unknown outcome. -/
def finishUnknown (codec : CookieCodec) (env : Env) (source : StoredAuth) (reason : String)
    (observation : Option EnjiHttpResponse) (attempt : RotationAttempt) :
    Auth (StoredAuth ⊕ Option Continuation) :=
  match observation with
  | none => do
    recordTerminalOutcome env (.outcomeUnknown source.revision reason) attempt false
    return Sum.inr attempt.continuation
  | some response => do
    emitRefreshObservation codec env source (some response) none
    recordTerminalOutcome env (.outcomeUnknown source.revision reason) attempt false
    return Sum.inr attempt.continuation

/-- The record of an unknown outcome was written. -/
structure UnknownRecorded (env : Env) (r : Run) (source : String) (reason : String)
    (lane : RecoveryLane) (attempt : RotationAttempt) (r₁ : Run) : Prop where
  reaches : Reaches env r source lane
  scheduled : ∃ found deadline clock scheduled,
    withContinuation found lane deadline clock = .ok scheduled ∧
      ∃ responseClass, attempt = { scheduled with responseClass := responseClass }
  world : ∃ clock, r₁.world =
    r.world.setJournal (.terminal (.outcomeUnknown source reason)) false attempt clock
  now : r₁.cursor.now = r.cursor.now + 2

/-- What a look at the stored revision shows. -/
lemma concludes_isSuperseded {revision : String} :
    Concludes env.faults (isSuperseded env revision) r
      (fun superseded r' => r.Left r.world r' ∧ (superseded = false → ∃ auth,
        authOf (env.wall r.cursor.wall) r.world.credential = .ok (.loaded auth) ∧
          auth.revision = revision)) fun _ _ => True := by
  refine ((concludes_loadAuth env).weaken (fun _ _ h => h) fun _ _ _ => trivial).bind
    fun loaded r₁ h₁ => Concludes.pure ⟨h₁.1, fun hcurrent => ?_⟩
  obtain ⟨-, hload | ⟨-, operation, error, rfl⟩⟩ := h₁
  · cases loaded with
    | loaded auth => exact ⟨auth, hload, by simpa [isSupersededResult] using hcurrent⟩
    | _ => simp [isSupersededResult] at hcurrent
  · simp [isSupersededResult] at hcurrent

lemma concludes_attemptForSource {revision : String} :
    Concludes env.faults (attemptForSource env revision) r
      (fun found r' => r.Left r.world r' ∧ Candidate r.world revision found) fun _ _ => True := by
  refine ((concludes_loadJournal env).weaken (fun _ _ h => h) fun _ _ _ => trivial).bind
    fun loaded r₁ h₁ => Concludes.pure ⟨h₁.1, ?_⟩
  obtain ⟨-, hload | ⟨-, operation, error, rfl⟩⟩ := h₁
  · exact .inr ⟨loaded, hload, rfl⟩
  · exact .inl rfl

/-- What an action that returned concludes. -/
lemma Concludes.of_eq {α : Type} {F : Faults PyError} {p : Auth α} {Q : α → Run → Prop}
    {E : PyError → Run → Prop} {a : α} (hp : Concludes F p r Q E) (h : p r = (.ok a, r')) :
    Q a r' := by
  have hreturns := hp.returns a (congrArg Prod.fst h)
  rw [h] at hreturns
  exact hreturns

lemma ofExcept_eq {α : Type} {x : Except PyError α} {a : α}
    (h : (ofExcept x : Auth α) r = (.ok a, r')) : x = .ok a ∧ r' = r := by
  rcases x with e | b <;> cases h
  exact ⟨rfl, rfl⟩

/-- Two commits of an unknown outcome end alike when what follows their record does. -/
lemma couples_commitUnknown {K : Nat → Nat → Prop} {R : Run → Run → Prop}
    {X : PyError → PyError → Prop} {reason : String} {lane : RecoveryLane}
    (hK : Synchronous env now K) (hX : ∀ e, X e e) (hR : ∀ r r', Run.Twins K r r' → R r r')
    (hunlock : ∀ r r', R r r' →
      Couples R X (trigger env "unlock") (trigger (env.plain now) "unlock") r r')
    (hfinish : ∀ attempt r₁ r₁', UnknownRecorded env r source.revision reason lane attempt r₁ →
      (∃ responseClass, observedClass response = .ok responseClass) → Run.Twins K r₁ r₁' →
      Couples R X (finishUnknown codec env source reason response attempt)
        (finishUnknown codec (env.plain now) source reason response attempt) r₁ r₁')
    (h : Run.Twins K r r') :
    Couples R X (commitUnknown codec env source reason lane response)
      (commitUnknown codec (env.plain now) source reason lane response) r r' := by
  refine Couples.bind (couples_locked hX hR hunlock h fun r₁' h₁ => ?_) fun result r₁ r₁' _ h₁ => ?_
  · refine (couples_isSuperseded hX h₁).seq hR fun superseded r₂ r₂' hrun₂ h₂ => ?_
    cases superseded with
    | true =>
      exact (couples_currentOrRaise hX h₂).seq hR fun _ _ _ _ h₃ => Couples.pure (hR _ _ h₃)
    | false =>
      refine (couples_attemptForSource hX h₂).seq hR fun found r₃ r₃' hrun₃ h₃ => ?_
      refine (couples_recoveryDeadline hK hX h₃).seq hR fun deadline r₄ r₄' hrun₄ h₄ => ?_
      refine (couples_nowFn h₄ (hK _ _ h₄.clock).1 (hK _ _ h₄.clock).2).seq hR
        fun clock r₅ r₅' hrun₅ h₅ => ?_
      refine (Couples.ofExcept hX h₅).seq hR fun scheduled r₆ r₆' hrun₆ h₆ => ?_
      refine (Couples.ofExcept hX h₆).seq hR fun responseClass r₇ r₇' hrun₇ h₇ => ?_
      refine (couples_writeJournal hX h₇).seq hR fun _ r₈ r₈' hrun₈ h₈ => ?_
      -- what the first run found on its way to the record
      obtain ⟨hleft₂, hcurrent⟩ := Concludes.of_eq concludes_isSuperseded hrun₂
      obtain ⟨hleft₃, hcandidate⟩ := Concludes.of_eq concludes_attemptForSource hrun₃
      obtain ⟨hworld₄, hnow₄, fresh, hadd, rfl⟩ := Concludes.of_eq concludes_recoveryDeadline hrun₄
      obtain ⟨rfl, hworld₅, hnow₅⟩ := Concludes.of_eq (E := fun _ _ => False)
        (concludes_nowFn env) hrun₅
      obtain ⟨hscheduled, rfl⟩ := ofExcept_eq hrun₆
      obtain ⟨hclass, rfl⟩ := ofExcept_eq hrun₇
      have hleft₈ := Concludes.of_eq (E := fun _ _ => False) concludes_writeJournal hrun₈
      have hworld₃ : r₃.world = r.world := hleft₃.world.trans hleft₂.world
      have hnow₃ : r₃.cursor.now = r.cursor.now := hleft₃.now.trans hleft₂.now
      rw [hnow₃] at hadd hnow₄
      rw [hnow₄] at hscheduled hnow₅
      rw [hleft₂.world] at hcandidate
      refine hfinish { scheduled with responseClass := responseClass } r₈ r₈'
        ⟨⟨hcurrent rfl, found, hcandidate, fresh, hadd, ?_⟩, ?_, ?_, ?_⟩ ⟨_, hclass⟩ h₈
      · exact withContinuation_ok_iff.1 ⟨_, hscheduled⟩
      · exact ⟨found, _, _, scheduled, hscheduled, responseClass, rfl⟩
      · exact ⟨_, by rw [hleft₈.world, hworld₅, hworld₄, hworld₃]⟩
      · rw [hleft₈.now, hnow₅]
  · rcases result with current | _ | _ | _
    · exact Couples.pure h₁
    all_goals exact Couples.raise (hX _) h₁

/-! ### With and without an event sink -/

/-- The same environment with an event sink, and with any failures of the storage. -/
def Env.observed (env : Env) (fault : Nat → String → Fault)
    (readFault : ReadSite → Nat → Option String) : Env :=
  { env with fault := fault, readFault := readFault, eventSink := true }

/-- The clock as a commit without diagnostics reads it; a reading that the diagnostics take first
is left out. -/
def clockWithout (now : Nat → Datetime) (r : Run) : ExchangeResult → Nat → Datetime
  | .response _, n => now n
  | _, n => if n < r.cursor.now then now n else now (n + 1)

/-- Two runs return or raise the same and leave the same files. -/
structure EndsAlike {α : Type} (x y : Outcome CommitError α × Run) : Prop where
  outcome : x.1 = y.1
  credential : x.2.world.credential = y.2.world.credential
  journal : x.2.world.journal = y.2.world.journal
  outbox : x.2.world.outbox = y.2.world.outbox

/-- Whatever the storage does, a commit ends with an event sink as it ends without. -/
def Unaffected (codec : CookieCodec) (env : Env) (source : StoredAuth) (result : ExchangeResult)
    (r : Run) : Prop :=
  ∀ fault readFault, EndsAlike
    (commitExchange codec (env.observed fault readFault) source result r)
    (commitExchange codec
      ((env.observed fault readFault).plain (clockWithout env.now r result)) source result r)

/-- The diagnostics of an exchange can be prepared. -/
def Diagnosable (codec : CookieCodec) (w : World) (source : StoredAuth)
    (replacement : Option String) (now : Datetime) : Prop :=
  (∃ loaded, journalOf w.journal = .ok loaded) ∧
    ∃ fields, refreshDiagnosticFields codec source replacement now = .ok fields

/-- The diagnostics of a commit cannot get in its way. -/
def Unobtrusive (codec : CookieCodec) (env : Env) (source : StoredAuth) (r : Run) :
    ExchangeResult → Prop
  | .failed _ => True
  | .response response =>
    match successfulReplacement codec env source response r with
    | (.ok (some merged), r₁) =>
      Diagnosable codec r₁.world source (some merged) (env.now r₁.cursor.now)
    | (.ok none, r₁) =>
      match responseContinuation response with
      | .ok .stop => Diagnosable codec r₁.world source none (env.now r₁.cursor.now)
      -- here the diagnostics come after the journal has been written
      | .ok (.lane lane) => Reaches env r₁ source.revision lane → ∀ e,
          refreshDiagnosticFields codec source none (env.now r₁.cursor.now) = .error e →
          e.isOsError = true ∧ r₁.world.OutboxParses ∧ ¬ r₁.world.OutboxReady
      | .error _ => True
    | _ => True
  | _ => Diagnosable codec r.world source none (env.now r.cursor.now)

/-! ### Why diagnostics fail -/

/-- A token raises errors of the time conversion only. -/
lemma jwtExpiresAt_error {token : String} {e : PyError} (h : jwtExpiresAt codec token = .error e) :
    e.isOsError = true ∨ e.isTyped = false := by
  have htimestamp : ∀ {seconds micros}, datetimeOfTimestamp seconds micros = .error e →
      e.isOsError = true ∨ e.isTyped = false := by
    intro seconds micros h
    unfold datetimeOfTimestamp at h
    split_ifs at h
    · cases h
      exact .inr rfl
    · cases h
      exact .inl rfl
    · split at h <;> cases h
      exact .inr rfl
  have hmap : ∀ {x : Except PyError Datetime}, x.map some = .error e → x = .error e := by
    rintro (e' | t) h <;> cases h
    rfl
  unfold jwtExpiresAt at h
  split at h
  · split at h
    · unfold fromTimestamp at h
      split at h
      · exact htimestamp (hmap h)
      · exact htimestamp (hmap h)
      · cases h
        exact .inr rfl
      · cases h
        exact .inr rfl
      · cases h
    · cases h
  · cases h

/-- What the diagnostics are made of: when the access token expires, and whether the refresh token
changed. -/
def diagnosticParts (codec : CookieCodec) (source : StoredAuth) (replacement : Option String) :
    Except PyError (Option Datetime × Option Bool) :=
  match source.credential with
  | .bearerToken _ => .ok (none, none)
  | .cookie header => do
    let accessToken ← cookieValue codec header "access_token"
    let accessExpiry ← accessToken.elim (.ok none) (jwtExpiresAt codec)
    match replacement with
    | none => return (accessExpiry, none)
    | some replacement => do
      let sourceRefresh ← cookieValue codec header "refresh_token"
      let replacementRefresh ← cookieValue codec replacement "refresh_token"
      return (accessExpiry,
        sourceRefresh.bind fun a => replacementRefresh.map fun b => decide (a ≠ b))

/-- The time only matters to how the parts are rendered. -/
lemma exists_refreshDiagnosticFields (codec : CookieCodec) (source : StoredAuth)
    (replacement : Option String) : ∃ render : Datetime → _ → List (String × Json), ∀ t,
    refreshDiagnosticFields codec source replacement t =
      (diagnosticParts codec source replacement).map (render t) := by
  refine ⟨fun t parts => (parts.1.map fun expiry => ("access_expires_in_seconds",
      Json.int (Int.tdiv (expiry.sub t) 1000000))).toList ++
    (parts.2.map fun changed => ("refresh_token_changed", Json.bool changed)).toList, fun t => ?_⟩
  unfold refreshDiagnosticFields diagnosticParts
  rcases source.credential with header | token
  · dsimp only
    rcases cookieValue codec header "access_token" with e | _ | token
    · rfl
    · rcases replacement with _ | replacement
      · rfl
      dsimp only [bind, Except.bind, Option.elim]
      rcases cookieValue codec header "refresh_token" with e | a
      · rfl
      rcases cookieValue codec replacement "refresh_token" with e | b
      · rfl
      rcases a with _ | a <;> rcases b with _ | b <;> rfl
    · dsimp only [bind, Except.bind, Option.elim]
      rcases jwtExpiresAt codec token with e | expiry
      · rfl
      rcases replacement with _ | replacement
      · rcases expiry with _ | expiry <;> rfl
      dsimp only
      rcases cookieValue codec header "refresh_token" with e | a
      · rfl
      rcases cookieValue codec replacement "refresh_token" with e | b
      · rfl
      rcases expiry with _ | expiry <;> rcases a with _ | a <;> rcases b with _ | b <;> rfl
  · rfl

lemma exists_refreshDiagnosticFields_iff {t : Datetime} :
    (∃ fields, refreshDiagnosticFields codec source replacement t = .ok fields) ↔
      ∃ parts, diagnosticParts codec source replacement = .ok parts := by
  obtain ⟨render, hrender⟩ := exists_refreshDiagnosticFields codec source replacement
  rw [hrender]
  cases diagnosticParts codec source replacement with
  | ok parts => exact iff_of_true ⟨_, rfl⟩ ⟨_, rfl⟩
  | error e => exact iff_of_false (by rintro ⟨_, ⟨⟩⟩) (by rintro ⟨_, ⟨⟩⟩)

lemma diagnosticParts_error {e : PyError}
    (h : diagnosticParts codec source replacement = .error e) :
    e.isOsError = true ∨ e.isTyped = false := by
  have hcookie : ∀ {header name}, cookieValue codec header name = .error e →
      e.isOsError = true ∨ e.isTyped = false := by
    intro header name h
    unfold cookieValue at h
    split at h <;> cases h
    exact .inr rfl
  unfold diagnosticParts at h
  split at h
  · cases h
  · next header _ =>
    rcases haccess : cookieValue codec header "access_token" with e₁ | token <;>
      simp only [haccess, bind, Except.bind] at h
    · cases h
      exact hcookie haccess
    rcases hexpiry : token.elim (.ok none) (jwtExpiresAt codec) with e₁ | expiry <;>
      simp only [hexpiry] at h
    · cases h
      rcases token with _ | token
      · cases hexpiry
      · exact jwtExpiresAt_error hexpiry
    split at h
    · cases h
    · next replacement =>
      rcases hold : cookieValue codec header "refresh_token" with e₁ | a <;>
        simp only [hold] at h
      · cases h
        exact hcookie hold
      rcases hnew : cookieValue codec replacement "refresh_token" with e₁ | b <;>
        simp only [hnew] at h
      · cases h
        exact hcookie hnew
      · cases h

/-- What the preparation of diagnostics raises does not depend on the time. -/
lemma refreshDiagnosticFields_error {t : Datetime} {e : PyError}
    (h : refreshDiagnosticFields codec source replacement t = .error e) :
    (∀ t', refreshDiagnosticFields codec source replacement t' = .error e) ∧
      (e.isOsError = true ∨ e.isTyped = false) := by
  obtain ⟨render, hrender⟩ := exists_refreshDiagnosticFields codec source replacement
  rw [hrender] at h
  rcases hparts : diagnosticParts codec source replacement with e' | parts <;>
    rw [hparts] at h <;> cases h
  refine ⟨fun t' => ?_, diagnosticParts_error hparts⟩
  rw [hrender, hparts]
  rfl

/-! ### Runs that end alike -/

/-- Two runs agree on the files and on the storage operations used. -/
structure Run.Level (r r' : Run) : Prop where
  credential : r.world.credential = r'.world.credential
  journal : r.world.journal = r'.world.journal
  outbox : r.world.outbox = r'.world.outbox
  faults : r.cursor.faults = r'.cursor.faults

lemma Run.Level.refl (r : Run) : r.Level r := ⟨rfl, rfl, rfl, rfl⟩

lemma Run.Twins.level {K : Nat → Nat → Prop} (h : Run.Twins K r r') : r.Level r' :=
  ⟨h.credential, h.journal, h.outbox, h.faults⟩

/-- Errors a commit does not tell apart. -/
def Confused (e e' : PyError) : Prop := e = e' ∨ e.isOsError = true ∧ e'.isOsError = true

/-- Errors of a commit that are the same but for errors it does not tell apart. -/
def ConfusedCommit (c c' : CommitError) : Prop :=
  c = c' ∨ ∃ e e', c = .plain e ∧ c' = .plain e' ∧ Confused e e'

section Alike

variable {α : Type} {K : Nat → Nat → Prop} {R : Run → Run → Prop} {p q : Auth α}

lemma couples_plain {X : PyError → PyError → Prop} {Y : CommitError → CommitError → Prop}
    (hXY : ∀ e e', X e e' → Y (.plain e) (.plain e')) (h : Couples R X p q r r') :
    Couples R Y (Auth.plain p) (Auth.plain q) r r' :=
  Couples.tryCatch h fun _ _ _ _ he h => Couples.raise (hXY _ _ he) h

lemma couples_unlock (hX : ∀ e, Confused e e) (h : r.Level r') :
    Couples Run.Level Confused (trigger env "unlock") (trigger (env.plain now) "unlock") r r' := by
  unfold Couples
  simp only [trigger, Env.plain]
  rw [← h.faults]
  rcases env.fault r.cursor.faults "unlock" with _ | detail | _
  · exact .returned () { h with faults := by rw [h.faults] }
  · exact .raised (hX _) { h with faults := by rw [h.faults] }
  · exact .crashed { h with faults := by rw [h.faults] }

/-- Runs that are coupled end alike. -/
lemma endsAlike_of_couples {p q : Commit α} (hR : ∀ r r', R r r' → r.Level r')
    (h : Couples R Eq p q r r') : EndsAlike (p r) (q r') := by
  obtain ⟨houtcome, hfiles⟩ := h.outcome_eq
  have hlevel := hR _ _ hfiles
  exact ⟨houtcome, hlevel.credential, hlevel.journal, hlevel.outbox⟩

lemma eq_of_plain {a : α} (h : Auth.plain p r = (.ok a, r')) : p r = (.ok a, r') := by
  rw [Auth.plain, tryCatch_apply] at h
  rcases hp : p r with ⟨b | e | _, r₁⟩ <;> rw [hp] at h <;> cases h
  rfl

end Alike

/-! ### Commits that are not disturbed -/

section Undisturbed

variable {fault : Nat → String → Fault} {readFault : ReadSite → Nat → Option String}
  {observed : EnjiHttpResponse}

/-- A record of an outcome whose outbox is no list of records fails as the storage does. -/
lemma recordTerminalOutcome_of_not_ready {t : TerminalState} {attempt : RotationAttempt}
    (hparses : r.world.OutboxParses) (hnot : ¬ r.world.OutboxReady) :
    ∃ detail, recordTerminalOutcome env t attempt false r =
      (.raised (.osError detail), { r with cursor := r.cursor.countRead .outbox }) := by
  obtain ⟨loaded, hloaded⟩ := hparses
  have hread : ∃ found, (∃ detail, outboxRecordsOrRaise found = .error (.osError detail)) ∧
      loadOutbox env r = (.ok found, { r with cursor := r.cursor.countRead .outbox }) := by
    rcases hfault : env.readFault .outbox (r.cursor.reads .outbox) with _ | detail
    · have htext : readText env .outbox r =
          (.ok (.ok r.world.outbox), { r with cursor := r.cursor.countRead .outbox }) := by
        simp only [readText, hfault]
        rfl
      refine ⟨loaded, ?_⟩
      have hrun : loadOutbox env r =
          (.ok loaded, { r with cursor := r.cursor.countRead .outbox }) := by
        rw [loadOutbox, bind_of_ok htext]
        simp only [hloaded]
        rfl
      cases loaded with
      | absent =>
        rcases hfile : r.world.outbox with _ | _ | detail | typeName | payload <;>
          rw [hfile] at hloaded
        · exact absurd ⟨[], .inr ⟨hfile, rfl⟩⟩ hnot
        · cases hloaded
        · cases hloaded
        · cases hloaded
        · exact absurd hloaded (parseOutbox_ne_absent payload)
      | loaded records => exact absurd ⟨records, .inl hloaded⟩ hnot
      | corrupt detail => exact ⟨⟨_, rfl⟩, hrun⟩
      | ioFailure operation error => exact ⟨⟨_, rfl⟩, hrun⟩
    · have htext : readText env .outbox r =
          (.ok (.error detail), { r with cursor := r.cursor.countRead .outbox }) := by
        simp only [readText, hfault]
      refine ⟨.ioFailure "read outcome outbox" detail, ⟨_, rfl⟩, ?_⟩
      rw [loadOutbox, bind_of_ok htext]
      rfl
  obtain ⟨found, ⟨detail, hrefused⟩, hfound⟩ := hread
  refine ⟨detail, ?_⟩
  have henqueue : enqueueOutcome env (outboxRecord t) r =
      (.raised (.osError detail), { r with cursor := r.cursor.countRead .outbox }) := by
    rw [enqueueOutcome, bind_of_ok hfound, hrefused]
    rfl
  simp only [recordTerminalOutcome, Bool.false_eq_true, if_false]
  rw [bind_of_raised henqueue]

/-- After a record of an unknown outcome the journal can be looked at. -/
lemma UnknownRecorded.journal {revision reason : String} {lane : RecoveryLane}
    {attempt : RotationAttempt} {r₁ : Run}
    (h : UnknownRecorded env r revision reason lane attempt r₁) :
    ∃ loaded, journalOf r₁.world.journal = .ok loaded := by
  obtain ⟨found, deadline, clock, scheduled, hscheduled, responseClass, rfl⟩ := h.scheduled
  obtain ⟨reading, hworld⟩ := h.world
  obtain ⟨howner, hlane, hstopped, hidle⟩ : Consistent (.terminal (.outcomeUnknown revision reason))
    scheduled := .of_withContinuation hscheduled
  have hcheck := (@attemptStateError_eq_none_iff (.terminal (.outcomeUnknown revision reason))
    { scheduled with responseClass := responseClass }).2 ⟨howner, hlane, hstopped, hidle⟩
  rw [hworld]
  change ∃ loaded, parseJournal (journalPayload _ _ _) = .ok loaded
  rw [parseJournal_journalPayload, hcheck]
  split_ifs <;> exact ⟨_, rfl⟩

/-- What follows the record of an unknown outcome is not disturbed by diagnostics that can be
prepared, nor by ones that fail as the outbox does. -/
lemma couples_finishUnknown {K : Nat → Nat → Prop} {reason : String} {lane : RecoveryLane}
    {attempt : RotationAttempt} {r₁ r₁' : Run}
    (hrecorded : UnknownRecorded (env.observed fault readFault) r source.revision reason lane
      attempt r₁)
    (hclass : ∃ text, normalizedResponseClass observed = .ok text)
    (hharmless : ∀ e, refreshDiagnosticFields codec source none (env.now r.cursor.now) = .error e →
      e.isOsError = true ∧ r.world.OutboxParses ∧ ¬ r.world.OutboxReady)
    (h : Run.Twins K r₁ r₁') :
    Couples Run.Level Confused
      (finishUnknown codec (env.observed fault readFault) source reason (some observed) attempt)
      (finishUnknown codec ((env.observed fault readFault).plain now) source reason (some observed)
        attempt) r₁ r₁' := by
  have hX : ∀ e, Confused e e := fun e => .inl rfl
  have hjournal := hrecorded.journal
  have hclass' : ∀ found, some observed = some found →
      ∃ text, normalizedResponseClass found = .ok text := by
    rintro found ⟨⟩
    exact hclass
  rcases hfields : refreshDiagnosticFields codec source none (env.now r₁.cursor.now) with e | fields
  · obtain ⟨hos, hparses, hnot⟩ := hharmless e ((refreshDiagnosticFields_error hfields).1 _)
    obtain ⟨clock, hworld⟩ := hrecorded.world
    have houtbox : r₁'.world.outbox = r.world.outbox := by
      rw [← h.outbox, hworld]
      rfl
    obtain ⟨detail, hrecord⟩ := @recordTerminalOutcome_of_not_ready _ r₁'
      (.outcomeUnknown source.revision reason) attempt
      ((World.outboxParses_congr houtbox).2 hparses)
      (fun hready => hnot ((World.outboxReady_congr houtbox).1 hready))
    have hemit : emitRefreshObservation codec (env.observed fault readFault) source (some observed)
        none r₁ = (.raised e, r₁.diagnosed) := by
      rw [emitRefreshObservation_apply rfl hjournal hclass']
      simp only [Env.observed, hfields]
    have hplain : emitRefreshObservation codec ((env.observed fault readFault).plain now) source
        (some observed) none r₁' = (.ok (), r₁') := rfl
    exact Couples.resume (f := Action.raise e) (g := Action.raise (.osError detail))
      (bind_of_raised hemit) ((bind_of_ok hplain).trans (bind_of_raised hrecord))
      (Couples.raise (.inr ⟨hos, rfl⟩) ⟨h.credential, h.journal, h.outbox, h.faults⟩)
  · have hemit : Couples (Run.Twins fun _ _ => True) Confused
        (emitRefreshObservation codec (env.observed fault readFault) source (some observed) none)
        (emitRefreshObservation codec ((env.observed fault readFault).plain now) source
          (some observed) none) r₁ r₁' :=
      couples_emitRefreshObservation rfl (fun _ => ⟨hjournal, hclass', fields, hfields⟩) trivial h
    refine Couples.weaken (R := Run.Twins fun _ _ => True) (X := Confused) ?_
      (fun _ _ h => h.level) fun _ _ he => he
    exact hemit.bind fun _ r₂ r₂' _ h₂ => (couples_recordTerminalOutcome hX h₂).bind
      fun _ r₃ r₃' _ h₃ => Couples.pure h₃

/-- Diagnostics that can be prepared do not disturb the commit of a successor. -/
lemma couples_commitSuccess {K : Nat → Nat → Prop} {merged : String}
    (hdiagnosable : Diagnosable codec r.world source (some merged) (env.now r.cursor.now))
    (hclass : ∃ text, normalizedResponseClass observed = .ok text) (h : Run.Twins K r r') :
    Couples Run.Level Eq
      (commitSuccess codec (env.observed fault readFault) source merged observed)
      (commitSuccess codec ((env.observed fault readFault).plain now) source merged observed)
      r r' := by
  have heq : ∀ e e' : PyError, e = e' → CommitError.plain e = .plain e' := fun _ _ => congrArg _
  have hX : ∀ e : PyError, e = e := fun _ => rfl
  have hR : ∀ {L : Nat → Nat → Prop} (r r' : Run), Run.Twins L r r' → r.Level r' :=
    fun _ _ h => h.level
  refine (couples_plain heq (couples_mintRevision h)).seq hR fun successor r₁ r₁' hrun₁ h₁ => ?_
  have htransition : Couples (Run.Twins K) Eq
      (transitionOrRaise (.journaled (.requested source.revision))
        (.exchangeSucceeded merged successor))
      (transitionOrRaise (.journaled (.requested source.revision))
        (.exchangeSucceeded merged successor)) r₁ r₁' := Couples.pure h₁
  refine (couples_plain heq htransition).seq hR fun state r₂ r₂' hrun₂ h₂ => ?_
  obtain ⟨rfl, hworld, hnow⟩ : state = .journaled (.terminal (.rotated source.revision merged
      successor)) ∧ r₂.world = r.world ∧ r₂.cursor.now = r.cursor.now := by
    cases eq_of_plain hrun₁
    cases eq_of_plain hrun₂
    exact ⟨rfl, rfl, rfl⟩
  rw [← hworld, ← hnow] at hdiagnosable
  have hclass' : ∀ found, some observed = some found →
      ∃ text, normalizedResponseClass found = .ok text := by
    rintro found ⟨⟩
    exact hclass
  have hemit : Couples (Run.Twins fun _ _ => True) Eq
      (emitRefreshObservation codec (env.observed fault readFault) source (some observed)
        (some merged))
      (emitRefreshObservation codec ((env.observed fault readFault).plain now) source
        (some observed) (some merged)) r₂ r₂' :=
    couples_emitRefreshObservation rfl
      (fun _ => ⟨hdiagnosable.1, hclass', hdiagnosable.2⟩) trivial h₂
  refine (couples_plain heq hemit).seq hR fun _ r₃ r₃' _ h₃ => ?_
  refine (couples_plain heq (couples_storedAuth h₃)).seq hR fun stored r₄ r₄' _ h₄ => ?_
  refine Couples.tryCatch ((couples_commitSuccessor hX h₄).weaken hR fun _ _ he => he) ?_
  rintro e _ r₅ r₅' rfl h₅
  split_ifs
  · exact Couples.raise rfl h₅
  · exact Couples.raise rfl h₅

lemma exists_normalizedResponseClass {continuation : Continuation}
    (h : responseContinuation observed = .ok continuation) :
    ∃ text, normalizedResponseClass observed = .ok text := by
  unfold normalizedResponseClass
  rw [h]
  split_ifs <;> exact ⟨_, rfl⟩

/-- Only a response of status 200 carries a successor. -/
lemma statusCode_of_successfulReplacement {merged : String} {r₁ : Run}
    (h : successfulReplacement codec env source observed r = (.ok (some merged), r₁)) :
    observed.statusCode = 200 := by
  by_contra hstatus
  rw [successfulReplacement, if_pos hstatus] at h
  cases h

/-- A commit of a response is disturbed no more than `Unobtrusive` says. -/
lemma couples_commitResponse (h : Unobtrusive codec env source r (.response observed)) :
    Couples Run.Level ConfusedCommit
      (commitResponse codec (env.observed fault readFault) source observed)
      (commitResponse codec ((env.observed fault readFault).plain env.now) source observed)
      r r := by
  have hX : ∀ e, Confused e e := fun e => .inl rfl
  have hplain : ∀ e e', Confused e e' → ConfusedCommit (.plain e) (.plain e') :=
    fun e e' he => .inr ⟨e, e', rfl, rfl, he⟩
  have hR : ∀ {L : Nat → Nat → Prop} (r r' : Run), Run.Twins L r r' → r.Level r' :=
    fun _ _ h => h.level
  unfold commitResponse
  rw [@successfulReplacement_congr codec env source (env.observed fault readFault) rfl,
    @successfulReplacement_congr codec env source
      ((env.observed fault readFault).plain env.now) rfl]
  refine Couples.seq (S := Eq) (Couples.same (fun _ => rfl) fun _ => .inl rfl)
    (by rintro r _ rfl; exact .refl r) fun result r₁ r₁' hrun₁ hsame => ?_
  subst hsame
  have hreplacement := eq_of_plain hrun₁
  simp only [Unobtrusive, hreplacement] at h
  cases result with
  | some merged =>
    have hclass : ∃ text, normalizedResponseClass observed = .ok text := by
      rw [normalizedResponseClass, if_pos (statusCode_of_successfulReplacement hreplacement)]
      exact ⟨_, rfl⟩
    exact (couples_commitSuccess h hclass (Run.Twins.refl (K := Eq) rfl)).weaken
      (fun _ _ h => h) fun _ _ he => .inl he
  | none =>
    refine couples_plain hplain (Couples.seq (S := Run.Twins Eq)
      (Couples.ofExcept hX (Run.Twins.refl rfl)) hR fun continuation r₂ r₂' hrun₂ h₂ => ?_)
    obtain ⟨hcontinuation, rfl⟩ := ofExcept_eq hrun₂
    have hclass := exists_normalizedResponseClass hcontinuation
    rw [hcontinuation] at h
    cases continuation with
    | stop =>
      have hclass' : ∀ found, some observed = some found →
          ∃ text, normalizedResponseClass found = .ok text := by
        rintro found ⟨⟩
        exact hclass
      have hemit : Couples (Run.Twins fun _ _ => True) Confused
          (emitRefreshObservation codec (env.observed fault readFault) source (some observed) none)
          (emitRefreshObservation codec ((env.observed fault readFault).plain env.now) source
            (some observed) none) r₂ r₂' :=
        couples_emitRefreshObservation rfl (fun _ => ⟨h.1, hclass', h.2⟩) trivial h₂
      exact hemit.seq hR fun _ r₃ r₃' _ h₃ =>
        (couples_commitRejected hX h₃).weaken hR fun _ _ he => he
    | lane lane =>
      refine couples_commitUnknown (K := Eq) (fun n n' hn => ⟨congrArg _ hn, congrArg _ hn⟩) hX hR
        (fun _ _ hlevel => couples_unlock hX hlevel)
        (fun attempt r₃ r₃' hrecorded _ h₃ => couples_finishUnknown hrecorded hclass ?_ h₃) h₂
      exact h ⟨hrecorded.reaches.current, hrecorded.reaches.attempt⟩

/-- Clocks that agree but for one reading that only the first run takes. -/
def Ahead (r : Run) (n n' : Nat) : Prop := n = n' + 1 ∧ r.cursor.now ≤ n'

lemma synchronous_clockWithout {result : ExchangeResult}
    (hresult : ∀ response, result ≠ .response response) :
    Synchronous (env.observed fault readFault) (clockWithout env.now r result) (Ahead r) := by
  rintro n n' ⟨rfl, hle⟩
  refine ⟨?_, rfl, Nat.le_succ_of_le hle⟩
  cases result with
  | response observed => exact absurd rfl (hresult observed)
  | _ =>
    rw [clockWithout, if_neg (Nat.not_lt.2 hle)]
    · rfl
    · exact hresult

/-- Diagnostics that can be prepared put the clocks one reading apart. -/
lemma couples_emit_first {result : ExchangeResult}
    (hdiagnosable : Diagnosable codec r.world source none (env.now r.cursor.now)) :
    Couples (Run.Twins (Ahead r)) Eq
      (emitRefreshObservation codec (env.observed fault readFault) source none none)
      (emitRefreshObservation codec
        ((env.observed fault readFault).plain (clockWithout env.now r result)) source none none)
      r r :=
  couples_emitRefreshObservation rfl
    (fun _ => ⟨hdiagnosable.1, by rintro _ ⟨⟩, hdiagnosable.2⟩) ⟨rfl, le_rfl⟩
    (Run.Twins.refl (K := Eq) rfl)

/-- The commit of an exchange without a response, after its diagnostics. -/
lemma couples_commitUnknown_ahead {reason : String} {result : ExchangeResult} {r₁ r₁' : Run}
    (hresult : ∀ response, result ≠ .response response) (h : Run.Twins (Ahead r) r₁ r₁') :
    Couples (Run.Twins (Ahead r)) Eq
      (commitUnknown codec (env.observed fault readFault) source reason .ambiguityReplay none)
      (commitUnknown codec ((env.observed fault readFault).plain (clockWithout env.now r result))
        source reason .ambiguityReplay none) r₁ r₁' := by
  have hX : ∀ e : PyError, e = e := fun _ => rfl
  refine couples_commitUnknown (synchronous_clockWithout hresult) hX (fun _ _ h => h)
    (fun _ _ h => couples_trigger hX _ h) (fun attempt r₂ r₂' _ _ h₂ => ?_) h
  exact (couples_recordTerminalOutcome hX h₂).bind fun _ r₃ r₃' _ h₃ => Couples.pure h₃

/-- Unobtrusive diagnostics leave a commit unaffected. -/
lemma unaffected_of_unobtrusive {result : ExchangeResult}
    (h : Unobtrusive codec env source r result) : Unaffected codec env source result r := by
  intro fault readFault
  have heq : ∀ e e' : PyError, e = e' → CommitError.plain e = .plain e' := fun _ _ => congrArg _
  refine endsAlike_of_couples (R := Run.Level) (fun _ _ h => h) ?_
  cases result with
  | response response =>
    refine Couples.tryCatch (couples_commitResponse h) ?_
    rintro c c' r₁ r₁' (rfl | ⟨e, e', rfl, rfl, rfl | ⟨hos, hos'⟩⟩) h₁
    · rcases c with retained | e
      · exact Couples.raise rfl h₁
      · dsimp only
        split_ifs
        · exact Couples.raise rfl h₁
        · exact Couples.raise rfl h₁
    · dsimp only
      split_ifs
      · exact Couples.raise rfl h₁
      · exact Couples.raise rfl h₁
    · dsimp only
      rw [if_pos hos, if_pos hos']
      exact Couples.raise rfl h₁
  | httpError code =>
    exact couples_plain heq (((couples_emit_first h).bind fun _ r₁ r₁' _ h₁ =>
      couples_commitUnknown_ahead (by rintro _ ⟨⟩) h₁).weaken (fun _ _ h => h.level)
        fun _ _ he => he)
  | osError typeName =>
    exact couples_plain heq (((couples_emit_first h).bind fun _ r₁ r₁' _ h₁ =>
      couples_commitUnknown_ahead (by rintro _ ⟨⟩) h₁).weaken (fun _ _ h => h.level)
        fun _ _ he => he)
  | cancelled =>
    refine couples_plain heq ((Couples.bind (R := Run.Twins (Ahead r)) (Couples.tryCatch (X := Eq)
      ((couples_emit_first h).bind fun _ r₁ r₁' _ h₁ =>
        (couples_commitUnknown_ahead (by rintro _ ⟨⟩) h₁).bind fun _ r₂ r₂' _ h₂ =>
          Couples.pure h₂) ?_) fun _ r₁ r₁' _ h₁ => Couples.raise rfl h₁).weaken
            (fun _ _ h => h.level) fun _ _ he => he)
    rintro e _ r₁ r₁' rfl h₁
    cases e with
    | terminalRevisionRequired => exact Couples.pure h₁
    | recoveryRequired => exact Couples.pure h₁
    | enjiHttp code message =>
      dsimp only
      split_ifs
      · exact Couples.pure h₁
      · exact Couples.raise rfl h₁
    | _ => exact Couples.raise rfl h₁
  | failed error => exact Couples.raise rfl (.refl r)

end Undisturbed

/-! ### Commits that are disturbed -/

section Disturbed

def plannedReads (journal outbox : Option String) : ReadSite → Nat → Option String
  | .journal, _ => journal
  | .outbox, _ => outbox
  | _, _ => none

/-- The same environment, in which no storage operation fails, and the reads of the journal and of
the outbox fail as given. -/
def Env.planned (env : Env) (journal outbox : Option String) (eventSink : Bool) : Env :=
  { env with
    fault := fun _ _ => .none
    readFault := plannedReads journal outbox
    eventSink := eventSink }

variable {journal outbox : Option String} {eventSink : Bool} {observed : EnjiHttpResponse}
  {E : PyError → Run → Prop}

lemma Env.healthy_planned : (env.planned none none eventSink).Healthy :=
  ⟨fun _ _ => rfl, fun site _ => by cases site <;> rfl⟩

lemma ends_trigger_planned (operation : String) :
    Ends (trigger (env.planned journal outbox eventSink) operation) r (fun _ => r.Same) E :=
  Ends.of_run rfl ⟨rfl, rfl, rfl⟩

/-- What an exception is after the commit of a response. -/
def responseError (source : StoredAuth) (e : PyError) : PyError :=
  if e.isOsError then .terminalRevisionRequired source.revision
    "refresh dispatch completed; import a fresh browser credential"
  else e

/-- Diagnostics that cannot be prepared raise, and the same whatever the storage does. -/
lemma emitRefreshObservation_of_not_diagnosable
    (hclass : ∀ found, response = some found → ∃ text, normalizedResponseClass found = .ok text)
    (h : ¬ Diagnosable codec r.world source replacement (env.now r.cursor.now)) :
    ∃ e, ∀ fault readFault, (∀ n, readFault ReadSite.observation n = none) → ∃ r₁,
      emitRefreshObservation codec (env.observed fault readFault) source response replacement r =
        (.raised e, r₁) := by
  rcases hload : journalOf r.world.journal with e | loaded
  · refine ⟨e, fun fault readFault hread =>
      ⟨{ r with cursor := r.cursor.countRead .observation }, ?_⟩⟩
    have htext : readText (env.observed fault readFault) .observation r =
        (.ok (.ok r.world.journal), { r with cursor := r.cursor.countRead .observation }) := by
      simp only [readText, Env.observed, hread]
      rfl
    have hfound : loadJournalFor (env.observed fault readFault) .observation r =
        (.raised e, { r with cursor := r.cursor.countRead .observation }) := by
      rw [loadJournalFor, bind_of_ok htext]
      simp only [hload]
      rfl
    exact bind_of_raised hfound
  · rcases hfields : refreshDiagnosticFields codec source replacement (env.now r.cursor.now) with
      e | fields
    · refine ⟨e, fun fault readFault _ => ⟨r.diagnosed, ?_⟩⟩
      rw [emitRefreshObservation_apply rfl ⟨loaded, hload⟩ hclass]
      simp only [Env.observed, hfields]
    · exact absurd ⟨⟨loaded, hload⟩, fields, hfields⟩ h

lemma plain_of_raised {α : Type} {p : Auth α} {e : PyError} (h : p r = (.raised e, r')) :
    Auth.plain p r = (.raised (.plain e), r') := by
  rw [Auth.plain, tryCatch_apply, h]
  rfl

/-- What an exception is after the commit of a cancelled exchange. -/
def cancelledError : PyError → PyError
  | .terminalRevisionRequired .. | .recoveryRequired .. => .cancelled
  | .enjiHttp code message =>
    if code = "AUTH_IMPORT_REQUIRED" || code = "AUTH_RECOVERY_PENDING" then .cancelled
    else .enjiHttp code message
  | e => e

lemma commitCancelled_of_raised {e : PyError}
    (h : emitRefreshObservation codec env source none none r = (.raised e, r')) :
    commitCancelled codec env source r = (.raised (cancelledError e), r') := by
  have hbody : ∀ {α : Type} (f : Unit → Auth α),
      (emitRefreshObservation codec env source none none >>= f) r = (.raised e, r') :=
    fun _ => bind_of_raised h
  rw [commitCancelled, bind_apply, tryCatch_apply, hbody]
  cases e with
  | enjiHttp code message =>
    simp only [cancelledError]
    split_ifs <;> rfl
  | _ => rfl

/-- An exchange without a response is committed unaffected only by diagnostics that can be
prepared: without them an error of the storage shows. -/
lemma diagnosable_of_unaffected {result : ExchangeResult}
    (hresult : (∃ code, result = .httpError code) ∨ (∃ typeName, result = .osError typeName) ∨
      result = .cancelled) (h : Unaffected codec env source result r) :
    Diagnosable codec r.world source none (env.now r.cursor.now) := by
  by_contra hnot
  obtain ⟨e, hemit⟩ := @emitRefreshObservation_of_not_diagnosable codec env source none none r
    (by rintro _ ⟨⟩) hnot
  obtain ⟨o, hobserved⟩ : ∃ o, ∀ detail, (commitExchange codec
      (env.observed (fun _ _ => .error detail) fun _ _ => none) source result r).1 = o := by
    rcases hresult with ⟨code, rfl⟩ | ⟨typeName, rfl⟩ | rfl
    · refine ⟨.raised (.plain e), fun detail => ?_⟩
      obtain ⟨r₁, hrun⟩ := hemit (fun _ _ => .error detail) (fun _ _ => none) fun _ => rfl
      exact congrArg Prod.fst (plain_of_raised (bind_of_raised hrun))
    · refine ⟨.raised (.plain e), fun detail => ?_⟩
      obtain ⟨r₁, hrun⟩ := hemit (fun _ _ => .error detail) (fun _ _ => none) fun _ => rfl
      exact congrArg Prod.fst (plain_of_raised (bind_of_raised hrun))
    · refine ⟨.raised (.plain (cancelledError e)), fun detail => ?_⟩
      obtain ⟨r₁, hrun⟩ := hemit (fun _ _ => .error detail) (fun _ _ => none) fun _ => rfl
      exact congrArg Prod.fst (plain_of_raised (commitCancelled_of_raised hrun))
  have hplain : ∀ detail, (commitExchange codec ((env.observed (fun _ _ => .error detail)
      fun _ _ => none).plain (clockWithout env.now r result)) source result r).1 =
        .raised (.plain (.osError detail)) := by
    intro detail
    rcases hresult with ⟨code, rfl⟩ | ⟨typeName, rfl⟩ | rfl <;> rfl
  have hdetail : ∀ detail, o = .raised (.plain (.osError detail)) := fun detail =>
    (hobserved detail).symm.trans ((h _ _).outcome.trans (hplain detail))
  have hsame := (hdetail "a").symm.trans (hdetail "b")
  simp at hsame

lemma plain_of_ok {α : Type} {p : Auth α} {a : α} (h : p r = (.ok a, r')) :
    Auth.plain p r = (.ok a, r') := by
  rw [Auth.plain, tryCatch_apply, h]

lemma commitExchange_of_raised {e : PyError}
    (h : commitResponse codec env source observed r = (.raised (.plain e), r')) :
    commitExchange codec env source (.response observed) r =
      (.raised (.plain (responseError source e)), r') := by
  rw [commitExchange, tryCatch_apply, h]
  simp only [responseError]
  split_ifs <;> rfl

section Reading

variable {env' : Env} {r₁ : Run} (hwall : env'.wall = env.wall)
include hwall

/-- A commit of a response goes on from what was read of it, whatever the storage does. -/
lemma commitResponse_of_merged {merged : String}
    (h : successfulReplacement codec env source observed r = (.ok (some merged), r₁)) :
    commitResponse codec env' source observed r =
      commitSuccess codec env' source merged observed r₁ := by
  rw [← successfulReplacement_congr hwall] at h
  rw [commitResponse, bind_of_ok (plain_of_ok h)]

lemma commitResponse_of_stop
    (h : successfulReplacement codec env source observed r = (.ok none, r₁))
    (hcontinuation : responseContinuation observed = .ok .stop) :
    commitResponse codec env' source observed r = Auth.plain (do
      emitRefreshObservation codec env' source (some observed) none
      commitRejected env' source.revision
        ("refresh rejected with HTTP " ++ toString observed.statusCode)) r₁ := by
  rw [← successfulReplacement_congr hwall] at h
  rw [commitResponse, bind_of_ok (plain_of_ok h), hcontinuation]
  rfl

lemma commitResponse_of_lane {lane : RecoveryLane}
    (h : successfulReplacement codec env source observed r = (.ok none, r₁))
    (hcontinuation : responseContinuation observed = .ok (.lane lane)) :
    commitResponse codec env' source observed r = Auth.plain (commitUnknown codec env' source
      ("refresh response HTTP " ++ toString observed.statusCode) lane (some observed)) r₁ := by
  rw [← successfulReplacement_congr hwall] at h
  rw [commitResponse, bind_of_ok (plain_of_ok h), hcontinuation]
  rfl

end Reading

lemma commitSuccess_of_raised {merged : String} {e : PyError}
    (h : emitRefreshObservation codec env source (some observed) (some merged)
      { r with cursor := { r.cursor with minted := r.cursor.minted + 1 } } = (.raised e, r')) :
    commitSuccess codec env source merged observed r = (.raised (.plain e), r') := by
  have hmint : Auth.plain (mintRevision env) r = (.ok (env.minted r.cursor.minted),
      { r with cursor := { r.cursor with minted := r.cursor.minted + 1 } }) := rfl
  have htransition : ∀ r' : Run, Auth.plain (transitionOrRaise
      (.journaled (.requested source.revision))
      (.exchangeSucceeded merged (env.minted r.cursor.minted))) r' =
        (.ok (.journaled (.terminal (.rotated source.revision merged
          (env.minted r.cursor.minted)))), r') := fun _ => rfl
  rw [commitSuccess, bind_of_ok hmint, bind_of_ok (htransition _)]
  exact bind_of_raised (plain_of_raised h)

/-- A successor is committed unaffected only by diagnostics that can be prepared: without them the
caller is handed the successor when the storage fails. -/
lemma diagnosable_of_success {merged : String} {r₁ : Run}
    (hreplacement : successfulReplacement codec env source observed r = (.ok (some merged), r₁))
    (h : Unaffected codec env source (.response observed) r) :
    Diagnosable codec r₁.world source (some merged) (env.now r₁.cursor.now) := by
  by_contra hnot
  have hclass : ∀ found, some observed = some found →
      ∃ text, normalizedResponseClass found = .ok text := by
    rintro found ⟨⟩
    rw [normalizedResponseClass, if_pos (statusCode_of_successfulReplacement hreplacement)]
    exact ⟨_, rfl⟩
  obtain ⟨e, hemit⟩ := @emitRefreshObservation_of_not_diagnosable codec env source (some observed)
    (some merged) { r₁ with cursor := { r₁.cursor with minted := r₁.cursor.minted + 1 } }
    hclass hnot
  obtain ⟨r₂, hrun⟩ := hemit (fun _ _ => .error "") (fun _ _ => none) fun _ => rfl
  have hobserved := commitExchange_of_raised ((commitResponse_of_merged (by rfl) hreplacement).trans
    (commitSuccess_of_raised hrun))
  have hplain : ∃ retained, (commitExchange codec ((env.observed (fun _ _ => .error "")
      fun _ _ => none).plain (clockWithout env.now r (.response observed))) source
        (.response observed) r).1 = .raised (.postDispatchPersistence retained) := by
    rw [commitExchange, tryCatch_apply, commitResponse_of_merged (by rfl) hreplacement]
    exact ⟨_, rfl⟩
  obtain ⟨retained, hplain⟩ := hplain
  have hend := (h (fun _ _ => .error "") fun _ _ => none).outcome
  rw [hobserved, hplain] at hend
  cases hend

def credentialFault (detail : String) : ReadSite → Nat → Option String
  | .credential, _ => some detail
  | _, _ => none

/-- A response that ends the session is committed unaffected only by diagnostics that can be
prepared: without them a failed read of the credential shows. -/
lemma diagnosable_of_stop {r₁ : Run}
    (hreplacement : successfulReplacement codec env source observed r = (.ok none, r₁))
    (hcontinuation : responseContinuation observed = .ok .stop)
    (h : Unaffected codec env source (.response observed) r) :
    Diagnosable codec r₁.world source none (env.now r₁.cursor.now) := by
  by_contra hnot
  have hclass : ∀ found, some observed = some found →
      ∃ text, normalizedResponseClass found = .ok text := by
    rintro found ⟨⟩
    exact exists_normalizedResponseClass hcontinuation
  obtain ⟨e, hemit⟩ := emitRefreshObservation_of_not_diagnosable hclass hnot
  have hobserved : ∀ detail, (commitExchange codec
      (env.observed (fun _ _ => .none) (credentialFault detail)) source (.response observed) r).1 =
        .raised (.plain (responseError source e)) := by
    intro detail
    obtain ⟨r₂, hrun⟩ := hemit (fun _ _ => .none) (credentialFault detail) fun _ => rfl
    exact congrArg Prod.fst (commitExchange_of_raised
      ((commitResponse_of_stop (by rfl) hreplacement hcontinuation).trans
        (plain_of_raised (bind_of_raised hrun))))
  have hplain : ∀ detail, (commitExchange codec ((env.observed (fun _ _ => .none)
      (credentialFault detail)).plain (clockWithout env.now r (.response observed))) source
        (.response observed) r).1 = .raised (.plain (.enjiHttp "AUTH_IO_FAILURE"
          ("read credential failed: " ++ detail))) := by
    intro detail
    rw [commitExchange, tryCatch_apply,
      commitResponse_of_stop (by rfl) hreplacement hcontinuation]
    rfl
  have hdetail := fun detail =>
    (hobserved detail).symm.trans ((h _ _).outcome.trans (hplain detail))
  have hsame := (hdetail "a").symm.trans (hdetail "b")
  simp only [Outcome.raised.injEq, CommitError.plain.injEq, PyError.enjiHttp.injEq] at hsame
  exact absurd hsame.2 (by decide)

/-- A commit that gets to its record ends as what follows the record, unless that returns. -/
lemma ends_commitUnknown_planned {reason : String} {lane : RecoveryLane} {N : Prop}
    {E : PyError → Prop} {found : RotationAttempt}
    (hcurrent : ∃ auth, authOf (env.wall r.cursor.wall) r.world.credential = .ok (.loaded auth) ∧
      auth.revision = source.revision)
    (hfound : ∀ r' : Run, r'.world = r.world →
      Ends (attemptForSource (env.planned journal outbox eventSink) source.revision) r'
        (fun attempt r'' => r'.Left r'.world r'' ∧ attempt = found) fun _ _ => False)
    (hcandidate : Candidate r.world source.revision found)
    (hschedulable : Schedulable env r.cursor.now found lane)
    (hclass : ∃ text, normalizedResponseClass observed = .ok text)
    (hfinish : ∀ attempt r₁, UnknownRecorded env r source.revision reason lane attempt r₁ →
      Ends (finishUnknown codec (env.planned journal outbox eventSink) source reason (some observed)
        attempt) r₁ (fun result _ => N ∧ ∃ continuation, result = .inr continuation)
        fun e _ => E e) :
    Ends (commitUnknown codec (env.planned journal outbox eventSink) source reason lane
      (some observed)) r (fun _ _ => False) fun e _ => E e ∨ N ∧
        (e = .terminalRevisionRequired source.revision
          "refresh recovery is exhausted; import a fresh browser credential" ∨
        e = .recoveryRequired source.revision lane 0) := by
  obtain ⟨auth, hauth, hrevision⟩ := hcurrent
  obtain ⟨deadline, hadd, hreckonable⟩ := hschedulable
  refine Ends.bind (Q := fun result _ => N ∧ ∃ continuation, result = .inr continuation) ?_
    fun result r' hr' => ?_
  · refine Ends.resume (p := Action.ensure _ _)
      (t := { r with cursor := { r.cursor with faults := r.cursor.faults + 2 } }) rfl ?_
    refine Ends.ensure (Q := fun result _ => N ∧ ∃ continuation, result = .inr continuation)
      (E := fun e _ => E e) ?_ (fun _ _ h => (ends_trigger_planned _).weaken (fun _ _ _ => h)
        fun _ _ h => h) fun _ _ h => (ends_trigger_planned _).weaken (fun _ _ _ => .inl h)
          fun _ _ h => h
    -- only the reads of the journal and of the outbox fail: the credential is found
    have hload := @ends_loadAuth (env.planned none none eventSink)
      { r with cursor := { r.cursor with faults := r.cursor.faults + 2 } } Env.healthy_planned
    have hsuperseded : Ends (isSuperseded (env.planned journal outbox eventSink) source.revision)
        { r with cursor := { r.cursor with faults := r.cursor.faults + 2 } }
        (fun superseded r' => r.Left r.world r' ∧ superseded = false) fun _ _ => False := by
      refine Ends.bind (hload.weaken (fun _ _ h => h) ?_) fun loaded r' hr' => Ends.pure ?_
      · rintro e r' ⟨-, herror⟩
        rw [show (env.planned none none eventSink).wall = env.wall from rfl, hauth] at herror
        cases herror
      · obtain ⟨hleft, hloaded⟩ := hr'
        rw [show (env.planned none none eventSink).wall = env.wall from rfl, hauth] at hloaded
        cases hloaded
        exact ⟨⟨hleft.world, hleft.now⟩, by simp [isSupersededResult, hrevision]⟩
    refine (hsuperseded.weaken (fun _ _ h => h) fun _ _ h => h.elim).bind fun superseded r₁ h₁ => ?_
    obtain ⟨hleft₁, rfl⟩ := h₁
    refine ((hfound r₁ hleft₁.world).weaken (fun _ _ h => h) fun _ _ h => h.elim).bind
      fun attempt r₂ h₂ => ?_
    obtain ⟨hleft₂, rfl⟩ := h₂
    have hnow₂ : r₂.cursor.now = r.cursor.now := hleft₂.now.trans hleft₁.now
    -- the times are representable, so the commit gets to its record
    have hdeadline : isoformatAfter (env.now r.cursor.now) recoveryWindow =
        .ok (isoformat deadline) :=
      isoformatAfter_eq_ok hadd
    refine (ends_recoveryDeadline.weaken (fun _ _ h => h) ?_).bind fun text r₃ h₃ => ?_
    · rintro e r' ⟨-, herror⟩
      rw [hnow₂] at herror
      rw [show (env.planned journal outbox eventSink).now = env.now from rfl, hdeadline] at herror
      cases herror
    obtain ⟨hticked, htext⟩ := h₃
    rw [hnow₂, show (env.planned journal outbox eventSink).now = env.now from rfl,
      hdeadline] at htext
    cases htext
    have hnow₃ : r₃.cursor.now = r.cursor.now + 1 := hticked.now.trans (congrArg (· + 1) hnow₂)
    refine (ends_nowFn (env.planned journal outbox eventSink)).bind fun clock r₄ h₄ => ?_
    obtain ⟨rfl, hworld₄, hnow₄⟩ := h₄
    rw [hnow₃] at hnow₄ ⊢
    obtain ⟨scheduled, hscheduled⟩ := withContinuation_ok_iff.2 hreckonable
    refine Ends.of_ok hscheduled ?_
    obtain ⟨label, hlabel⟩ := hclass
    refine Ends.of_ok (a := some label) (by rw [observedClass, hlabel]; rfl) ?_
    have hworld₃ : r₃.world = r.world := hticked.world.trans (hleft₂.world.trans hleft₁.world)
    have hwrite : Ends (writeJournal (env.planned journal outbox eventSink)
        (.terminal (.outcomeUnknown source.revision reason)) false
        { scheduled with responseClass := some label }) r₄
        (fun _ => r₄.Left (r₄.world.setJournal (.terminal (.outcomeUnknown source.revision reason))
          false { scheduled with responseClass := some label } (r₄.lastReading env)))
        fun e _ => E e := @ends_writeJournal (env.planned none none eventSink) r₄ _
          Env.healthy_planned _ _ _
    refine hwrite.bind fun _ r₅ h₅ => hfinish { scheduled with responseClass := some label } r₅
      ⟨⟨⟨auth, hauth, hrevision⟩, attempt, hcandidate, deadline, hadd, hreckonable⟩, ?_, ?_, ?_⟩
    · exact ⟨attempt, _, _, scheduled, hscheduled, some label, rfl⟩
    · exact ⟨r₄.lastReading env, by rw [h₅.world, hworld₄, hworld₃]⟩
    · rw [h₅.now, hnow₄]
  · obtain ⟨hN, continuation, rfl⟩ := hr'
    rcases continuation with _ | _ | _
    · exact Ends.raise (.inr ⟨hN, .inr rfl⟩)
    · exact Ends.raise (.inr ⟨hN, .inr rfl⟩)
    · exact Ends.raise (.inr ⟨hN, .inl rfl⟩)

/-- An action that does not return raises. -/
lemma exists_raised {α : Type} {p : Auth α} {E : PyError → Prop}
    (h : Ends p r (fun _ _ => False) fun e _ => E e) : ∃ e r', p r = (.raised e, r') ∧ E e := by
  rcases hrun : p r with ⟨a | e | _, r'⟩
  · exact (h.returned (congrArg Prod.fst hrun)).elim
  · exact ⟨e, r', rfl, h.raised (congrArg Prod.fst hrun)⟩
  · exact absurd (congrArg Prod.fst hrun) h.not_crashed

/-- The attempt of a candidate is found under some failure of the journal's reads. -/
lemma exists_found {found : RotationAttempt} {revision : String} {w : World}
    (h : Candidate w revision found) : ∃ journal, ∀ outbox eventSink r', r'.world = w →
      Ends (attemptForSource (env.planned journal outbox eventSink) revision) r'
        (fun attempt r'' => r'.Left r'.world r'' ∧ attempt = found) fun _ _ => False := by
  rcases h with rfl | ⟨loaded, hload, rfl⟩
  · exact ⟨some "", fun outbox eventSink r' _ => Ends.of_run rfl ⟨⟨rfl, rfl⟩, rfl⟩⟩
  · refine ⟨none, fun outbox eventSink r' hworld => ?_⟩
    rw [← hworld] at hload
    exact @ends_attemptForSource (env.planned none none eventSink) r' _ Env.healthy_planned _ _
      hload

/-- What the commit of a response ends with after an error of its commit as unknown. -/
lemma commitExchange_of_lane {env' : Env} {lane : RecoveryLane} {r₁ : Run} {E : PyError → Prop}
    (hwall : env'.wall = env.wall)
    (hreplacement : successfulReplacement codec env source observed r = (.ok none, r₁))
    (hcontinuation : responseContinuation observed = .ok (.lane lane))
    (h : Ends (commitUnknown codec env' source
      ("refresh response HTTP " ++ toString observed.statusCode) lane (some observed)) r₁
      (fun _ _ => False) fun e _ => E e) :
    ∃ e, E e ∧ (commitExchange codec env' source (.response observed) r).1 =
      .raised (.plain (responseError source e)) := by
  obtain ⟨e, r₂, hrun, he⟩ := exists_raised h
  exact ⟨e, he, congrArg Prod.fst (commitExchange_of_raised
    ((commitResponse_of_lane hwall hreplacement hcontinuation).trans (plain_of_raised hrun)))⟩

/-- An unknown outcome is committed unaffected only by diagnostics that can be prepared or that
fail just as the outbox does. -/
lemma harmless_of_lane {lane : RecoveryLane} {r₁ : Run} {e : PyError} (hsink : env.SinkContained)
    (hreplacement : successfulReplacement codec env source observed r = (.ok none, r₁))
    (hcontinuation : responseContinuation observed = .ok (.lane lane))
    (h : Unaffected codec env source (.response observed) r)
    (hreaches : Reaches env r₁ source.revision lane)
    (hfields : refreshDiagnosticFields codec source none (env.now r₁.cursor.now) = .error e) :
    e.isOsError = true ∧ r₁.world.OutboxParses ∧ ¬ r₁.world.OutboxReady := by
  obtain ⟨hcurrent, found, hcandidate, hschedulable⟩ := hreaches
  have hclass := exists_normalizedResponseClass hcontinuation
  obtain ⟨journal, hfound⟩ := @exists_found env _ _ _ hcandidate
  obtain ⟨hfields, hkind⟩ := refreshDiagnosticFields_error hfields
  have hrun : ∀ {outbox eventSink} {N : Prop} {E : PyError → Prop}, (∀ attempt r₂,
      UnknownRecorded env r₁ source.revision
        ("refresh response HTTP " ++ toString observed.statusCode) lane attempt r₂ →
      Ends (finishUnknown codec (env.planned journal outbox eventSink) source
        ("refresh response HTTP " ++ toString observed.statusCode) (some observed) attempt) r₂
        (fun result _ => N ∧ ∃ continuation, result = .inr continuation) fun e _ => E e) → _ :=
    fun {outbox eventSink N E} hfinish =>
      @commitExchange_of_lane codec env source r observed (env.planned journal outbox eventSink)
        _ _ _ rfl hreplacement hcontinuation (ends_commitUnknown_planned hcurrent
          (hfound outbox eventSink) hcandidate hschedulable hclass hfinish)
  have hobserved : ∀ outbox, (commitExchange codec (env.planned journal outbox true) source
      (.response observed) r).1 = .raised (.plain (responseError source e)) := by
    intro outbox
    obtain ⟨e', he', hend⟩ := @hrun outbox true False (· = e) fun attempt r₂ hrecorded => by
      refine Ends.bind (Q := fun _ _ => False) ?_ fun _ _ hfalse => hfalse.elim
      refine Ends.resume (p := Action.raise e) (t := r₂.diagnosed) ?_ (Ends.raise rfl)
      rw [emitRefreshObservation_apply rfl hrecorded.journal (by rintro _ ⟨⟩; exact hclass)]
      simp only [show (env.planned journal outbox true).now = env.now from rfl, hfields]
      rfl
    rcases he' with rfl | ⟨hfalse, -⟩
    · exact hend
    · exact hfalse.elim
  -- a run without an event sink ends alike under every failure that was planned
  have hsame : ∀ {outbox e'}, (commitExchange codec (env.planned journal outbox false) source
      (.response observed) r).1 = .raised (.plain (responseError source e')) →
      responseError source e = responseError source e' := by
    intro outbox e' hplain
    have hend := (h (fun _ _ => .none) (plannedReads journal outbox)).outcome
    have hboth := (hobserved outbox).symm.trans (hend.trans hplain)
    simpa using hboth
  have hos : e.isOsError = true := by
    by_contra hnot
    obtain ⟨e', he', hend⟩ := @hrun (some "") false False (fun e => e.isOsError = true)
      fun attempt r₂ hrecorded => by
        refine Ends.bind (Q := fun _ r' => r' = r₂) (Ends.pure rfl) ?_
        rintro _ _ rfl
        refine Ends.bind (Q := fun _ _ => False) ?_ fun _ _ hfalse => hfalse.elim
        exact Ends.resume (p := Action.raise _) rfl (Ends.raise rfl)
    rcases he' with hos' | ⟨hfalse, -⟩
    · have herrors := hsame hend
      simp only [responseError, if_neg hnot, if_pos hos'] at herrors
      have huntyped := hkind.resolve_left hnot
      rw [herrors] at huntyped
      cases huntyped
    · exact hfalse.elim
  refine ⟨hos, ?_, ?_⟩
  · by_contra hnot
    obtain ⟨e₁, herror⟩ : ∃ e₁, outboxOf r₁.world.outbox = .error e₁ := by
      rcases hload : outboxOf r₁.world.outbox with e₁ | loaded
      · exact ⟨e₁, rfl⟩
      · exact absurd ⟨loaded, hload⟩ hnot
    have huntyped := untyped_of_outboxOf herror
    obtain ⟨e', he', hend⟩ := @hrun none false False (· = e₁)
      fun attempt r₂ hrecorded => by
        obtain ⟨clock, hworld⟩ := hrecorded.world
        have houtbox : r₂.world.outbox = r₁.world.outbox := by
          rw [hworld]
          rfl
        rw [← houtbox] at herror
        have hload := @ends_loadOutbox (env.planned none none false) r₂ Env.healthy_planned
        refine Ends.bind (Q := fun _ r' => r' = r₂) (Ends.pure rfl) ?_
        rintro _ _ rfl
        refine Ends.bind (Q := fun _ _ => False) ?_ fun _ _ hfalse => hfalse.elim
        refine Ends.bind (Q := fun _ _ => False) ?_ fun _ _ hfalse => hfalse.elim
        refine Ends.bind (Q := fun _ _ => False) (hload.weaken ?_ ?_) fun _ _ hfalse => hfalse.elim
        · rintro loaded r' ⟨-, hloaded⟩
          rw [herror] at hloaded
          cases hloaded
        · rintro e r' ⟨-, hraised⟩
          rw [herror] at hraised
          cases hraised
          rfl
    rcases he' with rfl | ⟨hfalse, -⟩
    · have herrors := hsame hend
      have hnotOs : ¬ e'.isOsError = true := by
        intro hos'
        simp [PyError.isTyped, hos'] at huntyped
      rw [responseError, if_pos hos, responseError, if_neg hnotOs] at herrors
      rw [← herrors] at huntyped
      cases huntyped
    · exact hfalse.elim
  · intro hready
    obtain ⟨e', he', hend⟩ := @hrun none false True (fun _ => False)
      fun attempt r₂ hrecorded => by
        obtain ⟨clock, hworld⟩ := hrecorded.world
        have hready₂ : r₂.world.OutboxReady :=
          (World.outboxReady_congr (by rw [hworld]; rfl)).2 hready
        have hrecord := (@Env.healthy_planned env false).ends
          (@concludes_recordTerminalOutcome (env.planned none none false) r₂ hsink
            (.outcomeUnknown source.revision
              ("refresh response HTTP " ++ toString observed.statusCode)) attempt false)
        refine Ends.bind (Q := fun _ r' => r' = r₂) (Ends.pure rfl) ?_
        rintro _ _ rfl
        refine Ends.bind (Q := fun _ _ => True) (hrecord.weaken (fun _ _ _ => trivial)
          fun _ _ hrefuses => hready₂.not_refuses hrefuses) fun _ _ _ => Ends.pure ⟨trivial, _, rfl⟩
    have herrors := hsame hend
    rcases he' with hfalse | ⟨-, rfl | rfl⟩
    · exact hfalse.elim
    · simp only [responseError, if_pos hos] at herrors
      simp [PyError.isOsError] at herrors
    · simp only [responseError, if_pos hos] at herrors
      cases herrors

end Disturbed

/-- A commit is unaffected only by unobtrusive diagnostics. -/
lemma unobtrusive_of_unaffected {result : ExchangeResult} (hsink : env.SinkContained)
    (h : Unaffected codec env source result r) : Unobtrusive codec env source r result := by
  cases result with
  | response response =>
    rcases hreplacement : successfulReplacement codec env source response r with
      ⟨(_ | merged) | e | _, r₁⟩ <;> simp only [Unobtrusive, hreplacement]
    · rcases hcontinuation : responseContinuation response with e | lane | _
      · trivial
      · exact fun hreaches e hfields =>
          harmless_of_lane hsink hreplacement hcontinuation h hreaches hfields
      · exact diagnosable_of_stop hreplacement hcontinuation h
    · exact diagnosable_of_success hreplacement h
  | httpError code => exact diagnosable_of_unaffected (.inl ⟨code, rfl⟩) h
  | osError typeName => exact diagnosable_of_unaffected (.inr (.inl ⟨typeName, rfl⟩)) h
  | cancelled => exact diagnosable_of_unaffected (.inr (.inr rfl)) h
  | failed error => trivial

/-- A refresh ends with an event sink as it ends without, whatever the storage does, exactly when
its diagnostics are unobtrusive; preparing it never looks at the sink. -/
theorem unaffected_iff {result : ExchangeResult} (hsink : env.SinkContained) :
    (∀ eventSink expected, prepare { env with eventSink := eventSink } expected =
      prepare env expected) ∧
    (Unaffected codec env source result r ↔ Unobtrusive codec env source r result) :=
  ⟨fun _ _ => rfl, unobtrusive_of_unaffected hsink, unaffected_of_unobtrusive⟩

/-- The response of a calm run carries a successor. -/
lemma exists_merged {codec : CookieCodec} {source : StoredAuth} {header merged : String} {r : Run}
    (hsource : source.credential = .cookie header)
    (hcomplete :
      successResponse.Complete codec (Env.calm (worker 1) launch "r1").wall r.cursor.wall)
    (hmerged : mergedHeader codec header successResponse.setCookieHeaders = some merged) :
    ∃ r₁, successfulReplacement codec (.calm (worker 1) launch "r1") source successResponse r =
      (.ok (some merged), r₁) ∧ r₁.world = r.world := by
  have hends := @ends_successfulReplacement codec (.calm (worker 1) launch "r1") r source header
    hsource successResponse
  rcases hrun : successfulReplacement codec (.calm (worker 1) launch "r1") source successResponse r
    with ⟨result | e | _, r₁⟩
  · have hreturned := hends.returned (congrArg Prod.fst hrun)
    rw [hrun] at hreturned
    obtain ⟨⟨reads, hclocked⟩, -, hresult, -⟩ := hreturned
    rw [hresult hcomplete, hmerged]
    exact ⟨r₁, rfl, hclocked.world⟩
  · exact absurd (hends.raised (congrArg Prod.fst hrun)).2 hcomplete.not_overflows
  · exact absurd (congrArg Prod.fst hrun) hends.not_crashed

theorem unaffected_iff_success :
    Unaffected plainCodec (.calm (worker 1) launch "r1") firstAuth (.response successResponse)
      (Run.start firstRequested) := by
  have hmerged : mergedHeader plainCodec "access_token=a; refresh_token=b"
      successResponse.setCookieHeaders = some "access_token=c; refresh_token=d" := by
    decide +kernel
  obtain ⟨r₁, hrun, hworld⟩ := @exists_merged plainCodec firstAuth _ _
    (Run.start firstRequested) rfl (complete_successResponse _ _) hmerged
  have hparts : diagnosticParts plainCodec firstAuth (some "access_token=c; refresh_token=d") =
      .ok (none, some true) := by decide +kernel
  refine (unaffected_iff (Env.sinkContained_calm _ _ _)).2.2 ?_
  simp only [Unobtrusive, hrun]
  exact ⟨⟨_, by rw [hworld]; exact journalOf_firstRequested⟩,
    exists_refreshDiagnosticFields_iff.2 ⟨_, hparts⟩⟩

/-- A codec that reads one more token, whose expiry is given in milliseconds. -/
def millisecondCodec : CookieCodec :=
  { plainCodec with
    tokenPayload := fun segment =>
      if segment = "eyJleHAiOjE3OTAwMDAwMDAwMDB9" then some (.obj [("exp", .int 1790000000000)])
      else none }

/-- A credential with such a token. -/
def millisecondAuth : StoredAuth :=
  { firstAuth with
    credential := .cookie "access_token=e30.eyJleHAiOjE3OTAwMDAwMDAwMDB9.s; refresh_token=b" }

/-- The expiry of a stored token can lose a successor. -/
theorem not_unaffected_milliseconds :
    ¬ ∀ (codec : CookieCodec) (env : Env) (source : StoredAuth) (result : ExchangeResult)
      (r : Run), env.SinkContained → env.Finds r.world source →
      Unaffected codec env source result r := by
  intro h
  have hcomplete : successResponse.Complete millisecondCodec
      (Env.calm (worker 1) launch "r1").wall 0 :=
    complete_of_jar _ 0 (by decide +kernel) (by decide +kernel)
  have hmerged : mergedHeader millisecondCodec
      "access_token=e30.eyJleHAiOjE3OTAwMDAwMDAwMDB9.s; refresh_token=b"
      successResponse.setCookieHeaders = some "access_token=c; refresh_token=d" := by
    decide +kernel
  have hparts : diagnosticParts millisecondCodec millisecondAuth
      (some "access_token=c; refresh_token=d") = .error .valueError := by decide +kernel
  obtain ⟨r₁, hrun, hworld⟩ := @exists_merged millisecondCodec millisecondAuth _ _ (Run.start
    ((Sys.installed millisecondAuth).world.setJournal (.requested "r0") false firstOwned
      (some launch))) rfl hcomplete hmerged
  have hunaffected := h millisecondCodec (.calm (worker 1) launch "r1") millisecondAuth
    (.response successResponse) (Run.start ((Sys.installed millisecondAuth).world.setJournal
      (.requested "r0") false firstOwned (some launch))) (Env.sinkContained_calm _ _ _)
    fun _ => authOf_launch millisecondAuth.credential
  obtain ⟨parts, hok⟩ := exists_refreshDiagnosticFields_iff.1
    (diagnosable_of_success hrun hunaffected).2
  rw [hparts] at hok
  cases hok

end EnjiGuard.AuthSession
