import EnjiGuard.AuthSession.Coordinator.Conclusions
import EnjiGuard.AuthSession.Store.Healthy

/-!
# The coordinator when nothing fails

Where no storage operation and no read fails, the parts of a preparation and of a commit that come
before a durable write do what the files, the clock and the response say. What follows the write
of a terminal record is followed by its specification: it keeps what the record reports.
-/

namespace EnjiGuard.AuthSession

open Foundation Action

/-- Whether the diagnostics of an exchange can be prepared. -/
def Observable (codec : CookieCodec) (env : Env) (w : World) (source : StoredAuth)
    (response : Option EnjiHttpResponse) (replacement : Option String) (now : Datetime) : Prop :=
  env.eventSink = true → (∃ loaded, journalOf w.journal = .ok loaded) ∧
    (∀ observed, response = some observed → ∃ text, normalizedResponseClass observed = .ok text) ∧
    ∃ fields, refreshDiagnosticFields codec source replacement now = .ok fields

/-- What a terminal record leaves: its journal, or none for a delivered rotation. -/
def World.Reports (w : World) (t : TerminalState) (attempt : RotationAttempt) : Prop :=
  (∃ enqueued, w.JournalHolds (.terminal t) enqueued attempt) ∨
    t.successor?.isSome ∧ w.journal = none

lemma RecordStep.reports {t : TerminalState} {attempt : RotationAttempt} {prior : World → Prop}
    {w w' : World} (h : RecordStep t attempt prior w w') (hw : w.Reports t attempt) :
    w'.Reports t attempt := by
  cases h with
  | outbox h =>
    have hsame := h.sameRotation
    rcases hw with ⟨enqueued, hheld⟩ | ⟨hrotated, hnone⟩
    · exact .inl ⟨enqueued, hsame.journalHolds.2 hheld⟩
    · exact .inr ⟨hrotated, hsame.journal.trans hnone⟩
  | mark clock => exact .inl ⟨true, World.journalHolds_setJournal _ _ _ _ _⟩
  | delete hjournal hprojected hrotated => exact .inr ⟨hrotated, rfl⟩

section

variable {codec : CookieCodec} {env : Env} {r : Run} {E : PyError → Run → Prop}

/-! ### Reading -/

lemma ends_loadAuth_of_finds (h : env.Healthy) {auth : StoredAuth}
    (hfinds : env.Finds r.world auth) :
    Ends (loadAuth env) r (fun result r' => r.Left r.world r' ∧ result = .loaded auth) E := by
  refine (ends_loadAuth h).weaken ?_ ?_
  · rintro result r' ⟨hleft, hload⟩
    rw [hfinds] at hload
    exact ⟨hleft, (Except.ok.inj hload).symm⟩
  · rintro e r' ⟨-, hload⟩
    rw [hfinds] at hload
    cases hload

lemma ends_isSuperseded_of_finds (h : env.Healthy) {auth : StoredAuth}
    (hfinds : env.Finds r.world auth) :
    Ends (isSuperseded env auth.revision) r
      (fun superseded r' => r.Left r.world r' ∧ superseded = false) E := by
  refine (ends_loadAuth_of_finds h hfinds).bind fun loaded r' hr => Ends.pure ⟨hr.1, ?_⟩
  rw [hr.2]
  simp [isSupersededResult]

lemma ends_attemptForSource (h : env.Healthy) {source : String} {loaded : JournalLoadResult}
    (hjournal : journalOf r.world.journal = .ok loaded) :
    Ends (attemptForSource env source) r
      (fun attempt r' => r.Left r.world r' ∧ attempt = attemptOfJournal source loaded) E := by
  refine ((ends_loadJournal h).weaken (fun _ _ k => k) ?_).bind
    fun result r' hr => Ends.pure ⟨hr.1, ?_⟩
  · rintro e r' ⟨-, herror⟩
    rw [hjournal] at herror
    cases herror
  · have hresult := hr.2
    rw [hjournal] at hresult
    rw [Except.ok.inj hresult]

lemma ends_storedAuth (baseUrl : String) (credential : Credential) (revision : String) :
    Ends (storedAuth env baseUrl credential (some revision)) r
      (fun auth r' => r.Left r.world r' ∧ auth.revision = revision ∧
        auth.credential = credential ∧ auth.baseUrl = baseUrl) E :=
  Ends.of_run rfl ⟨⟨rfl, rfl⟩, rfl, rfl, rfl⟩

/-- The stored cookie is replaced while it is the one of the source. -/
lemma ends_casReplaceCookie_of_finds (h : env.Healthy) {auth : StoredAuth} {header : String}
    (hfinds : env.Finds r.world auth) (hcookie : auth.credential = .cookie header)
    (replacement successor : String) :
    Ends (casReplaceCookie env auth.revision replacement successor) r
      (fun result r' => ∃ written, result = .written written ∧ written.revision = successor ∧
        written.credential = .cookie replacement ∧
        r.Left (r.world.setCredential written (.projected auth.revision)) r') E := by
  refine (ends_loadAuth_of_finds h hfinds).bind fun loaded r₁ h₁ => ?_
  obtain ⟨hleft, rfl⟩ := h₁
  simp only [hcookie, ne_eq, not_true_eq_false, if_false]
  refine (ends_storedAuth _ _ _).bind fun written r₂ h₂ => ?_
  obtain ⟨hleft₂, hrevision, hcredential, -⟩ := h₂
  refine (ends_writeAuthFile h).bind fun _ r₃ h₃ => Ends.pure ⟨written, rfl, hrevision,
    hcredential, ?_⟩
  rw [hleft₂.world, hleft.world] at h₃
  exact hleft.trans (hleft₂.trans h₃)

/-- Diagnostics raise exactly when they cannot be prepared. -/
lemma ends_emitRefreshObservation (h : env.Healthy) (source : StoredAuth)
    (response : Option EnjiHttpResponse) (replacement : Option String) :
    Ends (emitRefreshObservation codec env source response replacement) r
      (fun _ r' => r'.world = r.world ∧
        Observable codec env r.world source response replacement (env.now r.cursor.now))
      (fun _ r' => r'.world = r.world ∧
        ¬ Observable codec env r.world source response replacement (env.now r.cursor.now)) := by
  simp only [emitRefreshObservation, deliverEvent_eq]
  cases hsink : env.eventSink with
  | false => exact Ends.pure ⟨rfl, fun htrue => by simp [hsink] at htrue⟩
  | true =>
    have hfields : ∀ r', r.Left r.world r' → (∃ loaded, journalOf r.world.journal = .ok loaded) →
        (∀ observed, response = some observed →
          ∃ text, normalizedResponseClass observed = .ok text) →
        Ends (do
            let now ← nowFn env
            let _ ← ofExcept (refreshDiagnosticFields codec source replacement now)
            return ()) r'
          (fun _ r'' => r''.world = r.world ∧
            Observable codec env r.world source response replacement (env.now r.cursor.now))
          (fun _ r'' => r''.world = r.world ∧
            ¬ Observable codec env r.world source response replacement
              (env.now r.cursor.now)) := by
      intro r' hleft hjournal hclass
      refine (ends_nowFn env).bind fun now r₁ h₁ => ?_
      obtain ⟨rfl, hworld, -⟩ := h₁
      rw [hleft.now]
      have hworld₁ := hworld.trans hleft.world
      rcases hdiagnostic : refreshDiagnosticFields codec source replacement
          (env.now r.cursor.now) with e | fields
      · refine Ends.of_error rfl ⟨hworld₁, fun hobservable => ?_⟩
        obtain ⟨-, -, fields, hfields⟩ := hobservable hsink
        rw [hdiagnostic] at hfields
        cases hfields
      · exact Ends.of_ok rfl
          (Ends.pure ⟨hworld₁, fun _ => ⟨hjournal, hclass, fields, hdiagnostic⟩⟩)
    simp only [Bool.not_true, Bool.false_eq_true, if_false]
    refine Ends.bind (Q := fun loaded r' => r.Left r.world r' ∧
      journalOf r.world.journal = .ok loaded) ?_ fun loaded r₁ h₁ => ?_
    · refine (ends_readText h .observation).bind fun text r₁ h₁ => ?_
      obtain ⟨hleft, rfl⟩ := h₁
      refine Ends.ofExcept (fun loaded hloaded => ⟨hleft, hloaded⟩) fun e herror => ?_
      refine ⟨hleft.world, fun hobservable => ?_⟩
      obtain ⟨⟨loaded, hloaded⟩, -⟩ := hobservable hsink
      have hsame : journalOf (r.world.file .observation) = .ok loaded := hloaded
      rw [hsame] at herror
      cases herror
    · cases response with
      | none => exact hfields r₁ h₁.1 ⟨loaded, h₁.2⟩ (by rintro _ ⟨⟩)
      | some observed =>
        rcases hclass : normalizedResponseClass observed with e | text
        · refine Ends.of_error hclass ⟨h₁.1.world, fun hobservable => ?_⟩
          obtain ⟨text, htext⟩ := (hobservable hsink).2.1 observed rfl
          rw [hclass] at htext
          cases htext
        · refine Ends.of_ok hclass (hfields r₁ h₁.1 ⟨loaded, h₁.2⟩ ?_)
          rintro _ ⟨⟩
          exact ⟨text, hclass⟩

/-! ### Deadlines -/

/-- A reading of the clock, with what it leaves. -/
structure Run.Ticked (r r' : Run) : Prop where
  world : r'.world = r.world
  now : r'.cursor.now = r.cursor.now + 1

/-- A pure computation on a reading of the clock. -/
lemma ends_ofReading {α : Type} (f : Datetime → Except PyError α) :
    Ends (do let now ← nowFn env; ofExcept (f now)) r
      (fun a r' => r.Ticked r' ∧ f (env.now r.cursor.now) = .ok a)
      (fun e r' => r.Ticked r' ∧ f (env.now r.cursor.now) = .error e) := by
  refine (ends_nowFn env).bind fun now r₁ h₁ => ?_
  obtain ⟨rfl, hworld, hnow⟩ := h₁
  exact Ends.ofExcept (fun _ hok => ⟨⟨hworld, hnow⟩, hok⟩)
    fun _ herror => ⟨⟨hworld, hnow⟩, herror⟩

/-- The deadline of a rotation that starts now, unless it lies beyond the calendar. -/
lemma ends_recoveryDeadline :
    Ends (recoveryDeadline env) r
      (fun text r' => r.Ticked r' ∧ isoformatAfter (env.now r.cursor.now) recoveryWindow = .ok text)
      (fun e r' => r.Ticked r' ∧
        isoformatAfter (env.now r.cursor.now) recoveryWindow = .error e) :=
  ends_ofReading fun now => isoformatAfter now recoveryWindow

/-! ### What follows a terminal record -/

variable {P : World → Prop}

/-- The lock adds nothing to what a section leaves. -/
lemma finally_withAuthFileLock (h : env.Healthy) {α : Type} {p : Auth α}
    (hp : ∀ r', r.Same r' → Finally p r' fun r'' => P r''.world) :
    Finally (withAuthFileLock env p) r fun r' => P r'.world := by
  have hnever : ∀ (e : PyError) (r' : Run), False → P r'.world := fun _ _ hfalse => hfalse.elim
  refine Finally.bind (ends_trigger h "lock_open") (fun _ r₁ h₁ => ?_) hnever
  refine Finally.bind (ends_trigger h "lock") (fun _ r₂ h₂ => ?_) hnever
  refine (hp r₂ (h₁.trans h₂)).ensure fun r₃ h₃ => ?_
  refine Finally.of_ends (ends_trigger h "unlock") (fun _ r₄ h₄ => ?_) hnever
  rw [h₄.world]
  exact h₃

/-- Recording keeps the credential and what the record reports, however it ends. -/
lemma finally_recordTerminalOutcome {t : TerminalState} {attempt : RotationAttempt}
    (hpending : r.world.Pending t attempt) (hprojected : r.world.Projected t) :
    Finally (recordTerminalOutcome env t attempt false) r
      fun r' => r'.world.Reports t attempt ∧ r'.world.credential = r.world.credential := by
  have hsteps : Tracks Run.world (RecordStep t attempt (World.Pending t attempt))
      (recordTerminalOutcome env t attempt false) r
      (fun _ r' => r.Quiet r' ∧ r'.world.Recorded t attempt) fun _ => r.Quiet :=
    tracks_recordTerminalOutcome (World.Pending t attempt)
      (fun _ _ h => World.Pending.of_sameRotation h) (fun _ => hpending) (by rintro ⟨⟩) hprojected
  refine Finally.of_tracks (P := fun w => w.Reports t attempt ∧ w.credential = r.world.credential)
    hsteps ⟨.inl ⟨false, hpending⟩, rfl⟩ ?_
  rintro w w' hstep ⟨hreports, hcredential⟩
  exact ⟨hstep.reports hreports, hstep.sameDispatches.credential.trans hcredential⟩

end

end EnjiGuard.AuthSession
