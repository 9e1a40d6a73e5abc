import EnjiGuard.AuthSession.Responses
import EnjiGuard.AuthSession.Coordinator.Healthy
import EnjiGuard.AuthSession.System

/-!
# Every response is classified

Committing a response leaves its attempt rotated, rejected or unknown, as the response says. It
does so under one condition: what is looked at on the way to the terminal record can be looked at,
that is the body, the clock and the diagnostics. Where it does not hold, the commit raises before
its first write and the journal stays requested.
-/

namespace EnjiGuard.AuthSession

open Foundation Action

/-! ### The three outcomes -/

namespace World

/-- The rotation of a source is committed: its successor is stored, and its record is journaled or
delivered. -/
def CommitsRotation (w : World) (source : String) : Prop :=
  ∃ auth header attempt, w.Holds auth ∧ auth.credential = .cookie header ∧
    w.Reports (.rotated source header auth.revision) attempt

/-- The rejection of a source is journaled. -/
def Rejected (w : World) (source : String) : Prop :=
  ∃ reason enqueued attempt, w.JournalHolds (.terminal (.rejected source reason)) enqueued attempt

/-- The outcome of a source is journaled as unknown, with what continues it. -/
def Unknown (w : World) (source : String) (continuation : Continuation) : Prop :=
  ∃ reason enqueued attempt,
    w.JournalHolds (.terminal (.outcomeUnknown source reason)) enqueued attempt ∧
      attempt.continuation = some continuation

/-- The journal says that an exchange of a source is in flight. -/
def InExchange (w : World) (source : String) : Prop :=
  ∃ enqueued attempt, w.JournalHolds (.requested source) enqueued attempt

lemma Reports.not_holds {w : World} {t : TerminalState} {attempt attempt' : RotationAttempt}
    {state : JournalState} {enqueued : Bool} (h : w.Reports t attempt)
    (hother : state ≠ .terminal t) : ¬ w.JournalHolds state enqueued attempt' := by
  intro hheld
  rcases h with ⟨_, hterminal⟩ | ⟨-, hnone⟩
  · exact hother (hheld.unique hterminal).1
  · obtain ⟨payload, hfile, -⟩ := hheld
    rw [hnone] at hfile
    cases hfile

lemma CommitsRotation.not_holds {w : World} {source : String} {attempt : RotationAttempt}
    {state : JournalState} {enqueued : Bool} (h : w.CommitsRotation source)
    (hother : state.successor? = none) : ¬ w.JournalHolds state enqueued attempt := by
  obtain ⟨auth, header, _, -, -, hreports⟩ := h
  refine hreports.not_holds ?_
  rintro rfl
  cases hother

lemma Rejected.not_requested {w : World} {source : String} (h : w.Rejected source) :
    ¬ w.InExchange source := by
  rintro ⟨_, _, hrequested⟩
  obtain ⟨reason, _, _, hrejected⟩ := h
  cases (hrequested.unique hrejected).1

lemma Unknown.not_requested {w : World} {source : String} {continuation : Continuation}
    (h : w.Unknown source continuation) : ¬ w.InExchange source := by
  rintro ⟨_, _, hrequested⟩
  obtain ⟨reason, _, _, hunknown, -⟩ := h
  cases (hrequested.unique hunknown).1

lemma Unknown.not_rejected {w : World} {source : String} {continuation : Continuation}
    (h : w.Unknown source continuation) : ¬ w.Rejected source := by
  rintro ⟨_, _, _, hrejected⟩
  obtain ⟨reason, _, _, hunknown, -⟩ := h
  cases (hrejected.unique hunknown).1

end World

/-! ### Commits of a response -/

section Commits

variable {codec : CookieCodec} {env : Env} {r : Run} {source : StoredAuth} {header : String}
  {response : EnjiHttpResponse}

lemma ends_plain {α : Type} {p : Auth α} {Q : α → Run → Prop} {E : PyError → Run → Prop}
    (hp : Ends p r Q E) :
    Ends (Auth.plain p) r Q fun e r' => ∃ e', e = .plain e' ∧ E e' r' :=
  hp.tryCatch fun e' _ h => Ends.raise ⟨e', rfl, h⟩

lemma finally_plain {α : Type} {p : Auth α} {P : Run → Prop} (hp : Finally p r P) :
    Finally (Auth.plain p) r P := hp.tryCatch fun _ _ h => h

/-- The locked part of a commit of a successor rotates the source. -/
lemma finally_commitSuccessor (h : env.Healthy) (hfinds : env.Finds r.world source)
    (hcookie : source.credential = .cookie header) {loaded : JournalLoadResult}
    (hjournal : journalOf r.world.journal = .ok loaded) (merged successor : String) :
    Finally (commitSuccessor env source.revision merged successor) r
      fun r' => r'.world.CommitsRotation source.revision := by
  have hnever : ∀ (e : PyError) (r' : Run), False → r'.world.CommitsRotation source.revision :=
    fun _ _ hfalse => hfalse.elim
  refine finally_withAuthFileLock (P := fun w => w.CommitsRotation source.revision) h
    fun r₁ h₁ => ?_
  rw [← h₁.world] at hfinds hjournal
  refine Finally.bind (ends_isSuperseded_of_finds h hfinds) (fun superseded r₂ h₂ => ?_) hnever
  obtain ⟨hleft₂, rfl⟩ := h₂
  simp only [Bool.false_eq_true, if_false]
  rw [← hleft₂.world] at hfinds hjournal
  refine Finally.bind (ends_attemptForSource h hjournal) (fun found r₃ h₃ => ?_) hnever
  rw [← h₃.1.world] at hfinds
  refine Finally.bind (ends_writeJournal h) (fun _ r₄ h₄ => ?_) hnever
  have hfinds₄ : env.Finds r₄.world source := by
    rw [h₄.world]
    exact hfinds.congr rfl
  have hpending : r₄.world.Pending (.rotated source.revision merged successor)
      (withoutOwner found) := by
    rw [h₄.world]
    exact World.journalHolds_setJournal _ _ _ _ _
  refine Finally.bind (ends_casReplaceCookie_of_finds h hfinds₄ hcookie merged successor)
    (fun result r₅ h₅ => ?_) hnever
  obtain ⟨written, rfl, hrevision, hcredential, hleft₅⟩ := h₅
  have hheld : r₅.world.Holds written := by
    rw [hleft₅.world]
    exact World.holds_setCredential _ _ _
  refine Finally.seq ((finally_recordTerminalOutcome ?_ ?_).weaken fun r' hr' => ?_)
    fun _ _ hrotated => hrotated
  · rw [hleft₅.world]
    exact hpending
  · rintro _ ⟨⟩
    exact ⟨written, hheld, hrevision⟩
  · refine ⟨written, merged, _, ?_, hcredential, hrevision ▸ hr'.1⟩
    unfold World.Holds at hheld ⊢
    rw [hr'.2]
    exact hheld

/-- A successor is committed exactly when its diagnostics can be prepared. -/
lemma finally_commitSuccess (h : env.Healthy) (hfinds : env.Finds r.world source)
    (hcookie : source.credential = .cookie header) {loaded : JournalLoadResult}
    (hjournal : journalOf r.world.journal = .ok loaded) (merged : String) :
    Finally (commitSuccess codec env source merged response) r fun r' =>
      (Observable codec env r.world source (some response) (some merged)
        (env.now r.cursor.now) → r'.world.CommitsRotation source.revision) ∧
      (¬ Observable codec env r.world source (some response) (some merged)
        (env.now r.cursor.now) → r'.world = r.world) := by
  have hminted : Ends (Auth.plain (mintRevision env)) r (fun _ r' => r.Left r.world r')
      fun _ _ => False := Ends.of_run rfl ⟨rfl, rfl⟩
  refine Finally.bind hminted (fun successor r₁ h₁ => ?_) fun _ _ hfalse => hfalse.elim
  have htransition : Ends (Auth.plain (transitionOrRaise (.journaled (.requested source.revision))
      (.exchangeSucceeded merged successor))) r₁
      (fun state r' => state = .journaled (.terminal (.rotated source.revision merged successor)) ∧
        r' = r₁) fun _ _ => False := Ends.of_run rfl ⟨rfl, rfl⟩
  refine Finally.bind htransition (fun state r₂ h₂ => ?_) fun _ _ hfalse => hfalse.elim
  obtain ⟨rfl, rfl⟩ := h₂
  dsimp only
  refine Finally.bind (ends_plain (ends_emitRefreshObservation h source (some response)
    (some merged))) (fun _ r₃ h₃ => ?_) ?_
  · rw [h₁.world, h₁.now] at h₃
    obtain ⟨hworld, hobservable⟩ := h₃
    have hstored : Ends (Auth.plain (storedAuth env source.baseUrl (.cookie merged)
        (some successor))) r₃ (fun _ r' => r₃.Left r₃.world r') fun _ _ => False :=
      Ends.of_run rfl ⟨rfl, rfl⟩
    refine Finally.bind hstored (fun auth r₄ h₄ => ?_) fun _ _ hfalse => hfalse.elim
    have hworld₄ : r₄.world = r.world := h₄.world.trans hworld
    rw [← hworld₄] at hfinds hjournal
    refine Finally.weaken (P := fun r' => r'.world.CommitsRotation source.revision) ?_
      fun r' hrotated => ⟨fun _ => hrotated, fun hnot => absurd hobservable hnot⟩
    refine (finally_commitSuccessor h hfinds hcookie hjournal merged successor).tryCatch ?_
    intro e r' hrotated
    split_ifs
    · exact hrotated
    · exact hrotated
  · rintro e r' ⟨e', -, hworld, hnot⟩
    rw [h₁.world, h₁.now] at hnot
    exact ⟨fun hobservable => absurd hobservable hnot, fun _ => hworld.trans h₁.world⟩

/-- A rejection is committed. -/
lemma finally_commitRejected (h : env.Healthy) (hfinds : env.Finds r.world source)
    {loaded : JournalLoadResult} (hjournal : journalOf r.world.journal = .ok loaded)
    (reason : String) :
    Finally (commitRejected env source.revision reason) r
      fun r' => r'.world.Rejected source.revision := by
  have hnever : ∀ (e : PyError) (r' : Run), False → r'.world.Rejected source.revision :=
    fun _ _ hfalse => hfalse.elim
  refine Finally.seq ?_ fun current r' hrejected => ?_
  · refine finally_withAuthFileLock (P := fun w => w.Rejected source.revision) h
      fun r₁ h₁ => ?_
    rw [← h₁.world] at hfinds hjournal
    refine Finally.bind (ends_isSuperseded_of_finds h hfinds) (fun superseded r₂ h₂ => ?_) hnever
    obtain ⟨hleft₂, rfl⟩ := h₂
    simp only [Bool.false_eq_true, if_false]
    rw [← hleft₂.world] at hjournal
    refine Finally.bind (ends_attemptForSource h hjournal) (fun found r₃ h₃ => ?_) hnever
    refine Finally.bind (ends_writeJournal h) (fun _ r₄ h₄ => ?_) hnever
    refine Finally.seq ((finally_recordTerminalOutcome ?_ ?_).weaken fun r' hr' => ?_)
      fun _ _ hrejected => hrejected
    · rw [h₄.world]
      exact World.journalHolds_setJournal _ _ _ _ _
    · rintro _ ⟨⟩
    · rcases hr'.1 with ⟨enqueued, hheld⟩ | ⟨hsome, -⟩
      · exact ⟨reason, enqueued, _, hheld⟩
      · cases hsome
  · cases current with
    | none => exact hrejected
    | some current => exact hrejected

/-- The outcome of an exchange is journaled as unknown with the continuation of its lane, or with
none when the lane, the cap or the deadline is exhausted. -/
def World.Continues (w : World) (env : Env) (k : Nat) (source : String) (found : RotationAttempt)
    (lane : RecoveryLane) : Prop :=
  ∃ deadline, (env.now k).add? recoveryWindow = some deadline ∧
    (Exhausted found lane (found.deadlineOr (isoformat deadline)) (env.now (k + 1)) →
      w.Unknown source .stop) ∧
    (¬ Exhausted found lane (found.deadlineOr (isoformat deadline)) (env.now (k + 1)) →
      w.Unknown source (.lane lane))

/-- An unknown outcome is committed exactly when its times are representable. -/
lemma finally_commitUnknown (h : env.Healthy) (hfinds : env.Finds r.world source)
    {loaded : JournalLoadResult} (hjournal : journalOf r.world.journal = .ok loaded)
    (hclass : ∃ text, normalizedResponseClass response = .ok text) (reason : String)
    (lane : RecoveryLane) :
    Finally (commitUnknown codec env source reason lane (some response)) r fun r' =>
      (Schedulable env r.cursor.now (attemptOfJournal source.revision loaded) lane →
        r'.world.Continues env r.cursor.now source.revision
          (attemptOfJournal source.revision loaded) lane) ∧
      (¬ Schedulable env r.cursor.now (attemptOfJournal source.revision loaded) lane →
        r'.world = r.world) := by
  obtain ⟨text, htext⟩ := hclass
  obtain ⟨found, hfound⟩ : ∃ found, found = attemptOfJournal source.revision loaded := ⟨_, rfl⟩
  rw [← hfound]
  let P : World → Prop := fun w =>
    (Schedulable env r.cursor.now found lane →
      w.Continues env r.cursor.now source.revision found lane) ∧
    (¬ Schedulable env r.cursor.now found lane → w = r.world)
  have hnever : ∀ (e : PyError) (r' : Run), False → P r'.world := fun _ _ hfalse => hfalse.elim
  refine Finally.seq ?_ fun result r' hr' => ?_
  · refine finally_withAuthFileLock (P := P) h fun r₁ h₁ => ?_
    have hw₁ := h₁.world
    rw [← hw₁] at hfinds hjournal
    -- the source is the stored revision, and the attempt that of its journal
    refine Finally.bind (ends_isSuperseded_of_finds h hfinds) (fun superseded r₂ h₂ => ?_) hnever
    obtain ⟨hleft₂, rfl⟩ := h₂
    have hw₂ := hleft₂.world.trans hw₁
    simp only [Bool.false_eq_true, if_false]
    rw [← hleft₂.world] at hjournal
    refine Finally.bind (ends_attemptForSource h hjournal) (fun _ r₃ h₃ => ?_) hnever
    obtain ⟨hleft₃, rfl⟩ := h₃
    rw [← hfound]
    have hw₃ := hleft₃.world.trans hw₂
    have hnow₃ : r₃.cursor.now = r.cursor.now :=
      hleft₃.now.trans (hleft₂.now.trans h₁.now)
    refine Finally.bind ends_recoveryDeadline ?_ ?_
    · rintro deadline r₄ ⟨hticked, hdeadline⟩
      rw [hnow₃] at hdeadline
      refine Finally.bind (ends_nowFn env) (fun now r₅ h₅ => ?_) hnever
      obtain ⟨rfl, hw₅, -⟩ := h₅
      have hw₅ := hw₅.trans (hticked.world.trans hw₃)
      rw [hticked.now, hnow₃]
      rcases hscheduled : withContinuation found lane deadline (env.now (r.cursor.now + 1)) with
        e | scheduled
      · -- a time that cannot be represented ends the commit before its record
        refine Finally.of_error rfl ⟨fun hschedulable => ?_, fun _ => hw₅⟩
        obtain ⟨t, hadd, hreckonable⟩ := hschedulable
        rw [isoformatAfter_eq_ok hadd] at hdeadline
        cases hdeadline
        obtain ⟨attempt', hattempt⟩ := withContinuation_ok_iff.2 hreckonable
        rw [hscheduled] at hattempt
        cases hattempt
      · refine Finally.of_ok rfl (Finally.of_ok (a := some text) ?_ ?_)
        · simp [observedClass, htext, Except.map]
        · refine Finally.bind (ends_writeJournal h) (fun _ r₆ h₆ => ?_) hnever
          have hpending : r₆.world.Pending (.outcomeUnknown source.revision reason)
              { scheduled with responseClass := some text } := by
            rw [h₆.world]
            exact World.journalHolds_setJournal _ _ _ _ _
          -- what follows the record only marks it, whether or not it is reported
          have hcontinues : ∀ {w : World} {enqueued : Bool}, w.JournalHolds
              (.terminal (.outcomeUnknown source.revision reason)) enqueued
              { scheduled with responseClass := some text } → P w := by
            intro w enqueued hheld
            obtain ⟨t, hadd⟩ : ∃ t, (env.now r.cursor.now).add? recoveryWindow = some t := by
              rcases hadd : (env.now r.cursor.now).add? recoveryWindow with _ | t
              · rw [isoformatAfter_eq_error hadd] at hdeadline
                cases hdeadline
              · exact ⟨t, rfl⟩
            rw [isoformatAfter_eq_ok hadd] at hdeadline
            cases hdeadline
            obtain ⟨hstop, hlane⟩ := continuation_of_withContinuation hscheduled
            refine ⟨fun _ => ⟨t, hadd, fun hexhausted => ?_, fun hroom => ?_⟩, fun hnot => ?_⟩
            · exact ⟨reason, _, _, hheld, hstop hexhausted⟩
            · exact ⟨reason, _, _, hheld, hlane hroom⟩
            · exact absurd ⟨t, hadd, withContinuation_ok_iff.1 ⟨scheduled, hscheduled⟩⟩ hnot
          refine Finally.bind (ends_emitRefreshObservation h source (some response) none)
            (fun _ r₇ h₇ => ?_) ?_
          · rw [← h₇.1] at hpending
            refine Finally.seq ((finally_recordTerminalOutcome hpending (by rintro _ ⟨⟩)).weaken
              fun r' hr' => ?_) fun _ _ hr' => hr'
            rcases hr'.1 with ⟨enqueued, hheld⟩ | ⟨hsome, -⟩
            · exact hcontinues hheld
            · cases hsome
          · rintro e r₇ ⟨hw₇, -⟩
            rw [← hw₇] at hpending
            exact hcontinues hpending
    · rintro e r₄ ⟨hticked, herror⟩
      refine ⟨fun hschedulable => ?_, fun _ => hticked.world.trans hw₃⟩
      obtain ⟨deadline, hadd, -⟩ := hschedulable
      rw [hnow₃, isoformatAfter_eq_ok hadd] at herror
      cases herror
  · rcases result with current | _ | _ | _
    all_goals exact hr'

/-- A response leaves its attempt classified: it is rotated when the response carries a complete
successor, rejected when it rejects the credential, and of unknown outcome otherwise, with what
continues it; and it is no longer in flight. `k` is the number of clock readings before. -/
structure Classified (codec : CookieCodec) (env : Env) (r : Run) (source : StoredAuth)
    (found : RotationAttempt) (response : EnjiHttpResponse) (w : World) : Prop where
  rotated : w.CommitsRotation source.revision ↔ response.Complete codec env.wall r.cursor.wall
  rejected : w.Rejected source.revision ↔ response.Rejects
  unknown : ¬ response.Complete codec env.wall r.cursor.wall → ¬ response.Rejects →
    w.Continues env r.cursor.now source.revision found response.lane
  settled : ¬ w.InExchange source.revision

/-- What is looked at on the way to the terminal record can be looked at. -/
structure Classifiable (codec : CookieCodec) (env : Env) (r : Run) (source : StoredAuth)
    (header : String) (found : RotationAttempt) (response : EnjiHttpResponse) : Prop where
  /-- No date of an authentication cookie overflows where the merge looks at it. -/
  dated : ¬ response.Overflows codec header env.wall r.cursor.wall
  /-- A complete successor fits the stored cookies, and its diagnostics can be prepared. -/
  complete : response.Complete codec env.wall r.cursor.wall →
    ∃ merged, mergedHeader codec header response.setCookieHeaders = some merged ∧
      Observable codec env r.world source (some response) (some merged) (env.now r.cursor.now)
  /-- Without one, the body is text that the parser does not refuse. -/
  decodable : ¬ response.Complete codec env.wall r.cursor.wall → ¬ response.Undecodable
  /-- The diagnostics of a rejection can be prepared. -/
  rejects : response.Rejects →
    Observable codec env r.world source (some response) none (env.now r.cursor.now)
  /-- The times of an unknown outcome are representable. -/
  schedulable : ¬ response.Complete codec env.wall r.cursor.wall → ¬ response.Rejects →
    Schedulable env r.cursor.now found response.lane

lemma EnjiHttpResponse.Complete.not_overflows {wall : Nat → Datetime} {n : Nat}
    (h : response.Complete codec wall n) : ¬ response.Overflows codec header wall n := by
  obtain ⟨-, -, -, updates, hstorable⟩ := h
  exact fun hoverflows => hstorable.not_reaches hoverflows.reaches

lemma EnjiHttpResponse.Rejects.not_overflows {wall : Nat → Datetime} {n : Nat}
    (h : response.Rejects) : ¬ response.Overflows codec header wall n := by
  intro hoverflows
  have hfailure := h.1
  rw [hoverflows.status] at hfailure
  cases hfailure

lemma EnjiHttpResponse.Rejects.not_complete {wall : Nat → Datetime} {n : Nat}
    (h : response.Rejects) : ¬ response.Complete codec wall n := by
  rintro ⟨hstatus, -⟩
  have hfailure := h.1
  rw [hstatus] at hfailure
  cases hfailure

lemma EnjiHttpResponse.Rejects.decodable (h : response.Rejects) : ¬ response.Undecodable := by
  intro hundecodable
  obtain ⟨-, -, hmessage⟩ := h
  have hnone : response.message? = none := by
    rcases hundecodable with hcontent | ⟨_, hcontent⟩ <;>
      simp [EnjiHttpResponse.message?, EnjiHttpResponse.fields?, hcontent]
  rw [hnone] at hmessage
  rcases hmessage with hmessage | hmessage <;> cases hmessage

lemma normalizedResponseClass_ok (h : ¬ response.Undecodable) :
    ∃ text, normalizedResponseClass response = .ok text := by
  unfold normalizedResponseClass
  rw [responseContinuation_eq h]
  split_ifs <;> exact ⟨_, rfl⟩

/-- How the commit of a response passes its errors on leaves the files alone. -/
lemma finally_commitExchange {P : Run → Prop}
    (h : Finally (commitResponse codec env source response) r P) :
    Finally (commitExchange codec env source (.response response)) r P := by
  refine h.tryCatch fun e r' hr' => ?_
  cases e with
  | plain e =>
    dsimp only
    split_ifs
    · exact hr'
    · exact hr'
  | postDispatchPersistence retained => exact hr'

/-- How the commit of a response ends: in one of the three outcomes, or with the files as they
were, for want of something that a classification needs. -/
inductive ResponseEnds (codec : CookieCodec) (env : Env) (r : Run) (source : StoredAuth)
    (header : String) (found : RotationAttempt) (response : EnjiHttpResponse) (w : World) : Prop
  | rotated {merged : String} (hcomplete : response.Complete codec env.wall r.cursor.wall)
      (hmerged : mergedHeader codec header response.setCookieHeaders = some merged)
      (hobservable : Observable codec env r.world source (some response) (some merged)
        (env.now r.cursor.now))
      (h : w.CommitsRotation source.revision)
  | rejected (hrejects : response.Rejects)
      (hobservable : Observable codec env r.world source (some response) none
        (env.now r.cursor.now))
      (h : w.Rejected source.revision)
  | unknown (hdated : ¬ response.Overflows codec header env.wall r.cursor.wall)
      (hnone : response.Complete codec env.wall r.cursor.wall →
        mergedHeader codec header response.setCookieHeaders = none)
      (hdecodable : ¬ response.Undecodable) (hrejects : ¬ response.Rejects)
      (hschedulable : Schedulable env r.cursor.now found response.lane)
      (h : w.Continues env r.cursor.now source.revision found response.lane)
  | kept (hnot : ¬ Classifiable codec env r source header found response) (h : w = r.world)

variable {found : RotationAttempt} {enqueued : Bool} {migrated : Option Nat}

/-- Committing a response to an exchange in flight. -/
lemma finally_response (h : env.Healthy) (hfinds : env.Finds r.world source)
    (hcookie : source.credential = .cookie header)
    (hjournal : journalOf r.world.journal =
      .ok (.loaded (.requested source.revision) enqueued found migrated)) :
    Finally (commitExchange codec env source (.response response)) r fun r' =>
      ResponseEnds codec env r source header found response r'.world := by
  have hattempt : attemptOfJournal source.revision
      (.loaded (.requested source.revision) enqueued found migrated) = found := by
    simp [attemptOfJournal, JournalState.sourceRevision]
  have hreplacement : Ends (Auth.plain (successfulReplacement codec env source response)) r
      (fun merged r' => (∃ reads, r.Clocked reads r') ∧
        ¬ response.Overflows codec header env.wall r.cursor.wall ∧
        (response.Complete codec env.wall r.cursor.wall →
          merged = mergedHeader codec header response.setCookieHeaders) ∧
        (¬ response.Complete codec env.wall r.cursor.wall → merged = none))
      (fun _ r' => (∃ reads, r.Clocked reads r') ∧
        response.Overflows codec header env.wall r.cursor.wall) := by
    refine (ends_plain (ends_successfulReplacement hcookie response)).weaken (fun _ _ k => k) ?_
    rintro _ r' ⟨_, -, h⟩
    exact h
  refine finally_commitExchange (Finally.bind hreplacement (fun replacement r₁ h₁ => ?_)
    fun _ r' hoverflows => .kept (fun hclassifiable => hclassifiable.dated hoverflows.2) ?_)
  swap
  · obtain ⟨⟨reads, hclocked⟩, -⟩ := hoverflows
    exact hclocked.world
  obtain ⟨⟨reads, hclocked⟩, hdated, hmerged, hno⟩ := h₁
  have hworld := hclocked.world
  have hnow := hclocked.now
  rw [← hworld] at hfinds hjournal
  cases replacement with
  | some merged =>
    -- a merged header comes from a complete response only
    have hcomplete : response.Complete codec env.wall r.cursor.wall := by
      by_contra hnot
      cases hno hnot
    refine (finally_commitSuccess h hfinds hcookie hjournal merged).weaken fun r' hr' => ?_
    rw [hworld, hnow] at hr'
    by_cases hobservable : Observable codec env r.world source (some response) (some merged)
        (env.now r.cursor.now)
    · exact .rotated hcomplete (hmerged hcomplete).symm hobservable (hr'.1 hobservable)
    · refine .kept (fun hclassifiable => ?_) (hr'.2 hobservable)
      obtain ⟨merged', hmerged', hobservable'⟩ := hclassifiable.complete hcomplete
      rw [← hmerged hcomplete] at hmerged'
      cases hmerged'
      exact hobservable hobservable'
  | none =>
    have hnone : response.Complete codec env.wall r.cursor.wall →
        mergedHeader codec header response.setCookieHeaders = none :=
      fun hcomplete => (hmerged hcomplete).symm
    refine finally_plain ?_
    -- without a successor the body is decoded, and then the status decides
    by_cases hundecodable : response.Undecodable
    · obtain ⟨e, he⟩ := responseContinuation_undecodable hundecodable
      refine Finally.of_error he (.kept (fun hclassifiable => ?_) hworld)
      by_cases hcomplete : response.Complete codec env.wall r.cursor.wall
      · obtain ⟨merged, hsome, -⟩ := hclassifiable.complete hcomplete
        rw [hnone hcomplete] at hsome
        cases hsome
      · exact hclassifiable.decodable hcomplete hundecodable
    · refine Finally.of_ok (responseContinuation_eq hundecodable) ?_
      by_cases hrejects : response.Rejects
      · rw [if_pos hrejects]
        refine Finally.bind (ends_emitRefreshObservation h source (some response) none)
          (fun _ r₂ h₂ => ?_) ?_
        · rw [← h₂.1] at hfinds hjournal
          refine (finally_commitRejected h hfinds hjournal _).weaken fun r' hrejected => ?_
          rw [hworld, hnow] at h₂
          exact .rejected hrejects h₂.2 hrejected
        · rintro e r₂ ⟨hworld₂, hnot⟩
          rw [hworld, hnow] at hnot
          exact .kept (fun hclassifiable => hnot (hclassifiable.rejects hrejects))
            (hworld₂.trans hworld)
      · rw [if_neg hrejects]
        refine (finally_commitUnknown h hfinds hjournal (normalizedResponseClass_ok hundecodable)
          _ response.lane).weaken fun r' hr' => ?_
        rw [hattempt, hworld, hnow] at hr'
        by_cases hschedulable : Schedulable env r.cursor.now found response.lane
        · exact .unknown hdated hnone hundecodable hrejects hschedulable (hr'.1 hschedulable)
        · refine .kept (fun hclassifiable => ?_) (hr'.2 hschedulable)
          by_cases hcomplete : response.Complete codec env.wall r.cursor.wall
          · obtain ⟨merged, hsome, -⟩ := hclassifiable.complete hcomplete
            rw [hnone hcomplete] at hsome
            cases hsome
          · exact hschedulable (hclassifiable.schedulable hcomplete hrejects)

lemma World.Continues.unknown {w : World} {k : Nat} {lane : RecoveryLane} {revision : String}
    (h : w.Continues env k revision found lane) :
    ∃ continuation, w.Unknown revision continuation := by
  obtain ⟨deadline, -, hstop, hlane⟩ := h
  by_cases hexhausted : Exhausted found lane (found.deadlineOr (isoformat deadline))
      (env.now (k + 1))
  · exact ⟨_, hstop hexhausted⟩
  · exact ⟨_, hlane hexhausted⟩

/-- Committing a response to an exchange in flight, with healthy storage and a source that is
still the stored one, classifies it exactly when it is classifiable. -/
theorem classified_iff (h : env.Healthy) (hfinds : env.Finds r.world source)
    (hcookie : source.credential = .cookie header)
    (hjournal : journalOf r.world.journal =
      .ok (.loaded (.requested source.revision) enqueued found migrated)) :
    Classified codec env r source found response
        (commitExchange codec env source (.response response) r).2.world ↔
      Classifiable codec env r source header found response := by
  have hends : ResponseEnds codec env r source header found response
      (commitExchange codec env source (.response response) r).2.world :=
    finally_response h hfinds hcookie hjournal
  generalize (commitExchange codec env source (.response response) r).2.world = w at hends
  have hrequested : r.world.InExchange source.revision :=
    ⟨enqueued, found, World.journalHolds_of_journalOf hjournal⟩
  -- the journal holds one outcome at most, so each way to end rules the others out
  cases hends with
  | rotated hcomplete hmerged hobservable hrotated =>
    have hrejects : ¬ response.Rejects := fun hrejects => hrejects.not_complete hcomplete
    constructor
    · intro _
      exact ⟨hcomplete.not_overflows, fun _ => ⟨_, hmerged, hobservable⟩,
        fun hnot => absurd hcomplete hnot, fun hbad => absurd hbad hrejects,
        fun hnot => absurd hcomplete hnot⟩
    · intro _
      refine ⟨⟨fun _ => hcomplete, fun _ => hrotated⟩, ⟨?_, fun hbad => absurd hbad hrejects⟩,
        fun hnot => absurd hcomplete hnot, ?_⟩
      · rintro ⟨_, _, _, hheld⟩
        exact absurd hheld (hrotated.not_holds rfl)
      · rintro ⟨_, _, hheld⟩
        exact hrotated.not_holds rfl hheld
  | rejected hrejects hobservable hrejected =>
    have hcomplete : ¬ response.Complete codec env.wall r.cursor.wall := hrejects.not_complete
    constructor
    · intro _
      exact ⟨hrejects.not_overflows, fun hbad => absurd hbad hcomplete,
        fun _ => hrejects.decodable, fun _ => hobservable, fun _ hnot => absurd hrejects hnot⟩
    · intro _
      refine ⟨⟨fun hrotated => ?_, fun hbad => absurd hbad hcomplete⟩,
        ⟨fun _ => hrejects, fun _ => hrejected⟩, fun _ hnot => absurd hrejects hnot,
        hrejected.not_requested⟩
      obtain ⟨reason, _, _, hheld⟩ := hrejected
      exact absurd hheld (hrotated.not_holds rfl)
  | unknown hdated hnone hdecodable hrejects hschedulable hcontinues =>
    obtain ⟨continuation, hunknown⟩ := hcontinues.unknown
    have hrotated : ¬ w.CommitsRotation source.revision := by
      obtain ⟨reason, _, _, hheld, -⟩ := hunknown
      exact fun hrotated => hrotated.not_holds rfl hheld
    constructor
    · intro hclassified
      have hcomplete : ¬ response.Complete codec env.wall r.cursor.wall :=
        fun hcomplete => hrotated (hclassified.rotated.2 hcomplete)
      exact ⟨hdated, fun hbad => absurd hbad hcomplete, fun _ => hdecodable,
        fun hbad => absurd hbad hrejects, fun _ _ => hschedulable⟩
    · intro hclassifiable
      have hcomplete : ¬ response.Complete codec env.wall r.cursor.wall := by
        intro hcomplete
        obtain ⟨merged, hsome, -⟩ := hclassifiable.complete hcomplete
        rw [hnone hcomplete] at hsome
        cases hsome
      exact ⟨⟨fun hbad => absurd hbad hrotated, fun hbad => absurd hbad hcomplete⟩,
        ⟨fun hbad => absurd hbad hunknown.not_rejected, fun hbad => absurd hbad hrejects⟩,
        fun _ _ => hcontinues, hunknown.not_requested⟩
  | kept hnot hkept =>
    refine ⟨fun hclassified => ?_, fun hclassifiable => absurd hclassifiable hnot⟩
    exact absurd (hkept ▸ hrequested) hclassified.settled

end Commits

/-! ### A body that is no text -/

/-- The attempt of the first exchange of a calm run. -/
def firstOwned : RotationAttempt :=
  ownedAttempt (firstAttempt "r0" (isoformat (launchAfter 600))) (worker 1)

/-- The files of a calm run while its first exchange is in flight. -/
def firstRequested : World :=
  (Sys.installed firstAuth).world.setJournal (.requested "r0") false firstOwned (some launch)

lemma Env.healthy_calm (owner : RefreshOwner) (now : Datetime) (minted : String) :
    (Env.calm owner now minted).Healthy := ⟨fun _ _ => rfl, fun _ _ => rfl⟩

/-- What is imported at the launch is loaded then. -/
lemma authOf_launch (credential : Credential) :
    authOf launch (some (.json (authPayload { firstAuth with credential := credential }))) =
      .ok (.loaded { firstAuth with credential := credential }) := by
  have hparsed : parseUtcTimestamp firstAuth.importedAt = some launch := by decide +kernel
  have hlatest : launch.add? importedAtFutureTolerance = some (launchAfter 5) := by decide +kernel
  have hpast : ¬ launchAfter 5 < launch := by decide +kernel
  have hvalid : validateImportedAt firstAuth.importedAt launch = .ok none := by
    rw [validateImportedAt, hparsed]
    simp only [hlatest, if_neg hpast]
  change parseAuth (authPayload { firstAuth with credential := credential }) launch = _
  rw [parseAuth_authPayload]
  simp only [hvalid]
  rfl

lemma authOf_firstAuth :
    authOf launch (some (.json (authPayload firstAuth))) = .ok (.loaded firstAuth) :=
  authOf_launch firstAuth.credential

lemma journalOf_firstRequested :
    journalOf firstRequested.journal = .ok (.loaded (.requested "r0") false firstOwned none) := by
  decide +kernel

/-- The jar of the response of a calm run. -/
def successJar : CookieJar :=
  [("access_token", ⟨"c", "c", "", ""⟩), ("refresh_token", ⟨"d", "d", "", ""⟩)]

/-- The successor of a calm run is complete for a codec that reads it so. -/
lemma complete_of_jar {codec : CookieCodec} (wall : Nat → Datetime) (n : Nat)
    (hjar : cookieJar codec [] successResponse.setCookieHeaders = some successJar)
    (hupdates : cookieUpdates codec successResponse.setCookieHeaders = some successJar) :
    successResponse.Complete codec wall n := by
  refine ⟨rfl, ⟨_, hjar, by simp [successJar]⟩, ⟨_, hjar, by simp [successJar]⟩, _, hupdates, ?_⟩
  simp [successJar, AllPersistable, Morsel.Persistable, isExpiredMaxAge]

lemma complete_successResponse (wall : Nat → Datetime) (n : Nat) :
    successResponse.Complete plainCodec wall n :=
  complete_of_jar wall n (by decide +kernel) (by decide +kernel)

lemma finds_firstRequested (owner : RefreshOwner) (minted : String) :
    (Env.calm owner launch minted).Finds firstRequested firstAuth := fun _ => authOf_firstAuth

theorem classified_iff_success :
    (commitExchange plainCodec (.calm (worker 1) launch "r1") firstAuth
      (.response successResponse) (Run.start firstRequested)).2.world.CommitsRotation "r0" := by
  have hcomplete := complete_successResponse (Env.calm (worker 1) launch "r1").wall
    (Run.start firstRequested).cursor.wall
  have hmerged : mergedHeader plainCodec "access_token=a; refresh_token=b"
      successResponse.setCookieHeaders = some "access_token=c; refresh_token=d" := by
    decide +kernel
  have hclassifiable : Classifiable plainCodec (.calm (worker 1) launch "r1")
      (Run.start firstRequested) firstAuth "access_token=a; refresh_token=b" firstOwned
      successResponse :=
    ⟨hcomplete.not_overflows, fun _ => ⟨_, hmerged, by rintro ⟨⟩⟩,
      fun hnot => absurd hcomplete hnot,
      fun hrejects => absurd hcomplete hrejects.not_complete, fun hnot => absurd hcomplete hnot⟩
  have hclassified : Classified plainCodec (.calm (worker 1) launch "r1")
      (Run.start firstRequested) firstAuth firstOwned successResponse
      (commitExchange plainCodec (.calm (worker 1) launch "r1") firstAuth
        (.response successResponse) (Run.start firstRequested)).2.world :=
    (classified_iff (r := Run.start firstRequested) (Env.healthy_calm (worker 1) launch "r1")
      (finds_firstRequested (worker 1) "r1") rfl journalOf_firstRequested).2 hclassifiable
  exact hclassified.rotated.2 hcomplete

/-- A response whose body is no text. -/
def garbledResponse : EnjiHttpResponse := ⟨500, some .notUtf8, []⟩

/-- A healthy commit of a response can leave its attempt in flight. -/
theorem not_classified_garbledResponse :
    ¬ ∀ (codec : CookieCodec) (env : Env) (r : Run) (source : StoredAuth) (header : String)
      (enqueued : Bool) (found : RotationAttempt) (migrated : Option Nat)
      (response : EnjiHttpResponse), env.Healthy → env.Finds r.world source →
      source.credential = .cookie header → journalOf r.world.journal =
        .ok (.loaded (.requested source.revision) enqueued found migrated) →
      Classified codec env r source found response
        (commitExchange codec env source (.response response) r).2.world := by
  intro h
  have hclassified := h plainCodec (.calm (worker 1) launch "r1") (Run.start firstRequested)
    firstAuth _ _ _ _ garbledResponse (Env.healthy_calm _ _ _) (finds_firstRequested _ _) rfl
    journalOf_firstRequested
  exact hclassified.settled ⟨false, firstOwned, World.journalHolds_of_journalOf
    journalOf_firstRequested⟩

end EnjiGuard.AuthSession
