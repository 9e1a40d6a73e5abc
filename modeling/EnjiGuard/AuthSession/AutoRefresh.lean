import EnjiGuard.AuthSession.System
import Mathlib.Algebra.Order.Ring.Unbundled.Rat

/-!
# The automatic refresh loop

The loop schedules refreshes from the expiry of the stored token, waits for them or for another
credential, and reacts to the ways a refresh can end. A `Turn` is what one turn of the loop finds
outside of itself: loaded credentials, clock readings, what its waits see, and how the refresh or
the projection of a retained successor ended. An exception that no handler of the loop catches
escapes, and takes the supervised service down.
-/

namespace EnjiGuard.AuthSession

open Foundation Action

/-! ### Settings and delays -/

/-- The settings of the loop, in seconds. -/
structure AutoRefreshSettings where
  leadSeconds : Int
  fallbackSeconds : Int
  preDispatchRetryLimit : Nat
  preDispatchRetryInitialSeconds : Rat
  preDispatchRetryMaxSeconds : Rat
  preDispatchRetryJitterSeconds : Rat

variable (codec : CookieCodec) (settings : AutoRefreshSettings)

/-- When the access token of a stored cookie expires, if it says so. -/
def cookieAccessExpiresAt (auth : StoredAuth) : Except PyError (Option Datetime) :=
  match auth.credential with
  | .bearerToken _ => .ok none
  | .cookie cookieHeader => do
    match ← cookieValue codec cookieHeader "access_token" with
    | none => return none
    | some accessToken => jwtExpiresAt codec accessToken

/-- How long to wait before the stored credential is refreshed. -/
def cookieRefreshSleepSeconds (auth : StoredAuth) (now : Datetime) : Except PyError Int := do
  match ← cookieAccessExpiresAt codec auth with
  | none => return settings.fallbackSeconds
  | some expiresAt =>
    return max (Int.tdiv (expiresAt.sub now) 1000000 - settings.leadSeconds) 0

/-- What the loop catches around the computation of a delay. -/
def scheduleErrorIsCaught (e : PyError) : Bool := e.isOsError || e.isValueError

/-- The most doublings a float can take. -/
def floatExponentLimit : Nat := 1024

/-- The backoff before a retry; a power of two that no float holds overflows. -/
def preDispatchRetrySeconds (retryCount : Nat) (random : Rat) : Except PyError Rat :=
  if floatExponentLimit ≤ retryCount - 1 then .error .overflowError
  else
    .ok (min settings.preDispatchRetryMaxSeconds
      (settings.preDispatchRetryInitialSeconds * 2 ^ (retryCount - 1) +
        settings.preDispatchRetryJitterSeconds * random))

/-! ### Waiting -/

/-- What wakes a wait. -/
inductive Wake
  | slept
  | watcherChanged
  /-- The watcher fails; the boundary around it contains the failure. -/
  | watcherFailed
  | cancelled
  deriving DecidableEq

/-- One round of a wait: the stored credential, the monotonic clock, and what ends the round. -/
structure Poll where
  stored : AuthLoadResult
  clock : Rat
  wake : Wake

/-- What a wait sees, from the start of its monotonic clock. -/
structure Wait where
  start : Rat
  polls : List Poll

/-- Why the loop stops turning. -/
inductive LoopExit
  /-- It is in a wait that has not ended yet. -/
  | waiting
  | cancelled
  | escaped (error : CommitError)

/-- Polls until the stored revision is another one, the watcher reports a change or time is up. -/
def pollForCredentialChange (expectedRevision : Option String) (deadline : Rat) :
    Bool → List Poll → Except LoopExit Bool
  | _, [] => .error .waiting
  | watching, poll :: polls =>
    if currentRevision poll.stored ≠ expectedRevision then .ok true
    else if deadline - poll.clock ≤ 0 then .ok false
    else
      match poll.wake with
      | .slept => pollForCredentialChange expectedRevision deadline watching polls
      | .watcherChanged =>
        if watching then .ok true
        else pollForCredentialChange expectedRevision deadline false polls
      | .watcherFailed => pollForCredentialChange expectedRevision deadline false polls
      | .cancelled => .error .cancelled

/-- Waits for a change of the credential; the result is whether it changed. -/
def waitForCredentialChange (expectedRevision : Option String) (timeoutSeconds : Rat)
    (wait : Wait) : Except LoopExit Bool :=
  pollForCredentialChange expectedRevision (wait.start + timeoutSeconds) true wait.polls

/-- Waits until the revision changes, however long it takes. -/
def waitUntilRevisionChanges (sourceRevision : String) : List Wait → Except LoopExit Unit
  | [] => .error .waiting
  | wait :: waits => do
    if ← waitForCredentialChange (some sourceRevision) settings.fallbackSeconds wait then return ()
    else waitUntilRevisionChanges sourceRevision waits

/-! ### One turn -/

/-- What one turn of the loop finds outside of itself. -/
structure Turn where
  loaded : AuthLoadResult
  now : Datetime
  scheduleWait : Wait
  reloaded : AuthLoadResult
  /-- How the refresh ends, when the turn gets to one. -/
  refreshed : Except CommitError StoredAuth
  /-- How the projection of a retained successor ends, when there is one. -/
  projected : Except PyError RetainedSuccessorProjection
  random : Rat
  /-- The waits of the handler of a failure. -/
  handlerWait : Wait
  furtherWaits : List Wait

/-- What the loop remembers between turns. -/
structure LoopState where
  retryCount : Nat := 0
  projectionRetryCount : Nat := 0
  /-- The buffer of the one successor that awaits its projection. -/
  retainedSuccessor : Option RetainedRefreshSuccessor := none
  /-- How many waits the loop has come to; the program keeps no such count. -/
  waits : Nat := 0

/-- The credential of a load result, when it is a cookie. -/
def cookieAuthOrNone : AuthLoadResult → Option StoredAuth
  | .loaded auth =>
    match auth.credential with
    | .cookie _ => some auth
    | .bearerToken _ => none
  | _ => none

/-- Waits until a refresh is due; the result is the credential to refresh, if it is still there. -/
def scheduledCookieAuth (x : Turn) : Except LoopExit (Option StoredAuth) :=
  let expectedRevision := currentRevision x.loaded
  match cookieAuthOrNone x.loaded with
  | none => do
    let _ ← waitForCredentialChange expectedRevision settings.fallbackSeconds x.scheduleWait
    return none
  | some auth =>
    match cookieRefreshSleepSeconds codec settings auth x.now with
    | .error e =>
      if scheduleErrorIsCaught e then do
        let _ ← waitForCredentialChange expectedRevision settings.fallbackSeconds x.scheduleWait
        return none
      else .error (.escaped (.plain e))
    | .ok sleepSeconds => do
      if ← waitForCredentialChange expectedRevision sleepSeconds x.scheduleWait then return none
      else
        match cookieAuthOrNone x.reloaded with
        | none => return none
        | some current =>
          if some current.revision ≠ expectedRevision then return none else return some current

/-- Backs off after a failure before the dispatch; the result is the new retry count. -/
def handlePreDispatchError (expectedRevision : String) (retryCount : Nat) (x : Turn) :
    Except LoopExit Nat :=
  if settings.preDispatchRetryLimit ≤ retryCount then do
    let _ ← waitForCredentialChange (some expectedRevision) settings.fallbackSeconds x.handlerWait
    return 0
  else
    match preDispatchRetrySeconds settings (retryCount + 1) x.random with
    | .error e => .error (.escaped (.plain e))
    | .ok retrySeconds => do
      if ← waitForCredentialChange (some expectedRevision) retrySeconds x.handlerWait then
        return 0
      else return retryCount + 1

/-- Tries to project a retained successor; the result is whether that is settled. -/
def projectRetained (retained : RetainedRefreshSuccessor) (retryCount : Nat) (x : Turn) :
    Except LoopExit Bool :=
  match x.projected with
  | .ok (.projected _) => .ok true
  | .ok (.superseded _) => .ok true
  | .error .cancelled => .error .cancelled
  | .error e =>
    if e.isOsError then
      match preDispatchRetrySeconds settings (retryCount + 1) x.random with
      | .error e => .error (.escaped (.plain e))
      | .ok retrySeconds => do
        let _ ← waitForCredentialChange (some retained.sourceRevision) retrySeconds x.handlerWait
        return false
    else .error (.escaped (.plain e))

def projectionTurn (s : LoopState) (retained : RetainedRefreshSuccessor) (x : Turn) :
    Except LoopExit LoopState := do
  if ← projectRetained settings retained s.projectionRetryCount x then
    return { retryCount := 0, projectionRetryCount := 0, retainedSuccessor := none,
             waits := s.waits }
  else
    return { s with projectionRetryCount := s.projectionRetryCount + 1, waits := s.waits + 1 }

/-- A turn that schedules a refresh and reacts to how it ends. -/
def refreshTurn (s : LoopState) (x : Turn) : Except LoopExit LoopState := do
  match ← scheduledCookieAuth codec settings x with
  | none => return { s with retryCount := 0, waits := s.waits + 1 }
  | some auth =>
    match x.refreshed with
    | .ok _ => return { s with retryCount := 0, waits := s.waits + 1 }
    | .error (.plain (.preDispatchLocal _)) => do
      let retryCount ← handlePreDispatchError settings auth.revision s.retryCount x
      return { s with retryCount := retryCount, waits := s.waits + 2 }
    | .error (.postDispatchPersistence retained) =>
      return { retryCount := 0, projectionRetryCount := 0, retainedSuccessor := some retained,
               waits := s.waits + 1 }
    | .error (.plain (.recoveryRequired source _ retryAfter)) => do
      let _ ← waitForCredentialChange (some source) (max 0 ((retryAfter : Rat) / 1000000))
        x.handlerWait
      return { s with retryCount := 0, waits := s.waits + 2 }
    | .error (.plain (.terminalRevisionRequired source _)) => do
      waitUntilRevisionChanges settings source (x.handlerWait :: x.furtherWaits)
      return { s with retryCount := 0, waits := s.waits + 2 }
    | .error (.plain .cancelled) => .error .cancelled
    | .error e => .error (.escaped e)

def turn (s : LoopState) (x : Turn) : Except LoopExit LoopState :=
  match s.retainedSuccessor with
  | some retained => projectionTurn settings s retained x
  | none => refreshTurn codec settings s x

/-- The loop, as far as the turns go. -/
def autoRefreshLoop : LoopState → List Turn → Except LoopExit LoopState
  | s, [] => .ok s
  | s, x :: xs => do
    let s' ← turn codec settings s x
    autoRefreshLoop s' xs

/-! ### What a turn needs -/

/-- What the handlers of the loop catch; the backoff of a retry must be a float. -/
def Handled (retryCount : Nat) : Except CommitError StoredAuth → Prop
  | .ok _ => True
  | .error (.postDispatchPersistence _) => True
  | .error (.plain (.preDispatchLocal _)) =>
    retryCount < settings.preDispatchRetryLimit → retryCount < floatExponentLimit
  | .error (.plain (.recoveryRequired ..)) => True
  | .error (.plain (.terminalRevisionRequired ..)) => True
  | .error (.plain e) => e = .cancelled

/-- Nothing that a turn meets goes past the handlers of the loop. -/
structure Turn.Contained (s : LoopState) (x : Turn) : Prop where
  /-- A projection fails with a storage error only, and not too often in a row. -/
  projected : ∀ retained, s.retainedSuccessor = some retained → ∀ e, x.projected = .error e →
    e = .cancelled ∨ e.isOsError = true ∧ s.projectionRetryCount < floatExponentLimit
  /-- The delay of the stored token is computed, or fails in a way that is caught. -/
  delay : s.retainedSuccessor = none → ∀ auth, cookieAuthOrNone x.loaded = some auth →
    ∀ e, cookieRefreshSleepSeconds codec settings auth x.now = .error e →
      scheduleErrorIsCaught e = true
  /-- A refresh ends in one of the ways the loop handles. -/
  refreshed : s.retainedSuccessor = none →
    ∀ auth, scheduledCookieAuth codec settings x = .ok (some auth) →
      Handled settings s.retryCount x.refreshed

/-- An exit of the loop that is not an exception. -/
def LoopExit.Orderly : LoopExit → Prop
  | escaped _ => False
  | _ => True

/-- A part of a turn ends without an escaping exception. -/
def Calm {α : Type} (p : Except LoopExit α) : Prop := ∀ exit, p = .error exit → exit.Orderly

variable {codec settings} {s s' : LoopState} {x : Turn}

@[simp] lemma calm_ok {α : Type} (a : α) : Calm (.ok a) := by
  intro exit h
  cases h

@[simp] lemma calm_pure {α : Type} (a : α) : Calm (pure a) := calm_ok a

@[simp] lemma calm_error {α : Type} (exit : LoopExit) :
    Calm (.error exit : Except LoopExit α) ↔ exit.Orderly := by
  constructor
  · intro h
    exact h exit rfl
  · intro h exit' hexit
    cases hexit
    exact h

/-- A step that is calm leaves it to the rest. -/
lemma calm_bind {α β : Type} {p : Except LoopExit α} {f : α → Except LoopExit β} (hp : Calm p) :
    Calm (p >>= f) ↔ ∀ a, p = .ok a → Calm (f a) := by
  rcases p with exit | a
  · have hexit := hp exit rfl
    simp [bind, Except.bind, hexit]
  · simp [bind, Except.bind]

/-- A wait never raises. -/
lemma calm_pollForCredentialChange (expectedRevision : Option String) (deadline : Rat)
    (watching : Bool) (polls : List Poll) :
    Calm (pollForCredentialChange expectedRevision deadline watching polls) := by
  induction polls generalizing watching with
  | nil => simp [pollForCredentialChange, LoopExit.Orderly]
  | cons poll polls ih =>
    rcases hwake : poll.wake with _ | _ | _ | _ <;>
      simp only [pollForCredentialChange, hwake] <;> split_ifs
    all_goals first | exact ih _ | simp [LoopExit.Orderly]

lemma calm_waitForCredentialChange (expectedRevision : Option String) (timeoutSeconds : Rat)
    (wait : Wait) : Calm (waitForCredentialChange expectedRevision timeoutSeconds wait) :=
  calm_pollForCredentialChange _ _ _ _

lemma calm_waitUntilRevisionChanges (sourceRevision : String) (waits : List Wait) :
    Calm (waitUntilRevisionChanges settings sourceRevision waits) := by
  induction waits with
  | nil => simp [waitUntilRevisionChanges, LoopExit.Orderly]
  | cons wait waits ih =>
    rw [waitUntilRevisionChanges, calm_bind (calm_waitForCredentialChange _ _ _)]
    intro changed _
    cases changed
    · exact ih
    · simp [pure, Except.pure]

/-- A wait whose result is not used. -/
lemma calm_wait_then {α : Type} {expectedRevision : Option String} {timeoutSeconds : Rat}
    {wait : Wait} {f : Bool → Except LoopExit α} (hf : ∀ changed, Calm (f changed)) :
    Calm (waitForCredentialChange expectedRevision timeoutSeconds wait >>= f) := by
  rw [calm_bind (calm_waitForCredentialChange _ _ _)]
  intro changed _
  exact hf changed

/-! ### When a turn is calm -/

lemma calm_scheduledCookieAuth :
    Calm (scheduledCookieAuth codec settings x) ↔
      ∀ auth, cookieAuthOrNone x.loaded = some auth →
        ∀ e, cookieRefreshSleepSeconds codec settings auth x.now = .error e →
          scheduleErrorIsCaught e = true := by
  rcases hauth : cookieAuthOrNone x.loaded with _ | auth
  · simp only [scheduledCookieAuth, hauth]
    exact iff_of_true (calm_wait_then fun _ => calm_ok _) (by simp)
  · rcases hdelay : cookieRefreshSleepSeconds codec settings auth x.now with e | sleepSeconds
    · by_cases hcaught : scheduleErrorIsCaught e = true
      · simp only [scheduledCookieAuth, hauth, hdelay, if_pos hcaught]
        exact iff_of_true (calm_wait_then fun _ => calm_ok _) (by simp [hdelay, hcaught])
      · simp only [scheduledCookieAuth, hauth, hdelay, if_neg hcaught]
        exact iff_of_false (by simp [LoopExit.Orderly]) (by simp [hdelay, hcaught])
    · simp only [scheduledCookieAuth, hauth, hdelay]
      refine iff_of_true (calm_wait_then fun changed => ?_) (by simp [hdelay])
      cases changed
      · rcases cookieAuthOrNone x.reloaded with _ | current
        · exact calm_ok _
        · by_cases hrevision : some current.revision ≠ currentRevision x.loaded <;>
            simp [hrevision]
      · exact calm_ok _

lemma calm_preDispatchRetry {α : Type} {retryCount : Nat} {f : Rat → Except LoopExit α}
    (hf : ∀ seconds, Calm (f seconds)) :
    Calm (match preDispatchRetrySeconds settings (retryCount + 1) x.random with
      | .error e => .error (.escaped (.plain e))
      | .ok seconds => f seconds) ↔ retryCount < floatExponentLimit := by
  by_cases hlimit : retryCount < floatExponentLimit
  · simp only [preDispatchRetrySeconds, Nat.add_sub_cancel, if_neg (Nat.not_le.2 hlimit)]
    exact iff_of_true (hf _) hlimit
  · simp only [preDispatchRetrySeconds, Nat.add_sub_cancel, if_pos (Nat.not_lt.1 hlimit)]
    exact iff_of_false (by simp [LoopExit.Orderly]) hlimit

lemma calm_handlePreDispatchError (expectedRevision : String) (retryCount : Nat) (x : Turn) :
    Calm (handlePreDispatchError settings expectedRevision retryCount x) ↔
      (retryCount < settings.preDispatchRetryLimit → retryCount < floatExponentLimit) := by
  by_cases hexhausted : settings.preDispatchRetryLimit ≤ retryCount
  · simp only [handlePreDispatchError, if_pos hexhausted]
    exact iff_of_true (calm_wait_then fun _ => calm_ok _) fun h => absurd hexhausted (by omega)
  · simp only [handlePreDispatchError, if_neg hexhausted]
    rw [calm_preDispatchRetry]
    · exact ⟨fun h _ => h, fun h => h (by omega)⟩
    · intro seconds
      apply calm_wait_then
      intro changed
      cases changed <;> exact calm_ok _

lemma calm_projectRetained (settings : AutoRefreshSettings) (retained : RetainedRefreshSuccessor)
    (retryCount : Nat) (x : Turn) :
    Calm (projectRetained settings retained retryCount x) ↔
      ∀ e, x.projected = .error e →
        e = .cancelled ∨ e.isOsError = true ∧ retryCount < floatExponentLimit := by
  rcases hprojected : x.projected with e | projection
  · by_cases hcancelled : e = .cancelled
    · simp only [projectRetained, hprojected, hcancelled]
      exact iff_of_true (by simp [LoopExit.Orderly]) (by simp)
    · have hbranch : projectRetained settings retained retryCount x =
          if e.isOsError then
            match preDispatchRetrySeconds settings (retryCount + 1) x.random with
            | .error e => .error (.escaped (.plain e))
            | .ok retrySeconds => do
              let _ ← waitForCredentialChange (some retained.sourceRevision) retrySeconds
                x.handlerWait
              return false
          else .error (.escaped (.plain e)) := by
        cases e <;> simp [projectRetained, hprojected] at hcancelled ⊢
      rw [hbranch]
      by_cases hos : e.isOsError = true
      · rw [if_pos hos, calm_preDispatchRetry]
        · simp [hcancelled, hos]
        · intro seconds
          exact calm_wait_then fun _ => calm_ok _
      · rw [if_neg hos]
        exact iff_of_false (by simp [LoopExit.Orderly]) (by simp [hcancelled, hos])
  · simp only [projectRetained, hprojected]
    exact iff_of_true (by cases projection <;> exact calm_ok _) (by simp)

lemma calm_refreshTurn :
    Calm (refreshTurn codec settings s x) ↔ Calm (scheduledCookieAuth codec settings x) ∧
      ∀ auth, scheduledCookieAuth codec settings x = .ok (some auth) →
        Handled settings s.retryCount x.refreshed := by
  rcases hscheduled : scheduledCookieAuth codec settings x with exit | _ | auth
  · simp [refreshTurn, hscheduled, bind, Except.bind]
  · simp [refreshTurn, hscheduled, bind, Except.bind]
  · have hrest : refreshTurn codec settings s x = (match x.refreshed with
        | .ok _ => .ok { s with retryCount := 0, waits := s.waits + 1 }
        | .error (.plain (.preDispatchLocal _)) => do
          let retryCount ← handlePreDispatchError settings auth.revision s.retryCount x
          return { s with retryCount := retryCount, waits := s.waits + 2 }
        | .error (.postDispatchPersistence retained) =>
          .ok { retryCount := 0, projectionRetryCount := 0, retainedSuccessor := some retained,
                waits := s.waits + 1 }
        | .error (.plain (.recoveryRequired source _ retryAfter)) => do
          let _ ← waitForCredentialChange (some source) (max 0 ((retryAfter : Rat) / 1000000))
            x.handlerWait
          return { s with retryCount := 0, waits := s.waits + 2 }
        | .error (.plain (.terminalRevisionRequired source _)) => do
          waitUntilRevisionChanges settings source (x.handlerWait :: x.furtherWaits)
          return { s with retryCount := 0, waits := s.waits + 2 }
        | .error (.plain .cancelled) => .error .cancelled
        | .error e => .error (.escaped e)) := by
      rw [refreshTurn, hscheduled]
      rfl
    rw [hrest]
    simp only [calm_ok, true_and, Except.ok.injEq, Option.some.injEq, forall_eq']
    rcases x.refreshed with (retained | e) | current
    · simp [Handled]
    · cases e with
      | preDispatchLocal detail =>
        simp only [Handled]
        rw [← calm_handlePreDispatchError auth.revision s.retryCount x]
        constructor
        · intro h exit hexit
          exact h exit (by simp [hexit, bind, Except.bind])
        · intro h
          exact (calm_bind h).2 fun _ _ => calm_pure _
      | recoveryRequired source lane retryAfter =>
        simp only [Handled, iff_true]
        exact calm_wait_then fun _ => calm_pure _
      | terminalRevisionRequired source message =>
        simp only [Handled, iff_true]
        exact (calm_bind (calm_waitUntilRevisionChanges _ _)).2 fun _ _ => calm_pure _
      | _ => simp [Handled, LoopExit.Orderly]
    · simp [Handled]

/-- A turn is calm exactly when what it meets is contained. -/
lemma calm_turn_iff : Calm (turn codec settings s x) ↔ x.Contained codec settings s := by
  rcases hretained : s.retainedSuccessor with _ | retained
  · simp only [turn, hretained]
    rw [calm_refreshTurn, calm_scheduledCookieAuth]
    constructor
    · intro h
      exact ⟨by simp [hretained], fun _ => h.1, fun _ => h.2⟩
    · intro h
      exact ⟨h.delay hretained, h.refreshed hretained⟩
  · simp only [turn, hretained, projectionTurn]
    have hproject := calm_projectRetained settings retained s.projectionRetryCount x
    constructor
    · intro h
      refine ⟨fun retained' hretained' => ?_, by simp [hretained], by simp [hretained]⟩
      apply hproject.1
      intro exit hexit
      exact h exit (by simp [hexit, bind, Except.bind])
    · intro h
      rw [calm_bind (hproject.2 (h.projected retained hretained))]
      intro settled _
      cases settled <;> exact calm_pure _

/-! ### Reaching a wait -/

/-- A result of a sequence came out of its first part. -/
lemma exists_of_bind_eq_ok {ε α β : Type} {p : Except ε α} {f : α → Except ε β} {b : β}
    (h : p >>= f = .ok b) : ∃ a, p = .ok a ∧ f a = .ok b := by
  rcases p with e | a
  · cases h
  · exact ⟨a, rfl, h⟩

lemma waits_refreshTurn (h : refreshTurn codec settings s x = .ok s') : s.waits < s'.waits := by
  obtain ⟨scheduled, -, h⟩ := exists_of_bind_eq_ok h
  rcases scheduled with _ | auth
  · cases h
    simp
  · rcases hrefreshed : x.refreshed with (retained | e) | current <;>
      simp only [hrefreshed] at h
    · cases h
      simp
    · cases e with
      | preDispatchLocal detail =>
        obtain ⟨retryCount, -, h⟩ := exists_of_bind_eq_ok h
        cases h
        simp
      | recoveryRequired source lane retryAfter =>
        obtain ⟨changed, -, h⟩ := exists_of_bind_eq_ok h
        cases h
        simp
      | terminalRevisionRequired source message =>
        obtain ⟨changed, -, h⟩ := exists_of_bind_eq_ok h
        cases h
        simp
      | _ => cases h
    · cases h
      simp

lemma waits_projectionTurn {retained : RetainedRefreshSuccessor}
    (h : projectionTurn settings s retained x = .ok s') :
    s.waits < s'.waits ∨ s'.waits = s.waits ∧ s'.retainedSuccessor = none := by
  obtain ⟨settled, -, h⟩ := exists_of_bind_eq_ok h
  cases settled <;> cases h
  · exact .inl (by simp)
  · exact .inr ⟨rfl, rfl⟩

/-- Of any two turns that follow each other, one comes to a wait. -/
lemma waits_two_turns {s'' : LoopState} {x' : Turn} (h : turn codec settings s x = .ok s')
    (h' : turn codec settings s' x' = .ok s'') : s.waits < s''.waits := by
  have hfirst : s.waits < s'.waits ∨ s'.waits = s.waits ∧ s'.retainedSuccessor = none := by
    rcases hretained : s.retainedSuccessor with _ | retained <;> simp only [turn, hretained] at h
    · exact .inl (waits_refreshTurn h)
    · exact waits_projectionTurn h
  rcases hretained : s'.retainedSuccessor with _ | retained <;> simp only [turn, hretained] at h'
  · have := waits_refreshTurn h'
    omega
  · rcases waits_projectionTurn h' with hlater | ⟨hlater, -⟩
    · omega
    · rcases hfirst with hfirst | ⟨-, hnone⟩
      · omega
      · rw [hnone] at hretained
        cases hretained

/-! ### Whole runs -/

lemma autoRefreshLoop_append (xs ys : List Turn) :
    autoRefreshLoop codec settings s (xs ++ ys) =
      autoRefreshLoop codec settings s xs >>= fun s' => autoRefreshLoop codec settings s' ys := by
  induction xs generalizing s with
  | nil => rfl
  | cons x xs ih =>
    simp only [List.cons_append, autoRefreshLoop]
    rcases turn codec settings s x with exit | s'
    · rfl
    · exact ih

variable (codec settings)

/-- The loop comes to a turn in a state. -/
def Meets (xs : List Turn) (s : LoopState) (x : Turn) : Prop :=
  ∃ ys zs, xs = ys ++ x :: zs ∧ autoRefreshLoop codec settings {} ys = .ok s

/-- The loop runs on: it ends by cancellation only, and of any two turns that follow each other one
comes to a wait. -/
structure RunsOn (xs : List Turn) : Prop where
  calm : Calm (autoRefreshLoop codec settings {} xs)
  waits : ∀ s x s' x' s'', Meets codec settings xs s x → turn codec settings s x = .ok s' →
    Meets codec settings xs s' x' → turn codec settings s' x' = .ok s'' → s.waits < s''.waits

variable {codec settings}

/-- A run is calm exactly when each of its turns is. -/
lemma calm_autoRefreshLoop_iff {xs : List Turn} :
    Calm (autoRefreshLoop codec settings s xs) ↔
      ∀ ys x zs s', xs = ys ++ x :: zs → autoRefreshLoop codec settings s ys = .ok s' →
        x.Contained codec settings s' := by
  induction xs generalizing s with
  | nil => simp [autoRefreshLoop]
  | cons x xs ih =>
    constructor
    · intro h ys x' zs s' hsplit hrun
      rw [hsplit, autoRefreshLoop_append, hrun] at h
      rw [← calm_turn_iff]
      intro exit hexit
      exact h exit (by simp [autoRefreshLoop, hexit, bind, Except.bind])
    · intro h
      have hturn : Calm (turn codec settings s x) := calm_turn_iff.2 (h [] x xs s rfl rfl)
      rw [autoRefreshLoop, calm_bind hturn]
      intro s' hs'
      rw [ih]
      intro ys x' zs s'' hsplit hrun
      refine h (x :: ys) x' zs s'' (by simp [hsplit]) ?_
      simp [autoRefreshLoop, hs', bind, Except.bind, hrun]

/-- The loop runs on exactly when every turn it comes to is contained. -/
theorem runsOn_iff {xs : List Turn} :
    RunsOn codec settings xs ↔
      ∀ s x, Meets codec settings xs s x → x.Contained codec settings s := by
  constructor
  · intro h s x ⟨ys, zs, hsplit, hrun⟩
    exact calm_autoRefreshLoop_iff.1 h.calm ys x zs s hsplit hrun
  · intro h
    constructor
    · rw [calm_autoRefreshLoop_iff]
      intro ys x zs s hsplit hrun
      exact h s x ⟨ys, zs, hsplit, hrun⟩
    · intro s x s' x' s'' _ hturn _ hturn'
      exact waits_two_turns hturn hturn'

/-! ### What a turn can meet -/

/-- The loads, the refresh and the projection of a turn are those of the store and the coordinator
at some files. -/
structure Turn.Genuine (codec : CookieCodec) (s : LoopState) (x : Turn) : Prop where
  loaded : ∃ env w, (loadAuth env (Run.start w)).1 = .ok x.loaded
  reloaded : ∃ env w, (loadAuth env (Run.start w)).1 = .ok x.reloaded
  refreshed : ∀ auth, cookieAuthOrNone x.reloaded = some auth → ∃ env w exchangeOnce,
    (refresh codec env (some auth) exchangeOnce (Run.start w)).1 =
      (ofExcept x.refreshed (Run.start w)).1
  projected : ∀ retained, s.retainedSuccessor = some retained → ∃ env w,
    (projectRetainedSuccessor env retained (Run.start w)).1 =
      (ofExcept x.projected (Run.start w)).1

/-- The settings the loop has unless told otherwise. -/
def defaultAutoRefresh : AutoRefreshSettings := ⟨480, 900, 3, 1, 10, 1 / 4⟩

/-- The files when the journal has become unreadable. -/
def garbledWorld : World := { (Sys.installed firstAuth).world with journal := some .notUtf8 }

/-- A turn whose refresh finds an unreadable journal. -/
def garbledTurn : Turn where
  loaded := .loaded firstAuth
  now := launch
  scheduleWait := ⟨0, [⟨.loaded firstAuth, 900, .slept⟩]⟩
  reloaded := .loaded firstAuth
  refreshed := .error (.plain (.enjiHttp "STORAGE"
    (journalErrorMessage (.corrupt "refresh journal file is not valid UTF-8"))))
  projected := .error .assertion
  random := 0
  handlerWait := ⟨0, []⟩
  furtherWaits := []

lemma garbledTurn_genuine : garbledTurn.Genuine plainCodec {} where
  loaded := ⟨.calm (worker 1) launch "r1", garbledWorld, rfl⟩
  reloaded := ⟨.calm (worker 1) launch "r1", garbledWorld, rfl⟩
  refreshed := by
    intro auth hauth
    cases hauth
    exact ⟨.calm (worker 1) launch "r1", garbledWorld, fun _ => .cancelled, rfl⟩
  projected := by
    intro retained hretained
    cases hretained

/-- A refresh is due when the wait for it runs out and the credential is still there. -/
lemma scheduledCookieAuth_of_due {auth current : StoredAuth} {sleepSeconds : Int}
    (hloaded : cookieAuthOrNone x.loaded = some auth)
    (hdelay : cookieRefreshSleepSeconds codec settings auth x.now = .ok sleepSeconds)
    (hwait : waitForCredentialChange (currentRevision x.loaded) sleepSeconds x.scheduleWait =
      .ok false)
    (hreloaded : cookieAuthOrNone x.reloaded = some current)
    (hrevision : currentRevision x.loaded = some current.revision) :
    scheduledCookieAuth codec settings x = .ok (some current) := by
  simp only [scheduledCookieAuth, hloaded, hdelay, hwait, hreloaded, bind, Except.bind]
  simp [hrevision, pure, Except.pure]

lemma scheduledCookieAuth_garbledTurn :
    scheduledCookieAuth plainCodec defaultAutoRefresh garbledTurn = .ok (some firstAuth) := by
  have hdelay : cookieRefreshSleepSeconds plainCodec defaultAutoRefresh firstAuth launch =
      .ok 900 := rfl
  refine scheduledCookieAuth_of_due rfl hdelay ?_ rfl rfl
  simp [waitForCredentialChange, pollForCredentialChange, garbledTurn, currentRevision]

/-- A refresh that finds an unreadable journal ends the loop. -/
theorem not_runsOn_of_genuine :
    ¬ ∀ codec settings xs, (∀ s x, Meets codec settings xs s x → x.Genuine codec s) →
      RunsOn codec settings xs := by
  intro h
  have hruns := h plainCodec defaultAutoRefresh [garbledTurn] fun s x ⟨ys, zs, hsplit, hrun⟩ => by
    rcases ys with _ | ⟨y, ys⟩
    · cases hsplit
      cases hrun
      exact garbledTurn_genuine
    · simp at hsplit
  have hcontained := calm_autoRefreshLoop_iff.1 hruns.calm [] garbledTurn [] {} rfl rfl
  have hhandled := hcontained.refreshed rfl firstAuth scheduledCookieAuth_garbledTurn
  cases hhandled

end EnjiGuard.AuthSession
