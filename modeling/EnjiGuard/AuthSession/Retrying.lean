import EnjiGuard.AuthSession.Healing

/-!
# Retrying a preparation that failed

A preparation that a local error stops has sent nothing, and the next one of the same process
should get to the exchange. It does so unless the failed one has published its request: that record
names a process that is alive, and is waited for.
-/

namespace EnjiGuard.AuthSession

open Foundation Action Relation

/-- A refresh gets to its exchange. -/
def Dispatches (env : Env) (expected : Option StoredAuth) (w : World) (auth : StoredAuth) : Prop :=
  ∃ r, prepare env expected (Run.start w) = (.ok (.dispatch auth), r)

/-! ### Which preparations dispatch -/

/-- A recovery dispatch is due at the readings of the clock from a position on. -/
def Due (env : Env) (held : RotationAttempt) (n : Nat) : Prop :=
  env.ownerFault = none ∧ ∃ next lane passed left left',
    nextRecoveryAttemptAt held (env.now n) = .ok (some next) ∧
    next.attemptKind = .recovery lane ∧
    secondsUntil next.nextAttemptAt (env.now (n + 1)) = .ok left ∧ left ≤ 0 ∧
    deadlinePassed next.recoveryDeadline (env.now (n + 2)) = .ok passed ∧
    secondsUntil next.nextAttemptAt (env.now (n + 3)) = .ok left' ∧
    recoveryDispatchIsAuthorized
      (authorization lane next (!passed) (decide (left' ≤ 0))) = true

/-- A first dispatch of the stored revision can begin. -/
def Starts (env : Env) (expected : Option StoredAuth) (current : StoredAuth) (n : Nat) : Prop :=
  env.ownerFault = none ∧
    (expected.map StoredAuth.revision).getD current.revision = current.revision ∧
    ∃ deadline, (env.now n).add? recoveryWindow = some deadline

/-- A preparation that loads a journal record dispatches. -/
def Goes (env : Env) (expected : Option StoredAuth) (current : StoredAuth) (n : Nat) :
    JournalLoadResult → Prop
  | .absent => Starts env expected current n
  | .loaded journal _ attempt _ =>
    if journal.successor? = some current.revision then False
    else if journal.sourceRevision ≠ current.revision then Starts env expected current n
    else
      match journal with
      | .reserved _ => Starts env expected current n
      | .requested _ => ownerIsAlive env attempt = false ∧
          ∃ held, AbandonedAs env attempt n held ∧ Due env held (n + 2)
      | .terminal (.outcomeUnknown ..) => Due env attempt n
      | .terminal _ => False
  | _ => False

/-- A preparation ends in a dispatch of the stored credential exactly under a condition. -/
def Decides (current : StoredAuth) (K : Prop) (p : Auth Preparation) (r : Run) : Prop :=
  Ends p r (fun preparation _ => preparation = .dispatch current ↔ K) fun _ _ => ¬ K

section Decisions

variable {env : Env} {expected : Option StoredAuth} {current : StoredAuth} {K K' : Prop}
  {p : Auth Preparation} {r : Run} {attempt held next : RotationAttempt} {header : String}
  {source reason : String}

lemma Decides.congr (h : Decides current K p r) (hK : K ↔ K') : Decides current K' p r :=
  h.weaken (fun _ _ hk => hk.trans hK) fun _ _ hnot hk => hnot (hK.2 hk)

/-- Something that comes first and raises only when there is no dispatch. -/
lemma Decides.after {α : Type} {q : Auth α} {f : α → Auth Preparation} {Q : α → Run → Prop}
    (hq : Ends q r Q fun _ _ => ¬ K) (hf : ∀ a r', Q a r' → Decides current K (f a) r') :
    Decides current K (q >>= f) r := Ends.bind hq hf

lemma Decides.elsewhere {preparation : Preparation} (hne : preparation ≠ .dispatch current)
    (hK : ¬ K) : Decides current K (pure preparation) r :=
  Ends.pure ⟨fun h => absurd h hne, fun h => absurd h hK⟩

lemma decides_prepareDispatch_normal (hhealthy : env.Healthy) :
    Decides current (env.ownerFault = none) (prepareDispatch env current attempt none) r :=
  (hhealthy.ends concludes_prepareDispatch_normal).weaken
    (fun _ _ h => ⟨fun _ => h.1, fun _ => h.2⟩) fun _ _ h => h.1

/-- What is left of a recovery dispatch once its cooldown is over. -/
def Permitted (env : Env) (next : RotationAttempt) (n : Nat) : Prop :=
  env.ownerFault = none ∧ ∃ lane passed left, next.attemptKind = .recovery lane ∧
    deadlinePassed next.recoveryDeadline (env.now n) = .ok passed ∧
    secondsUntil next.nextAttemptAt (env.now (n + 1)) = .ok left ∧
    recoveryDispatchIsAuthorized (authorization lane next (!passed) (decide (left ≤ 0))) = true

lemma decides_prepareDispatch_recovery (hhealthy : env.Healthy) :
    Decides current (Permitted env next r.cursor.now)
      (prepareDispatch env current next (some (.outcomeUnknown source reason))) r := by
  refine Decides.after ((hhealthy.ends concludes_ownerFn).weaken (fun _ _ h => h)
    fun _ _ h hk => h.1 hk.1) fun owner r₁ h₁ => ?_
  obtain ⟨hnone, rfl⟩ := h₁
  refine Decides.after (Q := fun state _ => Permitted env next r₁.cursor.now ∧
    state = .journaled (.reserved source)) ?_ fun state r₂ h₂ => ?_
  · rcases hkind : next.attemptKind with _ | lane <;> simp only [authorizeDispatch, hkind]
    · refine Ends.raise ?_
      rintro ⟨-, lane, -, -, hlane, -⟩
      rw [hkind] at hlane
      cases hlane
    refine (ends_nowFn env).bind fun now r₂ h₂ => ?_
    obtain ⟨rfl, -, hnow₂⟩ := h₂
    rcases hpassed : deadlinePassed next.recoveryDeadline (env.now r₁.cursor.now) with e | passed
    · refine Ends.of_error rfl ?_
      rintro ⟨-, _, _, _, -, hpassed', -⟩
      rw [hpassed] at hpassed'
      cases hpassed'
    refine Ends.of_ok rfl ((ends_nowFn env).bind fun now r₃ h₃ => ?_)
    obtain ⟨rfl, -, -⟩ := h₃
    rw [hnow₂]
    rcases hleft : secondsUntil next.nextAttemptAt (env.now (r₁.cursor.now + 1)) with e | left
    · refine Ends.of_error rfl ?_
      rintro ⟨-, _, _, _, -, -, hleft', -⟩
      rw [hleft] at hleft'
      cases hleft'
    refine Ends.of_ok rfl ?_
    cases hauthorized : recoveryDispatchIsAuthorized
        (authorization lane next (!passed) (decide (left ≤ 0))) with
    | true =>
      simp only [transitionOrRaise, transition, terminalTransition, hauthorized, if_true]
      exact Ends.pure ⟨⟨hnone, lane, passed, left, hkind, hpassed, hleft, hauthorized⟩, rfl⟩
    | false =>
      simp only [transitionOrRaise, transition, terminalTransition, hauthorized,
        Bool.false_eq_true, if_false]
      refine Ends.raise ?_
      rintro ⟨-, lane', passed', left', hkind', hpassed', hleft', hauthorized'⟩
      rw [hkind] at hkind'
      rw [hpassed] at hpassed'
      rw [hleft] at hleft'
      cases hkind'
      cases hpassed'
      cases hleft'
      rw [hauthorized] at hauthorized'
      cases hauthorized'
  · obtain ⟨hpermitted, rfl⟩ := h₂
    exact (hhealthy.ends (concludes_persistDispatch _)).weaken
      (fun _ _ h => ⟨fun _ => hpermitted, fun _ => h⟩) fun _ _ h => h

/-- Continuing an unknown outcome dispatches exactly when the dispatch is due. -/
lemma decides_recoverUnknown (hhealthy : env.Healthy) :
    Decides current (Due env held r.cursor.now)
      (recoverUnknown env current (.outcomeUnknown source reason) held) r := by
  have hstop : (∀ next, nextRecoveryAttemptAt held (env.now r.cursor.now) ≠ .ok (some next)) →
      ∀ (attempt : RotationAttempt) (r' : Run), Decides current (Due env held r.cursor.now) (do
        writeJournal env (.terminal (.outcomeUnknown source reason)) false attempt
        return Preparation.waitForRevision source) r' := by
    intro hno attempt r'
    refine Decides.after (ends_writeJournal hhealthy) fun _ _ _ =>
      Decides.elsewhere (by rintro ⟨⟩) ?_
    rintro ⟨-, next, _, _, _, _, hnext, -⟩
    exact hno next hnext
  unfold recoverUnknown nextRecoveryAttempt
  rcases hresumable : held.resumable with _ | lane
  · refine hstop ?_ _ _
    intro next hnext
    simp [nextRecoveryAttemptAt, hresumable] at hnext
  · refine Decides.after (Q := fun result r' => r'.cursor.now = r.cursor.now + 1 ∧
      nextRecoveryAttemptAt held (env.now r.cursor.now) = .ok result) ?_ fun result r₁ h₁ => ?_
    · refine (ends_ofReading (nextRecoveryAttemptAt held)).weaken (fun _ _ h => ⟨h.1.now, h.2⟩) ?_
      rintro e r' ⟨-, herror⟩ ⟨-, next, _, _, _, _, hnext, -⟩
      rw [herror] at hnext
      cases hnext
    · obtain ⟨hnow₁, hresult⟩ := h₁
      cases result with
      | none =>
        refine hstop ?_ _ _
        intro next hnext
        rw [hresult] at hnext
        cases hnext
      | some next =>
        refine Decides.after (ends_nowFn env (E := fun _ _ => _)) fun now r₂ h₂ => ?_
        obtain ⟨rfl, -, hnow₂⟩ := h₂
        rw [hnow₁] at hnow₂ ⊢
        have hsame : ∀ {next'}, nextRecoveryAttemptAt held (env.now r.cursor.now) =
            .ok (some next') → next' = next := by
          intro next' hnext'
          rw [hresult] at hnext'
          cases hnext'
          rfl
        rcases hleft : secondsUntil next.nextAttemptAt (env.now (r.cursor.now + 1)) with e | left
        · refine Ends.of_error rfl ?_
          rintro ⟨-, next', _, _, _, _, hnext', -, hleft', -⟩
          rw [hsame hnext', hleft] at hleft'
          cases hleft'
        refine Ends.of_ok rfl ?_
        by_cases hwait : 0 < left
        · rw [if_pos hwait]
          have hnot : ¬ Due env held r.cursor.now := by
            rintro ⟨-, next', _, _, _, _, hnext', -, hleft', hle, -⟩
            rw [hsame hnext', hleft] at hleft'
            cases hleft'
            exact absurd hwait (Int.not_lt.2 hle)
          rcases next.continuation with _ | _ | _ <;> exact Ends.raise hnot
        · rw [if_neg hwait]
          refine (decides_prepareDispatch_recovery hhealthy).congr ?_
          rw [hnow₂]
          constructor
          · rintro ⟨hnone, lane', passed, left', hkind, hpassed, hleft', hauthorized⟩
            exact ⟨hnone, next, lane', passed, left, left', hresult, hkind, hleft,
              Int.not_lt.1 hwait, hpassed, hleft', hauthorized⟩
          · rintro ⟨hnone, next', lane', passed, _, left', hnext', hkind, -, -, hpassed, hleft',
              hauthorized⟩
            cases hsame hnext'
            exact ⟨hnone, lane', passed, left', hkind, hpassed, hleft', hauthorized⟩

/-- A REQUESTED record is taken over exactly when its process is gone and its replay is due. -/
lemma decides_recoverRequested (hhealthy : env.Healthy) (hsink : env.SinkContained) :
    Decides current (r.world.OutboxReady ∧ ownerIsAlive env attempt = false ∧
        ∃ held, AbandonedAs env attempt r.cursor.now held ∧ Due env held (r.cursor.now + 2))
      (recoverRequested env current source attempt) r := by
  unfold recoverRequested
  cases halive : ownerIsAlive env attempt with
  | true => exact Decides.elsewhere (by rintro ⟨⟩) (by rintro ⟨-, ⟨⟩, -⟩)
  | false =>
    simp only [Bool.false_eq_true, if_false, true_and]
    refine Decides.after ((hhealthy.ends (concludes_abandonRequested hsink)).weaken
      (fun _ _ h => h) ?_) fun result r₁ h₁ => ?_
    · rintro e r' (⟨hnot, -⟩ | ⟨-, hrefuses⟩) ⟨hready, held, ⟨deadline, hadd, hheld⟩, -⟩
      · exact hnot ⟨deadline, hadd, withContinuation_ok_iff.1 ⟨held, hheld⟩⟩
      · exact hready.not_refuses hrefuses
    · obtain ⟨t, held⟩ := result
      obtain ⟨ht, hready, hnow, habandoned⟩ := h₁
      dsimp only at ht habandoned
      subst ht
      refine (decides_recoverUnknown hhealthy).congr ?_
      rw [hnow]
      constructor
      · intro hdue
        exact ⟨hready, held, habandoned, hdue⟩
      · rintro ⟨-, held', habandoned', hdue⟩
        obtain ⟨deadline, hadd, hheld⟩ := habandoned
        obtain ⟨deadline', hadd', hheld'⟩ := habandoned'
        rw [hadd] at hadd'
        cases hadd'
        rw [hheld] at hheld'
        cases hheld'
        exact hdue

/-- A first dispatch begins exactly when it can and the outbox is ready. -/
lemma decides_begin (hhealthy : env.Healthy) (hsink : env.SinkContained) :
    Decides current (r.world.OutboxReady ∧ Starts env expected current r.cursor.now)
      (do
        drainOutbox env
        if (expected.map StoredAuth.revision).getD current.revision ≠ current.revision then
          return .returnAuth current
        else
          let deadline ← recoveryDeadline env
          prepareDispatch env current
            { rotationId := current.revision, attemptKind := .normal, dispatchCount := 1,
              recoveryDeadline := some deadline } none) r := by
  refine Decides.after ((hhealthy.ends (concludes_drainOutbox hsink)).weaken (fun _ _ h => h)
    fun _ _ hrefuses hk => hk.1.not_refuses hrefuses) fun _ r₁ h₁ => ?_
  by_cases hexpected : (expected.map StoredAuth.revision).getD current.revision = current.revision
  · rw [if_neg (not_not_intro hexpected)]
    refine Decides.after ((hhealthy.ends concludes_recoveryDeadline).weaken (fun _ _ h => h) ?_)
      fun text r₂ h₂ => ?_
    · rintro e r' ⟨hnone, -⟩ ⟨-, -, -, deadline, hadd⟩
      rw [← h₁.quiet.now, hnone] at hadd
      cases hadd
    · obtain ⟨-, -, deadline, hadd, -⟩ := h₂
      rw [h₁.quiet.now] at hadd
      exact (decides_prepareDispatch_normal hhealthy).congr
        ⟨fun hnone => ⟨h₁.before, hnone, hexpected, deadline, hadd⟩, fun hk => hk.2.1⟩
  · rw [if_pos hexpected]
    exact Decides.elsewhere (by rintro ⟨⟩) fun hk => hexpected hk.2.2.1

/-- What a recovery hands on: a preparation, or the question whether a dispatch can begin. -/
def HandsOn (env : Env) (expected : Option StoredAuth) (current : StoredAuth) (K : Prop) :
    Option Preparation → Run → Prop
  | some preparation, _ => preparation = .dispatch current ↔ K
  | none, r' => r'.world.OutboxReady ∧ Starts env expected current r'.cursor.now ↔ K

lemma Decides.handsOn (h : Decides current K p r) :
    Ends (do let preparation ← p; return some preparation) r (HandsOn env expected current K)
      fun _ _ => ¬ K :=
  Ends.bind h fun _ _ hk => Ends.pure hk

/-- An action that raises only because of the outbox, before a preparation that dispatches
nothing. -/
lemma handsOn_elsewhere {α : Type} {q : Auth α} {Q : α → Run → Prop}
    {E : PyError → Run → Prop} {f : α → Preparation} (hq : Ends q r Q E) (hK : ¬ K)
    (hne : ∀ a, f a ≠ .dispatch current) :
    Ends (do let a ← q; return some (f a)) r (HandsOn env expected current K) fun _ _ => ¬ K :=
  Ends.bind (hq.weaken (fun _ _ h => h) fun _ _ _ => hK) fun a _ _ =>
    Ends.pure ⟨fun h => absurd h (hne a), fun h => absurd h hK⟩

/-- Whether a preparation that loads a journal dispatches, with the outbox it looks at. -/
def GoesFrom (env : Env) (expected : Option StoredAuth) (current : StoredAuth) (r : Run)
    (loaded : JournalLoadResult) : Prop :=
  r.world.OutboxReady ∧ Goes env expected current r.cursor.now loaded

/-- Whether a preparation dispatches from the files as they are. -/
def GoesOn (env : Env) (expected : Option StoredAuth) (current : StoredAuth) (r : Run) : Prop :=
  r.world.OutboxReady ∧ ∃ loaded, journalOf r.world.journal = .ok loaded ∧
    Goes env expected current r.cursor.now loaded

lemma goesOn_iff {loaded : JournalLoadResult} (h : journalOf r.world.journal = .ok loaded) :
    GoesOn env expected current r ↔ GoesFrom env expected current r loaded := by
  constructor
  · rintro ⟨hready, loaded', hload, hgoes⟩
    rw [h] at hload
    cases hload
    exact ⟨hready, hgoes⟩
  · exact fun hgoes => ⟨hgoes.1, loaded, h, hgoes.2⟩

lemma goesOn_congr {r' : Run} (hworld : r'.world = r.world) (hnow : r'.cursor.now = r.cursor.now) :
    GoesOn env expected current r' ↔ GoesOn env expected current r := by
  simp only [GoesOn, hworld, hnow]

/-- Recovering a journal about the stored revision. -/
lemma handsOn_recoverMatchingState (hhealthy : env.Healthy) (hsink : env.SinkContained)
    (hfinds : env.Finds r.world current) (hcookie : current.credential = .cookie header)
    {journal : JournalState} {enqueued : Bool} {migrated : Option Nat}
    (hmatching : journal.sourceRevision = current.revision)
    (hother : journal.successor? ≠ some current.revision) :
    Ends (recoverMatchingState env current journal attempt enqueued) r
      (HandsOn env expected current
        (GoesFrom env expected current r (.loaded journal enqueued attempt migrated)))
      fun _ _ => ¬ GoesFrom env expected current r (.loaded journal enqueued attempt migrated) := by
  simp only [GoesFrom, Goes, if_neg hother, hmatching, ne_eq, not_true_eq_false, if_false]
  rcases journal with source | source | ⟨source, replacement, successor⟩ | ⟨source, reason⟩ |
    ⟨source, reason⟩
  · refine (ends_deleteJournal hhealthy).bind fun _ r₁ h₁ => Ends.pure ?_
    have hready : r₁.world.OutboxReady ↔ r.world.OutboxReady :=
      World.outboxReady_congr (by rw [h₁.world]; rfl)
    simp only [HandsOn, hready, h₁.now]
  · exact (decides_recoverRequested hhealthy hsink).handsOn
  · have hsource : source = current.revision := hmatching
    subst hsource
    have hrotated : Judged env r.world.OutboxParses (recoverRotated env
        (.rotated current.revision replacement successor) current.revision replacement successor
        attempt enqueued) r := judged_recoverRotated hsink hfinds hcookie
    exact handsOn_elsewhere (f := Preparation.returnAuth) (hhealthy.ends hrotated) (fun h => h.2)
      (by rintro _ ⟨⟩)
  · exact handsOn_elsewhere (f := fun _ => .waitForRevision source)
      (hhealthy.ends (concludes_recordTerminalOutcome hsink)) (fun h => h.2) (by rintro _ ⟨⟩)
  · refine Ends.bind ((hhealthy.ends (concludes_recordTerminalOutcome hsink)).weaken
      (fun _ _ h => h) fun _ _ hrefuses hk => hk.1.not_refuses hrefuses) fun _ r₁ h₁ => ?_
    refine Decides.handsOn ((decides_recoverUnknown hhealthy).congr ?_)
    rw [h₁.now]
    exact ⟨fun h => ⟨h₁.before, h⟩, fun h => h.2⟩

/-- Recovering whatever the journal holds. -/
lemma handsOn_recoverOrWait (hhealthy : env.Healthy) (hsink : env.SinkContained)
    (hfinds : env.Finds r.world current) (hcookie : current.credential = .cookie header) :
    Ends (recoverOrWait env current) r
      (HandsOn env expected current (GoesOn env expected current r))
      fun _ _ => ¬ GoesOn env expected current r := by
  refine ((ends_loadJournal hhealthy).weaken (fun _ _ h => h) ?_).bind fun loaded r₁ h₁ => ?_
  · rintro e r' ⟨-, herror⟩ ⟨-, loaded, hload, -⟩
    rw [herror] at hload
    cases hload
  obtain ⟨hleft, hload⟩ := h₁
  have hfrom : GoesOn env expected current r = GoesFrom env expected current r₁ loaded := by
    rw [eq_iff_iff, goesOn_iff hload]
    simp only [GoesFrom, hleft.world, hleft.now]
  rw [hfrom]
  have hfinds₁ : env.Finds r₁.world current := hfinds.congr (by rw [hleft.world])
  cases loaded with
  | absent => exact Ends.pure Iff.rfl
  | corrupt detail => exact Ends.raise fun h => h.2
  | ioFailure operation error => exact Ends.raise fun h => h.2
  | loaded journal enqueued attempt migrated =>
    have hother : journal.successor? ≠ some current.revision →
        Ends (if journal.sourceRevision ≠ current.revision then do
            discardRotationState env journal enqueued
            return none
          else recoverMatchingState env current journal attempt enqueued) r₁
          (HandsOn env expected current
            (GoesFrom env expected current r₁ (.loaded journal enqueued attempt migrated)))
          fun _ _ =>
            ¬ GoesFrom env expected current r₁ (.loaded journal enqueued attempt migrated) := by
      intro hsuccessor
      by_cases hsource : journal.sourceRevision ≠ current.revision
      · simp only [GoesFrom, Goes, if_neg hsuccessor, if_pos hsource]
        refine Ends.bind ((hhealthy.ends concludes_discardRotationState).weaken (fun _ _ h => h)
          fun _ _ hrefuses hk => hk.1.not_refuses hrefuses) fun _ r₂ h₂ => Ends.pure ?_
        rcases h₂ with ⟨hnow, -, houtbox⟩ | hpassed
        · simp only [HandsOn, World.outboxReady_congr houtbox, hnow]
        · simp only [HandsOn, hpassed.now, hpassed.after, hpassed.before]
      · rw [if_neg hsource]
        exact handsOn_recoverMatchingState hhealthy hsink hfinds₁ hcookie (not_not.1 hsource)
          hsuccessor
    rcases hsuccessor : journal.successor? with _ | successor <;> simp only [hsuccessor]
    · exact hother (by rw [hsuccessor]; rintro ⟨⟩)
    · by_cases hcurrent : successor = current.revision
      · rw [if_pos hcurrent]
        rcases journal with source | source | t
        · cases hsuccessor
        · cases hsuccessor
        · refine handsOn_elsewhere (f := fun _ => .returnAuth current)
            (hhealthy.ends (concludes_recordTerminalOutcome hsink)) ?_ (by rintro _ ⟨⟩)
          simp only [GoesFrom, Goes, hsuccessor, hcurrent, if_true]
          exact fun h => h.2
      · rw [if_neg hcurrent]
        refine hother ?_
        rw [hsuccessor]
        exact fun hsame => hcurrent (Option.some.inj hsame)

/-- A preparation with storage that works dispatches exactly when its journal lets it. -/
lemma decides_prepare {w : World} (hhealthy : env.Healthy) (hsink : env.SinkContained)
    (hfinds : env.Finds w current) (hcookie : current.credential = .cookie header) :
    Decides current (GoesOn env expected current (Run.start w)) (prepare env expected)
      (Run.start w) := by
  refine Decides.after (Q := fun _ r => (Run.start w).Same r) (ends_trigger hhealthy _)
    fun _ r₁ h₁ => Decides.after (Q := fun _ r => (Run.start w).Same r)
      ((ends_trigger hhealthy _).weaken (fun _ _ h => h₁.trans h) fun _ _ h => h) fun _ r h => ?_
  rw [← goesOn_congr h.world h.now]
  refine Ends.ensure (Q := fun preparation _ => preparation = .dispatch current ↔
      GoesOn env expected current r)
    (E := fun _ _ => ¬ GoesOn env expected current r) ?_ ?_ ?_
  · have hfinds' : env.Finds r.world current := hfinds.congr (by rw [h.world]; rfl)
    refine (ends_loadAuth_of_finds hhealthy hfinds').bind fun result r₁ h₁ => ?_
    obtain ⟨hleft, rfl⟩ := h₁
    refine Ends.of_ok rfl ?_
    rw [← goesOn_congr hleft.world hleft.now]
    simp only [hcookie]
    refine (handsOn_recoverOrWait hhealthy hsink (hfinds'.congr (by rw [hleft.world]))
      hcookie).bind fun result r₂ h₂ => ?_
    cases result with
    | some preparation => exact Ends.pure h₂
    | none => exact (decides_begin hhealthy hsink).congr h₂
  · exact fun _ _ hk => (ends_trigger hhealthy _).weaken (fun _ _ _ => hk) fun _ _ hfalse => hfalse
  · exact fun _ _ hk => (ends_trigger hhealthy _).weaken (fun _ _ _ => hk) fun _ _ hfalse => hfalse

/-- Which preparations dispatch where storage works. -/
lemma dispatches_iff {w : World} (hhealthy : env.Healthy) (hsink : env.SinkContained)
    (hfinds : env.Finds w current) (hcookie : current.credential = .cookie header) :
    Dispatches env expected w current ↔ GoesOn env expected current (Run.start w) := by
  have hends := @decides_prepare env expected _ _ _ hhealthy hsink hfinds hcookie
  constructor
  · rintro ⟨r, hrun⟩
    exact (hends.returned (congrArg Prod.fst hrun)).1 rfl
  · intro hgoes
    rcases hrun : prepare env expected (Run.start w) with ⟨preparation | e | _, r⟩
    · have hpreparation := (hends.returned (congrArg Prod.fst hrun)).2 hgoes
      rw [hpreparation] at hrun
      exact ⟨r, hrun⟩
    · exact absurd hgoes (hends.raised (congrArg Prod.fst hrun))
    · exact absurd (congrArg Prod.fst hrun) hends.not_crashed

end Decisions

/-! ### What a failed preparation leaves -/

/-- A record that a failed preparation left does not stop a later one of the same process that
would have dispatched before. -/
def Unblocked (env env' : Env) (expected : Option StoredAuth) (current : StoredAuth) :
    JournalLoadResult → Prop
  | .absent => True
  | .loaded journal _ attempt _ =>
    if journal.successor? = some current.revision then False
    else if journal.sourceRevision ≠ current.revision then True
    else
      match journal with
      | .reserved _ => Starts env' expected current 0
      -- its own request, and the process is alive
      | .requested _ => attemptOwner attempt ≠ some env.owner
      | .terminal (.outcomeUnknown ..) => Due env' attempt 0
      | .terminal _ => False
  | _ => False

/-- What a preparation of `env` leaves in the journal, where one of `env'` would dispatch from what
it found. -/
inductive Remains (env env' : Env) (expected : Option StoredAuth) (current : StoredAuth)
    (v : World) : Prop
  | nothing (h : v.journal = none) (hstarts : Starts env' expected current 0)
  | other {journal : JournalState} {enqueued : Bool} {attempt : RotationAttempt}
      (h : v.JournalHolds journal enqueued attempt)
      (hsource : journal.sourceRevision ≠ current.revision)
      (hsuccessor : journal.successor? ≠ some current.revision)
      (hstarts : Starts env' expected current 0)
  | reserved {enqueued : Bool} {attempt : RotationAttempt}
      (h : v.JournalHolds (.reserved current.revision) enqueued attempt)
  | requested {enqueued : Bool} {attempt : RotationAttempt}
      (h : v.JournalHolds (.requested current.revision) enqueued attempt)
      (howner : attemptOwner attempt = some env.owner)
  | abandoned {enqueued : Bool} {attempt held : RotationAttempt}
      (h : v.JournalHolds (.requested current.revision) enqueued attempt)
      (hdead : ownerIsAlive env' attempt = false) (hheld : AbandonedAs env' attempt 0 held)
      (hdue : Due env' held 2)
  | unknown {reason : String} {enqueued : Bool} {attempt : RotationAttempt}
      (h : v.JournalHolds (.terminal (.outcomeUnknown current.revision reason)) enqueued attempt)

section Remains

variable {env env' : Env} {expected : Option StoredAuth} {current : StoredAuth} {v v' w : World}
  {loaded : JournalLoadResult}

lemma World.journal_eq_none_of_absent (h : journalOf v.journal = .ok .absent) :
    v.journal = none := by
  rcases hfile : v.journal with _ | _ | detail | typeName | payload <;> rw [hfile] at h
  · cases h
  · cases h
  · cases h
  · exact absurd h (parseJournal_ne_absent payload)

/-- A journal to dispatch from is one of those. -/
lemma Goes.remains (h : journalOf v.journal = .ok loaded)
    (hgoes : Goes env' expected current 0 loaded) :
    Remains env env' expected current v := by
  cases loaded with
  | absent => exact .nothing (World.journal_eq_none_of_absent h) hgoes
  | corrupt detail => exact hgoes.elim
  | ioFailure operation error => exact hgoes.elim
  | loaded journal enqueued attempt migrated =>
    have hjournal := World.journalHolds_of_journalOf h
    simp only [Goes] at hgoes
    split_ifs at hgoes with hsuccessor hsource
    · exact .other hjournal hsource hsuccessor hgoes
    · rcases journal with source | source | ⟨source, replacement, successor⟩ | ⟨source, reason⟩ |
        ⟨source, reason⟩ <;> cases not_not.1 hsource
      · exact .reserved hjournal
      · obtain ⟨hdead, held, hheld, hdue⟩ := hgoes
        exact .abandoned hjournal hdead hheld hdue
      · exact hgoes.elim
      · exact hgoes.elim
      · exact .unknown hjournal

/-- A RESERVED record to dispatch from is begun anew. -/
lemma Goes.starts {enqueued : Bool} {attempt : RotationAttempt}
    (hload : journalOf v.journal = .ok loaded) (hgoes : Goes env' expected current 0 loaded)
    (hjournal : v.JournalHolds (.reserved current.revision) enqueued attempt) :
    Starts env' expected current 0 := by
  cases loaded with
  | absent => exact hgoes
  | corrupt detail => exact hgoes.elim
  | ioFailure operation error => exact hgoes.elim
  | loaded journal enqueued' attempt' migrated =>
    cases ((World.journalHolds_of_journalOf hload).unique hjournal).1
    simpa [Goes, JournalState.successor?, JournalState.sourceRevision] using hgoes

lemma Remains.congr (h : Remains env env' expected current v) (hsame : v'.journal = v.journal) :
    Remains env env' expected current v' := by
  have hholds : ∀ {state enqueued attempt}, v.JournalHolds state enqueued attempt →
      v'.JournalHolds state enqueued attempt := fun h => by
    rwa [World.JournalHolds, hsame]
  cases h with
  | nothing h hstarts => exact .nothing (hsame.trans h) hstarts
  | other h hsource hsuccessor hstarts => exact .other (hholds h) hsource hsuccessor hstarts
  | reserved h => exact .reserved (hholds h)
  | requested h howner => exact .requested (hholds h) howner
  | abandoned h hdead hheld hdue => exact .abandoned (hholds h) hdead hheld hdue
  | unknown h => exact .unknown (hholds h)

/-- A terminal record that is left is of another revision, or an unknown outcome. -/
lemma Remains.terminal (h : Remains env env' expected current v) {t : TerminalState}
    {enqueued : Bool} {attempt : RotationAttempt}
    (hjournal : v.JournalHolds (.terminal t) enqueued attempt) :
    t.sourceRevision ≠ current.revision ∧ t.successor? ≠ some current.revision ∧
        Starts env' expected current 0 ∨
      ∃ reason, t = .outcomeUnknown current.revision reason := by
  cases h with
  | nothing h =>
    obtain ⟨_, hfile, -⟩ := hjournal
    rw [h] at hfile
    cases hfile
  | other h hsource hsuccessor hstarts =>
    cases (h.unique hjournal).1
    exact .inl ⟨hsource, hsuccessor, hstarts⟩
  | reserved h => cases (h.unique hjournal).1
  | requested h => cases (h.unique hjournal).1
  | abandoned h => cases (h.unique hjournal).1
  | @unknown reason _ _ h =>
    cases (h.unique hjournal).1
    exact .inr ⟨reason, rfl⟩

/-- A record of another revision is left only where a first dispatch can begin. -/
lemma Remains.starts (h : Remains env env' expected current v) {journal : JournalState}
    {enqueued : Bool} {attempt : RotationAttempt}
    (hjournal : v.JournalHolds journal enqueued attempt)
    (hsource : journal.sourceRevision ≠ current.revision) : Starts env' expected current 0 := by
  cases h with
  | nothing h hstarts => exact hstarts
  | other h _ _ hstarts => exact hstarts
  | reserved h =>
    rw [← (h.unique hjournal).1] at hsource
    exact absurd rfl hsource
  | requested h =>
    rw [← (h.unique hjournal).1] at hsource
    exact absurd rfl hsource
  | abandoned h =>
    rw [← (h.unique hjournal).1] at hsource
    exact absurd rfl hsource
  | unknown h =>
    rw [← (h.unique hjournal).1] at hsource
    exact absurd rfl hsource

/-- The files while a preparation runs from files that a later one would dispatch from. -/
structure Remaining (env env' : Env) (expected : Option StoredAuth) (current : StoredAuth)
    (w v : World) : Prop where
  credential : v.credential = w.credential
  ready : v.OutboxReady
  remains : Remains env env' expected current v

lemma Remaining.step (hheld : w.Holds current)
    (hreserved : ∀ {enqueued attempt},
      w.JournalHolds (.reserved current.revision) enqueued attempt → Starts env' expected current 0)
    (h : Remaining env env' expected current w v) (hstep : RecoveryStep env w v v') :
    Remaining env env' expected current w v' := by
  have hholds : ∀ {auth : StoredAuth}, v.Holds auth → auth = current := fun hauth => by
    rw [World.Holds, h.credential] at hauth
    exact World.Holds.unique hauth hheld
  have houtbox : ∀ {v' : World}, OutboxStep v v' → Remaining env env' expected current w v' :=
    fun hstep => ⟨hstep.sameRotation.credential.trans h.credential, hstep.ready h.ready,
      h.remains.congr hstep.sameRotation.journal⟩
  cases hstep with
  | outbox hstep => exact houtbox hstep
  | record hstep =>
    cases hstep with
    | outbox hstep => exact houtbox hstep
    | mark clock hpending =>
      refine ⟨h.credential, h.ready, ?_⟩
      rcases h.remains.terminal hpending with ⟨hsource, hsuccessor, hstarts⟩ | ⟨reason, rfl⟩
      · exact .other (v.journalHolds_setJournal _ _ _ _) hsource hsuccessor hstarts
      · exact .unknown (v.journalHolds_setJournal _ _ _ _)
    | delete hmarked hprojected hrotated =>
      obtain ⟨successor, hsome⟩ := Option.isSome_iff_exists.1 hrotated
      obtain ⟨auth, hauth, hrevision⟩ := hprojected successor hsome
      cases hholds hauth
      rcases h.remains.terminal hmarked with ⟨-, hsuccessor, -⟩ | ⟨reason, rfl⟩
      · exact absurd (hrevision ▸ hsome) hsuccessor
      · cases hsome
  | discard hauth hjournal hother =>
    cases hholds hauth
    exact ⟨h.credential, h.ready, .nothing rfl (h.remains.starts hjournal hother)⟩
  | dropReserved hauth _ hstart =>
    cases hholds hauth
    exact ⟨h.credential, h.ready, .nothing rfl (hreserved hstart)⟩
  | abandon clock hauth =>
    cases hholds hauth
    exact ⟨h.credential, h.ready, .unknown (v.journalHolds_setJournal _ _ _ _)⟩
  | project hauth hrotated =>
    cases hholds hauth
    rcases h.remains.terminal hrotated with ⟨hsource, -⟩ | ⟨reason, ht⟩
    · exact absurd rfl hsource
    · cases ht
  | reserve reading hauth =>
    cases hholds hauth
    exact ⟨h.credential, h.ready, .reserved (v.journalHolds_setJournal _ _ _ _)⟩
  | request hauth =>
    cases hholds hauth
    exact ⟨h.credential, h.ready, .requested (v.journalHolds_setJournal _ _ _ _) rfl⟩
  | stop clock hauth =>
    cases hholds hauth
    exact ⟨h.credential, h.ready, .unknown (v.journalHolds_setJournal _ _ _ _)⟩

/-- What is left lets a later preparation dispatch exactly when it is no request of its own. -/
lemma Remains.goes_iff (h : Remains env env' expected current v)
    (halive : env'.ownerAlive env.owner = true) (hload : journalOf v.journal = .ok loaded) :
    Goes env' expected current 0 loaded ↔ Unblocked env env' expected current loaded := by
  cases loaded with
  | absent =>
    refine iff_of_true ?_ trivial
    cases h with
    | nothing h hstarts => exact hstarts
    | other h _ _ hstarts => exact hstarts
    | _ h =>
      obtain ⟨_, hfile, -⟩ := h
      rw [World.journal_eq_none_of_absent hload] at hfile
      cases hfile
  | corrupt detail => exact Iff.rfl
  | ioFailure operation error => exact Iff.rfl
  | loaded journal enqueued attempt migrated =>
    have hjournal := World.journalHolds_of_journalOf hload
    simp only [Goes, Unblocked]
    split_ifs with hsuccessor hsource
    · exact Iff.rfl
    · exact iff_of_true (h.starts hjournal hsource) trivial
    · rcases journal with source | source | ⟨source, replacement, successor⟩ | ⟨source, reason⟩ |
        ⟨source, reason⟩
      · exact Iff.rfl
      · constructor
        · rintro ⟨hdead, -⟩ howner
          simp only [ownerIsAlive, howner] at hdead
          rw [hdead] at halive
          cases halive
        · intro howner
          cases h with
          | nothing h =>
            obtain ⟨_, hfile, -⟩ := hjournal
            rw [h] at hfile
            cases hfile
          | other h hother =>
            rw [(h.unique hjournal).1] at hother
            exact absurd hother hsource
          | reserved h => cases (h.unique hjournal).1
          | requested h howner' =>
            obtain ⟨-, rfl, -⟩ := h.unique hjournal
            exact absurd howner' howner
          | abandoned h hdead hheld hdue =>
            obtain ⟨-, rfl, -⟩ := h.unique hjournal
            exact ⟨hdead, _, hheld, hdue⟩
          | unknown h => cases (h.unique hjournal).1
      · exact Iff.rfl
      · exact Iff.rfl
      · exact Iff.rfl

end Remains

/-! ### Retrying -/

section Retries

variable {env env' : Env} {expected expected' : Option StoredAuth} {current : StoredAuth}
  {w : World} {r : Run} {header detail : String}

/-- A preparation that a local error stops is what a refresh reports before its dispatch. -/
lemma refresh_of_failed {codec : CookieCodec} {r₀ : Run}
    (h : prepare env expected r₀ = (.raised (.osError detail), r))
    (exchangeOnce : StoredAuth → ExchangeResult) :
    refresh codec env expected exchangeOnce r₀ =
      (.raised (.plain (.preDispatchLocal detail)), r) := by
  simp only [refresh, Auth.plain, bind, Action.andThen, Action.tryCatch, h]
  rfl

/-- A failed preparation leaves the credential as it is, and a ready outbox, where a later one would
dispatch. -/
lemma remaining_of_failed (hfinds : env'.Finds w current)
    (hgoes : GoesOn env' expected' current (Run.start w))
    (h : prepare env expected (Run.start w) = (.raised (.osError detail), r)) :
    Remaining env env' expected' current w r.world := by
  obtain ⟨hready, loaded, hload, hgoes⟩ := hgoes
  have hreserved : ∀ {enqueued attempt},
      w.JournalHolds (.reserved current.revision) enqueued attempt →
      Starts env' expected' current 0 := fun hjournal => hgoes.starts hload hjournal
  have hmoves : ReflTransGen (RecoveryStep env w) w r.world := by
    have hmoves := (tracks_prepare env w expected).moves
    rwa [h] at hmoves
  generalize r.world = v at hmoves
  induction hmoves with
  | refl => exact ⟨rfl, hready, hgoes.remains hload⟩
  | tail _ hstep ih => exact ih.step hfinds.holds hreserved hstep

/-- A refresh that a local error stopped before its dispatch is made up for by a later one exactly
under a condition on what the later one finds. From files that a later refresh would dispatch from,
the condition is that the failed one left no request of its own. -/
theorem retries_iff (codec : CookieCodec)
    (hfailed : prepare env expected (Run.start w) = (.raised (.osError detail), r))
    (halive : env'.ownerAlive env.owner = true) (hhealthy : env'.Healthy)
    (hsink : env'.SinkContained) (hfinds : env'.Finds w current)
    (hcookie : current.credential = .cookie header)
    (hunchanged : r.world.credential = w.credential) :
    (∀ exchangeOnce, refresh codec env expected exchangeOnce (Run.start w) =
      (.raised (.plain (.preDispatchLocal detail)), r)) ∧
    (Dispatches env' expected' r.world current ↔
      GoesOn env' expected' current (Run.start r.world)) ∧
    (Dispatches env' expected' w current →
      (Dispatches env' expected' r.world current ↔ ∃ left,
        journalOf r.world.journal = .ok left ∧ Unblocked env env' expected' current left)) := by
  have hdispatches : ∀ {v : World}, v.credential = w.credential →
      (Dispatches env' expected' v current ↔ GoesOn env' expected' current (Run.start v)) :=
    fun hsame => dispatches_iff hhealthy hsink (hfinds.congr hsame) hcookie
  refine ⟨refresh_of_failed hfailed, hdispatches hunchanged, fun hdue => ?_⟩
  have hremaining := remaining_of_failed hfinds ((hdispatches rfl).1 hdue) hfailed
  rw [hdispatches hunchanged]
  constructor
  · rintro ⟨-, left, hleft, hgoes⟩
    exact ⟨left, hleft, (hremaining.remains.goes_iff halive hleft).1 hgoes⟩
  · rintro ⟨left, hleft, hunblocked⟩
    exact ⟨hremaining.ready, left, hleft,
      (hremaining.remains.goes_iff halive hleft).2 hunblocked⟩

end Retries

/-- The first refresh of an installation, at a storage operation that fails. -/
def failedAt (operation : Nat) : Outcome PyError Preparation × Run :=
  prepare ((Env.calm (worker 1) launch "r1").failing operation) none
    (Run.start (Sys.installed firstAuth).world)

lemma starts_firstAuth :
    Starts (Env.calm (worker 1) launch "r1") none firstAuth 0 := by
  have hdeadline : launch.add? recoveryWindow = some (launchAfter 600) := by decide +kernel
  exact ⟨rfl, rfl, _, hdeadline⟩

lemma finds_installed :
    (Env.calm (worker 1) launch "r1").Finds (Sys.installed firstAuth).world firstAuth :=
  fun _ => authOf_firstAuth

lemma dispatches_firstAuth_iff {w : World}
    (h : w.credential = (Sys.installed firstAuth).world.credential) :
    Dispatches (.calm (worker 1) launch "r1") none w firstAuth ↔
      GoesOn (.calm (worker 1) launch "r1") none firstAuth (Run.start w) :=
  dispatches_iff (Env.healthy_calm _ _ _) (Env.sinkContained_calm _ _ _) (finds_installed.congr h)
    rfl

theorem retries_iff_beforeRename :
    Dispatches (.calm (worker 1) launch "r1") none (failedAt 22).2.world firstAuth := by
  have hfailed : (failedAt 22).1 = .raised (.osError "No space left on device") := rfl
  have hleft : journalOf (failedAt 22).2.world.journal =
      .ok (.loaded (.reserved "r0") false firstOwned none) := by decide +kernel
  have hdue : Dispatches (.calm (worker 1) launch "r1") none (Sys.installed firstAuth).world
      firstAuth :=
    (dispatches_firstAuth_iff rfl).2 ⟨⟨[], .inr ⟨rfl, rfl⟩⟩, _, rfl, starts_firstAuth⟩
  exact ((retries_iff plainCodec (Prod.ext hfailed rfl) rfl (Env.healthy_calm _ _ _)
    (Env.sinkContained_calm _ _ _) finds_installed rfl rfl).2.2 hdue).2
    ⟨_, hleft, starts_firstAuth⟩

/-- After its request was published, a failed refresh is waited for by its own process. -/
theorem not_retries_afterRename :
    ¬ ∀ (codec : CookieCodec) (env env' : Env) (expected : Option StoredAuth) (current : StoredAuth)
      (header detail : String) (exchangeOnce : StoredAuth → ExchangeResult) (w : World) (r : Run),
      refresh codec env expected exchangeOnce (Run.start w) =
        (.raised (.plain (.preDispatchLocal detail)), r) →
      env'.owner = env.owner → env'.ownerAlive env.owner = true → env'.Healthy →
      env'.SinkContained → env'.Finds w current → current.credential = .cookie header →
      r.world.credential = w.credential → Dispatches env' expected r.world current := by
  intro h
  have hfailed : (failedAt 25).1 = .raised (.osError "No space left on device") := rfl
  have hleft : journalOf (failedAt 25).2.world.journal =
      .ok (.loaded (.requested "r0") false firstOwned none) := by decide +kernel
  have hdispatches := h plainCodec ((Env.calm (worker 1) launch "r1").failing 25)
    (.calm (worker 1) launch "r1") none firstAuth _ _ (fun _ => .httpError "timeout")
    (Sys.installed firstAuth).world (failedAt 25).2 (refresh_of_failed (Prod.ext hfailed rfl) _)
    rfl rfl (Env.healthy_calm _ _ _) (Env.sinkContained_calm _ _ _) finds_installed rfl rfl
  have hgoes := (@dispatches_firstAuth_iff (failedAt 25).2.world rfl).1 hdispatches
  obtain ⟨-, hdead, -⟩ := (goesOn_iff hleft).1 hgoes
  cases hdead

end EnjiGuard.AuthSession
