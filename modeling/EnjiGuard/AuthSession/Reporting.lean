import EnjiGuard.AuthSession.InFlight

/-!
# Terminal outcomes on their way

A terminal outcome that was journaled is accepted by the sink, waits in the outbox, or is still
owed by the journal, which has not been marked yet. The journal is marked only after its outcome
was enqueued, so what can lose one is a write or a removal of the journal by a section that has not
enqueued what the journal owes.
-/

namespace EnjiGuard.AuthSession

open Foundation Action Relation

variable {w w' start : World} {env : Env} {key : String} {auth : StoredAuth}
variable {state : JournalState} {enqueued : Bool} {attempt : RotationAttempt}
variable {t : TerminalState} {clock : Option Datetime}

/-! ### Accounts -/

namespace World

/-- The journal holds an outcome that it is not marked to have enqueued. -/
def Owes (w : World) (t : TerminalState) : Prop :=
  ∃ attempt, w.JournalHolds (.terminal t) false attempt

/-- Every outcome that was journaled is on its way, and the outbox holds no key twice. -/
structure Accounted (w : World) : Prop where
  outcomes : ∀ key ∈ w.journaledOutcomes,
    w.Delivering key ∨ ∃ t, w.Owes t ∧ t.eventKey = key
  outbox : ∃ records, w.OutboxHolds records ∧
    (records.map OutcomeOutboxRecord.eventKey).Nodup

/-- What a journal owes is the outcome it holds. -/
lemma Owes.eq (h : w.Owes t) (hjournal : w.JournalHolds state enqueued attempt) :
    state = .terminal t ∧ enqueued = false := by
  obtain ⟨_, howed⟩ := h
  obtain ⟨hstate, -, hflag⟩ := hjournal.unique howed
  subst hstate
  simpa [JournalState.terminal?] using hflag

lemma Owes.sameRotation (h : w'.Owes t) (hsame : w.SameRotation w') : w.Owes t := by
  obtain ⟨attempt, hjournal⟩ := h
  exact ⟨attempt, hsame.journalHolds.1 hjournal⟩

/-- A journal that is not there owes nothing. -/
lemma not_owes_of_none (hnone : w.journal = none) : ¬ w.Owes t := by
  rintro ⟨_, _, hfile, -⟩
  rw [hnone] at hfile
  cases hfile

lemma Owes.of_journal_eq (h : w'.Owes t) (hsame : w'.journal = w.journal) : w.Owes t := by
  obtain ⟨attempt, hjournal⟩ := h
  rw [JournalHolds, hsame] at hjournal
  exact ⟨attempt, hjournal⟩

namespace Accounted

lemma outboxStep (h : w.Accounted) (hstep : OutboxStep w w') : w'.Accounted := by
  have hsame := hstep.sameRotation
  constructor
  · intro key hkey
    rw [hsame.journaledOutcomes] at hkey
    rcases h.outcomes key hkey with hdelivering | ⟨t, ⟨attempt, hjournal⟩, rfl⟩
    · exact .inl (hstep.kept hdelivering)
    · exact .inr ⟨t, ⟨attempt, hsame.journalHolds.2 hjournal⟩, rfl⟩
  · cases hstep with
    | enqueue hold hvalid hfresh =>
      have hconsistent := hold.consistent.append hvalid hfresh
      exact ⟨_, outboxHolds_setOutbox hconsistent, hconsistent.distinct⟩
    | accept => exact h.outbox
    | @acknowledge records eventKey hold =>
      have hconsistent := hold.consistent.filter fun record => record.eventKey ≠ eventKey
      exact ⟨_, outboxHolds_setOutbox hconsistent, hconsistent.distinct⟩
    | remove => exact ⟨[], .inr ⟨rfl, rfl⟩, List.nodup_nil⟩

/-- A journal is replaced when what it owes is on its way, or is the outcome of the new record. -/
lemma setJournal (h : w.Accounted)
    (hpaid : ∀ t, w.Owes t → w.Delivering t.eventKey ∨
      ∃ t', state = .terminal t' ∧ t'.eventKey = t.eventKey)
    (hmarked : ∀ t, state = .terminal t → enqueued = true → w.Delivering t.eventKey) :
    (w.setJournal state enqueued attempt clock).Accounted := by
  have hnew : ∀ t, state = .terminal t →
      (w.setJournal state enqueued attempt clock).Delivering t.eventKey ∨
        ∃ t', (w.setJournal state enqueued attempt clock).Owes t' ∧ t'.eventKey = t.eventKey := by
    rintro t rfl
    cases enqueued with
    | true => exact .inl (hmarked t rfl rfl)
    | false => exact .inr ⟨t, ⟨attempt, w.journalHolds_setJournal _ _ _ _⟩, rfl⟩
  refine ⟨fun key hkey => ?_, h.outbox⟩
  have hold : key ∈ w.journaledOutcomes ∨ ∃ t, state = .terminal t ∧ key = t.eventKey := by
    cases state with
    | terminal t =>
      rcases List.mem_append.1 hkey with hkey | hkey
      · exact .inl hkey
      · exact .inr ⟨t, rfl, List.mem_singleton.1 hkey⟩
    | reserved => exact .inl hkey
    | requested => exact .inl hkey
  rcases hold with hold | ⟨t, hstate, rfl⟩
  · rcases h.outcomes key hold with hdelivering | ⟨t, howed, rfl⟩
    · exact .inl hdelivering
    · rcases hpaid t howed with hdelivering | ⟨t', hstate, hkey'⟩
      · exact .inl hdelivering
      · exact hkey' ▸ hnew t' hstate
  · exact hnew t hstate

/-- A journal is removed when what it owes is on its way. -/
lemma removeJournal (h : w.Accounted) (hpaid : ∀ t, w.Owes t → w.Delivering t.eventKey) :
    w.removeJournal.Accounted := by
  refine ⟨fun key hkey => .inl ?_, h.outbox⟩
  rcases h.outcomes key hkey with hdelivering | ⟨t, howed, rfl⟩
  · exact hdelivering
  · exact hpaid t howed

lemma setCredential {cause : WriteCause} (h : w.Accounted) :
    (w.setCredential auth cause).Accounted := ⟨h.outcomes, h.outbox⟩

/-! ### Sections keep the accounts -/

/-- Recording a terminal outcome; what precedes the mark depends on the section. -/
lemma recordStep {prior : World → Prop} (h : w.Accounted)
    (hmark : prior w → ∀ owed, w.Owes owed →
      w.Delivering owed.eventKey ∨ t.eventKey = owed.eventKey)
    (hstep : RecordStep t attempt prior w w') : w'.Accounted := by
  cases hstep with
  | outbox hstep => exact h.outboxStep hstep
  | mark clock hprior hprojected hkey =>
    refine h.setJournal (fun owed howed => ?_) ?_
    · exact (hmark hprior owed howed).imp_right fun hsame => ⟨t, rfl, hsame⟩
    · rintro _ ⟨⟩ -
      exact hkey
  | delete hjournal => exact h.removeJournal fun owed howed => by cases (howed.eq hjournal).2

lemma recordStep_pending (h : w.Accounted)
    (hstep : RecordStep t attempt (World.Pending t attempt) w w') : w'.Accounted := by
  refine h.recordStep (fun hpending owed howed => ?_) hstep
  obtain ⟨hstate, -⟩ := howed.eq hpending
  cases hstate
  exact .inr rfl

/-- A journal without an outcome, or with one that is marked, owes nothing. -/
lemma replace {state' : JournalState} {enqueued' : Bool} {attempt' : RotationAttempt}
    (h : w.Accounted) (hjournal : w.JournalHolds state enqueued attempt)
    (hnothing : ∀ t, state = .terminal t → enqueued = true)
    (hunmarked : ∀ t, state' = .terminal t → enqueued' = false) :
    (w.setJournal state' enqueued' attempt' clock).Accounted := by
  refine h.setJournal (fun t howed => ?_) fun t hstate hflag => ?_
  · obtain ⟨hstate, hflag⟩ := howed.eq hjournal
    rw [hnothing t hstate] at hflag
    cases hflag
  · rw [hunmarked t hstate] at hflag
    cases hflag

lemma recoveryStep (h : w.Accounted) (hstep : RecoveryStep env start w w') : w'.Accounted := by
  cases hstep with
  | outbox hstep => exact h.outboxStep hstep
  | record hstep => exact h.recordStep_pending hstep
  | discard hheld hjournal hother hsafe =>
    refine h.removeJournal fun t howed => ?_
    obtain ⟨hstate, hflag⟩ := howed.eq hjournal
    exact hsafe t hstate hflag
  | dropReserved hheld hjournal =>
    exact h.removeJournal fun t howed => by cases (howed.eq hjournal).1
  | abandon clock hheld hjournal =>
    exact h.replace hjournal (by rintro _ ⟨⟩) fun _ _ => rfl
  | project => exact h.setCredential
  | @reserve _ origin _ _ reading hheld hauthorised hawaits =>
    rcases origin with _ | ⟨reason, held⟩
    · exact h.setJournal (fun t howed => absurd howed (not_owes_of_none hawaits)) (by rintro _ ⟨⟩)
    · exact h.replace hawaits (fun _ _ => rfl) (by rintro _ ⟨⟩)
  | request hheld hauthorised hjournal =>
    exact h.replace hjournal (by rintro _ ⟨⟩) (by rintro _ ⟨⟩)
  | stop clock hheld hjournal => exact h.replace hjournal (fun _ _ => rfl) fun _ _ => rfl

/-- A commit keeps the accounts when the journal it starts with owes at most what it commits. -/
lemma commitStep {source : String} {allowed : TerminalState → Prop}
    (howes : start.Current source → ∀ owed, start.Owes owed → ∀ t, allowed t →
      t.eventKey = owed.eventKey)
    (hstored : w.Current source → start.Current source) (h : w.Accounted)
    (hstep : CommitStep env start source allowed w w') : w'.Accounted := by
  cases hstep with
  | record _ hstep => exact h.recordStep_pending hstep
  | terminal clock hallowed hheld hcurrent _ hjournal =>
    refine h.setJournal (fun owed howed => .inr ⟨_, rfl, ?_⟩) (by rintro _ _ ⟨⟩)
    exact howes (hstored ⟨_, hheld, hcurrent⟩) owed (howed.of_journal_eq hjournal) _ hallowed
  | project => exact h.setCredential

end Accounted

end World

lemma RecordStep.delivering {prior : World → Prop} (h : RecordStep t attempt prior w w')
    (hkey : w.Delivering key) : w'.Delivering key := by
  cases h with
  | outbox h => exact h.kept hkey
  | mark => exact hkey
  | delete => exact hkey

lemma CommitStep.delivering {source : String} {allowed : TerminalState → Prop}
    (h : CommitStep env start source allowed w w') (hkey : w.Delivering key) :
    w'.Delivering key := by
  cases h with
  | record _ h => exact h.delivering hkey
  | terminal => exact hkey
  | project => exact hkey

/-- What a projection of a retained successor may find: a journal of its source owes at most the
rotation, and so does any journal once the successor is stored. -/
structure World.Admits (start : World) (retained : RetainedRefreshSuccessor) : Prop where
  source : start.Current retained.sourceRevision → ∀ owed, start.Owes owed →
    owed.eventKey = rotationEventKey retained.sourceRevision .rotated
  stored : start.Current retained.auth.revision → ∀ owed, start.Owes owed →
    start.Delivering owed.eventKey ∨
      owed.eventKey = rotationEventKey retained.sourceRevision .rotated

/-- The projection of a retained successor keeps the accounts. -/
lemma World.Accounted.projects {retained : RetainedRefreshSuccessor} (h : start.Accounted)
    (hadmits : start.Admits retained)
    (hmoves : ReflTransGen (ProjectStep env start retained) start w) : w.Accounted := by
  have hkept := keeps_of_moves (I := fun v => v.Accounted ∧
    (v.Current retained.sourceRevision → start.Current retained.sourceRevision) ∧
    ∀ key, start.Delivering key → v.Delivering key) ⟨h, id, fun _ => id⟩ hmoves
    fun v v' hv hstep => ?_
  · exact hkept.1
  obtain ⟨haccounted, hstored, hdelivering⟩ := hv
  cases hstep with
  | commit hstep =>
    refine ⟨haccounted.commitStep (fun hcurrent owed howed t hrotates => ?_) hstored hstep,
      fun hcurrent => hstored (hstep.current hcurrent),
      fun key hkey => hstep.delivering (hdelivering key hkey)⟩
    obtain ⟨header, rfl⟩ := hrotates
    exact (hadmits.source hcurrent owed howed).symm
  | already hrotates hlooked hcurrent hstep =>
    refine ⟨haccounted.recordStep (fun hsame owed howed => ?_) hstep, fun hsource => ?_,
      fun key hkey => hstep.delivering (hdelivering key hkey)⟩
    · obtain ⟨header, rfl⟩ := hrotates
      exact (hadmits.stored hcurrent owed (howed.sameRotation hsame)).imp
        (hdelivering owed.eventKey) Eq.symm
    · exact hstored (hstep.sameDispatches.sameSuccession.current.1 hsource)

/-- An import reads what the journal owes. -/
def World.ReadsOwed (env : Env) (start : World) : Prop :=
  ∀ owed, start.Owes owed → start.Delivering owed.eventKey ∨
    env.readFault .journal 0 = none ∧ ∃ attempt migrated,
      journalOf start.journal = .ok (.loaded (.terminal owed) false attempt migrated)

/-- An import keeps the accounts when it reads what the journal owes. -/
lemma World.Accounted.imports (h : start.Accounted) (hlegible : start.ReadsOwed env)
    (hmoves : ReflTransGen (ImportStep env start auth) start w) : w.Accounted := by
  have hkept := keeps_of_moves (I := fun v => v.Accounted ∧
    (v.journal = start.journal ∨ v.journal = none) ∧
    ∀ key, start.Delivering key → v.Delivering key) ⟨h, .inl rfl, fun _ => id⟩ hmoves
    fun v v' hv hstep => ?_
  · exact hkept.1
  obtain ⟨haccounted, hjournal, hdelivering⟩ := hv
  cases hstep with
  | outbox hstep =>
    refine ⟨haccounted.outboxStep hstep, ?_, fun key hkey => hstep.kept (hdelivering key hkey)⟩
    rw [hstep.sameRotation.journal]
    exact hjournal
  | write => exact ⟨h.setCredential, .inl rfl, fun _ => id⟩
  | delete hheld hsafe =>
    refine ⟨haccounted.removeJournal fun owed howed => ?_, .inr rfl, hdelivering⟩
    rcases hjournal with hsame | hnone
    · rcases hlegible owed (howed.of_journal_eq hsame) with hkey | ⟨hread, attempt, _, hload⟩
      · exact hdelivering _ hkey
      · exact hsafe owed attempt _ hread (hsame ▸ hload)
    · exact absurd howed (World.not_owes_of_none hnone)

/-! ### Runs keep the accounts -/

/-- A step reads what the journal owes before it writes over it: a retained successor that is
stored already is projected over no other outcome that is still owed, and an import reads the
journal. -/
def Sys.Heeds (s : Sys) : Label → Prop
  | .projectRetained index _ => ∀ r, s.retained[index]? = some r →
      s.world.Current r.successor.auth.revision → ∀ owed, s.world.Owes owed →
        s.world.Delivering owed.eventKey ∨
          owed.eventKey = rotationEventKey r.successor.sourceRevision .rotated
  | .importCredential _ env => s.world.ReadsOwed env
  | _ => True

/-- While the source of an exchange is stored, the journal holds its request and owes nothing. -/
lemma Sys.Guarded.not_owes {s : Sys} {index : Nat} {e : Exchange} (h : s.Guarded)
    (hget : s.exchanges[index]? = some e) (hcurrent : s.world.Current e.source.revision) :
    ¬ s.world.Owes t := by
  have hmem : e.ticket ∈ s.tickets := (Sys.tickets_perm hget).mem_iff.2 List.mem_cons_self
  intro howed
  rcases h.guards _ hmem hcurrent with ⟨_, _, hjournal, -⟩ | ⟨_, hnone, -⟩
  · cases (howed.eq hjournal).1
  · cases hnone

/-- While the source of a retained successor is stored, the journal owes at most its rotation. -/
lemma Sys.Guarded.owes_rotation {s : Sys} {index : Nat} {r : Retained} (h : s.Guarded)
    (hget : s.retained[index]? = some r)
    (hcurrent : s.world.Current r.successor.sourceRevision) (howed : s.world.Owes t) :
    t.eventKey = rotationEventKey r.successor.sourceRevision .rotated := by
  have hmem : r.ticket ∈ s.tickets :=
    List.mem_append_right _ (List.mem_map_of_mem (List.mem_of_getElem? hget))
  rcases h.guards _ hmem hcurrent with ⟨_, _, hjournal, -⟩ | ⟨_, -, header, _, _, hjournal⟩
  · cases (howed.eq hjournal).1
  · cases (howed.eq hjournal).1
    rfl

lemma Moved.accounted {codec : CookieCodec} {s : Sys} {l : Label} (hmoved : Moved codec s l w)
    (hguarded : s.Guarded) (h : s.world.Accounted) (hheeds : s.Heeds l) : w.Accounted := by
  cases hmoved with
  | prepared hmoves => exact keeps_of_moves h hmoves fun _ _ h hstep => h.recoveryStep hstep
  | returned => exact h
  | @committed index env _ source result hget hmoves =>
    refine (keeps_of_moves (I := fun v => v.Accounted ∧
      (v.Current source.revision → s.world.Current source.revision)) ⟨h, id⟩ hmoves
      fun v v' hv hstep => ?_).1
    refine ⟨hv.1.commitStep (fun hcurrent owed howed => ?_) hv.2 hstep,
      fun hcurrent => hv.2 (hstep.current hcurrent)⟩
    exact absurd howed (hguarded.not_owes hget hcurrent)
  | recovered hmoves =>
    exact keeps_of_moves h hmoves fun _ _ h hstep => h.recoveryStep hstep.recovery
  | imported hmoves => exact h.imports hheeds hmoves
  | projected hget hmoves =>
    exact h.projects ⟨fun hcurrent _ howed => hguarded.owes_rotation hget hcurrent howed,
      hheeds _ hget⟩ hmoves
  | crashed => exact h

lemma Sys.Initial.accounted {s : Sys} (h : s.Initial) : s.world.Accounted := by
  refine ⟨fun key hkey => ?_, [], .inr ⟨h.outbox, rfl⟩, List.nodup_nil⟩
  rw [h.journaledOutcomes] at hkey
  cases hkey

/-- **No terminal outcome is lost** in a run whose steps disturb no exchange in flight and heed
what the journal owes. -/
theorem accounted_of_heeding {codec : CookieCodec} {s : Sys}
    (h : Reachable Sys.Initial (Sys.step codec) (fun s l => s.Undisturbed l ∧ s.Heeds l) s) :
    s.world.Accounted := by
  refine (h.invariant (I := fun s => s.Guarded ∧ s.world.Accounted)
    (fun _ h => ⟨h.guarded, h.accounted⟩) fun s l s' hs hok hstep => ?_).2
  obtain ⟨hguarded, haccounted⟩ := hs
  obtain ⟨hundisturbed, hheeds⟩ := hok
  exact ⟨hguarded.step hundisturbed.truthful hundisturbed.fresh hundisturbed.clear hstep,
    (Sys.step_moved hstep).accounted hguarded haccounted hheeds⟩

theorem accounted_of_heeding_rotation :
    ∃ s : Sys, s.world.journaledOutcomes ≠ [] ∧ s.world.Accounted := by
  obtain ⟨s, hreplay, houtcomes⟩ := Option.map_eq_some_iff.1
    (show (replay (Sys.step plainCodec) Sys.suits (Sys.installed firstAuth)
      (importTrace.take 3)).map (fun s => s.world.journaledOutcomes.isEmpty) = some false
      by decide +kernel)
  have hpath : Path (Sys.step plainCodec) (fun s l => s.Undisturbed l ∧ s.Heeds l)
      (Sys.installed firstAuth) (importTrace.take 3) s :=
    .of_replay (fun l hl s hsuits => ?_) hreplay
  · refine ⟨s, fun hnone => ?_, accounted_of_heeding ⟨_, _, Sys.installed_initial firstAuth, hpath⟩⟩
    rw [hnone] at houtcomes
    cases houtcomes
  · have hassumed := (importTrace_calm l (List.mem_of_mem_take hl)).assumed hsuits
    have hcase : s.Unobstructed l ∧ s.Heeds l := by
      simp only [importTrace, List.take_succ_cons, List.take_zero, List.mem_cons] at hl
      rcases hl with rfl | rfl | rfl | ⟨⟨⟩⟩ <;> exact ⟨True.intro, True.intro⟩
    exact ⟨⟨hassumed.truthful, hassumed.fresh, hcase.1⟩, hcase.2⟩

/-- The first process stores its successor but fails to report it. The second one reports it,
dispatches the successor and journals an unknown outcome, which it fails to enqueue. Then the first
one projects its successor again. -/
def overwritingTrace : List Label :=
  [.refresh none (.calm (worker 1) launch "r1"),
    .exchangeReturns 0 (.response successResponse),
    .commit 0 ((Env.calm (worker 1) launch "r1").failing 28),
    .refresh none (.calm (worker 2) launch "r2"),
    .refresh none (.calm (worker 2) launch "r2"),
    .exchangeReturns 0 (.httpError "NETWORK"),
    .commit 0 ((Env.calm (worker 2) launch "r2").failing 15),
    .projectRetained 0 (.calm (worker 1) launch "r3")]

lemma overwritingTrace_calm : ∀ l ∈ overwritingTrace, l.Calm := by
  simp only [overwritingTrace, List.forall_mem_cons]
  refine ⟨?_, ?_, ?_, ?_, ?_, ?_, ?_, ?_, by rintro _ ⟨⟩⟩ <;> rintro env henv <;> cases henv <;>
    exact ⟨fun _ => rfl, fun _ => rfl⟩

/-- A run that meets all assumptions can lose a terminal outcome. -/
theorem not_accounted_of_assumed :
    ¬ ∀ s, Reachable Sys.Initial (Sys.step plainCodec) Sys.Assumed s → s.world.Accounted := by
  intro h
  obtain ⟨s, hreplay, hseen⟩ := Option.map_eq_some_iff.1
    (show (replay (Sys.step plainCodec) Sys.suits (Sys.installed firstAuth) overwritingTrace).map
      (fun s => (decide ("auth-rotation:r1:outcome_unknown" ∈ s.world.journaledOutcomes),
        decide ("auth-rotation:r1:outcome_unknown" ∈ s.world.accepted), s.world.journal.isNone,
        s.world.outbox.isNone)) = some (true, false, true, true) by decide +kernel)
  simp only [Prod.mk.injEq, decide_eq_true_eq, decide_eq_false_iff_not, Option.isNone_iff_eq_none]
    at hseen
  obtain ⟨hjournaled, hrefused, hjournal, houtbox⟩ := hseen
  have haccounted := h s (reachable_of_replay (Sys.installed_initial firstAuth)
    overwritingTrace_calm hreplay)
  rcases haccounted.outcomes _ hjournaled with (haccepted | ⟨records, hold, record, hmem, -⟩) |
    ⟨t, howed, -⟩
  · exact hrefused haccepted
  · cases hold.unique (.inr ⟨houtbox, rfl⟩)
    cases hmem
  · exact World.not_owes_of_none hjournal howed

end EnjiGuard.AuthSession
