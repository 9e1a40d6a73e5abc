import EnjiGuard.AuthSession.Observing

/-!
# Restarts

A recovery at startup may be cut off at any of its storage operations, and the next one starts on
the files that are left. `Leads` says which credential and journal a recovery ends with, from what
it reads. Every operation of a recovery keeps where the files lead, and a recovery that is not cut
off gets there.
-/

namespace EnjiGuard.AuthSession

open Foundation Action Relation

variable {env : Env} {w w' : World} {r : Run} {current : StoredAuth} {state : JournalState}
  {t : TerminalState} {attempt held : RotationAttempt} {enqueued : Bool} {migrated : Option Nat}
  {loaded : JournalLoadResult} {credential journal : Option FileText} {key : String}
  {fault : Nat → String → Fault}

/-! ### Where a recovery leads -/

/-- Why an exchange is given up at startup. -/
def startupReason : String := "process exited after refresh dispatch"

/-- A journal that a recovery leaves as it is. -/
inductive Inert (env : Env) (current : StoredAuth) : JournalLoadResult → Prop
  | unread {loaded : JournalLoadResult}
      (h : ∀ state enqueued attempt migrated, loaded ≠ .loaded state enqueued attempt migrated) :
      Inert env current loaded
  | alive {attempt : RotationAttempt} {enqueued : Bool} {migrated : Option Nat}
      (h : ownerIsAlive env attempt = true) :
      Inert env current (.loaded (.requested current.revision) enqueued attempt migrated)
  | bearer {attempt : RotationAttempt} {enqueued : Bool} {migrated : Option Nat}
      {token replacement successor : String} (hbearer : current.credential = .bearerToken token)
      (hother : successor ≠ current.revision) :
      Inert env current (.loaded (.terminal (.rotated current.revision replacement successor))
        enqueued attempt migrated)
  | marked {t : TerminalState} {attempt : RotationAttempt} {migrated : Option Nat}
      (hsource : t.sourceRevision = current.revision) (hnone : t.successor? = none) :
      Inert env current (.loaded (.terminal t) true attempt migrated)

/-- A record that a recovery removes, and nothing else. -/
def Drops (current : StoredAuth) (state : JournalState) : Prop :=
  state.successor? = some current.revision ∨ state.sourceRevision ≠ current.revision ∨
    state = .reserved current.revision

/-- What a recovery ends with that reads a credential and a journal. -/
inductive Leads (env : Env) (w : World) (current : StoredAuth) :
    JournalLoadResult → Option FileText → Option FileText → Prop
  | stay {loaded : JournalLoadResult} (h : Inert env current loaded) :
      Leads env w current loaded w.credential w.journal
  | drop {state : JournalState} {enqueued : Bool} {attempt : RotationAttempt}
      {migrated : Option Nat} (h : Drops current state) :
      Leads env w current (.loaded state enqueued attempt migrated) w.credential none
  | mark {t : TerminalState} {attempt : RotationAttempt} {migrated : Option Nat}
      (hsource : t.sourceRevision = current.revision) (hnone : t.successor? = none) :
      Leads env w current (.loaded (.terminal t) false attempt migrated) w.credential
        (some (.json (journalPayload (.terminal t) true (some attempt))))
  | abandon {enqueued : Bool} {attempt held : RotationAttempt} {migrated : Option Nat}
      (hdead : ownerIsAlive env attempt = false) (hheld : AbandonedAs env attempt 0 held) :
      Leads env w current (.loaded (.requested current.revision) enqueued attempt migrated)
        w.credential (some (.json (journalPayload
          (.terminal (.outcomeUnknown current.revision startupReason)) true (some held))))
  | project {enqueued : Bool} {attempt : RotationAttempt} {migrated : Option Nat}
      {header replacement successor : String} (hcookie : current.credential = .cookie header)
      (hother : successor ≠ current.revision) (hnamed : successor ≠ "") :
      Leads env w current (.loaded (.terminal (.rotated current.revision replacement successor))
        enqueued attempt migrated)
        (some (.json (authPayload ⟨successor, current.baseUrl, .cookie replacement,
          isoformat (env.wall 0)⟩))) none

lemma Drops.not_inert (h : Drops current state) :
    ¬ Inert env current (.loaded state enqueued attempt migrated) := by
  intro hinert
  cases hinert with
  | unread hunread => exact hunread _ _ _ _ rfl
  | alive =>
    rcases h with hsuccessor | hsource | hreserved
    · cases hsuccessor
    · exact hsource rfl
    · cases hreserved
  | bearer hbearer hother =>
    rcases h with hsuccessor | hsource | hreserved
    · exact hother (Option.some.inj hsuccessor)
    · exact hsource rfl
    · cases hreserved
  | marked hsource hnone =>
    rcases h with hsuccessor | hother | hreserved
    · exact absurd (hnone.symm.trans hsuccessor) (by simp)
    · exact hother hsource
    · cases hreserved

namespace Leads

lemma congr (h : Leads env w current loaded credential journal)
    (hcredential : w'.credential = w.credential) (hjournal : w'.journal = w.journal) :
    Leads env w' current loaded credential journal := by
  cases h with
  | stay h => exact hcredential ▸ hjournal ▸ .stay h
  | drop h => exact hcredential ▸ .drop h
  | mark hsource hnone => exact hcredential ▸ .mark hsource hnone
  | abandon hdead hheld => exact hcredential ▸ .abandon hdead hheld
  | project hcookie hother hnamed => exact .project hcookie hother hnamed

/-- From an inert journal nothing changes. -/
lemma of_inert (h : Leads env w current loaded credential journal)
    (hinert : Inert env current loaded) : credential = w.credential ∧ journal = w.journal := by
  cases h with
  | stay => exact ⟨rfl, rfl⟩
  | drop hdrops => exact absurd hinert hdrops.not_inert
  | mark hsource hnone =>
    cases hinert with
    | unread hunread => exact absurd rfl (hunread _ _ _ _)
    | bearer => cases hnone
  | abandon hdead =>
    cases hinert with
    | unread hunread => exact absurd rfl (hunread _ _ _ _)
    | alive halive => rw [hdead] at halive; cases halive
  | project hcookie =>
    cases hinert with
    | unread hunread => exact absurd rfl (hunread _ _ _ _)
    | bearer hbearer => rw [hcookie] at hbearer; cases hbearer
    | marked _ hnone => cases hnone

/-- A record that is removed leads to no journal. -/
lemma of_drops
    (h : Leads env w current (.loaded state enqueued attempt migrated) credential journal)
    (hdrops : Drops current state) : credential = w.credential ∧ journal = none := by
  cases h with
  | stay hinert => exact absurd hinert hdrops.not_inert
  | drop => exact ⟨rfl, rfl⟩
  | mark hsource hnone =>
    rcases hdrops with hsuccessor | hother | hreserved
    · exact absurd (hnone.symm.trans hsuccessor) (by simp)
    · exact absurd hsource hother
    · cases hreserved
  | abandon =>
    rcases hdrops with hsuccessor | hother | hreserved
    · cases hsuccessor
    · exact absurd rfl hother
    · cases hreserved
  | project hcookie hother =>
    rcases hdrops with hsuccessor | hsource | hreserved
    · exact absurd (Option.some.inj hsuccessor) hother
    · exact absurd rfl hsource
    · cases hreserved

/-- A recovery ends with one credential and one journal. -/
lemma unique {credential' journal' : Option FileText}
    (h : Leads env w current loaded credential journal)
    (h' : Leads env w current loaded credential' journal') :
    credential = credential' ∧ journal = journal' := by
  have hsame := h
  cases h with
  | stay hinert =>
    obtain ⟨rfl, rfl⟩ := h'.of_inert hinert
    exact ⟨rfl, rfl⟩
  | drop hdrops =>
    obtain ⟨rfl, rfl⟩ := h'.of_drops hdrops
    exact ⟨rfl, rfl⟩
  | mark hsource hnone =>
    cases h' with
    | stay hinert => exact hsame.of_inert hinert
    | drop hdrops => exact hsame.of_drops hdrops
    | mark => exact ⟨rfl, rfl⟩
    | project => cases hnone
  | abandon hdead hheld =>
    cases h' with
    | stay hinert => exact hsame.of_inert hinert
    | drop hdrops => exact hsame.of_drops hdrops
    | abandon _ hheld' =>
      obtain ⟨deadline, hadd, hattempt⟩ := hheld
      obtain ⟨deadline', hadd', hattempt'⟩ := hheld'
      obtain rfl := Option.some.inj (hadd.symm.trans hadd')
      obtain rfl := Except.ok.inj (hattempt.symm.trans hattempt')
      exact ⟨rfl, rfl⟩
  | project =>
    cases h' with
    | stay hinert => exact hsame.of_inert hinert
    | drop hdrops => exact hsame.of_drops hdrops
    | mark _ hnone => cases hnone
    | project => exact ⟨rfl, rfl⟩

end Leads

/-- The files lead to a credential and a journal. -/
def World.Heads (env : Env) (w : World) (credential journal : Option FileText) : Prop :=
  ∃ current loaded, env.Finds w current ∧ journalOf w.journal = .ok loaded ∧
    Leads env w current loaded credential journal

/-- An outcome that is journaled and not yet enqueued belongs to another revision. -/
def World.Displaced (env : Env) (w : World) (key : String) : Prop :=
  ∃ current t attempt migrated, env.Finds w current ∧
    journalOf w.journal = .ok (.loaded (.terminal t) false attempt migrated) ∧
    t.successor? ≠ some current.revision ∧ t.sourceRevision ≠ current.revision ∧ t.eventKey = key

/-- What a step of a recovery keeps. -/
structure OnWay (env : Env) (w w' : World) : Prop where
  heads : ∀ credential journal, w.Heads env credential journal → w'.Heads env credential journal
  ready : w.OutboxReady → w'.OutboxReady
  tells : ∀ key, w.Delivering key ∨ w.Displaced env key → w'.Delivering key ∨ w'.Displaced env key
  dispatches : w'.dispatches = w.dispatches

namespace OnWay

lemma refl (w : World) : OnWay env w w := ⟨fun _ _ h => h, id, fun _ h => h, rfl⟩

lemma trans {w'' : World} (h : OnWay env w w') (h' : OnWay env w' w'') : OnWay env w w'' :=
  ⟨fun _ _ hheads => h'.heads _ _ (h.heads _ _ hheads), h'.ready ∘ h.ready,
    fun _ htells => h'.tells _ (h.tells _ htells), h'.dispatches.trans h.dispatches⟩

lemma of_moves (h : ReflTransGen (OnWay env) w w') : OnWay env w w' := by
  induction h with
  | refl => exact refl _
  | tail _ hstep ih => exact ih.trans hstep

/-! ### Steps of a recovery -/

lemma of_outboxStep (h : OutboxStep w w') : OnWay env w w' := by
  have hsame := h.sameRotation
  refine ⟨?_, h.ready, ?_, hsame.dispatches⟩
  · rintro credential journal ⟨current, loaded, hfinds, hload, hleads⟩
    exact ⟨current, loaded, hfinds.congr hsame.credential, hsame.journal ▸ hload,
      hleads.congr hsame.credential hsame.journal⟩
  · rintro key (hdelivering | ⟨current, t, attempt, migrated, hfinds, hload, hrest⟩)
    · exact .inl (h.kept hdelivering)
    · exact .inr ⟨current, t, attempt, migrated, hfinds.congr hsame.credential,
        hsame.journal ▸ hload, hrest⟩

/-- A record is removed. -/
lemma removeJournal (hfinds : env.Finds w current)
    (hload : journalOf w.journal = .ok (.loaded state enqueued attempt migrated))
    (hdrops : Drops current state)
    (hsafe : ∀ t, state = .terminal t → enqueued = false → w.Delivering t.eventKey) :
    OnWay env w w.removeJournal := by
  refine ⟨?_, id, ?_, rfl⟩
  · rintro credential journal ⟨current', loaded, hfinds', hload', hleads⟩
    cases hfinds.holds.unique hfinds'.holds
    rw [hload] at hload'
    cases hload'
    obtain ⟨rfl, rfl⟩ := hleads.of_drops hdrops
    exact ⟨current, .absent, hfinds, rfl, .stay (.unread (by simp))⟩
  · rintro key (hdelivering | ⟨_, t, _, _, -, hload', -, -, rfl⟩)
    · exact .inl hdelivering
    · rw [hload] at hload'
      cases hload'
      exact .inl (hsafe t rfl rfl)

/-- A marked rotation is removed when its successor is stored. -/
lemma removeDelivered (haccepted : Accepted (.terminal t) attempt)
    (hjournal : w.JournalHolds (.terminal t) true attempt) (hprojected : w.Projected t)
    (hrotated : t.successor?.isSome) : OnWay env w w.removeJournal := by
  have hload : ∃ migrated, journalOf w.journal =
      .ok (.loaded (.terminal t) true attempt migrated) := by
    obtain ⟨payload, hfile, rfl | ⟨migrated, hload⟩⟩ := hjournal
    · exact ⟨none, by rw [hfile]; exact parseJournal_journalPayload_iff.2 haccepted⟩
    · exact ⟨migrated, by rw [hfile]; exact hload⟩
  obtain ⟨migrated, hload⟩ := hload
  refine ⟨?_, id, ?_, rfl⟩
  · rintro credential journal ⟨current, loaded, hfinds, hload', hleads⟩
    obtain ⟨successor, hsuccessor⟩ := Option.isSome_iff_exists.1 hrotated
    obtain ⟨auth, hheld, hrevision⟩ := hprojected successor hsuccessor
    cases hheld.unique hfinds.holds
    have hdrops : Drops current (.terminal t) := .inl (hrevision ▸ hsuccessor)
    exact (removeJournal hfinds hload hdrops (by rintro _ - ⟨⟩)).heads _ _
      ⟨current, loaded, hfinds, hload', hleads⟩
  · rintro key (hdelivering | ⟨_, _, _, _, -, hload', -⟩)
    · exact .inl hdelivering
    · rw [hload] at hload'
      cases hload'

/-- What is left after a record is marked can be read, if only as corrupt. -/
lemma parse_of_marked {payload : Json}
    (h : parseJournal payload = .ok (.loaded (.terminal t) enqueued attempt migrated)) :
    Accepted (.terminal t) attempt ∨ t.successor? = none ∧ ∃ detail,
      parseJournal (journalPayload (.terminal t) true (some attempt)) = .ok (.corrupt detail) := by
  rcases accepted_of_parseJournal h with ⟨-, haccepted⟩ | ⟨-, hnamed, hmigrated⟩
  · exact .inl haccepted
  by_cases hcap : attempt.totalDispatchCap = totalDispatchCap
  · exact .inl (hmigrated.accepted hnamed hcap)
  right
  have hinvalid : rotationAttemptIsValid attempt = false := by
    simp [rotationAttemptIsValid, hcap]
  refine ⟨?_, "journal recovery budget is invalid", ?_⟩
  · cases hmigrated with
    | requested source => rfl
    | terminal t =>
      cases t <;> simp [v2Attempt, Json.equalsStr, JournalState.name, totalDispatchCap] at hcap
  · rw [parseJournal_journalPayload, if_neg hnamed, if_pos hinvalid]

/-- An outcome is marked as enqueued. -/
lemma mark (hfinds : env.Finds w current)
    (hload : journalOf w.journal = .ok (.loaded (.terminal t) false attempt migrated))
    (hplace : t.successor? = some current.revision ∨
      t.successor? = none ∧ t.sourceRevision = current.revision) (clock : Option Datetime) :
    OnWay env w (w.setJournal (.terminal t) true attempt clock) := by
  have hparse : Accepted (.terminal t) attempt ∨ t.successor? = none ∧ ∃ detail,
      parseJournal (journalPayload (.terminal t) true (some attempt)) = .ok (.corrupt detail) := by
    rcases hfile : w.journal with _ | _ | detail | typeName | payload <;> rw [hfile] at hload
    · cases hload
    · cases hload
    · cases hload
    · cases hload
    · exact parse_of_marked hload
  refine ⟨?_, id, ?_, rfl⟩
  · rintro credential journal ⟨current', loaded, hfinds', hload', hleads⟩
    cases hfinds.holds.unique hfinds'.holds
    rw [hload] at hload'
    cases hload'
    rcases hplace with hsuccessor | ⟨hnone, hsource⟩
    · obtain ⟨rfl, rfl⟩ := hleads.of_drops (.inl hsuccessor)
      rcases hparse with haccepted | ⟨hnone, -⟩
      · exact ⟨current, _, hfinds, parseJournal_journalPayload_iff.2 haccepted,
          .drop (.inl hsuccessor)⟩
      · rw [hsuccessor] at hnone
        cases hnone
    · obtain ⟨rfl, rfl⟩ := hleads.unique (.mark hsource hnone)
      rcases hparse with haccepted | ⟨-, detail, hcorrupt⟩
      · exact ⟨current, _, hfinds, parseJournal_journalPayload_iff.2 haccepted,
          .stay (.marked hsource hnone)⟩
      · -- a budget of version 2 is refused once it is written in version 3
        exact ⟨current, _, hfinds, hcorrupt, .stay (.unread (by simp))⟩
  · rintro key (hdelivering | ⟨current', _, _, _, hfinds', hload', hsuccessor', hother, -⟩)
    · exact .inl hdelivering
    · cases hfinds.holds.unique hfinds'.holds
      rw [hload] at hload'
      cases hload'
      rcases hplace with hsuccessor | ⟨-, hsource⟩
      · exact absurd hsuccessor hsuccessor'
      · exact absurd hsource hother

/-- What an exchange is abandoned as is read back. -/
lemma accepted_of_abandoned
    (hload : journalOf w.journal =
      .ok (.loaded (.requested current.revision) enqueued attempt migrated))
    (hheld : AbandonedAs env attempt 0 held) :
    Accepted (.terminal (.outcomeUnknown current.revision startupReason)) held := by
  have haccepted : Accepted (.requested current.revision) attempt := by
    rcases hfile : w.journal with _ | _ | detail | typeName | payload <;> rw [hfile] at hload
    · cases hload
    · cases hload
    · cases hload
    · cases hload
    · rcases accepted_or_stopped hload with haccepted | ⟨⟨_, _, hstate⟩, -⟩
      · exact haccepted
      · cases hstate
  obtain ⟨deadline, -, hattempt⟩ := hheld
  exact (Fit.of_withContinuation haccepted.named
    (rotationAttemptIsValid_iff.1 haccepted.valid).1 hattempt).toAccepted

/-- An exchange of a process that is gone becomes an unknown outcome. -/
lemma abandon (hfinds : env.Finds w current)
    (hload : journalOf w.journal =
      .ok (.loaded (.requested current.revision) enqueued attempt migrated))
    (hdead : ownerIsAlive env attempt = false) (hheld : AbandonedAs env attempt 0 held)
    (clock : Option Datetime) :
    OnWay env w (w.setJournal (.terminal (.outcomeUnknown current.revision startupReason)) false
      held clock) := by
  have hwritten := accepted_of_abandoned hload hheld
  refine ⟨?_, id, ?_, rfl⟩
  · rintro credential journal ⟨current', loaded, hfinds', hload', hleads⟩
    cases hfinds.holds.unique hfinds'.holds
    rw [hload] at hload'
    cases hload'
    obtain ⟨rfl, rfl⟩ := hleads.unique (.abandon hdead hheld)
    exact ⟨current, _, hfinds, parseJournal_journalPayload_iff.2 hwritten, .mark rfl rfl⟩
  · rintro key (hdelivering | ⟨_, _, _, _, -, hload', -⟩)
    · exact .inl hdelivering
    · rw [hload] at hload'
      cases hload'

end OnWay

/-! ### Interrupted recoveries -/

/-- The wall clock stands still. -/
def Env.Steady (env : Env) : Prop := ∀ n, env.wall n = env.wall 0

/-- A reading is within its own tolerance. -/
lemma Tolerable.refl (now : Datetime) : Tolerable now now := by
  intro latest hlatest hlt
  have hmicros := Datetime.micros_of_add? hlatest
  have hspan : (0 : Int) ≤ importedAtFutureTolerance := by decide
  rw [Datetime.lt_def] at hlt
  omega

/-- A renewed credential with a revision is found. -/
lemma Env.Renews.finds {replacement successor : String} {auth : StoredAuth} {cause : WriteCause}
    (h : env.Renews current successor replacement auth) (hsteady : env.Steady)
    (hfinds : env.Finds w current) (hnamed : successor ≠ "") :
    env.Finds (w.setCredential auth cause) auth := by
  intro n
  obtain ⟨k, rfl⟩ := h.renewed
  refine authOf_of_stamps (hfinds n) hnamed
    ⟨(named_of_authOf (hfinds n)).2, k, Nat.lt_succ_self k, rfl⟩ fun j _ => ?_
  rw [hsteady n, hsteady j]
  exact .refl _

namespace OnWay

/-- A successor is stored in place of the credential. -/
lemma project {replacement successor : String} {auth : StoredAuth} {cause : WriteCause}
    (hsteady : env.Steady) (hfinds : env.Finds w current)
    (hload : journalOf w.journal = .ok (.loaded
      (.terminal (.rotated current.revision replacement successor)) enqueued attempt migrated))
    (hother : successor ≠ current.revision) (hnamed : successor ≠ "")
    (hrenews : env.Renews current successor replacement auth) :
    OnWay env w (w.setCredential auth cause) := by
  refine ⟨?_, id, ?_, rfl⟩
  · rintro credential journal ⟨current', loaded, hfinds', hload', hleads⟩
    cases hfinds.holds.unique hfinds'.holds
    rw [hload] at hload'
    cases hload'
    obtain ⟨header, hcookie⟩ := hrenews.cookie
    obtain ⟨k, hauth⟩ := hrenews.renewed
    -- with the successor stored, the same record is one to remove
    obtain ⟨rfl, rfl⟩ := hleads.unique (.project hcookie hother hnamed)
    rw [← hsteady k, ← hauth]
    exact ⟨auth, _, hrenews.finds hsteady hfinds hnamed, hload,
      .drop (.inl (congrArg some hrenews.revision.symm))⟩
  · rintro key (hdelivering | ⟨current', t, _, _, hfinds', hload', -, hother', -⟩)
    · exact .inl hdelivering
    · cases hfinds.holds.unique hfinds'.holds
      rw [hload] at hload'
      cases hload'
      exact absurd rfl hother'

/-- The journal holds an outcome that is not marked, beside the credential. -/
def Unmarked (env : Env) (current : StoredAuth) (t : TerminalState) (attempt : RotationAttempt)
    (w : World) : Prop :=
  env.Finds w current ∧ ∃ migrated,
    journalOf w.journal = .ok (.loaded (.terminal t) false attempt migrated)

lemma of_recordStep (hplace : t.successor? = some current.revision ∨
      t.successor? = none ∧ t.sourceRevision = current.revision)
    (haccepted : t.successor?.isSome → Accepted (.terminal t) attempt)
    (h : RecordStep t attempt (Unmarked env current t attempt) w w') : OnWay env w w' := by
  cases h with
  | outbox h => exact of_outboxStep h
  | mark clock hprior =>
    obtain ⟨hfinds, migrated, hload⟩ := hprior
    exact mark hfinds hload hplace clock
  | delete hjournal hprojected hrotated =>
    exact removeDelivered (haccepted hrotated) hjournal hprojected hrotated

end OnWay

/-- The same environment under other failures of the storage. -/
abbrev Env.under (env : Env) (fault : Nat → String → Fault) : Env := { env with fault := fault }

section Interrupted

variable {fault : Nat → String → Fault} {n : Nat}

lemma Env.Renews.of_fault {replacement successor : String} {auth : StoredAuth}
    (h : (env.under fault).Renews current successor replacement auth) :
    env.Renews current successor replacement auth := ⟨h.cookie, h.renewed⟩

/-- Recording an outcome whose successor is stored, or that has none. -/
lemma onWay_recordTerminalOutcome (hfinds : env.Finds r.world current)
    (hload : journalOf r.world.journal = .ok (.loaded (.terminal t) enqueued attempt migrated))
    (hplace : t.successor? = some current.revision ∨
      t.successor? = none ∧ t.sourceRevision = current.revision) :
    Tracks Run.world (OnWay env) (recordTerminalOutcome (env.under fault) t attempt enqueued) r
      (fun _ _ => True) fun _ _ => True := by
  have haccepted : t.successor?.isSome → Accepted (.terminal t) attempt := by
    intro hrotated
    rcases hfile : r.world.journal with _ | _ | detail | typeName | payload <;> rw [hfile] at hload
    · cases hload
    · cases hload
    · cases hload
    · cases hload
    · rcases OnWay.parse_of_marked hload with haccepted | ⟨hnone, -⟩
      · exact haccepted
      · rw [hnone] at hrotated
        cases hrotated
  refine ((tracks_recordTerminalOutcome (OnWay.Unmarked env current t attempt) ?_ ?_ ?_ ?_).mono
    fun _ _ h => OnWay.of_recordStep hplace haccepted h).weaken (fun _ _ _ => trivial)
      fun _ _ _ => trivial
  · rintro v v' hsame ⟨hfinds, migrated, hload⟩
    exact ⟨hfinds.congr hsame.credential, migrated, hsame.journal ▸ hload⟩
  · rintro rfl
    exact ⟨hfinds, migrated, hload⟩
  · rintro rfl
    exact World.journalHolds_of_journalOf hload
  · intro successor hsuccessor
    refine ⟨current, hfinds.holds, ?_⟩
    rcases hplace with hcurrent | ⟨hnone, -⟩
    · exact Option.some.inj (hcurrent.symm.trans hsuccessor)
    · rw [hnone] at hsuccessor
      cases hsuccessor

/-- Projecting a journaled successor that has a revision. -/
lemma onWay_recoverRotated {replacement successor : String} (hsteady : env.Steady)
    (hfinds : env.Finds r.world current)
    (hload : journalOf r.world.journal = .ok (.loaded
      (.terminal (.rotated current.revision replacement successor)) enqueued attempt migrated))
    (hother : successor ≠ current.revision)
    (hnamed : ∀ header, current.credential = .cookie header → successor ≠ "") :
    Tracks Run.world (OnWay env)
      (recoverRotated (env.under fault) (.rotated current.revision replacement successor)
        current.revision replacement successor attempt enqueued) r
      (fun _ _ => True) fun _ _ => True := by
  refine ((tracks_casReplaceCookie_renews fun current' auth hheld _ hrenews => ?_).weaken
    (fun _ _ h => h) fun _ _ _ => trivial).bind fun result r₁ _ h₁ => ?_
  · cases hheld.unique hfinds.holds
    obtain ⟨header, hcookie⟩ := hrenews.cookie
    exact .project hsteady hfinds hload hother (hnamed header hcookie) hrenews.of_fault
  · cases result with
    | written auth =>
      obtain ⟨current', hheld, -, hrenews, hreplaced⟩ := h₁
      cases hheld.unique hfinds.holds
      obtain ⟨header, hcookie⟩ := hrenews.cookie
      have hfinds₁ : env.Finds r₁.world auth := by
        rw [hreplaced.world]
        exact hrenews.of_fault.finds hsteady hfinds (hnamed header hcookie)
      have hload₁ : journalOf r₁.world.journal = .ok (.loaded
          (.terminal (.rotated current.revision replacement successor)) enqueued attempt
            migrated) := by
        rw [hreplaced.world]
        exact hload
      exact (onWay_recordTerminalOutcome hfinds₁ hload₁
        (.inl (congrArg some hrenews.revision.symm))).bind fun _ _ _ _ => Tracks.pure trivial
    | superseded _ =>
      exact ((tracks_loadAuth (env.under fault) r₁).weaken (fun _ _ h => h)
        fun _ _ _ => trivial).bind fun _ _ _ _ =>
          (tracks_ofExcept _).weaken (fun _ _ _ => trivial) fun _ _ _ => trivial

lemma AbandonedAs.of_deadline {deadline : String}
    (hdeadline : isoformatAfter (env.now n) recoveryWindow = .ok deadline)
    (hattempt : withContinuation attempt .ambiguityReplay deadline (env.now (n + 1)) = .ok held) :
    AbandonedAs env attempt n held := by
  rcases hadd : (env.now n).add? recoveryWindow with _ | t
  · rw [isoformatAfter_eq_error hadd] at hdeadline
    cases hdeadline
  · rw [isoformatAfter_eq_ok hadd] at hdeadline
    cases hdeadline
    exact ⟨t, hadd, hattempt⟩

/-- Giving up the exchange of a process that is gone. -/
lemma onWay_abandonRequested {start : World} {reason : String} (hreason : reason = startupReason)
    (hstage : Stage start 0 r) (hfinds : env.Finds r.world current)
    (hload : journalOf r.world.journal =
      .ok (.loaded (.requested current.revision) enqueued attempt migrated))
    (hdead : ownerIsAlive env attempt = false) :
    Tracks Run.world (OnWay env)
      (abandonRequested (env.under fault) current.revision attempt reason) r
      (fun _ _ => True) fun _ _ => True := by
  refine (tracks_transitionOrRaise fun _ => True.intro).bind fun state r₁ _ h₁ => ?_
  obtain ⟨rfl, t, ht, rfl⟩ := h₁
  cases ht
  dsimp only [terminate]
  refine Tracks.bind (Q := fun deadline r' =>
    isoformatAfter (env.now 0) recoveryWindow = .ok deadline ∧ r'.world = r₁.world ∧
    Stage start 1 r') ?_ fun deadline r₂ _ h₂ => ?_
  · refine hstage.tracks_nowFn.bind fun now r₂ _ h₂ => ?_
    obtain ⟨rfl, hworld₂, hstage₂⟩ := h₂
    refine (tracks_ofExcept _).weaken ?_ fun _ _ h => h
    rintro deadline r₃ ⟨hdeadline, rfl⟩
    exact ⟨hdeadline, hworld₂, hstage₂⟩
  obtain ⟨hdeadline, hworld₂, hstage₂⟩ := h₂
  refine hstage₂.tracks_nowFn.bind fun now r₃ _ h₃ => ?_
  obtain ⟨rfl, hworld₃, -⟩ := h₃
  refine (tracks_ofExcept _).bind fun held r₄ _ h₄ => ?_
  obtain ⟨hattempt, rfl⟩ := h₄
  have hheld : AbandonedAs env attempt 0 held := .of_deadline hdeadline hattempt
  rw [← hworld₂, ← hworld₃] at hfinds hload
  refine ((tracks_writeJournal (env.under fault) ?_).weaken (fun _ _ h => h)
    fun _ _ _ => trivial).bind fun _ r₅ _ h₅ => ?_
  · rw [hreason]
    exact .abandon hfinds hload hdead hheld _
  have hfinds₅ : env.Finds r₅.world current := by
    rw [h₅.world]
    exact hfinds.congr rfl
  have hload₅ : journalOf r₅.world.journal = .ok (.loaded
      (.terminal (.outcomeUnknown current.revision reason)) false held none) := by
    rw [h₅.world]
    refine parseJournal_journalPayload_iff.2 ?_
    rw [hreason]
    exact OnWay.accepted_of_abandoned hload hheld
  exact (onWay_recordTerminalOutcome hfinds₅ hload₅ (.inr ⟨rfl, rfl⟩)).bind
    fun _ _ _ _ => Tracks.pure trivial

/-- The files lead somewhere only where a successor that is to be stored has a revision. -/
lemma named_of_heads {replacement successor : String} {credential journal : Option FileText}
    (hheads : w.Heads env credential journal) (hfinds : env.Finds w current)
    (hload : journalOf w.journal = .ok (.loaded
      (.terminal (.rotated current.revision replacement successor)) enqueued attempt migrated))
    (hother : successor ≠ current.revision) {header : String}
    (hcookie : current.credential = .cookie header) : successor ≠ "" := by
  obtain ⟨current', loaded, hfinds', hload', hleads⟩ := hheads
  cases hfinds.holds.unique hfinds'.holds
  rw [hload] at hload'
  cases hload'
  cases hleads with
  | stay hinert =>
    cases hinert with
    | unread hunread => exact absurd rfl (hunread _ _ _ _)
    | bearer hbearer => rw [hcookie] at hbearer; cases hbearer
    | marked _ hnone => cases hnone
  | drop hdrops =>
    rcases hdrops with hsuccessor | hsource | hreserved
    · exact absurd (Option.some.inj hsuccessor) hother
    · exact absurd rfl hsource
    · cases hreserved
  | mark _ hnone => cases hnone
  | project _ _ hnamed => exact hnamed

/-- A recovery of the journal that is cut off anywhere. -/
lemma onWay_recoverStartupJournal {start : World} (hsteady : env.Steady) (hstage : Stage start 0 r)
    (hfinds : env.Finds r.world current) (hheads : r.world.Heads env credential journal) :
    Tracks Run.world (OnWay env) (recoverStartupJournal (env.under fault) current) r
      (fun _ _ => True) fun _ _ => True := by
  refine ((tracks_loadJournal (env.under fault) r).weaken (fun _ _ h => h)
    fun _ _ _ => trivial).bind fun loaded r₁ _ h₁ => ?_
  obtain ⟨hread, hloaded, -, -⟩ := h₁
  have hstage₁ : Stage start 0 r₁ := ⟨hread.world ▸ hstage.dispatches, hread.now.trans hstage.now⟩
  rw [← hread.world] at hfinds hheads hloaded
  cases loaded with
  | loaded state enqueued attempt migrated =>
    have hload := hloaded state enqueued attempt migrated rfl
    have hrecord : ∀ t, state = .terminal t →
        (t.successor? = some current.revision ∨
          t.successor? = none ∧ t.sourceRevision = current.revision) →
        Tracks Run.world (OnWay env)
          (do recordTerminalOutcome (env.under fault) t attempt enqueued; return current) r₁
          (fun _ _ => True) (fun _ _ => True) := by
      rintro t rfl hplace
      exact (onWay_recordTerminalOutcome hfinds hload hplace).bind fun _ _ _ _ =>
        Tracks.pure trivial
    by_cases hcurrent : state.successor? = some current.revision
    · simp only [if_pos hcurrent]
      rcases state with source | source | t
      · cases hcurrent
      · cases hcurrent
      · exact hrecord t rfl (.inl hcurrent)
    by_cases hsource : state.sourceRevision ≠ current.revision
    · simp only [if_neg hcurrent, if_pos hsource]
      refine ((tracks_discardRotationState (fun _ _ h => .of_outboxStep h)
        fun w hsame hsafe => ?_).weaken (fun _ _ h => h) fun _ _ _ => trivial).bind
          fun _ r₂ _ h₂ => Tracks.pure trivial
      exact .removeJournal (hfinds.congr hsame.credential) (hsame.journal ▸ hload)
        (.inr (.inl hsource)) hsafe
    · simp only [if_neg hcurrent, if_neg hsource]
      rcases state with source | source | ⟨source, replacement, successor⟩ | ⟨source, reason⟩ |
        ⟨source, reason⟩ <;> cases not_not.1 hsource
      case neg.reserved.refl =>
        exact ((tracks_deleteJournal (.removeJournal hfinds hload (.inr (.inr rfl))
          (by rintro _ ⟨⟩))).weaken (fun _ _ h => h)
          fun _ _ _ => trivial).bind fun _ _ _ _ => Tracks.pure trivial
      case neg.requested.refl =>
        by_cases hdead : ownerIsAlive env attempt = true
        · simp only [show ownerIsAlive (env.under fault) attempt = true from hdead, if_true]
          exact Tracks.pure trivial
        · have hreason : "process exited after refresh dispatch" = startupReason := rfl
          simp only [show ¬ ownerIsAlive (env.under fault) attempt = true from hdead]
          exact (onWay_abandonRequested hreason hstage₁ hfinds hload (by simpa using hdead)).bind
            fun _ _ _ _ => Tracks.pure trivial
      case neg.terminal.rotated.refl =>
        have hother : successor ≠ current.revision := fun h => hcurrent (congrArg some h)
        exact onWay_recoverRotated hsteady hfinds hload hother fun _ hcookie =>
          named_of_heads hheads hfinds hload hother hcookie
      case neg.terminal.rejected.refl => exact hrecord _ rfl (.inr ⟨rfl, rfl⟩)
      case neg.terminal.outcomeUnknown.refl => exact hrecord _ rfl (.inr ⟨rfl, rfl⟩)
  | _ => exact Tracks.pure trivial

/-- A recovery that is cut off anywhere is on the way of the whole one. -/
lemma onWay_recoverStartup (hsteady : env.Steady) (hheads : w.Heads env credential journal) :
    OnWay env w (recoverStartup (env.under fault) (Run.start w)).2.world := by
  have hmoves : Tracks Run.world (OnWay env) (recoverStartup (env.under fault)) (Run.start w)
      (fun _ _ => True) fun _ _ => True := by
    obtain ⟨current, -, hfinds, -⟩ := id hheads
    refine tracks_withAuthFileLock (fun r₀ h₀ => ?_) (fun _ _ _ => trivial)
      (fun _ _ _ _ _ => trivial) (fun _ _ _ _ _ _ => trivial) fun _ _ _ _ _ _ => trivial
    refine ((tracks_loadAuth (env.under fault) r₀).weaken (fun _ _ h => h)
      fun _ _ _ => trivial).bind fun loaded r₁ _ h₁ => ?_
    obtain ⟨hsame₁, hloaded⟩ := h₁
    have hworld₁ : r₁.world = w := hsame₁.world.trans h₀.world
    cases loaded with
    | loaded auth =>
      have hheld : w.Holds auth := by
        have hstored := hloaded auth rfl
        rwa [h₀.world] at hstored
      cases hheld.unique hfinds.holds
      refine (((tracks_drainOutbox (env.under fault) r₁).traced.mono fun _ _ h =>
        .of_outboxStep h).weaken (fun _ _ h => h) fun _ _ _ => trivial).bind
          fun _ r₂ hmoves h₂ => ?_
      have hsame₂ := World.SameRotation.of_outboxSteps h₂.2
      have hstage₁ : Stage w 0 r₁ := ⟨hworld₁ ▸ .refl _, (hsame₁.now.trans h₀.now).trans rfl⟩
      rw [hworld₁] at hmoves hsame₂
      exact (onWay_recoverStartupJournal hsteady
        (hstage₁.quiet h₂.1 (hworld₁ ▸ hsame₂.sameDispatches)) (hfinds.congr hsame₂.credential)
        ((OnWay.of_moves hmoves).heads _ _ hheads)).bind fun _ _ _ _ => Tracks.pure trivial
    | _ => exact Tracks.pure trivial
  exact OnWay.of_moves hmoves.moves

end Interrupted

end EnjiGuard.AuthSession
