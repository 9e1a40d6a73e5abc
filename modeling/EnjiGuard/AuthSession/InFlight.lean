import EnjiGuard.AuthSession.Lineage
import Mathlib.Data.List.Perm.Basic
import Mathlib.Data.List.Nodup

/-!
# Exchanges in flight

A ticket is what a process still has to bring to the files: an exchange it dispatched, or a
successor it holds. While the source of a ticket is stored, the journal holds the request under the
name of the process, or the rotation to the successor. This guard is what keeps any other process
from dispatching, recovering or discarding the rotation. Projecting a retained successor that is
stored already writes the journal without looking at it, and is the one step that can break the
guard. Projecting one whose source is stored keeps it, and may replace the request that the commit
of its owner has left.
-/

namespace EnjiGuard.AuthSession

open Foundation Action Relation

/-- What a process still has to bring to the files. -/
structure Ticket where
  owner : RefreshOwner
  source : String
  successor : Option String
  deriving DecidableEq

def Exchange.ticket (e : Exchange) : Ticket := ⟨e.owner, e.source.revision, none⟩

def Retained.ticket (r : Retained) : Ticket :=
  ⟨r.owner, r.successor.sourceRevision, some r.successor.auth.revision⟩

/-- The tickets of all processes. -/
def Sys.tickets (s : Sys) : List Ticket :=
  s.exchanges.map Exchange.ticket ++ s.retained.map Retained.ticket

variable {w w' start : World} {T : List Ticket} {t : Ticket} {env : Env}

/-! ### Guards -/

namespace World

/-- The journal holds a request under the name of a process. -/
def Requested (w : World) (revision : String) (owner : RefreshOwner) : Prop :=
  ∃ enqueued attempt, w.JournalHolds (.requested revision) enqueued attempt ∧
    attemptOwner attempt = some owner

/-- The journal holds a rotation. -/
def Rotated (w : World) (source successor : String) : Prop :=
  ∃ header enqueued attempt,
    w.JournalHolds (.terminal (.rotated source header successor)) enqueued attempt

/-- While the source of a ticket is stored, the journal says so. -/
def Guards (w : World) (t : Ticket) : Prop :=
  w.Current t.source → w.Requested t.source t.owner ∨
    ∃ successor, t.successor = some successor ∧ w.Rotated t.source successor

end World

/-- A journal that is neither the request nor the rotation of a ticket shows that the source of the
ticket is not stored. -/
lemma World.Guards.not_current {state : JournalState} {enqueued : Bool}
    {attempt : RotationAttempt} (h : w.Guards t) (hjournal : w.JournalHolds state enqueued attempt)
    (hrequested : state = .requested t.source → attemptOwner attempt ≠ some t.owner)
    (hrotated : ∀ header successor, t.successor = some successor →
      state ≠ .terminal (.rotated t.source header successor)) : ¬ w.Current t.source := by
  intro hcurrent
  rcases h hcurrent with ⟨_, held, hheld, howner⟩ | ⟨successor, hsuccessor, header, _, _, hheld⟩
  · obtain ⟨hstate, rfl, -⟩ := hjournal.unique hheld
    exact hrequested hstate howner
  · exact hrotated header successor hsuccessor (hjournal.unique hheld).1

/-- Without a journal the source of a ticket is not stored. -/
lemma World.Guards.not_current_of_none (h : w.Guards t) (hjournal : w.journal = none) :
    ¬ w.Current t.source := by
  intro hcurrent
  rcases h hcurrent with ⟨_, _, ⟨_, hfile, _⟩, _⟩ | ⟨_, _, _, _, _, _, hfile, _⟩ <;>
    rw [hjournal] at hfile <;> cases hfile

lemma World.Guards.sameRotation (h : w.Guards t) (hsame : w.SameRotation w') : w'.Guards t := by
  intro hcurrent
  rcases h (hsame.sameDispatches.sameSuccession.current.1 hcurrent) with
    ⟨enqueued, attempt, hheld, howner⟩ | ⟨successor, hsuccessor, header, enqueued, attempt, hheld⟩
  · exact .inl ⟨enqueued, attempt, hsame.journalHolds.2 hheld, howner⟩
  · exact .inr ⟨successor, hsuccessor, header, enqueued, attempt, hsame.journalHolds.2 hheld⟩

/-! ### Sections keep the guards -/

/-- The tickets are guarded, and none of them is about the stored revision once the section has
authorized a dispatch. -/
structure Covered (T : List Ticket) (start w : World) : Prop where
  guards : ∀ t ∈ T, w.Guards t
  dispatched : w.dispatches ≠ start.dispatches → ∀ t ∈ T, ¬ w.Current t.source

/-- The succession knows the tickets. -/
structure Enrolled (T : List Ticket) (links : List (String × String)) (sources : List String) :
    Prop where
  source : ∀ t ∈ T, t.source ∈ sources ∨ ∃ successor, (t.source, successor) ∈ links
  link : ∀ t ∈ T, ∀ successor, t.successor = some successor → (t.source, successor) ∈ links

variable {links : List (String × String)} {sources known : List String}

lemma Lineage.ever_ticket (h : Lineage links sources known w) (hT : Enrolled T links sources)
    (ht : t ∈ T) : w.Ever t.source := by
  rcases hT.source t ht with hmem | ⟨successor, hmem⟩
  · exact h.sourceEver _ hmem
  · exact h.linkSource _ hmem

namespace Covered

/-- Where no ticket is about the stored revision there is nothing to guard. -/
lemma vacuous (h : ∀ t ∈ T, ¬ w.Current t.source) : Covered T start w :=
  ⟨fun t ht hcurrent => absurd hcurrent (h t ht), fun _ => h⟩

lemma vacuous_of_same (h : ∀ t ∈ T, ¬ w.Current t.source) (hsame : w.SameSuccession w') :
    Covered T start w' :=
  vacuous fun t ht hcurrent => h t ht (hsame.current.1 hcurrent)

lemma begin (h : ∀ t ∈ T, start.Guards t) : Covered T start start :=
  ⟨h, fun hne => absurd rfl hne⟩

lemma outbox (h : Covered T start w) (hstep : OutboxStep w w') : Covered T start w' := by
  have hsame := hstep.sameRotation
  refine ⟨fun t ht => (h.guards t ht).sameRotation hsame, fun hne t ht hcurrent => ?_⟩
  rw [hsame.dispatches] at hne
  exact h.dispatched hne t ht (hsame.sameDispatches.sameSuccession.current.1 hcurrent)

/-- Removing a journal that no ticket needs. -/
lemma removeJournal {state : JournalState} {enqueued : Bool} {attempt : RotationAttempt}
    (h : Covered T start w) (hjournal : w.JournalHolds state enqueued attempt)
    (hother : ∀ t ∈ T, w.Current t.source →
      (state = .requested t.source → attemptOwner attempt ≠ some t.owner) ∧
      ∀ header successor, t.successor = some successor →
        state ≠ .terminal (.rotated t.source header successor)) :
    Covered T start w.removeJournal := by
  refine vacuous_of_same (fun t ht hcurrent => ?_) w.sameDispatches_removeJournal.sameSuccession
  obtain ⟨hrequested, hrotated⟩ := hother t ht hcurrent
  exact (h.guards t ht).not_current hjournal hrequested hrotated hcurrent

/-- Recording a terminal outcome; what precedes the mark depends on the section. -/
lemma recordStep {state : TerminalState} {attempt : RotationAttempt} {prior : World → Prop}
    (hlineage : Lineage links sources known w) (hT : Enrolled T links sources)
    (hmark : ∀ clock, prior w → w.Projected state →
      Covered T start (w.setJournal (.terminal state) true attempt clock))
    (h : Covered T start w) (hstep : RecordStep state attempt prior w w') :
    Covered T start w' := by
  cases hstep with
  | outbox hstep => exact h.outbox hstep
  | mark clock hprior hprojected => exact hmark clock hprior hprojected
  | delete hjournal hprojected =>
    refine h.removeJournal hjournal fun t ht hcurrent => ⟨by rintro ⟨⟩, ?_⟩
    rintro header successor hsuccessor ⟨⟩
    -- the rotation is projected, so its source is not stored any more
    obtain ⟨stored, hheld, hrevision⟩ := hprojected successor rfl
    exact hlineage.linkMoves _ (hT.link t ht successor hsuccessor)
      (hcurrent.unique ⟨stored, hheld, hrevision⟩)

lemma recordStep_pending {state : TerminalState} {attempt : RotationAttempt}
    (hlineage : Lineage links sources known w) (hT : Enrolled T links sources)
    (h : Covered T start w)
    (hstep : RecordStep state attempt (World.Pending state attempt) w w') :
    Covered T start w' := by
  refine h.recordStep hlineage hT (fun clock hpending _ => ⟨fun t ht hcurrent => ?_, ?_⟩) hstep
  · have hcurrent' := (w.sameSuccession_setJournal _ _ _ _).current.1 hcurrent
    by_cases hrotated : ∃ header successor, t.successor = some successor ∧
        state = .rotated t.source header successor
    · obtain ⟨header, successor, hsuccessor, rfl⟩ := hrotated
      exact .inr ⟨successor, hsuccessor, header, true, attempt,
        World.journalHolds_setJournal _ _ _ _ _⟩
    · refine absurd hcurrent' ((h.guards t ht).not_current hpending (by rintro ⟨⟩) ?_)
      rintro header successor hsuccessor ⟨⟩
      exact hrotated ⟨header, successor, hsuccessor, rfl⟩
  · exact fun hne t ht hcurrent =>
      h.dispatched hne t ht ((w.sameSuccession_setJournal _ _ _ _).current.1 hcurrent)

/-- A credential that was never stored is the source of no ticket. -/
lemma setCredential {auth : StoredAuth} {cause : WriteCause}
    (hlineage : Lineage links sources known w) (hT : Enrolled T links sources)
    (hnovel : ¬ w.Ever auth.revision) : Covered T start (w.setCredential auth cause) := by
  refine vacuous fun t ht hcurrent => hnovel ?_
  rw [← World.current_setCredential.1 hcurrent]
  exact hlineage.ever_ticket hT ht

/-- Projecting the rotation in the journal. -/
lemma project {auth current : StoredAuth} {source header successor : String} {enqueued : Bool}
    {attempt : RotationAttempt} {cause : WriteCause} (hlineage : Lineage links sources known w)
    (hT : Enrolled T links sources) (hheld : w.Holds current) (hcurrent : current.revision = source)
    (hjournal : w.JournalHolds (.terminal (.rotated source header successor)) enqueued attempt)
    (hrevision : auth.revision = successor) :
    Covered T start (w.setCredential auth cause) :=
  setCredential hlineage hT
    (hrevision ▸ (hlineage.journalLink _ _ _ _ _ hjournal).2 ⟨current, hheld, hcurrent⟩)

/-- A journal that replaces one that no ticket needs. -/
lemma setJournal {state state' : JournalState} {enqueued enqueued' : Bool}
    {attempt attempt' : RotationAttempt} {clock : Option Datetime} (h : Covered T start w)
    (hjournal : w.JournalHolds state enqueued attempt)
    (hrequested : ∀ t ∈ T, state = .requested t.source → attemptOwner attempt ≠ some t.owner)
    (hrotated : state.successor? = none) :
    Covered T start (w.setJournal state' enqueued' attempt' clock) := by
  refine vacuous_of_same (fun t ht => (h.guards t ht).not_current hjournal (hrequested t ht) ?_)
    (w.sameSuccession_setJournal _ _ _ _)
  rintro header successor - rfl
  cases hrotated

/-- A recovery step under a probe that finds the owners of the tickets alive. -/
lemma recoveryStep (hlineage : Lineage links sources known w) (hT : Enrolled T links sources)
    (halive : ∀ t ∈ T, env.ownerAlive t.owner = true) {start' : World} (h : Covered T start w)
    (hstep : RecoveryStep env start' w w') : Covered T start w' := by
  cases hstep with
  | outbox hstep => exact h.outbox hstep
  | record hstep => exact h.recordStep_pending hlineage hT hstep
  | discard hheld hjournal hother =>
    refine h.removeJournal hjournal fun t ht hcurrent => ?_
    have hsource := hcurrent.unique hheld.current
    refine ⟨?_, ?_⟩
    · rintro rfl; exact absurd hsource hother
    · rintro header successor - rfl; exact hother hsource
  | dropReserved hheld hjournal =>
    exact h.removeJournal hjournal fun t ht hcurrent => ⟨by rintro ⟨⟩, by rintro _ _ _ ⟨⟩⟩
  | abandon clock hheld hjournal hdead =>
    refine h.setJournal hjournal (fun t ht _ howner => ?_) rfl
    simp only [ownerIsAlive, howner] at hdead
    exact absurd (halive t ht) (by rw [hdead]; decide)
  | project hheld hjournal hrevision =>
    exact project hlineage hT hheld rfl hjournal hrevision
  | @reserve _ origin _ _ reading hheld hauthorised hawaits =>
    rcases origin with _ | ⟨reason, held⟩
    · exact vacuous_of_same (fun t ht => (h.guards t ht).not_current_of_none hawaits)
        (w.sameSuccession_setJournal _ _ _ _)
    · exact h.setJournal hawaits (fun _ _ => by rintro ⟨⟩) rfl
  | request hheld hauthorised hjournal =>
    exact h.setJournal hjournal (fun _ _ => by rintro ⟨⟩) rfl
  | stop clock hheld hjournal =>
    exact h.setJournal hjournal (fun _ _ => by rintro ⟨⟩) rfl

/-- A commit for a source; the only ticket it may concern is one for that very rotation. -/
lemma commitStep {source : String} {allowed : TerminalState → Prop}
    (hlineage : Lineage links sources known w) (hT : Enrolled T links sources)
    (hself : ∀ t ∈ T, t.source = source → ∀ state, allowed state →
      ∃ header successor, t.successor = some successor ∧ state = .rotated source header successor)
    {start' : World} (h : Covered T start w)
    (hstep : CommitStep env start' source allowed w w') : Covered T start w' := by
  cases hstep with
  | record _ hstep => exact h.recordStep_pending hlineage hT hstep
  | terminal clock hallowed hheld hcurrent =>
    refine ⟨fun t ht hstored => ?_, fun hne t ht hstored =>
      h.dispatched hne t ht ((w.sameSuccession_setJournal _ _ _ _).current.1 hstored)⟩
    have hsource : t.source = source :=
      ((w.sameSuccession_setJournal _ _ _ _).current.1 hstored).unique ⟨_, hheld, hcurrent⟩
    obtain ⟨header, successor, hsuccessor, rfl⟩ := hself t ht hsource _ hallowed
    rw [← hsource]
    exact .inr ⟨successor, hsuccessor, header, false, _, World.journalHolds_setJournal _ _ _ _ _⟩
  | project _ hheld hcurrent hjournal hrevision =>
    exact project hlineage hT hheld hcurrent hjournal hrevision

/-- The projection of a retained successor. When the successor is stored already, no ticket may be
about it. -/
lemma projectStep {retained : RetainedRefreshSuccessor}
    (hlineage : Lineage links sources known w) (hT : Enrolled T links sources)
    (hself : ∀ t ∈ T, t.source = retained.sourceRevision →
      t.successor = some retained.auth.revision)
    (hstored : start.Current retained.auth.revision → ∀ t ∈ T, ¬ start.Current t.source)
    (h : Covered T start w) (hstep : ProjectStep env start retained w w') :
    Covered T start w' := by
  cases hstep with
  | commit hstep =>
    refine h.commitStep hlineage hT (fun t ht hsource state hstate => ?_) hstep
    obtain ⟨header, rfl⟩ := hstate
    exact ⟨header, _, hself t ht hsource, rfl⟩
  | already ht hlooked hcurrent hstep =>
    refine h.recordStep hlineage hT (fun clock hsame _ => ?_) hstep
    refine vacuous fun t ht hstored' => ?_
    have hstart := hsame.sameDispatches.sameSuccession.current.1
      ((w.sameSuccession_setJournal _ _ _ _).current.1 hstored')
    exact hstored hcurrent t ht hstart

/-- An import; before it writes nothing has changed. -/
lemma importStep {auth : StoredAuth} (hstart : Lineage links sources known start)
    (hT : Enrolled T links sources) (hfresh : auth.revision ∉ known) (h : Covered T start w)
    (hstep : ImportStep env start auth w w') : Covered T start w' := by
  cases hstep with
  | outbox hstep => exact h.outbox hstep
  | write => exact setCredential hstart hT fun hever => hfresh (hstart.everKnown _ hever)
  | delete hheld =>
    refine vacuous_of_same (fun t ht hcurrent => hfresh ?_)
      w.sameDispatches_removeJournal.sameSuccession
    rw [← hcurrent.unique hheld.current]
    exact hstart.everKnown _ (hstart.ever_ticket hT ht)

end Covered

/-! ### Runs keep the guards -/

/-- The tickets of live processes are guarded, one for each source. -/
structure Sys.Guarded (s : Sys) : Prop where
  lineage : s.Lineage
  guards : ∀ t ∈ s.tickets, s.world.Guards t
  distinct : (s.tickets.map Ticket.source).Nodup
  live : ∀ t ∈ s.tickets, t.owner ∉ s.dead

/-- A retained successor that is stored already is projected only while the journal holds neither
a request of a live process for it nor a rotation of it. -/
def Sys.Unobstructed (s : Sys) : Label → Prop
  | .projectRetained index _ => ∀ r, s.retained[index]? = some r →
      s.world.Current r.successor.auth.revision →
      (∀ owner, owner ∉ s.dead → ¬ s.world.Requested r.successor.auth.revision owner) ∧
        ∀ successor, ¬ s.world.Rotated r.successor.auth.revision successor
  | _ => True

/-- The succession knows the tickets of a system. -/
lemma Sys.enrolled (s : Sys) : Enrolled s.tickets (s.retained.map Retained.link)
    (s.exchanges.map fun e => e.source.revision) := by
  constructor
  · intro t ht
    rcases List.mem_append.1 ht with ht | ht
    · obtain ⟨e, he, rfl⟩ := List.mem_map.1 ht
      exact .inl (List.mem_map.2 ⟨e, he, rfl⟩)
    · obtain ⟨r, hr, rfl⟩ := List.mem_map.1 ht
      exact .inr ⟨_, List.mem_map.2 ⟨r, hr, rfl⟩⟩
  · intro t ht successor hsuccessor
    rcases List.mem_append.1 ht with ht | ht
    · obtain ⟨e, he, rfl⟩ := List.mem_map.1 ht
      cases hsuccessor
    · obtain ⟨r, hr, rfl⟩ := List.mem_map.1 ht
      cases hsuccessor
      exact List.mem_map.2 ⟨r, hr, rfl⟩

lemma Enrolled.subset {T' : List Ticket} (h : Enrolled T links sources)
    (hsub : ∀ t ∈ T', t ∈ T) : Enrolled T' links sources :=
  ⟨fun t ht => h.source t (hsub t ht), fun t ht => h.link t (hsub t ht)⟩

/-- Sections of the succession and of the guards move together. -/
lemma covered_of_moves {R : World → World → Prop} (hlineage : Lineage links sources known start)
    (hguards : ∀ t ∈ T, start.Guards t) (hmoves : ReflTransGen R start w)
    (hkeeps : ∀ v v', Lineage links sources known v → R v v' → Lineage links sources known v')
    (hcovers : ∀ v v', Lineage links sources known v → Covered T start v → R v v' →
      Covered T start v') :
    Lineage links sources known w ∧ Covered T start w :=
  keeps_of_moves (I := fun v => Lineage links sources known v ∧ Covered T start v)
    ⟨hlineage, .begin hguards⟩ hmoves fun v v' h hstep =>
      ⟨hkeeps v v' h.1 hstep, hcovers v v' h.1 h.2 hstep⟩

/-- A probe that tells the truth finds the owners of the tickets alive. -/
lemma Sys.Guarded.alive {s : Sys} {l : Label} (h : s.Guarded) (htruthful : s.Truthful l)
    (henv : l.env? = some env) : ∀ t ∈ s.tickets, env.ownerAlive t.owner = true :=
  fun t ht => (htruthful env henv t.owner).2 (h.live t ht)

/-- A recovery keeps the guards of all tickets. -/
lemma Sys.Guarded.covered {s : Sys} {l : Label} (h : s.Guarded) (htruthful : s.Truthful l)
    (henv : l.env? = some env) (hmoves : ReflTransGen (RecoveryStep env s.world) s.world w) :
    Covered s.tickets s.world w :=
  (covered_of_moves h.lineage h.guards hmoves (fun _ _ h hstep => h.recoveryStep hstep)
    fun _ _ hlineage hcovered hstep =>
      hcovered.recoveryStep hlineage s.enrolled (h.alive htruthful henv) hstep).2

/-- The exchange that is committed, and the other tickets. -/
lemma Sys.tickets_perm {s : Sys} {index : Nat} {e : Exchange}
    (hget : s.exchanges[index]? = some e) :
    s.tickets.Perm (e.ticket :: ({ s with exchanges := s.exchanges.eraseIdx index } : Sys).tickets)
    := by
  obtain ⟨hlt, rfl⟩ := List.getElem?_eq_some_iff.1 hget
  have := ((List.getElem_cons_eraseIdx_perm hlt).map Exchange.ticket).append_right
    (s.retained.map Retained.ticket)
  exact this.symm

/-- The other tickets are about other sources. -/
lemma Sys.Guarded.erased {s : Sys} {index : Nat} {e : Exchange} (h : s.Guarded)
    (hget : s.exchanges[index]? = some e) :
    (e.source.revision ::
      ({ s with exchanges := s.exchanges.eraseIdx index } : Sys).tickets.map Ticket.source).Nodup :=
  ((Sys.tickets_perm hget).map Ticket.source).nodup_iff.1 h.distinct

lemma Sys.tickets_erased_sublist (s : Sys) (index : Nat) :
    ({ s with exchanges := s.exchanges.eraseIdx index } : Sys).tickets.Sublist s.tickets :=
  ((List.eraseIdx_sublist s.exchanges index).map _).append (List.Sublist.refl _)

/-- A commit keeps the guards of tickets about other sources, and of one that holds the rotation it
commits. -/
lemma Sys.Guarded.commits {s : Sys} {source : String} {allowed : TerminalState → Prop}
    (h : s.Guarded) (hsource : source ∈ s.exchanges.map fun e => e.source.revision)
    (hfresh : env.minted 0 ∉ s.known)
    (hallowed : ∀ t, allowed t → Names source (env.minted 0) t)
    (hmoves : ReflTransGen (CommitStep env s.world source allowed) s.world w)
    (hT : Enrolled T ((source, env.minted 0) :: s.retained.map Retained.link)
      (s.exchanges.map fun e => e.source.revision))
    (hguards : ∀ t ∈ T, s.world.Guards t)
    (hself : ∀ t ∈ T, t.source = source → ∀ state, allowed state →
      ∃ header successor, t.successor = some successor ∧
        state = .rotated source header successor) :
    Covered T s.world w := by
  refine (covered_of_moves (h.lineage.addLink (source, env.minted 0)
    (h.lineage.sourceEver _ hsource) hfresh) hguards hmoves (fun _ _ hlineage hstep =>
      hlineage.commitStep (fun t ht => ?_) hstep)
    fun _ _ hlineage hcovered hstep => hcovered.commitStep hlineage hT hself hstep).2
  obtain ⟨hsource, hsuccessor⟩ := hallowed t ht
  refine ⟨hsource, fun successor hsome => ?_⟩
  rw [hsuccessor successor hsome]
  exact List.mem_cons_self

/-- More rotations may be held. -/
lemma Enrolled.mono {links' : List (String × String)} (h : Enrolled T links sources)
    (hlinks : ∀ link ∈ links, link ∈ links') : Enrolled T links' sources :=
  ⟨fun t ht => (h.source t ht).imp id fun ⟨successor, hmem⟩ => ⟨successor, hlinks _ hmem⟩,
    fun t ht successor hsuccessor => hlinks _ (h.link t ht successor hsuccessor)⟩

/-- A system whose tickets are among those of a guarded one. -/
lemma Sys.Guarded.of_tickets {s s' : Sys} (hlineage : s'.Lineage)
    (hguards : ∀ t ∈ s'.tickets, s'.world.Guards t)
    (hsub : s'.tickets.Sublist s.tickets) (h : s.Guarded)
    (hdead : ∀ t ∈ s'.tickets, t.owner ∉ s'.dead) : s'.Guarded :=
  ⟨hlineage, hguards, h.distinct.sublist (hsub.map _), hdead⟩

lemma Sys.Initial.guarded {s : Sys} (h : s.Initial) : s.Guarded := by
  have htickets : s.tickets = [] := by rw [Sys.tickets, h.exchanges, h.retained]; rfl
  refine ⟨h.lineage, ?_, ?_, ?_⟩ <;> rw [htickets]
  · rintro _ ⟨⟩
  · exact List.nodup_nil
  · rintro _ ⟨⟩

lemma Sys.Guarded.kill {s : Sys} (h : s.Guarded) (owner : RefreshOwner) :
    (s.kill owner).Guarded := by
  have hsub : (s.kill owner).tickets.Sublist s.tickets :=
    (List.filter_sublist.map _).append (List.filter_sublist.map _)
  have howner : ∀ t ∈ (s.kill owner).tickets, t.owner ≠ owner := by
    intro t ht
    rcases List.mem_append.1 ht with ht | ht <;> obtain ⟨x, hx, rfl⟩ := List.mem_map.1 ht
    · exact of_decide_eq_true (List.mem_filter.1 hx).2
    · exact of_decide_eq_true (List.mem_filter.1 hx).2
  refine Sys.Guarded.of_tickets (h.lineage.kill owner) (fun t ht => h.guards t (hsub.subset ht))
    hsub h fun t ht hdead => ?_
  rcases List.mem_cons.1 hdead with heq | hdead
  · exact howner t ht heq
  · exact h.live t (hsub.subset ht) hdead

/-- A new exchange is the only ticket for its source. -/
lemma Sys.Guarded.dispatch {s t : Sys} {auth : StoredAuth} (h : s.Guarded)
    (hlive : env.owner ∉ s.dead) (hlineage : t.Lineage) (hcovered : Covered s.tickets s.world w)
    (hdispatched : w.Dispatched env s.world auth) (hworld : t.world = w)
    (hexchanges : t.exchanges = s.exchanges ++ [⟨env.owner, auth, none⟩])
    (hretained : t.retained = s.retained) (hdead : t.dead = s.dead) : t.Guarded := by
  obtain ⟨hheld, ⟨attempt, hjournal, howner⟩, dispatch, hdispatches, -⟩ := hdispatched
  have hnew : w.dispatches ≠ s.world.dispatches := by rw [hdispatches]; simp
  have hperm : t.tickets.Perm (⟨env.owner, auth.revision, none⟩ :: s.tickets) := by
    rw [Sys.tickets, hexchanges, hretained, List.map_append, List.append_assoc]
    exact List.perm_middle
  refine ⟨hlineage, fun ticket ht => ?_, ?_, fun ticket ht => ?_⟩
  · rw [hworld]
    rcases List.mem_cons.1 (hperm.mem_iff.1 ht) with rfl | ht
    · exact fun _ => .inl ⟨false, attempt, hjournal, howner⟩
    · exact hcovered.guards ticket ht
  · rw [(hperm.map Ticket.source).nodup_iff, List.map_cons, List.nodup_cons]
    refine ⟨fun hmem => ?_, h.distinct⟩
    obtain ⟨ticket, ht, hsource⟩ := List.mem_map.1 hmem
    exact hcovered.dispatched hnew ticket ht (hsource ▸ hheld.current)
  · rw [hdead]
    rcases List.mem_cons.1 (hperm.mem_iff.1 ht) with rfl | ht
    · exact hlive
    · exact h.live ticket ht

/-- A commit that hands over its successor turns the ticket of its exchange into one of the
successor. -/
lemma Sys.Guarded.kept {s : Sys} {index : Nat} {owner : RefreshOwner} {source : StoredAuth}
    {result : Option ExchangeResult} (h : s.Guarded)
    (hget : s.exchanges[index]? = some ⟨owner, source, result⟩)
    (hsource : source.revision ∈ s.exchanges.map fun e => e.source.revision)
    (hfresh : env.minted 0 ∉ s.known)
    (hmoves : ReflTransGen (CommitStep env s.world source.revision
      (Rotates source.revision (env.minted 0))) s.world w) :
    Covered (⟨owner, source.revision, some (env.minted 0)⟩ ::
      ({ s with exchanges := s.exchanges.eraseIdx index } : Sys).tickets) s.world w := by
  have hsub := s.tickets_erased_sublist index
  have hother := (List.nodup_cons.1 (h.erased hget)).1
  have henrolled := (s.enrolled.subset hsub.subset).mono
    fun _ hl => List.mem_cons_of_mem (source.revision, env.minted 0) hl
  refine h.commits hsource hfresh (fun _ => Rotates.names) hmoves ⟨?_, ?_⟩ ?_ ?_
  · intro t ht
    rcases List.mem_cons.1 ht with rfl | ht
    · exact .inl hsource
    · exact henrolled.source t ht
  · intro t ht successor hsuccessor
    rcases List.mem_cons.1 ht with rfl | ht
    · cases hsuccessor
      exact List.mem_cons_self
    · exact henrolled.link t ht successor hsuccessor
  · intro t ht
    rcases List.mem_cons.1 ht with rfl | ht
    · intro hcurrent
      have hmem : (⟨owner, source.revision, none⟩ : Ticket) ∈ s.tickets :=
        (Sys.tickets_perm hget).mem_iff.2 List.mem_cons_self
      rcases h.guards _ hmem hcurrent with hrequested | ⟨_, ⟨⟩, -⟩
      exact .inl hrequested
    · exact h.guards t (hsub.subset ht)
  · intro t ht hsame state hstate
    obtain ⟨header, rfl⟩ := hstate
    rcases List.mem_cons.1 ht with rfl | ht
    · exact ⟨header, _, rfl, rfl⟩
    · exact absurd (List.mem_map.2 ⟨t, ht, hsame⟩) hother

lemma Sys.tickets_kept_perm (s : Sys) (index : Nat) (retained : Retained) :
    (({ s with
      exchanges := s.exchanges.eraseIdx index
      retained := s.retained ++ [retained] } : Sys).tickets).Perm
      (retained.ticket :: ({ s with exchanges := s.exchanges.eraseIdx index } : Sys).tickets) := by
  simp only [Sys.tickets, List.map_append, List.map_cons, List.map_nil, ← List.append_assoc]
  exact List.perm_append_singleton _ _

/-- Projecting a retained successor keeps the guards, unless it is obstructed. -/
lemma Sys.Guarded.projects {s : Sys} {index : Nat} {owner : RefreshOwner}
    {retained : RetainedRefreshSuccessor} (h : s.Guarded)
    (hget : s.retained[index]? = some ⟨owner, retained⟩)
    (hclear : s.Unobstructed (.projectRetained index env))
    (hmoves : ReflTransGen (ProjectStep env s.world retained) s.world w) :
    Covered s.tickets s.world w := by
  have hmem : (⟨owner, retained⟩ : Retained).ticket ∈ s.tickets :=
    List.mem_append_right _ (List.mem_map_of_mem (List.mem_of_getElem? hget))
  have hlink := List.mem_map_of_mem (f := Retained.link) (List.mem_of_getElem? hget)
  refine (covered_of_moves h.lineage h.guards hmoves
    (fun _ _ hlineage hstep => hlineage.projectStep hlink hstep)
    fun _ _ hlineage hcovered hstep =>
      hcovered.projectStep hlineage s.enrolled ?_ ?_ hstep).2
  · intro t ht hsource
    rw [List.inj_on_of_nodup_map h.distinct ht hmem hsource]
    rfl
  · -- a ticket about the stored successor would be guarded by what obstructs the projection
    intro hstored t ht hcurrent
    obtain ⟨hrequested, hrotated⟩ := hclear _ hget hstored
    have hsource := hcurrent.unique hstored
    rcases h.guards t ht hcurrent with hguard | ⟨successor, -, hguard⟩
    · exact hrequested t.owner (h.live t ht) (hsource ▸ hguard)
    · exact hrotated successor (hsource ▸ hguard)

/-- Every step that is not obstructed keeps the tickets guarded. -/
lemma Sys.Guarded.step {codec : CookieCodec} {s s' : Sys} {l : Label} (h : s.Guarded)
    (htruthful : s.Truthful l) (hfresh : s.Fresh l) (hclear : s.Unobstructed l)
    (hstep : Sys.step codec s l = some s') : s'.Guarded := by
  obtain ⟨t, ht, hend⟩ := Sys.step_cases hstep
  have hlineage : t.Lineage := ht.lineage h.lineage hfresh
  suffices t.Guarded by
    rcases hend with rfl | ⟨owner, -, rfl⟩
    · exact this
    · exact this.kill owner
  cases ht with
  | prepared clock hlive hmoves | recovered clock hlive hmoves =>
    exact .of_tickets hlineage (h.covered htruthful rfl hmoves).guards (List.Sublist.refl s.tickets)
      h h.live
  | dispatched clock hlive hmoves hdispatched =>
    exact h.dispatch hlive hlineage (h.covered htruthful rfl hmoves) hdispatched rfl rfl rfl rfl
  | @returned index result owner source hget =>
    have htickets : Sys.tickets
        { s with exchanges := s.exchanges.set index ⟨owner, source, some result⟩ } =
        s.tickets := by
      dsimp only [Sys.tickets]
      rw [map_set_eq_map ⟨owner, source, some result⟩ hget rfl]
    refine .of_tickets hlineage ?_ ?_ h ?_ <;> rw [htickets]
    · exact h.guards
    · exact h.live
  | @committed index env w source result clock hget hlive hmoves =>
    have hsub := s.tickets_erased_sublist index
    have hmem := List.mem_map_of_mem (f := fun e : Exchange => e.source.revision)
      (List.mem_of_getElem? hget)
    have hother := (List.nodup_cons.1 (h.erased hget)).1
    have hcovered := h.commits hmem hfresh (fun _ => Outcomes.names) hmoves
      ((s.enrolled.subset hsub.subset).mono fun _ hl => List.mem_cons_of_mem _ hl)
      (fun t ht => h.guards t (hsub.subset ht)) fun t ht hsource =>
        absurd (List.mem_map.2 ⟨t, ht, hsource⟩) hother
    exact .of_tickets hlineage hcovered.guards hsub h fun t ht => h.live t (hsub.subset ht)
  | @kept index env w source result retained clock hget hlive hmoves hsource hsuccessor =>
    have hsub := s.tickets_erased_sublist index
    have hmem := List.mem_map_of_mem (f := fun e : Exchange => e.source.revision)
      (List.mem_of_getElem? hget)
    -- the ticket of the exchange becomes the ticket of its successor
    have hcovered := h.kept hget hmem hfresh hmoves
    have hperm := Sys.tickets_kept_perm s index ⟨env.owner, retained⟩
    rw [Retained.ticket, hsource, hsuccessor] at hperm
    refine ⟨hlineage, fun t ht => hcovered.guards t (hperm.mem_iff.1 ht),
      (hperm.map Ticket.source).nodup_iff.2 (h.erased hget), fun t ht => ?_⟩
    · rcases List.mem_cons.1 (hperm.mem_iff.1 ht) with rfl | ht
      · exact hlive
      · exact h.live t (hsub.subset ht)
  | imported clock hlive hmoves =>
    refine .of_tickets hlineage ?_ (List.Sublist.refl s.tickets) h h.live
    exact (keeps_of_moves (Covered.begin h.guards) hmoves fun _ _ hcovered hstep =>
      hcovered.importStep h.lineage s.enrolled hfresh hstep).guards
  | @projected index env w retained clock kept hget hlive hmoves hkept =>
    have hsub : (Sys.tickets { s with retained := kept }).Sublist s.tickets := by
      refine (List.Sublist.refl _).append (List.Sublist.map _ ?_)
      rcases hkept with rfl | rfl
      · exact List.Sublist.refl _
      · exact List.eraseIdx_sublist _ _
    have hcovered := h.projects hget hclear hmoves
    exact .of_tickets hlineage (fun t ht => hcovered.guards t (hsub.subset ht)) hsub h
      fun t ht => h.live t (hsub.subset ht)
  | crashed owner => exact h

/-! ### A request of a live process stays -/

/-- While the journal holds the request of a live process for the stored revision, a recovery only
moves the outbox. -/
lemma RecoveryStep.outbox_of_requested {revision : String} {owner : RefreshOwner}
    {start' : World} (hcurrent : w.Current revision) (hrequested : w.Requested revision owner)
    (halive : env.ownerAlive owner = true) (hstep : RecoveryStep env start' w w') :
    OutboxStep w w' := by
  obtain ⟨enqueued, attempt, hjournal, howner⟩ := hrequested
  have hno : ∀ state enqueued attempt, w.JournalHolds state enqueued attempt →
      state = .requested revision := fun _ _ _ h => (h.unique hjournal).1
  cases hstep with
  | outbox hstep => exact hstep
  | record hstep =>
    cases hstep with
    | outbox hstep => exact hstep
    | mark clock hpending => cases hno _ _ _ hpending
    | delete hmarked => cases hno _ _ _ hmarked
  | discard hheld hother hsource =>
    rw [hno _ _ _ hother] at hsource
    exact absurd (hcurrent.unique hheld.current) hsource
  | dropReserved _ hreserved => cases hno _ _ _ hreserved
  | abandon clock hheld hheld' hdead =>
    obtain ⟨-, rfl, -⟩ := hheld'.unique hjournal
    simp only [ownerIsAlive, howner] at hdead
    rw [hdead] at halive
    cases halive
  | project _ hrotated => cases hno _ _ _ hrotated
  | @reserve _ origin _ _ reading _ _ hawaits =>
    rcases origin with _ | ⟨reason, held⟩
    · obtain ⟨_, hfile, -⟩ := hjournal
      rw [show w.journal = none from hawaits] at hfile
      cases hfile
    · cases hno _ _ _ hawaits
  | request _ _ hreserved => cases hno _ _ _ hreserved
  | stop _ _ hunknown => cases hno _ _ _ hunknown

/-- A commit for another source only moves the outbox. -/
lemma CommitStep.outbox_of_requested {revision source : String} {owner : RefreshOwner}
    {allowed : TerminalState → Prop} {start' : World} (hcurrent : w.Current revision)
    (hrequested : w.Requested revision owner) (hother : source ≠ revision)
    (hstep : CommitStep env start' source allowed w w') : OutboxStep w w' := by
  obtain ⟨enqueued, attempt, hjournal, -⟩ := hrequested
  have hno : ∀ state enqueued attempt, w.JournalHolds state enqueued attempt →
      state = .requested revision := fun _ _ _ h => (h.unique hjournal).1
  cases hstep with
  | record _ hstep =>
    cases hstep with
    | outbox hstep => exact hstep
    | mark clock hpending => cases hno _ _ _ hpending
    | delete hmarked => cases hno _ _ _ hmarked
  | terminal clock _ hheld hsource =>
    exact absurd (hsource ▸ hheld.current.unique hcurrent) hother
  | project _ _ _ hrotated => cases hno _ _ _ hrotated

/-- A section that only moves the outbox while a request stands leaves the request. -/
lemma journal_of_outbox {R : World → World → Prop} {revision : String} {owner : RefreshOwner}
    (hcurrent : start.Current revision) (hrequested : start.Requested revision owner)
    (hmoves : ReflTransGen R start w)
    (honly : ∀ v v', v.Current revision → v.Requested revision owner → R v v' →
      OutboxStep v v') : w.journal = start.journal := by
  refine (keeps_of_moves (I := fun v => start.SameRotation v) (.refl _) hmoves
    fun v v' hsame hstep => hsame.trans (honly v v' ?_ ?_ hstep).sameRotation).journal
  · exact hsame.sameDispatches.sameSuccession.current.2 hcurrent
  · obtain ⟨enqueued, attempt, hjournal, howner⟩ := hrequested
    exact ⟨enqueued, attempt, hsame.journalHolds.2 hjournal, howner⟩

/-- A label that may replace a request: an import, or the commit of the exchange that its owner has
made for it. -/
def Sys.Entitled (s : Sys) (revision : String) (owner : RefreshOwner) : Label → Prop
  | .importCredential .. => True
  | .commit index _ => ∃ e, s.exchanges[index]? = some e ∧ e.ticket.owner = owner ∧
      e.ticket.source = revision
  | _ => False

/-- A retained successor is not projected while its source is stored and the journal holds the
request of a live process for it: its owner would replace the request that its commit has left. -/
def Sys.Unreplaced (s : Sys) : Label → Prop
  | .projectRetained index _ => ∀ r, s.retained[index]? = some r →
      s.world.Current r.ticket.source →
      ∀ owner, owner ∉ s.dead → ¬ s.world.Requested r.ticket.source owner
  | _ => True

/-- A request for the stored revision whose owner is alive is replaced only by those entitled. -/
lemma Sys.Guarded.request_stays {codec : CookieCodec} {s s' : Sys} {l : Label}
    {revision : String} {owner : RefreshOwner} (h : s.Guarded) (htruthful : s.Truthful l)
    (hclear : s.Unobstructed l) (hunreplaced : s.Unreplaced l)
    (hstep : Sys.step codec s l = some s')
    (hcurrent : s.world.Current revision) (hrequested : s.world.Requested revision owner)
    (hlive : owner ∉ s.dead) :
    s'.world.journal = s.world.journal ∨ s.Entitled revision owner l := by
  -- the owner of a ticket about this revision is the owner of the request
  have howner : ∀ t ∈ s.tickets, t.source = revision → t.owner = owner := by
    intro t ht hsource
    obtain ⟨_, attempt, hjournal, hattempt⟩ := hrequested
    rcases h.guards t ht (hsource ▸ hcurrent) with ⟨_, attempt', hjournal', hattempt'⟩ |
      ⟨_, _, _, _, _, hjournal'⟩
    · obtain ⟨-, rfl, -⟩ := hjournal.unique hjournal'
      exact Option.some.inj (hattempt'.symm.trans hattempt)
    · cases (hjournal.unique hjournal').1
  obtain ⟨t, ht, hend⟩ := Sys.step_cases hstep
  have hworld : s'.world = t.world := by rcases hend with rfl | ⟨_, -, rfl⟩ <;> rfl
  rw [hworld]
  have hrecovery : ∀ {env w}, l.env? = some env →
      ReflTransGen (RecoveryStep env s.world) s.world w → w.journal = s.world.journal :=
    fun henv hmoves => journal_of_outbox hcurrent hrequested hmoves
      fun _ _ hcurrent hrequested hstep => hstep.outbox_of_requested hcurrent hrequested
        ((htruthful _ henv owner).2 hlive)
  have hcommit : ∀ {env : Env} {allowed w} {e : Exchange}, e ∈ s.exchanges →
      ReflTransGen (CommitStep env s.world e.source.revision allowed) s.world w →
      w.journal = s.world.journal ∨ e.ticket.owner = owner ∧ e.ticket.source = revision := by
    intro env allowed w e he hmoves
    by_cases hsource : e.source.revision = revision
    · exact .inr ⟨howner e.ticket (List.mem_append_left _ (List.mem_map_of_mem he)) hsource,
        hsource⟩
    · exact .inl (journal_of_outbox hcurrent hrequested hmoves
        fun _ _ hcurrent hrequested hstep =>
          hstep.outbox_of_requested hcurrent hrequested hsource)
  cases ht with
  | prepared clock _ hmoves => exact .inl (hrecovery rfl hmoves)
  | dispatched clock _ hmoves => exact .inl (hrecovery rfl hmoves)
  | returned => exact .inl rfl
  | committed clock hget _ hmoves =>
    exact (hcommit (List.mem_of_getElem? hget) hmoves).imp id fun hown => ⟨_, hget, hown⟩
  | kept clock hget _ hmoves =>
    exact (hcommit (List.mem_of_getElem? hget) hmoves).imp id fun hown => ⟨_, hget, hown⟩
  | recovered clock _ hmoves => exact .inl (hrecovery rfl hmoves)
  | imported => exact .inr trivial
  | @projected index env w retained clock kept hget _ hmoves =>
    by_cases hsource : retained.sourceRevision = revision
    · subst hsource
      exact absurd hrequested (hunreplaced _ hget hcurrent owner hlive)
    · refine .inl (journal_of_outbox hcurrent hrequested hmoves
        fun v v' hcurrent' hrequested' hstep => ?_)
      cases hstep with
      | commit hstep => exact hstep.outbox_of_requested hcurrent' hrequested' hsource
      | already _ _ hstored =>
        obtain ⟨hobstructs, -⟩ := hclear _ hget hstored
        rw [World.Current.unique hstored hcurrent] at hobstructs
        exact absurd hrequested (hobstructs owner hlive)
  | crashed => exact .inl rfl

/-! ### Single exchange in flight -/

/-- The sources of the exchanges in flight. -/
def Sys.inFlight (s : Sys) : List String :=
  (s.exchanges.filter fun e => e.result.isNone).map fun e => e.source.revision

/-- A step under a truthful probe, with fresh revisions, that obstructs no other rotation. -/
structure Sys.Undisturbed (s : Sys) (l : Label) : Prop where
  truthful : s.Truthful l
  fresh : s.Fresh l
  clear : s.Unobstructed l

/-- An undisturbed step in which no owner projects what its commit has left. -/
structure Sys.Separate (s : Sys) (l : Label) : Prop extends s.Undisturbed l where
  unreplaced : s.Unreplaced l

lemma Sys.guarded_of_reachable {codec : CookieCodec} {s : Sys}
    (h : Reachable Sys.Initial (Sys.step codec) Sys.Undisturbed s) : s.Guarded :=
  h.invariant (fun _ h => h.guarded) fun _ _ _ h hok hstep =>
    h.step hok.truthful hok.fresh hok.clear hstep

/-- No two exchanges of one revision are in flight, and no admitted step replaces a request for
the stored revision whose owner is alive, unless it is entitled to. -/
def Sys.Exclusive (codec : CookieCodec) (ok : Sys → Label → Prop) (s : Sys) : Prop :=
  s.inFlight.Nodup ∧
    ∀ l s', ok s l → Sys.step codec s l = some s' → ∀ revision owner,
      s.world.Current revision → s.world.Requested revision owner → owner ∉ s.dead →
      s'.world.journal = s.world.journal ∨ s.Entitled revision owner l

/-- Every state of a run of separate steps is exclusive. -/
theorem exclusive_of_separate {codec : CookieCodec} {s : Sys}
    (h : Reachable Sys.Initial (Sys.step codec) Sys.Separate s) :
    s.Exclusive codec Sys.Separate := by
  have hguarded := Sys.guarded_of_reachable (h.mono fun _ _ hok => hok.toUndisturbed)
  refine ⟨?_, fun l s' hok hstep revision owner hcurrent hrequested hlive =>
    hguarded.request_stays hok.truthful hok.clear hok.unreplaced hstep hcurrent hrequested hlive⟩
  have hsources : s.inFlight.Sublist (s.tickets.map Ticket.source) := by
    rw [Sys.tickets, List.map_append, List.map_map]
    exact (List.filter_sublist.map _).trans (List.sublist_append_left _ _)
  exact hguarded.distinct.sublist hsources

/-- While the exchange of the first process is in flight a second one refreshes; the first one
commits, and then the second one dispatches the successor. -/
def handoverTrace : List Label :=
  [.refresh none (.calm (worker 1) launch "r1"), .refresh none (.calm (worker 2) launch "r2"),
    .exchangeReturns 0 (.response successResponse), .commit 0 (.calm (worker 1) launch "r1"),
    .refresh none (.calm (worker 2) launch "r2")]

theorem exclusive_of_separate_handover :
    ∃ s : Sys, s.inFlight = ["r1"] ∧ s.Exclusive plainCodec Sys.Separate := by
  obtain ⟨s, hreplay, hflight⟩ := Option.map_eq_some_iff.1
    (show (replay (Sys.step plainCodec) Sys.suits (Sys.installed firstAuth)
      handoverTrace).map Sys.inFlight = some ["r1"] by decide +kernel)
  have hcalm : ∀ l ∈ handoverTrace, l.Calm := by
    simp only [handoverTrace, List.forall_mem_cons]
    refine ⟨?_, ?_, ?_, ?_, ?_, by rintro _ ⟨⟩⟩ <;> rintro env henv <;> cases henv <;>
      exact ⟨fun _ => rfl, fun _ => rfl⟩
  -- no step of the run is the projection of a retained successor
  have hclear : ∀ l ∈ handoverTrace, ∀ s : Sys, s.Unobstructed l ∧ s.Unreplaced l := by
    simp only [handoverTrace, List.forall_mem_cons]
    exact ⟨fun _ => ⟨trivial, trivial⟩, fun _ => ⟨trivial, trivial⟩, fun _ => ⟨trivial, trivial⟩,
      fun _ => ⟨trivial, trivial⟩, fun _ => ⟨trivial, trivial⟩, nofun⟩
  refine ⟨s, hflight, exclusive_of_separate
    ⟨_, _, Sys.installed_initial firstAuth, .of_replay (fun l hl s hsuits => ?_) hreplay⟩⟩
  have hassumed : s.Assumed l := (hcalm l hl).assumed hsuits
  obtain ⟨hunobstructed, hunreplaced⟩ := hclear l hl s
  exact ⟨⟨hassumed.truthful, hassumed.fresh, hunobstructed⟩, hunreplaced⟩

/-- The first process stores its successor but fails to report it, the second one finds the
rotation and dispatches the successor, and then the first one projects the successor again. -/
def obstructingTrace : List Label :=
  [.refresh none (.calm (worker 1) launch "r1"),
    .exchangeReturns 0 (.response successResponse),
    .commit 0 ((Env.calm (worker 1) launch "r1").failing 28),
    .refresh none (.calm (worker 2) launch "r2"),
    .refresh none (.calm (worker 2) launch "r2"),
    .projectRetained 0 (.calm (worker 1) launch "r2"),
    .refresh none (.calm (worker 3) launch "r3")]

lemma obstructingTrace_calm : ∀ l ∈ obstructingTrace, l.Calm := by
  simp only [obstructingTrace, List.forall_mem_cons]
  refine ⟨?_, ?_, ?_, ?_, ?_, ?_, ?_, by rintro _ ⟨⟩⟩ <;> rintro env henv <;> cases henv <;>
    exact ⟨fun _ => rfl, fun _ => rfl⟩

/-- A run that meets all assumptions can have two exchanges of one revision in flight. -/
theorem not_exclusive_of_assumed :
    ¬ ∀ s, Reachable Sys.Initial (Sys.step plainCodec) Sys.Assumed s →
      s.Exclusive plainCodec Sys.Assumed := by
  intro h
  obtain ⟨s, hreplay, hflight⟩ := Option.map_eq_some_iff.1
    (show (replay (Sys.step plainCodec) Sys.suits (Sys.installed firstAuth)
      obstructingTrace).map Sys.inFlight = some ["r1", "r1"] by decide +kernel)
  have hnodup := (h s (reachable_of_replay (Sys.installed_initial firstAuth)
    obstructingTrace_calm hreplay)).1
  rw [hflight] at hnodup
  exact absurd hnodup (by decide)

end EnjiGuard.AuthSession
