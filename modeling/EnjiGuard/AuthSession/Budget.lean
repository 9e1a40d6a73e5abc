import EnjiGuard.AuthSession.Migration

/-!
# The dispatch budget over whole runs

What was dispatched for a revision is compared with the budget its journal record carries. The
record survives crashes, so the budget does, unless the record is dropped as a reservation that was
never sent, or a commit does not find it and starts a new one.
-/

namespace EnjiGuard.AuthSession

open Foundation Relation

variable {codec : CookieCodec} {env : Env} {start w w' : World} {revision : String}
variable {ds : List Dispatch} {d : Dispatch} {attempt attempt' : RotationAttempt}
variable {state : JournalState} {enqueued : Bool} {lane : RecoveryLane} {clock : Option Datetime}

/-! ### Dispatches and budgets -/

def sentFor (revision : String) (ds : List Dispatch) : List Dispatch :=
  ds.filter fun d => d.sourceRevision = revision

def inLane (lane : RecoveryLane) (ds : List Dispatch) : List Dispatch :=
  ds.filter fun d => d.attempt.attemptKind = .recovery lane

/-- A recovery dispatch is not sent before the time that was persisted for it, and is sent before
the deadline of the first dispatch. -/
structure Dispatch.Punctual (first d : Dispatch) : Prop where
  waited : ∀ text t, d.notBefore = some text → parseAware text = .ok (some t) →
    ∃ now, d.clock = some now ∧ t ≤ now
  early : ∃ now text t, d.clock = some now ∧ first.attempt.recoveryDeadline = some text ∧
    parseAware text = .ok (some t) ∧ now < t

/-- The dispatches of one revision keep to the policy; `ds` are all that were authorized. -/
structure WithinBudget (ds sent : List Dispatch) : Prop where
  total : (sent.length : Int) ≤ totalDispatchCap
  lanes : ∀ lane, ((inLane lane sent).length : Int) ≤ lane.limit
  punctual : ∀ d ∈ sent, ∀ lane, d.attempt.attemptKind = .recovery lane →
    ∃ first, ds.head? = some first ∧ first.Punctual d

/-- The budget of an attempt has counted these dispatches, and has their deadline. -/
structure Covers (ds : List Dispatch) (attempt : RotationAttempt) : Prop where
  total : (ds.length : Int) ≤ attempt.dispatchCount
  lanes : ∀ lane, ((inLane lane ds).length : Int) ≤ attempt.laneCount lane
  timed : attempt.recoveryDeadline.getD "" ≠ ""
  deadline : ∀ first, ds.head? = some first →
    attempt.recoveryDeadline = first.attempt.recoveryDeadline

/-- The dispatch that a reservation has counted already. -/
def pending (state : JournalState) (attempt : RotationAttempt) : List Dispatch :=
  match state with
  | .reserved source => [⟨source, attempt, none, none⟩]
  | _ => []

lemma inLane_append (lane : RecoveryLane) (ds ds' : List Dispatch) :
    inLane lane (ds ++ ds') = inLane lane ds ++ inLane lane ds' :=
  List.filter_append ds ds'

lemma pending_requested (source : String) (attempt : RotationAttempt) :
    pending (.requested source) attempt = [] := rfl

lemma pending_terminal (t : TerminalState) (attempt : RotationAttempt) :
    pending (.terminal t) attempt = [] := rfl

/-- One dispatch more, when its attempt covers all of them and is within the policy. -/
lemma WithinBudget.add (h : WithinBudget ds ds) (hcovers : Covers (ds ++ [d]) attempt)
    (hattempt : d.attempt = attempt) (hcap : attempt.dispatchCount ≤ totalDispatchCap)
    (hlimits : ∀ lane, attempt.attemptKind = .recovery lane → attempt.laneCount lane ≤ lane.limit)
    (hpunctual : ∀ lane, attempt.attemptKind = .recovery lane → ∀ first,
      (ds ++ [d]).head? = some first → first.Punctual d) :
    WithinBudget (ds ++ [d]) (ds ++ [d]) := by
  subst hattempt
  constructor
  · exact Int.le_trans hcovers.total hcap
  · intro lane
    by_cases hkind : d.attempt.attemptKind = .recovery lane
    · exact Int.le_trans (hcovers.lanes lane) (hlimits lane hkind)
    · rw [inLane_append]
      simpa [inLane, hkind] using h.lanes lane
  · intro other hother lane hkind
    obtain ⟨first, hfirst⟩ : ∃ first, (ds ++ [d]).head? = some first :=
      ⟨_, List.head?_eq_some_head (List.append_ne_nil_of_right_ne_nil ds (List.cons_ne_nil d []))⟩
    refine ⟨first, hfirst, ?_⟩
    obtain hmem | hmem := List.mem_append.1 hother
    · obtain ⟨first', hfirst', hgood⟩ := h.punctual other hmem lane hkind
      rw [List.head?_append, hfirst'] at hfirst
      obtain rfl := Option.some.inj hfirst
      exact hgood
    · obtain rfl := List.mem_singleton.1 hmem
      exact hpunctual lane hkind first hfirst

lemma sentFor_append (revision : String) (ds ds' : List Dispatch) :
    sentFor revision (ds ++ ds') = sentFor revision ds ++ sentFor revision ds' :=
  List.filter_append ds ds'

namespace Covers

/-- An attempt with the same counts and deadline covers the same dispatches. -/
lemma congr (h : Covers ds attempt) (hcount : attempt'.dispatchCount = attempt.dispatchCount)
    (hlanes : ∀ lane, attempt'.laneCount lane = attempt.laneCount lane)
    (hdeadline : attempt'.recoveryDeadline = attempt.recoveryDeadline) : Covers ds attempt' where
  total := hcount ▸ h.total
  lanes lane := hlanes lane ▸ h.lanes lane
  timed := hdeadline ▸ h.timed
  deadline first hfirst := hdeadline.trans (h.deadline first hfirst)

lemma left {ds' : List Dispatch} (h : Covers (ds ++ ds') attempt) : Covers ds attempt := by
  constructor
  case total =>
    have htotal := h.total
    rw [List.length_append] at htotal
    omega
  case lanes =>
    intro lane
    have hlane := h.lanes lane
    rw [inLane_append, List.length_append] at hlane
    omega
  case timed => exact h.timed
  case deadline =>
    intro first hfirst
    apply h.deadline
    rw [List.head?_append, hfirst]
    rfl

/-- The attempt that dispatches once more covers that dispatch too. -/
lemma advance (h : Covers ds attempt) (owner : RefreshOwner) (source : String)
    (notBefore : Option String) (clock : Option Datetime) :
    Covers (ds ++ [⟨source, ownedAttempt (attempt.advance lane) owner, notBefore, clock⟩])
      (ownedAttempt (attempt.advance lane) owner) := by
  constructor
  case total =>
    have htotal := h.total
    rw [List.length_append]
    simp only [ownedAttempt, RotationAttempt.advance, List.length_singleton]
    omega
  case lanes =>
    intro other
    have hlane := h.lanes other
    rw [inLane_append, List.length_append]
    cases lane <;> cases other <;>
      simp_all [inLane, ownedAttempt, RotationAttempt.advance, RotationAttempt.laneCount]
  case timed => exact h.timed
  case deadline =>
    intro first hfirst
    rw [List.head?_append] at hfirst
    rcases hds : ds.head? with _ | d
    · rw [hds] at hfirst
      obtain rfl := Option.some.inj hfirst
      rfl
    · rw [hds] at hfirst
      obtain rfl := Option.some.inj hfirst
      exact h.deadline d hds

/-- Scheduling or stopping a continuation changes neither the counts nor the deadline. -/
lemma withContinuation {fresh : String} {now : Datetime} (h : Covers ds attempt)
    (hcontinued : AuthSession.withContinuation attempt lane fresh now = .ok attempt') :
    Covers ds attempt' := by
  obtain ⟨hsame, -, hdeadline, -⟩ := withContinuation_spec hcontinued
  refine h.congr hsame.dispatchCount (fun other => ?_) (hdeadline h.timed)
  cases other
  · exact hsame.safeRetryCount
  · exact hsame.validationRetryCount
  · exact hsame.ambiguityReplayCount

/-- The attempt a terminal state is committed with covers what the one that was looked up does. -/
lemma committed {t : TerminalState} (h : Covers ds attempt) (ht : Committed attempt t attempt') :
    Covers ds attempt' := by
  cases ht with
  | rotated => exact h.congr rfl (fun _ => rfl) rfl
  | rejected => exact h.congr rfl (fun _ => rfl) rfl
  | unknown _ _ _ hcontinued =>
    exact (h.withContinuation hcontinued).congr rfl (fun _ => rfl) rfl

/-- What counts of a dispatch is its attempt. -/
lemma ofSameAttempt {d' : Dispatch} (h : Covers (ds ++ [d]) attempt)
    (hsame : d'.attempt = d.attempt) : Covers (ds ++ [d']) attempt := by
  have hlane : ∀ lane, (inLane lane [d']).length = (inLane lane [d]).length := by
    intro lane
    simp only [inLane, List.filter_cons, List.filter_nil, hsame]
    split <;> rfl
  constructor
  case total =>
    have htotal := h.total
    rw [List.length_append] at htotal ⊢
    exact htotal
  case lanes =>
    intro lane
    have hcount := h.lanes lane
    rw [inLane_append, List.length_append] at hcount ⊢
    rwa [hlane]
  case timed => exact h.timed
  case deadline =>
    intro first hfirst
    rw [List.head?_append] at hfirst
    rcases hds : ds.head? with _ | first'
    · rw [hds] at hfirst
      obtain rfl := Option.some.inj hfirst
      rw [hsame]
      apply h.deadline
      rw [List.head?_append, hds]
      rfl
    · rw [hds] at hfirst
      obtain rfl := Option.some.inj hfirst
      exact h.left.deadline first' hds

end Covers

/-- The first attempt covers its own dispatch. -/
lemma covers_first (revision deadline : String) (owner : RefreshOwner) (hdeadline : deadline ≠ "") :
    Covers (pending (.reserved revision) (ownedAttempt (firstAttempt revision deadline) owner))
      (ownedAttempt (firstAttempt revision deadline) owner) := by
  constructor
  case total => simp [pending, ownedAttempt, firstAttempt]
  case lanes =>
    intro lane
    cases lane <;> simp [inLane, pending, ownedAttempt, firstAttempt, RotationAttempt.laneCount]
  case timed => exact hdeadline
  case deadline =>
    intro first hfirst
    obtain rfl := Option.some.inj hfirst
    rfl

lemma isoformatAfter_ne_empty {now : Datetime} {span : Timedelta} {text : String}
    (h : isoformatAfter now span = .ok text) : text ≠ "" := by
  rw [isoformatAfter] at h
  split at h
  · obtain rfl := Except.ok.inj h
    exact isoformat_ne_empty _
  · cases h

/-! ### Clock readings -/

/-- A deadline that has not passed is one that is read, and is later. -/
lemma exists_of_deadlinePassed {deadline : Option String} {now : Datetime}
    (h : deadlinePassed deadline now = .ok false) :
    ∃ text t, deadline = some text ∧ parseAware text = .ok (some t) ∧ now < t := by
  cases deadline with
  | none => cases h
  | some text =>
    rw [deadlinePassed, parseDeadline] at h
    rcases hparsed : parseAware text with e | _ | t <;> rw [hparsed] at h
    · cases h
    · cases h
    · simp only [Except.map, Except.ok.injEq, decide_eq_false_iff_not, Datetime.not_le] at h
      exact ⟨text, t, rfl, hparsed, h⟩

/-- A time that is not waited for any more has come. -/
lemma le_of_secondsUntil {text : String} {t now : Datetime} {left : Timedelta}
    (h : secondsUntil (some text) now = .ok left) (hleft : left ≤ 0)
    (hparsed : parseAware text = .ok (some t)) : t ≤ now := by
  simp only [secondsUntil, parseDeadline, hparsed, Except.map, Except.ok.injEq] at h
  have hmax : max (0 : Int) ((t.micros : Int) - now.micros) ≤ 0 := by
    rw [← h] at hleft
    exact hleft
  rw [Datetime.le_def]
  omega

/-- A deadline passes between two readings of the clock that follow each other. -/
def Straddles (env : Env) (attempt : RotationAttempt) (reading : Nat) : Prop :=
  deadlinePassed attempt.recoveryDeadline (env.now reading) = .ok false ∧
    deadlinePassed attempt.recoveryDeadline (env.now (reading + 1)) ≠ .ok false

/-- A reservation of the revision is for its first dispatch. -/
def World.Unspent (revision : String) (w : World) : Prop :=
  ∀ enqueued attempt, w.JournalHolds (.reserved revision) enqueued attempt →
    attempt.dispatchCount ≤ 1

/-- The deadline does not pass while a preparation looks at the clock for the last time. -/
structure World.Punctual (env : Env) (revision : String) (w : World) : Prop where
  unknown : ∀ reason enqueued attempt,
    w.JournalHolds (.terminal (.outcomeUnknown revision reason)) enqueued attempt →
      ¬ Straddles env attempt 2
  requested : ∀ enqueued attempt, w.JournalHolds (.requested revision) enqueued attempt →
    ¬ Straddles env attempt 4

/-- The record of a source in the journal is there and is read. -/
def World.HasRecord (env : Env) (source : String) (w : World) : Prop :=
  env.readFault .journal 0 = none ∧ ∃ state enqueued attempt migrated,
    journalOf w.journal = .ok (.loaded state enqueued attempt migrated) ∧
      state.sourceRevision = source

/-! ### The files keep the budget -/

/-- The journal record of a revision covers what was dispatched for it, and is there while the
revision is stored and something was. -/
structure World.Budgeted (revision : String) (w : World) : Prop where
  within : WithinBudget (sentFor revision w.dispatches) (sentFor revision w.dispatches)
  covered : ∀ state enqueued attempt, w.JournalHolds state enqueued attempt →
    state.sourceRevision = revision →
      Covers (sentFor revision w.dispatches ++ pending state attempt) attempt
  kept : sentFor revision w.dispatches ≠ [] → w.Current revision →
    ∃ state enqueued attempt, w.JournalHolds state enqueued attempt ∧
      state.sourceRevision = revision
  stored : sentFor revision w.dispatches ≠ [] → w.Ever revision

namespace World.Budgeted

/-- The record of a stored revision that something was dispatched for is the one in the journal. -/
lemma source_eq (h : w.Budgeted revision) (hsent : sentFor revision w.dispatches ≠ [])
    (hstored : w.Current revision) (hjournal : w.JournalHolds state enqueued attempt) :
    state.sourceRevision = revision := by
  obtain ⟨state', enqueued', attempt', hjournal', hsource⟩ := h.kept hsent hstored
  rw [(hjournal.unique hjournal').1]
  exact hsource

lemma sameRotation (h : w.Budgeted revision) (hsame : w.SameRotation w') :
    w'.Budgeted revision := by
  have hcurrent : w'.Current revision ↔ w.Current revision :=
    hsame.sameDispatches.sameSuccession.current
  have hever : w'.Ever revision ↔ w.Ever revision := hsame.sameDispatches.sameSuccession.ever
  constructor
  case within =>
    rw [hsame.dispatches]
    exact h.within
  case covered =>
    intro state enqueued attempt hjournal
    rw [hsame.dispatches]
    exact h.covered _ _ _ (hsame.journalHolds.1 hjournal)
  case kept =>
    rw [hsame.dispatches, hcurrent]
    intro hsent hstored
    obtain ⟨state, enqueued, attempt, hjournal, hsource⟩ := h.kept hsent hstored
    exact ⟨state, enqueued, attempt, hsame.journalHolds.2 hjournal, hsource⟩
  case stored =>
    rw [hsame.dispatches, hever]
    exact h.stored

/-- A journal is removed only when nothing was dispatched for the stored revision. -/
lemma removeJournal (h : w.Budgeted revision)
    (hnone : w.Current revision → sentFor revision w.dispatches = []) :
    w.removeJournal.Budgeted revision := by
  have hcurrent : w.removeJournal.Current revision ↔ w.Current revision :=
    w.sameDispatches_removeJournal.sameSuccession.current
  constructor
  case within => exact h.within
  case covered => rintro _ _ _ ⟨_, ⟨⟩, _⟩
  case kept =>
    rw [hcurrent]
    exact fun hsent hstored => absurd (hnone hstored) hsent
  case stored =>
    exact fun hsent => w.sameDispatches_removeJournal.sameSuccession.ever.2 (h.stored hsent)

/-- A record is replaced by one that covers the same dispatches. -/
lemma setJournal (h : w.Budgeted revision) (hrequested : ∀ source, state ≠ .requested source)
    (hcovers : state.sourceRevision = revision →
      Covers (sentFor revision w.dispatches ++ pending state attempt) attempt)
    (hkept : sentFor revision w.dispatches ≠ [] → w.Current revision →
      state.sourceRevision = revision) :
    (w.setJournal state enqueued attempt clock).Budgeted revision := by
  have hnew := w.journalHolds_setJournal state enqueued attempt clock
  have hsame := w.sameSuccession_setJournal state enqueued attempt clock
  have hdispatches : (w.setJournal state enqueued attempt clock).dispatches = w.dispatches := by
    cases state with
    | requested source => exact absurd rfl (hrequested source)
    | _ => rfl
  constructor
  case within =>
    rw [hdispatches]
    exact h.within
  case covered =>
    intro state' enqueued' attempt' hjournal
    obtain ⟨rfl, rfl, -⟩ := hjournal.unique hnew
    rw [hdispatches]
    exact hcovers
  case kept =>
    rw [hdispatches, hsame.current]
    exact fun hsent hstored => ⟨state, enqueued, attempt, hnew, hkept hsent hstored⟩
  case stored =>
    rw [hdispatches, hsame.ever]
    exact h.stored

/-- A revision is stored for which nothing was dispatched. -/
lemma setCredential {auth : StoredAuth} {cause : WriteCause} (h : w.Budgeted revision)
    (hnone : auth.revision = revision → sentFor revision w.dispatches = []) :
    (w.setCredential auth cause).Budgeted revision := by
  constructor
  case within => exact h.within
  case covered => exact h.covered
  case kept =>
    intro hsent hstored
    exact absurd (hnone (World.current_setCredential.1 hstored).symm) hsent
  case stored => exact fun hsent => World.ever_setCredential.2 (.inr (h.stored hsent))

variable {links : List (String × String)} {sources known : List String}

/-- A revision that something was dispatched for is not stored again. -/
lemma sent_eq_nil (h : w.Budgeted revision) (hlineage : Lineage links sources known w)
    {source header : String} (hstored : w.Current source)
    (hjournal : w.JournalHolds (.terminal (.rotated source header revision)) enqueued attempt) :
    sentFor revision w.dispatches = [] := by
  by_contra hsent
  exact (hlineage.journalLink _ _ _ _ _ hjournal).2 hstored (h.stored hsent)

lemma recordStep {t : TerminalState} (h : w.Budgeted revision)
    (hlineage : Lineage links sources known w)
    (hstep : RecordStep t attempt (World.Pending t attempt) w w') : w'.Budgeted revision := by
  cases hstep with
  | outbox hstep => exact h.sameRotation hstep.sameRotation
  | mark clock hpending =>
    refine h.setJournal (by simp) (h.covered _ _ _ hpending) ?_
    exact fun hsent hstored => h.source_eq hsent hstored hpending
  | delete hjournal hprojected hrotated =>
    refine h.removeJournal fun hstored => ?_
    by_contra hsent
    have hsource := h.source_eq hsent hstored hjournal
    cases t with
    | rotated source header successor =>
      obtain rfl : source = revision := hsource
      obtain ⟨auth, hheld, hsuccessor⟩ := hprojected successor rfl
      obtain rfl := hstored.unique ⟨auth, hheld, hsuccessor⟩
      exact hsent (h.sent_eq_nil hlineage hstored hjournal)
    | _ => cases hrotated

/-- The deadline of an authorized recovery dispatch is still open at the last look at the clock. -/
lemma early_of_authorised (hstart : start.Budgeted revision)
    (hpunctual : start.Punctual env revision) {reason : String} {held : RotationAttempt}
    {clock : Datetime}
    (h : Authorised env start revision (some (reason, held)) attempt clock) :
    deadlinePassed attempt.recoveryDeadline clock = .ok false := by
  cases h with
  | recovery hfound hnext hkind hwaited hleft hopen =>
    obtain ⟨lane, -, -, -, rfl⟩ := nextRecoveryAttemptAt_eq_some hnext
    by_contra hpassed
    cases hfound with
    | unknown hjournal => exact hpunctual.unknown _ _ _ hjournal ⟨hopen, hpassed⟩
    | requested hjournal hdead hdeadline hattempt =>
      -- the attempt that was abandoned keeps its deadline
      have htimed := (hstart.covered _ _ _ hjournal rfl).timed
      have hsame := (withContinuation_spec hattempt).2.2.1 htimed
      refine hpunctual.requested _ _ hjournal ⟨?_, ?_⟩
      · rw [← hsame]
        exact hopen
      · rw [← hsame]
        exact hpassed

/-- An authorized dispatch is within the cap, and within the limit of its lane. -/
lemma bounds_of_authorised {origin : Option (String × RotationAttempt)} {clock : Datetime}
    (h : Authorised env start revision origin attempt clock) :
    attempt.dispatchCount ≤ totalDispatchCap ∧ ∀ lane, attempt.attemptKind = .recovery lane →
      attempt.laneCount lane ≤ lane.limit ∧ ∃ found, origin = some found := by
  cases h with
  | normal =>
    refine ⟨?_, by rintro lane ⟨⟩⟩
    simp [firstAttempt, totalDispatchCap]
  | @recovery reason held next offset lane left left' hfound hnext hkind hwaited hleft hopen
      hcooled hleft' hauthorized =>
    obtain ⟨hcap, -, -, hlimit, -⟩ := dispatchCount_le_of_authorized hauthorized
    refine ⟨hcap, fun other hother => ?_⟩
    obtain rfl : lane = other := by
      rw [hkind] at hother
      cases hother
      rfl
    refine ⟨?_, _, rfl⟩
    cases lane <;> exact hlimit

/-- An authorized recovery dispatch has waited for its time. -/
lemma waited_of_authorised {reason text : String} {held : RotationAttempt} {clock t : Datetime}
    (h : Authorised env start revision (some (reason, held)) attempt clock)
    (htext : held.nextAttemptAt = some text) (hparsed : parseAware text = .ok (some t)) :
    t ≤ clock := by
  cases h with
  | recovery hfound hnext hkind hwaited hleft hopen hcooled hleft' =>
    obtain ⟨lane, -, -, -, rfl⟩ := nextRecoveryAttemptAt_eq_some hnext
    rw [show (held.advance lane).nextAttemptAt = some text from htext] at hcooled
    exact le_of_secondsUntil hcooled hleft' hparsed

/-- A dispatch keeps to the budget it was reserved with. -/
lemma request (h : w.Budgeted revision) (hstart : start.Budgeted revision)
    (hpunctual : start.Punctual env revision) {current : StoredAuth}
    {origin : Option (String × RotationAttempt)} {clock : Datetime} (hheld : w.Holds current)
    (hauthorised : Authorised env start current.revision origin attempt clock)
    (hjournal : w.JournalHolds (.reserved current.revision) false (ownedAttempt attempt env.owner))
    (hschedule : ∀ text, w.schedule = some text →
      ∃ reason held, origin = some (reason, held) ∧ held.nextAttemptAt = some text) :
    (w.setJournal (.requested current.revision) false (ownedAttempt attempt env.owner)
      (some clock)).Budgeted revision := by
  let sent : Dispatch :=
    ⟨current.revision, ownedAttempt attempt env.owner, w.schedule, some clock⟩
  have hnew := w.journalHolds_setJournal (.requested current.revision) false
    (ownedAttempt attempt env.owner) (some clock)
  have hsame := w.sameSuccession_setJournal (.requested current.revision) false
    (ownedAttempt attempt env.owner) (some clock)
  have hdispatches : (w.setJournal (.requested current.revision) false
      (ownedAttempt attempt env.owner) (some clock)).dispatches = w.dispatches ++ [sent] := rfl
  by_cases hrevision : current.revision = revision
  · subst hrevision
    have hsent : sentFor current.revision (w.dispatches ++ [sent]) =
        sentFor current.revision w.dispatches ++ [sent] := by
      rw [sentFor_append]
      simp [sentFor, sent]
    have hcovers : Covers (sentFor current.revision w.dispatches ++ [sent])
        (ownedAttempt attempt env.owner) := (h.covered _ _ _ hjournal rfl).ofSameAttempt rfl
    constructor
    · obtain ⟨hcap, hlimits⟩ := bounds_of_authorised hauthorised
      rw [hdispatches, hsent]
      refine h.within.add hcovers rfl hcap (fun lane hkind => (hlimits lane hkind).1) ?_
      intro lane hkind first hfirst
      obtain ⟨-, ⟨reason, held⟩, rfl⟩ := hlimits lane hkind
      constructor
      · intro text t htext hparsed
        obtain ⟨_, _, ⟨⟩, hnext⟩ := hschedule text htext
        exact ⟨clock, rfl, waited_of_authorised hauthorised hnext hparsed⟩
      · obtain ⟨text, t, hdeadline, hparsed, hlt⟩ :=
          exists_of_deadlinePassed (early_of_authorised hstart hpunctual hauthorised)
        refine ⟨clock, text, t, rfl, ?_, hparsed, hlt⟩
        rw [← hcovers.deadline first hfirst]
        exact hdeadline
    · intro state' enqueued' attempt' hjournal' hsource
      obtain ⟨rfl, rfl, -⟩ := hjournal'.unique hnew
      rw [hdispatches, hsent, pending_requested, List.append_nil]
      exact hcovers
    · exact fun _ _ => ⟨_, _, _, hnew, rfl⟩
    · exact fun _ => hsame.ever.2 hheld.current.ever
  · have hsent : sentFor revision (w.dispatches ++ [sent]) = sentFor revision w.dispatches := by
      rw [sentFor_append]
      simp [sentFor, sent, hrevision]
    constructor
    · rw [hdispatches, hsent]
      exact h.within
    · intro state' enqueued' attempt' hjournal' hsource
      obtain ⟨rfl, rfl, -⟩ := hjournal'.unique hnew
      exact absurd hsource hrevision
    · rw [hsame.current]
      exact fun _ hstored => absurd (hheld.current.unique hstored) hrevision
    · rw [hdispatches, hsent, hsame.ever]
      exact h.stored

/-- A reservation covers what was dispatched, and the dispatch it is for. -/
lemma reserve (h : w.Budgeted revision) {origin : Option (String × RotationAttempt)}
    {clock : Datetime} (hstored : w.Current revision)
    (hauthorised : Authorised env start revision origin attempt clock)
    (hawaits : w.Awaits revision origin) :
    Covers (sentFor revision w.dispatches ++
      pending (.reserved revision) (ownedAttempt attempt env.owner))
        (ownedAttempt attempt env.owner) := by
  cases hauthorised with
  | @normal deadline hdeadline =>
    have hnone : sentFor revision w.dispatches = [] := by
      by_contra hsent
      obtain ⟨_, _, _, ⟨payload, hfile, -⟩, -⟩ := h.kept hsent hstored
      rw [show w.journal = none from hawaits] at hfile
      cases hfile
    rw [hnone, List.nil_append]
    exact covers_first revision deadline env.owner (isoformatAfter_ne_empty hdeadline)
  | recovery hfound hnext =>
    obtain ⟨lane, -, -, -, rfl⟩ := nextRecoveryAttemptAt_eq_some hnext
    have hcovers := h.covered _ _ _ hawaits rfl
    rw [pending_terminal, List.append_nil] at hcovers
    exact hcovers.advance env.owner revision none none

variable {links : List (String × String)} {sources known : List String}

/-- The attempt that a commit finds covers what was dispatched. -/
lemma covers_of_lookedUp (h : w.Budgeted revision) (hjournal : w.journal = start.journal)
    (hrecord : start.HasRecord env revision) (hlooked : LookedUp env start revision attempt) :
    Covers (sentFor revision w.dispatches) attempt := by
  cases hlooked with
  | found hload hsource =>
    rw [← hjournal] at hload
    exact (h.covered _ _ _ (World.journalHolds_of_journalOf hload) hsource).left
  | fallback hnone =>
    obtain ⟨hread, state, enqueued, attempt, migrated, hload, hsource⟩ := hrecord
    exact absurd hsource (hnone state enqueued attempt migrated hread hload)

/-- A reconciliation keeps the budget. -/
lemma reconcileStep (hreserved : start.Unspent revision) (h : w.Budgeted revision)
    (hlineage : Lineage links sources known w) (hstep : ReconcileStep env start w w') :
    w'.Budgeted revision := by
  cases hstep with
  | outbox hstep => exact h.sameRotation hstep.sameRotation
  | record hstep => exact h.recordStep hlineage hstep
  | discard hheld hjournal hother =>
    refine h.removeJournal fun hstored => ?_
    by_contra hsent
    exact hother ((h.source_eq hsent hstored hjournal).trans (hstored.unique hheld.current))
  | dropReserved hheld hjournal hstart =>
    -- a reservation that was counted once covers no dispatch that was sent
    refine h.removeJournal fun hstored => ?_
    obtain rfl := hstored.unique hheld.current
    have htotal := (h.covered _ _ _ hjournal rfl).total
    have hcount := hreserved _ _ hstart
    rw [List.length_append] at htotal
    simp only [pending, List.length_singleton] at htotal
    exact List.length_eq_zero_iff.1 (by omega)
  | abandon clock hheld hjournal hdead hattempt =>
    refine h.setJournal (by simp) ?_ fun _ hstored => hheld.current.unique hstored
    intro hsource
    have hcovers := h.covered _ _ _ hjournal hsource
    rw [pending_requested, List.append_nil] at hcovers
    rw [pending_terminal, List.append_nil]
    exact hcovers.withContinuation hattempt
  | project hheld hjournal hsuccessor =>
    refine h.setCredential fun hrevision => ?_
    rw [hsuccessor] at hrevision
    subst hrevision
    exact h.sent_eq_nil hlineage hheld.current hjournal

/-- A recovery keeps the budget. -/
lemma recoveryStep (hstart : start.Budgeted revision) (hreserved : start.Unspent revision)
    (hpunctual : start.Punctual env revision) (h : w.Budgeted revision)
    (hlineage : Lineage links sources known w) (hstep : RecoveryStep env start w w') :
    w'.Budgeted revision := by
  cases hstep with
  | outbox hstep => exact h.sameRotation hstep.sameRotation
  | record hstep => exact h.recordStep hlineage hstep
  | discard hheld hjournal hother hsafe =>
    have hsame : ReconcileStep env start w _ := .discard hheld hjournal hother hsafe
    exact h.reconcileStep hreserved hlineage hsame
  | dropReserved hheld hjournal hstart =>
    have hsame : ReconcileStep env start w _ := .dropReserved hheld hjournal hstart
    exact h.reconcileStep hreserved hlineage hsame
  | abandon clock hheld hjournal hdead hattempt =>
    exact h.reconcileStep hreserved hlineage (.abandon clock hheld hjournal hdead hattempt)
  | project hheld hjournal hrevision hcookie =>
    have hsame : ReconcileStep env start w _ := .project hheld hjournal hrevision hcookie
    exact h.reconcileStep hreserved hlineage hsame
  | reserve reading hheld hauthorised hawaits =>
    refine h.setJournal (by simp) ?_ fun _ hstored => hheld.current.unique hstored
    rintro rfl
    exact h.reserve hheld.current hauthorised hawaits
  | request hheld hauthorised hjournal hschedule =>
    exact h.request hstart hpunctual hheld hauthorised hjournal hschedule
  | stop clock hheld hjournal =>
    refine h.setJournal (by simp) ?_ fun _ hstored => hheld.current.unique hstored
    exact fun hsource => (h.covered _ _ _ hjournal hsource).congr rfl (fun _ => rfl) rfl

/-- A commit that finds the record of its source keeps the budget. -/
lemma commitStep {source : String} {allowed : TerminalState → Prop}
    (hrecord : start.Current source → source = revision → start.HasRecord env source)
    (hstored : w.Current source → start.Current source) (h : w.Budgeted revision)
    (hlineage : Lineage links sources known w) (hstep : CommitStep env start source allowed w w') :
    w'.Budgeted revision := by
  cases hstep with
  | record _ hstep => exact h.recordStep hlineage hstep
  | terminal clock ht hheld hcurrent hsource hjournal hlooked hattempt =>
    subst hcurrent
    refine h.setJournal (by simp) ?_ fun _ hrevision => ?_
    · intro hrevision
      obtain rfl := hsource.symm.trans hrevision
      rw [pending_terminal, List.append_nil]
      have hcovers : Covers (sentFor _ w.dispatches) _ := h.covers_of_lookedUp hjournal
        (hrecord (hstored hheld.current) rfl) hlooked
      exact hcovers.committed hattempt
    · exact hsource.trans (hheld.current.unique hrevision)
  | project _ hheld hcurrent hjournal hsuccessor =>
    refine h.setCredential fun hrevision => ?_
    rw [hsuccessor] at hrevision
    subst hrevision
    exact h.sent_eq_nil hlineage (hcurrent ▸ hheld.current) hjournal

end World.Budgeted

/-! ### Runs keep the budget -/

lemma dispatches_sublist_setJournal (w : World) (state : JournalState) (enqueued : Bool)
    (attempt : RotationAttempt) (clock : Option Datetime) :
    w.dispatches.Sublist (w.setJournal state enqueued attempt clock).dispatches := by
  cases state with
  | requested source => exact List.sublist_append_left w.dispatches _
  | _ => exact List.Sublist.refl _

lemma RecoveryStep.dispatches_sublist (h : RecoveryStep env start w w') :
    w.dispatches.Sublist w'.dispatches := by
  cases h with
  | outbox h => rw [h.sameRotation.dispatches]
  | record h => rw [h.sameDispatches.dispatches]
  | discard => exact List.Sublist.refl _
  | dropReserved => exact List.Sublist.refl _
  | project => exact List.Sublist.refl _
  | abandon => exact dispatches_sublist_setJournal ..
  | reserve => exact dispatches_sublist_setJournal ..
  | request => exact dispatches_sublist_setJournal ..
  | stop => exact dispatches_sublist_setJournal ..

lemma CommitStep.dispatches_sublist {source : String} {allowed : TerminalState → Prop}
    (h : CommitStep env start source allowed w w') : w.dispatches.Sublist w'.dispatches := by
  cases h with
  | record _ h => rw [h.sameDispatches.dispatches]
  | terminal => exact dispatches_sublist_setJournal ..
  | project => exact List.Sublist.refl _

/-- What the steps of a run have to provide for the budget of a revision: no reservation of a
recovery dispatch is found, a commit finds the record of its source, and no deadline passes while
a preparation looks at the clock. -/
def Sys.Provides (revision : String) (s : Sys) : Label → Prop
  | .refresh _ env => s.world.Unspent revision ∧ s.world.Punctual env revision
  | .recoverStartup _ => s.world.Unspent revision
  | .commit index env => ∀ exchange, s.exchanges[index]? = some exchange →
      exchange.source.revision = revision → s.world.Current revision →
        s.world.HasRecord env revision
  | _ => True

/-- The budget of a revision in a system. -/
structure Sys.Budgeted (revision : String) (s : Sys) : Prop where
  lineage : s.Lineage
  world : s.world.Budgeted revision
  posts : s.posts.Sublist s.world.dispatches

lemma Sys.Initial.budgeted {s : Sys} (h : s.Initial) : s.Budgeted revision := by
  have hnone : sentFor revision s.world.dispatches = [] := by
    rw [h.dispatches]
    rfl
  refine ⟨h.lineage, ⟨?_, ?_, ?_, ?_⟩, ?_⟩
  · rw [hnone]
    exact ⟨by decide, fun lane => by cases lane <;> decide, by simp⟩
  · rintro _ _ _ ⟨_, hfile, _⟩
    rw [h.journal] at hfile
    cases hfile
  · exact fun hsent => absurd hnone hsent
  · exact fun hsent => absurd hnone hsent
  · rw [h.posts]
    exact List.nil_sublist _

lemma Moved.budgeted {s : Sys} {l : Label} (hmoved : Moved codec s l w) (h : s.Budgeted revision)
    (hrecovering : l.Recovering) (hfresh : s.Fresh l) (hprovides : s.Provides revision l) :
    w.Budgeted revision ∧ s.world.dispatches.Sublist w.dispatches := by
  cases hmoved with
  | prepared hmoves =>
    obtain ⟨hreserved, hpunctual⟩ := hprovides
    have hkept := keeps_of_moves (I := fun v => AuthSession.Lineage _ _ _ v ∧
      v.Budgeted revision ∧ s.world.dispatches.Sublist v.dispatches)
      ⟨h.lineage, h.world, List.Sublist.refl _⟩ hmoves fun v v' hv hstep => ?_
    · exact hkept.2
    · obtain ⟨hlineage, hbudgeted, hsub⟩ := hv
      exact ⟨hlineage.recoveryStep hstep,
        h.world.recoveryStep hreserved hpunctual hbudgeted hlineage hstep,
        hsub.trans hstep.dispatches_sublist⟩
  | returned => exact ⟨h.world, List.Sublist.refl _⟩
  | @committed index env _ source result hget hmoves =>
    have hsource := List.mem_map_of_mem (f := fun e : Exchange => e.source.revision)
      (List.mem_of_getElem? hget)
    have hlineage := h.lineage.addLink (source.revision, env.minted 0)
      (h.lineage.sourceEver _ hsource) hfresh
    have hkept := keeps_of_moves (I := fun v => AuthSession.Lineage _ _ _ v ∧
      (v.Current source.revision → s.world.Current source.revision) ∧
      v.Budgeted revision ∧ s.world.dispatches.Sublist v.dispatches)
      ⟨hlineage, id, h.world, List.Sublist.refl _⟩ hmoves fun v v' hv hstep => ?_
    · exact hkept.2.2
    · obtain ⟨hlineage, hstored, hbudgeted, hsub⟩ := hv
      refine ⟨hlineage.commitStep ?_ hstep, fun hcurrent => hstored (hstep.current hcurrent),
        hbudgeted.commitStep ?_ hstored hlineage hstep, hsub.trans hstep.dispatches_sublist⟩
      · intro t ht
        obtain ⟨hnames, hsuccessor⟩ := ht.names
        refine ⟨hnames, fun successor hsome => ?_⟩
        rw [hsuccessor successor hsome]
        exact List.mem_cons_self
      · rintro hcurrent rfl
        exact hprovides _ hget rfl hcurrent
  | recovered hmoves =>
    have hkept := keeps_of_moves (I := fun v => AuthSession.Lineage _ _ _ v ∧
      v.Budgeted revision ∧ s.world.dispatches.Sublist v.dispatches)
      ⟨h.lineage, h.world, List.Sublist.refl _⟩ hmoves fun v v' hv hstep => ?_
    · exact hkept.2
    · obtain ⟨hlineage, hbudgeted, hsub⟩ := hv
      exact ⟨hlineage.recoveryStep hstep.recovery,
        hbudgeted.reconcileStep hprovides hlineage hstep,
        hsub.trans hstep.recovery.dispatches_sublist⟩
  | imported => exact absurd hrecovering not_false
  | projected => exact absurd hrecovering not_false
  | crashed => exact ⟨h.world, List.Sublist.refl _⟩

lemma Sys.Budgeted.step {s s' : Sys} {l : Label} (h : s.Budgeted revision)
    (hrecovering : l.Recovering) (hfresh : s.Fresh l) (hprovides : s.Provides revision l)
    (hstep : Sys.step codec s l = some s') : s'.Budgeted revision := by
  obtain ⟨hworld, hsub⟩ := (Sys.step_moved hstep).budgeted h hrecovering hfresh hprovides
  refine ⟨h.lineage.step hfresh hstep, hworld, ?_⟩
  have hposts := h.posts.trans hsub
  obtain ⟨t, ht, hend⟩ := Sys.step_cases hstep
  suffices t.posts.Sublist t.world.dispatches by
    obtain rfl | ⟨owner, -, rfl⟩ := hend
    · exact this
    · exact this
  have hsame : t.world = s'.world := by
    obtain rfl | ⟨owner, -, rfl⟩ := hend <;> rfl
  rw [← hsame] at hposts
  cases ht with
  | dispatched clock hlive hmoves hdispatched =>
    obtain ⟨dispatch, hdispatches, -⟩ := hdispatched.dispatches
    simp only [hdispatches, List.getLast?_append, List.getLast?_singleton, Option.some_or,
      Option.toList_some]
    exact h.posts.append (List.Sublist.refl _)
  | imported => exact absurd hrecovering not_false
  | projected => exact absurd hrecovering not_false
  | _ => exact hposts

/-- **The budget survives crashes**: over a whole run of refreshes and startup recoveries, the
exchanges sent for a revision keep to its budget, its times and its deadline. -/
theorem withinBudget_of_run {s₀ s : Sys} {ls : List Label} (h₀ : s₀.Initial)
    (hpath : Path (Sys.step codec)
      (fun s l => s.Fresh l ∧ l.Recovering ∧ s.Provides revision l) s₀ ls s) :
    WithinBudget (sentFor revision s.world.dispatches) (sentFor revision s.posts) := by
  have hbudgeted := hpath.invariant h₀.budgeted
    fun _ _ _ hs hok hstep => hs.step hok.2.1 hok.1 hok.2.2 hstep
  have hsub : (sentFor revision s.posts).Sublist (sentFor revision s.world.dispatches) :=
    hbudgeted.posts.filter _
  have hwithin := hbudgeted.world.within
  constructor
  · have hlength := hsub.length_le
    have htotal := hwithin.total
    omega
  · intro lane
    have hlength : (inLane lane (sentFor revision s.posts)).length ≤
        (inLane lane (sentFor revision s.world.dispatches)).length := (hsub.filter _).length_le
    have hlane := hwithin.lanes lane
    omega
  · exact fun d hd => hwithin.punctual d (hsub.subset hd)

/-- Whether no reservation of the revision is found, and a commit finds its record. -/
def Sys.finds (revision : String) (s : Sys) : Label → Bool
  | .commit .. =>
    match journalOf s.world.journal with
    | .ok (.loaded state ..) => state.sourceRevision = revision
    | _ => false
  | _ =>
    match journalOf s.world.journal with
    | .ok .absent => true
    | .ok (.loaded state ..) => state ≠ .reserved revision
    | _ => false

/-- A journal that is read, and not as a reservation, holds none. -/
lemma World.unspent_of_read {w : World}
    (h : (match journalOf w.journal with
      | .ok .absent => true
      | .ok (.loaded state ..) => decide (state ≠ .reserved revision)
      | _ => false) = true) : w.Unspent revision := by
  intro enqueued attempt hholds
  split at h
  · next habsent =>
    obtain ⟨payload, hfile, -⟩ := hholds
    rw [hfile] at habsent
    exact absurd habsent (parseJournal_ne_absent payload)
  · next hread =>
    obtain ⟨rfl, -⟩ := (World.journalHolds_of_journalOf hread).unique hholds
    simp at h
  · cases h

/-- What a calm step finds so provides for the budget. -/
lemma Sys.provides_of_finds {s : Sys} {l : Label} (h : s.finds revision l = true) (hcalm : l.Calm)
    (hreads : ∀ env, l.env? = some env → env.readFault .journal 0 = none) :
    s.Provides revision l := by
  have hstill : ∀ env, l.env? = some env → ∀ attempt reading, ¬ Straddles env attempt reading := by
    rintro env henv attempt reading ⟨hbefore, hafter⟩
    rw [(hcalm env henv).1 reading] at hbefore
    rw [(hcalm env henv).1 (reading + 1)] at hafter
    exact hafter hbefore
  cases l with
  | refresh expected env =>
    exact ⟨World.unspent_of_read h, fun _ _ _ _ => hstill env rfl _ _,
      fun _ _ _ => hstill env rfl _ _⟩
  | recoverStartup env => exact World.unspent_of_read h
  | commit index env =>
    intro exchange _ _ _
    refine ⟨hreads env rfl, ?_⟩
    simp only [Sys.finds] at h
    split at h
    · next hread => exact ⟨_, _, _, _, hread, of_decide_eq_true h⟩
    · cases h
  | _ => trivial

theorem withinBudget_of_run_replay :
    ∃ s : Sys, s.posts.map (fun d => d.attempt.attemptKind) =
        [.normal, .recovery .ambiguityReplay] ∧
      WithinBudget (sentFor "r0" s.world.dispatches) (sentFor "r0" s.posts) := by
  obtain ⟨s, hreplay, hposts⟩ := Option.map_eq_some_iff.1
    (show (replay (Sys.step plainCodec) (fun s l => s.suits l && s.finds "r0" l)
      (Sys.installed firstAuth) replayedTrace).map
        (fun s => s.posts.map fun d => d.attempt.attemptKind) =
      some [.normal, .recovery .ambiguityReplay] by decide +kernel)
  have hkinds : ∀ l ∈ replayedTrace, l.Recovering ∧
      ∀ env, l.env? = some env → env.readFault .journal 0 = none := by
    simp only [replayedTrace, List.forall_mem_cons]
    refine ⟨⟨trivial, ?_⟩, ⟨trivial, ?_⟩, ⟨trivial, ?_⟩, ⟨trivial, ?_⟩, by rintro _ ⟨⟩⟩ <;>
      rintro env henv <;> cases henv <;> rfl
  refine ⟨s, hposts, withinBudget_of_run (Sys.installed_initial firstAuth)
    (.of_replay (fun l hl s hcheck => ?_) hreplay)⟩
  obtain ⟨hsuits, hfinds⟩ := (Bool.and_eq_true _ _).mp hcheck
  have hcalm := replayedTrace_calm l hl
  exact ⟨(hcalm.assumed hsuits).fresh, (hkinds l hl).1,
    Sys.provides_of_finds hfinds hcalm (hkinds l hl).2⟩

/-- A replay is reserved, but its request cannot be written. The next refresh drops the
reservation with all that it counted, and the replay of its dispatch is sent after the deadline of
the first one. -/
def forgottenTrace : List Label :=
  [.refresh none (.calm (worker 1) launch "r1"),
    .exchangeReturns 0 (.httpError "NETWORK"),
    .commit 0 (.calm (worker 1) launch "r1"),
    .refresh none ((Env.calm (worker 1) (launchAfter 40) "r1").failing 15),
    .refresh none (.calm (worker 1) (launchAfter 50) "r1"),
    .exchangeReturns 0 (.httpError "NETWORK"),
    .commit 0 (.calm (worker 1) (launchAfter 50) "r2"),
    .refresh none (.calm (worker 1) (launchAfter 620) "r2")]

lemma forgottenTrace_calm : ∀ l ∈ forgottenTrace, l.Calm ∧ l.Recovering := by
  simp only [forgottenTrace, List.forall_mem_cons]
  refine ⟨⟨?_, trivial⟩, ⟨?_, trivial⟩, ⟨?_, trivial⟩, ⟨?_, trivial⟩, ⟨?_, trivial⟩,
    ⟨?_, trivial⟩, ⟨?_, trivial⟩, ⟨?_, trivial⟩, by rintro _ ⟨⟩⟩ <;> rintro env henv <;>
    cases henv <;> exact ⟨fun _ => rfl, fun _ => rfl⟩

/-- A run that meets all assumptions, and never replaces the revision, can send a dispatch after
the deadline of the first one. -/
theorem not_withinBudget_of_assumed :
    ¬ ∀ s revision, Reachable Sys.Initial (Sys.step plainCodec)
      (fun s l => s.Assumed l ∧ l.Recovering) s →
        (∀ write ∈ s.world.credentialWrites, ∀ auth, Stores write.before auth →
          auth.revision ≠ revision) →
        WithinBudget (sentFor revision s.world.dispatches) (sentFor revision s.posts) := by
  intro h
  obtain ⟨s, hreplay, hseen⟩ := Option.map_eq_some_iff.1
    (show (replay (Sys.step plainCodec) Sys.suits (Sys.installed firstAuth) forgottenTrace).map
      (fun s => (s.world.credentialWrites.length, (sentFor "r0" s.world.dispatches).head?.map
        (fun first => first.attempt.recoveryDeadline), (sentFor "r0" s.posts).getLast?.map
          fun d => (d.attempt.attemptKind, d.clock))) =
      some (0, some (some (isoformat (launchAfter 600))),
        some (.recovery .ambiguityReplay, some (launchAfter 620))) by decide +kernel)
  simp only [Prod.mk.injEq, List.length_eq_zero_iff, Option.map_eq_some_iff] at hseen
  obtain ⟨hwrites, ⟨first, hfirst, hdeadline⟩, d, hlast, hkind, hclock⟩ := hseen
  have hpath : Path (Sys.step plainCodec) (fun s l => s.Assumed l ∧ l.Recovering)
      (Sys.installed firstAuth) forgottenTrace s := .of_replay (fun l hl _ hsuits =>
    ⟨(forgottenTrace_calm l hl).1.assumed hsuits, (forgottenTrace_calm l hl).2⟩) hreplay
  have hwithin := h s "r0" ⟨_, _, Sys.installed_initial firstAuth, hpath⟩ (by simp [hwrites])
  obtain ⟨first', hfirst', hpunctual⟩ :=
    hwithin.punctual d (List.mem_of_getLast? hlast) _ hkind
  obtain rfl := Option.some.inj (hfirst.symm.trans hfirst')
  obtain ⟨now, text, t, hnow, htext, hparsed, hlt⟩ := hpunctual.early
  obtain rfl := Option.some.inj (hclock.symm.trans hnow)
  obtain rfl := Option.some.inj (hdeadline.symm.trans htext)
  have hpassed : deadlinePassed (some (isoformat (launchAfter 600))) (launchAfter 620) =
      .ok true := by decide +kernel
  rw [deadlinePassed, parseDeadline, hparsed] at hpassed
  simp only [Except.map, Except.ok.injEq, decide_eq_true_eq] at hpassed
  exact Datetime.not_le.2 hlt hpassed

end EnjiGuard.AuthSession
