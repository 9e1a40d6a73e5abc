import EnjiGuard.AuthSession.System

/-!
# The succession of stored credentials

Every replacement of the credential file is an import or the projection of a rotation of the
revision stored at that moment, and no revision is ever stored twice. `Lineage` is the invariant:
a rotation that could still be projected, in the journal or in a process, leads to a revision
that was never stored.
-/

namespace EnjiGuard.AuthSession

open Foundation Action Relation

variable {w w' : World} {links links' : List (String × String)} {sources sources' : List String}
variable {known known' : List String} {auth : StoredAuth} {revision : String}

/-! ### Stored revisions -/

namespace World

/-- The revision the credential file holds. -/
def Current (w : World) (revision : String) : Prop :=
  ∃ auth, w.Holds auth ∧ auth.revision = revision

/-- The revisions the credential file holds or has held. -/
def Ever (w : World) (revision : String) : Prop :=
  w.Current revision ∨ ∃ write ∈ w.credentialWrites, ∃ auth,
    Stores write.before auth ∧ auth.revision = revision

lemma Current.unique {revision' : String} (h : w.Current revision) (h' : w.Current revision') :
    revision = revision' := by
  obtain ⟨auth, hheld, rfl⟩ := h
  obtain ⟨auth', hheld', rfl⟩ := h'
  rw [hheld.unique hheld']

lemma Current.ever (h : w.Current revision) : w.Ever revision := .inl h

lemma Holds.current (h : w.Holds auth) : w.Current auth.revision := ⟨auth, h, rfl⟩

lemma current_setCredential {cause : WriteCause} :
    (w.setCredential auth cause).Current revision ↔ revision = auth.revision := by
  constructor
  · rintro ⟨auth', hheld, rfl⟩
    rw [World.holds_setCredential_iff.1 hheld]
  · rintro rfl
    exact (w.holds_setCredential auth cause).current

lemma ever_setCredential {cause : WriteCause} :
    (w.setCredential auth cause).Ever revision ↔ revision = auth.revision ∨ w.Ever revision := by
  constructor
  · rintro (hcurrent | ⟨write, hmem, stored, hstores, rfl⟩)
    · exact .inl (current_setCredential.1 hcurrent)
    · rcases List.mem_append.1 hmem with hmem | hmem
      · exact .inr (.inr ⟨write, hmem, stored, hstores, rfl⟩)
      · rw [List.mem_singleton.1 hmem] at hstores
        exact .inr (.inl ⟨stored, hstores, rfl⟩)
  · rintro (rfl | ⟨stored, hheld, rfl⟩ | ⟨write, hmem, hstored⟩)
    · exact .inl (current_setCredential.2 rfl)
    · exact .inr ⟨_, List.mem_append_right _ (List.mem_singleton.2 rfl), stored, hheld, rfl⟩
    · exact .inr ⟨write, List.mem_append_left _ hmem, hstored⟩

end World

/-- Two states of the files agree on everything the succession speaks of. -/
structure World.SameSuccession (w w' : World) : Prop where
  credential : w'.credential = w.credential
  credentialWrites : w'.credentialWrites = w.credentialWrites

lemma World.SameDispatches.sameSuccession (h : w.SameDispatches w') : w.SameSuccession w' :=
  ⟨h.credential, h.credentialWrites⟩

lemma World.sameSuccession_setJournal (w : World) (state : JournalState) (enqueued : Bool)
    (attempt : RotationAttempt) (clock : Option Datetime) :
    w.SameSuccession (w.setJournal state enqueued attempt clock) := ⟨rfl, rfl⟩

lemma World.SameSuccession.current (h : w.SameSuccession w') :
    w'.Current revision ↔ w.Current revision := by
  simp only [World.Current, World.Holds, h.credential]

lemma World.SameSuccession.ever (h : w.SameSuccession w') :
    w'.Ever revision ↔ w.Ever revision := by
  simp only [World.Ever, h.current, h.credentialWrites]

/-! ### The history -/

/-- A replacement is an import, or the projection of a journaled rotation of what was stored. -/
def CredentialWrite.Legitimate (write : CredentialWrite) : Prop :=
  write.cause = .imported ∨ ∃ source header enqueued attempt,
    write.cause = .projected source ∧
    (∃ current, Stores write.before current ∧ current.revision = source) ∧
    Journals write.journal (.terminal (.rotated source header write.auth.revision)) enqueued
      attempt ∧
    write.auth.credential = .cookie header

/-- Each replacement finds what the one before it left. -/
structure World.Chained (w : World) : Prop where
  links : ∀ i write next, w.credentialWrites[i]? = some write →
    w.credentialWrites[i + 1]? = some next → next.before = some (.json (authPayload write.auth))
  last : ∀ write, w.credentialWrites.getLast? = some write →
    w.credential = some (.json (authPayload write.auth))

/-- No replacement brings back a revision that was stored before it. -/
def World.Novel (w : World) : Prop :=
  ∀ (i j : Nat) earlier later, i ≤ j → w.credentialWrites[i]? = some earlier →
    w.credentialWrites[j]? = some later →
    ∀ auth, Stores earlier.before auth → auth.revision ≠ later.auth.revision

/-- The succession so far. `links` are the rotations that processes hold, `sources` the revisions
of their exchanges and `known` the revisions in use. -/
structure Lineage (links : List (String × String)) (sources known : List String) (w : World) :
    Prop where
  legitimate : ∀ write ∈ w.credentialWrites, write.Legitimate
  chained : w.Chained
  novel : w.Novel
  everKnown : ∀ revision, w.Ever revision → revision ∈ known
  journalSource : ∀ state enqueued attempt, w.JournalHolds state enqueued attempt →
    w.Ever state.sourceRevision
  journalLink : ∀ source header successor enqueued attempt,
    w.JournalHolds (.terminal (.rotated source header successor)) enqueued attempt →
    successor ∈ known ∧ (w.Current source → ¬ w.Ever successor)
  linkSource : ∀ link ∈ links, w.Ever link.1
  linkKnown : ∀ link ∈ links, link.2 ∈ known
  linkMoves : ∀ link ∈ links, link.1 ≠ link.2
  linkNovel : ∀ link ∈ links, w.Current link.1 → ¬ w.Ever link.2
  sourceEver : ∀ source ∈ sources, w.Ever source

namespace Lineage

/-- The processes may forget, and revisions become known. -/
lemma mono (h : Lineage links sources known w) (hlinks : ∀ link ∈ links', link ∈ links)
    (hsources : ∀ source ∈ sources', source ∈ sources)
    (hknown : ∀ revision ∈ known, revision ∈ known') : Lineage links' sources' known' w where
  legitimate := h.legitimate
  chained := h.chained
  novel := h.novel
  everKnown := fun r hr => hknown r (h.everKnown r hr)
  journalSource := h.journalSource
  journalLink := fun s c r e a hj =>
    ⟨hknown _ (h.journalLink s c r e a hj).1, (h.journalLink s c r e a hj).2⟩
  linkSource := fun l hl => h.linkSource l (hlinks l hl)
  linkKnown := fun l hl => hknown _ (h.linkKnown l (hlinks l hl))
  linkMoves := fun l hl => h.linkMoves l (hlinks l hl)
  linkNovel := fun l hl => h.linkNovel l (hlinks l hl)
  sourceEver := fun s hs => h.sourceEver s (hsources s hs)

/-- A process takes up an exchange of a revision that was stored. -/
lemma addSource (h : Lineage links sources known w) (hsource : w.Ever revision) :
    Lineage links (sources ++ [revision]) known w :=
  { h with
    sourceEver := by
      intro source hmem
      rcases List.mem_append.1 hmem with hmem | hmem
      · exact h.sourceEver source hmem
      · rw [List.mem_singleton.1 hmem]; exact hsource }

/-- A process holds a rotation to a new revision. -/
lemma addLink (link : String × String) (h : Lineage links sources known w)
    (hsource : w.Ever link.1) (hfresh : link.2 ∉ known) :
    Lineage (link :: links) sources (link.2 :: known) w := by
  have hnovel : ¬ w.Ever link.2 := fun hever => hfresh (h.everKnown _ hever)
  have h' : Lineage links sources (link.2 :: known) w := h.mono
    (fun _ hl => hl) (fun _ hs => hs) fun _ hr => List.mem_cons_of_mem _ hr
  refine { h' with
    linkSource := ?_, linkKnown := ?_, linkMoves := ?_, linkNovel := ?_ }
  all_goals
    intro l hl
    rcases List.mem_cons.1 hl with rfl | hl
  · exact hsource
  · exact h'.linkSource l hl
  · exact List.mem_cons_self
  · exact h'.linkKnown l hl
  · rintro heq
    exact hnovel (heq ▸ hsource)
  · exact h'.linkMoves l hl
  · exact fun _ => hnovel
  · exact h'.linkNovel l hl

/-- Changes that touch neither the credential nor the journal. -/
lemma same (h : Lineage links sources known w) (hsame : w.SameSuccession w')
    (hjournal : ∀ state enqueued attempt, w'.JournalHolds state enqueued attempt →
      w.Ever state.sourceRevision)
    (hlink : ∀ source header successor enqueued attempt,
      w'.JournalHolds (.terminal (.rotated source header successor)) enqueued attempt →
      successor ∈ known ∧ (w.Current source → ¬ w.Ever successor)) :
    Lineage links sources known w' where
  legitimate := hsame.credentialWrites ▸ h.legitimate
  chained := ⟨hsame.credentialWrites ▸ h.chained.links,
    hsame.credentialWrites ▸ hsame.credential ▸ h.chained.last⟩
  novel := by
    have := h.novel
    rw [World.Novel, ← hsame.credentialWrites] at this
    exact this
  everKnown := fun r hr => h.everKnown r (hsame.ever.1 hr)
  journalSource := fun s e a hj => hsame.ever.2 (hjournal s e a hj)
  journalLink := fun s c r e a hj => ⟨(hlink s c r e a hj).1, fun hcurrent hever =>
    (hlink s c r e a hj).2 (hsame.current.1 hcurrent) (hsame.ever.1 hever)⟩
  linkSource := fun l hl => hsame.ever.2 (h.linkSource l hl)
  linkKnown := h.linkKnown
  linkMoves := h.linkMoves
  linkNovel := fun l hl hcurrent hever =>
    h.linkNovel l hl (hsame.current.1 hcurrent) (hsame.ever.1 hever)
  sourceEver := fun s hs => hsame.ever.2 (h.sourceEver s hs)

lemma outbox (h : Lineage links sources known w) (hstep : OutboxStep w w') :
    Lineage links sources known w' := by
  have hsame := hstep.sameRotation
  exact h.same hsame.sameDispatches.sameSuccession
    (fun s e a hj => h.journalSource s e a (hsame.journalHolds.1 hj))
    fun s c r e a hj => h.journalLink s c r e a (hsame.journalHolds.1 hj)

lemma removeJournal (h : Lineage links sources known w) :
    Lineage links sources known w.removeJournal :=
  h.same w.sameDispatches_removeJournal.sameSuccession (by rintro _ _ _ ⟨_, ⟨⟩, _⟩)
    (by rintro _ _ _ _ _ ⟨_, ⟨⟩, _⟩)

/-- A journal about a revision that was stored, leading to a new one if it is a rotation. -/
lemma setJournal {state : JournalState} {enqueued : Bool} {attempt : RotationAttempt}
    {clock : Option Datetime} (h : Lineage links sources known w)
    (hsource : w.Ever state.sourceRevision)
    (hlink : ∀ source header successor, state = .terminal (.rotated source header successor) →
      successor ∈ known ∧ (w.Current source → ¬ w.Ever successor)) :
    Lineage links sources known (w.setJournal state enqueued attempt clock) := by
  have hunique : ∀ state' enqueued' attempt',
      (w.setJournal state enqueued attempt clock).JournalHolds state' enqueued' attempt' →
      state' = state := fun _ _ _ hj =>
    (hj.unique (World.journalHolds_setJournal _ _ _ _ _)).1
  refine h.same (w.sameSuccession_setJournal _ _ _ _) ?_ ?_
  · intro state' enqueued' attempt' hj
    rw [hunique _ _ _ hj]
    exact hsource
  · intro source header successor enqueued' attempt' hj
    exact hlink source header successor (hunique _ _ _ hj).symm

/-- A journal that is marked leads where it led before. -/
lemma mark {t : TerminalState} {enqueued enqueued' : Bool} {attempt attempt' : RotationAttempt}
    {clock : Option Datetime} (h : Lineage links sources known w)
    (hjournal : w.JournalHolds (.terminal t) enqueued attempt) :
    Lineage links sources known (w.setJournal (.terminal t) enqueued' attempt' clock) := by
  refine h.setJournal (h.journalSource _ _ _ hjournal) ?_
  rintro source header successor ⟨⟩
  exact h.journalLink _ _ _ _ _ hjournal

/-- A replacement by a revision that was never stored. -/
lemma replace {cause : WriteCause} (h : Lineage links sources known w)
    (hnovel : ¬ w.Ever auth.revision) (hknown : auth.revision ∈ known)
    (hlegitimate : CredentialWrite.Legitimate ⟨w.credential, auth, cause, w.journal⟩) :
    Lineage links sources known (w.setCredential auth cause) where
  legitimate := by
    intro write hmem
    rcases List.mem_append.1 hmem with hmem | hmem
    · exact h.legitimate write hmem
    · rw [List.mem_singleton.1 hmem]; exact hlegitimate
  chained := by
    refine ⟨fun i write next hwrite hnext => ?_, ?_⟩
    · simp only [World.setCredential] at hwrite hnext
      have hlength : i + 1 ≤ w.credentialWrites.length := by
        have := (List.getElem?_eq_some_iff.1 hnext).1
        simp only [List.length_append, List.length_singleton] at this
        omega
      rw [List.getElem?_append_left (by omega)] at hwrite
      rcases Nat.lt_or_eq_of_le hlength with hlt | heq
      · rw [List.getElem?_append_left hlt] at hnext
        exact h.chained.links i write next hwrite hnext
      · rw [heq, List.getElem?_concat_length] at hnext
        cases hnext
        refine h.chained.last write ?_
        rw [List.getLast?_eq_getElem?, ← heq, Nat.add_sub_cancel]
        exact hwrite
    · intro write hlast
      simp only [World.setCredential, List.getLast?_append, List.getLast?_singleton] at hlast
      cases hlast
      rfl
  novel := by
    intro i j earlier later hle hearlier hlater stored hstores
    simp only [World.setCredential] at hearlier hlater
    have hj : j ≤ w.credentialWrites.length := by
      have := (List.getElem?_eq_some_iff.1 hlater).1
      simp only [List.length_append, List.length_singleton] at this
      omega
    rcases Nat.lt_or_eq_of_le hj with hlt | rfl
    · rw [List.getElem?_append_left hlt] at hlater
      rw [List.getElem?_append_left (by omega)] at hearlier
      exact h.novel i j earlier later hle hearlier hlater stored hstores
    · rw [List.getElem?_concat_length] at hlater
      cases hlater
      rintro heq
      refine hnovel (heq ▸ ?_)
      rcases Nat.lt_or_eq_of_le hle with hlt | rfl
      · rw [List.getElem?_append_left hlt] at hearlier
        exact .inr ⟨earlier, List.mem_of_getElem? hearlier, stored, hstores, rfl⟩
      · rw [List.getElem?_concat_length] at hearlier
        cases hearlier
        exact .inl ⟨stored, hstores, rfl⟩
  everKnown := by
    intro r hr
    rcases World.ever_setCredential.1 hr with rfl | hr
    · exact hknown
    · exact h.everKnown r hr
  journalSource := fun s e a hj => World.ever_setCredential.2 (.inr (h.journalSource s e a hj))
  journalLink := fun s c r e a hj => ⟨(h.journalLink s c r e a hj).1, fun hcurrent => by
    rw [World.current_setCredential.1 hcurrent] at hj
    exact absurd (h.journalSource _ _ _ hj) hnovel⟩
  linkSource := fun l hl => World.ever_setCredential.2 (.inr (h.linkSource l hl))
  linkKnown := h.linkKnown
  linkMoves := h.linkMoves
  linkNovel := fun l hl hcurrent => by
    have := h.linkSource l hl
    rw [World.current_setCredential.1 hcurrent] at this
    exact absurd this hnovel
  sourceEver := fun s hs => World.ever_setCredential.2 (.inr (h.sourceEver s hs))

/-- The projection of a journaled rotation of the stored revision. -/
lemma project {source header successor : String} {enqueued : Bool} {attempt : RotationAttempt}
    {current : StoredAuth} (h : Lineage links sources known w) (hheld : w.Holds current)
    (hcurrent : current.revision = source)
    (hjournal : w.JournalHolds (.terminal (.rotated source header successor)) enqueued attempt)
    (hrevision : auth.revision = successor) (hcookie : auth.credential = .cookie header) :
    Lineage links sources known (w.setCredential auth (.projected source)) := by
  obtain ⟨hknown, hnovel⟩ := h.journalLink _ _ _ _ _ hjournal
  refine h.replace (hrevision ▸ hnovel ⟨current, hheld, hcurrent⟩) (hrevision ▸ hknown) ?_
  exact .inr ⟨source, header, enqueued, attempt, rfl, ⟨current, hheld, hcurrent⟩,
    hrevision ▸ hjournal, hcookie⟩

/-! ### Sections keep the lineage -/

lemma recordStep {t : TerminalState} {attempt : RotationAttempt} {prior : World → Prop}
    (hmark : ∀ w clock, Lineage links sources known w → prior w → w.Projected t →
      Lineage links sources known (w.setJournal (.terminal t) true attempt clock))
    (h : Lineage links sources known w) (hstep : RecordStep t attempt prior w w') :
    Lineage links sources known w' := by
  cases hstep with
  | outbox hstep => exact h.outbox hstep
  | mark clock hprior hprojected => exact hmark _ clock h hprior hprojected
  | delete => exact h.removeJournal

lemma recordStep_pending {t : TerminalState} {attempt : RotationAttempt}
    (h : Lineage links sources known w)
    (hstep : RecordStep t attempt (World.Pending t attempt) w w') :
    Lineage links sources known w' :=
  recordStep (fun _ _ h hpending _ => h.mark hpending) h hstep

/-- Only a rotated state leads to another revision. -/
lemma setOther {state : JournalState} {enqueued : Bool} {attempt : RotationAttempt}
    {clock : Option Datetime} {current : StoredAuth} (h : Lineage links sources known w)
    (hheld : w.Holds current) (hsource : state.sourceRevision = current.revision)
    (hother : state.successor? = none) :
    Lineage links sources known (w.setJournal state enqueued attempt clock) := by
  refine h.setJournal (hsource ▸ hheld.current.ever) ?_
  rintro source header successor rfl
  cases hother

lemma recoveryStep {env : Env} {start : World} (h : Lineage links sources known w)
    (hstep : RecoveryStep env start w w') : Lineage links sources known w' := by
  cases hstep with
  | outbox hstep => exact h.outbox hstep
  | record hstep => exact h.recordStep_pending hstep
  | discard => exact h.removeJournal
  | dropReserved => exact h.removeJournal
  | abandon clock hheld => exact h.setOther hheld rfl rfl
  | project hheld hjournal hrevision hcookie =>
    exact h.project hheld rfl hjournal hrevision hcookie
  | reserve reading hheld => exact h.setOther hheld rfl rfl
  | request hheld => exact h.setOther hheld rfl rfl
  | stop clock hheld => exact h.setOther hheld rfl rfl

/-- A commit whose successor is one the processes hold for its source. -/
lemma commitStep {env : Env} {start : World} {source : String} {allowed : TerminalState → Prop}
    (hallowed : ∀ t, allowed t → t.sourceRevision = source ∧
      ∀ successor, t.successor? = some successor → (source, successor) ∈ links)
    (h : Lineage links sources known w) (hstep : CommitStep env start source allowed w w') :
    Lineage links sources known w' := by
  cases hstep with
  | record _ hstep => exact h.recordStep_pending hstep
  | terminal clock ht hheld hcurrent hsource hjournal hlooked hattempt =>
    have hever : w.Ever (JournalState.terminal _).sourceRevision :=
      (hsource.trans hcurrent.symm : _ = _) ▸ hheld.current.ever
    refine h.setJournal hever ?_
    rintro source' header successor ⟨⟩
    have hlink := (hallowed _ ht).2 successor rfl
    obtain rfl : source' = source := hsource
    exact ⟨h.linkKnown _ hlink, h.linkNovel _ hlink⟩
  | project ht hheld hcurrent hjournal hrevision hcookie =>
    exact h.project hheld hcurrent hjournal hrevision hcookie

/-- The projection of a successor the processes hold. -/
lemma projectStep {env : Env} {start : World} {retained : RetainedRefreshSuccessor}
    (hlink : (retained.sourceRevision, retained.auth.revision) ∈ links)
    (h : Lineage links sources known w) (hstep : ProjectStep env start retained w w') :
    Lineage links sources known w' := by
  cases hstep with
  | commit hstep =>
    refine h.commitStep ?_ hstep
    rintro _ ⟨header, rfl⟩
    refine ⟨rfl, ?_⟩
    rintro _ ⟨⟩
    exact hlink
  | already ht hlooked hstored hstep =>
    obtain ⟨header, rfl⟩ := ht
    refine recordStep (fun v clock h _ hprojected => ?_) h hstep
    refine h.setJournal (h.linkSource _ hlink) ?_
    rintro source header successor ⟨⟩
    refine ⟨h.linkKnown _ hlink, fun hcurrent => ?_⟩
    obtain ⟨stored, hheld, hrevision⟩ := hprojected _ rfl
    exact absurd (hcurrent.unique ⟨stored, hheld, hrevision⟩) (h.linkMoves _ hlink)

/-- An import of a new revision. -/
lemma importStep {env : Env} {start : World} (hstart : Lineage links sources known start)
    (hfresh : auth.revision ∉ known)
    (h : w = start ∧ Lineage links sources known w ∨
      Lineage links sources (auth.revision :: known) w)
    (hstep : ImportStep env start auth w w') :
    w' = start ∧ Lineage links sources known w' ∨
      Lineage links sources (auth.revision :: known) w' := by
  have hknown : ∀ v, Lineage links sources known v →
      Lineage links sources (auth.revision :: known) v := fun v hv =>
    hv.mono (fun _ hl => hl) (fun _ hs => hs) fun _ hr => List.mem_cons_of_mem _ hr
  have h' : Lineage links sources (auth.revision :: known) w :=
    h.elim (fun h => hknown _ h.2) id
  cases hstep with
  | outbox hstep => exact .inr (h'.outbox hstep)
  | write =>
    refine .inr ((hknown _ hstart).replace ?_ List.mem_cons_self (.inl rfl))
    exact fun hever => hfresh (hstart.everKnown _ hever)
  | delete => exact .inr h'.removeJournal

end Lineage

/-- A commit does not bring its source back. -/
lemma CommitStep.current {env : Env} {start : World} {source : String}
    {allowed : TerminalState → Prop} (h : CommitStep env start source allowed w w')
    (hstored : w'.Current source) : w.Current source := by
  cases h with
  | record _ h => exact h.sameDispatches.sameSuccession.current.1 hstored
  | terminal => exact (World.sameSuccession_setJournal ..).current.1 hstored
  | project _ hheld hcurrent => exact hcurrent ▸ hheld.current

/-! ### Runs keep the lineage -/

/-- A step of a section keeps what each of its durable operations keeps. -/
lemma keeps_of_moves {R : World → World → Prop} {I : World → Prop} (h : I w)
    (hmoves : ReflTransGen R w w') (hstep : ∀ v v', I v → R v v' → I v') : I w' := by
  induction hmoves with
  | refl => exact h
  | tail _ hR ih => exact hstep _ _ ih hR

/-- The rotation a process holds. -/
def Retained.link (r : Retained) : String × String :=
  (r.successor.sourceRevision, r.successor.auth.revision)

/-- The succession of a system. -/
def Sys.Lineage (s : Sys) : Prop :=
  AuthSession.Lineage (s.retained.map Retained.link) (s.exchanges.map fun e => e.source.revision)
    s.known s.world

/-- A new installation has no history. -/
lemma Sys.Initial.lineage {s : Sys} (h : s.Initial) : s.Lineage := by
  have hjournal : ∀ state enqueued attempt, ¬ s.world.JournalHolds state enqueued attempt := by
    rintro state enqueued attempt ⟨payload, hfile, -⟩
    rw [h.journal] at hfile
    cases hfile
  rw [Sys.Lineage, h.retained, h.exchanges]
  constructor
  case legitimate => rw [h.credentialWrites]; rintro _ ⟨⟩
  case chained =>
    constructor
    · rw [h.credentialWrites]; rintro _ _ _ ⟨⟩
    · rw [h.credentialWrites]; rintro _ ⟨⟩
  case novel =>
    intro i j earlier later _ hearlier
    rw [h.credentialWrites] at hearlier
    cases hearlier
  case everKnown =>
    rintro revision (⟨auth, hheld, rfl⟩ | ⟨write, hmem, -⟩)
    · exact h.known auth hheld
    · rw [h.credentialWrites] at hmem
      cases hmem
  case journalSource => exact fun _ _ _ hj => absurd hj (hjournal _ _ _)
  case journalLink => exact fun _ _ _ _ _ hj => absurd hj (hjournal _ _ _)
  all_goals rintro _ ⟨⟩

/-- A crash makes a process forget. -/
lemma Sys.Lineage.kill {s : Sys} (h : s.Lineage) (owner : RefreshOwner) :
    (s.kill owner).Lineage := by
  refine h.mono ?_ ?_ fun _ hr => hr
  · intro link hl
    obtain ⟨r, hr, rfl⟩ := List.mem_map.1 hl
    exact List.mem_map.2 ⟨r, (List.mem_filter.1 hr).1, rfl⟩
  · intro source hs
    obtain ⟨e, he, rfl⟩ := List.mem_map.1 hs
    exact List.mem_map.2 ⟨e, (List.mem_filter.1 he).1, rfl⟩

/-- A ticket that is given up leaves the others. -/
lemma mem_map_of_mem_map_eraseIdx {α β : Type} {f : α → β} {as : List α} {i : Nat} {b : β}
    (h : b ∈ (as.eraseIdx i).map f) : b ∈ as.map f := by
  obtain ⟨a, ha, rfl⟩ := List.mem_map.1 h
  exact List.mem_map_of_mem (List.mem_of_mem_eraseIdx ha)

/-- Replacing an element by one with the same image. -/
lemma map_set_eq_map {α β : Type} {f : α → β} {as : List α} {i : Nat} {a : α} (a' : α)
    (hget : as[i]? = some a) (heq : f a' = f a) : (as.set i a').map f = as.map f := by
  obtain ⟨hlt, rfl⟩ := List.getElem?_eq_some_iff.1 hget
  apply List.ext_getElem
  · simp
  · intro j h₁ h₂
    simp only [List.getElem_map, List.getElem_set]
    split_ifs with hij
    · subst hij; exact heq
    · rfl

/-- The commit of an exchange keeps the succession, also when it hands over its successor. -/
lemma Sys.Lineage.commit {s : Sys} {env : Env} {w : World} {source : String}
    {allowed : TerminalState → Prop} (h : s.Lineage)
    (hsource : source ∈ s.exchanges.map fun e => e.source.revision)
    (hfresh : env.minted 0 ∉ s.known)
    (hallowed : ∀ t, allowed t → Names source (env.minted 0) t)
    (hmoves : ReflTransGen (CommitStep env s.world source allowed) s.world w) :
    AuthSession.Lineage ((source, env.minted 0) :: s.retained.map Retained.link)
      (s.exchanges.map fun e => e.source.revision) (env.minted 0 :: s.known) w := by
  refine keeps_of_moves (h.addLink (source, env.minted 0) (h.sourceEver _ hsource)
    hfresh) hmoves fun _ _ h hstep => h.commitStep ?_ hstep
  intro t ht
  obtain ⟨hsource, hsuccessor⟩ := hallowed t ht
  refine ⟨hsource, fun successor hsome => ?_⟩
  rw [hsuccessor successor hsome]
  exact List.mem_cons_self

/-- What a step does before a possible crash keeps the succession. -/
lemma Stepped.lineage {codec : CookieCodec} {s t : Sys} {l : Label} (ht : Stepped codec s l t)
    (h : s.Lineage) (hfresh : s.Fresh l) : t.Lineage := by
  cases ht with
  | prepared clock hlive hmoves | recovered clock hlive hmoves =>
    exact keeps_of_moves h hmoves fun _ _ h hstep => h.recoveryStep hstep
  | dispatched clock hlive hmoves hdispatched =>
    have hkept := keeps_of_moves (I := AuthSession.Lineage _ _ _) h hmoves
      fun _ _ h hstep => h.recoveryStep hstep
    rw [Sys.Lineage, List.map_append]
    exact hkept.addSource hdispatched.holds.current.ever
  | @returned index result owner source hget =>
    dsimp only [Sys.Lineage]
    rw [map_set_eq_map ⟨owner, source, some result⟩ hget rfl]
    exact h
  | @committed index env w source result clock hget hlive hmoves =>
    have hmem := List.mem_map_of_mem (f := fun e : Exchange => e.source.revision)
      (List.mem_of_getElem? hget)
    exact (h.commit hmem hfresh (fun _ => Outcomes.names) hmoves).mono
      (fun _ hl => List.mem_cons_of_mem _ hl)
      (fun _ hs => mem_map_of_mem_map_eraseIdx hs) fun _ hr => hr
  | @kept index env w source result retained clock hget hlive hmoves hsource hsuccessor =>
    have hmem := List.mem_map_of_mem (f := fun e : Exchange => e.source.revision)
      (List.mem_of_getElem? hget)
    refine (h.commit hmem hfresh (fun _ => Rotates.names) hmoves).mono (fun link hl => ?_)
      (fun _ hs => mem_map_of_mem_map_eraseIdx hs) fun _ hr => hr
    rw [List.map_append, List.mem_append] at hl
    rcases hl with hl | hl
    · exact List.mem_cons_of_mem _ hl
    · rw [List.mem_singleton.1 hl, Retained.link, hsource, hsuccessor]
      exact List.mem_cons_self
  | imported clock hlive hmoves =>
    rcases keeps_of_moves (I := fun w => _ ∨ _) (.inl ⟨rfl, h⟩) hmoves
      fun _ _ hw hstep => h.importStep hfresh hw hstep with ⟨-, hw⟩ | hw
    · exact hw.mono (fun _ hl => hl) (fun _ hs => hs) fun _ hr => List.mem_cons_of_mem _ hr
    · exact hw
  | projected clock kept hget hlive hmoves hkept =>
    have hlink := List.mem_map_of_mem (f := Retained.link) (List.mem_of_getElem? hget)
    have hw := keeps_of_moves (I := AuthSession.Lineage _ _ _) h hmoves
      fun _ _ h hstep => h.projectStep hlink hstep
    refine hw.mono (fun link hl => ?_) (fun _ hs => hs) fun _ hr => hr
    rcases hkept with rfl | rfl
    · exact hl
    · exact mem_map_of_mem_map_eraseIdx hl
  | crashed owner => exact h

/-- Every step keeps the succession. -/
lemma Sys.Lineage.step {codec : CookieCodec} {s s' : Sys} {l : Label} (h : s.Lineage)
    (hfresh : s.Fresh l) (hstep : Sys.step codec s l = some s') : s'.Lineage := by
  obtain ⟨t, ht, rfl | ⟨owner, -, rfl⟩⟩ := Sys.step_cases hstep
  · exact ht.lineage h hfresh
  · exact (ht.lineage h hfresh).kill owner

lemma Sys.lineage_of_reachable {codec : CookieCodec} {s : Sys}
    (h : Reachable Sys.Initial (Sys.step codec) Sys.Fresh s) : s.Lineage :=
  h.invariant (fun _ h => h.lineage) fun _ _ _ h hfresh hstep => h.step hfresh hstep

/-! ### The newest credential wins -/

/-- A revision that is projected after an import was itself stored at or after the import. -/
lemma source_of_projected {i j : Nat} {later : CredentialWrite} {source : String}
    (hchained : w.Chained) (hnovel : w.Novel) (hlt : i < j)
    (hlater : w.credentialWrites[j]? = some later)
    (hbefore : ∃ current, Stores later.before current ∧ current.revision = source) :
    (∃ k stored, i ≤ k ∧ k < j ∧ w.credentialWrites[k]? = some stored ∧
      stored.auth.revision = source) ∧
      ∀ k earlier auth, k ≤ i → w.credentialWrites[k]? = some earlier →
        Stores earlier.before auth → auth.revision ≠ source := by
  obtain ⟨current, hstores, rfl⟩ := hbefore
  obtain ⟨k, rfl⟩ : ∃ k, j = k + 1 := ⟨j - 1, by omega⟩
  obtain ⟨stored, hstored⟩ : ∃ stored, w.credentialWrites[k]? = some stored := by
    have := (List.getElem?_eq_some_iff.1 hlater).1
    exact ⟨_, List.getElem?_eq_getElem (by omega)⟩
  have hleft : Stores later.before stored.auth :=
    ⟨_, hchained.links k stored later hstored hlater, .inl rfl⟩
  have heq : stored.auth = current :=
    World.Holds.unique (w := { w with credential := later.before }) hleft hstores
  subst heq
  refine ⟨⟨k, stored, by omega, by omega, hstored, rfl⟩, ?_⟩
  intro m earlier auth hm hearlier hauth
  exact hnovel m k earlier stored (by omega) hearlier hstored auth hauth

/-- Every replacement of the credential file was an import or the projection of a rotation of the
revision stored at that moment; the replacements form a chain; and after an import no rotation of
a revision that was stored before it is projected any more. -/
def World.NewestWins (w : World) : Prop :=
  (∀ write ∈ w.credentialWrites, write.Legitimate) ∧ w.Chained ∧
    ∀ (i j : Nat) write later source, i < j → w.credentialWrites[i]? = some write →
      write.cause = .imported → w.credentialWrites[j]? = some later →
      later.cause = .projected source →
      (∃ k stored, i ≤ k ∧ k < j ∧ w.credentialWrites[k]? = some stored ∧
        stored.auth.revision = source) ∧
        ∀ k earlier auth, k ≤ i → w.credentialWrites[k]? = some earlier →
          Stores earlier.before auth → auth.revision ≠ source

/-- In every reachable state the newest credential has won. -/
theorem newestWins_of_reachable {codec : CookieCodec} {s : Sys}
    (h : Reachable Sys.Initial (Sys.step codec) Sys.Fresh s) : s.world.NewestWins := by
  have hlineage := Sys.lineage_of_reachable h
  refine ⟨hlineage.legitimate, hlineage.chained, ?_⟩
  intro i j write later source hlt _ _ hlater hcause
  refine source_of_projected hlineage.chained hlineage.novel hlt hlater ?_
  rcases hlineage.legitimate later (List.mem_of_getElem? hlater) with himport |
    ⟨source', header, enqueued, attempt, hcause', hbefore, -⟩
  · rw [himport] at hcause
    cases hcause
  · rw [hcause'] at hcause
    cases hcause
    exact hbefore

/-- A rotation, and an import after it. -/
def importTrace : List Label :=
  [.refresh none (.calm (worker 1) launch "r1"),
    .exchangeReturns 0 (.response successResponse),
    .commit 0 (.calm (worker 1) launch "r1"),
    .importCredential { firstAuth with revision := "r2" } (.calm (worker 2) launch "r3")]

lemma importTrace_calm : ∀ l ∈ importTrace, l.Calm := by
  simp only [importTrace, List.forall_mem_cons]
  refine ⟨?_, ?_, ?_, ?_, by rintro _ ⟨⟩⟩ <;> rintro env henv <;> cases henv <;>
    exact ⟨fun _ => rfl, fun _ => rfl⟩

theorem newestWins_of_reachable_import :
    ∃ s : Sys, s.world.credentialWrites.map (fun write => write.auth.revision) = ["r1", "r2"] ∧
      s.world.NewestWins := by
  obtain ⟨s, hreplay, hwrites⟩ := Option.map_eq_some_iff.1
    (show (replay (Sys.step plainCodec) Sys.suits (Sys.installed firstAuth) importTrace).map
      (fun s => s.world.credentialWrites.map fun write => write.auth.revision) =
      some ["r1", "r2"] by decide +kernel)
  have hreached := reachable_of_replay (Sys.installed_initial firstAuth) importTrace_calm hreplay
  exact ⟨s, hwrites, newestWins_of_reachable (hreached.mono fun _ _ hassumed => hassumed.fresh)⟩

end EnjiGuard.AuthSession
