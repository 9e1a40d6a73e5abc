import EnjiGuard.AuthSession.Readable

/-!
# Journals of the previous schema

A journal of the previous schema is migrated when it is read and written in the current schema when
a recovery rewrites it. A migrated request has a dispatch cap of its own, which the reader of the
current schema does not accept, and an active record forgets that its outcome was enqueued.
Whatever becomes of the file, an exchange of the previous schema is not dispatched again.
-/

namespace EnjiGuard.AuthSession

open Foundation Action Relation

variable {state : JournalState} {attempt held : RotationAttempt} {enqueued : Bool}
variable {payload : List (String × Json)} {revision reason : String}
variable {w w' start : World} {env : Env} {codec : CookieCodec}

/-! ### Rewriting a migrated record -/

/-- A migrated record that was no request is one the current reader accepts. -/
lemma Migrated.accepted (h : Migrated state attempt) (hnamed : state.sourceRevision ≠ "")
    (hcap : attempt.totalDispatchCap = totalDispatchCap) : Accepted state attempt := by
  have hbudget : ∀ source raw, source ≠ "" → raw ≠ "REQUESTED" →
      (v2Attempt source (.str raw)).InBudget := by
    intro source raw hsource hraw
    have hcount : (Json.str raw).equalsStr "REQUESTED" = false := by
      simpa [Json.equalsStr] using hraw
    refine ⟨hsource, by simp [v2Attempt, hcount, totalDispatchCap],
      by simp [v2Attempt, hcount, totalDispatchCap], ?_, by simp [v2Attempt, hcount]⟩
    intro lane
    cases lane <;> simp [v2Attempt, RotationAttempt.laneCount, RecoveryLane.limit, safeRetryLimit,
      validationRetryLimit, ambiguityReplayLimit]
  cases h with
  | reserved source =>
    refine ⟨hnamed, valid_of_ownerless (hbudget _ _ hnamed (by simp)) ⟨rfl, rfl, rfl⟩, ?_⟩
    constructor <;> simp [v2Attempt, RotationAttempt.ownerPresent, Json.equalsStr]
  | requested source => simp [v2Attempt, Json.equalsStr, totalDispatchCap] at hcap
  | terminal t =>
    refine ⟨hnamed, valid_of_ownerless (hbudget _ _ hnamed ?_) ⟨rfl, rfl, rfl⟩, ?_⟩
    · cases t <;> simp [JournalState.name]
    · cases t <;> constructor <;>
        simp [v2Attempt, RotationAttempt.ownerPresent, Json.equalsStr, JournalState.name,
          JournalState.successor?]

/-- What the raw state of a migrated journal says about its record. -/
lemma raw_of_parseV2State {source : String} {raw : Json}
    (h : parseV2State payload source raw = .ok state) :
    source = state.sourceRevision ∧
      (raw = .str "REQUESTED" ∧ (∃ reason, state = .terminal (.outcomeUnknown source reason)) ∨
        raw = .str state.name ∧ state.name ≠ "REQUESTED") := by
  unfold parseV2State at h
  split at h
  · cases h
    simp [JournalState.name, JournalState.sourceRevision]
  · cases h
    simp [JournalState.sourceRevision, TerminalState.sourceRevision]
  · split at h <;> cases h
    simp [JournalState.name, JournalState.sourceRevision, TerminalState.sourceRevision]
  · split at h <;> cases h
    simp [JournalState.name, JournalState.sourceRevision, TerminalState.sourceRevision]
  · split at h <;> cases h
    simp [JournalState.name, JournalState.sourceRevision, TerminalState.sourceRevision]
  · cases h

/-- A journal of the previous schema that is loaded, with the raw state it was loaded from. -/
lemma raw_of_parseJournal {migrated : Option Nat}
    (hversion : (Json.lookup "version" payload).equalsInt 2 = true)
    (h : parseJournal (.obj payload) = .ok (.loaded state enqueued attempt migrated)) :
    attempt = v2Attempt state.sourceRevision (Json.lookup "state" payload) ∧
      (Json.lookup "state" payload = .str "REQUESTED" ∧
          (∃ reason, state = .terminal (.outcomeUnknown state.sourceRevision reason)) ∨
        Json.lookup "state" payload = .str state.name ∧ state.name ≠ "REQUESTED") := by
  simp only [parseJournal, hversion, if_true, parseV2Journal, bind, Except.bind, pure,
    Except.pure] at h
  split at h
  · cases h
  · next source hsource =>
    by_cases hempty : source = ""
    · simp [hempty] at h
    · simp only [hempty, if_false] at h
      split at h
      · cases h
      · split at h
        · cases h
        · split at h
          · cases h
          · split at h
            · cases h
            · next state' hstate =>
              cases h
              obtain ⟨rfl, hraw⟩ := raw_of_parseV2State hstate
              exact ⟨rfl, hraw⟩

/-- A journal of the previous schema that was loaded is read back the same after it is rewritten,
unless it was a request, or active with an enqueued outcome. -/
lemma rewrite_iff {migrated : Option Nat}
    (hversion : (Json.lookup "version" payload).equalsInt 2 = true)
    (h : parseJournal (.obj payload) = .ok (.loaded state enqueued attempt migrated)) :
    (∃ version, parseJournal (journalPayload state enqueued (some attempt)) =
        .ok (.loaded state enqueued attempt version)) ↔
      Json.lookup "state" payload ≠ .str "REQUESTED" ∧
        (Json.lookup "state" payload = .str "RESERVED" → enqueued = false) := by
  obtain ⟨hattempt, hraw⟩ := raw_of_parseJournal hversion h
  have hread := @parseJournal_journalPayload_iff state attempt enqueued
  simp only [parseJournal, hversion, if_true] at h
  obtain ⟨-, hnamed, hmigrated⟩ := migrated_of_parseV2Journal h
  constructor
  · rintro ⟨version, hversion⟩
    have haccepted := accepted_of_parseJournal_journalPayload hversion
    obtain ⟨-, henqueued, -⟩ := eq_of_parseJournal_journalPayload hversion
    constructor
    · intro hrequested
      have hcap := (rotationAttemptIsValid_iff.1 haccepted.valid).1.cap
      rw [hattempt, hrequested] at hcap
      simp [v2Attempt, Json.equalsStr, totalDispatchCap] at hcap
    · intro hreserved
      have hname : state.name = "RESERVED" := by
        rcases hraw with ⟨hraw, -⟩ | ⟨hraw, -⟩
        · rw [hreserved, Json.str.injEq] at hraw
          exact absurd hraw (by decide)
        · rw [hreserved, Json.str.injEq] at hraw
          exact hraw.symm
      cases state with
      | terminal t => cases t <;> simp [JournalState.name] at hname
      | _ => simpa [JournalState.terminal?] using henqueued
  · rintro ⟨hrequested, hreserved⟩
    rcases hraw with ⟨hraw, -⟩ | ⟨hraw, hname⟩
    · exact absurd hraw hrequested
    · have hcap : attempt.totalDispatchCap = totalDispatchCap := by
        simp [hattempt, v2Attempt, hraw, Json.equalsStr, hname, totalDispatchCap]
      have hflag : (state.terminal?.isSome && enqueued) = enqueued := by
        cases state with
        | reserved => simp [hreserved hraw]
        | requested => simp [JournalState.name] at hname
        | terminal => simp [JournalState.terminal?]
      rw [hflag] at hread
      exact ⟨none, hread.2 (hmigrated.accepted hnamed hcap)⟩

/-! ### No dispatch after the migration -/

/-- A record that is never continued: the unknown outcome of a revision, stopped for good. -/
def Halted (revision : String) (state : JournalState) (attempt : RotationAttempt) : Prop :=
  (∃ reason, state = .terminal (.outcomeUnknown revision reason)) ∧
    attempt.continuation = some .stop

/-- While a revision is stored the journal holds its halted record, and it does not come back. -/
structure World.Barred (revision : String) (w : World) : Prop where
  rotated : ∀ source header successor enqueued attempt,
    w.JournalHolds (.terminal (.rotated source header successor)) enqueued attempt →
    successor ≠ revision
  present : w.Current revision → w.journal ≠ none
  halted : w.Current revision → ∀ state enqueued attempt, w.JournalHolds state enqueued attempt →
    Halted revision state attempt
  dispatches : ∀ d ∈ w.dispatches, d.sourceRevision ≠ revision

namespace World.Barred

lemma sameRotation (h : w.Barred revision) (hsame : w.SameRotation w') : w'.Barred revision := by
  have hcurrent : w'.Current revision ↔ w.Current revision :=
    hsame.sameDispatches.sameSuccession.current
  constructor
  · intro source header successor enqueued attempt hjournal
    exact h.rotated _ _ _ _ _ (hsame.journalHolds.1 hjournal)
  · rw [hcurrent, hsame.journal]
    exact h.present
  · rw [hcurrent]
    intro hstored state enqueued attempt hjournal
    exact h.halted hstored _ _ _ (hsame.journalHolds.1 hjournal)
  · rw [hsame.dispatches]
    exact h.dispatches

/-- A journal is removed only when the revision is not stored. -/
lemma removeJournal (h : w.Barred revision) (hother : ¬ w.Current revision) :
    w.removeJournal.Barred revision := by
  have hcurrent : w.removeJournal.Current revision ↔ w.Current revision :=
    w.sameDispatches_removeJournal.sameSuccession.current
  constructor
  · rintro _ _ _ _ _ ⟨_, ⟨⟩, _⟩
  · rw [hcurrent]
    exact fun hstored => absurd hstored hother
  · rw [hcurrent]
    exact fun hstored => absurd hstored hother
  · exact h.dispatches

/-- A journal is replaced by a halted record, or while the revision is not stored. -/
lemma setJournal {clock : Option Datetime} (h : w.Barred revision)
    (hrotated : ∀ successor, state.successor? = some successor → successor ≠ revision)
    (hhalted : w.Current revision → Halted revision state attempt)
    (hrequested : state ≠ .requested revision) :
    (w.setJournal state enqueued attempt clock).Barred revision := by
  have hnew := w.journalHolds_setJournal state enqueued attempt clock
  have hcurrent : (w.setJournal state enqueued attempt clock).Current revision ↔
      w.Current revision := (w.sameSuccession_setJournal state enqueued attempt clock).current
  constructor
  · intro source header successor enqueued' attempt' hjournal
    apply hrotated
    rw [← (hjournal.unique hnew).1]
    rfl
  · intro _ hnone
    simp [World.setJournal] at hnone
  · rw [hcurrent]
    intro hstored state' enqueued' attempt' hjournal
    obtain ⟨rfl, rfl, -⟩ := hjournal.unique hnew
    exact hhalted hstored
  · intro d hd
    cases state with
    | requested source =>
      rcases List.mem_append.1 hd with hd | hd
      · exact h.dispatches d hd
      · rw [List.mem_singleton.1 hd]
        intro heq
        exact hrequested (by rw [← heq])
    | _ => exact h.dispatches d hd

/-- Another revision is stored. -/
lemma setCredential {auth : StoredAuth} {cause : WriteCause} (h : w.Barred revision)
    (hother : auth.revision ≠ revision) : (w.setCredential auth cause).Barred revision := by
  have hgone : ¬ (w.setCredential auth cause).Current revision := fun hstored =>
    hother (World.current_setCredential.1 hstored).symm
  exact ⟨h.rotated, fun hstored => absurd hstored hgone, fun hstored => absurd hstored hgone,
    h.dispatches⟩

lemma recordStep {t : TerminalState} (h : w.Barred revision)
    (hstep : RecordStep t attempt (World.Pending t attempt) w w') : w'.Barred revision := by
  cases hstep with
  | outbox hstep => exact h.sameRotation hstep.sameRotation
  | mark clock hpending =>
    refine h.setJournal ?_ (fun hstored => h.halted hstored _ _ _ hpending) (by simp)
    intro successor hsuccessor
    cases t with
    | rotated source header successor' =>
      cases hsuccessor
      exact h.rotated _ _ _ _ _ hpending
    | _ => cases hsuccessor
  | delete hjournal hprojected hsome =>
    apply h.removeJournal
    intro hstored
    obtain ⟨⟨reason, hstate⟩, -⟩ := h.halted hstored _ _ _ hjournal
    cases hstate
    cases hsome

/-- A recovery neither dispatches the revision nor drops its halted record. -/
lemma recoveryStep (h : w.Barred revision) (hstep : RecoveryStep env start w w') :
    w'.Barred revision := by
  cases hstep with
  | outbox hstep => exact h.sameRotation hstep.sameRotation
  | record hstep => exact h.recordStep hstep
  | discard hheld hjournal hother =>
    apply h.removeJournal
    intro hstored
    obtain ⟨⟨reason, rfl⟩, -⟩ := h.halted hstored _ _ _ hjournal
    exact hother (hstored.unique hheld.current)
  | dropReserved hheld hjournal =>
    apply h.removeJournal
    intro hstored
    obtain ⟨⟨reason, hstate⟩, -⟩ := h.halted hstored _ _ _ hjournal
    cases hstate
  | abandon clock hheld hjournal =>
    refine h.setJournal (by simp [JournalState.successor?]) (fun hstored => ?_) (by simp)
    obtain ⟨⟨reason, hstate⟩, -⟩ := h.halted hstored _ _ _ hjournal
    cases hstate
  | project hheld hjournal hsuccessor =>
    apply h.setCredential
    rw [hsuccessor]
    exact h.rotated _ _ _ _ _ hjournal
  | @reserve current origin _ _ reading hheld hauthorised hawaits =>
    refine h.setJournal (by simp [JournalState.successor?]) (fun hstored => ?_) (by simp)
    cases origin with
    | none => exact absurd hawaits (h.present hstored)
    | some found =>
      -- a stopped record authorizes no dispatch
      obtain ⟨-, hstop⟩ := h.halted hstored _ _ _ hawaits
      cases hauthorised with
      | recovery hfound hnext =>
        obtain ⟨lane, hlane, -⟩ := nextRecoveryAttemptAt_eq_some hnext
        rw [hstop] at hlane
        cases hlane
  | request hheld hauthorised hjournal =>
    have hother : ¬ w.Current revision := by
      intro hstored
      obtain ⟨⟨reason, hstate⟩, -⟩ := h.halted hstored _ _ _ hjournal
      cases hstate
    refine h.setJournal (by simp [JournalState.successor?]) (fun hstored => absurd hstored hother)
      ?_
    rintro ⟨⟩
    exact hother hheld.current
  | stop clock hheld =>
    refine h.setJournal (by simp [JournalState.successor?]) (fun hstored => ?_) (by simp)
    rw [hstored.unique hheld.current]
    exact ⟨⟨_, rfl⟩, rfl⟩

/-- A commit of another revision that ends in another one. -/
lemma commitStep {source : String} {allowed : TerminalState → Prop} (hsource : source ≠ revision)
    (hallowed : ∀ t, allowed t → ∀ successor, t.successor? = some successor →
      successor ≠ revision) (h : w.Barred revision)
    (hstep : CommitStep env start source allowed w w') : w'.Barred revision := by
  cases hstep with
  | record _ hstep => exact h.recordStep hstep
  | terminal clock ht hheld hcurrent =>
    refine h.setJournal (hallowed _ ht) (fun hstored => ?_) (by simp)
    exact absurd (hcurrent ▸ hheld.current.unique hstored) hsource
  | project _ hheld _ hjournal hsuccessor =>
    apply h.setCredential
    rw [hsuccessor]
    exact h.rotated _ _ _ _ _ hjournal

end World.Barred

/-- The calls of refresh and startup recovery, and crashes. -/
def Label.Recovering : Label → Prop
  | .importCredential .. | .projectRetained .. => False
  | _ => True

/-- The revision is known, none of its exchanges runs, and none will. -/
structure Sys.Barred (revision : String) (s : Sys) : Prop where
  world : s.world.Barred revision
  sources : ∀ e ∈ s.exchanges, e.source.revision ≠ revision
  posts : ∀ d ∈ s.posts, d.sourceRevision ≠ revision
  known : revision ∈ s.known

lemma Moved.barred {s : Sys} {l : Label} (hmoved : Moved codec s l w) (h : s.Barred revision)
    (hrecovering : l.Recovering) (hfresh : s.Fresh l) : w.Barred revision := by
  cases hmoved with
  | prepared hmoves =>
    exact keeps_of_moves h.world hmoves fun _ _ hv hstep => hv.recoveryStep hstep
  | returned => exact h.world
  | @committed index env _ source result hget hmoves =>
    refine keeps_of_moves h.world hmoves fun _ _ hv hstep => hv.commitStep ?_ ?_ hstep
    · exact h.sources _ (List.mem_of_getElem? hget)
    · intro t ht successor hsuccessor
      rw [ht.names.2 successor hsuccessor]
      rintro rfl
      exact hfresh h.known
  | recovered hmoves =>
    exact keeps_of_moves h.world hmoves fun _ _ hv hstep => hv.recoveryStep hstep.recovery
  | imported => exact absurd hrecovering not_false
  | projected => exact absurd hrecovering not_false
  | crashed => exact h.world

lemma Sys.Barred.kill {s : Sys} (h : s.Barred revision) (owner : RefreshOwner) :
    (s.kill owner).Barred revision :=
  ⟨h.world, fun e he => h.sources e (List.mem_filter.1 he).1, h.posts, h.known⟩

lemma Sys.Barred.step {s s' : Sys} {l : Label} (h : s.Barred revision)
    (hrecovering : l.Recovering) (hfresh : s.Fresh l) (hstep : Sys.step codec s l = some s') :
    s'.Barred revision := by
  have hmoved := (Sys.step_moved hstep).barred h hrecovering hfresh
  obtain ⟨t, ht, hend⟩ := Sys.step_cases hstep
  have hworld : t.world.Barred revision := by rcases hend with rfl | ⟨_, -, rfl⟩ <;> exact hmoved
  suffices t.Barred revision by
    rcases hend with rfl | ⟨owner, -, rfl⟩
    · exact this
    · exact this.kill owner
  cases ht with
  | prepared => exact ⟨hworld, h.sources, h.posts, h.known⟩
  | dispatched clock hlive hmoves hdispatched =>
    refine ⟨hworld, ?_, ?_, h.known⟩
    · intro e he
      rcases List.mem_append.1 he with he | he
      · exact h.sources e he
      · rw [List.mem_singleton.1 he]
        intro heq
        obtain ⟨_, hjournal, -⟩ := hdispatched.journal
        obtain ⟨⟨reason, hstate⟩, -⟩ :=
          hworld.halted (heq ▸ hdispatched.holds.current) _ _ _ hjournal
        cases hstate
    · intro d hd
      rcases List.mem_append.1 hd with hd | hd
      · exact h.posts d hd
      · exact hworld.dispatches d (List.mem_of_getLast? (Option.mem_toList.1 hd))
  | returned hget =>
    refine ⟨hworld, ?_, h.posts, h.known⟩
    intro e he
    rcases List.mem_or_eq_of_mem_set he with he | rfl
    · exact h.sources e he
    · have hsource := h.sources _ (List.mem_of_getElem? hget)
      exact hsource
  | committed =>
    exact ⟨hworld, fun e he => h.sources e (List.mem_of_mem_eraseIdx he), h.posts,
      List.mem_cons_of_mem _ h.known⟩
  | kept =>
    exact ⟨hworld, fun e he => h.sources e (List.mem_of_mem_eraseIdx he), h.posts,
      List.mem_cons_of_mem _ h.known⟩
  | recovered => exact ⟨hworld, h.sources, h.posts, h.known⟩
  | imported => exact absurd hrecovering not_false
  | projected => exact absurd hrecovering not_false
  | crashed => exact h

/-! ### Migration -/

/-- An upgraded installation: its journal is of the previous schema and about a known revision, and
the current version has done nothing yet. -/
structure Sys.Upgraded (payload : List (String × Json)) (revision : String) (s : Sys) : Prop where
  journal : s.world.journal = some (.json (.obj payload))
  dispatches : s.world.dispatches = []
  exchanges : s.exchanges = []
  posts : s.posts = []
  known : revision ∈ s.known

/-- The raw state of a journal is that of an exchange whose outcome is not known. -/
def Inconclusive (payload : List (String × Json)) : Prop :=
  Json.lookup "state" payload = .str "REQUESTED" ∨
    Json.lookup "state" payload = .str "OUTCOME_UNKNOWN"

lemma Sys.Upgraded.barred {s : Sys} (h : s.Upgraded payload state.sourceRevision)
    {migrated : Option Nat} (hversion : (Json.lookup "version" payload).equalsInt 2 = true)
    (hload : parseJournal (.obj payload) = .ok (.loaded state enqueued attempt migrated))
    (hraw : Inconclusive payload) : s.Barred state.sourceRevision := by
  have hjournal : s.world.JournalHolds state enqueued attempt := ⟨_, h.journal, .inr ⟨_, hload⟩⟩
  obtain ⟨hattempt, hstate⟩ := raw_of_parseJournal hversion hload
  have hhalted : Halted state.sourceRevision state attempt := by
    constructor
    · rcases hstate with ⟨-, hstate⟩ | ⟨hname, hrequested⟩
      · exact hstate
      · rcases hraw with hraw | hraw <;> rw [hname, Json.str.injEq] at hraw
        · exact absurd hraw hrequested
        · rcases state with _ | _ | ⟨_ | _ | ⟨source, reason⟩⟩ <;>
            first | exact ⟨reason, rfl⟩ | simp [JournalState.name] at hraw
    · rcases hraw with hraw | hraw <;> simp [hattempt, v2Attempt, hraw, Json.equalsStr]
  refine ⟨⟨?_, ?_, ?_, ?_⟩, ?_, ?_, h.known⟩
  · intro source header successor _ _ hrotated
    obtain ⟨⟨reason, hunknown⟩, -⟩ := hhalted
    rw [(hjournal.unique hrotated).1] at hunknown
    cases hunknown
  · simp [h.journal]
  · intro _ state' enqueued' attempt' hjournal'
    obtain ⟨rfl, rfl, -⟩ := hjournal.unique hjournal'
    exact hhalted
  · simp [h.dispatches]
  · simp [h.exchanges]
  · simp [h.posts]

/-- What a migration should achieve: the record survives being rewritten in the current schema, and
an exchange whose outcome was not known is never dispatched by refreshes and startup recoveries. -/
structure MigrationSound (payload : List (String × Json)) (state : JournalState) (enqueued : Bool)
    (attempt : RotationAttempt) : Prop where
  rewritten : ∃ version, parseJournal (journalPayload state enqueued (some attempt)) =
    .ok (.loaded state enqueued attempt version)
  undispatched : Inconclusive payload → ∀ (codec : CookieCodec) (s₀ s : Sys) (ls : List Label),
    s₀.Upgraded payload state.sourceRevision →
    Path (Sys.step codec) (fun s l => s.Fresh l ∧ l.Recovering) s₀ ls s →
    (∀ d ∈ s.world.dispatches, d.sourceRevision ≠ state.sourceRevision) ∧
      ∀ d ∈ s.posts, d.sourceRevision ≠ state.sourceRevision

/-- A migration is sound unless the record was a request, or reserved with an enqueued outcome. -/
theorem migrationSound_iff {migrated : Option Nat}
    (hversion : (Json.lookup "version" payload).equalsInt 2 = true)
    (hload : parseJournal (.obj payload) = .ok (.loaded state enqueued attempt migrated)) :
    MigrationSound payload state enqueued attempt ↔
      Json.lookup "state" payload ≠ .str "REQUESTED" ∧
        (Json.lookup "state" payload = .str "RESERVED" → enqueued = false) := by
  rw [← rewrite_iff hversion hload]
  constructor
  · exact MigrationSound.rewritten
  · intro hrewritten
    refine ⟨hrewritten, fun hraw codec s₀ s ls hupgraded hpath => ?_⟩
    have hbarred := hpath.invariant (hupgraded.barred hversion hload hraw)
      fun _ _ _ hs hok hstep => hs.step hok.2 hok.1 hstep
    exact ⟨hbarred.world.dispatches, hbarred.posts⟩

/-- The journal of an exchange that the previous version left in a state. -/
def v2Payload (raw : String) (reason : Json) : List (String × Json) :=
  [("version", .int 2), ("source_revision", .str "r0"), ("state", .str raw),
    ("replacement_cookie_header", .null), ("reason", reason), ("successor_revision", .null),
    ("outcome", .null), ("event_key", .null), ("outbox_enqueued", .bool false)]

theorem migrationSound_iff_unknown :
    MigrationSound (v2Payload "OUTCOME_UNKNOWN" (.str "lost"))
        (.terminal (.outcomeUnknown "r0" "lost")) false
        (v2Attempt "r0" (.str "OUTCOME_UNKNOWN")) ↔
      Json.lookup "state" (v2Payload "OUTCOME_UNKNOWN" (.str "lost")) ≠ .str "REQUESTED" ∧
        (Json.lookup "state" (v2Payload "OUTCOME_UNKNOWN" (.str "lost")) = .str "RESERVED" →
          false = false) :=
  migrationSound_iff rfl (show parseJournal _ = .ok (.loaded _ _ _ (some 2)) from rfl)

/-- The migration of a request is not sound: it is not read back after it is rewritten. -/
theorem not_migrationSound_requested :
    ¬ ∀ payload state enqueued attempt migrated,
      (Json.lookup "version" payload).equalsInt 2 = true →
      parseJournal (.obj payload) = .ok (.loaded state enqueued attempt migrated) →
      MigrationSound payload state enqueued attempt := by
  intro h
  obtain ⟨version, hread⟩ := (h (v2Payload "REQUESTED" .null)
    (.terminal (.outcomeUnknown "r0" "v2 in-flight refresh outcome is unknown")) false
    (v2Attempt "r0" (.str "REQUESTED")) (some 2) rfl rfl).rewritten
  have hvalid := (accepted_of_parseJournal_journalPayload hread).valid
  exact absurd hvalid (by decide)

end EnjiGuard.AuthSession
