import EnjiGuard.AuthSession.Coordinator.Preparing

/-!
# Specifications of commits, projections and imports

A commit moves the files along `CommitStep`, whatever the exchange ended in; when it hands a
successor to its caller, that successor is the one it generated for its source. Projections and
imports move the files along steps of their own.
-/

namespace EnjiGuard.AuthSession

open Foundation Action Relation

variable {env : Env} {start : World} {r : Run} {R : World → World → Prop}

/-! ### Parts that leave the files alone -/

/-- Two runs agree on everything the specifications of a commit speak of. -/
structure Run.Untouched (r r' : Run) : Prop where
  world : r'.world = r.world
  journalReads : r'.cursor.journalReads = r.cursor.journalReads
  minted : r'.cursor.minted = r.cursor.minted

lemma Run.Untouched.refl (r : Run) : r.Untouched r := ⟨rfl, rfl, rfl⟩

lemma Run.Untouched.trans {r r' r'' : Run} (h : r.Untouched r') (h' : r'.Untouched r'') :
    r.Untouched r'' := ⟨h'.1.trans h.1, h'.2.trans h.2, h'.3.trans h.3⟩

/-- A part that leaves the files alone and changes the run within a preorder. -/
def Within {α : Type} (S : Run → Run → Prop) (p : Auth α) : Prop :=
  ∀ r, Tracks Run.world (fun _ _ => False) p r (fun _ => S r) (fun _ => S r)

namespace Within

variable {α β : Type} {S S' : Run → Run → Prop}

lemma mono {p : Auth α} (hp : Within S p) (hS : ∀ r r', S r r' → S' r r') : Within S' p := fun r =>
  (hp r).weaken (fun _ _ h => hS _ _ h) fun _ _ h => hS _ _ h

lemma pure (hrefl : ∀ r, S r r) (a : α) : Within S (Pure.pure a : Auth α) := fun r =>
  Tracks.pure (hrefl r)

lemma raise (hrefl : ∀ r, S r r) (e : PyError) : Within S (Action.raise e : Auth α) := fun r =>
  Tracks.raise (hrefl r)

lemma ofExcept (hrefl : ∀ r, S r r) (x : Except PyError α) : Within S (Action.ofExcept x) :=
  fun r => Tracks.ofExcept (fun _ _ => hrefl r) fun _ _ => hrefl r

lemma bind (htrans : ∀ r r' r'', S r r' → S r' r'' → S r r'') {p : Auth α} {f : α → Auth β}
    (hp : Within S p) (hf : ∀ a, Within S (f a)) : Within S (p >>= f) := fun r =>
  (hp r).bind fun a r' _ h =>
    (hf a r').weaken (fun _ _ h' => htrans _ _ _ h h') fun _ _ h' => htrans _ _ _ h h'

lemma tryCatch (htrans : ∀ r r' r'', S r r' → S r' r'' → S r r'') {p : Auth α}
    {f : PyError → Auth α} (hp : Within S p) (hf : ∀ e, Within S (f e)) :
    Within S (Action.tryCatch p f) := fun r =>
  (hp r).tryCatch fun e r' _ h =>
    (hf e r').weaken (fun _ _ h' => htrans _ _ _ h h') fun _ _ h' => htrans _ _ _ h h'

end Within

/-- A part that leaves the files alone, and whose errors do not matter. -/
def Leaves {α : Type} (p : Auth α) : Prop :=
  ∀ r, Tracks Run.world (fun _ _ => False) p r (fun _ => r.Untouched) (fun _ => r.Untouched)

namespace Leaves

variable {α β : Type}

lemma pure (a : α) : Leaves (Pure.pure a : Auth α) := Within.pure Run.Untouched.refl a

lemma bind {p : Auth α} {f : α → Auth β} (hp : Leaves p) (hf : ∀ a, Leaves (f a)) :
    Leaves (p >>= f) :=
  Within.bind (S := Run.Untouched) (fun _ _ _ h h' => h.trans h') hp hf

lemma ofExcept (x : Except PyError α) : Leaves (Action.ofExcept x) :=
  Within.ofExcept Run.Untouched.refl x

lemma wallNow (env : Env) : Leaves (wallNow env) := fun _ =>
  ⟨.refl, by rintro _ -; exact ⟨rfl, rfl, rfl⟩, by rintro _ ⟨⟩⟩

lemma nowFn (env : Env) : Leaves (nowFn env) := fun _ =>
  ⟨.refl, by rintro _ -; exact ⟨rfl, rfl, rfl⟩, by rintro _ ⟨⟩⟩

/-- Such a part fits in front of any other. -/
lemma then_ {p : Auth α} {f : α → Auth β} {Q : β → Run → Prop} {E : PyError → Run → Prop}
    (hp : Leaves p) (hf : ∀ a r', r.Untouched r' → Tracks Run.world R (f a) r' Q E)
    (hE : ∀ e r', r.Untouched r' → E e r') : Tracks Run.world R (p >>= f) r Q E :=
  (((hp r).mono fun _ _ h => h.elim).weaken (fun _ _ h => h) hE).bind
    fun a r' _ h => hf a r' h

end Leaves

lemma leaves_readText (env : Env) (file : ReadSite) (hfile : file ≠ .journal) :
    Leaves (readText env file) := by
  intro r
  rcases h : env.readFault file (r.cursor.reads file) with _ | detail
  all_goals
    refine ⟨?_, ?_, ?_⟩ <;> simp only [readText, h]
  all_goals cases file <;> first | exact absurd rfl hfile | skip
  all_goals first
    | exact .refl
    | (rintro _ ⟨⟩; exact ⟨rfl, rfl, rfl⟩)
    | rintro _ ⟨⟩

lemma leaves_loadAuth (env : Env) : Leaves (loadAuth env) :=
  (leaves_readText env .credential (by decide)).bind fun text => by
    cases text with
    | error detail => exact .pure _
    | ok text => exact (Leaves.wallNow env).bind fun _ => .ofExcept _

lemma leaves_currentOrRaise (env : Env) : Leaves (currentOrRaise env) :=
  (leaves_loadAuth env).bind fun _ => .ofExcept _

variable {codec : CookieCodec}

/-- Two runs differ in the readings of the wall clock only. -/
def Run.Idle (r r' : Run) : Prop :=
  r' = { r with cursor := { r.cursor with wall := r'.cursor.wall } }

lemma Run.Idle.refl (r : Run) : r.Idle r := rfl

lemma Run.Idle.trans {r r' r'' : Run} (h : r.Idle r') (h' : r'.Idle r'') : r.Idle r'' := by
  rw [Run.Idle] at h h' ⊢
  rw [h', h]

lemma Run.Idle.untouched {r r' : Run} (h : r.Idle r') : r.Untouched r' := by
  rw [Run.Idle] at h
  rw [h]
  exact ⟨rfl, rfl, rfl⟩

/-- A part that only looks at the wall clock. -/
abbrev Idles {α : Type} (p : Auth α) : Prop := Within Run.Idle p

namespace Idles

variable {α β : Type}

lemma pure (a : α) : Idles (Pure.pure a : Auth α) := Within.pure Run.Idle.refl a

lemma raise (e : PyError) : Idles (Action.raise e : Auth α) := Within.raise Run.Idle.refl e

lemma bind {p : Auth α} {f : α → Auth β} (hp : Idles p) (hf : ∀ a, Idles (f a)) :
    Idles (p >>= f) :=
  Within.bind (S := Run.Idle) (fun _ _ _ h h' => h.trans h') hp hf

lemma tryCatch {p : Auth α} {f : PyError → Auth α} (hp : Idles p) (hf : ∀ e, Idles (f e)) :
    Idles (Action.tryCatch p f) :=
  Within.tryCatch (S := Run.Idle) (fun _ _ _ h h' => h.trans h') hp hf

lemma wallNow (env : Env) : Idles (wallNow env) := fun _ =>
  ⟨.refl, by rintro _ -; rfl, by rintro _ ⟨⟩⟩

end Idles

lemma idles_loadCookie (jar : CookieJar) (header : String) :
    Idles (loadCookie codec jar header) := by
  rcases h : codec.load jar header with _ | jar' <;> simp only [loadCookie, h]
  · exact .raise _
  · exact .pure _

lemma idles_setCookieNames (jar : CookieJar) (headers : List String) :
    Idles (setCookieNames codec jar headers) := by
  induction headers generalizing jar with
  | nil => exact .pure _
  | cons header headers ih => exact (idles_loadCookie jar header).bind fun jar => ih jar

lemma idles_morselDeletesCookie (env : Env) (morsel : Morsel) :
    Idles (morselDeletesCookie codec env morsel) := by
  unfold morselDeletesCookie
  split_ifs
  · exact .pure _
  · exact .pure _
  · split
    · exact .pure _
    · exact .raise _
    · exact (Idles.wallNow env).bind fun _ => .pure _

lemma idles_isPersistableAuthCookieUpdate (env : Env) (name : String) (morsel : Morsel) :
    Idles (isPersistableAuthCookieUpdate codec env name morsel) := by
  unfold isPersistableAuthCookieUpdate
  split_ifs
  · exact .pure _
  · exact .pure _
  · exact (idles_morselDeletesCookie env morsel).bind fun _ => .pure _

lemma idles_applyUpdates (env : Env) (cookie updates : CookieJar) :
    Idles (applyUpdates codec env cookie updates) := by
  induction updates generalizing cookie with
  | nil => exact .pure _
  | cons update updates ih =>
    refine (idles_isPersistableAuthCookieUpdate env update.1 update.2).bind fun persistable => ?_
    cases persistable with
    | false => exact .raise _
    | true => exact ih _

lemma idles_applyHeaders (env : Env) (cookie : CookieJar) (headers : List String) :
    Idles (applyHeaders codec env cookie headers) := by
  induction headers generalizing cookie with
  | nil => exact .pure _
  | cons header headers ih =>
    exact (idles_loadCookie [] header).bind fun updated =>
      (idles_applyUpdates env cookie updated).bind fun cookie => ih cookie

lemma idles_mergeSetCookieHeaders (env : Env) (header : String) (headers : List String) :
    Idles (mergeSetCookieHeaders codec env header headers) :=
  (idles_loadCookie [] header).bind fun cookie =>
    (idles_applyHeaders env cookie headers).bind fun cookie => by
      unfold authCookieHeader
      split
      · exact .raise _
      · exact .pure _

/-- Extracting the successor of a response. -/
lemma idles_successfulReplacement (env : Env) (source : StoredAuth)
    (response : EnjiHttpResponse) : Idles (successfulReplacement codec env source response) := by
  unfold successfulReplacement
  split_ifs
  · exact .pure _
  · split
    · exact .pure _
    · refine .tryCatch ((idles_setCookieNames [] _).bind fun names => ?_) fun e => ?_
      · split_ifs
        · exact (idles_mergeSetCookieHeaders env _ _).bind fun _ => .pure _
        · exact .pure _
      · split_ifs
        · exact .pure _
        · exact .raise _

lemma leaves_successfulReplacement (env : Env) (source : StoredAuth)
    (response : EnjiHttpResponse) : Leaves (successfulReplacement codec env source response) :=
  (idles_successfulReplacement env source response).mono fun _ _ h => h.untouched

/-- Diagnostics. -/
lemma leaves_emitRefreshObservation (env : Env) (source : StoredAuth)
    (response : Option EnjiHttpResponse) (header : Option String) :
    Leaves (emitRefreshObservation codec env source response header) := by
  simp only [emitRefreshObservation, deliverEvent_eq]
  split_ifs
  · exact .pure _
  · refine .bind ?_ fun _ => ?_
    · exact (leaves_readText env .observation (by decide)).bind fun text => by
        cases text with
        | error detail => exact .pure _
        | ok text => exact .ofExcept _
    · have hfields : Leaves (do
          let now ← nowFn env
          let _ ← Action.ofExcept (refreshDiagnosticFields codec source header now)
          return ()) :=
        (Leaves.nowFn env).bind fun _ => (Leaves.ofExcept _).bind fun _ => .pure _
      cases response with
      | none => exact hfields
      | some response => exact (Leaves.ofExcept _).bind fun _ => hfields

/-! ### The parts of a commit -/

/-- The files are as at the start of the section, and its journal was not read yet. -/
structure Untold (start : World) (r : Run) : Prop where
  world : r.world = start
  journalReads : r.cursor.journalReads = 0

lemma Untold.untouched {r' : Run} (h : Untold start r) (h' : r.Untouched r') : Untold start r' :=
  ⟨h'.world.trans h.world, h'.journalReads.trans h.journalReads⟩

lemma Untold.same {r' : Run} (h : Untold start r) (h' : r.Same r') : Untold start r' :=
  ⟨h'.world.trans h.world, h'.journalReads.trans h.journalReads⟩

/-- A revision that is not superseded is the stored one. -/
lemma tracks_isSuperseded {source : String} (huntold : Untold start r) :
    Tracks Run.world R (isSuperseded env source) r
      (fun superseded r' => Untold start r' ∧ (superseded = false →
        ∃ current, start.Holds current ∧ current.revision = source))
      (fun _ _ => True) := by
  refine ((tracks_loadAuth env r).weaken (fun _ _ h => h) fun _ _ _ => trivial).bind
    fun loaded r₁ _ h₁ => Tracks.pure ?_
  obtain ⟨hsame, hloaded⟩ := h₁
  refine ⟨huntold.same hsame, fun hsuperseded => ?_⟩
  cases loaded with
  | loaded auth =>
    exact ⟨auth, huntold.world ▸ hloaded auth rfl, by simpa [isSupersededResult] using hsuperseded⟩
  | _ => cases hsuperseded

/-- The attempt of the exchange is looked up in the journal. -/
lemma tracks_attemptForSource {source : String} (huntold : Untold start r) :
    Tracks Run.world R (attemptForSource env source) r
      (fun attempt r' => r'.world = start ∧ LookedUp env start source attempt)
      (fun _ _ => True) := by
  refine ((tracks_loadJournal env r).weaken (fun _ _ h => h) fun _ _ _ => trivial).bind
    fun loaded r₁ _ h₁ => Tracks.pure ?_
  obtain ⟨hread, hloaded, -, hjournal⟩ := h₁
  rw [huntold.journalReads] at hjournal
  rw [huntold.world] at hloaded hjournal
  refine ⟨hread.world.trans huntold.world, ?_⟩
  have hfallback : (∀ state enqueued attempt migrated,
      loaded = .loaded state enqueued attempt migrated → state.sourceRevision ≠ source) →
      LookedUp env start source
        { rotationId := source, attemptKind := .normal, dispatchCount := 1 } := by
    refine fun hother => .fallback fun state enqueued attempt migrated hfault hload => ?_
    exact hother state enqueued attempt migrated
      (Except.ok.inj ((hjournal hfault).symm.trans hload))
  rcases loaded with _ | _ | _ | ⟨state, enqueued, attempt, migrated⟩
  · exact hfallback (by rintro _ _ _ _ ⟨⟩)
  · exact hfallback (by rintro _ _ _ _ ⟨⟩)
  · exact hfallback (by rintro _ _ _ _ ⟨⟩)
  · by_cases hsource : state.sourceRevision = source
    · simp only [attemptOfJournal, if_pos hsource]
      exact .found (hloaded _ _ _ _ rfl) hsource
    · simp only [attemptOfJournal, if_neg hsource]
      exact hfallback (by rintro _ _ _ _ ⟨⟩; exact hsource)

variable {source successor header : String} {allowed : TerminalState → Prop}

/-- Writing the terminal state of an exchange. -/
lemma tracks_writeTerminal {t : TerminalState} {current : StoredAuth}
    {held attempt : RotationAttempt} (hworld : r.world = start) (hallowed : allowed t)
    (hheld : start.Holds current) (hcurrent : current.revision = source)
    (hsource : t.sourceRevision = source) (hlooked : LookedUp env start source held)
    (hattempt : Committed held t attempt) :
    Tracks Run.world (CommitStep env start source allowed)
      (writeJournal env (.terminal t) false attempt) r
      (fun _ r' => r'.world.Pending t attempt ∧ start.SameDispatches r'.world)
      (fun _ _ => True) := by
  subst hworld
  refine (tracks_writeJournal env (.terminal _ hallowed hheld hcurrent hsource rfl hlooked
    hattempt)).weaken (fun _ r' h => ?_) fun _ _ _ => trivial
  rw [h.world]
  exact ⟨World.journalHolds_setJournal _ _ _ _ _, World.sameDispatches_setTerminal _ _ _ _ _⟩

/-- Recording the terminal state of an exchange. -/
lemma tracks_recordCommitted {t : TerminalState} {attempt : RotationAttempt}
    (hallowed : allowed t) (hpending : r.world.Pending t attempt)
    (hprojected : r.world.Projected t) :
    Tracks Run.world (CommitStep env start source allowed)
      (recordTerminalOutcome env t attempt false) r (fun _ _ => True) (fun _ _ => True) :=
  ((tracks_recordTerminalOutcome (World.Pending t attempt)
    (fun _ _ h => World.Pending.of_sameRotation h) (fun _ => hpending) (by rintro ⟨⟩)
    hprojected).mono fun _ _ h => .record hallowed h).weaken (fun _ _ _ => trivial)
      fun _ _ _ => trivial

/-- Journaling a rotation and projecting it, before whatever follows. -/
lemma tracks_projectRotated {α : Type} {current : StoredAuth} {held : RotationAttempt}
    {k : CasResult → Auth α} (hallowed : allowed (.rotated source header successor))
    (hworld : r.world = start) (hheld : start.Holds current)
    (hcurrent : current.revision = source) (hlooked : LookedUp env start source held)
    (hk : ∀ result r', (∀ auth, result = .written auth →
        r'.world.Pending (.rotated source header successor) (withoutOwner held) ∧
        r'.world.Projected (.rotated source header successor)) →
      Tracks Run.world (CommitStep env start source allowed) (k result) r' (fun _ _ => True)
        (fun _ _ => True)) :
    Tracks Run.world (CommitStep env start source allowed)
      (do
        writeJournal env (.terminal (.rotated source header successor)) false (withoutOwner held)
        let result ← casReplaceCookie env source header successor
        k result) r (fun _ _ => True) (fun _ _ => True) := by
  refine (tracks_writeTerminal hworld hallowed hheld hcurrent rfl hlooked
    (.rotated source header successor)).bind fun _ r₁ _ h₁ => ?_
  obtain ⟨hpending, hsame⟩ := h₁
  refine ((tracks_casReplaceCookie ?_).weaken (fun _ _ h => h) fun _ _ _ => trivial).bind
    fun result r₂ _ h₂ => hk result r₂ ?_
  · intro stored auth hstored hsource hrevision hcookie
    exact .project hallowed hstored hsource hpending hrevision hcookie
  · rintro auth rfl
    obtain ⟨hrevision, -, -, hreplaced⟩ := h₂
    rw [hreplaced.world]
    refine ⟨hpending, ?_⟩
    rintro _ ⟨⟩
    exact ⟨auth, World.holds_setCredential _ _ _, hrevision⟩

/-! ### Commits -/

/-- Committing a successor. -/
lemma tracks_commitSuccessor (huntold : Untold start r)
    (hallowed : allowed (.rotated source header successor)) :
    Tracks Run.world (CommitStep env start source allowed)
      (commitSuccessor env source header successor) r (fun _ _ => True) (fun _ _ => True) := by
  refine tracks_withAuthFileLock (fun r₁ h₁ => ?_) (fun _ _ _ => trivial)
    (fun _ _ _ _ _ => trivial) (fun _ _ _ _ _ _ => trivial) fun _ _ _ _ _ _ => trivial
  refine (tracks_isSuperseded (huntold.same h₁)).bind fun superseded r₂ _ h₂ => ?_
  obtain ⟨huntold₂, hstored⟩ := h₂
  have hcurrent : ∀ r', Tracks Run.world (CommitStep env start source allowed)
      (currentOrRaise env) r' (fun _ _ => True) (fun _ _ => True) := fun r' =>
    ((leaves_currentOrRaise env r').mono fun _ _ h => h.elim).weaken (fun _ _ _ => trivial)
      fun _ _ _ => trivial
  cases superseded with
  | true => exact hcurrent r₂
  | false =>
    obtain ⟨current, hheld, hsource⟩ := hstored rfl
    refine (tracks_attemptForSource huntold₂).bind fun found r₃ _ h₃ => ?_
    obtain ⟨hworld₃, hlooked⟩ := h₃
    refine tracks_projectRotated hallowed hworld₃ hheld hsource hlooked fun result r₄ hwritten => ?_
    cases result with
    | written auth =>
      obtain ⟨hpending, hprojected⟩ := hwritten auth rfl
      exact (tracks_recordCommitted hallowed hpending hprojected).bind
        fun _ _ _ _ => Tracks.pure trivial
    | superseded _ => exact hcurrent r₄

/-- A part of a commit that hands no successor to its caller. -/
lemma Tracks.plain {α : Type} {p : Auth α} {Q : α → Run → Prop} {E : CommitError → Run → Prop}
    (hp : Tracks Run.world R p r Q (fun _ _ => True)) (hE : ∀ e r', E (.plain e) r') :
    Tracks Run.world R (Auth.plain p) r Q E :=
  hp.tryCatch fun _ _ _ _ => Tracks.raise (hE _ _)

lemma Leaves.plain {α β : Type} {p : Auth α} {f : α → Commit β} {Q : β → Run → Prop}
    {E : CommitError → Run → Prop} (hp : Leaves p)
    (hf : ∀ a r', r.Untouched r' → Tracks Run.world R (f a) r' Q E)
    (hE : ∀ e r', E (.plain e) r') : Tracks Run.world R (Auth.plain p >>= f) r Q E :=
  (Tracks.plain (((hp r).mono fun _ _ h => h.elim).weaken (fun _ _ h => h) fun _ _ _ => trivial)
    hE).bind fun a r' _ h => hf a r' h

/-- A commit that allows more. -/
lemma CommitStep.mono {allowed' : TerminalState → Prop} {w w' : World}
    (hallowed : ∀ t, allowed t → allowed' t) (h : CommitStep env start source allowed w w') :
    CommitStep env start source allowed' w w' := by
  cases h with
  | record ht h => exact .record (hallowed _ ht) h
  | terminal clock ht hheld hcurrent hsource hjournal hlooked hattempt =>
    exact .terminal clock (hallowed _ ht) hheld hcurrent hsource hjournal hlooked hattempt
  | project ht hheld hcurrent hjournal hrevision hcookie =>
    exact .project (hallowed _ ht) hheld hcurrent hjournal hrevision hcookie

lemma Rotates.names {t : TerminalState} (h : Rotates source successor t) :
    Names source successor t := by
  obtain ⟨header, rfl⟩ := h
  exact ⟨rfl, by rintro _ ⟨⟩; rfl⟩

/-- A successor that a commit hands to its caller is the one it generated for its source, and the
commit did nothing but rotate to it. -/
def HandsOver (env : Env) (start : World) (source : String) (e : CommitError) (w : World) :
    Prop :=
  ∀ retained, e = .postDispatchPersistence retained →
    retained.sourceRevision = source ∧ retained.auth.revision = env.minted 0 ∧
      ReflTransGen (CommitStep env start source (Rotates source (env.minted 0))) start w

lemma handsOver_plain (env : Env) (start : World) (source : String) (e : PyError) (w : World) :
    HandsOver env start source (.plain e) w := by
  rintro _ ⟨⟩

/-- Committing a successor, or handing it over. -/
lemma tracks_commitSuccess {auth : StoredAuth} {response : EnjiHttpResponse}
    (huntold : Untold start r) (hminted : r.cursor.minted = 0) :
    Tracks Run.world
      (CommitStep env start auth.revision (Rotates auth.revision (env.minted 0)))
      (commitSuccess codec env auth header response) r (fun _ _ => True)
      (fun e r' => HandsOver env start auth.revision e r'.world) := by
  have hplain : ∀ e (r' : Run), HandsOver env start auth.revision (.plain e) r'.world :=
    fun e r' => handsOver_plain _ _ _ e _
  refine (Tracks.plain (tracks_mintRevision env r (E := fun _ _ => True)) hplain).bind
    fun successor r₁ _ h₁ => ?_
  obtain ⟨hsame₁, rfl⟩ := h₁
  rw [hminted]
  have htransition : transitionOrRaise (.journaled (.requested auth.revision))
      (.exchangeSucceeded header (env.minted 0)) =
      pure (.journaled (.terminal (.rotated auth.revision header (env.minted 0)))) := rfl
  rw [htransition]
  refine (Tracks.plain (Tracks.pure (Q := fun state r' =>
    state = .journaled (.terminal (.rotated auth.revision header (env.minted 0))) ∧ r' = r₁)
    ⟨rfl, rfl⟩) hplain).bind fun state r₂ _ h₂ => ?_
  obtain ⟨rfl, rfl⟩ := h₂
  refine (leaves_emitRefreshObservation env auth (some response) (some header)).plain
    (fun _ r₃ h₃ => ?_) hplain
  refine (Tracks.plain ((tracks_storedAuth env auth.baseUrl (.cookie header) (env.minted 0)
    r₃).weaken (fun _ _ h => h) fun _ _ h => h) hplain).bind fun stored r₄ _ h₄ => ?_
  obtain ⟨hsame₄, k, rfl⟩ := h₄
  have huntold₄ := ((huntold.same hsame₁).untouched h₃).same hsame₄
  refine (tracks_commitSuccessor huntold₄ ⟨header, rfl⟩).tryCatch fun e r₅ hmoves _ => ?_
  split_ifs
  · refine Tracks.raise ?_
    rintro _ ⟨⟩
    exact ⟨rfl, rfl, huntold₄.world ▸ hmoves⟩
  · exact Tracks.raise (hplain e r₅)

/-- Committing a rejection. -/
lemma tracks_commitRejected {reason : String} (huntold : Untold start r)
    (hallowed : allowed (.rejected source reason)) :
    Tracks Run.world (CommitStep env start source allowed) (commitRejected env source reason) r
      (fun _ _ => True) (fun _ _ => True) := by
  refine Tracks.bind (Q := fun _ _ => True) (tracks_withAuthFileLock (fun r₁ h₁ => ?_)
    (fun _ _ _ => trivial) (fun _ _ _ _ _ => trivial) (fun _ _ _ _ _ _ => trivial)
    fun _ _ _ _ _ _ => trivial) fun current r' _ _ => ?_
  · refine (tracks_isSuperseded (huntold.same h₁)).bind fun superseded r₂ _ h₂ => ?_
    obtain ⟨huntold₂, hstored⟩ := h₂
    cases superseded with
    | true =>
      exact (leaves_currentOrRaise env).then_ (fun _ _ _ => Tracks.pure trivial)
        fun _ _ _ => trivial
    | false =>
      obtain ⟨stored, hheld, hsource⟩ := hstored rfl
      refine (tracks_attemptForSource huntold₂).bind fun found r₃ _ h₃ => ?_
      obtain ⟨hworld₃, hlooked⟩ := h₃
      refine (tracks_writeTerminal hworld₃ hallowed hheld hsource rfl hlooked
        (.rejected source reason)).bind fun _ r₄ _ h₄ => ?_
      exact (tracks_recordCommitted hallowed h₄.1 (World.projected_of_none rfl)).bind
        fun _ _ _ _ => Tracks.pure trivial
  · cases current with
    | some current => exact Tracks.pure trivial
    | none => exact Tracks.raise trivial

/-- Committing an outcome that is not known. -/
lemma tracks_commitUnknown {auth : StoredAuth} {reason : String} {lane : RecoveryLane}
    {observation : Option EnjiHttpResponse} (huntold : Untold start r)
    (hallowed : allowed (.outcomeUnknown auth.revision reason)) :
    Tracks Run.world (CommitStep env start auth.revision allowed)
      (commitUnknown codec env auth reason lane observation) r
      (fun _ _ => True) (fun _ _ => True) := by
  refine Tracks.bind (Q := fun _ _ => True) (tracks_withAuthFileLock (fun r₁ h₁ => ?_)
    (fun _ _ _ => trivial) (fun _ _ _ _ _ => trivial) (fun _ _ _ _ _ _ => trivial)
    fun _ _ _ _ _ _ => trivial) fun result r' _ _ => ?_
  · refine (tracks_isSuperseded (huntold.same h₁)).bind fun superseded r₂ _ h₂ => ?_
    obtain ⟨huntold₂, hstored⟩ := h₂
    cases superseded with
    | true =>
      exact (leaves_currentOrRaise env).then_ (fun _ _ _ => Tracks.pure trivial)
        fun _ _ _ => trivial
    | false =>
      obtain ⟨stored, hheld, hsource⟩ := hstored rfl
      refine (tracks_attemptForSource huntold₂).bind fun found r₃ _ h₃ => ?_
      obtain ⟨hworld₃, hlooked⟩ := h₃
      refine Leaves.then_ ?_ (fun deadline r₄ h₄ => ?_) fun _ _ _ => trivial
      · exact (Leaves.nowFn env).bind fun _ => .ofExcept _
      refine (Leaves.nowFn env).then_ (fun now r₅ h₅ => ?_) fun _ _ _ => trivial
      refine (tracks_ofExcept _).bind fun scheduled r₆ _ h₆ => ?_
      obtain ⟨hscheduled, rfl⟩ := h₆
      refine (Leaves.ofExcept _).then_ (fun responseClass r₇ h₇ => ?_) fun _ _ _ => trivial
      have hworld₇ := h₇.world.trans (h₅.world.trans (h₄.world.trans hworld₃))
      refine (tracks_writeTerminal hworld₇ hallowed hheld hsource rfl hlooked
        (.unknown auth.revision reason responseClass hscheduled)).bind fun _ r₈ _ h₈ => ?_
      have hrecord : ∀ r₉, r₈.Untouched r₉ →
          Tracks Run.world (CommitStep env start auth.revision allowed)
            (do
              recordTerminalOutcome env (.outcomeUnknown auth.revision reason)
                { scheduled with responseClass := responseClass } false
              return Sum.inr { scheduled with responseClass := responseClass }.continuation) r₉
            (fun (_ : StoredAuth ⊕ Option Continuation) _ => True) (fun _ _ => True) :=
        fun r₉ h₉ => (tracks_recordCommitted hallowed
          (by rw [World.Pending, h₉.world]; exact h₈.1) (World.projected_of_none rfl)).bind
            fun _ _ _ _ => Tracks.pure trivial
      cases observation with
      | none => exact hrecord r₈ (.refl _)
      | some response =>
        exact (leaves_emitRefreshObservation env auth (some response) none).then_
          (fun _ r₉ h₉ => hrecord r₉ h₉) fun _ _ _ => trivial
  · rcases result with current | _ | _ | _
    · exact Tracks.pure trivial
    all_goals exact Tracks.raise trivial

/-- Committing a response. -/
lemma tracks_commitResponse {auth : StoredAuth} {response : EnjiHttpResponse}
    (hworld : r = Run.start start) :
    Tracks Run.world
      (CommitStep env start auth.revision (Outcomes codec env start auth (.response response)))
      (commitResponse codec env auth response) r (fun _ _ => True)
      (fun e r' => HandsOver env start auth.revision e r'.world) := by
  subst hworld
  have huntold : Untold start (Run.start start) := ⟨rfl, rfl⟩
  have hplain : ∀ e (r' : Run), HandsOver env start auth.revision (.plain e) r'.world :=
    fun e r' => handsOver_plain _ _ _ e _
  refine (Tracks.plain ((((leaves_successfulReplacement env auth response _).mono
    fun _ _ h => h.elim).evaluated).weaken (fun _ _ h => h) fun _ _ _ => trivial) hplain).bind
      fun replacement r₁ _ h₁ => ?_
  obtain ⟨huntouched, hvalue⟩ := h₁
  have huntold₁ := huntold.untouched huntouched
  cases replacement with
  | some header =>
    refine (tracks_commitSuccess huntold₁ huntouched.minted).mono fun _ _ h => h.mono fun t ht => ?_
    obtain ⟨header', rfl⟩ := ht
    exact ⟨Rotates.names ⟨header', rfl⟩, response, header, rfl, hvalue⟩
  | none =>
    refine Tracks.plain ?_ hplain
    refine (tracks_ofExcept _).bind fun continuation r₂ _ h₂ => ?_
    obtain ⟨hcontinuation, rfl⟩ := h₂
    cases continuation with
    | stop =>
      exact (leaves_emitRefreshObservation env auth (some response) none).then_
        (fun _ r₃ h₃ => tracks_commitRejected (huntold₁.untouched h₃)
          ⟨⟨rfl, by rintro _ ⟨⟩⟩, response, rfl, hcontinuation⟩) fun _ _ _ => trivial
    | lane lane => exact tracks_commitUnknown huntold₁ ⟨⟨rfl, by rintro _ ⟨⟩⟩, trivial⟩

/-- Committing an exchange. -/
theorem tracks_commitExchange (codec : CookieCodec) (env : Env) (start : World)
    (auth : StoredAuth) (result : ExchangeResult) :
    Tracks Run.world (CommitStep env start auth.revision (Outcomes codec env start auth result))
      (commitExchange codec env auth result) (Run.start start) (fun _ _ => True)
      (fun e r' => HandsOver env start auth.revision e r'.world) := by
  have huntold : Untold start (Run.start start) := ⟨rfl, rfl⟩
  have hplain : ∀ e (r' : Run), HandsOver env start auth.revision (.plain e) r'.world :=
    fun e r' => handsOver_plain _ _ _ e _
  have hunknown : ∀ reason, Outcomes codec env start auth result
      (.outcomeUnknown auth.revision reason) := fun _ => ⟨⟨rfl, by rintro _ ⟨⟩⟩, trivial⟩
  have hfailure : ∀ detail, Tracks Run.world
      (CommitStep env start auth.revision (Outcomes codec env start auth result))
      (commitFailure codec env auth detail) (Run.start start) (fun _ _ => True)
      (fun _ _ => True) := fun detail =>
    (leaves_emitRefreshObservation env auth none none).then_
      (fun _ r₁ h₁ => tracks_commitUnknown (huntold.untouched h₁) (hunknown _))
      fun _ _ _ => trivial
  cases result with
  | response response =>
    refine (tracks_commitResponse rfl).tryCatch fun e r' _ he => ?_
    cases e with
    | plain e =>
      dsimp only
      split_ifs <;> exact Tracks.raise (hplain _ r')
    | postDispatchPersistence retained => exact Tracks.raise he
  | httpError code => exact Tracks.plain (hfailure code) hplain
  | osError typeName => exact Tracks.plain (hfailure typeName) hplain
  | cancelled =>
    refine Tracks.plain (Tracks.bind (Q := fun _ _ => True) (Tracks.tryCatch
      (E := fun _ _ => True) ?_ ?_) fun _ _ _ _ => Tracks.raise trivial) hplain
    · exact (leaves_emitRefreshObservation env auth none none).then_
        (fun _ r₁ h₁ => (tracks_commitUnknown (huntold.untouched h₁) (hunknown _)).bind
          fun _ _ _ _ => Tracks.pure trivial) fun _ _ _ => trivial
    · intro e r' _ _
      split
      · exact Tracks.pure trivial
      · exact Tracks.pure trivial
      · split_ifs
        · exact Tracks.pure trivial
        · exact Tracks.raise trivial
      · exact Tracks.raise trivial
  | failed error => exact Tracks.raise (hplain error (Run.start start))

/-! ### Retained successors and imports -/

/-- Projecting a retained successor. -/
theorem tracks_projectRetainedSuccessor (env : Env) (start : World)
    (retained : RetainedRefreshSuccessor) :
    Tracks Run.world (ProjectStep env start retained) (projectRetainedSuccessor env retained)
      (Run.start start) (fun _ _ => True) (fun _ _ => True) := by
  refine tracks_withAuthFileLock (fun r₀ h₀ => ?_) (fun _ _ _ => trivial)
    (fun _ _ _ _ _ => trivial) (fun _ _ _ _ _ _ => trivial) fun _ _ _ _ _ _ => trivial
  have huntold₀ : Untold start r₀ := ⟨h₀.world, h₀.journalReads⟩
  refine ((tracks_loadAuth env r₀).weaken (fun _ _ h => h) fun _ _ _ => trivial).bind
    fun loaded r₁ _ h₁ => ?_
  obtain ⟨hsame₁, hloaded⟩ := h₁
  rw [huntold₀.world] at hloaded
  refine (tracks_ofExcept _).bind fun t r₂ _ h₂ => ?_
  obtain ⟨ht, rfl⟩ := h₂
  refine (tracks_attemptForSource (huntold₀.same hsame₁)).bind fun found r₃ _ h₃ => ?_
  obtain ⟨hworld₃, hlooked⟩ := h₃
  obtain ⟨header, rfl⟩ : ∃ header,
      t = .rotated retained.sourceRevision header retained.auth.revision := by
    rcases hcredential : retained.auth.credential with header | token <;>
      simp only [retainedRotatedState, hcredential] at ht
    · cases ht; exact ⟨header, rfl⟩
    · cases ht
  rcases hprojected : projectedAuthOrNone loaded retained with _ | auth <;> dsimp only
  · by_cases hsuperseded : isSupersededResult retained.sourceRevision loaded = true
    · rw [if_pos hsuperseded]
      exact Tracks.pure trivial
    · rw [if_neg hsuperseded]
      obtain ⟨current, hheld, hcurrent⟩ : ∃ current, start.Holds current ∧
          current.revision = retained.sourceRevision := by
        cases loaded with
        | loaded auth =>
          exact ⟨auth, hloaded auth rfl, by simpa [isSupersededResult] using hsuperseded⟩
        | _ => exact absurd rfl hsuperseded
      refine (tracks_projectRotated ⟨header, rfl⟩ hworld₃ hheld hcurrent hlooked
        fun result r₄ hwritten => ?_).mono fun _ _ h => .commit h
      cases result with
      | written auth =>
        obtain ⟨hpending, hprojected⟩ := hwritten auth rfl
        exact (tracks_recordCommitted ⟨header, rfl⟩ hpending hprojected).bind
          fun _ _ _ _ => Tracks.pure trivial
      | superseded _ => exact Tracks.pure trivial
  · have hstored : ∃ current, start.Holds current ∧
        current.revision = retained.auth.revision := by
      cases loaded with
      | loaded auth' =>
        simp only [projectedAuthOrNone] at hprojected
        split_ifs at hprojected with hrevision
        exact ⟨auth', hloaded auth' rfl, hrevision⟩
      | _ => cases hprojected
    refine Tracks.bind (Q := fun _ _ => True) (((tracks_recordTerminalOutcome
      (fun w => start.SameRotation w) (fun _ _ h h' => h'.trans h)
      (fun _ => hworld₃ ▸ .refl _) (by rintro ⟨⟩) ?_).mono
        fun _ _ h => .already ⟨header, rfl⟩ hlooked hstored h).weaken (fun _ _ _ => trivial)
          fun _ _ _ => trivial) fun _ _ _ _ => Tracks.pure trivial
    rintro _ ⟨⟩
    rw [hworld₃]
    exact hstored

/-- Importing a credential. -/
theorem tracks_importCredential (env : Env) (start : World) (auth : StoredAuth) :
    Tracks Run.world (ImportStep env start auth) (importCredential env auth) (Run.start start)
      (fun _ _ => True) (fun _ _ => True) := by
  refine tracks_withAuthFileLock (fun r₀ h₀ => ?_) (fun _ _ _ => trivial)
    (fun _ _ _ _ _ => trivial) (fun _ _ _ _ _ _ => trivial) fun _ _ _ _ _ _ => trivial
  have hworld₀ : r₀.world = start := h₀.world
  refine ((tracks_writeAuthFile (hworld₀ ▸ .write)).weaken (fun _ _ h => h)
    fun _ _ _ => trivial).bind fun _ r₁ _ h₁ => ?_
  have hheld₁ : r₁.world.Holds auth := h₁.world ▸ World.holds_setCredential _ _ _
  refine ((tracks_loadJournal env r₁).weaken (fun _ _ h => h) fun _ _ _ => trivial).bind
    fun loaded r₂ _ h₂ => ?_
  obtain ⟨hread₂, hloaded, -, hjournal⟩ := h₂
  rw [show r₁.cursor.journalReads = 0 from h₁.journalReads.trans h₀.journalReads] at hjournal
  rw [← hread₂.world] at hloaded hjournal hheld₁
  have hdelete : ∀ r₃, r₂.world.SameRotation r₃.world →
      (∀ t attempt migrated, loaded = .loaded (.terminal t) false attempt migrated →
        r₃.world.Delivering t.eventKey) →
      Tracks Run.world (ImportStep env start auth) (do deleteJournal env; return auth) r₃
        (fun _ _ => True) (fun _ _ => True) := by
    intro r₃ hsame hsafe
    refine ((tracks_deleteJournal (.delete (hsame.holds.2 hheld₁) ?_)).weaken (fun _ _ h => h)
      fun _ _ _ => trivial).bind fun _ _ _ _ => Tracks.pure trivial
    intro t attempt migrated hfault hload
    rw [hsame.journal] at hload
    exact hsafe t attempt migrated (Except.ok.inj ((hjournal hfault).symm.trans hload))
  split
  · next t attempt migrated =>
    refine (((tracks_enqueueOutcome (outboxRecord_valid t)).traced.mono
      fun _ _ h => .outbox h).weaken (fun _ _ h => h) fun _ _ _ => trivial).bind
        fun _ r₃ _ h₃ => ?_
    obtain ⟨⟨-, hkey⟩, hsteps⟩ := h₃
    refine hdelete r₃ (World.SameRotation.of_outboxSteps hsteps) ?_
    rintro _ _ _ ⟨⟩
    exact .inr hkey
  · next hother =>
    refine hdelete r₂ (.refl _) fun t attempt migrated hload => ?_
    exact absurd hload (hother t attempt migrated)

end EnjiGuard.AuthSession
