import EnjiGuard.AuthSession.Store.Specs
import EnjiGuard.Foundation.Concluding

/-!
# The store under failures

What an operation of the store does apart from failures of the storage. A failed operation shows as
a typed error, and a failed read as a result that says so; everything else is what the files say.
-/

namespace EnjiGuard.AuthSession

open Foundation Action Relation

/-- No storage operation fails, no process crashes, and every file can be read. -/
structure Env.Healthy (env : Env) : Prop where
  fault : ∀ n operation, env.fault n operation = .none
  readFault : ∀ site n, env.readFault site n = none

/-- A run leaves certain files and has read the clock no further. -/
structure Run.Left (r : Run) (w : World) (r' : Run) : Prop where
  world : r'.world = w
  now : r'.cursor.now = r.cursor.now

lemma Run.Left.refl (r : Run) : r.Left r.world r := ⟨rfl, rfl⟩

lemma Run.Left.trans {r r' r'' : Run} {w w' : World} (h : r.Left w r') (h' : r'.Left w' r'') :
    r.Left w' r'' := ⟨h'.world, h'.now.trans h.now⟩

lemma Run.Same.left {r r' : Run} (h : r.Same r') : r.Left r.world r' := ⟨h.world, h.now⟩

lemma Run.Replaced.left {r r' : Run} {w : World} (h : r.Replaced w r') : r.Left w r' :=
  ⟨h.world, h.now⟩

/-- What a failure of the storage shows as: an error of the operating system, a group of them, or
an error of the HTTP layer. -/
def PyError.isTyped (e : PyError) : Bool :=
  e.isEnjiHttp || e.isOsError || match e with
    | exceptionGroup _ => true
    | _ => false

@[simp] lemma PyError.isTyped_ofRefused (typeName : String) :
    (ofRefused typeName).isTyped = false := by
  unfold ofRefused
  split_ifs <;> rfl

/-- The failures of the storage and of the process. -/
def Env.faults (env : Env) : Faults PyError := ⟨¬ env.Healthy, fun e => e.isTyped = true⟩

namespace World

/-- The outbox is read as a list of records. -/
def OutboxReady (w : World) : Prop := ∃ records, w.OutboxHolds records

/-- The outbox is read as something, be it as corrupt. -/
def OutboxParses (w : World) : Prop := ∃ loaded, outboxOf w.outbox = .ok loaded

/-- What a look at the outbox raises when it is not ready: the error of the reader, or a typed one
that says that the outbox is corrupt. -/
def OutboxRefuses (w : World) (e : PyError) : Prop :=
  outboxOf w.outbox = .error e ∨
    w.OutboxParses ∧ ¬ w.OutboxReady ∧ e.isTyped = true

lemma OutboxReady.parses {w : World} (h : w.OutboxReady) : w.OutboxParses := by
  obtain ⟨records, hload | ⟨hnone, -⟩⟩ := h
  · exact ⟨_, hload⟩
  · exact ⟨.absent, by rw [hnone]; rfl⟩

lemma OutboxReady.not_refuses {w : World} {e : PyError} (h : w.OutboxReady) :
    ¬ w.OutboxRefuses e := by
  rintro (herror | ⟨-, hnot, -⟩)
  · obtain ⟨loaded, hload⟩ := h.parses
    rw [hload] at herror
    cases herror
  · exact hnot h

/-- An outbox that is read as absent or as records is ready. -/
lemma outboxReady_of_loaded {w : World} {loaded : OutcomeOutboxLoadResult}
    {records : List OutcomeOutboxRecord} (hload : outboxOf w.outbox = .ok loaded)
    (h : outboxRecordsOrRaise loaded = .ok records) : w.OutboxHolds records := by
  cases loaded with
  | absent =>
    cases h
    refine .inr ⟨?_, rfl⟩
    rcases hfile : w.outbox with _ | ⟨_ | detail | typeName | payload⟩
    · rfl
    all_goals rw [hfile] at hload
    · cases hload
    · cases hload
    · cases hload
    · exact absurd (show parseOutbox payload = .ok .absent from hload)
        (parseOutbox_ne_absent payload)
  | loaded records' =>
    cases h
    exact .inl hload
  | corrupt detail => cases h
  | ioFailure operation error => cases h

end World

lemma OutboxStep.ready {w w' : World} (h : OutboxStep w w') (hready : w.OutboxReady) :
    w'.OutboxReady := by
  cases h with
  | enqueue hold hvalid hfresh =>
    exact ⟨_, World.outboxHolds_setOutbox (hold.consistent.append hvalid hfresh)⟩
  | accept eventKey => exact hready
  | acknowledge hold haccepted =>
    exact ⟨_, World.outboxHolds_setOutbox (hold.consistent.filter _)⟩
  | remove => exact ⟨[], .inr ⟨rfl, rfl⟩⟩

lemma World.OutboxReady.of_steps {w w' : World} (hready : w.OutboxReady)
    (h : ReflTransGen OutboxStep w w') : w'.OutboxReady := by
  induction h with
  | refl => exact hready
  | tail _ hstep ih => exact hstep.ready ih

section

variable {α : Type} {env : Env} {r : Run} {E : PyError → Run → Prop}

/-! ### Primitives -/

lemma not_healthy_of_fault {n : Nat} {operation : String} {fault : Fault}
    (h : env.fault n operation = fault) (hfault : fault ≠ .none) : ¬ env.Healthy := by
  intro healthy
  rw [healthy.fault] at h
  exact hfault h.symm

lemma concludes_trigger (env : Env) (operation : String) :
    Concludes env.faults (trigger env operation) r (fun _ => r.Same) E := by
  rcases h : env.fault r.cursor.faults operation with _ | detail | _
  all_goals
    refine ⟨?_, ?_, ?_⟩ <;> simp only [trigger, h]
  · rintro _ -; exact ⟨rfl, rfl, rfl⟩
  · rintro _ ⟨⟩
  · rintro ⟨⟩
  · rintro _ ⟨⟩
  · rintro _ ⟨⟩; exact .inr ⟨not_healthy_of_fault h (by simp), rfl⟩
  · rintro ⟨⟩
  · rintro _ ⟨⟩
  · rintro _ ⟨⟩
  · rintro -; exact not_healthy_of_fault h (by simp)

/-- A storage operation comes first. -/
lemma concludes_trigger_then {operation : String} {p : Auth α} {Q : α → Run → Prop}
    (hp : ∀ r', r.Same r' → Concludes env.faults p r' Q E) :
    Concludes env.faults (trigger env operation >>= fun _ => p) r Q E :=
  (concludes_trigger env operation).bind fun _ r' hr => hp r' hr

lemma concludes_fsyncDirectory (env : Env) :
    Concludes env.faults (fsyncDirectory env) r (fun _ => r.Same) E := by
  refine concludes_trigger_then fun r₁ h₁ => ?_
  refine (Concludes.ensure (E := fun _ _ => False) ((concludes_trigger env _).weaken
    (fun _ _ k => h₁.trans k) fun _ _ k => k) fun r₂ => ?_).weaken (fun _ _ k => k)
      fun _ _ hfalse => hfalse.elim
  exact (concludes_trigger env _).weaken (fun _ _ k => ⟨fun _ h => h.trans k, fun _ h => h⟩)
    fun _ _ k => k

/-- An atomic write goes through, or it fails as the storage does. -/
lemma concludes_writeAtomicJson {replace : World → Option Datetime → World} :
    Concludes env.faults (writeAtomicJson env replace) r
      (fun _ => r.Replaced (replace r.world (r.lastReading env))) E := by
  refine concludes_trigger_then fun r₁ h₁ => concludes_trigger_then fun r₂ h₂ =>
    concludes_trigger_then fun r₃ h₃ => ?_
  have h₃ : r.Same r₃ := (h₁.trans h₂).trans h₃
  refine Concludes.tryCatch (E := fun _ _ => False) ?_ ?_
  · refine concludes_trigger_then fun r₄ h₄ => concludes_trigger_then fun r₅ h₅ =>
      concludes_trigger_then fun r₆ h₆ => concludes_trigger_then fun r₇ h₇ => ?_
    have h₇ : r.Same r₇ := (((h₃.trans h₄).trans h₅).trans h₆).trans h₇
    have hreading : r₇.lastReading env = r.lastReading env := by
      simp only [Run.lastReading, h₇.now]
    refine Concludes.bind (Q := fun _ => r.Replaced (replace r.world (r.lastReading env)))
      (Concludes.update ⟨by rw [hreading, h₇.world], h₇.now, h₇.journalReads⟩) fun _ r₈ h₈ => ?_
    exact concludes_trigger_then fun r₉ h₉ =>
      (concludes_fsyncDirectory env).weaken (fun _ _ k => (h₈.same h₉).same k) fun _ _ k => k
  · -- the error of the write is the storage's, and so is what its clean-up makes of it
    rintro original r' (hfalse | ⟨hpossible, hstorage⟩)
    · exact hfalse.elim
    · cases original with
      | osError detail =>
        refine Concludes.bind (Q := fun _ _ => True) (E := E) (Concludes.tryCatch
          (E := fun _ _ => False) ((concludes_trigger env "unlink").weaken (fun _ _ _ => trivial)
            fun _ _ k => k) ?_) fun _ r'' _ => Concludes.excused ⟨hpossible, hstorage⟩
        rintro cleanup r'' (hfalse | ⟨-, hcleanup⟩)
        · exact hfalse.elim
        · cases cleanup with
          | osError cleanupDetail => exact Concludes.excused ⟨hpossible, rfl⟩
          | _ => exact Concludes.excused ⟨hpossible, hcleanup⟩
      | _ => exact Concludes.excused ⟨hpossible, hstorage⟩

/-- The lock adds nothing. -/
lemma concludes_withAuthFileLock {p : Auth α} {Q : α → Run → Prop}
    (hp : ∀ r', r.Same r' → Concludes env.faults p r' Q E)
    (hQ : ∀ a r' r'', Q a r' → r'.Same r'' → Q a r'')
    (hE : ∀ e r' r'', E e r' → r'.Same r'' → E e r'') :
    Concludes env.faults (withAuthFileLock env p) r Q E := by
  refine concludes_trigger_then fun r₁ h₁ => concludes_trigger_then fun r₂ h₂ => ?_
  refine (hp r₂ (h₁.trans h₂)).ensure fun r' => ?_
  exact (concludes_trigger env _).weaken
    (fun _ _ k => ⟨fun a h => hQ a _ _ h k, fun e h => hE e _ _ h k⟩) fun _ _ k => k

/-- A file is read as it is, unless reading it fails. -/
lemma concludes_readText (env : Env) (file : ReadSite) :
    Concludes env.faults (readText env file) r
      (fun text r' => r.Left r.world r' ∧ r'.cursor.wall = r.cursor.wall ∧
        (text = .ok (r.world.file file) ∨ ¬ env.Healthy ∧ ∃ detail, text = .error detail)) E := by
  rcases h : env.readFault file (r.cursor.reads file) with _ | detail
  · have hrun : readText env file r =
        (.ok (.ok (r.world.file file)), { r with cursor := r.cursor.countRead file }) := by
      simp only [readText, h]
    refine Concludes.of_run hrun ⟨?_, ?_, .inl rfl⟩
    · cases file <;> exact ⟨rfl, rfl⟩
    · cases file <;> rfl
  · have hrun : readText env file r =
        (.ok (.error detail), { r with cursor := r.cursor.countRead file }) := by
      simp only [readText, h]
    refine Concludes.of_run hrun ⟨?_, ?_, .inr ⟨?_, detail, rfl⟩⟩
    · cases file <;> exact ⟨rfl, rfl⟩
    · cases file <;> rfl
    · intro healthy
      rw [healthy.readFault] at h
      cases h

lemma concludes_nowFn (env : Env) :
    Concludes env.faults (nowFn env) r (fun now r' => now = env.now r.cursor.now ∧
      r'.world = r.world ∧ r'.cursor.now = r.cursor.now + 1) E :=
  Concludes.of_run rfl ⟨rfl, rfl, rfl⟩

/-! ### Loading -/

lemma concludes_loadAuth (env : Env) :
    Concludes env.faults (loadAuth env) r
      (fun result r' => r.Left r.world r' ∧
        (authOf (env.wall r.cursor.wall) r.world.credential = .ok result ∨
          ¬ env.Healthy ∧ ∃ operation error, result = .ioFailure operation error))
      (fun e r' => r.Left r.world r' ∧
        authOf (env.wall r.cursor.wall) r.world.credential = .error e) := by
  refine (concludes_readText env .credential).bind fun text r₁ h₁ => ?_
  obtain ⟨hleft, hwall, rfl | ⟨hnot, detail, rfl⟩⟩ := h₁
  · refine Concludes.bind (Q := fun now r' => now = env.wall r.cursor.wall ∧ r.Left r.world r')
      (Concludes.of_run rfl ⟨by rw [hwall], hleft.world, hleft.now⟩) fun now r₂ h₂ => ?_
    obtain ⟨rfl, hleft₂⟩ := h₂
    exact Concludes.ofExcept (fun _ hresult => ⟨hleft₂, .inl hresult⟩)
      fun _ hresult => ⟨hleft₂, hresult⟩
  · exact Concludes.pure ⟨hleft, .inr ⟨hnot, _, _, rfl⟩⟩

lemma concludes_loadJournal (env : Env) :
    Concludes env.faults (loadJournal env) r
      (fun result r' => r.Left r.world r' ∧ (journalOf r.world.journal = .ok result ∨
        ¬ env.Healthy ∧ ∃ operation error, result = .ioFailure operation error))
      (fun e r' => r.Left r.world r' ∧ journalOf r.world.journal = .error e) := by
  refine (concludes_readText env .journal).bind fun text r₁ h₁ => ?_
  obtain ⟨hleft, -, rfl | ⟨hnot, detail, rfl⟩⟩ := h₁
  · exact Concludes.ofExcept (fun _ hresult => ⟨hleft, .inl hresult⟩)
      fun _ hresult => ⟨hleft, hresult⟩
  · exact Concludes.pure ⟨hleft, .inr ⟨hnot, _, _, rfl⟩⟩

lemma concludes_loadOutbox (env : Env) :
    Concludes env.faults (loadOutbox env) r
      (fun result r' => r.Left r.world r' ∧ (outboxOf r.world.outbox = .ok result ∨
        ¬ env.Healthy ∧ ∃ operation error, result = .ioFailure operation error))
      (fun e r' => r.Left r.world r' ∧ outboxOf r.world.outbox = .error e) := by
  refine (concludes_readText env .outbox).bind fun text r₁ h₁ => ?_
  obtain ⟨hleft, -, rfl | ⟨hnot, detail, rfl⟩⟩ := h₁
  · exact Concludes.ofExcept (fun _ hresult => ⟨hleft, .inl hresult⟩)
      fun _ hresult => ⟨hleft, hresult⟩
  · exact Concludes.pure ⟨hleft, .inr ⟨hnot, _, _, rfl⟩⟩

/-! ### Writing and deleting -/

lemma concludes_write {before after : String} {replace : World → Option Datetime → World} :
    Concludes env.faults
      (do trigger env before; writeAtomicJson env replace; trigger env after) r
      (fun _ => r.Left (replace r.world (r.lastReading env))) E := by
  refine concludes_trigger_then fun r₁ h₁ => concludes_writeAtomicJson.bind fun _ r₂ h₂ => ?_
  have hreading : r₁.lastReading env = r.lastReading env := by
    simp only [Run.lastReading, h₁.now]
  rw [hreading, h₁.world] at h₂
  exact (concludes_trigger env _).weaken (fun _ _ k => ((h₁.replaced h₂).same k).left)
    fun _ _ k => k

lemma concludes_writeAuthFile {auth : StoredAuth} {cause : WriteCause} :
    Concludes env.faults (writeAuthFile env auth cause) r
      (fun _ => r.Left (r.world.setCredential auth cause)) E := concludes_write

lemma concludes_writeJournal {state : JournalState} {enqueued : Bool}
    {attempt : RotationAttempt} :
    Concludes env.faults (writeJournal env state enqueued attempt) r
      (fun _ => r.Left (r.world.setJournal state enqueued attempt (r.lastReading env))) E :=
  concludes_write

lemma concludes_unlinkFile {file : ReadSite} {remove : World → World}
    (habsent : r.world.file file = none → remove r.world = r.world) :
    Concludes env.faults (unlinkFile env file remove) r (fun _ => r.Left (remove r.world)) E := by
  refine concludes_trigger_then fun r₁ h₁ => ?_
  refine Concludes.bind (Q := fun s r' => s = r₁ ∧ r' = r₁) (Concludes.state ⟨rfl, rfl⟩) ?_
  intro s r' hs
  rw [hs.1, hs.2]
  rcases hfile : r₁.world.file file with _ | text
  · dsimp only
    rw [h₁.world] at hfile
    refine Concludes.pure ⟨?_, h₁.now⟩
    rw [habsent hfile, h₁.world]
  · dsimp only
    refine Concludes.bind (Q := fun _ => r.Left (remove r.world))
      (Concludes.update ⟨by rw [h₁.world], h₁.now⟩) fun _ r₂ h₂ => ?_
    refine (concludes_fsyncDirectory env).bind fun _ r₃ h₃ => Concludes.pure ?_
    exact ⟨h₃.world.trans h₂.world, h₃.now.trans h₂.now⟩

lemma concludes_deleteJournal :
    Concludes env.faults (deleteJournal env) r (fun _ => r.Left r.world.removeJournal) E := by
  refine concludes_trigger_then fun r₁ h₁ => ?_
  refine (concludes_unlinkFile ?_).bind fun there r₂ h₂ => ?_
  · intro hnone
    change r₁.world.journal = none at hnone
    rw [World.removeJournal, ← hnone]
  · rw [h₁.world] at h₂
    have hleft : r.Left r.world.removeJournal r₂ := ⟨h₂.world, h₂.now.trans h₁.now⟩
    split_ifs
    · exact (concludes_trigger env _).weaken
        (fun _ _ k => ⟨k.world.trans hleft.world, k.now.trans hleft.now⟩) fun _ _ k => k
    · exact Concludes.pure hleft

end

end EnjiGuard.AuthSession
