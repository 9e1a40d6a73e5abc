import EnjiGuard.AuthSession.Store.Conclusions

/-!
# The store when nothing fails

Where no storage operation and no read fails, an operation of the store does what its name says:
its result is a function of the files, and it raises only what a reader raises.
-/

namespace EnjiGuard.AuthSession

open Foundation Action

section

variable {α : Type} {env : Env} {r : Run} {E : PyError → Run → Prop}

/-- Where nothing fails, an action ends as it concludes. -/
lemma Env.Healthy.ends {p : Auth α} {Q : α → Run → Prop} (h : env.Healthy)
    (hp : Concludes env.faults p r Q E) : Ends p r Q E := hp.ends fun hpossible => hpossible h

/-! ### Primitives -/

lemma ends_trigger (h : env.Healthy) (operation : String) :
    Ends (trigger env operation) r (fun _ => r.Same) E := h.ends (concludes_trigger env operation)

lemma ends_readText (h : env.Healthy) (file : ReadSite) :
    Ends (readText env file) r
      (fun text r' => r.Left r.world r' ∧ text = .ok (r.world.file file)) E :=
  (h.ends (concludes_readText env file)).weaken
    (fun _ _ hr => ⟨hr.1, hr.2.2.resolve_right fun hnot => hnot.1 h⟩) fun _ _ k => k

lemma ends_nowFn (env : Env) :
    Ends (nowFn env) r (fun now r' => now = env.now r.cursor.now ∧ r'.world = r.world ∧
      r'.cursor.now = r.cursor.now + 1) E := Ends.of_run rfl ⟨rfl, rfl, rfl⟩

/-! ### Loading -/

lemma ends_loadAuth (h : env.Healthy) :
    Ends (loadAuth env) r
      (fun result r' => r.Left r.world r' ∧
        authOf (env.wall r.cursor.wall) r.world.credential = .ok result)
      (fun e r' => r.Left r.world r' ∧
        authOf (env.wall r.cursor.wall) r.world.credential = .error e) :=
  (h.ends (concludes_loadAuth env)).weaken
    (fun _ _ hr => ⟨hr.1, hr.2.resolve_right fun hnot => hnot.1 h⟩) fun _ _ k => k

lemma ends_loadJournal (h : env.Healthy) :
    Ends (loadJournal env) r
      (fun result r' => r.Left r.world r' ∧ journalOf r.world.journal = .ok result)
      (fun e r' => r.Left r.world r' ∧ journalOf r.world.journal = .error e) :=
  (h.ends (concludes_loadJournal env)).weaken
    (fun _ _ hr => ⟨hr.1, hr.2.resolve_right fun hnot => hnot.1 h⟩) fun _ _ k => k

lemma ends_loadOutbox (h : env.Healthy) :
    Ends (loadOutbox env) r
      (fun result r' => r.Left r.world r' ∧ outboxOf r.world.outbox = .ok result)
      (fun e r' => r.Left r.world r' ∧ outboxOf r.world.outbox = .error e) :=
  (h.ends (concludes_loadOutbox env)).weaken
    (fun _ _ hr => ⟨hr.1, hr.2.resolve_right fun hnot => hnot.1 h⟩) fun _ _ k => k

/-! ### Writing and deleting -/

lemma ends_writeAuthFile (h : env.Healthy) {auth : StoredAuth} {cause : WriteCause} :
    Ends (writeAuthFile env auth cause) r
      (fun _ => r.Left (r.world.setCredential auth cause)) E := h.ends concludes_writeAuthFile

lemma ends_writeJournal (h : env.Healthy) {state : JournalState} {enqueued : Bool}
    {attempt : RotationAttempt} :
    Ends (writeJournal env state enqueued attempt) r
      (fun _ => r.Left (r.world.setJournal state enqueued attempt (r.lastReading env))) E :=
  h.ends concludes_writeJournal

lemma ends_deleteJournal (h : env.Healthy) :
    Ends (deleteJournal env) r (fun _ => r.Left r.world.removeJournal) E :=
  h.ends concludes_deleteJournal

end

end EnjiGuard.AuthSession
