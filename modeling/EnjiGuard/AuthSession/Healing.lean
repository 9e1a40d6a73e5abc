import EnjiGuard.AuthSession.Preparation

/-!
# Healing by an import

An import replaces the credential and drops the journal, and the next refresh starts over. It gets
to its exchange under one condition on what was left behind: the journal can be looked at and the
outbox is readable. An import does not repair the outbox.
-/

namespace EnjiGuard.AuthSession

open Foundation Action

section Steps

variable {env : Env} {r : Run} {auth current : StoredAuth} {expected : Option StoredAuth}
  {header : String} {E : PyError → Run → Prop}

/-! ### Importing -/

/-- What an import leaves: the credential, no journal, and the outbox as readable as before. -/
structure Run.Imported (r : Run) (auth : StoredAuth) (r' : Run) : Prop where
  credential : r'.world.credential = some (.json (authPayload auth))
  journal : r'.world.journal = none
  outbox : r'.world.OutboxReady ↔ r.world.OutboxReady

/-- An import can retain what it finds: the journal can be looked at, and the outbox too when an
outcome has to be enqueued. -/
def World.Importable (w : World) : Prop :=
  ∃ loaded, journalOf w.journal = .ok loaded ∧
    ∀ t attempt migrated, loaded = .loaded (.terminal t) false attempt migrated → w.OutboxReady

/-- Dropping the journal of a world that holds the credential. -/
lemma concludes_deleteJournal_of_written {r' : Run}
    (hcredential : r'.world.credential = some (.json (authPayload auth)))
    (houtbox : r'.world.OutboxReady ↔ r.world.OutboxReady) {K : Prop} (hK : K) :
    Concludes env.faults (do deleteJournal env; return auth) r'
      (fun result r'' => K ∧ result = auth ∧ r.Imported auth r'') E := by
  refine Concludes.bind (concludes_deleteJournal.weaken (fun _ _ h => h) fun _ _ k => k)
    fun _ r₁ h₁ => Concludes.pure ⟨hK, rfl, ?_, ?_, ?_⟩
  · rw [h₁.world]; exact hcredential
  · rw [h₁.world]; rfl
  · rw [h₁.world]; exact houtbox

/-- Importing goes through exactly when it can retain what it finds. -/
lemma concludes_importCredential :
    Concludes env.faults (importCredential env auth) r
      (fun result r' => (env.Healthy → r.world.Importable) ∧ result = auth ∧ r.Imported auth r')
      (fun _ _ => ¬ r.world.Importable) := by
  refine concludes_withAuthFileLock (fun r₁ h₁ => ?_) (fun a r' r'' h hsame => ?_)
    fun _ _ _ h _ => h
  · refine concludes_writeAuthFile.bind fun _ r₂ h₂ => ?_
    have hjournal : r₂.world.journal = r.world.journal := by rw [h₂.world, ← h₁.world]; rfl
    have houtbox : r₂.world.outbox = r.world.outbox := by rw [h₂.world, ← h₁.world]; rfl
    have hcredential : r₂.world.credential = some (.json (authPayload auth)) := by
      rw [h₂.world]; rfl
    refine ((concludes_loadJournal env).weaken (fun _ _ h => h) fun e _ herror => ?_).bind
      fun loaded r₃ h₃ => ?_
    · rw [hjournal] at herror
      rintro ⟨loaded, hloaded, -⟩
      rw [herror.2] at hloaded
      cases hloaded
    obtain ⟨hleft, hread⟩ := h₃
    have hcredential₃ : r₃.world.credential = some (.json (authPayload auth)) := by
      rw [hleft.world]; exact hcredential
    have hready₃ : r₃.world.OutboxReady ↔ r.world.OutboxReady :=
      World.outboxReady_congr (by rw [hleft.world, houtbox])
    -- a record that is no unacknowledged outcome is only dropped
    have hdropped : (∀ t attempt migrated, loaded ≠ .loaded (.terminal t) false attempt migrated) →
        Concludes env.faults (do deleteJournal env; return auth) r₃
          (fun result r' => (env.Healthy → r.world.Importable) ∧ result = auth ∧
            r.Imported auth r') (fun _ _ => ¬ r.world.Importable) := by
      intro hother
      refine concludes_deleteJournal_of_written hcredential₃ hready₃ fun hhealthy => ?_
      rcases hread with hload | ⟨hnot, -⟩
      · rw [hjournal] at hload
        exact ⟨loaded, hload, fun t attempt migrated h => absurd h (hother t attempt migrated)⟩
      · exact absurd hhealthy hnot
    rcases loaded with _ | detail | ⟨operation, error⟩ | ⟨_ | _ | t, _ | _, attempt, migrated⟩
    case loaded.terminal.false =>
      rcases hread with hload | ⟨-, _, _, ⟨⟩⟩
      rw [hjournal] at hload
      refine ((concludes_enqueueOutcome (outboxRecord_valid t)).weaken (fun _ _ h => h)
        fun e _ hrefuses => ?_).bind fun _ r₄ h₄ => ?_
      · rintro ⟨loaded, hloaded, hready⟩
        rw [hload] at hloaded
        cases hloaded
        exact (hready₃.2 (hready t attempt migrated rfl)).not_refuses hrefuses
      · obtain ⟨hdelivered, -⟩ := h₄
        have hready := hready₃.1 hdelivered.before
        refine concludes_deleteJournal_of_written ?_
          ⟨fun _ => hready, fun _ => hdelivered.after⟩ fun _ => ⟨_, hload, fun _ _ _ _ => hready⟩
        rw [hdelivered.same.credential]
        exact hcredential₃
    all_goals exact hdropped (by rintro _ _ _ ⟨⟩)
  · obtain ⟨himportable, hresult, hleft⟩ := h
    exact ⟨himportable, hresult, by rw [hsame.world]; exact hleft.credential,
      by rw [hsame.world]; exact hleft.journal, by rw [hsame.world]; exact hleft.outbox⟩

/-! ### The next refresh -/

/-- A refresh can begin: the outbox is readable, the process can be named and the deadline is
representable. -/
structure Startable (env : Env) (w : World) (n : Nat) : Prop where
  outbox : w.OutboxReady
  owner : env.ownerFault = none
  deadline : ∃ deadline, (env.now n).add? recoveryWindow = some deadline

lemma Startable.congr {w w' : World} {n n' : Nat} (houtbox : w'.outbox = w.outbox)
    (hn : n' = n) : Startable env w' n' ↔ Startable env w n := by
  have hready := World.outboxReady_congr houtbox
  subst hn
  exact ⟨fun h => ⟨hready.1 h.outbox, h.owner, h.deadline⟩,
    fun h => ⟨hready.2 h.outbox, h.owner, h.deadline⟩⟩

/-- A refresh without a journal gets to its exchange exactly when it can begin. -/
lemma concludes_prepare_of_noJournal (hsink : env.SinkContained)
    (hfinds : env.Finds r.world current) (hcookie : current.credential = .cookie header)
    (hjournal : r.world.journal = none)
    (hexpected : (expected.map StoredAuth.revision).getD current.revision = current.revision) :
    Concludes env.faults (prepare env expected) r
      (fun preparation _ => Startable env r.world r.cursor.now ∧ preparation = .dispatch current)
      (fun _ _ => ¬ Startable env r.world r.cursor.now) := by
  refine concludes_withAuthFileLock (fun r₁ h₁ => ?_) (fun _ _ _ h _ => h) fun _ _ _ h _ => h
  rw [← h₁.world] at hfinds hjournal ⊢
  rw [← h₁.now]
  refine (concludes_loadAuth_of_finds hfinds).bind fun result r₂ h₂ => ?_
  obtain ⟨hleft₂, rfl | ⟨hnot, operation, error, rfl⟩⟩ := h₂
  · refine Concludes.of_ok rfl ?_
    simp only [hcookie]
    refine Concludes.bind (Q := fun result r' => result = none ∧ r₁.Left r₁.world r') ?_
      fun result r₃ h₃ => ?_
    · refine ((concludes_loadJournal env).weaken (fun _ _ h => h) fun e _ herror => ?_).bind
        fun loaded r₃ h₃ => ?_
      · rw [hleft₂.world, hjournal] at herror
        cases herror.2
      · obtain ⟨hleft₃, hload | ⟨hnot, operation, error, rfl⟩⟩ := h₃
        · rw [hleft₂.world, hjournal] at hload
          cases hload
          exact Concludes.pure ⟨rfl, hleft₂.trans (hleft₂.world ▸ hleft₃)⟩
        · exact Concludes.excused ⟨hnot, rfl⟩
    · obtain ⟨rfl, hleft₃⟩ := h₃
      have hready₃ : r₃.world.OutboxReady → r₁.world.OutboxReady := by rw [hleft₃.world]; exact id
      refine ((concludes_drainOutbox hsink).weaken (fun _ _ h => h) fun e _ hrefuses hstartable =>
        (hleft₃.world ▸ hstartable.outbox).not_refuses hrefuses).bind fun _ r₄ h₄ => ?_
      rw [if_neg (not_not_intro hexpected)]
      have hnow₄ : r₄.cursor.now = r₁.cursor.now := h₄.quiet.now.trans hleft₃.now
      refine (concludes_recoveryDeadline.weaken (fun _ _ h => h) fun e _ h hstartable => ?_).bind
        fun text r₅ h₅ => ?_
      · obtain ⟨deadline, hadd⟩ := hstartable.deadline
        rw [← hnow₄, h.1] at hadd
        cases hadd
      · obtain ⟨-, -, deadline, hadd, -⟩ := h₅
        rw [hnow₄] at hadd
        exact concludes_prepareDispatch_normal.weaken
          (fun _ _ h => ⟨⟨hready₃ h₄.before, h.1, deadline, hadd⟩, h.2⟩)
          fun _ _ h hstartable => h.1 hstartable.owner
  · exact Concludes.of_excused rfl ⟨hnot, rfl⟩

end Steps

/-! ### Healing -/

section Heals

variable {env env' : Env} {auth : StoredAuth} {expected : Option StoredAuth} {w : World}
  {header : String}

/-- An import returns, and the next refresh, of the imported credential, gets to its exchange. -/
def Heals (env env' : Env) (expected : Option StoredAuth) (auth : StoredAuth) (w : World) : Prop :=
  ∃ r, importCredential env auth (Run.start w) = (.ok auth, r) ∧
    ∃ r', prepare env' expected (Run.start r.world) = (.ok (.dispatch auth), r')

/-- What was left behind can be healed: the journal can be looked at, and the outbox is readable. -/
structure Healable (env' : Env) (w : World) : Prop where
  journal : ∃ loaded, journalOf w.journal = .ok loaded
  startable : Startable env' w 0

/-- An import that can retain what it finds leaves a world without a journal. -/
lemma exists_imported (h : env.Healthy) (himportable : w.Importable) :
    ∃ r, importCredential env auth (Run.start w) = (.ok auth, r) ∧
      (Run.start w).Imported auth r := by
  have hends := (@concludes_importCredential env (Run.start w) auth).ends (not_not_intro h)
  rcases hrun : importCredential env auth (Run.start w) with ⟨_ | e | _, r⟩
  · obtain ⟨-, rfl, himported⟩ := hends.returned (congrArg Prod.fst hrun)
    rw [hrun] at himported
    exact ⟨r, rfl, himported⟩
  · exact absurd himportable (hends.raised (congrArg Prod.fst hrun))
  · exact absurd (congrArg Prod.fst hrun) hends.not_crashed

/-- What an import that returns found and left. -/
lemma imported_of_import {r : Run} (h : env.Healthy)
    (himport : importCredential env auth (Run.start w) = (.ok auth, r)) :
    w.Importable ∧ (Run.start w).Imported auth r := by
  have hends := (@concludes_importCredential env (Run.start w) auth).ends (not_not_intro h)
  obtain ⟨himportable, -, himported⟩ := hends.returned (congrArg Prod.fst himport)
  rw [himport] at himported
  exact ⟨himportable h, himported⟩

/-- The refresh starts from what the import left. -/
lemma ends_prepare_of_imported {r : Run} (h' : env'.Healthy) (hsink : env'.SinkContained)
    (hcookie : auth.credential = .cookie header)
    (hvalid : ∀ n, authOf (env'.wall n) (some (.json (authPayload auth))) = .ok (.loaded auth))
    (hexpected : (expected.map StoredAuth.revision).getD auth.revision = auth.revision)
    (himported : (Run.start w).Imported auth r) :
    Ends (prepare env' expected) (Run.start r.world)
      (fun preparation _ => Startable env' w 0 ∧ preparation = .dispatch auth)
      (fun _ _ => ¬ Startable env' w 0) := by
  have hfinds : env'.Finds (Run.start r.world).world auth := by
    intro n
    rw [show (Run.start r.world).world.credential = _ from himported.credential]
    exact hvalid n
  have hstartable : Startable env' r.world 0 ↔ Startable env' w 0 :=
    ⟨fun hs => ⟨himported.outbox.1 hs.outbox, hs.owner, hs.deadline⟩,
      fun hs => ⟨himported.outbox.2 hs.outbox, hs.owner, hs.deadline⟩⟩
  refine ((concludes_prepare_of_noJournal hsink hfinds hcookie himported.journal hexpected).ends
    (not_not_intro h')).weaken (fun _ _ hp => ?_) fun _ _ hnot => ?_
  · exact ⟨hstartable.1 hp.1, hp.2⟩
  · exact fun hs => hnot (hstartable.2 hs)

/-- With storage that works, an import heals exactly what can be healed. -/
theorem heals_iff (h : env.Healthy) (h' : env'.Healthy) (hsink : env'.SinkContained)
    (hcookie : auth.credential = .cookie header)
    (hvalid : ∀ n, authOf (env'.wall n) (some (.json (authPayload auth))) = .ok (.loaded auth))
    (hexpected : (expected.map StoredAuth.revision).getD auth.revision = auth.revision) :
    Heals env env' expected auth w ↔ Healable env' w := by
  constructor
  · rintro ⟨r, himport, r', hprepare⟩
    obtain ⟨⟨loaded, hload, -⟩, himported⟩ := imported_of_import h himport
    have hends := ends_prepare_of_imported h' hsink hcookie hvalid hexpected himported
    obtain ⟨hs, -⟩ := hends.returned (congrArg Prod.fst hprepare)
    exact ⟨⟨loaded, hload⟩, hs⟩
  · rintro ⟨⟨loaded, hload⟩, hs⟩
    obtain ⟨r, himport, himported⟩ := exists_imported h
      (⟨loaded, hload, fun _ _ _ _ => hs.outbox⟩ : w.Importable)
    have hends := ends_prepare_of_imported h' hsink hcookie hvalid hexpected himported
    refine ⟨r, himport, ?_⟩
    rcases hrun : prepare env' expected (Run.start r.world) with ⟨preparation | e | _, r'⟩
    · obtain ⟨-, rfl⟩ := hends.returned (congrArg Prod.fst hrun)
      exact ⟨r', rfl⟩
    · exact absurd hs (hends.raised (congrArg Prod.fst hrun))
    · exact absurd (congrArg Prod.fst hrun) hends.not_crashed

/-- Files of which none is what it should be. -/
def corruptFiles : World :=
  ⟨some .notUtf8, some (.notJson "Expecting value"), some .notUtf8, [], [], none, [], []⟩

lemma Env.sinkContained_calm (owner : RefreshOwner) (now : Datetime) (minted : String) :
    (Env.calm owner now minted).SinkContained := by
  rintro _ ⟨⟩ n typeName ⟨⟩

theorem heals_iff_corruptJournal : Heals (.calm (worker 1) launch "r1")
    (.calm (worker 1) launch "r1") none firstAuth { corruptFiles with outbox := none } := by
  have hdeadline : launch.add? recoveryWindow = some (launchAfter 600) := by decide +kernel
  exact (heals_iff (Env.healthy_calm _ _ _) (Env.healthy_calm _ _ _) (Env.sinkContained_calm _ _ _)
    rfl (fun _ => authOf_firstAuth) rfl).2 ⟨⟨_, rfl⟩, ⟨[], .inr ⟨rfl, rfl⟩⟩, rfl, _, hdeadline⟩

/-- An import leaves a corrupt outbox in place. -/
theorem not_heals_corruptFiles :
    ¬ ∀ (env env' : Env) (expected : Option StoredAuth) (auth : StoredAuth) (header : String)
      (w : World), env.Healthy → env'.Healthy → env'.SinkContained →
      auth.credential = .cookie header →
      (∀ n, authOf (env'.wall n) (some (.json (authPayload auth))) = .ok (.loaded auth)) →
      (expected.map StoredAuth.revision).getD auth.revision = auth.revision →
      Heals env env' expected auth w := by
  intro h
  have hsink := Env.sinkContained_calm (worker 1) launch "r1"
  obtain ⟨r, himport, r', hprepare⟩ := h (.calm (worker 1) launch "r1")
    (.calm (worker 1) launch "r1") none firstAuth _ corruptFiles (Env.healthy_calm _ _ _)
    (Env.healthy_calm _ _ _) hsink rfl (fun _ => authOf_firstAuth) rfl
  have hends := ends_prepare_of_imported (Env.healthy_calm _ _ _) hsink rfl
    (fun _ => authOf_firstAuth) (rfl : (none.map StoredAuth.revision).getD _ = _)
    (imported_of_import (Env.healthy_calm _ _ _) himport).2
  obtain ⟨⟨hready, -, -⟩, -⟩ := hends.returned (congrArg Prod.fst hprepare)
  obtain ⟨records, hload | ⟨hnone, -⟩⟩ := hready
  · cases hload
  · cases hnone

end Heals

end EnjiGuard.AuthSession
