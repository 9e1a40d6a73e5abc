import EnjiGuard.Audit.Scheduling
import EnjiGuard.Audit.Runs
import EnjiGuard.Foundation.Traversing

/-!
# One start call

A start call resolves its selectors to audits of the catalog and then goes through them in order.
The guard of each audit looks at the runs that were active before the call, so an audit that is
named twice can be asked for twice.
-/

namespace EnjiGuard.Audit

open Foundation

/-! ### Selecting audits -/

def auditsBySelector (catalog : AuditCatalog) :
    Except GatewayFailure (List (String × AuditDefinition)) := do
  let items ← catalog.publishedAudits.mapM fun audit => do
    let selector ← auditSelector audit
    return (selector, audit)
  return Dictionary.ofItems items

def requiredAudit (bySelector : List (String × AuditDefinition)) (selector : String) :
    Except GatewayFailure AuditDefinition :=
  match bySelector.lookup selector with
  | some audit => .ok audit
  | none => .error (.value ("unknown audit selector: " ++ selector))

/-- The audits that selectors name, or all of them. -/
def chooseAudits (catalog : AuditCatalog) (selectors : List String) (allAudits : Bool) :
    Except GatewayFailure (List AuditDefinition) :=
  if allAudits then
    if selectors ≠ [] then .error (.value "pass audit selectors or --all, not both")
    else .ok catalog.publishedAudits
  else if selectors = [] then .error (.value "pass at least one audit selector or --all")
  else do
    let bySelector ← auditsBySelector catalog
    selectors.mapM (requiredAudit bySelector)

/-! ### Starting them -/

/-- What a start call is about, what it has read, and what it will be answered about the audit at
each position: whether its task body can be built, what its create request brings, and whether the
run can be recorded. -/
structure StartTarget where
  repoId : String
  projectId : String
  rerunState : AuditRerunState
  activeRuns : List AuditRun
  body : Nat → Except AuditError Unit
  created : Nat → Except AuditError AuditRunResult
  recorded : Nat → Except AuditError Unit

variable (codec : StatusCodec) (target : StartTarget)

/-- The create request that is sent for the audit at a position, by its action key. -/
def sentAt (position : Nat) (audit : AuditDefinition) : List String :=
  if startPlan codec audit target.rerunState target.activeRuns = .create ∧
    (target.body position).isOk then [audit.actionKey] else []

/-- Starts the audit at a position; beside the answer stands the create request that was sent. -/
def startAuditAt (position : Nat) (audit : AuditDefinition) :
    Except AuditError AuditRunBatchResultItem × List String :=
  let sent := sentAt codec target position audit
  match startOneAudit codec target.repoId target.projectId audit target.rerunState
    target.activeRuns (target.body position) (target.created position) with
  | .error e => (.error e, sent)
  | .ok (item, none) => (.ok item, sent)
  | .ok (item, some _) => ((target.recorded position).map fun _ => item, sent)

/-- Starts audits in order; an error that does not concern one audit alone ends the call. -/
def startAuditsForTarget : Nat → List AuditDefinition →
    Except AuditError (List AuditRunBatchResultItem) × List String
  | _, [] => (.ok [], [])
  | position, audit :: audits =>
    match startAuditAt codec target position audit with
    | (.error e, sent) => (.error e, sent)
    | (.ok item, sent) =>
      let rest := startAuditsForTarget (position + 1) audits
      (rest.1.map (item :: ·), sent ++ rest.2)

/-- A start call sends at most one create request for each action key. -/
def CreatesOnce (audits : List AuditDefinition) : Prop :=
  (startAuditsForTarget codec target 0 audits).2.Nodup

/-! ### What happens at a position -/

/-- The audit at a position gets to its create request: it has no run of the current head, its
audited head is not the current one, and its task body can be built. -/
def Needed (position : Nat) (audit : AuditDefinition) : Prop :=
  startPlan codec audit target.rerunState target.activeRuns = .create ∧
    (target.body position).isOk

/-- An error ends the call at a position: one of the task body or of the create request that does
not concern this audit alone, or one of recording the run. -/
def EndsCall (position : Nat) (audit : AuditDefinition) : Prop :=
  startPlan codec audit target.rerunState target.activeRuns = .create ∧
    match target.body position with
    | .error (.actionUnusable _) => False
    | .error _ => True
    | .ok () =>
      match target.created position with
      | .error (.upstream _) => False
      | .error (.malformed _) => False
      | .error _ => True
      | .ok _ => (target.recorded position).isOk = false

/-- An audit that selectors name twice gets to a create request at most once: it needs no run, or
its task body cannot be built both times, or the call has ended before the second time. -/
def RepeatsHarmlessly (selectors : List String) (audits : List AuditDefinition) : Prop :=
  ∀ (first second : Nat) selector audit, first < second →
    selectors[first]? = some selector → selectors[second]? = some selector →
    audits[first]? = some audit → audits[second]? = some audit →
    Needed codec target first audit → Needed codec target second audit →
    ∃ position < second, ∃ other, audits[position]? = some other ∧
      EndsCall codec target position other

variable {codec target} {audit : AuditDefinition} {audits : List AuditDefinition}
variable {position : Nat}

lemma mem_sentAt {actionKey : String} : actionKey ∈ sentAt codec target position audit ↔
    Needed codec target position audit ∧ audit.actionKey = actionKey := by
  unfold sentAt Needed
  split_ifs with hneeded
  · rw [List.mem_singleton]
    exact ⟨fun h => ⟨hneeded, h.symm⟩, fun h => h.2.symm⟩
  · simp [hneeded]

lemma nodup_sentAt : (sentAt codec target position audit).Nodup := by
  unfold sentAt
  split_ifs <;> simp

lemma startAuditAt_sent : (startAuditAt codec target position audit).2 =
    sentAt codec target position audit := by
  unfold startAuditAt
  rcases startOneAudit codec target.repoId target.projectId audit target.rerunState
    target.activeRuns (target.body position) (target.created position) with e | ⟨item, _ | run⟩
  all_goals rfl

/-- The call ends where the answer is an error. -/
lemma startAuditAt_error_iff :
    (∃ e, (startAuditAt codec target position audit).1 = .error e) ↔
      EndsCall codec target position audit := by
  unfold startAuditAt EndsCall startOneAudit
  rcases hplan : startPlan codec audit target.rerunState target.activeRuns with item | _
  · simp
  · rcases hbody : target.body position with e | _
    · cases e <;> simp
    · rcases hcreated : target.created position with e | run
      · cases e <;> simp
      · rcases hrecorded : target.recorded position with e | _
        · simp [Except.map, Except.isOk, Except.toBool]
        · simp [Except.map, Except.isOk, Except.toBool]

/-! ### What a call sends -/

lemma startAuditsForTarget_of_endsCall (h : EndsCall codec target position audit) :
    (startAuditsForTarget codec target position (audit :: audits)).2 =
      sentAt codec target position audit := by
  obtain ⟨e, he⟩ := startAuditAt_error_iff.2 h
  have hsent := @startAuditAt_sent codec target audit position
  rw [startAuditsForTarget]
  rcases hstart : startAuditAt codec target position audit with ⟨e' | item, sent⟩ <;>
    rw [hstart] at he hsent
  · exact hsent
  · cases he

lemma startAuditsForTarget_of_goesOn (h : ¬ EndsCall codec target position audit) :
    (startAuditsForTarget codec target position (audit :: audits)).2 =
      sentAt codec target position audit ++
        (startAuditsForTarget codec target (position + 1) audits).2 := by
  have hsent := @startAuditAt_sent codec target audit position
  rw [startAuditsForTarget]
  rcases hstart : startAuditAt codec target position audit with ⟨e | item, sent⟩ <;>
    rw [hstart] at hsent
  · exact absurd (startAuditAt_error_iff.1 ⟨e, by rw [hstart]⟩) h
  · rw [← hsent]

/-- A create request is sent at a position that gets to it before the call ends. -/
lemma mem_sent {actionKey : String} :
    actionKey ∈ (startAuditsForTarget codec target position audits).2 ↔
      ∃ n audit, audits[n]? = some audit ∧ audit.actionKey = actionKey ∧
        Needed codec target (position + n) audit ∧
        ∀ m < n, ∀ other, audits[m]? = some other →
          ¬ EndsCall codec target (position + m) other := by
  induction audits generalizing position with
  | nil => simp [startAuditsForTarget]
  | cons audit audits ih =>
    by_cases hends : EndsCall codec target position audit
    · rw [startAuditsForTarget_of_endsCall hends, mem_sentAt]
      constructor
      · rintro ⟨hneeded, hkey⟩
        exact ⟨0, audit, rfl, hkey, hneeded, fun m hm => absurd hm (Nat.not_lt_zero m)⟩
      · rintro ⟨n, other, hother, hkey, hneeded, hgoes⟩
        cases n with
        | zero =>
          cases hother
          exact ⟨hneeded, hkey⟩
        | succ n => exact absurd hends (hgoes 0 (Nat.succ_pos n) audit rfl)
    · rw [startAuditsForTarget_of_goesOn hends, List.mem_append, mem_sentAt, ih]
      constructor
      · rintro (⟨hneeded, hkey⟩ | ⟨n, other, hother, hkey, hneeded, hgoes⟩)
        · exact ⟨0, audit, rfl, hkey, hneeded, fun m hm => absurd hm (Nat.not_lt_zero m)⟩
        · refine ⟨n + 1, other, hother, hkey, ?_, ?_⟩
          · rwa [Nat.add_right_comm] at hneeded
          · intro m hm third hthird
            cases m with
            | zero =>
              cases hthird
              exact hends
            | succ m =>
              rw [← Nat.add_assoc, Nat.add_right_comm]
              exact hgoes m (Nat.lt_of_succ_lt_succ hm) third hthird
      · rintro ⟨n, other, hother, hkey, hneeded, hgoes⟩
        cases n with
        | zero =>
          cases hother
          exact .inl ⟨hneeded, hkey⟩
        | succ n =>
          refine .inr ⟨n, other, hother, hkey, ?_, ?_⟩
          · rwa [← Nat.add_assoc, Nat.add_right_comm] at hneeded
          · intro m hm third hthird
            rw [Nat.add_right_comm]
            exact hgoes (m + 1) (Nat.succ_lt_succ hm) third hthird

/-- Two positions of a call that both get to a create request for one action. -/
def SentTwice (codec : StatusCodec) (target : StartTarget) (position : Nat)
    (audits : List AuditDefinition) : Prop :=
  ∃ first second a b, first < second ∧ audits[first]? = some a ∧ audits[second]? = some b ∧
    a.actionKey = b.actionKey ∧ Needed codec target (position + first) a ∧
    Needed codec target (position + second) b ∧
    ∀ m < second, ∀ other, audits[m]? = some other → ¬ EndsCall codec target (position + m) other

/-- A request is sent twice by the first audit and a later one, or by two later ones. -/
lemma sentTwice_cons (hgoes : ¬ EndsCall codec target position audit) :
    SentTwice codec target position (audit :: audits) ↔
      (∃ actionKey ∈ sentAt codec target position audit,
        actionKey ∈ (startAuditsForTarget codec target (position + 1) audits).2) ∨
      SentTwice codec target (position + 1) audits := by
  have hshift : ∀ n, position + 1 + n = position + (n + 1) := fun n => by omega
  constructor
  · rintro ⟨first, second, a, b, hlt, ha, hb, hkey, hneeded, hneeded', hall⟩
    obtain ⟨second, rfl⟩ := Nat.exists_eq_succ_of_ne_zero (Nat.ne_zero_of_lt hlt)
    have hlater : ∀ m < second, ∀ other, audits[m]? = some other →
        ¬ EndsCall codec target (position + 1 + m) other := by
      intro m hm other hother
      rw [hshift]
      exact hall (m + 1) (Nat.succ_lt_succ hm) other hother
    cases first with
    | zero =>
      cases ha
      refine .inl ⟨_, mem_sentAt.2 ⟨hneeded, rfl⟩,
        mem_sent.2 ⟨second, b, hb, hkey.symm, ?_, hlater⟩⟩
      rwa [hshift]
    | succ first =>
      refine .inr ⟨first, second, a, b, Nat.lt_of_succ_lt_succ hlt, ha, hb, hkey, ?_, ?_, hlater⟩
      · rwa [hshift]
      · rwa [hshift]
  · have hlater : ∀ second, (∀ m < second, ∀ other, audits[m]? = some other →
        ¬ EndsCall codec target (position + 1 + m) other) →
        ∀ m < second + 1, ∀ other, (audit :: audits)[m]? = some other →
          ¬ EndsCall codec target (position + m) other := by
      intro second hall m hm other hother
      cases m with
      | zero =>
        cases hother
        exact hgoes
      | succ m =>
        rw [← hshift]
        exact hall m (Nat.lt_of_succ_lt_succ hm) other hother
    rintro (⟨actionKey, hfirst, hsecond⟩ |
      ⟨first, second, a, b, hlt, ha, hb, hkey, hneeded, hneeded', hall⟩)
    · obtain ⟨hneeded, rfl⟩ := mem_sentAt.1 hfirst
      obtain ⟨second, b, hb, hkey, hneeded', hall⟩ := mem_sent.1 hsecond
      refine ⟨0, second + 1, audit, b, Nat.succ_pos _, rfl, hb, hkey.symm, hneeded, ?_,
        hlater second hall⟩
      rwa [← hshift]
    · refine ⟨first + 1, second + 1, a, b, Nat.succ_lt_succ hlt, ha, hb, hkey, ?_, ?_,
        hlater second hall⟩
      · rwa [← hshift]
      · rwa [← hshift]

/-- Create requests are repeated when two positions send one for the same action. -/
lemma nodup_sent_iff : (startAuditsForTarget codec target position audits).2.Nodup ↔
    ¬ SentTwice codec target position audits := by
  induction audits generalizing position with
  | nil => simp [startAuditsForTarget, SentTwice]
  | cons audit audits ih =>
    by_cases hends : EndsCall codec target position audit
    · rw [startAuditsForTarget_of_endsCall hends]
      refine iff_of_true nodup_sentAt ?_
      rintro ⟨first, second, a, b, hlt, -, -, -, -, -, hgoes⟩
      exact hgoes 0 (Nat.zero_lt_of_lt hlt) audit rfl hends
    · rw [startAuditsForTarget_of_goesOn hends, sentTwice_cons hends, not_or, ← ih,
        List.nodup_append]
      constructor
      · rintro ⟨-, hrest, hdisjoint⟩
        refine ⟨?_, hrest⟩
        rintro ⟨actionKey, hfirst, hsecond⟩
        exact hdisjoint _ hfirst _ hsecond rfl
      · rintro ⟨hdisjoint, hrest⟩
        refine ⟨nodup_sentAt, hrest, fun a ha b hb hab => hdisjoint ⟨a, ha, ?_⟩⟩
        rwa [hab]

/-! ### What selectors choose -/

variable {catalog : AuditCatalog} {selectors : List String} {allAudits : Bool}

/-- An audit is found under its own selector. -/
lemma selector_of_requiredAudit {bySelector : List (String × AuditDefinition)} {selector : String}
    (hdictionary : auditsBySelector catalog = .ok bySelector)
    (h : requiredAudit bySelector selector = .ok audit) :
    audit ∈ catalog.publishedAudits ∧ auditSelector audit = .ok selector := by
  have hlookup : bySelector.lookup selector = some audit := by
    unfold requiredAudit at h
    split at h
    · cases h
      assumption
    · cases h
  rcases hitems : catalog.publishedAudits.mapM fun audit => do
      let selector ← auditSelector audit
      return (selector, audit) with e | items <;> rw [auditsBySelector, hitems] at hdictionary
  · cases hdictionary
  · cases hdictionary
    have hmem := Dictionary.mem_of_mem_ofItems (Dictionary.mem_of_lookup_eq_some hlookup)
    obtain ⟨audit', haudit', hitem⟩ := exists_of_mem_mapM hitems hmem
    rcases hselector : auditSelector audit' with e | selector'
    · simp [hselector, bind, Except.bind] at hitem
    · simp only [hselector, bind, Except.bind, pure, Except.pure, Except.ok.injEq,
        Prod.mk.injEq] at hitem
      obtain ⟨rfl, rfl⟩ := hitem
      exact ⟨haudit', hselector⟩

/-- The audits that are chosen are published, and stand where their selectors do; when all are
chosen there are no selectors. -/
lemma chooseAudits_spec (h : chooseAudits catalog selectors allAudits = .ok audits) :
    (selectors = [] ∧ audits = catalog.publishedAudits) ∨
      ∀ (n : Nat) audit, audits[n]? = some audit → ∃ selector, selectors[n]? = some selector ∧
        audit ∈ catalog.publishedAudits ∧ auditSelector audit = .ok selector := by
  unfold chooseAudits at h
  split_ifs at h with hall hselectors hselectors
  · cases h
    exact .inl ⟨not_not.1 hselectors, rfl⟩
  · rcases hdictionary : auditsBySelector catalog with e | bySelector
    · simp [hdictionary, bind, Except.bind] at h
    · simp only [hdictionary, bind, Except.bind] at h
      refine .inr fun n audit haudit => ?_
      obtain ⟨selector, hselector, hfound⟩ := getElem?_of_mapM h haudit
      exact ⟨selector, hselector, selector_of_requiredAudit hdictionary hfound⟩

/-- A catalog names each published audit by its own action key. -/
lemma nodup_actionKeys {text : PlanText} {result : AuditCatalogResult}
    (h : parseCatalogResult text result = .ok catalog) :
    (catalog.publishedAudits.map AuditDefinition.actionKey).Nodup := by
  unfold parseCatalogResult at h
  split at h
  · rename_i action _
    rcases hrecon : auditDefinition text action with e | recon <;> rw [hrecon] at h
    · cases h
    · rcases haudits : (result.actions.filter isPublishedAudit).mapM (publishedDefinition text)
        with e | audits <;> rw [haudits] at h
      · cases h
      · simp only [bind, Except.bind] at h
        split_ifs at h with hkeys
        rcases hselectors : (recon :: audits).mapM auditSelector with e | selectors <;>
          rw [hselectors] at h
        · cases h
        · dsimp only at h
          split_ifs at h
          cases h
          exact (List.nodup_cons.1 hkeys).2
  · cases h

/-- One start call sends at most one create request for each action key exactly when no audit that
is named twice gets to its create request twice. -/
theorem createsOnce_iff {text : PlanText} {result : AuditCatalogResult}
    (hcatalog : parseCatalogResult text result = .ok catalog)
    (hchoose : chooseAudits catalog selectors allAudits = .ok audits) :
    CreatesOnce codec target audits ↔ RepeatsHarmlessly codec target selectors audits := by
  have hkeys := nodup_actionKeys hcatalog
  have hspec := chooseAudits_spec hchoose
  rw [CreatesOnce, nodup_sent_iff]
  constructor
  · intro htwice first second selector audit hlt _ _ hfirst hsecond hneeded hneeded'
    by_contra hnone
    refine htwice ⟨first, second, audit, audit, hlt, hfirst, hsecond, rfl, by rwa [Nat.zero_add],
      by rwa [Nat.zero_add], fun m hm other hother hends => hnone ⟨m, hm, other, hother, ?_⟩⟩
    rwa [Nat.zero_add] at hends
  · rintro hharmless ⟨first, second, a, b, hlt, hfirst, hsecond, hkey, hneeded, hneeded', hgoes⟩
    rw [Nat.zero_add] at hneeded hneeded'
    rcases hspec with ⟨-, rfl⟩ | hspec
    · -- all audits: no action key stands at two positions
      obtain ⟨hlength, -⟩ := List.getElem?_eq_some_iff.1 hsecond
      refine List.nodup_iff_getElem?_ne_getElem?.1 hkeys first second hlt ?_ ?_
      · rwa [List.length_map]
      · rw [List.getElem?_map, List.getElem?_map, hfirst, hsecond, Option.map_some,
          Option.map_some, hkey]
    · obtain ⟨selector, hselector, ha, hown⟩ := hspec first a hfirst
      obtain ⟨selector', hselector', hb, hown'⟩ := hspec second b hsecond
      cases List.inj_on_of_nodup_map hkeys ha hb hkey
      rw [hown] at hown'
      cases hown'
      obtain ⟨m, hm, other, hother, hends⟩ := hharmless first second selector a hlt
        hselector hselector' hfirst hsecond hneeded hneeded'
      exact hgoes m hm other hother (by rwa [Nat.zero_add])

/-- A catalog with one audit beside the recon action. -/
def securityCatalog : AuditCatalogResult where
  actions := [
    { actionKey := "audit.recon", title := "Recon", category := some "audit",
      status := some "published", metricGroup := none, runbookKind := some "recon" },
    { actionKey := "audit.security", title := "Security", category := some "audit",
      status := some "published", metricGroup := some "security", runbookKind := some "audit",
      runbookId := some "runbook" }]

/-- The audit of that catalog. -/
def securityAudit : AuditDefinition := ⟨"audit.security", "Security", some "runbook"⟩

/-- A repository without runs whose head was never audited, with a service that starts every run. -/
def quietTarget : StartTarget where
  repoId := "repo"
  projectId := "project"
  rerunState := { currentHeadSha := some "head" }
  activeRuns := []
  body _ := .ok ()
  created _ := .ok ⟨some "task", some "queued"⟩
  recorded _ := .ok ()

lemma parseCatalogResult_security : parseCatalogResult plainPlanText securityCatalog =
    .ok ⟨[securityAudit], ⟨"audit.recon", "Recon", none⟩⟩ := by rfl

/-- Another audit, and a catalog that has both. -/
def testsAudit : AuditDefinition := ⟨"audit.tests", "Tests", some "runbook"⟩

def pairCatalog : AuditCatalogResult where
  actions := securityCatalog.actions ++ [
    { actionKey := "audit.tests", title := "Tests", category := some "audit",
      status := some "published", metricGroup := some "tests", runbookKind := some "audit",
      runbookId := some "runbook" }]

/-- The same repository while a run of its security audit is active. -/
def busyTarget : StartTarget :=
  { quietTarget with
    activeRuns := [⟨some "task", some "audit.security", some "running", none, none, none, none,
      none, none, none, none⟩] }

theorem createsOnce_iff_busy :
    CreatesOnce plainStatusCodec busyTarget [securityAudit, testsAudit, securityAudit] := by
  have hcatalog : parseCatalogResult plainPlanText pairCatalog =
      .ok ⟨[securityAudit, testsAudit], ⟨"audit.recon", "Recon", none⟩⟩ := by rfl
  have hchoose : chooseAudits ⟨[securityAudit, testsAudit], ⟨"audit.recon", "Recon", none⟩⟩
      ["security", "tests", "security"] false =
        .ok [securityAudit, testsAudit, securityAudit] := by decide +kernel
  have hactive : startPlan plainStatusCodec securityAudit busyTarget.rerunState
      busyTarget.activeRuns ≠ .create := by decide +kernel
  refine (createsOnce_iff hcatalog hchoose).2 ?_
  intro first second selector audit hlt hfirst hsecond haudit _ hneeded _
  -- only the security audit is named twice, and it needs no run
  rcases first with _ | _ | first
  · cases haudit
    exact absurd hneeded.1 hactive
  · obtain rfl : second = 2 := by
      rcases second with _ | _ | _ | second
      · omega
      · omega
      · rfl
      · cases hsecond
    cases hfirst
    exact absurd hsecond (by decide)
  · rcases second with _ | _ | _ | second
    · omega
    · omega
    · omega
    · cases hsecond

/-- An audit that is named twice is started twice. -/
theorem not_createsOnce_repeated :
    ¬ ∀ (codec : StatusCodec) (text : PlanText) (target : StartTarget)
      (result : AuditCatalogResult) (catalog : AuditCatalog) (selectors : List String)
      (allAudits : Bool) (audits : List AuditDefinition),
      parseCatalogResult text result = .ok catalog →
      chooseAudits catalog selectors allAudits = .ok audits → CreatesOnce codec target audits := by
  intro h
  have hchoose : chooseAudits ⟨[securityAudit], ⟨"audit.recon", "Recon", none⟩⟩
      ["security", "security"] false = .ok [securityAudit, securityAudit] := by decide +kernel
  have honce := h plainStatusCodec plainPlanText quietTarget securityCatalog _ _ _ _
    parseCatalogResult_security hchoose
  revert honce
  unfold CreatesOnce
  decide +kernel

end EnjiGuard.Audit
