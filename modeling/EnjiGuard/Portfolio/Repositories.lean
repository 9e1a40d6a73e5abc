import EnjiGuard.Portfolio.Selectors

/-!
# What a project selector means

Commands resolve the text of a project selector in three ways: as a project of the account, as the
scope of a search over all repositories, and as a filter of the overview. The workflows here follow
one of them each; the last section says for which texts they agree. The gateway answers for the list
of the projects and for the details of each of them, and the answers need not agree.
-/

namespace EnjiGuard.Portfolio

open Foundation

/-! ### The gateway -/

/-- Active work on a repository of a project. -/
structure PortfolioActiveRun where
  repoId : String
  taskId : Option String := none
  actionKey : Option String := none
  status : Option String := none
  createdAt : Option String := none
  startedAt : Option String := none
  completedAt : Option String := none
  deriving DecidableEq, Repr

/-- What the service says about a move before it is made. -/
structure MovePreflight where
  allowed : Bool := true
  message : Option String := none
  deriving DecidableEq, Repr

/-- The typed operations on projects and repositories. -/
structure PortfolioGateway where
  listProjects : List ProjectRef
  projectDetail : String → ProjectDetail
  projectActiveRuns : String → List PortfolioActiveRun
  preflightRepositoryMove : String → String → String → MovePreflight
  moveRepository : String → String → String → RepositoryRef

/-- A request that changes the portfolio, or asks whether it may be changed. -/
inductive PortfolioRequest
  | removeRepository (projectId repoId : String)
  | preflightRepositoryMove (sourceProjectId repoId targetProjectId : String)
  | moveRepository (sourceProjectId repoId targetProjectId : String)
  deriving DecidableEq, Repr

/-- A request is about a repository of a project. -/
def PortfolioRequest.IsAbout (target : RepositoryRef) : PortfolioRequest → Prop
  | .removeRepository projectId repoId => projectId = target.projectId ∧ repoId = target.repoId
  | .preflightRepositoryMove source repoId _ => source = target.projectId ∧ repoId = target.repoId
  | .moveRepository source repoId _ => source = target.projectId ∧ repoId = target.repoId

structure OperationResult where
  state : String
  repository : Option RepositoryRef := none
  sourceProjectId : Option String := none
  targetProjectId : Option String := none
  message : Option String := none
  deriving DecidableEq, Repr

/-- The requests an operation sent and how it ended. -/
structure Operation where
  requests : List PortfolioRequest := []
  result : Except PortfolioError OperationResult

section

variable (text : SelectorText) (gateway : PortfolioGateway)

/-! ### Targets -/

def PortfolioGateway.repositoriesOf (project : ProjectRef) : List RepositoryRef :=
  (gateway.projectDetail project.projectId).repositories

/-- The repositories of projects, in the order of the projects. -/
def repositoryTargets (projects : List ProjectRef) : List RepositoryRef :=
  projects.flatMap gateway.repositoriesOf

/-- The projects whose details a resolver reads. -/
def selectedProjects : Option String → Except PortfolioError (List ProjectRef)
  | none => .ok gateway.listProjects
  | some project => (fun selected => [selected]) <$>
      resolveProject text gateway.listProjects (some project)

def targets (repo project : Option String) : Except PortfolioError (List RepositoryRef) := do
  let selected ← selectedProjects text gateway project
  let repositories := repositoryTargets gateway selected
  match repo with
  | none => return repositories
  | some repo => return [← resolveRepository text repositories repo project]

def gatewayResolveRepository (selector : String) (project : Option String) :
    Except PortfolioError RepositoryRef := do
  let selected ← selectedProjects text gateway project
  resolveRepository text (repositoryTargets gateway selected) selector project

/-- All repositories of the account. -/
def allTargets : List RepositoryRef :=
  repositoryTargets gateway gateway.listProjects

/-! ### Removing and moving a repository -/

/-- Removes a repository; one that is not found counts as absent already. -/
def removeRepository (repo : String) (project : Option String) : Operation :=
  match resolveRepository text (allTargets gateway) repo project with
  | .error (.notFound _) =>
    { result := .ok { state := "already_absent"
                      message := some ("repository already absent: " ++ repo) } }
  | .error e => { result := .error e }
  | .ok target =>
    { requests := [.removeRepository target.projectId target.repoId]
      result := .ok { state := "removed", repository := some target } }

/-- Moves a repository to another project, which the service may refuse beforehand. -/
def moveRepository (repo : String) (sourceProject : Option String) (targetProject : String) :
    Operation :=
  match resolveRepository text (allTargets gateway) repo sourceProject with
  | .error e => { result := .error e }
  | .ok target =>
    match resolveProject text gateway.listProjects (some targetProject) with
    | .error e => { result := .error e }
    | .ok destination =>
      if target.projectId = destination.projectId then
        { result := .ok { state := "already_in_target"
                          repository := some target
                          sourceProjectId := some target.projectId
                          targetProjectId := some destination.projectId } }
      else
        let preflight := gateway.preflightRepositoryMove target.projectId target.repoId
          destination.projectId
        let asked : PortfolioRequest := .preflightRepositoryMove target.projectId target.repoId
          destination.projectId
        if preflight.allowed then
          { requests := [asked, .moveRepository target.projectId target.repoId
              destination.projectId]
            result := .ok { state := "moved"
                            repository := some (gateway.moveRepository target.projectId
                              target.repoId destination.projectId)
                            sourceProjectId := some target.projectId
                            targetProjectId := some destination.projectId } }
        else
          { requests := [asked]
            result := .error (.value (match preflight.message with
              | none => "repository move preflight failed"
              | some message =>
                if message = "" then "repository move preflight failed" else message)) }

/-! ### The overview -/

/-- A repository with the active work on it. -/
structure RepositoryOverview where
  repository : RepositoryRef
  activeRuns : List PortfolioActiveRun
  deriving DecidableEq, Repr

structure ProjectOverview where
  project : ProjectRef
  repositories : List RepositoryOverview
  deriving DecidableEq, Repr

structure PortfolioOverview where
  observedAt : String
  projects : List ProjectOverview
  deriving DecidableEq, Repr

/-- A project with its active work; `order` sorts the repositories. -/
def projectOverview (detail : ProjectDetail) (activeRuns : List PortfolioActiveRun)
    (order : List RepositoryOverview → List RepositoryOverview) : ProjectOverview where
  project := detail.project
  repositories := order (detail.repositories.map fun repository =>
    { repository := repository
      activeRuns := activeRuns.filter fun run => run.repoId = repository.repoId })

def overviewProjects : Option String → List ProjectRef
  | none => gateway.listProjects
  | some project => gateway.listProjects.filter fun item =>
      project = item.projectId ∨ some project = item.name

/-- The overview of the projects a text filters. -/
def assembleOverview (project : Option String) (observedAt : String)
    (order : List RepositoryOverview → List RepositoryOverview) :
    Except PortfolioError PortfolioOverview :=
  .ok { observedAt := observedAt
        projects := (overviewProjects gateway project).map fun item =>
          projectOverview (gateway.projectDetail item.projectId)
            (gateway.projectActiveRuns item.projectId) order }

end

/-! ### One meaning -/

section

variable (text : SelectorText) (gateway : PortfolioGateway) (selector : String)

/-- A project selector has one meaning: the project it resolves to is the scope of a search and
what the overview shows, or all of them refuse it alike; removing and moving a repository follow
the selector resolver, and a repository is absent only from a project that is there. -/
structure OneMeaning : Prop where
  overview : ∀ observedAt order,
    assembleOverview gateway (some selector) observedAt order =
      (fun project =>
        { observedAt := observedAt
          projects := [projectOverview (gateway.projectDetail project.projectId)
            (gateway.projectActiveRuns project.projectId) order] }) <$>
        resolveProject text gateway.listProjects (some selector)
  designated : ∀ project,
    resolveProject text gateway.listProjects (some selector) = .ok project →
      (allTargets gateway).filter (inProjectScope text · (some selector)) =
        gateway.repositoriesOf project
  refused : ∀ e, resolveProject text gateway.listProjects (some selector) = .error e → ∀ repo,
    ∃ e', resolveRepository text (allTargets gateway) repo (some selector) = .error e' ∧
      e'.isNotFound = e.isNotFound
  removes : ∀ repo,
    ∀ request ∈ (removeRepository text gateway repo (some selector)).requests,
      ∃ target, gatewayResolveRepository text gateway repo (some selector) = .ok target ∧
        request.IsAbout target
  moves : ∀ repo targetProject,
    ∀ request ∈ (moveRepository text gateway repo (some selector) targetProject).requests,
      ∃ target, gatewayResolveRepository text gateway repo (some selector) = .ok target ∧
        request.IsAbout target
  absent : ∀ repo result,
    (removeRepository text gateway repo (some selector)).result = .ok result →
      result.state = "already_absent" →
        ∃ project, resolveProject text gateway.listProjects (some selector) = .ok project
  missing : ∀ repo message,
    resolveRepository text (allTargets gateway) repo (some selector) =
      .error (.notFound message) →
        ∃ project, resolveProject text gateway.listProjects (some selector) = .ok project

/-- A project selector is plain: in any case it fits one listed project only, whose id or name it
spells exactly, and of all repositories exactly those in the details of this project say that they
are in its scope. -/
def Plain : Prop :=
  ∃ project, gateway.listProjects.filter (projectMatches text · selector) = [project] ∧
    (selector = project.projectId ∨ some selector = project.name) ∧
    (∀ target ∈ gateway.repositoriesOf project,
      inProjectScope text target (some selector) = true) ∧
    ∀ other ∈ gateway.listProjects, other ≠ project → ∀ target ∈ gateway.repositoriesOf other,
      inProjectScope text target (some selector) = false

end

section Meaning

variable {text : SelectorText} {gateway : PortfolioGateway} {selector repo : String}
variable {project : ProjectRef}

lemma resolveProject_eq_ok_iff {projects : List ProjectRef} :
    resolveProject text projects (some selector) = .ok project ↔
      projects.filter (projectMatches text · selector) = [project] := by
  rw [resolveProject]
  split
  next h => simp [h]
  next found h => simp [h]
  next h => exact ⟨by rintro ⟨⟩, fun hfound => absurd hfound (h project)⟩

/-- A search depends only on the targets in scope. -/
lemma resolveRepository_congr {targets targets' : List RepositoryRef} {scope : Option String}
    (h : targets.filter (inProjectScope text · scope) =
      targets'.filter (inProjectScope text · scope)) :
    resolveRepository text targets repo scope = resolveRepository text targets' repo scope := by
  simp only [resolveRepository, h]

lemma mem_of_matches {projects : List ProjectRef}
    (h : projects.filter (projectMatches text · selector) = [project]) :
    project ∈ projects ∧ projectMatches text project selector = true :=
  List.mem_filter.1 (h ▸ List.mem_singleton_self project)

/-- The one project that fits a selector is listed once. -/
lemma exists_split_of_matches {projects : List ProjectRef}
    (h : projects.filter (projectMatches text · selector) = [project]) :
    ∃ before after, projects = before ++ project :: after ∧ project ∉ before ∧
      project ∉ after := by
  obtain ⟨hmem, hmatches⟩ := mem_of_matches h
  obtain ⟨before, after, rfl⟩ := List.append_of_mem hmem
  refine ⟨before, after, rfl, ?_, ?_⟩ <;> intro hagain
  all_goals
    obtain ⟨before', after', rfl⟩ := List.append_of_mem hagain
    have hlength := congrArg List.length h
    simp [List.filter_append, hmatches] at hlength
    omega

/-- What a search finds in the scope of a selector that fits one project is what the details of this
project hold exactly when these, and only these, are in scope. -/
lemma filter_allTargets_eq_iff
    (h : gateway.listProjects.filter (projectMatches text · selector) = [project]) :
    (allTargets gateway).filter (inProjectScope text · (some selector)) =
        gateway.repositoriesOf project ↔
      (∀ target ∈ gateway.repositoriesOf project,
        inProjectScope text target (some selector) = true) ∧
      ∀ other ∈ gateway.listProjects, other ≠ project → ∀ target ∈ gateway.repositoriesOf other,
        inProjectScope text target (some selector) = false := by
  obtain ⟨before, after, hprojects, hbefore, hafter⟩ := exists_split_of_matches h
  have hall : (allTargets gateway).filter (inProjectScope text · (some selector)) =
      (before.flatMap gateway.repositoriesOf).filter (inProjectScope text · (some selector)) ++
        ((gateway.repositoriesOf project).filter (inProjectScope text · (some selector)) ++
          (after.flatMap gateway.repositoriesOf).filter
            (inProjectScope text · (some selector))) := by
    rw [allTargets, repositoryTargets, hprojects, List.flatMap_append, List.flatMap_cons,
      List.filter_append, List.filter_append]
  constructor
  · intro hfilter
    have hself : ∀ target ∈ gateway.repositoriesOf project,
        inProjectScope text target (some selector) = true := by
      intro target htarget
      rw [← hfilter] at htarget
      exact (List.mem_filter.1 htarget).2
    refine ⟨hself, fun other hother hne target htarget => ?_⟩
    -- all repositories of the project are found, so there is no room for another one
    rw [hall, List.filter_eq_self.2 hself] at hfilter
    have hlength := congrArg List.length hfilter
    simp only [List.length_append] at hlength
    have hnone : ∀ projects : List ProjectRef, other ∈ projects →
        ((projects.flatMap gateway.repositoriesOf).filter
          (inProjectScope text · (some selector))).length = 0 →
        inProjectScope text target (some selector) = false := by
      intro projects hmem hempty
      have hnil := List.filter_eq_nil_iff.1 (List.length_eq_zero_iff.1 hempty) target
        (List.mem_flatMap.2 ⟨other, hmem, htarget⟩)
      simpa using hnil
    rw [hprojects, List.mem_append, List.mem_cons] at hother
    rcases hother with hother | hother | hother
    · exact hnone before hother (by omega)
    · exact absurd hother hne
    · exact hnone after hother (by omega)
  · rintro ⟨hself, hothers⟩
    have hnil : ∀ projects : List ProjectRef, (∀ other ∈ projects, other ∈ gateway.listProjects) →
        project ∉ projects → (projects.flatMap gateway.repositoriesOf).filter
          (inProjectScope text · (some selector)) = [] := by
      intro projects hlisted hnot
      refine List.filter_eq_nil_iff.2 fun target htarget => ?_
      obtain ⟨other, hother, htarget⟩ := List.mem_flatMap.1 htarget
      rw [hothers other (hlisted other hother) (fun heq => hnot (heq ▸ hother)) target htarget]
      exact Bool.false_ne_true
    rw [hall, List.filter_eq_self.2 hself, hnil before (by simp +contextual [hprojects]) hbefore,
      hnil after (by simp +contextual [hprojects]) hafter, List.nil_append, List.append_nil]

/-- With a plain selector, the search over all repositories is the one of the resolver. -/
lemma gatewayResolveRepository_eq
    (h : gateway.listProjects.filter (projectMatches text · selector) = [project])
    (hdesignated : (allTargets gateway).filter (inProjectScope text · (some selector)) =
      gateway.repositoriesOf project) :
    gatewayResolveRepository text gateway repo (some selector) =
      resolveRepository text (allTargets gateway) repo (some selector) := by
  have hselected : selectedProjects text gateway (some selector) = .ok [project] := by
    rw [selectedProjects, resolveProject_eq_ok_iff.2 h]
    rfl
  rw [gatewayResolveRepository, hselected]
  change resolveRepository text (repositoryTargets gateway [project]) repo _ = _
  refine resolveRepository_congr ?_
  rw [hdesignated, repositoryTargets, List.flatMap_singleton, ← hdesignated, List.filter_filter]
  exact List.filter_congr fun target _ => Bool.and_self _

/-- A removal asks only for the repository it resolved. -/
lemma isAbout_of_removeRepository {scope : Option String}
    {request : PortfolioRequest}
    (h : request ∈ (removeRepository text gateway repo scope).requests) :
    ∃ target, resolveRepository text (allTargets gateway) repo scope = .ok target ∧
      request.IsAbout target := by
  rw [removeRepository] at h
  split at h
  · cases h
  · cases h
  next target htarget =>
    cases List.mem_singleton.1 h
    exact ⟨target, htarget, rfl, rfl⟩

/-- A move asks only for the repository it resolved. -/
lemma isAbout_of_moveRepository {scope : Option String}
    {targetProject : String} {request : PortfolioRequest}
    (h : request ∈ (moveRepository text gateway repo scope targetProject).requests) :
    ∃ target, resolveRepository text (allTargets gateway) repo scope = .ok target ∧
      request.IsAbout target := by
  rw [moveRepository] at h
  split at h
  · cases h
  next target htarget =>
    refine ⟨target, htarget, ?_⟩
    split at h
    · cases h
    · dsimp only at h
      split_ifs at h
      · cases h
      · rcases List.mem_pair.1 h with rfl | rfl <;> exact ⟨rfl, rfl⟩
      · cases List.mem_singleton.1 h
        exact ⟨rfl, rfl⟩

/-- The overview shows the project that fits, if its id or name is spelled exactly. -/
lemma overviewProjects_eq_filter
    (h : gateway.listProjects.filter (projectMatches text · selector) = [project]) :
    overviewProjects gateway (some selector) =
      if selector = project.projectId ∨ some selector = project.name then [project] else [] := by
  have hsub : ∀ item : ProjectRef, (selector = item.projectId ∨ some selector = item.name) →
      projectMatches text item selector = true := by
    rintro item (hid | hname)
    · simp [projectMatches, hid]
    · simp [projectMatches, ← hname]
  have hfilter : overviewProjects gateway (some selector) =
      (gateway.listProjects.filter (projectMatches text · selector)).filter fun item =>
        decide (selector = item.projectId ∨ some selector = item.name) := by
    rw [List.filter_filter]
    refine List.filter_congr fun item _ => ?_
    by_cases hitem : selector = item.projectId ∨ some selector = item.name
    · simp [hitem, hsub item hitem]
    · simp [hitem]
  rw [hfilter, h]
  by_cases hexact : selector = project.projectId ∨ some selector = project.name <;> simp [hexact]

/-- **A project selector has one meaning** exactly when it is plain. -/
theorem oneMeaning_iff : OneMeaning text gateway selector ↔ Plain text gateway selector := by
  constructor
  · intro h
    have hoverview := h.overview "" id
    rcases hresolve : resolveProject text gateway.listProjects (some selector) with e | project
    · rw [hresolve] at hoverview
      cases hoverview
    · have hmatches := resolveProject_eq_ok_iff.1 hresolve
      refine ⟨project, hmatches, ?_,
        (filter_allTargets_eq_iff hmatches).1 (h.designated project hresolve)⟩
      -- an overview without a project is not what the selector resolves to
      by_contra hinexact
      rw [hresolve, assembleOverview, overviewProjects_eq_filter hmatches, if_neg hinexact]
        at hoverview
      cases hoverview
  · rintro ⟨project, hmatches, hexact, hscope⟩
    have hresolve := resolveProject_eq_ok_iff.2 hmatches
    have hdesignated := (filter_allTargets_eq_iff hmatches).2 hscope
    have hsame : ∀ repo, gatewayResolveRepository text gateway repo (some selector) =
        resolveRepository text (allTargets gateway) repo (some selector) :=
      fun repo => gatewayResolveRepository_eq hmatches hdesignated
    constructor
    · intro observedAt order
      rw [hresolve, assembleOverview, overviewProjects_eq_filter hmatches, if_pos hexact]
      rfl
    · intro project' hresolve'
      cases hresolve.symm.trans hresolve'
      exact hdesignated
    · intro e he
      cases hresolve.symm.trans he
    · intro repo request hrequest
      rw [hsame]
      exact isAbout_of_removeRepository hrequest
    · intro repo targetProject request hrequest
      rw [hsame]
      exact isAbout_of_moveRepository hrequest
    · exact fun _ _ _ _ => ⟨project, hresolve⟩
    · exact fun _ _ _ => ⟨project, hresolve⟩

/-- The operations on texts of plain letters. -/
def plainText : SelectorText where
  casefold value := String.ofList (value.toList.map Char.toLower)
  strip value := value
  digits _ := none
  urlHostPort _ := none
  closeMatches _ _ := []

def sampleRepository (projectId : String) (projectName : Option String) : RepositoryRef where
  repoId := "r1"
  projectId := projectId
  projectName := projectName
  identity := { provider := .github, locator := "acme/cat", host := "github.com" }

/-- Two projects of one name in different case, the second of which holds a repository. -/
def twoPets : PortfolioGateway where
  listProjects := [
    { projectId := "p1", name := some "pets" }, { projectId := "p2", name := some "Pets" }]
  projectDetail projectId :=
    if projectId = "p2" then
      { project := { projectId := "p2", name := some "Pets" }
        repositories := [sampleRepository "p2" (some "Pets")] }
    else { project := { projectId := projectId, name := some "pets" }, repositories := [] }
  projectActiveRuns _ := []
  preflightRepositoryMove _ _ _ := {}
  moveRepository _ _ targetProjectId := sampleRepository targetProjectId none

/-- The resolver refuses the name of two projects, and yet a repository of one is removed. -/
theorem not_oneMeaning_twoPets : ¬ OneMeaning plainText twoPets "pets" := by
  intro h
  have hrequest : PortfolioRequest.removeRepository "p2" "r1" ∈
      (removeRepository plainText twoPets "r1" (some "pets")).requests := by decide +kernel
  obtain ⟨target, htarget, -⟩ := h.removes "r1" _ hrequest
  have hrefused : (gatewayResolveRepository plainText twoPets "r1" (some "pets")).toOption =
      none := by decide +kernel
  rw [htarget] at hrefused
  cases hrefused

/-- A listed project whose details do not repeat its name. -/
def unnamedDetail : PortfolioGateway :=
  { twoPets with
    listProjects := [{ projectId := "p2", name := some "pets" }]
    projectDetail projectId :=
      { project := { projectId := projectId, name := none }
        repositories := [sampleRepository projectId none] } }

example : ((removeRepository plainText unnamedDetail "r1" (some "pets")).result.toOption.map
    OperationResult.state) = some "already_absent" := by decide +kernel

end Meaning

end EnjiGuard.Portfolio
