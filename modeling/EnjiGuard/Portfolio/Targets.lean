import EnjiGuard.Foundation.Ending
import EnjiGuard.Foundation.Traversing
import EnjiGuard.Portfolio.Repositories

/-!
# The scope of a write

A write names one repository, all repositories of a project, or all of the account. What it may
touch is read off the answers of the gateway here by its own rule; the service validates the
arguments before it reads, resolves the selectors against what it reads, and returns exactly that.
-/

namespace EnjiGuard.Portfolio

open Foundation Action

/-! ### Scopes of mutations -/

inductive ScopeKind
  | repo
  | allRepos
  | allProjects
  deriving DecidableEq, Repr

structure MutationScope where
  kind : ScopeKind
  repo : Option String := none
  project : Option String := none
  deriving DecidableEq, Repr

/-- What an operator passes to say which repositories a write is for. -/
structure ScopeArguments where
  repo : Option String := none
  project : Option String := none
  allRepos : Bool := false
  allProjects : Bool := false
  deriving DecidableEq, Repr

/-- The scope that arguments stand for; an implicit or contradictory one is refused. -/
def MutationScope.fromArgs (args : ScopeArguments) (operation : String) :
    Except PortfolioError MutationScope :=
  if args.allRepos ∧ args.allProjects then
    .error (.value (operation ++ ": pass --all-repos or --all-projects, not both"))
  else if args.allProjects then
    if args.repo ≠ none ∨ args.project ≠ none then
      .error (.value (operation ++ ": --all-projects cannot be combined with REPO or --project"))
    else .ok { kind := .allProjects }
  else if args.allRepos then
    if args.repo ≠ none then
      .error (.value (operation ++ ": REPO cannot be combined with --all-repos"))
    else if args.project = none then
      .error (.value (operation ++ ": --all-repos requires --project"))
    else .ok { kind := .allRepos, project := args.project }
  else if args.repo = none then
    .error (.value (operation ++
      ": pass REPO, --all-repos with --project, or --all-projects"))
  else .ok { kind := .repo, repo := args.repo, project := args.project }

/-! ### Reading the targets -/

inductive GatewayRead
  | listProjects
  | projectDetail (projectId : String)
  deriving DecidableEq, Repr

/-- Why there are no targets: a selector or a scope was refused, or a read failed. -/
inductive TargetFailure
  | portfolio (error : PortfolioError)
  | read (message : String)
  deriving DecidableEq, Repr

/-- A computation that reads from the gateway, with the reads so far. -/
abbrev Reading := Action TargetFailure (List GatewayRead)

section

variable (text : SelectorText) (gateway : PortfolioGateway)
variable (fails : GatewayRead → Option String)

/-- Asks the gateway, which may fail. -/
def ask {α : Type} (request : GatewayRead) (answer : α) : Reading α := fun reads =>
  match fails request with
  | none => (.ok answer, reads ++ [request])
  | some message => (.raised (.read message), reads ++ [request])

/-- A selector that is refused ends a computation. -/
def orRaise {α : Type} : Except PortfolioError α → Reading α
  | .ok a => pure a
  | .error e => Action.raise (.portfolio e)

/-- The details of projects, in their order. -/
def readDetails : List ProjectRef → Reading (List ProjectDetail)
  | [] => pure []
  | project :: projects => do
    let detail ← ask fails (.projectDetail project.projectId)
      (gateway.projectDetail project.projectId)
    let details ← readDetails projects
    return detail :: details

/-- The projects that are read in: all of them, or the one a selector means. -/
def projectsFor (projects : List ProjectRef) :
    Option String → Except PortfolioError (List ProjectRef)
  | none => .ok projects
  | some selector => do
    let project ← resolveProject text projects (some selector)
    return [project]

/-- The repositories that are meant: all of them, or the one a selector means. -/
def repositoriesFor (repositories : List RepositoryRef) (project : Option String) :
    Option String → Except PortfolioError (List RepositoryRef)
  | none => .ok repositories
  | some selector => do
    let target ← resolveRepository text repositories selector project
    return [target]

/-- The targets of a repository selector and of a project selector, as they are read. -/
def readTargets (repo project : Option String) : Reading (List RepositoryRef) := do
  let projects ← ask fails .listProjects gateway.listProjects
  let selected ← orRaise (projectsFor text projects project)
  let details ← readDetails gateway fails selected
  let repositories := details.flatMap ProjectDetail.repositories
  orRaise (repositoriesFor text repositories project repo)

def writeTargets (args : ScopeArguments) (operation : String) : Reading (List RepositoryRef) := do
  let scope ← orRaise (MutationScope.fromArgs args operation)
  match scope.kind with
  | .allProjects => readTargets text gateway fails none none
  | .allRepos => readTargets text gateway fails none scope.project
  | .repo => readTargets text gateway fails scope.repo scope.project

end

/-! ### What a write may touch -/

section

variable (text : SelectorText) (gateway : PortfolioGateway)

/-- The repository that a selector designates: the only exact match or, when nothing matches
exactly, the only one with this locator. -/
def Designates (repositories : List RepositoryRef) (selector : String) (target : RepositoryRef) :
    Prop :=
  repositories.filter (repositoryMatches text · selector) = [target] ∨
    repositories.filter (repositoryMatches text · selector) = [] ∧
      repositories.filter (repositoryLocatorMatches text · selector) = [target]

/-- The repositories of an account, by the details of its projects. -/
def PortfolioGateway.allRepositories : List RepositoryRef :=
  gateway.listProjects.flatMap gateway.repositoriesOf

/-- The repositories in the details of a project that say they are in it, by the selector. -/
def PortfolioGateway.repositoriesIn (project : ProjectRef) (selector : String) :
    List RepositoryRef :=
  (gateway.repositoriesOf project).filter (inProjectScope text · (some selector))

/-- What the arguments of a write let it touch. -/
inductive InScope : ScopeArguments → List RepositoryRef → Prop
  | repository {selector target} (h : Designates text gateway.allRepositories selector target) :
    InScope { repo := some selector } [target]
  | inProject {selector project found target}
    (hfound : resolveProject text gateway.listProjects (some project) = .ok found)
    (h : Designates text (gateway.repositoriesIn text found project) selector target) :
    InScope { repo := some selector, project := some project } [target]
  | allRepos {project found}
    (hfound : resolveProject text gateway.listProjects (some project) = .ok found) :
    InScope { project := some project, allRepos := true } (gateway.repositoriesOf found)
  | allProjects : InScope { allProjects := true } gateway.allRepositories

/-- The details of a project agree with the list of the projects. -/
def PortfolioGateway.Agrees (project : ProjectRef) : Prop :=
  ∀ target ∈ gateway.repositoriesOf project,
    target.projectId = project.projectId ∧ target.projectName = project.name

/-- The arguments that stand for a scope: a repository, all repositories of a project, or all
projects. -/
inductive Permitted : ScopeArguments → Prop
  | repo (selector project) : Permitted { repo := some selector, project := project }
  | allRepos (project) : Permitted { project := some project, allRepos := true }
  | allProjects : Permitted { allProjects := true }

end

section Scope

variable {text : SelectorText} {gateway : PortfolioGateway} {fails : GatewayRead → Option String}
variable {args : ScopeArguments} {operation : String} {reads : List GatewayRead}

/-- Arguments are refused unless they stand for a scope. -/
lemma fromArgs_eq_error (h : ¬ Permitted args) :
    ∃ message, MutationScope.fromArgs args operation = .error (.value message) := by
  obtain ⟨repo, project, allRepos, allProjects⟩ := args
  rw [MutationScope.fromArgs]
  dsimp only
  split_ifs with hboth hprojects hscope hrepos hrepo hproject hnone
  · exact ⟨_, rfl⟩
  · exact ⟨_, rfl⟩
  · simp only [not_or, ne_eq, not_not] at hscope
    obtain ⟨rfl, rfl⟩ := hscope
    obtain rfl : allRepos = false := by simpa [hprojects] using hboth
    rw [hprojects] at h
    exact absurd .allProjects h
  · exact ⟨_, rfl⟩
  · exact ⟨_, rfl⟩
  · obtain rfl := not_not.1 hrepo
    obtain ⟨selector, rfl⟩ := Option.ne_none_iff_exists'.1 hproject
    rw [hrepos, eq_false_of_ne_true hprojects] at h
    exact absurd (.allRepos selector) h
  · exact ⟨_, rfl⟩
  · obtain ⟨selector, rfl⟩ := Option.ne_none_iff_exists'.1 hnone
    rw [eq_false_of_ne_true hrepos, eq_false_of_ne_true hprojects] at h
    exact absurd (.repo selector project) h

/-- Refused arguments read nothing. -/
lemma writeTargets_of_refused (h : ¬ Permitted args) :
    ∃ message, writeTargets text gateway fails args operation reads =
      (.raised (.portfolio (.value message)), reads) := by
  obtain ⟨message, hmessage⟩ := @fromArgs_eq_error args operation h
  refine ⟨message, ?_⟩
  rw [writeTargets, hmessage]
  rfl

/-! ### What is read -/

section Read

variable {repo project : Option String}

/-- A read failed. -/
def Failed (fails : GatewayRead → Option String) (e : TargetFailure) : Prop :=
  ∃ request message, fails request = some message ∧ e = .read message

lemma ends_ask {α : Type} {request : GatewayRead} {answer : α} :
    Ends (ask fails request answer) reads (fun a _ => a = answer) (fun e _ => Failed fails e) := by
  unfold Ends
  rw [ask]
  rcases hfails : fails request with _ | message
  · exact rfl
  · exact ⟨request, message, hfails, rfl⟩

lemma ends_orRaise {α : Type} {x : Except PortfolioError α} {Q : α → Prop}
    {E : TargetFailure → Prop} (hok : ∀ a, x = .ok a → Q a)
    (herror : ∀ error, x = .error error → E (.portfolio error)) :
    Ends (orRaise x) reads (fun a _ => Q a) (fun e _ => E e) := by
  cases x with
  | ok a => exact .ret (hok a rfl)
  | error error => exact .raise (herror error rfl)

/-- The details that are read are those of the projects. -/
lemma ends_readDetails (projects : List ProjectRef) :
    Ends (readDetails gateway fails projects) reads
      (fun details _ =>
        details = projects.map fun project => gateway.projectDetail project.projectId)
      (fun e _ => Failed fails e) := by
  induction projects generalizing reads with
  | nil => exact .ret rfl
  | cons project projects ih =>
    refine ends_ask.bind ?_
    rintro detail _ rfl
    refine ih.bind ?_
    rintro details _ rfl
    exact .ret rfl

lemma targets_eq : targets text gateway repo project = (do
    let selected ← projectsFor text gateway.listProjects project
    repositoriesFor text (repositoryTargets gateway selected) project repo) := by
  cases project <;> cases repo <;> rfl

/-- Targets that are read are those that the selectors mean. -/
lemma ends_readTargets :
    Ends (readTargets text gateway fails repo project) reads
      (fun found _ => targets text gateway repo project = .ok found)
      (fun e _ => Failed fails e ∨
        ∃ error, e = .portfolio error ∧ targets text gateway repo project = .error error) := by
  refine (ends_ask.weaken (fun _ _ h => h) fun _ _ h => .inl h).bind ?_
  rintro projects _ rfl
  rw [targets_eq]
  refine Ends.bind (ends_orRaise (fun _ h => h) fun error herror => .inr ⟨error, rfl, ?_⟩) ?_
  · rw [herror]
    rfl
  intro selected _ hselected
  rw [hselected]
  refine ((ends_readDetails selected).weaken (fun _ _ h => h) fun _ _ h => .inl h).bind ?_
  rintro details _ rfl
  rw [List.flatMap_map]
  exact ends_orRaise (fun _ h => h) fun error herror => .inr ⟨error, rfl, herror⟩

end Read

/-! ### What a write touches -/

section Touched

variable {selector project : String} {found : ProjectRef} {target : RepositoryRef}
variable {repositories touched : List RepositoryRef} {scope : Option String}

lemma resolveRepository_eq_ok_iff :
    resolveRepository text repositories selector scope = .ok target ↔
      Designates text (repositories.filter (inProjectScope text · scope)) selector target := by
  rw [resolveRepository, Designates]
  generalize repositories.filter (inProjectScope text · scope) = inScope
  generalize inScope.filter (repositoryMatches text · selector) = exactly
  generalize inScope.filter (repositoryLocatorMatches text · selector) = loosely
  split_ifs with hexactly
  · subst hexactly
    rcases loosely with _ | ⟨only, _ | ⟨other, rest⟩⟩ <;> simp
  · rcases exactly with _ | ⟨only, _ | ⟨other, rest⟩⟩
    · exact absurd rfl hexactly
    · simp
    · simp

/-- Details that agree with the list of projects put all repositories of a project in it. -/
lemma repositoriesIn_of_agrees
    (h : resolveProject text gateway.listProjects (some selector) = .ok found)
    (hagrees : gateway.Agrees found) :
    gateway.repositoriesIn text found selector = gateway.repositoriesOf found := by
  have hmatches := (mem_of_matches (resolveProject_eq_ok_iff.1 h)).2
  simp only [projectMatches, Bool.or_eq_true, decide_eq_true_eq, Option.any_eq_true] at hmatches
  refine List.filter_eq_self.2 fun target htarget => ?_
  obtain ⟨hid, hname⟩ := hagrees target htarget
  rw [inProjectScope, hid, hname, Bool.or_eq_true, decide_eq_true_eq, decide_eq_true_eq]
  rcases hmatches with hfold | ⟨name, hsome, hfold⟩
  · exact .inl hfold.symm
  · exact .inr (by rw [hsome, Option.getD_some, hfold])

lemma repositoryTargets_singleton :
    repositoryTargets gateway [found] = gateway.repositoriesOf found := by
  rw [repositoryTargets, List.flatMap_singleton]

lemma repositoriesFor_some_eq_ok_iff :
    repositoriesFor text repositories scope (some selector) = .ok touched ↔
      ∃ target, Designates text (repositories.filter (inProjectScope text · scope)) selector
        target ∧ [target] = touched := by
  rw [repositoriesFor, bind_eq_ok_iff]
  simp only [resolveRepository_eq_ok_iff, pure, Except.pure, Except.ok.injEq]

lemma projectsFor_some_eq_ok_iff {selected : List ProjectRef} :
    projectsFor text gateway.listProjects (some selector) = .ok selected ↔
      ∃ found, resolveProject text gateway.listProjects (some selector) = .ok found ∧
        [found] = selected := by
  rw [projectsFor, bind_eq_ok_iff]
  simp only [pure, Except.pure, Except.ok.injEq]

/-- The selectors of permitted arguments mean what the arguments let a write touch. -/
lemma inScope_iff (h : Permitted args) :
    InScope text gateway args touched ↔
      targets text gateway args.repo args.project = .ok touched := by
  rw [targets_eq, bind_eq_ok_iff]
  have hall : repositoryTargets gateway gateway.listProjects = gateway.allRepositories := rfl
  cases h with
  | repo selector project =>
    simp only [repositoriesFor_some_eq_ok_iff]
    cases project with
    | none =>
      have hwhole : gateway.allRepositories.filter (inProjectScope text · none) =
          gateway.allRepositories := List.filter_eq_self.2 fun _ _ => rfl
      simp only [projectsFor, Except.ok.injEq, exists_eq_left', hall, hwhole]
      constructor
      · rintro (hdesignated | _)
        exact ⟨_, hdesignated, rfl⟩
      · rintro ⟨target, hdesignated, rfl⟩
        exact .repository hdesignated
    | some project =>
      simp only [projectsFor_some_eq_ok_iff]
      constructor
      · rintro (_ | ⟨hfound, hdesignated⟩)
        refine ⟨_, ⟨_, hfound, rfl⟩, _, ?_, rfl⟩
        rwa [repositoryTargets_singleton]
      · rintro ⟨_, ⟨found, hfound, rfl⟩, target, hdesignated, rfl⟩
        rw [repositoryTargets_singleton] at hdesignated
        exact .inProject hfound hdesignated
  | allRepos project =>
    simp only [projectsFor_some_eq_ok_iff, repositoriesFor, Except.ok.injEq]
    constructor
    · rintro (_ | _ | hfound)
      exact ⟨_, ⟨_, hfound, rfl⟩, repositoryTargets_singleton⟩
    · rintro ⟨_, ⟨found, hfound, rfl⟩, rfl⟩
      rw [repositoryTargets_singleton]
      exact .allRepos hfound
  | allProjects =>
    simp only [projectsFor, repositoriesFor, Except.ok.injEq, exists_eq_left', hall]
    constructor
    · rintro (_ | _ | _ | _)
      rfl
    · rintro rfl
      exact .allProjects

end Touched

lemma permitted_of_inScope {touched : List RepositoryRef} (h : InScope text gateway args touched) :
    Permitted args := by
  cases h with
  | repository _ => exact .repo _ _
  | inProject _ _ => exact .repo _ _
  | allRepos _ => exact .allRepos _
  | allProjects => exact .allProjects

/-- Permitted arguments are read as their selectors. -/
lemma writeTargets_of_permitted (h : Permitted args) :
    writeTargets text gateway fails args operation reads =
      readTargets text gateway fails args.repo args.project reads := by
  cases h <;> rfl

/-- **A write touches what its arguments let it touch**, and raises only where a read failed or
nothing is in scope; arguments that stand for no scope are refused before anything is read. A
project holds all repositories of its details, when these agree with the list. -/
theorem writeTargets_inScope (text : SelectorText) (gateway : PortfolioGateway)
    (fails : GatewayRead → Option String) (args : ScopeArguments) (operation : String)
    (reads : List GatewayRead) :
    Ends (writeTargets text gateway fails args operation) reads
      (fun touched _ => InScope text gateway args touched)
      (fun e _ => Failed fails e ∨
        ∃ error, e = .portfolio error ∧ ∀ touched, ¬ InScope text gateway args touched) ∧
    (¬ Permitted args → ∃ message,
      writeTargets text gateway fails args operation reads =
        (.raised (.portfolio (.value message)), reads)) ∧
    ∀ selector found, resolveProject text gateway.listProjects (some selector) = .ok found →
      gateway.Agrees found →
        gateway.repositoriesIn text found selector = gateway.repositoriesOf found := by
  refine ⟨?_, writeTargets_of_refused, fun _ _ => repositoriesIn_of_agrees⟩
  by_cases hpermitted : Permitted args
  · refine Ends.resume (writeTargets_of_permitted hpermitted) (ends_readTargets.weaken ?_ ?_)
    · exact fun _ _ htargets => (inScope_iff hpermitted).2 htargets
    · rintro e _ (hfailed | ⟨error, rfl, htargets⟩)
      · exact .inl hfailed
      · refine .inr ⟨error, rfl, fun touched htouched => ?_⟩
        cases htargets.symm.trans ((inScope_iff hpermitted).1 htouched)
  · obtain ⟨message, hrefused⟩ : ∃ message,
        writeTargets text gateway fails args operation reads =
          (.raised (.portfolio (.value message)), reads) := writeTargets_of_refused hpermitted
    refine Ends.resume (p := Action.raise _) hrefused (.raise (.inr ⟨_, rfl, fun _ htouched => ?_⟩))
    exact hpermitted (permitted_of_inScope htouched)

end Scope

end EnjiGuard.Portfolio
