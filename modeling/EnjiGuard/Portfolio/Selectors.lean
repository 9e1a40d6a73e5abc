import EnjiGuard.Foundation.Dictionary
import Mathlib.Data.List.DropRight

/-!
# Project and repository selectors

A project is selected by its id or its name, a repository by its id, by a full selector of its
provider, host and locator, or by its bare locator. The gateway lists the projects of an account
and what each of them holds.
-/

namespace EnjiGuard.Portfolio

open Foundation

/-! ### Text -/

/-- The operations of the language on texts that selectors use: folding of case, stripping of
blanks, the number of a text of digits, the host and port of an address, and the close matches of a
word. -/
structure SelectorText where
  casefold : String → String
  strip : String → String
  digits : String → Option Nat
  urlHostPort : String → Option (String × Nat)
  closeMatches : String → List String → List String

def splitParts (separator : Char) (value : String) : List String :=
  (value.toList.splitOn separator).map String.ofList

/-! ### Projects and repositories -/

/-- Where a repository is hosted. -/
inductive RepositoryProvider
  | github
  | gitlab
  deriving DecidableEq, Repr

/-- The text of a provider. -/
def RepositoryProvider.value : RepositoryProvider → String
  | .github => "github"
  | .gitlab => "gitlab"

structure RepositoryIdentity where
  provider : RepositoryProvider
  locator : String
  host : String
  deriving DecidableEq, Repr

/-- A project of the account. -/
structure ProjectRef where
  projectId : String
  name : Option String
  deriving DecidableEq, Repr

/-- A repository in a project. -/
structure RepositoryRef where
  repoId : String
  projectId : String
  projectName : Option String
  identity : RepositoryIdentity
  deriving DecidableEq, Repr

/-- A project with its repositories. -/
structure ProjectDetail where
  project : ProjectRef
  repositories : List RepositoryRef
  deriving DecidableEq, Repr

/-- The errors of selecting and changing a portfolio. -/
inductive PortfolioError
  | notFound (message : String)
  | value (message : String)
  deriving DecidableEq, Repr

/-- The errors that say that nothing matched. -/
def PortfolioError.isNotFound : PortfolioError → Bool
  | .notFound _ => true
  | .value _ => false

section

variable (text : SelectorText)

/-- The canonical form of a host; none when it is no host of the provider. -/
def canonicalHost (provider : RepositoryProvider) (host : String) : Option String :=
  let host := String.ofList ((text.casefold (text.strip host)).toList.rdropWhile (· = '/'))
  if host = "" ∨ host.toList.any (· ∈ ['/', '@', '?', '#']) then none
  else if ':' ∈ host.toList then
    if provider ≠ .gitlab then none
    else match text.urlHostPort host with
      | none => none
      | some (hostname, port) =>
        if ':' ∈ hostname.toList ∨ ¬ (1 ≤ port ∧ port ≤ 65535) then none
        else some (text.casefold hostname ++ ":" ++ toString port)
  else some host

/-- The identity of a repository; none when the host or the locator is malformed. -/
def repositoryIdentity (provider : RepositoryProvider) (locator host : String) :
    Option RepositoryIdentity := do
  let host ← canonicalHost text provider host
  let locator := text.strip locator
  let parts := splitParts '/' locator
  if locator = "" ∨ parts.length < 2 ∨ "" ∈ parts then none
  else if provider = .github ∧ parts.length ≠ 2 then none
  else some { provider := provider, locator := locator, host := host }

/-- The locator as it is compared; the names of one provider are case-insensitive. -/
def RepositoryIdentity.canonicalLocator (identity : RepositoryIdentity) : String :=
  if identity.provider = .github then text.casefold identity.locator else identity.locator

/-- Whether two identities name one repository. -/
def RepositoryIdentity.matches (identity other : RepositoryIdentity) : Bool :=
  identity.provider = other.provider && identity.host = other.host &&
    identity.canonicalLocator text = other.canonicalLocator text

/-- The provider a text names. -/
def parseProvider (value : String) : Option RepositoryProvider :=
  if value = "github" then some .github else if value = "gitlab" then some .gitlab else none

/-- The identity a full repository selector stands for; none when it is malformed. -/
def parseRepositorySelector (value : String) : Option RepositoryIdentity := do
  let raw := (text.strip value).toList
  if '@' ∉ raw ∨ ':' ∉ raw then none
  else
    let provider := String.ofList (raw.takeWhile (· ≠ '@'))
    let remainder := String.ofList ((raw.dropWhile (· ≠ '@')).drop 1)
    let (host, locator) ← match splitParts ':' remainder with
      | [] => none
      | [host] => some (host, "")
      | [host, locator] => some (host, locator)
      | host :: port :: locator => do
        let number ← text.digits port
        if 1 ≤ number ∧ number ≤ 65535 then
          some (host ++ ":" ++ toString number, String.intercalate ":" locator)
        else none
    let provider ← parseProvider (text.casefold provider)
    repositoryIdentity text provider
      (String.intercalate "/" ((splitParts '/' locator).map text.strip)) host

/-! ### Resolving a project -/

/-- Whether a project has this id or this name, in any case. -/
def projectMatches (project : ProjectRef) (selector : String) : Bool :=
  text.casefold project.projectId = text.casefold selector ||
    project.name.any fun name => text.casefold name = text.casefold selector

/-- The projects a selector can mean, for an operator to choose from. -/
def projectCandidates (projects : List ProjectRef) : String :=
  String.intercalate ", " (projects.map fun project =>
    match project.name with
    | none => project.projectId
    | some name =>
      if name = "" then project.projectId else name ++ " (" ++ project.projectId ++ ")")

/-- The one project a selector means; without a selector the only one there is. -/
def resolveProject (projects : List ProjectRef) : Option String → Except PortfolioError ProjectRef
  | none =>
    match projects with
    | [project] => .ok project
    | _ => .error (.value ("project selector is ambiguous; pass --project. candidates: " ++
        projectCandidates projects))
  | some selector =>
    match projects.filter (projectMatches text · selector) with
    | [] => .error (.notFound ("project selector matched no projects: " ++ selector ++
        ". candidates: " ++ projectCandidates projects))
    | [project] => .ok project
    | found => .error (.value ("project selector is ambiguous; pass --project. candidates: " ++
        projectCandidates found))

/-! ### Resolving a repository -/

/-- Exact match: the id of the repository or its full selector. -/
def repositoryMatches (repository : RepositoryRef) (selector : String) : Bool :=
  text.casefold repository.repoId = text.casefold selector ||
    (parseRepositorySelector text selector).any (repository.identity.matches text)

/-- Loose match: the bare locator. -/
def repositoryLocatorMatches (repository : RepositoryRef) (selector : String) : Bool :=
  let value := text.strip selector
  repository.identity.canonicalLocator text =
    if repository.identity.provider = .github then text.casefold value else value

/-- The full selector of a repository. -/
def repositoryLabel (target : RepositoryRef) : String :=
  target.identity.provider.value ++ "@" ++ target.identity.host ++ ":" ++ target.identity.locator

/-- A repository a selector can mean, for an operator to choose from. -/
def repositoryCandidate (target : RepositoryRef) : String :=
  let project := match target.projectName with
    | none => target.projectId
    | some name => if name = "" then target.projectId else name
  repositoryLabel target ++ " in " ++ project ++ " (" ++ target.repoId ++ ")"

/-- The texts that suggest a repository; each stands for the first repository it comes with. -/
def suggestions (targets : List RepositoryRef) : List (String × String) :=
  let sorted := targets.insertionSort fun a b =>
    repositoryLabel a < repositoryLabel b ∨ repositoryLabel a = repositoryLabel b ∧
      a.repoId ≤ b.repoId
  sorted.flatMap fun target => [
    (text.casefold target.identity.locator, repositoryCandidate target),
    (text.casefold (repositoryLabel target), repositoryCandidate target)]

/-- What to tell an operator whose selector matched none of the repositories in scope. -/
def repositoryHint (targets : List RepositoryRef) (selector : String) (project : Option String) :
    String :=
  let listing := match project with
    | none => "run \x60status\x60"
    | some project => "run \x60status --project " ++ project ++ "\x60"
  if targets = [] then "no repositories in scope; " ++ listing ++ " to list them"
  else
    let offered := suggestions text targets
    let close := text.closeMatches (text.casefold (text.strip selector))
      ((offered.map Prod.fst).eraseDups.insertionSort (· ≤ ·))
    let listed := (close.filterMap (offered.lookup ·)).eraseDups
    if listed = [] then "no close match; " ++ listing ++ " to list them"
    else "did you mean: " ++ String.intercalate ", " (listed.take 3)

def inProjectScope (target : RepositoryRef) : Option String → Bool
  | none => true
  | some project => text.casefold project = text.casefold target.projectId ||
      text.casefold project = text.casefold (target.projectName.getD "")

/-- The one repository a selector means among the targets in the scope of a project. -/
def resolveRepository (targets : List RepositoryRef) (selector : String)
    (project : Option String) : Except PortfolioError RepositoryRef :=
  let targets := targets.filter (inProjectScope text · project)
  let exactly := targets.filter (repositoryMatches text · selector)
  let found := if exactly = [] then targets.filter (repositoryLocatorMatches text · selector)
    else exactly
  match found with
  | [] => .error (.notFound ("repo selector matched no repos: " ++ selector ++ ". " ++
      repositoryHint text targets selector project))
  | [target] => .ok target
  | _ => .error (.value ("repo selector is ambiguous: " ++ selector ++ ". candidates: " ++
      String.intercalate ", " (found.map repositoryCandidate)))

end

end EnjiGuard.Portfolio
