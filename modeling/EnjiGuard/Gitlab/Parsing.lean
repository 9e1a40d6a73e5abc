import EnjiGuard.Foundation.Json
import EnjiGuard.Foundation.Traversing
import EnjiGuard.Portfolio.Selectors

/-!
# What the discovery endpoints answer

The answers of the service about credentials and projects of a GitLab host, as the gateway reads
them. Addresses are taken apart by the standard library; an address the service sends is kept only
when it is safe to show and to call.
-/

namespace EnjiGuard.Gitlab

open Foundation Portfolio

/-- The errors of discovery: a check of the gateway, or a request that failed. -/
inductive GitLabError
  | value (message : String)
  | request (typeName : String)
  deriving DecidableEq, Repr

/-- The parts of an address; reading the port may be an error. -/
structure UrlParts where
  scheme : String
  netloc : String
  username : Option String
  password : Option String
  hostname : Option String
  port : Except String (Option Nat)
  query : String
  fragment : String

/-- The operations of the language on texts that discovery uses; taking an address apart may be an
error. -/
structure DiscoveryText extends SelectorText where
  urlsplit : String → Except String UrlParts

/-- The owner of what is discovered. -/
structure GitLabScope where
  scopeType : String
  scopeOwner : Option String
  deriving DecidableEq, Repr

/-- A credential of the account for a GitLab host. -/
structure GitLabCredential where
  id : String
  name : String
  credentialType : String
  provider : String
  scopeType : String
  scopeOwner : Option String
  status : String
  lastError : Option String
  expiresAt : Option String
  gitHost : Option String
  apiBaseUrl : Option String
  gitlabHealthReason : Option String
  deriving DecidableEq, Repr

/-- A page of credentials, as far as it is announced. -/
structure GitLabCredentialPage where
  limit : Int
  offset : Int
  total : Int
  deriving DecidableEq, Repr

/-- The credentials of a page. -/
structure GitLabCredentialsResult where
  scope : GitLabScope
  credentials : List GitLabCredential
  pagination : GitLabCredentialPage
  deriving DecidableEq, Repr

/-- A project of a GitLab host. -/
structure GitLabProject where
  pathWithNamespace : String
  providerProjectId : String
  webUrl : Option String
  apiBaseUrl : String
  host : String
  selector : RepositoryIdentity
  deriving DecidableEq, Repr

section

variable (text : DiscoveryText)

/-! ### Fields -/

/-- An object. -/
def asDict (value : Json) (label : String) : Except GitLabError (List (String × Json)) :=
  match value with
  | .obj fields => .ok fields
  | _ => .error (.value ("GitLab " ++ label ++ " must be an object"))

/-- An object in a field. -/
def requiredDict (payload : List (String × Json)) (key : String) :
    Except GitLabError (List (String × Json)) :=
  asDict (Json.lookup key payload) key

/-- An array in a field. -/
def requiredList (payload : List (String × Json)) (key : String) :
    Except GitLabError (List Json) :=
  match Json.lookup key payload with
  | .arr items => .ok items
  | _ => .error (.value ("GitLab response field " ++ key ++ " must be an array"))

/-- A text in a field, without surrounding blanks. -/
def requiredStr (item : List (String × Json)) (key : String) : Except GitLabError String :=
  match Json.lookup key item with
  | .str value =>
    if text.strip value = "" then
      .error (.value ("GitLab response field " ++ key ++ " must be a non-empty string"))
    else .ok (text.strip value)
  | _ => .error (.value ("GitLab response field " ++ key ++ " must be a non-empty string"))

/-- A text that may be left out; blanks leave it out. -/
def optionalStr (value : Json) : Except GitLabError (Option String) :=
  match value with
  | .null => .ok none
  | .str value => .ok (if text.strip value = "" then none else some (text.strip value))
  | _ => .error (.value "GitLab optional string field is malformed")

/-- An integer in a field. -/
def requiredInt (item : List (String × Json)) (key : String) : Except GitLabError Int :=
  match Json.lookup key item with
  | .int n => .ok n
  | _ => .error (.value ("GitLab response field " ++ key ++ " must be an integer"))

/-- An id, a text or an integer, as a text. -/
def requiredScalarId (value : Json) (key : String) : Except GitLabError String :=
  match value with
  | .str value =>
    if text.strip value = "" then
      .error (.value ("GitLab response field " ++ key ++ " must be non-empty"))
    else .ok (text.strip value)
  | .int n => .ok (toString n)
  | _ => .error (.value ("GitLab response field " ++ key ++ " must be a string or integer"))

/-! ### Addresses -/

/-- A port that an address may have. -/
def validPort : Option Nat → Bool
  | none => true
  | some port => decide (1 ≤ port ∧ port ≤ 65535)

/-- A host with the port that its address names. -/
def hostWithPort (hostname : String) : Option Nat → String
  | some port => text.casefold hostname ++ ":" ++ toString port
  | none => text.casefold hostname

/-- The host and port of a text that is no more than these. -/
def safeHost (host : String) : Option String :=
  if host.toList.any (· ∈ ['/', '@', '?', '#']) then none
  else match text.urlsplit ("https://" ++ host) with
    | .error _ => none
    | .ok parsed =>
      match parsed.hostname, parsed.port with
      | some hostname, .ok port =>
        if ':' ∈ hostname.toList ∨ parsed.username ≠ none ∨ parsed.password ≠ none ∨
            (':' ∈ host.toList ∧ port = none) ∨ validPort port = false then none
        else some (hostWithPort text hostname port)
      | _, _ => none

/-- A host that may be left out. -/
def optionalHost (value : Json) : Except GitLabError (Option String) := do
  match ← optionalStr text value with
  | none => return none
  | some host =>
    match safeHost text host with
    | some host => return some host
    | none => .error (.value "GitLab host is unsafe")

/-- Whether an address names a host over a secure connection, and nothing that is secret. -/
def safeUrl (url : String) : Bool :=
  match text.urlsplit url with
  | .error _ => false
  | .ok parsed =>
    match parsed.hostname, parsed.port with
    | some hostname, .ok port =>
      decide (parsed.scheme = "https" ∧ parsed.netloc ≠ "" ∧ parsed.username = none ∧
        parsed.password = none ∧ parsed.query = "" ∧ parsed.fragment = "" ∧
        ':' ∉ hostname.toList) && validPort port
    | _, _ => false

/-- An address that may be left out. -/
def optionalUrl (value : Json) (field : String) : Except GitLabError (Option String) := do
  match ← optionalStr text value with
  | none => return none
  | some url =>
    if safeUrl text url then return some (String.ofList (url.toList.rdropWhile (· = '/')))
    else .error (.value ("GitLab " ++ field ++ " is unsafe"))

/-- The host of an address. -/
def urlHost (url : String) : Except GitLabError String :=
  match text.urlsplit url with
  | .error message => .error (.value message)
  | .ok parsed =>
    match parsed.hostname with
    | none => .error (.value "GitLab URL has no hostname")
    | some hostname =>
      if ':' ∈ hostname.toList then .error (.value "GitLab URL has no hostname")
      else match parsed.port with
        | .error _ => .error (.value "GitLab URL has an invalid port")
        | .ok port =>
          if validPort port then .ok (hostWithPort text hostname port)
          else .error (.value "GitLab URL has an invalid port")

/-- The address of the interface of a host. -/
def apiBaseUrlOf (host : String) : String := "https://" ++ host ++ "/api/v4"

/-! ### Credentials -/

/-- A scope with its default; only a project has an owner. -/
def normalizeScope (scopeType scopeOwner : Json) : Except GitLabError GitLabScope := do
  let normalizedType := (← optionalStr text scopeType).getD "personal"
  let normalizedOwner ← optionalStr text scopeOwner
  if normalizedType ∉ ["personal", "project"] then
    .error (.value "GitLab scope type must be personal or project")
  else if normalizedType = "personal" ∧ normalizedOwner ≠ none then
    .error (.value "GitLab scope owner is only valid for project scope")
  else return ⟨normalizedType, normalizedOwner⟩

/-- The host of a credential: its own, or that of its interface. -/
def credentialHost : Option String → Option String → Except GitLabError (Option String)
  | none, some apiBaseUrl => some <$> urlHost text apiBaseUrl
  | gitHost, _ => .ok gitHost

/-- One credential of an answer. -/
def parseCredential (value : Json) : Except GitLabError GitLabCredential := do
  let item ← asDict value "credential"
  let metadata ← match Json.lookup "metadata" item with
    | .null => .ok []
    | raw => asDict raw "credential metadata"
  let credentialType ← requiredStr text item "credential_type"
  let provider ← requiredStr text item "provider"
  if credentialType ≠ "git" ∨ provider ≠ "gitlab" then
    .error (.value "credential is not a GitLab git credential")
  else
    let gitHost ← optionalHost text (Json.lookup "git_host" metadata)
    let apiBaseUrl ← optionalUrl text (Json.lookup "api_base_url" metadata) "api_base_url"
    let gitHost ← credentialHost text gitHost apiBaseUrl
    let apiBaseUrl := apiBaseUrl <|> gitHost.map apiBaseUrlOf
    let (gitHost, apiBaseUrl) :=
      if gitHost = none ∧ apiBaseUrl = none then
        (some "gitlab.com", some "https://gitlab.com/api/v4")
      else (gitHost, apiBaseUrl)
    let scope ← normalizeScope text (Json.lookup "scope_type" item) (Json.lookup "scope_owner" item)
    let id ← requiredStr text item "id"
    let name ← requiredStr text item "name"
    let status ← requiredStr text item "status"
    let lastError ← optionalStr text (Json.lookup "last_error" item)
    let expiresAt ← optionalStr text (Json.lookup "expires_at" item)
    let gitlabHealthReason ← optionalStr text (Json.lookup "gitlab_health_reason" metadata)
    return { id, name, credentialType, provider, scopeType := scope.scopeType,
             scopeOwner := scope.scopeOwner, status, lastError, expiresAt, gitHost, apiBaseUrl,
             gitlabHealthReason }

/-- A credential whose id is new to a page. -/
def parseNewCredential (seen : List String) (value : Json) :
    Except GitLabError GitLabCredential := do
  let credential ← parseCredential text value
  if credential.id ∈ seen then
    .error (.value ("GitLab credential id is duplicated: " ++ credential.id))
  else return credential

/-- A page of credentials, for the limit and the offset that were asked for. -/
def parseCredentials (payload : List (String × Json)) (scope : GitLabScope) (limit offset : Int) :
    Except GitLabError GitLabCredentialsResult := do
  let data ← requiredList payload "data"
  let metaFields ← requiredDict payload "meta"
  let responseLimit ← requiredInt metaFields "limit"
  let responseOffset ← requiredInt metaFields "offset"
  let total ← requiredInt metaFields "total"
  if responseLimit ≠ limit ∨ responseOffset ≠ offset ∨ total < 0 then
    .error (.value "GitLab credentials response has invalid pagination metadata")
  else
    let credentials ← parseDistinct (parseNewCredential text) GitLabCredential.id [] data
    return ⟨scope, credentials, ⟨limit, offset, total⟩⟩

/-! ### Projects -/

/-- The number of the next page, when there is one. -/
def nextPage (metaFields : List (String × Json)) : Except GitLabError (Option Int) :=
  match Json.lookup "next_page" metaFields with
  | .null => .ok none
  | .int n =>
    if n ≤ 0 then .error (.value "GitLab projects response has invalid next_page") else .ok (some n)
  | _ => .error (.value "GitLab projects response has invalid next_page")

def gitlabIdentity (path host : String) : Except GitLabError RepositoryIdentity :=
  match canonicalHost text.toSelectorText .gitlab host,
      repositoryIdentity text.toSelectorText .gitlab path host with
  | none, _ => .error (.value "repository host must be a canonical hostname")
  | some _, none => .error (.value "repository locator must be a non-empty provider-native path")
  | some _, some identity => .ok identity

/-- The host of a project: that of its interface, or of the credential. -/
def projectHost (credential : GitLabCredential) :
    Option String → Except GitLabError (Option String)
  | some apiBaseUrl => some <$> urlHost text apiBaseUrl
  | none => .ok credential.gitHost

def projectOfItem (credential : GitLabCredential) (item : List (String × Json))
    (providerId : String) : Except GitLabError GitLabProject := do
  let path ← requiredStr text item "path_with_namespace"
  let ownUrl ← optionalUrl text (Json.lookup "api_base_url" item) "api_base_url"
  let apiBaseUrl := ownUrl.filter (· ≠ "") <|> credential.apiBaseUrl
  let host ← projectHost text credential apiBaseUrl
  match host, apiBaseUrl <|> host.map apiBaseUrlOf with
  | some host, some apiBaseUrl =>
    let webUrl ← optionalUrl text (Json.lookup "web_url" item) "web_url"
    let selector ← gitlabIdentity text path host
    return { pathWithNamespace := path, providerProjectId := providerId, webUrl, apiBaseUrl, host,
             selector }
  | _, _ => .error (.value "GitLab project has no safe API base URL or host")

/-- One project of an answer, with an id that is new. -/
def parseProject (credential : GitLabCredential) (seen : List String) (value : Json) :
    Except GitLabError GitLabProject := do
  let item ← asDict value "project"
  let providerId ← requiredScalarId text (Json.lookup "provider_project_id" item)
    "provider_project_id"
  if providerId ∈ seen then
    .error (.value ("GitLab provider project id is duplicated: " ++ providerId))
  else projectOfItem text credential item providerId

/-- A page of projects whose ids are new, and the number of the next page. -/
def parseProjects (payload : List (String × Json)) (credential : GitLabCredential)
    (seen : List String) : Except GitLabError (List GitLabProject × Option Int) := do
  let data ← requiredList payload "data"
  let metaFields ← requiredDict payload "meta"
  let next ← nextPage metaFields
  let projects ← parseDistinct (parseProject text credential) GitLabProject.providerProjectId seen
    data
  return (projects, next)

end

/-! ### Pages with distinct ids -/

variable {text : DiscoveryText} {credential : GitLabCredential} {payload : List (String × Json)}

lemma providerProjectId_of_projectOfItem {item : List (String × Json)} {providerId : String}
    {project : GitLabProject}
    (h : projectOfItem text credential item providerId = .ok project) :
    project.providerProjectId = providerId := by
  rw [projectOfItem] at h
  obtain ⟨path, -, h⟩ := bind_eq_ok_iff.1 h
  obtain ⟨ownUrl, -, h⟩ := bind_eq_ok_iff.1 h
  obtain ⟨host, -, h⟩ := bind_eq_ok_iff.1 h
  split at h
  · obtain ⟨webUrl, -, h⟩ := bind_eq_ok_iff.1 h
    obtain ⟨selector, -, h⟩ := bind_eq_ok_iff.1 h
    cases h
    rfl
  · cases h

lemma distinguishes_parseProject :
    Distinguishes (parseProject text credential) GitLabProject.providerProjectId := by
  intro seen value project
  rw [parseProject, parseProject]
  rcases asDict value "project" with e | item
  · simp [bind, Except.bind]
  · rcases hid : requiredScalarId text (Json.lookup "provider_project_id" item)
      "provider_project_id" with e | providerId
    · simp [hid, bind, Except.bind]
    · simp only [hid, bind, Except.bind, List.not_mem_nil, if_false]
      constructor
      · intro h
        split_ifs at h with hseen
        exact ⟨h, providerProjectId_of_projectOfItem h ▸ hseen⟩
      · rintro ⟨h, hseen⟩
        rw [providerProjectId_of_projectOfItem h] at hseen
        rwa [if_neg hseen]

lemma distinguishes_parseNewCredential :
    Distinguishes (parseNewCredential text) GitLabCredential.id := by
  intro seen value credential
  rw [parseNewCredential, parseNewCredential]
  rcases parseCredential text value with e | parsed
  · simp [bind, Except.bind]
  · simp only [bind, Except.bind, List.not_mem_nil, if_false, pure, Except.pure]
    constructor
    · intro h
      split_ifs at h with hseen
      cases h
      exact ⟨rfl, hseen⟩
    · rintro ⟨h, hseen⟩
      cases h
      rw [if_neg hseen]

/-- A page of projects is read as it would be by itself, when no id of it was seen. -/
lemma parseProjects_eq_ok_iff {seen : List String} {projects : List GitLabProject}
    {next : Option Int} :
    parseProjects text payload credential seen = .ok (projects, next) ↔
      parseProjects text payload credential [] = .ok (projects, next) ∧
        ∀ project ∈ projects, project.providerProjectId ∉ seen := by
  simp only [parseProjects, bind_eq_ok_iff, parseDistinct_eq_ok_iff distinguishes_parseProject,
    List.not_mem_nil, not_false_eq_true, implies_true, and_true]
  constructor
  · rintro ⟨data, hdata, metaFields, hmeta, _, hnumber, _, ⟨hfound, hnodup, hnew⟩, h⟩
    cases h
    exact ⟨⟨data, hdata, metaFields, hmeta, next, hnumber, projects, ⟨hfound, hnodup⟩, rfl⟩, hnew⟩
  · rintro ⟨⟨data, hdata, metaFields, hmeta, _, hnumber, _, ⟨hfound, hnodup⟩, h⟩, hnew⟩
    cases h
    exact ⟨data, hdata, metaFields, hmeta, next, hnumber, projects, ⟨hfound, hnodup, hnew⟩, rfl⟩

lemma nodup_of_parseProjects {seen : List String} {projects : List GitLabProject}
    {next : Option Int} (h : parseProjects text payload credential seen = .ok (projects, next)) :
    (projects.map GitLabProject.providerProjectId).Nodup := by
  simp only [parseProjects, bind_eq_ok_iff,
    parseDistinct_eq_ok_iff distinguishes_parseProject] at h
  obtain ⟨_, -, _, -, _, -, _, ⟨-, hnodup, -⟩, h⟩ := h
  cases h
  exact hnodup

lemma nodup_of_parseCredentials {scope : GitLabScope} {limit offset : Int}
    {result : GitLabCredentialsResult}
    (h : parseCredentials text payload scope limit offset = .ok result) :
    (result.credentials.map GitLabCredential.id).Nodup ∧
      result.pagination.limit = limit ∧ result.pagination.offset = offset ∧
      0 ≤ result.pagination.total := by
  simp only [parseCredentials, bind_eq_ok_iff] at h
  obtain ⟨_, -, _, -, _, -, _, -, total, -, h⟩ := h
  split_ifs at h with hmeta
  obtain ⟨credentials, hcredentials, h⟩ := bind_eq_ok_iff.1 h
  rw [parseDistinct_eq_ok_iff distinguishes_parseNewCredential] at hcredentials
  cases h
  exact ⟨hcredentials.2.1, rfl, rfl, not_lt.1 fun hlt => hmeta (.inr (.inr hlt))⟩

end EnjiGuard.Gitlab
