import EnjiGuard.Foundation.Dictionary
import EnjiGuard.Foundation.Quoting
import EnjiGuard.Foundation.Templates
import EnjiGuard.Transport.Requests

/-!
# Requests to the backend and what they address

A request names an endpoint and the values of its path and of its query. The path is rendered from
the endpoint's template by replacing one placeholder after the other by a quoted value, the query is
appended; what the backend is sent is a method and a text. Reading that text back, whatever resolves
its dotted segments, gives the one endpoint and the very values, unless a value of the path is a
dotted segment itself: that is not quoted.
-/

namespace EnjiGuard.Gateway

open Foundation Transport

/-! ### Endpoints -/

/-- The method of a request. -/
inductive HttpMethod
  | get
  | post
  | put
  | patch
  | delete
  deriving DecidableEq, Repr

/-- An endpoint of the backend. -/
structure EnjiEndpointSpec where
  method : HttpMethod
  pathTemplate : String
  operation : String
  retryProfile : RetryProfile
  deriving DecidableEq, Repr

def accessEndpointSpec : EnjiEndpointSpec where
  method := .get
  pathTemplate := "/api/ux/me/access"
  operation := "access"
  retryProfile := .read

def gitCredentialsEndpointSpec : EnjiEndpointSpec where
  method := .get
  pathTemplate := "/api/v1/credentials"
  operation := "gitlab credentials"
  retryProfile := .read

def gitlabProjectsEndpointSpec : EnjiEndpointSpec where
  method := .get
  pathTemplate := "/api/v1/gitlab/projects"
  operation := "gitlab projects"
  retryProfile := .read

def userPreferencesGetEndpointSpec : EnjiEndpointSpec where
  method := .get
  pathTemplate := "/api/ux/user-preferences"
  operation := "language show"
  retryProfile := .read

def userPreferencesPutEndpointSpec : EnjiEndpointSpec where
  method := .put
  pathTemplate := "/api/ux/user-preferences"
  operation := "language set"
  retryProfile := .idempotentMutation

def projectsEndpointSpec : EnjiEndpointSpec where
  method := .get
  pathTemplate := "/api/ux/projects"
  operation := "repo list"
  retryProfile := .read

def projectDetailEndpointSpec : EnjiEndpointSpec where
  method := .get
  pathTemplate := "/api/ux/projects/\x7bprojectId\x7d"
  operation := "project detail"
  retryProfile := .read

def projectActiveRunsEndpointSpec : EnjiEndpointSpec where
  method := .get
  pathTemplate := "/api/ux/projects/\x7bprojectId\x7d/active-runs"
  operation := "project active runs"
  retryProfile := .read

def fleetProjectCreateEndpointSpec : EnjiEndpointSpec where
  method := .post
  pathTemplate := "/api/v1/projects"
  operation := "project create"
  retryProfile := .unsafeMutation

def uxProjectCreateEndpointSpec : EnjiEndpointSpec where
  method := .post
  pathTemplate := "/api/ux/projects"
  operation := "project create"
  retryProfile := .unsafeMutation

def projectRenameEndpointSpec : EnjiEndpointSpec where
  method := .patch
  pathTemplate := "/api/ux/projects/\x7bprojectId\x7d"
  operation := "project rename"
  retryProfile := .idempotentMutation

def uxProjectDeleteEndpointSpec : EnjiEndpointSpec where
  method := .delete
  pathTemplate := "/api/ux/projects/\x7bprojectId\x7d"
  operation := "project delete"
  retryProfile := .idempotentMutation

def fleetProjectDeleteEndpointSpec : EnjiEndpointSpec where
  method := .delete
  pathTemplate := "/api/v1/projects/\x7bprojectId\x7d"
  operation := "project delete"
  retryProfile := .idempotentMutation

def repoTransferPreflightEndpointSpec : EnjiEndpointSpec where
  method := .post
  pathTemplate := "/api/ux/projects/\x7bsourceProjectId\x7d/repos/\x7brepoId\x7d/transfer/preflight"
  operation := "repo move preflight"
  retryProfile := .safeProbe

def repoTransferEndpointSpec : EnjiEndpointSpec where
  method := .post
  pathTemplate := "/api/ux/projects/\x7bsourceProjectId\x7d/repos/\x7brepoId\x7d/transfer"
  operation := "repo move"
  retryProfile := .unsafeMutation

def catalogEndpointSpec : EnjiEndpointSpec where
  method := .get
  pathTemplate := "/api/ux/catalog"
  operation := "catalog"
  retryProfile := .read

def runbookEndpointSpec : EnjiEndpointSpec where
  method := .get
  pathTemplate := "/api/v1/runbooks/\x7brunbookId\x7d"
  operation := "runbook"
  retryProfile := .read

def projectReposAddEndpointSpec : EnjiEndpointSpec where
  method := .post
  pathTemplate := "/api/ux/projects/\x7bprojectId\x7d/repos"
  operation := "repo add"
  retryProfile := .unsafeMutation

def projectRepoDeleteEndpointSpec : EnjiEndpointSpec where
  method := .delete
  pathTemplate := "/api/ux/projects/\x7bprojectId\x7d/repos/\x7brepoId\x7d"
  operation := "repo remove"
  retryProfile := .idempotentMutation

def projectRepoConnectionEndpointSpec : EnjiEndpointSpec where
  method := .put
  pathTemplate := "/api/ux/projects/\x7bprojectId\x7d/repos/\x7brepoId\x7d/connection"
  operation := "repo add"
  retryProfile := .idempotentMutation

def repoActiveRunsEndpointSpec : EnjiEndpointSpec where
  method := .get
  pathTemplate := "/api/ux/repos/\x7brepoId\x7d/active-runs"
  operation := "repo active runs"
  retryProfile := .read

def repoAuditRerunStateEndpointSpec : EnjiEndpointSpec where
  method := .get
  pathTemplate := "/api/ux/repos/\x7brepoId\x7d/audit-rerun-state"
  operation := "repo rerun state"
  retryProfile := .read

def repoTaskLinksEndpointSpec : EnjiEndpointSpec where
  method := .get
  pathTemplate := "/api/ux/repos/\x7brepoId\x7d/task-links"
  operation := "repo task links"
  retryProfile := .read

def taskDetailEndpointSpec : EnjiEndpointSpec where
  method := .get
  pathTemplate := "/api/v1/tasks/\x7btaskId\x7d"
  operation := "task detail"
  retryProfile := .read

def repoAuditRunsEndpointSpec : EnjiEndpointSpec where
  method := .post
  pathTemplate := "/api/ux/repos/\x7brepoId\x7d/audit-runs"
  operation := "audit start"
  retryProfile := .unsafeMutation

def repoAuditSummaryEndpointSpec : EnjiEndpointSpec where
  method := .get
  pathTemplate := "/api/ux/repos/\x7brepoId\x7d/snapshots/upfront.audit.summary"
  operation := "report show"
  retryProfile := .read

def repoAuditReportsEndpointSpec : EnjiEndpointSpec where
  method := .get
  pathTemplate := "/api/ux/repos/\x7brepoId\x7d/audit-reports"
  operation := "audit report history"
  retryProfile := .read

def auditEmailPreferencesGetEndpointSpec : EnjiEndpointSpec where
  method := .get
  pathTemplate := "/api/ux/repos/\x7brepoId\x7d/audits/\x7bactionKey\x7d/email-preferences"
  operation := "email list"
  retryProfile := .read

def auditEmailPreferencesPutEndpointSpec : EnjiEndpointSpec where
  method := .put
  pathTemplate := "/api/ux/repos/\x7brepoId\x7d/audits/\x7bactionKey\x7d/email-preferences"
  operation := "email set"
  retryProfile := .idempotentMutation

def auditAutoRunsEndpointSpec : EnjiEndpointSpec where
  method := .get
  pathTemplate := "/api/ux/repos/\x7brepoId\x7d/audit-auto-runs"
  operation := "schedule list"
  retryProfile := .read

def auditAutoRunPutEndpointSpec : EnjiEndpointSpec where
  method := .put
  pathTemplate := "/api/ux/repos/\x7brepoId\x7d/audit-auto-runs/\x7bactionKey\x7d"
  operation := "schedule set"
  retryProfile := .idempotentMutation

def improvementJobsEndpointSpec : EnjiEndpointSpec where
  method := .get
  pathTemplate := "/api/ux/improvement-jobs/\x7brepoId\x7d"
  operation := "improvement jobs list"
  retryProfile := .read

def improvementJobPutEndpointSpec : EnjiEndpointSpec where
  method := .put
  pathTemplate := "/api/ux/improvement-jobs/\x7brepoId\x7d/\x7bkind\x7d"
  operation := "improvement jobs set"
  retryProfile := .idempotentMutation

/-- The endpoints that are announced. -/
def implementedEnjiEndpoints : List EnjiEndpointSpec :=
  [accessEndpointSpec, gitCredentialsEndpointSpec, gitlabProjectsEndpointSpec, projectsEndpointSpec,
    projectDetailEndpointSpec, projectActiveRunsEndpointSpec, fleetProjectCreateEndpointSpec,
    uxProjectCreateEndpointSpec, projectRenameEndpointSpec, uxProjectDeleteEndpointSpec,
    fleetProjectDeleteEndpointSpec, repoTransferPreflightEndpointSpec, repoTransferEndpointSpec,
    catalogEndpointSpec, runbookEndpointSpec, projectReposAddEndpointSpec,
    projectRepoDeleteEndpointSpec, projectRepoConnectionEndpointSpec, repoActiveRunsEndpointSpec,
    repoAuditRerunStateEndpointSpec, repoTaskLinksEndpointSpec, taskDetailEndpointSpec,
    repoAuditRunsEndpointSpec, repoAuditSummaryEndpointSpec, repoAuditReportsEndpointSpec,
    auditEmailPreferencesGetEndpointSpec, auditEmailPreferencesPutEndpointSpec,
    auditAutoRunsEndpointSpec, auditAutoRunPutEndpointSpec, improvementJobsEndpointSpec,
    improvementJobPutEndpointSpec]

/-- The endpoints that requests are made for. -/
def httpEndpoints : List EnjiEndpointSpec :=
  userPreferencesGetEndpointSpec :: userPreferencesPutEndpointSpec :: implementedEnjiEndpoints

/-! ### Requests -/

/-- Whether a character is never escaped. -/
def isAlwaysSafe (c : Char) : Bool := c.isAlphanum || c ∈ ['_', '.', '-', '~']

lemma isAlwaysSafe_spec {n : Nat} (hn : n < 256) (h : isAlwaysSafe (Char.ofNat n)) :
    Char.ofNat n ≠ '%' ∧ (Char.ofNat n).toNat = n ∧ n < 128 := by
  have hall : ∀ n < 256, isAlwaysSafe (Char.ofNat n) →
      Char.ofNat n ≠ '%' ∧ (Char.ofNat n).toNat = n ∧ n < 128 := by decide +kernel
  exact hall n hn h

/-- How the values of a path are quoted. -/
def quoting : ByteCode where
  kept b := if isAlwaysSafe (Char.ofNat b.toNat) then some (Char.ofNat b.toNat) else none
  read c := if c.toNat < 128 then some (UInt8.ofNat c.toNat) else none
  read_of_kept := by
    intro b c h
    split_ifs at h with hsafe
    cases h
    obtain ⟨hescape, hself, hlt⟩ := isAlwaysSafe_spec b.toNat_lt hsafe
    rw [hself, if_pos hlt, UInt8.ofNat_toNat]
    exact ⟨hescape, rfl⟩

lemma isAlwaysSafe_of_kept {b : UInt8} {c : Char} (h : quoting.kept b = some c) :
    isAlwaysSafe c := by
  simp only [quoting] at h
  split_ifs at h with hsafe
  cases h
  exact hsafe

/-- How the parts of a query are quoted. -/
def quotingPlus : ByteCode where
  kept b := if b = 32 then some '+' else quoting.kept b
  read c := if c = '+' then some 32 else quoting.read c
  read_of_kept := by
    intro b c h
    split_ifs at h with hspace
    · cases h
      subst hspace
      decide
    · have hplus : c ≠ '+' := by
        rintro rfl
        exact absurd (isAlwaysSafe_of_kept h) (by decide)
      rw [if_neg hplus]
      exact quoting.read_of_kept h

/-- Writes a value into a path. -/
def quote (value : String) : List Char := quoting.quote value

/-- Writes a part of a query. -/
def quotePlus (value : String) : List Char := quotingPlus.quote value

/-- Writes a query. -/
def urlencode (queryParams : List (String × String)) : List Char :=
  ['&'].intercalate (queryParams.map fun entry => quotePlus entry.1 ++ '=' :: quotePlus entry.2)

/-- Replaces one placeholder of a template after the other. -/
def renderApiPath (pathTemplate : String) (pathParams : List (String × String)) : String :=
  String.ofList (fillEach (pathParams.map fun entry => (slotToken entry.1, quote entry.2))
    pathTemplate.toList)

/-- A request before it is sent. -/
structure ApiRequestSpec where
  method : HttpMethod
  path : String
  operation : String
  retryProfile : RetryProfile
  deriving DecidableEq, Repr

def EnjiEndpointSpec.request (spec : EnjiEndpointSpec)
    (pathParams queryParams : List (String × String)) : ApiRequestSpec where
  method := spec.method
  path :=
    if queryParams = [] then renderApiPath spec.pathTemplate pathParams
    else renderApiPath spec.pathTemplate pathParams ++ "?" ++ String.ofList (urlencode queryParams)
  operation := spec.operation
  retryProfile := spec.retryProfile

/-! ### What a request addresses -/

/-- An endpoint with the values of its path and of its query. -/
structure Address where
  spec : EnjiEndpointSpec
  pathParams : List (String × String)
  queryParams : List (String × String)
  deriving DecidableEq, Repr

/-- A segment of a template. -/
def segmentOf : List Char → Segment
  | '{' :: rest => .slot (String.ofList rest.dropLast)
  | text => .literal text

/-- The segments of an endpoint's template. -/
def EnjiEndpointSpec.segments (spec : EnjiEndpointSpec) : List Segment :=
  (spec.pathTemplate.toList.splitOn '/').tail.map segmentOf

/-- The names and values of a query. -/
def readQuery (text : List Char) : Option (List (String × String)) :=
  (text.splitOn '&').mapM fun part =>
    match part.splitOn '=' with
    | [name, value] => do some (← quotingPlus.unquote name, ← quotingPlus.unquote value)
    | _ => none

/-- The values a path gives an endpoint, once its dotted segments are resolved. -/
def EnjiEndpointSpec.readPath (resolve : List (List Char) → List (List Char))
    (spec : EnjiEndpointSpec) (path : List Char) : Option (List (String × String)) :=
  match resolve (path.splitOn '/') with
  | [] :: parts => Segment.readSegments quoting.unquote spec.segments parts
  | _ => none

/-- The query that follows a path. -/
def readQueryPart : List Char → Option (List (String × String))
  | [] => some []
  | _ :: query => readQuery query

/-- What a request addresses at an endpoint. -/
def EnjiEndpointSpec.readTarget (resolve : List (List Char) → List (List Char))
    (method : HttpMethod) (target : String) (spec : EnjiEndpointSpec) : Option Address :=
  let text := target.toList.takeWhile (· ≠ '#')
  if spec.method = method then do
    let pathParams ← spec.readPath resolve (text.takeWhile (· ≠ '?'))
    let queryParams ← readQueryPart (text.dropWhile (· ≠ '?'))
    some ⟨spec, pathParams, queryParams⟩
  else none

/-- Everything a request addresses. -/
def addresses (resolve : List (List Char) → List (List Char)) (method : HttpMethod)
    (target : String) : List Address :=
  httpEndpoints.filterMap (EnjiEndpointSpec.readTarget resolve method target)

/-! ### What is written is read -/

section Reading

variable {spec : EnjiEndpointSpec} {pathParams queryParams : List (String × String)}
variable {resolve : List (List Char) → List (List Char)}

/-- A character that is never written into a path. -/
lemma spares_quoting {c : Char} (hsafe : isAlwaysSafe c = false) (h : c ∉ '%' :: hexDigits) :
    quoting.Spares c where
  unkept b hkept := by
    have hkept := isAlwaysSafe_of_kept hkept
    rw [hsafe] at hkept
    cases hkept
  unescaped := h

/-- A character that is never written into a part of a query. -/
lemma spares_quotingPlus {c : Char} (hplus : c ≠ '+') (hsafe : isAlwaysSafe c = false)
    (h : c ∉ '%' :: hexDigits) : quotingPlus.Spares c where
  unkept b hkept := by
    simp only [quotingPlus] at hkept
    split_ifs at hkept
    · cases hkept
      exact hplus rfl
    · exact (spares_quoting hsafe h).unkept b hkept
  unescaped := h

lemma not_mem_quote {c : Char} (hsafe : isAlwaysSafe c = false) (h : c ∉ '%' :: hexDigits)
    (value : String) : c ∉ quote value :=
  (spares_quoting hsafe h).not_mem_quote value

lemma not_mem_quotePlus {c : Char} (hplus : c ≠ '+') (hsafe : isAlwaysSafe c = false)
    (h : c ∉ '%' :: hexDigits) (value : String) : c ∉ quotePlus value :=
  (spares_quotingPlus hplus hsafe h).not_mem_quote value

/-- Only the dotted texts are quoted as dotted segments. -/
lemma dotted_quote_iff (value : String) : Dotted (quote value) ↔ value = "." ∨ value = ".." := by
  have hone : quote "." = ['.'] := by decide +kernel
  have htwo : quote ".." = ['.', '.'] := by decide +kernel
  rw [Dotted, ← htwo, ← hone]
  exact or_congr (quoting.quote_injective.eq_iff) (quoting.quote_injective.eq_iff)

/-- A query is read as it was written. -/
lemma readQuery_urlencode (h : queryParams ≠ []) : readQuery (urlencode queryParams) =
    some queryParams := by
  rw [readQuery, urlencode, List.splitOn_intercalate]
  · refine mapM_map_eq_some (fun entry => ?_) queryParams
    have hname : '=' ∉ quotePlus entry.1 := not_mem_quotePlus (by decide) (by decide) (by decide) _
    have hvalue : '=' ∉ quotePlus entry.2 := not_mem_quotePlus (by decide) (by decide) (by decide) _
    rw [List.splitOn_append_cons_self_of_not_mem hname, List.splitOn_eq_singleton hvalue]
    simp only [quotePlus, ByteCode.unquote_quote]
    rfl
  · intro part hpart
    obtain ⟨entry, -, rfl⟩ := List.mem_map.1 hpart
    have hfree : ∀ value, '&' ∉ quotePlus value :=
      not_mem_quotePlus (by decide) (by decide) (by decide)
    simp [hfree]
  · simpa using h

/-- A query holds no fragment. -/
lemma not_mem_urlencode : '#' ∉ urlencode queryParams := by
  intro h
  rcases mem_intercalate_singleton h with h | ⟨part, hpart, h⟩
  · cases h
  · obtain ⟨entry, -, rfl⟩ := List.mem_map.1 hpart
    have hfree : ∀ value, '#' ∉ quotePlus value :=
      not_mem_quotePlus (by decide) (by decide) (by decide)
    simp [hfree] at h

/-! ### Paths of the endpoints -/

/-- A template is written segment by segment, its texts need no quoting and are not dotted, and its
slots have different names. -/
def EnjiEndpointSpec.WellFormed (spec : EnjiEndpointSpec) : Prop :=
  spec.pathTemplate.toList = pathText (spec.segments.map Segment.written) ∧
    (∀ s ∈ spec.segments, s.Plain ∧ s.Unquoted) ∧
    (Segment.slotNames spec.segments).Nodup

instance (spec : EnjiEndpointSpec) : Decidable spec.WellFormed := by
  unfold EnjiEndpointSpec.WellFormed
  infer_instance

/-- The endpoints are well formed, and those of one method have different paths. -/
lemma endpoints_wellFormed : (∀ spec ∈ httpEndpoints, spec.WellFormed) ∧
    httpEndpoints.Pairwise fun spec spec' =>
      spec.method = spec'.method → Segment.Apart spec.segments spec'.segments := by
  decide +kernel

lemma template_of_mem (h : spec ∈ httpEndpoints) :
    spec.pathTemplate.toList = pathText (spec.segments.map Segment.written) :=
  (endpoints_wellFormed.1 spec h).1

lemma plain_of_mem (h : spec ∈ httpEndpoints) : ∀ s ∈ spec.segments, s.Plain := fun s hs =>
  ((endpoints_wellFormed.1 spec h).2.1 s hs).1

lemma unquoted_of_mem (h : spec ∈ httpEndpoints) : ∀ s ∈ spec.segments, s.Unquoted := fun s hs =>
  ((endpoints_wellFormed.1 spec h).2.1 s hs).2

lemma nodup_slotNames (h : spec ∈ httpEndpoints) : (Segment.slotNames spec.segments).Nodup :=
  (endpoints_wellFormed.1 spec h).2.2

/-- The value of a slot. -/
def valueOf (pathParams : List (String × String)) (name : String) : String :=
  (pathParams.lookup name).getD ""

/-- The segments of a rendered path. -/
def EnjiEndpointSpec.parts (spec : EnjiEndpointSpec) (pathParams : List (String × String)) :
    List (List Char) :=
  spec.segments.map (Segment.part fun name => quote (valueOf pathParams name))

lemma mem_slotNames_iff {segments : List Segment} {name : String} :
    name ∈ Segment.slotNames segments ↔ Segment.slot name ∈ segments := by
  rw [Segment.slotNames, List.mem_filterMap]
  constructor
  · rintro ⟨s, hs, hname⟩
    cases s with
    | literal text => cases hname
    | slot other =>
      cases hname
      exact hs
  · exact fun h => ⟨_, h, rfl⟩

/-- The slots of a template are those its values are given for. -/
lemma slot_mem_iff {name : String}
    (hnames : pathParams.map Prod.fst = Segment.slotNames spec.segments) :
    Segment.slot name ∈ spec.segments ↔ ∃ entry ∈ pathParams, entry.1 = name := by
  rw [← mem_slotNames_iff, ← hnames, List.mem_map]

lemma valueOf_of_mem {entry : String × String} (hnodup : (pathParams.map Prod.fst).Nodup)
    (hentry : entry ∈ pathParams) : valueOf pathParams entry.1 = entry.2 := by
  rw [valueOf, (Dictionary.lookup_eq_some_iff_mem hnodup).2 hentry]
  rfl

lemma map_valueOf (hnodup : (pathParams.map Prod.fst).Nodup) :
    (pathParams.map Prod.fst).map (fun name => (name, valueOf pathParams name)) = pathParams := by
  rw [List.map_map]
  refine (List.map_congr_left fun entry hentry => ?_).trans (List.map_id _)
  rw [Function.comp_apply, valueOf_of_mem hnodup hentry]
  rfl

/-- What is rendered is the template with its slots filled in. -/
lemma toList_renderApiPath (hspec : spec ∈ httpEndpoints)
    (hnames : pathParams.map Prod.fst = Segment.slotNames spec.segments) :
    (renderApiPath spec.pathTemplate pathParams).toList = pathText (spec.parts pathParams) := by
  have hnodup : (pathParams.map Prod.fst).Nodup := hnames ▸ nodup_slotNames hspec
  have hentries : ∀ entry ∈ pathParams.map fun entry => (entry.1, quote entry.2),
      ('{' ∉ entry.1.toList ∧ '}' ∉ entry.1.toList) ∧ '{' ∉ entry.2 ∧ '/' ∉ entry.2 := by
    intro entry hentry
    obtain ⟨param, hparam, rfl⟩ := List.mem_map.1 hentry
    exact ⟨plain_of_mem hspec _ ((slot_mem_iff hnames).2 ⟨param, hparam, rfl⟩),
      not_mem_quote (by decide) (by decide) _, not_mem_quote (by decide) (by decide) _⟩
  rw [renderApiPath, String.toList_ofList, template_of_mem hspec]
  have hfill := Segment.fillEach_pathText hentries (plain_of_mem hspec)
  rw [List.map_map] at hfill
  refine hfill.trans (congrArg pathText (List.map_congr_left fun s hs => ?_))
  cases s with
  | literal text =>
    rw [Segment.fillIn_literal]
    rfl
  | slot name =>
    obtain ⟨entry, hentry, rfl⟩ := (slot_mem_iff hnames).1 hs
    have hkeys : ((pathParams.map fun entry => (entry.1, quote entry.2)).map Prod.fst).Nodup := by
      rwa [List.map_map]
    have hfilled := (Dictionary.lookup_eq_some_iff_mem hkeys).2
      (List.mem_map_of_mem (f := fun entry => (entry.1, quote entry.2)) hentry)
    rw [Segment.fillIn_slot, hfilled, Segment.part, valueOf_of_mem hnodup hentry]
    rfl

/-- The characters that end a segment, a path or a target are in no segment. -/
lemma not_mem_parts {c : Char} (hc : c = '/' ∨ c = '?' ∨ c = '#') (hspec : spec ∈ httpEndpoints) :
    ∀ part ∈ spec.parts pathParams, c ∉ part := by
  intro part hpart
  obtain ⟨s, hs, rfl⟩ := List.mem_map.1 hpart
  cases s with
  | literal text =>
    have hplain := (plain_of_mem hspec _ hs).2
    obtain ⟨-, -, hquery, hfragment⟩ := unquoted_of_mem hspec _ hs
    rcases hc with rfl | rfl | rfl
    · exact hplain
    · exact hquery
    · exact hfragment
  | slot name =>
    rcases hc with rfl | rfl | rfl <;> exact not_mem_quote (by decide) (by decide) _

lemma dotted_part_iff (hspec : spec ∈ httpEndpoints)
    (hnames : pathParams.map Prod.fst = Segment.slotNames spec.segments) :
    (∃ part ∈ spec.parts pathParams, Dotted part) ↔
      ∃ entry ∈ pathParams, entry.2 = "." ∨ entry.2 = ".." := by
  have hnodup : (pathParams.map Prod.fst).Nodup := hnames ▸ nodup_slotNames hspec
  constructor
  · rintro ⟨part, hpart, hdotted⟩
    obtain ⟨s, hs, rfl⟩ := List.mem_map.1 hpart
    cases s with
    | literal text => exact absurd hdotted (unquoted_of_mem hspec _ hs).1
    | slot name =>
      obtain ⟨entry, hentry, rfl⟩ := (slot_mem_iff hnames).1 hs
      refine ⟨entry, hentry, (dotted_quote_iff _).1 ?_⟩
      rwa [Segment.part, valueOf_of_mem hnodup hentry] at hdotted
  · rintro ⟨entry, hentry, hdotted⟩
    refine ⟨_, List.mem_map_of_mem ((slot_mem_iff hnames).2 ⟨entry, hentry, rfl⟩), ?_⟩
    rw [Segment.part, valueOf_of_mem hnodup hentry]
    exact (dotted_quote_iff _).2 hdotted

/-! ### Targets -/

lemma splitOn_parts (hspec : spec ∈ httpEndpoints) :
    (pathText (spec.parts pathParams)).splitOn '/' = [] :: spec.parts pathParams :=
  splitOn_pathText (not_mem_parts (.inl rfl) hspec)

lemma not_mem_path {c : Char} (hc : c = '?' ∨ c = '#') (hspec : spec ∈ httpEndpoints) :
    c ∉ pathText (spec.parts pathParams) := by
  have hslash : c ≠ '/' := by
    rintro rfl
    exact absurd hc (by decide)
  rw [mem_pathText hslash]
  rintro ⟨part, hpart, h⟩
  exact not_mem_parts (.inr hc) hspec part hpart h

/-- The path of a target, and the query behind it. -/
lemma target_request (hspec : spec ∈ httpEndpoints)
    (hnames : pathParams.map Prod.fst = Segment.slotNames spec.segments) :
    ∃ query, (spec.request pathParams queryParams).path.toList.takeWhile (· ≠ '#') =
        pathText (spec.parts pathParams) ++ query ∧
      (query = [] ∨ ∃ rest, query = '?' :: rest) ∧ readQueryPart query = some queryParams := by
  have hpath : '#' ∉ pathText (spec.parts pathParams) := not_mem_path (.inr rfl) hspec
  by_cases hquery : queryParams = []
  · refine ⟨[], ?_, .inl rfl, by rw [hquery]; rfl⟩
    rw [EnjiEndpointSpec.request, if_pos hquery, toList_renderApiPath hspec hnames,
      List.append_nil]
    exact takeWhile_ne_of_notMem hpath
  · refine ⟨'?' :: urlencode queryParams, ?_, .inr ⟨_, rfl⟩, readQuery_urlencode hquery⟩
    have hrest : '#' ∉ '?' :: urlencode queryParams :=
      List.not_mem_cons_of_ne_of_not_mem (by decide) not_mem_urlencode
    have hmark : "?".toList = ['?'] := rfl
    rw [EnjiEndpointSpec.request, if_neg hquery, String.toList_append, String.toList_append,
      toList_renderApiPath hspec hnames, hmark, String.toList_ofList, List.append_assoc,
      takeWhile_ne_append hpath, List.singleton_append, takeWhile_ne_of_notMem hrest]

/-- What a request addresses at an endpoint of its method is what its path says there, with the
query it was made with. -/
lemma readTarget_request {other : EnjiEndpointSpec} (hspec : spec ∈ httpEndpoints)
    (hnames : pathParams.map Prod.fst = Segment.slotNames spec.segments)
    (hmethod : other.method = spec.method) :
    other.readTarget resolve (spec.request pathParams queryParams).method
        (spec.request pathParams queryParams).path =
      (other.readPath resolve (pathText (spec.parts pathParams))).map
        fun values => ⟨other, values, queryParams⟩ := by
  obtain ⟨query, htarget, hquery, hread⟩ := @target_request spec pathParams queryParams hspec hnames
  have hpath : '?' ∉ pathText (spec.parts pathParams) := not_mem_path (.inl rfl) hspec
  have hbefore : query.takeWhile (· ≠ '?') = [] ∧ query.dropWhile (· ≠ '?') = query := by
    rcases hquery with rfl | ⟨rest, rfl⟩
    · exact ⟨rfl, rfl⟩
    · exact ⟨List.takeWhile_cons_of_neg (by decide), List.dropWhile_cons_of_neg (by decide)⟩
  have hsame : other.method = (spec.request pathParams queryParams).method := hmethod
  rw [EnjiEndpointSpec.readTarget, if_pos hsame, htarget, takeWhile_ne_append hpath,
    dropWhile_ne_append hpath, hbefore.1, hbefore.2, List.append_nil, hread]
  cases other.readPath resolve (pathText (spec.parts pathParams)) <;> rfl

lemma readPath_parts (hspec : spec ∈ httpEndpoints)
    (hnames : pathParams.map Prod.fst = Segment.slotNames spec.segments)
    (hplain : ∀ part ∈ spec.parts pathParams, ¬ Dotted part) (hresolve : ResolvesDots resolve) :
    spec.readPath resolve (pathText (spec.parts pathParams)) = some pathParams := by
  have hresolved : resolve ([] :: spec.parts pathParams) = [] :: spec.parts pathParams := by
    refine hresolve.plain (List.forall_mem_cons.2 ⟨?_, hplain⟩)
    rintro (h | h) <;> cases h
  have hread := Segment.readSegments_part quoting.unquote_quote (valueOf pathParams) spec.segments
  rw [← hnames, map_valueOf (hnames ▸ nodup_slotNames hspec)] at hread
  rw [EnjiEndpointSpec.readPath, splitOn_parts hspec, hresolved]
  exact hread

/-- What is read without an escape is written as it is read. -/
lemma eq_map_of_decode {text : List Char} {bytes : List UInt8} (h : '%' ∉ text)
    (hdecode : quoting.decode text = some bytes) :
    text = bytes.map fun b => Char.ofNat b.toNat := by
  induction text generalizing bytes with
  | nil =>
    cases hdecode
    rfl
  | cons c text ih =>
    rw [ByteCode.decode_cons (Ne.symm (List.ne_of_not_mem_cons h))] at hdecode
    obtain ⟨b, hb, hrest⟩ := Option.bind_eq_some_iff.1 hdecode
    obtain ⟨others, hothers, hsome⟩ := Option.bind_eq_some_iff.1 hrest
    cases hsome
    rw [List.map_cons, ← ih (List.not_mem_of_not_mem_cons h) hothers]
    simp only [quoting] at hb
    split_ifs at hb with hascii
    cases hb
    have hsmall : c.toNat < 256 := by omega
    rw [UInt8.toNat_ofNat_of_lt' hsmall, Char.ofNat_toNat]

lemma dotted_of_unquote {text : List Char} {value : String} (h : '%' ∉ text)
    (hread : quoting.unquote text = some value) (hvalue : value = "." ∨ value = "..") :
    Dotted text := by
  obtain ⟨bytes, hdecode, htext⟩ := Option.bind_eq_some_iff.1 hread
  have hbytes : bytes = value.toByteArray.data.toList := by
    rw [String.fromUTF8?] at htext
    split_ifs at htext
    cases htext
    rfl
  rw [eq_map_of_decode h hdecode, hbytes]
  rcases hvalue with rfl | rfl
  · exact .inl (by decide +kernel)
  · exact .inr (by decide +kernel)

/-- A path whose values are read back has none that is dotted. -/
lemma not_dotted_of_readPath (hspec : spec ∈ httpEndpoints) (hresolve : ResolvesDots resolve)
    (hread : spec.readPath resolve (pathText (spec.parts pathParams)) = some pathParams) :
    ∀ entry ∈ pathParams, ¬ (entry.2 = "." ∨ entry.2 = "..") := by
  intro entry hentry hdotted
  rw [EnjiEndpointSpec.readPath, splitOn_parts hspec] at hread
  split at hread
  next parts hparts =>
    obtain ⟨part, hpart, hvalue⟩ := (Segment.reads_of_readSegments hread).exists_part hentry
    have hmem : part ∈ resolve ([] :: spec.parts pathParams) := by
      rw [hparts]
      exact List.mem_cons_of_mem _ hpart
    refine hresolve.clean hmem ?_
    rcases hresolve.source hmem with rfl | hsource
    · exact dotted_of_unquote List.not_mem_nil hvalue hdotted
    · rcases List.mem_cons.1 hsource with rfl | hsource
      · exact dotted_of_unquote List.not_mem_nil hvalue hdotted
      · obtain ⟨s, hs, rfl⟩ := List.mem_map.1 hsource
        cases s with
        | literal text =>
          obtain ⟨-, hfree, -⟩ := unquoted_of_mem hspec _ hs
          exact dotted_of_unquote hfree hvalue hdotted
        | slot name =>
          rw [Segment.part, quote, ByteCode.unquote_quote] at hvalue
          refine (dotted_quote_iff _).2 ?_
          rwa [Option.some.inj hvalue]
  next => cases hread

/-- Endpoints that read the same path read the same segments. -/
lemma exists_parts_of_readPath {other : EnjiEndpointSpec} {path : List Char}
    {values values' : List (String × String)} (h : spec.readPath resolve path = some values)
    (h' : other.readPath resolve path = some values') :
    ∃ parts, Segment.Reads quoting.unquote spec.segments parts values ∧
      Segment.Reads quoting.unquote other.segments parts values' := by
  rw [EnjiEndpointSpec.readPath] at h h'
  split at h
  next parts hparts =>
    simp only [hparts] at h'
    exact ⟨parts, Segment.reads_of_readSegments h, Segment.reads_of_readSegments h'⟩
  next => cases h

/-- A request addresses its own endpoint with its own values, and nothing else, exactly when no
value of its path is dotted. -/
theorem addresses_request_iff (hresolve : ResolvesDots resolve) (hspec : spec ∈ httpEndpoints)
    (hnames : pathParams.map Prod.fst = Segment.slotNames spec.segments) :
    addresses resolve (spec.request pathParams queryParams).method
        (spec.request pathParams queryParams).path = [⟨spec, pathParams, queryParams⟩] ↔
      ∀ entry ∈ pathParams, entry.2 ≠ "." ∧ entry.2 ≠ ".." := by
  constructor
  · intro h entry hentry
    have hmem := List.mem_singleton_self (Address.mk spec pathParams queryParams)
    rw [← h] at hmem
    obtain ⟨other, -, hother⟩ := List.mem_filterMap.1 hmem
    have hmethod : other.method = spec.method := by
      by_contra hne
      have hnone := hother.symm.trans (if_neg hne)
      cases hnone
    rw [readTarget_request hspec hnames hmethod] at hother
    obtain ⟨values, hvalues, haddress⟩ := Option.map_eq_some_iff.1 hother
    cases haddress
    exact not_or.1 (not_dotted_of_readPath hspec hresolve hvalues entry hentry)
  · intro hplain
    have hparts : ∀ part ∈ spec.parts pathParams, ¬ Dotted part := by
      intro part hpart hdotted
      obtain ⟨entry, hentry, hvalue⟩ := (dotted_part_iff hspec hnames).1 ⟨part, hpart, hdotted⟩
      exact not_or.2 (hplain entry hentry) hvalue
    have hread := readPath_parts hspec hnames hparts hresolve
    refine filterMap_eq_singleton endpoints_wellFormed.2 hspec ?_ ?_
    · rw [readTarget_request hspec hnames rfl, hread]
      rfl
    · intro other hother hdiffers
      by_cases hmethod : other.method = spec.method
      · rw [readTarget_request hspec hnames hmethod]
        rcases hvalues : other.readPath resolve (pathText (spec.parts pathParams)) with _ | values
        · rfl
        · obtain ⟨parts, hmine, htheirs⟩ := exists_parts_of_readPath hread hvalues
          rcases hdiffers with hdiffers | hdiffers
          · exact absurd (hdiffers hmethod.symm) (hmine.not_apart htheirs)
          · exact absurd (hdiffers hmethod) (htheirs.not_apart hmine)
      · exact if_neg hmethod

end Reading

/-! ### Sample requests -/

/-- The segments before a segment, after it. -/
def dropDot (before : List (List Char)) (segment : List Char) : List (List Char) :=
  if segment = ['.'] then before
  else if segment = ['.', '.'] then if before = [[]] then before else before.dropLast
  else before ++ [segment]

/-- Segments that are resolved one after the other. -/
def dropDots (segments : List (List Char)) : List (List Char) := segments.foldl dropDot []

lemma mem_dropDot {before : List (List Char)} {segment other : List Char}
    (h : other ∈ dropDot before segment) :
    other ∈ before ∨ other = segment ∧ ¬ Dotted segment := by
  rw [dropDot] at h
  split_ifs at h with hone htwo hroot
  · exact .inl h
  · exact .inl h
  · exact .inl (List.dropLast_subset _ h)
  · rcases List.mem_append.1 h with h | h
    · exact .inl h
    · exact .inr ⟨List.mem_singleton.1 h, not_or.2 ⟨hone, htwo⟩⟩

lemma mem_foldl_dropDot {before segments : List (List Char)} {segment : List Char}
    (h : segment ∈ segments.foldl dropDot before) :
    segment ∈ before ∨ segment ∈ segments ∧ ¬ Dotted segment := by
  induction segments generalizing before with
  | nil => exact .inl h
  | cons first segments ih =>
    rcases ih h with h | ⟨h, hplain⟩
    · rcases mem_dropDot h with h | ⟨rfl, hplain⟩
      · exact .inl h
      · exact .inr ⟨List.mem_cons_self, hplain⟩
    · exact .inr ⟨List.mem_cons_of_mem _ h, hplain⟩

lemma foldl_dropDot {before segments : List (List Char)}
    (h : ∀ segment ∈ segments, ¬ Dotted segment) :
    segments.foldl dropDot before = before ++ segments := by
  induction segments generalizing before with
  | nil => exact (List.append_nil _).symm
  | cons first segments ih =>
    obtain ⟨hfirst, hrest⟩ := List.forall_mem_cons.1 h
    obtain ⟨hone, htwo⟩ := not_or.1 hfirst
    rw [List.foldl_cons, dropDot, if_neg hone, if_neg htwo, ih hrest, List.append_assoc,
      List.singleton_append]

lemma resolvesDots_dropDots : ResolvesDots dropDots where
  plain h := foldl_dropDot h
  clean h := ((mem_foldl_dropDot h).resolve_left List.not_mem_nil).2
  source h := .inr ((mem_foldl_dropDot h).resolve_left List.not_mem_nil).1

/-- The removal of a repository, with separators and braces in its values. -/
def bracedRemoval : List (String × String) :=
  [("projectId", "p/1?"), ("repoId", "\x7bprojectId\x7d")]

theorem addresses_request_iff_braced :
    addresses dropDots (projectRepoDeleteEndpointSpec.request bracedRemoval []).method
        (projectRepoDeleteEndpointSpec.request bracedRemoval []).path =
      [⟨projectRepoDeleteEndpointSpec, bracedRemoval, []⟩] :=
  (addresses_request_iff resolvesDots_dropDots (by decide +kernel) (by decide +kernel)).2
    (by decide +kernel)

end EnjiGuard.Gateway
