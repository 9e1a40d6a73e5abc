import EnjiGuard.Gitlab.Credentials

/-!
# Discovering projects

The projects of a host are listed through a credential, one page or all pages. The service says
which page comes next; what it answers to the requests is anything.
-/

namespace EnjiGuard.Gitlab

open Foundation

/-- What a listing of projects asks for. -/
structure GitLabProjectsQuery where
  credentialId : Option String := none
  search : Option String := none
  page : Int := 1
  perPage : Int := 50
  allPages : Bool := false
  scopeType : Option String := none
  scopeOwner : Option String := none
  deriving DecidableEq, Repr

structure GitLabProjectsHttpRequest where
  credentialId : String
  host : Option String
  apiBaseUrl : Option String
  search : Option String
  page : Int
  perPage : Int
  scopeType : String
  scopeOwner : Option String
  deriving DecidableEq, Repr

/-- The page a listing began with, and the one that a later listing may begin with. -/
structure GitLabProjectPage where
  page : Int
  perPage : Int
  nextPage : Option Int
  deriving DecidableEq, Repr

/-- The projects of a listing. -/
structure GitLabProjectsResult where
  scope : GitLabScope
  credential : GitLabCredential
  projects : List GitLabProject
  pagination : GitLabProjectPage
  deriving DecidableEq, Repr

section

variable (text : DiscoveryText)

/-- The request for a page. -/
def projectsRequest (query : GitLabProjectsQuery) (scope : GitLabScope)
    (credential : GitLabCredential) (page : Int) : GitLabProjectsHttpRequest where
  credentialId := credential.id
  host := credential.gitHost
  apiBaseUrl := credential.apiBaseUrl
  search := query.search
  page := page
  perPage := query.perPage
  scopeType := scope.scopeType
  scopeOwner := scope.scopeOwner

/-- What the answer to the `n`-th request adds to the projects that were seen. -/
def requestProjects (answers : Answers) (credential : GitLabCredential) (n : Nat)
    (seenIds : List String) : Except GitLabError (List GitLabProject × Option Int) := do
  parseProjects text (← answers n) credential seenIds

/-- The loop over the pages from the `n`-th request on: the pages it asks for, and how it ends, with
the projects and the number of the next page. Without fuel it has not ended. -/
def projectsLoop (answers : Answers) (credential : GitLabCredential) (allPages : Bool) :
    Nat → Nat → Int → Int → List Int → List GitLabProject →
      List Int × Option (Except GitLabError (List GitLabProject × Option Int))
  | 0, _, _, _, _, _ => ([], none)
  | fuel + 1, n, page, currentPage, seenPages, projects =>
    if page ∈ seenPages then
      ([], some (.error (.value "GitLab project pagination cycle detected")))
    else
      match requestProjects text answers credential n
          (projects.map GitLabProject.providerProjectId) with
      | .error e => ([page], some (.error e))
      | .ok (found, returnedNext) =>
        if !allPages then ([page], some (.ok (projects ++ found, returnedNext)))
        else
          match returnedNext with
          | none => ([page], some (.ok (projects ++ found, none)))
          | some next =>
            if next ∈ page :: seenPages then
              ([page], some (.error (.value "GitLab project pagination cycle detected")))
            else if next ≤ currentPage then
              ([page], some (.error (.value "GitLab project pagination moved backwards")))
            else
              let rest := projectsLoop answers credential allPages fuel (n + 1) next next
                (page :: seenPages) (projects ++ found)
              (page :: rest.1, rest.2)

/-- The scope and the credential that a listing goes through. -/
def discoveryCredential (credentialAnswers : Answers) (query : GitLabProjectsQuery) (fuel : Nat) :
    Option (Except GitLabError (GitLabScope × GitLabCredential)) :=
  if query.page ≤ 0 ∨ query.perPage ≤ 0 then
    some (.error (.value "project page and per-page values must be positive"))
  else
    match normalizeScope text (Json.ofOptionalStr query.scopeType)
        (Json.ofOptionalStr query.scopeOwner) with
    | .error e => some (.error e)
    | .ok scope =>
      (resolveCredential text credentialAnswers (some scope.scopeType) scope.scopeOwner
        query.credentialId fuel).2.map fun credential => (scope, ·) <$> credential

/-- Lists projects: the pages that are asked for, and how the listing ends. -/
def discoverProjects (credentialAnswers answers : Answers) (query : GitLabProjectsQuery)
    (fuel : Nat) :
    List GitLabProjectsHttpRequest × Option (Except GitLabError GitLabProjectsResult) :=
  match discoveryCredential text credentialAnswers query fuel with
  | none => ([], none)
  | some (.error e) => ([], some (.error e))
  | some (.ok (scope, credential)) =>
    let listed := projectsLoop text answers credential query.allPages fuel 0 query.page query.page
      [] []
    (listed.1.map (projectsRequest query scope credential),
      listed.2.map fun result => do
        let (projects, nextPage) ← result
        return ⟨scope, credential, projects, ⟨query.page, query.perPage, nextPage⟩⟩)

/-! ### Safe listings -/

/-- What the service answers to the `n`-th request, read by itself. -/
def projectsPage (answers : Answers) (credential : GitLabCredential) (n : Nat) :
    Except GitLabError (List GitLabProject × Option Int) :=
  requestProjects text answers credential n []

/-- The `n`-th page is malformed, or it repeats a project of an earlier one. -/
inductive Unreadable (answers : Answers) (credential : GitLabCredential) (n : Nat) : Prop
  | malformed {e : GitLabError} (h : projectsPage text answers credential n = .error e)
  | repeated {found earlier : List GitLabProject} {next next' : Option Int} {m : Nat}
      (h : projectsPage text answers credential n = .ok (found, next)) (hm : m < n)
      (hearlier : projectsPage text answers credential m = .ok (earlier, next'))
      (hid : ∃ a ∈ found, ∃ b ∈ earlier, a.providerProjectId = b.providerProjectId)

/-- The `n`-th page says that a page comes next that was asked for already, or one before it. -/
def GoesBack (answers : Answers) (credential : GitLabCredential) (pages : List Int) (n : Nat) :
    Prop :=
  ∃ found next, projectsPage text answers credential n = .ok (found, some next) ∧
    ∃ page ∈ pages.take (n + 1), next ≤ page

/-- A listing asks for increasing pages; a listing of all pages returns their projects in order,
with distinct ids and no next page; and a page that is unreadable, or goes back where that counts,
is the last that is asked for, and ends it with an error. -/
structure SafeListing (credentialAnswers answers : Answers) (query : GitLabProjectsQuery)
    (counts : Prop) (fuel : Nat) (requests : List GitLabProjectsHttpRequest)
    (outcome : Option (Except GitLabError GitLabProjectsResult)) : Prop where
  increasing : (requests.map GitLabProjectsHttpRequest.page).Pairwise (· < ·)
  listed : ∀ result, query.allPages = true → outcome = some (.ok result) →
    (∃ parts : List (List GitLabProject), parts.length = requests.length ∧
      (∀ n part, parts[n]? = some part →
        ∃ next, projectsPage text answers result.credential n = .ok (part, next)) ∧
      result.projects = parts.flatten) ∧
    (result.projects.map GitLabProject.providerProjectId).Nodup ∧
    result.pagination.nextPage = none
  refuses : ∀ scope credential,
    discoveryCredential text credentialAnswers query fuel = some (.ok (scope, credential)) →
    ∀ n < requests.length, (Unreadable text answers credential n ∨ counts ∧
      GoesBack text answers credential (requests.map GitLabProjectsHttpRequest.page) n) →
      requests.length = n + 1 ∧ ∃ e, outcome = some (.error e)

end

variable {text : DiscoveryText} {credentialAnswers answers : Answers} {query : GitLabProjectsQuery}
variable {credential : GitLabCredential} {allPages : Bool} {fuel n : Nat} {page : Int}
variable {seenPages pages : List Int} {projects : List GitLabProject}
variable {outcome : Option (Except GitLabError (List GitLabProject × Option Int))}

/-! ### The loop -/

/-- One turn of the loop: it ends with an error, or with the projects of its page, or it goes on
with a later page. -/
lemma projectsLoop_cases (hseen : ∀ seen ∈ seenPages, seen < page)
    (h : projectsLoop text answers credential allPages (fuel + 1) n page page seenPages projects =
      (pages, outcome)) :
    (∃ e, pages = [page] ∧ outcome = some (.error e)) ∨
      ∃ found next, projectsPage text answers credential n = .ok (found, next) ∧
        (∀ project ∈ found, project.providerProjectId ∉
          projects.map GitLabProject.providerProjectId) ∧
        (found.map GitLabProject.providerProjectId).Nodup ∧
        (pages = [page] ∧ outcome = some (.ok (projects ++ found, next)) ∧
            (allPages = true → next = none) ∨
          ∃ later rest, allPages = true ∧ next = some later ∧ page < later ∧
            projectsLoop text answers credential allPages fuel (n + 1) later later
              (page :: seenPages) (projects ++ found) = (rest, outcome) ∧
                pages = page :: rest) := by
  have hfresh : page ∉ seenPages := fun hmem => lt_irrefl _ (hseen page hmem)
  rw [projectsLoop, if_neg hfresh] at h
  rcases hparsed : requestProjects text answers credential n
    (projects.map GitLabProject.providerProjectId) with e | ⟨found, next⟩ <;>
    simp only [hparsed] at h
  · cases h
    exact .inl ⟨e, rfl, rfl⟩
  · obtain ⟨payload, hpayload, hparse⟩ := bind_eq_ok_iff.1 hparsed
    obtain ⟨hfound, hnew⟩ := parseProjects_eq_ok_iff.1 hparse
    have hpage : projectsPage text answers credential n = .ok (found, next) :=
      bind_eq_ok_iff.2 ⟨payload, hpayload, hfound⟩
    have hnodup := nodup_of_parseProjects hparse
    cases allPages with
    | false =>
      cases h
      exact .inr ⟨found, next, hpage, hnew, hnodup, .inl ⟨rfl, rfl, fun hall => by cases hall⟩⟩
    | true =>
      rcases next with _ | later
      · cases h
        exact .inr ⟨found, none, hpage, hnew, hnodup, .inl ⟨rfl, rfl, fun _ => rfl⟩⟩
      · simp only [Bool.not_true, Bool.false_eq_true, if_false] at h
        split_ifs at h with hcycle hback
        · cases h
          exact .inl ⟨_, rfl, rfl⟩
        · cases h
          exact .inl ⟨_, rfl, rfl⟩
        · rw [Prod.mk.injEq] at h
          exact .inr ⟨found, some later, hpage, hnew, hnodup, .inr ⟨later, _, rfl, rfl,
            not_le.1 hback, Prod.ext rfl h.2, h.1.symm⟩⟩

/-- The pages that the loop asks for increase from the one it begins with. -/
lemma increasing_of_projectsLoop (hseen : ∀ seen ∈ seenPages, seen < page)
    (h : projectsLoop text answers credential allPages fuel n page page seenPages projects =
      (pages, outcome)) :
    pages.Pairwise (· < ·) ∧ ∀ other ∈ pages, page ≤ other := by
  induction fuel generalizing n page seenPages pages projects with
  | zero =>
    cases h
    exact ⟨List.Pairwise.nil, List.forall_mem_nil _⟩
  | succ fuel ih =>
    have hsingle : pages = [page] → pages.Pairwise (· < ·) ∧ ∀ other ∈ pages, page ≤ other := by
      rintro rfl
      exact ⟨List.pairwise_singleton _ _, fun other hother => (List.mem_singleton.1 hother).ge⟩
    rcases projectsLoop_cases hseen h with ⟨e, hpages, -⟩ | ⟨found, next, -, -, -, ⟨hpages, -⟩ |
      ⟨later, rest, -, -, hlater, hrest, rfl⟩⟩
    · exact hsingle hpages
    · exact hsingle hpages
    · obtain ⟨hincreasing, hle⟩ := ih (fun seen hmem => by
        rcases List.mem_cons.1 hmem with rfl | hmem
        · exact hlater
        · exact (hseen seen hmem).trans hlater) hrest
      refine ⟨List.pairwise_cons.2 ⟨fun other hother => hlater.trans_le (hle other hother),
        hincreasing⟩, fun other hother => ?_⟩
      rcases List.mem_cons.1 hother with rfl | hother
      · exact le_rfl
      · exact (hlater.trans_le (hle other hother)).le

/-- The pages of a listing that has not ended with an error: what each of them holds, all ids
distinct, and each saying that a later page comes next where all are listed. -/
structure Listed (text : DiscoveryText) (answers : Answers) (credential : GitLabCredential)
    (allPages : Bool) (n : Nat) (projects : List GitLabProject) (pages : List Int)
    (parts : List (List GitLabProject)) : Prop where
  length_eq : parts.length = pages.length
  pages : ∀ i part, parts[i]? = some part → ∃ next,
    projectsPage text answers credential (n + i) = .ok (part, next) ∧
      (allPages = true → ∀ page later, pages[i]? = some page → next = some later → page < later)
  distinct : ((projects ++ parts.flatten).map GitLabProject.providerProjectId).Nodup

lemma listed_nil (h : (projects.map GitLabProject.providerProjectId).Nodup) :
    Listed text answers credential allPages n projects [] [] :=
  ⟨rfl, fun i part hpart => by simp at hpart, by simpa using h⟩

/-- A page before those of a listing. -/
lemma Listed.cons {parts : List (List GitLabProject)} {found : List GitLabProject}
    {next : Option Int}
    (h : Listed text answers credential allPages (n + 1) (projects ++ found) pages parts)
    (hpage : projectsPage text answers credential n = .ok (found, next))
    (hnext : allPages = true → ∀ later, next = some later → page < later) :
    Listed text answers credential allPages n projects (page :: pages) (found :: parts) where
  length_eq := by rw [List.length_cons, List.length_cons, h.length_eq]
  pages i part hpart := by
    cases i with
    | zero =>
      cases hpart
      refine ⟨next, hpage, fun hall first later hfirst hlater => ?_⟩
      cases hfirst
      exact hnext hall later hlater
    | succ i =>
      have hindex : n + 1 + i = n + (i + 1) := by omega
      have hlisted := h.pages i part hpart
      rwa [hindex] at hlisted
  distinct := by
    have hdistinct := h.distinct
    rwa [List.append_assoc] at hdistinct

/-- Projects of a page that were not seen before have ids of their own. -/
lemma nodup_append_of_new {found : List GitLabProject}
    (hdistinct : (projects.map GitLabProject.providerProjectId).Nodup)
    (hnodup : (found.map GitLabProject.providerProjectId).Nodup)
    (hnew : ∀ project ∈ found, project.providerProjectId ∉
      projects.map GitLabProject.providerProjectId) :
    ((projects ++ found).map GitLabProject.providerProjectId).Nodup := by
  rw [List.map_append, List.nodup_append]
  refine ⟨hdistinct, hnodup, ?_⟩
  intro id hid id' hid' heq
  obtain ⟨project, hproject, rfl⟩ := List.mem_map.1 hid'
  exact hnew project hproject (heq ▸ hid)

/-- The pages before the last one are listed, however the listing ends. -/
lemma exists_listed_dropLast (hseen : ∀ seen ∈ seenPages, seen < page)
    (hdistinct : (projects.map GitLabProject.providerProjectId).Nodup)
    (h : projectsLoop text answers credential allPages fuel n page page seenPages projects =
      (pages, outcome)) :
    ∃ parts, Listed text answers credential allPages n projects pages.dropLast parts := by
  induction fuel generalizing n page seenPages pages projects with
  | zero =>
    cases h
    exact ⟨[], listed_nil hdistinct⟩
  | succ fuel ih =>
    rcases projectsLoop_cases hseen h with ⟨e, rfl, -⟩ | ⟨found, next, hpage, hnew, hnodup,
      ⟨rfl, -⟩ | ⟨later, rest, -, rfl, hlater, hrest, rfl⟩⟩
    · exact ⟨[], listed_nil hdistinct⟩
    · exact ⟨[], listed_nil hdistinct⟩
    · obtain ⟨parts, hparts⟩ := ih (fun seen hmem => by
        rcases List.mem_cons.1 hmem with rfl | hmem
        · exact hlater
        · exact (hseen seen hmem).trans hlater) (nodup_append_of_new hdistinct hnodup hnew) hrest
      rcases rest with _ | ⟨second, rest⟩
      · exact ⟨[], listed_nil hdistinct⟩
      · refine ⟨found :: parts, hparts.cons hpage fun _ next hnext => ?_⟩
        cases hnext
        exact hlater

/-- A listing that has not ended with an error has listed its pages. -/
lemma exists_listed_of_projectsLoop (hseen : ∀ seen ∈ seenPages, seen < page)
    (hdistinct : (projects.map GitLabProject.providerProjectId).Nodup)
    (h : projectsLoop text answers credential allPages fuel n page page seenPages projects =
      (pages, outcome)) (hok : ∀ e, outcome ≠ some (.error e)) :
    ∃ parts, Listed text answers credential allPages n projects pages parts ∧
      ∀ all next, outcome = some (.ok (all, next)) →
        all = projects ++ parts.flatten ∧ (allPages = true → next = none) := by
  induction fuel generalizing n page seenPages pages projects with
  | zero =>
    cases h
    exact ⟨[], listed_nil hdistinct, fun all next hall => by cases hall⟩
  | succ fuel ih =>
    rcases projectsLoop_cases hseen h with ⟨e, -, he⟩ | ⟨found, next, hpage, hnew, hnodup, hturn⟩
    · exact absurd he (hok e)
    · have hall := nodup_append_of_new hdistinct hnodup hnew
      rcases hturn with ⟨rfl, rfl, hlast⟩ | ⟨later, rest, hallPages, rfl, hlater, hrest, rfl⟩
      · refine ⟨[found], (listed_nil hall).cons hpage fun hallPages later hnext => ?_, ?_⟩
        · rw [hlast hallPages] at hnext
          cases hnext
        · intro all next' hreturned
          cases hreturned
          exact ⟨by simp, hlast⟩
      · obtain ⟨parts, hparts, hreturned⟩ := ih (fun seen hmem => by
          rcases List.mem_cons.1 hmem with rfl | hmem
          · exact hlater
          · exact (hseen seen hmem).trans hlater) hall hrest
        refine ⟨found :: parts, hparts.cons hpage fun _ next hnext => ?_, fun all next hnext => ?_⟩
        · cases hnext
          exact hlater
        · obtain ⟨hprojects, hlast⟩ := hreturned all next hnext
          exact ⟨by rw [hprojects, List.flatten_cons, List.append_assoc], hlast⟩

/-! ### Listings are safe -/

/-- The ids of listed pages are distinct. -/
lemma Listed.ids_ne {parts : List (List GitLabProject)}
    (h : Listed text answers credential allPages 0 [] pages parts) {m : Nat}
    {found earlier : List GitLabProject} (hm : m < n) (hearlier : parts[m]? = some earlier)
    (hfound : parts[n]? = some found) {a b : GitLabProject} (ha : a ∈ found) (hb : b ∈ earlier) :
    a.providerProjectId ≠ b.providerProjectId := by
  have hdistinct := h.distinct
  rw [List.nil_append, List.map_flatten, List.nodup_flatten] at hdistinct
  obtain ⟨hmlt, rfl⟩ := List.getElem?_eq_some_iff.1 hearlier
  obtain ⟨hnlt, rfl⟩ := List.getElem?_eq_some_iff.1 hfound
  have hdisjoint := List.pairwise_iff_getElem.1 hdistinct.2 m n (by simpa using hmlt)
    (by simpa using hnlt) hm
  rw [List.getElem_map, List.getElem_map] at hdisjoint
  exact fun heq => hdisjoint (List.mem_map_of_mem hb) (heq ▸ List.mem_map_of_mem ha)

/-- A page of a listing that has not ended with an error is readable. -/
lemma Listed.not_unreadable {parts : List (List GitLabProject)}
    (h : Listed text answers credential allPages 0 [] pages parts) (hn : n < pages.length) :
    ¬ Unreadable text answers credential n := by
  have hpart : ∀ m < pages.length, ∃ part next, parts[m]? = some part ∧
      projectsPage text answers credential m = .ok (part, next) := by
    intro m hm
    have hsome := List.getElem?_eq_getElem (h.length_eq ▸ hm)
    obtain ⟨next, hpage, -⟩ := h.pages m _ hsome
    rw [Nat.zero_add] at hpage
    exact ⟨_, next, hsome, hpage⟩
  obtain ⟨part, next, hsome, hpage⟩ := hpart n hn
  rintro (herror | ⟨hfound, hm, hearlier, a, ha, b, hb, hab⟩)
  · rw [hpage] at herror
    cases herror
  · obtain ⟨part', next', hsome', hpage'⟩ := hpart _ (hm.trans hn)
    rw [hpage] at hfound
    rw [hpage'] at hearlier
    cases hfound
    cases hearlier
    exact h.ids_ne hm hsome' hsome ha hb hab

/-- A page of a listing of all pages that has not ended with an error does not go back. -/
lemma Listed.not_goesBack {parts : List (List GitLabProject)}
    (h : Listed text answers credential true 0 [] pages parts) (hpages : pages.Pairwise (· < ·))
    (hn : n < pages.length) : ¬ GoesBack text answers credential pages n := by
  rintro ⟨found, later, hfound, page, hmem, hle⟩
  have hsome := List.getElem?_eq_getElem (h.length_eq ▸ hn)
  obtain ⟨next, hpage, hlater⟩ := h.pages n _ hsome
  rw [Nat.zero_add, hfound] at hpage
  cases hpage
  have hlt := hlater rfl _ later (List.getElem?_eq_getElem hn) rfl
  -- The pages before the current one are smaller still.
  obtain ⟨m, hm⟩ := List.getElem?_of_mem hmem
  obtain ⟨hmlt, rfl⟩ := List.getElem?_eq_some_iff.1 hm
  rw [List.getElem_take] at hle
  have hmn : m ≤ n := by
    rw [List.length_take] at hmlt
    omega
  rcases hmn.eq_or_lt with rfl | hmn
  · omega
  · have hbefore := List.pairwise_iff_getElem.1 hpages m n (hmn.trans hn) hn hmn
    omega

/-- A page of a listing that has not ended with an error is neither unreadable, nor does it go back
where that counts. -/
lemma Listed.not_faulty {parts : List (List GitLabProject)}
    (h : Listed text answers credential allPages 0 [] pages parts) (hpages : pages.Pairwise (· < ·))
    (hn : n < pages.length) : ¬ (Unreadable text answers credential n ∨
      allPages = true ∧ GoesBack text answers credential pages n) := by
  rintro (hunreadable | ⟨rfl, hback⟩)
  · exact h.not_unreadable hn hunreadable
  · exact h.not_goesBack hpages hn hback

/-- A page that goes back before the last one does so among the pages before the last one. -/
lemma GoesBack.of_dropLast (h : GoesBack text answers credential pages n)
    (hn : n < pages.dropLast.length) : GoesBack text answers credential pages.dropLast n := by
  obtain ⟨found, next, hpage, page, hmem, hle⟩ := h
  refine ⟨found, next, hpage, page, ?_, hle⟩
  rwa [List.dropLast_eq_take, List.take_take, min_eq_left]
  rw [List.length_dropLast] at hn
  omega

/-- The pages that a listing asks for are those of its loop. -/
lemma map_projectsRequest (scope : GitLabScope) (pages : List Int) :
    (pages.map (projectsRequest query scope credential)).map GitLabProjectsHttpRequest.page =
      pages := by
  rw [List.map_map]
  exact List.map_id pages

/-- Nothing is asked for and nothing is listed. -/
lemma safeListing_nil {counts : Prop} {outcome : Option (Except GitLabError GitLabProjectsResult)}
    (h : ∀ result, outcome ≠ some (.ok result)) :
    SafeListing text credentialAnswers answers query counts fuel [] outcome where
  increasing := List.Pairwise.nil
  listed result _ hresult := absurd hresult (h result)
  refuses _ _ _ n hn := absurd hn (Nat.not_lt_zero n)

/-- Whatever the service answers, a listing of projects is safe; a next page that goes back counts
where all pages are listed. -/
theorem discoverProjects_safeListing (text : DiscoveryText) (credentialAnswers answers : Answers)
    (query : GitLabProjectsQuery) (fuel : Nat) :
    SafeListing text credentialAnswers answers query (query.allPages = true) fuel
      (discoverProjects text credentialAnswers answers query fuel).1
      (discoverProjects text credentialAnswers answers query fuel).2 := by
  rcases hcredential : discoveryCredential text credentialAnswers query fuel
    with _ | e | ⟨scope, credential⟩
  · simp only [discoverProjects, hcredential]
    exact safeListing_nil fun result hresult => by cases hresult
  · simp only [discoverProjects, hcredential]
    exact safeListing_nil fun result hresult => by cases hresult
  · rcases hlisted : projectsLoop text answers credential query.allPages fuel 0 query.page
      query.page [] [] with ⟨pages, outcome⟩
    obtain ⟨hincreasing, -⟩ := increasing_of_projectsLoop (List.forall_mem_nil _) hlisted
    have hexists := exists_listed_of_projectsLoop (List.forall_mem_nil _) (by simp) hlisted
    simp only [discoverProjects, hcredential, hlisted]
    refine ⟨?_, fun result hall hresult => ?_, fun scope' credential' h n hn hfaulty => ?_⟩
    · rw [map_projectsRequest]
      exact hincreasing
    · obtain ⟨listed, rfl, hok⟩ := Option.map_eq_some_iff.1 hresult
      obtain ⟨⟨all, next⟩, rfl, hok⟩ := bind_eq_ok_iff.1 hok
      cases hok
      obtain ⟨parts, hparts, hreturned⟩ := hexists fun e he => by cases he
      obtain ⟨rfl, hlast⟩ := hreturned all next rfl
      refine ⟨⟨parts, by rw [List.length_map, hparts.length_eq], fun n part hpart => ?_, by simp⟩,
        by simpa using hparts.distinct, hlast hall⟩
      obtain ⟨next', hpage, -⟩ := hparts.pages n part hpart
      rw [Nat.zero_add] at hpage
      exact ⟨next', hpage⟩
    · rw [hcredential] at h
      cases h
      rw [map_projectsRequest] at hfaulty
      rw [List.length_map] at hn ⊢
      refine ⟨?_, ?_⟩
      · by_contra hlast
        have hbefore : n < pages.dropLast.length := by
          rw [List.length_dropLast]
          omega
        obtain ⟨parts, hparts⟩ :=
          exists_listed_dropLast (List.forall_mem_nil _) (by simp) hlisted
        exact hparts.not_faulty (hincreasing.sublist (List.dropLast_sublist pages)) hbefore
          (hfaulty.imp_right fun ⟨hall, hback⟩ => ⟨hall, hback.of_dropLast hbefore⟩)
      · by_contra herror
        obtain ⟨parts, hparts, -⟩ := hexists fun e he => herror ⟨e, by rw [he]; rfl⟩
        exact hparts.not_faulty hincreasing hn hfaulty

/-- A service with one credential. -/
def oneCredential : Answers := fun _ => .ok (sentPage 0 1 [sentCredential 0])

/-- A service whose every page is empty and names the first one as the next. -/
def circlingAnswers : Answers :=
  fun _ => .ok [("data", .arr []), ("meta", .obj [("next_page", .int 1)])]

/-- A listing of one page hands a next page through, whichever it is. -/
theorem not_safeListing_single : ¬ ∀ text credentialAnswers answers query fuel,
    SafeListing text credentialAnswers answers query True fuel
      (discoverProjects text credentialAnswers answers query fuel).1
      (discoverProjects text credentialAnswers answers query fuel).2 := by
  intro h
  have hsafe := h plainDiscoveryText oneCredential circlingAnswers {} 2
  have hfound : ((discoveryCredential plainDiscoveryText oneCredential {} 2).bind
      Except.toOption).isSome = true := by decide +kernel
  rcases hcredential : discoveryCredential plainDiscoveryText oneCredential {} 2
    with _ | e | ⟨scope, credential⟩ <;> rw [hcredential] at hfound
  · cases hfound
  · cases hfound
  · have hlisted : discoverProjects plainDiscoveryText oneCredential circlingAnswers {} 2 =
        ([projectsRequest {} scope credential 1],
          some (.ok ⟨scope, credential, [], ⟨1, 50, some 1⟩⟩)) := by
      rw [discoverProjects, hcredential]
      rfl
    rw [hlisted] at hsafe
    obtain ⟨-, e, he⟩ := hsafe.refuses scope credential hcredential 0 Nat.one_pos
      (.inr ⟨True.intro, [], 1, rfl, 1, List.mem_cons_self, le_rfl⟩)
    cases he

end EnjiGuard.Gitlab
