import EnjiGuard.Gitlab.Parsing

/-!
# Resolving a credential

The credentials of a scope are asked for page by page until the total that the first page announces
is reached; then one of them is selected. What the service answers to the requests is anything.
-/

namespace EnjiGuard.Gitlab

open Foundation

/-- What a listing of credentials asks for. -/
structure GitLabCredentialsQuery where
  scopeType : Option String := none
  scopeOwner : Option String := none
  limit : Int := 50
  offset : Int := 0
  deriving DecidableEq, Repr

/-- What the service answers to each of the requests: the fields of an object, or an error. -/
abbrev Answers := Nat → Except GitLabError (List (String × Json))

section

variable (text : DiscoveryText)

/-- A page of credentials. -/
def listCredentials (answer : Except GitLabError (List (String × Json)))
    (query : GitLabCredentialsQuery) : Except GitLabError GitLabCredentialsResult :=
  if query.limit ≤ 0 ∨ query.offset < 0 then
    .error (.value "credential limit must be positive and offset must be non-negative")
  else do
    let scope ← normalizeScope text (Json.ofOptionalStr query.scopeType)
      (Json.ofOptionalStr query.scopeOwner)
    let payload ← answer
    parseCredentials text payload scope query.limit query.offset

/-- A page fits the total that was announced. -/
def validateCredentialPage (page : GitLabCredentialsResult) (expectedTotal expectedLimit : Int) :
    Except GitLabError Unit :=
  let count : Int := page.credentials.length
  if page.pagination.limit ≠ expectedLimit ∨ expectedTotal < page.pagination.offset + count then
    .error (.value "GitLab credential pagination is inconsistent")
  else if page.pagination.offset + count < expectedTotal ∧ count < expectedLimit then
    .error (.value "GitLab credential pagination is inconsistent")
  else .ok ()

def newCredential (seen : List String) (credential : GitLabCredential) :
    Except GitLabError GitLabCredential :=
  if credential.id ∈ seen then
    .error (.value ("GitLab credential id is duplicated: " ++ credential.id))
  else .ok credential

/-- The credential of an id, or the only one. -/
def selectCredential (credentials : List GitLabCredential) (credentialId : Option String) :
    Except GitLabError GitLabCredential :=
  match credentialId with
  | some credentialId =>
    match credentials.filter fun credential => credential.id = credentialId with
    | [] => .error (.value ("GitLab credential not found: " ++ credentialId))
    | [credential] => .ok credential
    | _ => .error (.value ("GitLab credential id is duplicated: " ++ credentialId))
  | none =>
    match credentials with
    | [credential] => .ok credential
    | _ => .error (.value "GitLab credential selection is ambiguous; pass --credential-id")

variable (answers : Answers) (scopeType scopeOwner : Option String)

/-- The credentials that a page after the first adds. -/
def acceptPage (n : Nat) (query : GitLabCredentialsQuery) (expectedTotal expectedLimit : Int)
    (seenIds : List String) : Except GitLabError (List GitLabCredential) := do
  let current ← listCredentials text (answers n) query
  if current.pagination.total ≠ expectedTotal then
    .error (.value "GitLab credential pagination has inconsistent total")
  else
    validateCredentialPage current expectedTotal expectedLimit
    parseDistinct newCredential GitLabCredential.id seenIds current.credentials

/-- The loop over the pages after the first: what it asks for, and how it ends. Without fuel it has
not ended. -/
def collectLoop (expectedTotal expectedLimit : Int) :
    Nat → Nat → Int → List Int → List GitLabCredential →
      List GitLabCredentialsQuery × Option (Except GitLabError (List GitLabCredential))
  | 0, _, _, _, _ => ([], none)
  | fuel + 1, n, offset, seenOffsets, credentials =>
    if expectedTotal ≤ offset then ([], some (.ok credentials))
    else if offset ∈ seenOffsets then
      ([], some (.error (.value "GitLab credential pagination repeated an offset")))
    else
      let query : GitLabCredentialsQuery := ⟨scopeType, scopeOwner, expectedLimit, offset⟩
      match acceptPage text answers n query expectedTotal expectedLimit
          (credentials.map GitLabCredential.id) with
      | .error e => ([query], some (.error e))
      | .ok new =>
        let rest := collectLoop expectedTotal expectedLimit fuel (n + 1) (offset + expectedLimit)
          (offset :: seenOffsets) (credentials ++ new)
        (query :: rest.1, rest.2)

def collectCredentials (fuel : Nat) :
    List GitLabCredentialsQuery × Option (Except GitLabError (List GitLabCredential)) :=
  let query : GitLabCredentialsQuery := { scopeType, scopeOwner }
  match listCredentials text (answers 0) query with
  | .error e => ([query], some (.error e))
  | .ok first =>
    match validateCredentialPage first first.pagination.total first.pagination.limit with
    | .error e => ([query], some (.error e))
    | .ok () =>
      let rest := collectLoop text answers scopeType scopeOwner first.pagination.total
        first.pagination.limit fuel 1 (first.pagination.offset + first.pagination.limit)
        [first.pagination.offset] first.credentials
      (query :: rest.1, rest.2)

/-- Collects the credentials of a scope and selects one. -/
def resolveCredential (credentialId : Option String) (fuel : Nat) :
    List GitLabCredentialsQuery × Option (Except GitLabError GitLabCredential) :=
  match optionalStr text (Json.ofOptionalStr credentialId) with
  | .error e => ([], some (.error e))
  | .ok requestedId =>
    let collected := collectCredentials text answers scopeType scopeOwner fuel
    (collected.1, collected.2.map fun credentials => do
      selectCredential (← credentials) requestedId)

/-! ### Complete collections -/

/-- The number of credentials on a page. -/
def pageLimit : Int := 50

/-- What is asked for the `n`-th page. -/
def pageQuery (n : Nat) : GitLabCredentialsQuery :=
  ⟨scopeType, scopeOwner, pageLimit, pageLimit * n⟩

/-- The `n`-th page, as the service answers. -/
def pageAt (n : Nat) : Except GitLabError GitLabCredentialsResult :=
  listCredentials text (answers n) (pageQuery scopeType scopeOwner n)

/-- A page that a client has to refuse, for the total that was announced first: it is malformed, it
is short or longer than its limit or the total allows, it repeats a credential, or it announces
another total. -/
inductive Faulty (total : Int) (n : Nat) : Prop
  | malformed {e : GitLabError} (h : pageAt text answers scopeType scopeOwner n = .error e)
  | short {page : GitLabCredentialsResult}
      (h : pageAt text answers scopeType scopeOwner n = .ok page)
      (hcount : page.credentials.length < pageLimit)
      (htotal : pageLimit * n + page.credentials.length < total)
  | overlong {page : GitLabCredentialsResult}
      (h : pageAt text answers scopeType scopeOwner n = .ok page)
      (hcount : pageLimit < page.credentials.length ∨
        total < pageLimit * n + page.credentials.length)
  | repeated {page earlier : GitLabCredentialsResult} {m : Nat}
      (h : pageAt text answers scopeType scopeOwner n = .ok page) (hm : m < n)
      (hearlier : pageAt text answers scopeType scopeOwner m = .ok earlier)
      (hid : ∃ a ∈ page.credentials, ∃ b ∈ earlier.credentials, a.id = b.id)
  | inconsistent {page : GitLabCredentialsResult}
      (h : pageAt text answers scopeType scopeOwner n = .ok page)
      (htotal : page.pagination.total ≠ total)

/-- The total that the first page announces. -/
def announcedTotal : Int :=
  match pageAt text answers scopeType scopeOwner 0 with
  | .ok first => first.pagination.total
  | .error _ => 0

/-- A resolution ends; a credential is selected only from all that were announced, with distinct
ids; and a page that has to be refused ends it with an error. -/
structure Complete (credentialId : Option String) : Prop where
  ends : ∃ bound, ∀ fuel, bound ≤ fuel →
    ∃ log result, resolveCredential text answers scopeType scopeOwner credentialId fuel =
      (log, some result)
  collects : ∀ fuel log credential,
    resolveCredential text answers scopeType scopeOwner credentialId fuel =
      (log, some (.ok credential)) →
    ∃ credentials, collectCredentials text answers scopeType scopeOwner fuel =
        (log, some (.ok credentials)) ∧
      credentials.length = announcedTotal text answers scopeType scopeOwner ∧
      (credentials.map GitLabCredential.id).Nodup ∧ credential ∈ credentials
  refuses : ∀ fuel log result,
    resolveCredential text answers scopeType scopeOwner credentialId fuel = (log, some result) →
    ∃ asked, log = (List.range asked).map (pageQuery scopeType scopeOwner) ∧
      ∀ n < asked, Faulty text answers scopeType scopeOwner
        (announcedTotal text answers scopeType scopeOwner) n → ∃ e, result = .error e

/-- Pages from the `n`-th on that pass the checks of the client after some credentials: they are
asked for until the total is reached, each announces the total and is neither short nor past it,
and all ids are distinct. -/
structure Admitted (total : Int) (n : Nat) (credentials : List GitLabCredential)
    (pages : List GitLabCredentialsResult) : Prop where
  accepted : ∀ i page, pages[i]? = some page →
    pageAt text answers scopeType scopeOwner (n + i) = .ok page ∧
      page.pagination.total = total ∧ validateCredentialPage page total pageLimit = .ok ()
  asked : ∀ i < pages.length, 0 < n + i → pageLimit * (n + i : Nat) < total
  reached : total ≤ pageLimit * (n + pages.length : Nat)
  distinct : ((credentials ++ pages.flatMap GitLabCredentialsResult.credentials).map
    GitLabCredential.id).Nodup

/-- Where all pages are admitted and hold a credential to select, none of them holds more
credentials than its limit. -/
def Fitting (credentialId : Option String) : Prop :=
  ∀ pages requestedId credential, pages ≠ [] →
    Admitted text answers scopeType scopeOwner (announcedTotal text answers scopeType scopeOwner) 0
      [] pages →
    optionalStr text (Json.ofOptionalStr credentialId) = .ok requestedId →
    selectCredential (pages.flatMap GitLabCredentialsResult.credentials) requestedId =
      .ok credential →
    ∀ page ∈ pages, (page.credentials.length : Int) ≤ pageLimit

end

variable {text : DiscoveryText} {answers : Answers}
variable {scopeType scopeOwner credentialId : Option String}
variable {total : Int} {n fuel : Nat} {seenIds : List String} {new : List GitLabCredential}
variable {credentials : List GitLabCredential} {page : GitLabCredentialsResult}
variable {pages : List GitLabCredentialsResult} {log : List GitLabCredentialsQuery}

/-! ### Pages -/

/-- A page that is read holds distinct ids, and has the limit and offset that were asked for. -/
lemma spec_of_pageAt (h : pageAt text answers scopeType scopeOwner n = .ok page) :
    (page.credentials.map GitLabCredential.id).Nodup ∧ page.pagination.limit = pageLimit ∧
      page.pagination.offset = pageLimit * n ∧ 0 ≤ page.pagination.total := by
  rw [pageAt, listCredentials] at h
  split_ifs at h
  obtain ⟨scope, -, h⟩ := bind_eq_ok_iff.1 h
  obtain ⟨payload, -, h⟩ := bind_eq_ok_iff.1 h
  exact nodup_of_parseCredentials h

/-- A page passes the check when it holds all that is left, or as much as it may. -/
lemma validateCredentialPage_eq_ok_iff
    (h : pageAt text answers scopeType scopeOwner n = .ok page) :
    validateCredentialPage page total pageLimit = .ok () ↔
      pageLimit * n + page.credentials.length ≤ total ∧
        (pageLimit * n + page.credentials.length = total ∨
          pageLimit ≤ page.credentials.length) := by
  obtain ⟨-, hlimit, hoffset, -⟩ := spec_of_pageAt h
  simp only [validateCredentialPage, hlimit, hoffset, ne_eq, not_true_eq_false, false_or]
  split_ifs with hpast hshort
  · simp only [false_iff]
    omega
  · simp only [false_iff]
    omega
  · simp only [true_iff]
    omega

lemma distinguishes_newCredential : Distinguishes newCredential GitLabCredential.id := by
  intro seen a b
  simp only [newCredential, List.not_mem_nil, if_false, Except.ok.injEq]
  constructor
  · intro h
    split_ifs at h with hseen
    cases h
    exact ⟨rfl, hseen⟩
  · rintro ⟨rfl, hseen⟩
    rw [if_neg hseen]

/-- A page adds its credentials when it passes the checks and its ids are new. -/
lemma acceptPage_eq_ok_iff :
    acceptPage text answers n (pageQuery scopeType scopeOwner n) total pageLimit seenIds = .ok new ↔
      ∃ page, pageAt text answers scopeType scopeOwner n = .ok page ∧
        page.pagination.total = total ∧ validateCredentialPage page total pageLimit = .ok () ∧
        new = page.credentials ∧ ∀ credential ∈ new, credential.id ∉ seenIds := by
  rw [acceptPage, bind_eq_ok_iff]
  refine exists_congr fun page => and_congr_right fun hpage => ?_
  have hdistinct : parseDistinct newCredential GitLabCredential.id seenIds page.credentials =
      .ok new ↔ new = page.credentials ∧ ∀ credential ∈ new, credential.id ∉ seenIds := by
    rw [parseDistinct_eq_ok_iff distinguishes_newCredential, mapM_eq_ok_iff]
    have hsame : List.Forall₂ (fun a b => newCredential [] a = .ok b) page.credentials new ↔
        new = page.credentials := by
      simp only [newCredential, List.not_mem_nil, if_false, Except.ok.injEq]
      rw [List.forall₂_eq_eq_eq, eq_comm]
    rw [hsame]
    constructor
    · rintro ⟨heq, -, hnew⟩
      exact ⟨heq, hnew⟩
    · rintro ⟨heq, hnew⟩
      exact ⟨heq, heq ▸ (spec_of_pageAt hpage).1, hnew⟩
  by_cases htotal : page.pagination.total = total
  · rw [if_neg (not_not.2 htotal), bind_eq_ok_iff]
    simp only [htotal, true_and, hdistinct]
    constructor
    · rintro ⟨_, hvalid, h⟩
      exact ⟨hvalid, h⟩
    · rintro ⟨hvalid, h⟩
      exact ⟨(), hvalid, h⟩
  · simp [htotal]

/-! ### Admitted pages -/

lemma admitted_nil : Admitted text answers scopeType scopeOwner total n credentials [] ↔
    total ≤ pageLimit * n ∧ (credentials.map GitLabCredential.id).Nodup := by
  constructor
  · intro h
    exact ⟨by simpa using h.reached, by simpa using h.distinct⟩
  · rintro ⟨hreached, hdistinct⟩
    exact ⟨by simp, by simp, by simpa using hreached, by simpa using hdistinct⟩

lemma admitted_cons :
    Admitted text answers scopeType scopeOwner total n credentials (page :: pages) ↔
      (pageAt text answers scopeType scopeOwner n = .ok page ∧ page.pagination.total = total ∧
        validateCredentialPage page total pageLimit = .ok ()) ∧
      (0 < n → pageLimit * n < total) ∧
      Admitted text answers scopeType scopeOwner total (n + 1) (credentials ++ page.credentials)
        pages := by
  have hnext : ∀ i, n + 1 + i = n + (i + 1) := fun i => by omega
  constructor
  · intro h
    refine ⟨h.accepted 0 page rfl, fun hn => by simpa using h.asked 0 (by simp) (by simpa using hn),
      ⟨fun i later hi => ?_, fun i hi hpos => ?_, ?_, ?_⟩⟩
    · rw [hnext]
      exact h.accepted (i + 1) later hi
    · rw [hnext]
      exact h.asked (i + 1) (by simpa using hi) (by omega)
    · have hreached := h.reached
      rwa [List.length_cons, ← hnext] at hreached
    · have hdistinct := h.distinct
      rwa [List.flatMap_cons, ← List.append_assoc] at hdistinct
  · rintro ⟨hpage, hasked, h⟩
    refine ⟨fun i later hi => ?_, fun i hi hpos => ?_, ?_, ?_⟩
    · cases i with
      | zero =>
        cases hi
        exact hpage
      | succ i =>
        rw [← hnext]
        exact h.accepted i later hi
    · cases i with
      | zero => exact hasked hpos
      | succ i =>
        rw [← hnext]
        exact h.asked i (by simpa using hi) (by omega)
    · have hreached := h.reached
      rwa [List.length_cons, ← hnext]
    · have hdistinct := h.distinct
      rwa [List.flatMap_cons, ← List.append_assoc]

/-! ### The loop -/

variable {offset : Int} {seenOffsets : List Int}
variable {result : Except GitLabError (List GitLabCredential)}

lemma pageLimit_mul_succ (n : Nat) : pageLimit * n + pageLimit = pageLimit * (n + 1 : Nat) := by
  simp only [pageLimit]
  omega

/-- The pages that the loop has asked for when it has collected the credentials are admitted. -/
lemma admitted_of_collectLoop (hn : 0 < n) (hoffset : offset = pageLimit * n)
    (hdistinct : (credentials.map GitLabCredential.id).Nodup)
    (h : collectLoop text answers scopeType scopeOwner total pageLimit fuel n offset seenOffsets
      credentials = (log, some (.ok new))) :
    ∃ pages, Admitted text answers scopeType scopeOwner total n credentials pages ∧
      new = credentials ++ pages.flatMap GitLabCredentialsResult.credentials ∧
      log = (List.range' n pages.length).map (pageQuery scopeType scopeOwner) := by
  induction fuel generalizing n offset seenOffsets credentials log with
  | zero => cases h
  | succ fuel ih =>
    rw [collectLoop] at h
    split_ifs at h with hreached hrepeated
    · cases h
      exact ⟨[], admitted_nil.2 ⟨hoffset ▸ hreached, hdistinct⟩, by simp, rfl⟩
    · cases h
    · subst hoffset
      rcases haccept : acceptPage text answers n (pageQuery scopeType scopeOwner n) total pageLimit
        (credentials.map GitLabCredential.id) with e | added
      · simp only [pageQuery] at haccept
        simp only [haccept] at h
        cases h
      · obtain ⟨page, hpage, htotal, hvalid, rfl, hnew⟩ := acceptPage_eq_ok_iff.1 haccept
        simp only [pageQuery] at haccept
        simp only [haccept, Prod.mk.injEq] at h
        obtain ⟨hlog, hrest⟩ := h
        have hnodup : ((credentials ++ page.credentials).map GitLabCredential.id).Nodup := by
          rw [List.map_append, List.nodup_append]
          refine ⟨hdistinct, (spec_of_pageAt hpage).1, ?_⟩
          intro id hid id' hid' heq
          obtain ⟨credential, hcredential, rfl⟩ := List.mem_map.1 hid'
          exact hnew credential hcredential (heq ▸ hid)
        obtain ⟨pages, hadmitted, rfl, hlater⟩ := ih n.add_one_pos (pageLimit_mul_succ n) hnodup
          (Prod.ext rfl hrest)
        refine ⟨page :: pages, admitted_cons.2 ⟨⟨hpage, htotal, hvalid⟩,
          fun _ => not_le.1 hreached, hadmitted⟩, by simp, ?_⟩
        rw [← hlog, List.length_cons, List.range'_succ, List.map_cons]
        exact congrArg (List.cons _) hlater

/-- The offsets before the next one are smaller. -/
lemma seen_lt_next (hseen : ∀ seen ∈ seenOffsets, seen < offset) :
    ∀ seen ∈ offset :: seenOffsets, seen < offset + pageLimit := by
  intro seen hmem
  simp only [pageLimit]
  rcases List.mem_cons.1 hmem with rfl | hmem
  · omega
  · have hlt := hseen seen hmem
    omega

/-- Admitted pages are collected. -/
lemma collectLoop_of_admitted (hn : 0 < n) (hoffset : offset = pageLimit * n)
    (hseen : ∀ seen ∈ seenOffsets, seen < offset)
    (h : Admitted text answers scopeType scopeOwner total n credentials pages)
    (hfuel : pages.length < fuel) :
    collectLoop text answers scopeType scopeOwner total pageLimit fuel n offset seenOffsets
      credentials = ((List.range' n pages.length).map (pageQuery scopeType scopeOwner),
        some (.ok (credentials ++ pages.flatMap GitLabCredentialsResult.credentials))) := by
  induction pages generalizing n offset seenOffsets credentials fuel with
  | nil =>
    obtain ⟨fuel, rfl⟩ := Nat.exists_eq_succ_of_ne_zero (Nat.ne_zero_of_lt hfuel)
    rw [collectLoop, if_pos (hoffset ▸ (admitted_nil.1 h).1)]
    simp
  | cons page pages ih =>
    obtain ⟨fuel, rfl⟩ := Nat.exists_eq_succ_of_ne_zero (Nat.ne_zero_of_lt hfuel)
    obtain ⟨⟨hpage, htotal, hvalid⟩, hasked, hrest⟩ := admitted_cons.1 h
    have hnew : ∀ credential ∈ page.credentials,
        credential.id ∉ credentials.map GitLabCredential.id := by
      intro credential hcredential hmem
      have hdistinct := h.distinct
      rw [List.flatMap_cons, List.map_append, List.nodup_append] at hdistinct
      exact hdistinct.2.2 _ hmem _ (List.mem_map_of_mem (List.mem_append_left _ hcredential)) rfl
    have haccept : acceptPage text answers n (pageQuery scopeType scopeOwner n) total pageLimit
        (credentials.map GitLabCredential.id) = .ok page.credentials :=
      acceptPage_eq_ok_iff.2 ⟨page, hpage, htotal, hvalid, rfl, hnew⟩
    have hfresh : offset ∉ seenOffsets := fun hmem => lt_irrefl _ (hseen _ hmem)
    have hlater := ih n.add_one_pos (hoffset ▸ pageLimit_mul_succ n) (seen_lt_next hseen) hrest
      (Nat.lt_of_succ_lt_succ hfuel)
    subst hoffset
    simp only [pageQuery] at haccept
    rw [collectLoop, if_neg (not_le.2 (hasked hn)), if_neg hfresh]
    simp only [haccept, hlater, List.length_cons, List.range'_succ, List.map_cons]
    simp [pageQuery]

/-- The loop asks for the pages one after the other. -/
lemma log_of_collectLoop (hoffset : offset = pageLimit * n) :
    ∃ asked, (collectLoop text answers scopeType scopeOwner total pageLimit fuel n offset
      seenOffsets credentials).1 = (List.range' n asked).map (pageQuery scopeType scopeOwner) := by
  induction fuel generalizing n offset seenOffsets credentials with
  | zero => exact ⟨0, rfl⟩
  | succ fuel ih =>
    rw [collectLoop]
    split_ifs
    · exact ⟨0, rfl⟩
    · exact ⟨0, rfl⟩
    · subst hoffset
      rcases haccept : acceptPage text answers n
        ⟨scopeType, scopeOwner, pageLimit, pageLimit * n⟩ total pageLimit
        (credentials.map GitLabCredential.id) with e | added <;> simp only [haccept]
      · exact ⟨1, rfl⟩
      · obtain ⟨asked, hasked⟩ := @ih (n + 1) (credentials ++ added) _
          (pageLimit * n :: seenOffsets) (pageLimit_mul_succ n)
        refine ⟨asked + 1, ?_⟩
        rw [hasked, List.range'_succ, List.map_cons]
        rfl

/-- The loop ends, for each page takes its limit off what is left. -/
lemma collectLoop_ends (hseen : ∀ seen ∈ seenOffsets, seen < offset)
    (hfuel : total - offset ≤ pageLimit * fuel) :
    ∃ result, (collectLoop text answers scopeType scopeOwner total pageLimit (fuel + 1) n offset
      seenOffsets credentials).2 = some result := by
  induction fuel generalizing n offset seenOffsets credentials with
  | zero =>
    have hleft : total - offset ≤ 0 := by simpa using hfuel
    have hreached : total ≤ offset := by omega
    rw [collectLoop, if_pos hreached]
    exact ⟨_, rfl⟩
  | succ fuel ih =>
    rw [collectLoop]
    split_ifs
    · exact ⟨_, rfl⟩
    · exact ⟨_, rfl⟩
    · rcases haccept : acceptPage text answers n ⟨scopeType, scopeOwner, pageLimit, offset⟩ total
        pageLimit (credentials.map GitLabCredential.id) with e | added <;> simp only [haccept]
      · exact ⟨_, rfl⟩
      · refine ih (seen_lt_next hseen) ?_
        push_cast at hfuel
        simp only [pageLimit] at hfuel ⊢
        omega

/-! ### Collecting -/

lemma announcedTotal_eq (h : pageAt text answers scopeType scopeOwner 0 = .ok page) :
    announcedTotal text answers scopeType scopeOwner = page.pagination.total := by
  rw [announcedTotal, h]

/-- What a collection makes of the first page. -/
lemma collectCredentials_eq (fuel : Nat) :
    collectCredentials text answers scopeType scopeOwner fuel =
      match pageAt text answers scopeType scopeOwner 0 with
      | .error e => ([pageQuery scopeType scopeOwner 0], some (.error e))
      | .ok first =>
        match validateCredentialPage first first.pagination.total pageLimit with
        | .error e => ([pageQuery scopeType scopeOwner 0], some (.error e))
        | .ok () =>
          let rest := collectLoop text answers scopeType scopeOwner first.pagination.total pageLimit
            fuel 1 (pageLimit * (1 : Nat)) [0] first.credentials
          (pageQuery scopeType scopeOwner 0 :: rest.1, rest.2) := by
  have hquery : listCredentials text (answers 0) { scopeType, scopeOwner } =
      pageAt text answers scopeType scopeOwner 0 := rfl
  rw [collectCredentials, hquery]
  rcases hfirst : pageAt text answers scopeType scopeOwner 0 with e | first
  · rfl
  · obtain ⟨-, hlimit, hoffset, -⟩ := spec_of_pageAt hfirst
    simp only [hlimit, hoffset]
    rfl

/-- Collected credentials are those of admitted pages, and these were asked for. -/
lemma admitted_of_collectCredentials
    (h : collectCredentials text answers scopeType scopeOwner fuel = (log, some (.ok new))) :
    ∃ pages, pages ≠ [] ∧ Admitted text answers scopeType scopeOwner
        (announcedTotal text answers scopeType scopeOwner) 0 [] pages ∧
      new = pages.flatMap GitLabCredentialsResult.credentials ∧
      log = (List.range pages.length).map (pageQuery scopeType scopeOwner) := by
  rw [collectCredentials_eq] at h
  rcases hfirst : pageAt text answers scopeType scopeOwner 0 with e | first <;>
    simp only [hfirst] at h
  · cases h
  · rcases hvalid : validateCredentialPage first first.pagination.total pageLimit with e | _ <;>
      simp only [hvalid, Prod.mk.injEq] at h
    · cases h.2
    · obtain ⟨pages, hadmitted, rfl, hlog⟩ := admitted_of_collectLoop Nat.one_pos rfl
        (spec_of_pageAt hfirst).1 (Prod.ext rfl h.2)
      rw [announcedTotal_eq hfirst]
      refine ⟨first :: pages, List.cons_ne_nil _ _, admitted_cons.2
        ⟨⟨hfirst, rfl, hvalid⟩, fun hpos => absurd hpos (lt_irrefl 0), hadmitted⟩, rfl, ?_⟩
      rw [← h.1, List.length_cons, List.range_eq_range', List.range'_succ, List.map_cons]
      exact congrArg (List.cons _) hlog

/-- Admitted pages are collected, with enough fuel. -/
lemma collectCredentials_of_admitted (hpages : pages ≠ [])
    (h : Admitted text answers scopeType scopeOwner
      (announcedTotal text answers scopeType scopeOwner) 0 [] pages)
    (hfuel : pages.length ≤ fuel) :
    collectCredentials text answers scopeType scopeOwner fuel =
      ((List.range pages.length).map (pageQuery scopeType scopeOwner),
        some (.ok (pages.flatMap GitLabCredentialsResult.credentials))) := by
  obtain ⟨first, rest, rfl⟩ := List.exists_cons_of_ne_nil hpages
  obtain ⟨⟨hfirst, htotal, hvalid⟩, -, hrest⟩ := admitted_cons.1 h
  rw [← htotal] at hvalid hrest
  have hseen : ∀ seen ∈ [(0 : Int)], seen < pageLimit * (1 : Nat) := by simp [pageLimit]
  have hloop := collectLoop_of_admitted Nat.one_pos rfl hseen hrest hfuel
  rw [List.nil_append] at hloop
  rw [collectCredentials_eq]
  simp only [hfirst, hvalid, hloop]
  rw [List.length_cons, List.range_eq_range', List.range'_succ]
  rfl

/-- A collection asks for the pages one after the other. -/
lemma log_of_collectCredentials (fuel : Nat) :
    ∃ asked, (collectCredentials text answers scopeType scopeOwner fuel).1 =
      (List.range asked).map (pageQuery scopeType scopeOwner) := by
  rw [collectCredentials_eq]
  rcases hfirst : pageAt text answers scopeType scopeOwner 0 with e | first <;> simp only
  · exact ⟨1, rfl⟩
  · rcases hvalid : validateCredentialPage first first.pagination.total pageLimit with e | _ <;>
      simp only
    · exact ⟨1, rfl⟩
    · obtain ⟨asked, hasked⟩ := @log_of_collectLoop text answers scopeType scopeOwner
        first.pagination.total 1 fuel first.credentials (pageLimit * (1 : Nat)) [0] rfl
      refine ⟨asked + 1, ?_⟩
      rw [hasked, List.range_eq_range', List.range'_succ, List.map_cons]

/-- A collection ends. -/
lemma collectCredentials_ends (hfuel : (announcedTotal text answers scopeType scopeOwner).toNat <
    fuel) :
    ∃ result, (collectCredentials text answers scopeType scopeOwner fuel).2 = some result := by
  rw [collectCredentials_eq]
  rcases hfirst : pageAt text answers scopeType scopeOwner 0 with e | first <;> simp only
  · exact ⟨_, rfl⟩
  · rcases hvalid : validateCredentialPage first first.pagination.total pageLimit with e | _ <;>
      simp only
    · exact ⟨_, rfl⟩
    · obtain ⟨fuel, rfl⟩ := Nat.exists_eq_succ_of_ne_zero (Nat.ne_zero_of_lt hfuel)
      rw [announcedTotal_eq hfirst] at hfuel
      exact collectLoop_ends (by simp [pageLimit]) (by simp only [pageLimit]; omega)

/-- Admitted pages that hold no more than their limit hold the announced total. -/
lemma length_of_admitted (h : Admitted text answers scopeType scopeOwner total n credentials pages)
    (hfit : ∀ page ∈ pages, (page.credentials.length : Int) ≤ pageLimit)
    (hleft : pageLimit * n ≤ total) :
    pageLimit * n + (pages.flatMap GitLabCredentialsResult.credentials).length = total := by
  induction pages generalizing n credentials with
  | nil =>
    have hreached := (admitted_nil.1 h).1
    simp only [List.flatMap_nil, List.length_nil]
    omega
  | cons page pages ih =>
    obtain ⟨⟨hpage, -, hvalid⟩, -, hrest⟩ := admitted_cons.1 h
    rw [validateCredentialPage_eq_ok_iff hpage] at hvalid
    have hcount := hfit page List.mem_cons_self
    have hnext := pageLimit_mul_succ n
    rw [List.flatMap_cons, List.length_append]
    by_cases hfull : pageLimit ≤ page.credentials.length
    · have hlength := ih hrest (fun other hother => hfit other (List.mem_cons_of_mem _ hother))
        (by omega)
      omega
    · -- A page that is not full holds all that was left, so no other was asked for.
      have hnil : pages = [] := by
        by_contra hne
        have hasked := hrest.asked 0 (List.length_pos_iff.2 hne) n.add_one_pos
        simp only [Nat.add_zero] at hasked
        omega
      subst hnil
      simp only [List.flatMap_nil, List.length_nil]
      omega

/-! ### Resolving -/

lemma selectCredential_mem {requestedId : Option String} {credential : GitLabCredential}
    (h : selectCredential credentials requestedId = .ok credential) : credential ∈ credentials := by
  rcases requestedId with _ | requestedId
  · rcases credentials with _ | ⟨a, _ | ⟨b, rest⟩⟩
    · cases h
    · cases h
      exact List.mem_singleton_self credential
    · cases h
  · rcases hfilter : credentials.filter fun credential => credential.id = requestedId
      with _ | ⟨a, _ | ⟨b, rest⟩⟩ <;> simp only [selectCredential, hfilter] at h
    · cases h
    · cases h
      exact List.mem_of_mem_filter (hfilter ▸ List.mem_singleton_self credential)
    · cases h

/-- The id that is asked for is never malformed. -/
lemma exists_requestedId (text : DiscoveryText) (credentialId : Option String) :
    ∃ requestedId, optionalStr text (Json.ofOptionalStr credentialId) = .ok requestedId := by
  cases credentialId with
  | none => exact ⟨_, rfl⟩
  | some id => exact ⟨_, rfl⟩

/-- A credential is resolved by selecting it from what was collected. -/
lemma resolveCredential_eq {requestedId : Option String}
    (h : optionalStr text (Json.ofOptionalStr credentialId) = .ok requestedId) (fuel : Nat) :
    resolveCredential text answers scopeType scopeOwner credentialId fuel =
      ((collectCredentials text answers scopeType scopeOwner fuel).1,
        (collectCredentials text answers scopeType scopeOwner fuel).2.map
          fun credentials => do selectCredential (← credentials) requestedId) := by
  rw [resolveCredential, h]

/-- What was collected for a credential that is resolved. -/
lemma collected_of_resolved {requestedId : Option String} {credential : GitLabCredential}
    (hid : optionalStr text (Json.ofOptionalStr credentialId) = .ok requestedId)
    (h : resolveCredential text answers scopeType scopeOwner credentialId fuel =
      (log, some (.ok credential))) :
    ∃ collected, collectCredentials text answers scopeType scopeOwner fuel =
      (log, some (.ok collected)) ∧ selectCredential collected requestedId = .ok credential := by
  rw [resolveCredential_eq hid, Prod.mk.injEq] at h
  obtain ⟨hlog, hresult⟩ := h
  rcases hcollect : collectCredentials text answers scopeType scopeOwner fuel with ⟨asked, outcome⟩
  rw [hcollect] at hlog hresult
  obtain ⟨collected, rfl, hselect⟩ := Option.map_eq_some_iff.1 hresult
  obtain ⟨collected, rfl, hselect⟩ := bind_eq_ok_iff.1 hselect
  exact ⟨collected, Prod.ext hlog rfl, hselect⟩

/-- Admitted pages share no id. -/
lemma Admitted.ids_ne (h : Admitted text answers scopeType scopeOwner total 0 [] pages) {m : Nat}
    {earlier : GitLabCredentialsResult} (hm : m < n) (hearlier : pages[m]? = some earlier)
    (hpage : pages[n]? = some page) {a b : GitLabCredential} (ha : a ∈ earlier.credentials)
    (hb : b ∈ page.credentials) : a.id ≠ b.id := by
  have hdistinct := h.distinct
  rw [List.nil_append, List.map_flatMap, List.nodup_flatMap] at hdistinct
  obtain ⟨hmlt, rfl⟩ := List.getElem?_eq_some_iff.1 hearlier
  obtain ⟨hnlt, rfl⟩ := List.getElem?_eq_some_iff.1 hpage
  have hdisjoint := List.pairwise_iff_getElem.1 hdistinct.2 m n hmlt hnlt hm
  exact fun heq => hdisjoint (List.mem_map_of_mem ha) (heq ▸ List.mem_map_of_mem hb)

/-- A page that has to be refused and is admitted all the same holds more than its limit. -/
lemma overlong_of_faulty (h : Admitted text answers scopeType scopeOwner total 0 [] pages)
    (hpage : pages[n]? = some page) (hfaulty : Faulty text answers scopeType scopeOwner total n) :
    pageLimit < page.credentials.length := by
  obtain ⟨hat, htotal, hvalid⟩ := h.accepted n page hpage
  rw [Nat.zero_add] at hat
  rw [validateCredentialPage_eq_ok_iff hat] at hvalid
  cases hfaulty with
  | malformed herror =>
    rw [hat] at herror
    cases herror
  | short hread hcount hshort =>
    rw [hat] at hread
    cases hread
    omega
  | overlong hread hcount =>
    rw [hat] at hread
    cases hread
    omega
  | @repeated _ earlier m hread hm hearlier hid =>
    rw [hat] at hread
    cases hread
    have hlength := (List.getElem?_eq_some_iff.1 hpage).1
    have hprevious : pages[m]? = some pages[m] := List.getElem?_eq_getElem _
    have hat' := (h.accepted m _ hprevious).1
    rw [Nat.zero_add, hearlier] at hat'
    cases hat'
    obtain ⟨a, ha, b, hb, hab⟩ := hid
    exact absurd hab (h.ids_ne hm hprevious hpage hb ha).symm
  | inconsistent hread hother =>
    rw [hat] at hread
    cases hread
    exact absurd htotal hother

/-- Resolving a credential is complete exactly when no admitted page holds more credentials than its
limit. -/
theorem complete_iff : Complete text answers scopeType scopeOwner credentialId ↔
    Fitting text answers scopeType scopeOwner credentialId := by
  obtain ⟨requestedId, hid⟩ := exists_requestedId text credentialId
  constructor
  · intro hcomplete pages requestedId' credential hpages hadmitted hid' hselect page hmem
    rw [hid] at hid'
    cases hid'
    by_contra hlong
    obtain ⟨n, hn⟩ := List.getElem?_of_mem hmem
    have hcollect := collectCredentials_of_admitted hpages hadmitted le_rfl
    have hresolve : resolveCredential text answers scopeType scopeOwner credentialId pages.length =
        ((List.range pages.length).map (pageQuery scopeType scopeOwner),
          some (.ok credential)) := by
      rw [resolveCredential_eq hid, hcollect]
      exact congrArg (fun result => (_, some result)) hselect
    obtain ⟨asked, hlog, hrefused⟩ := hcomplete.refuses _ _ _ hresolve
    have hasked : pages.length = asked := by simpa using congrArg List.length hlog
    have hat := (hadmitted.accepted n page hn).1
    rw [Nat.zero_add] at hat
    obtain ⟨e, he⟩ := hrefused n (hasked ▸ (List.getElem?_eq_some_iff.1 hn).1)
      (.overlong hat (.inl (not_le.1 hlong)))
    cases he
  · intro hfitting
    refine ⟨⟨(announcedTotal text answers scopeType scopeOwner).toNat + 1, fun fuel hfuel => ?_⟩,
      fun fuel log credential h => ?_, fun fuel log result h => ?_⟩
    · obtain ⟨result, hresult⟩ := collectCredentials_ends (Nat.lt_of_succ_le hfuel)
      rw [resolveCredential_eq hid, hresult]
      exact ⟨_, _, rfl⟩
    · obtain ⟨collected, hcollect, hselect⟩ := collected_of_resolved hid h
      obtain ⟨pages, hpages, hadmitted, rfl, -⟩ := admitted_of_collectCredentials hcollect
      have hfit := hfitting pages requestedId credential hpages hadmitted hid hselect
      have hlength := length_of_admitted hadmitted hfit (by
        obtain ⟨first, rest, rfl⟩ := List.exists_cons_of_ne_nil hpages
        obtain ⟨⟨hfirst, htotal, -⟩, -⟩ := admitted_cons.1 hadmitted
        rw [← htotal]
        simpa using (spec_of_pageAt hfirst).2.2.2)
      refine ⟨_, hcollect, by simpa using hlength, by simpa using hadmitted.distinct,
        selectCredential_mem hselect⟩
    · obtain ⟨asked, hasked⟩ := @log_of_collectCredentials text answers scopeType scopeOwner fuel
      refine ⟨asked, ?_, fun n hn hfaulty => ?_⟩
      · rw [resolveCredential_eq hid, Prod.mk.injEq] at h
        rw [← h.1, hasked]
      · cases result with
        | error e => exact ⟨e, rfl⟩
        | ok credential =>
          obtain ⟨collected, hcollect, hselect⟩ := collected_of_resolved hid h
          obtain ⟨pages, hpages, hadmitted, rfl, hlog⟩ := admitted_of_collectCredentials hcollect
          have hfit := hfitting pages requestedId credential hpages hadmitted hid hselect
          rw [hcollect] at hasked
          have hlength : pages.length = asked := by
            simpa using congrArg List.length (hlog.symm.trans hasked)
          obtain ⟨page, hpage⟩ : ∃ page, pages[n]? = some page :=
            ⟨_, List.getElem?_eq_getElem (hlength ▸ hn)⟩
          have hlong := overlong_of_faulty hadmitted hpage hfaulty
          exact absurd (hfit page (List.mem_of_getElem? hpage)) (not_le.2 hlong)

/-- The operations on plain texts; no address is looked at. -/
def plainDiscoveryText : DiscoveryText where
  casefold value := value
  strip value := value
  digits _ := none
  urlHostPort _ := none
  closeMatches _ _ := []
  urlsplit _ := .error "no address"

/-- A credential as the service sends it. -/
def sentCredential (n : Nat) : Json :=
  .obj [("id", .str ("cred-" ++ toString n)), ("name", .str "GitLab"),
    ("credential_type", .str "git"), ("provider", .str "gitlab"), ("status", .str "ready")]

/-- A page as the service sends it. -/
def sentPage (offset total : Int) (data : List Json) : List (String × Json) :=
  [("data", .arr data),
    ("meta", .obj [("limit", .int 50), ("offset", .int offset), ("total", .int total)])]

/-- A service that announces 51 credentials, sends them all on its first page, and another one on
the second. -/
def overfullAnswers : Answers
  | 0 => .ok (sentPage 0 51 ((List.range 51).map sentCredential))
  | _ => .ok (sentPage 50 51 [sentCredential 51])

/-- A first page of one credential too many is accepted, and 52 of 51 credentials are collected. -/
theorem not_complete_overfull : ¬ ∀ text answers scopeType scopeOwner credentialId,
    Complete text answers scopeType scopeOwner credentialId := by
  intro h
  have hcomplete := h plainDiscoveryText overfullAnswers none none (some "cred-0")
  have hresolved : ((resolveCredential plainDiscoveryText overfullAnswers none none
      (some "cred-0") 2).2.bind Except.toOption).isSome = true := by decide +kernel
  have hcount : ((collectCredentials plainDiscoveryText overfullAnswers none none 2).2.bind
      Except.toOption).map List.length = some 52 := by decide +kernel
  have htotal : announcedTotal plainDiscoveryText overfullAnswers none none = 51 := by
    decide +kernel
  rcases hrun : resolveCredential plainDiscoveryText overfullAnswers none none (some "cred-0") 2
    with ⟨log, _ | e | resolved⟩ <;> rw [hrun] at hresolved
  · cases hresolved
  · cases hresolved
  · obtain ⟨credentials, hcollect, hlength, -⟩ := hcomplete.collects 2 log resolved hrun
    rw [hcollect] at hcount
    have hfifty : credentials.length = 52 := Option.some.inj hcount
    rw [htotal, hfifty] at hlength
    cases hlength

end EnjiGuard.Gitlab
