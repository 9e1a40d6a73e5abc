import EnjiGuard.AuthSession.Cookies
import EnjiGuard.Foundation.Ending

/-!
# What a refresh response says

A response says one of three things: it carries a complete successor, it rejects the credential, or
it leaves the outcome open. Which one is stated here in terms of the status, the cookies and the
body; the functions that decide it are shown to follow that, apart from a body that is no text.
-/

namespace EnjiGuard.AuthSession

open Foundation Action

/-! ### The body -/

/-- A body that is no text, or that the parser refuses with more than a syntax error, makes every
look at it raise. -/
def EnjiHttpResponse.Undecodable (response : EnjiHttpResponse) : Prop :=
  response.content = some .notUtf8 ∨ ∃ typeName, response.content = some (.refused typeName)

/-- The fields of a body that is a JSON object. -/
def EnjiHttpResponse.fields? (response : EnjiHttpResponse) : Option (List (String × Json)) :=
  match response.content with
  | some (.json (.obj fields)) => some fields
  | _ => none

/-- The message of the body. -/
def EnjiHttpResponse.message? (response : EnjiHttpResponse) : Option String :=
  response.fields?.bind fun fields => (Json.lookup "message" fields).str?

/-- The body is an envelope that says that the refresh token is invalid. -/
def EnjiHttpResponse.invalidRefresh (response : EnjiHttpResponse) : Bool :=
  match response.fields? with
  | none => false
  | some fields =>
    (match Json.lookup "error" fields with
      | .obj error => (Json.lookup "code" error).equalsStr "AUTH_INVALID"
      | _ => (Json.lookup "code" fields).equalsStr "AUTH_INVALID") ||
      (Json.lookup "error" fields).equalsStr "invalid refresh token"

/-- The status says that the authentication failed, and the message that it is for good. -/
def EnjiHttpResponse.Rejects (response : EnjiHttpResponse) : Prop :=
  isHttpAuthFailure response.statusCode = true ∧ response.invalidRefresh = false ∧
    (response.message? = some "session is no longer valid" ∨
      response.message? = some "account is blocked")

instance (response : EnjiHttpResponse) : Decidable response.Rejects := by
  unfold EnjiHttpResponse.Rejects; infer_instance

/-- The lane of a response that neither carries a successor nor rejects. -/
def EnjiHttpResponse.lane (response : EnjiHttpResponse) : RecoveryLane :=
  if response.statusCode = 502 ∧ response.message? = some "failed to refresh session" then
    .safeRetry
  else if isHttpAuthFailure response.statusCode = true ∧ response.invalidRefresh = true then
    .validationRecovery
  else .ambiguityReplay

variable {response : EnjiHttpResponse}

/-- A look at the body that handles the errors of the HTTP layer. -/
lemma catchEnjiHttp_json {α : Type} (h : ¬ response.Undecodable) (f : Json → α) (fallback : α) :
    catchEnjiHttp (response.json.map f) fallback = .ok (match response.content with
      | some (.json value) => f value
      | none => f .null
      | _ => fallback) := by
  rcases hcontent : response.content with _ | (_ | _ | typeName | _)
  · simp [EnjiHttpResponse.json, hcontent, catchEnjiHttp, Except.map]
  · exact absurd (.inl hcontent) h
  · simp [EnjiHttpResponse.json, hcontent, catchEnjiHttp, Except.map, PyError.isEnjiHttp]
  · exact absurd (.inr ⟨typeName, hcontent⟩) h
  · simp [EnjiHttpResponse.json, hcontent, catchEnjiHttp, Except.map]

lemma catchEnjiHttp_undecodable {α : Type} (h : response.Undecodable) (f : Json → α)
    (fallback : α) :
    ∃ e, catchEnjiHttp (response.json.map f) fallback = .error e := by
  rcases h with h | ⟨typeName, h⟩
  · exact ⟨.unicodeDecodeError, by
      simp [EnjiHttpResponse.json, h, catchEnjiHttp, Except.map, PyError.isEnjiHttp]⟩
  · exact ⟨.ofRefused typeName, by
      simp [EnjiHttpResponse.json, h, catchEnjiHttp, Except.map]⟩

lemma responseMessage_eq (h : ¬ response.Undecodable) :
    responseMessage response = .ok response.message? := by
  rw [responseMessage, catchEnjiHttp_json h]
  unfold EnjiHttpResponse.message? EnjiHttpResponse.fields?
  rcases response.content with _ | (_ | _ | _ | value)
  · rfl
  · rfl
  · rfl
  · rfl
  · cases value <;> rfl

lemma isRefreshTokenInvalidResponse_eq (h : ¬ response.Undecodable)
    (hfailure : isHttpAuthFailure response.statusCode = true) :
    isRefreshTokenInvalidResponse response = .ok response.invalidRefresh := by
  have hinvalid : isAuthInvalidResponse response = .ok (match response.fields? with
      | none => false
      | some fields => match Json.lookup "error" fields with
        | .obj error => (Json.lookup "code" error).equalsStr "AUTH_INVALID"
        | _ => (Json.lookup "code" fields).equalsStr "AUTH_INVALID") := by
    rw [isAuthInvalidResponse, if_pos hfailure, catchEnjiHttp_json h]
    unfold EnjiHttpResponse.fields?
    rcases response.content with _ | (_ | _ | _ | value)
    · rfl
    · rfl
    · rfl
    · rfl
    · cases value <;> rfl
  rw [isRefreshTokenInvalidResponse, hinvalid, if_pos hfailure, catchEnjiHttp_json h]
  unfold EnjiHttpResponse.invalidRefresh EnjiHttpResponse.fields?
  rcases response.content with _ | (_ | _ | _ | value)
  · rfl
  · rfl
  · rfl
  · rfl
  · cases value with
    | obj fields =>
      dsimp only [bind, Except.bind]
      split_ifs with hcode
      · rw [hcode]
        rfl
      · simp only [Bool.not_eq_true] at hcode
        rw [hcode, Bool.false_or]
    | null | bool | int | float | str | arr => rfl

/-- What follows a response, when its body is text. -/
lemma responseContinuation_eq (h : ¬ response.Undecodable) :
    responseContinuation response =
      .ok (if response.Rejects then .stop else .lane response.lane) := by
  have hmessage := responseMessage_eq h
  unfold responseContinuation
  simp only [hmessage, bind, Except.bind, pure, Except.pure]
  by_cases hretry : response.statusCode = 502 ∧
    response.message? = some "failed to refresh session"
  · have hfailure : isHttpAuthFailure response.statusCode = false := by
      rw [hretry.1]
      rfl
    have hrejects : ¬ response.Rejects := by
      rintro ⟨hstatus, -⟩
      rw [hfailure] at hstatus
      cases hstatus
    rw [if_pos hretry, if_neg hrejects, EnjiHttpResponse.lane, if_pos hretry]
  · rw [if_neg hretry, EnjiHttpResponse.lane, if_neg hretry]
    by_cases hfailure : isHttpAuthFailure response.statusCode = true
    · simp only [hfailure, if_true, isRefreshTokenInvalidResponse_eq h hfailure,
        EnjiHttpResponse.Rejects, true_and]
      cases hinvalid : response.invalidRefresh with
      | true => simp
      | false =>
        simp only [Bool.false_eq_true, if_false, true_and]
        split_ifs <;> rfl
    · simp [hfailure, EnjiHttpResponse.Rejects]

lemma responseContinuation_undecodable (h : response.Undecodable) :
    ∃ e, responseContinuation response = .error e := by
  unfold responseContinuation responseMessage
  obtain ⟨e, he⟩ := catchEnjiHttp_undecodable h (fun payload =>
    match payload with
    | .obj fields => (Json.lookup "message" fields).str?
    | _ => none) none
  exact ⟨e, congrArg (· >>= _) he⟩

/-! ### The cookies -/

section Cookies

variable (codec : CookieCodec)

/-- Whether a date was read. -/
def ParsedDate.isInstant : ParsedDate → Bool
  | instant _ => true
  | _ => false

/-- Whether an update of an authentication cookie makes the reader look at the clock. -/
def Morsel.readsClock (morsel : Morsel) : Bool :=
  morsel.value ≠ "" && !isExpiredMaxAge morsel.maxAge && morsel.expires ≠ "" &&
    (codec.parseDate morsel.expires).isInstant

/-- An authentication cookie in a form that can be stored: it has a value, and neither its age nor
its date deletes it. -/
def Morsel.Persistable (now : Datetime) (morsel : Morsel) : Prop :=
  morsel.value ≠ "" ∧ isExpiredMaxAge morsel.maxAge = false ∧
    (morsel.expires = "" ∨ codec.parseDate morsel.expires = .malformed ∨
      ∃ expiresAt, codec.parseDate morsel.expires = .instant expiresAt ∧ now.micros < expiresAt)

/-- The date of an authentication cookie has to be looked at, and it overflows. -/
def Morsel.Overflows (morsel : Morsel) : Prop :=
  morsel.value ≠ "" ∧ isExpiredMaxAge morsel.maxAge = false ∧ morsel.expires ≠ "" ∧
    codec.parseDate morsel.expires = .overflow

def clockReads : List (String × Morsel) → Nat
  | [] => 0
  | (name, morsel) :: updates =>
    (if isAuthCookieName name && morsel.readsClock codec then 1 else 0) + clockReads updates

/-- Every update of an authentication cookie can be stored, at the readings of the wall clock from
one on. -/
def AllPersistable (wall : Nat → Datetime) : Nat → List (String × Morsel) → Prop
  | _, [] => True
  | n, (name, morsel) :: updates =>
    (isAuthCookieName name = true → morsel.Persistable codec (wall n)) ∧
      AllPersistable wall
        (n + if isAuthCookieName name && morsel.readsClock codec then 1 else 0) updates

/-- A date overflows before any update of an authentication cookie turns out not to be storable. -/
def ReachesOverflow (wall : Nat → Datetime) : Nat → List (String × Morsel) → Prop
  | _, [] => False
  | n, (name, morsel) :: updates =>
    isAuthCookieName name = true ∧ morsel.Overflows codec ∨
      (isAuthCookieName name = true → morsel.Persistable codec (wall n)) ∧
        ReachesOverflow wall
          (n + if isAuthCookieName name && morsel.readsClock codec then 1 else 0) updates

/-- The updates of the response headers up to the first that cannot be read. -/
def readableUpdates : List String → List (String × Morsel)
  | [] => []
  | header :: headers =>
    match codec.load [] header with
    | none => []
    | some jar => jar ++ readableUpdates headers

/-- The updates of all response headers, in order. -/
def cookieUpdates : List String → Option (List (String × Morsel))
  | [] => some []
  | header :: headers => do
    let jar ← codec.load [] header
    let updates ← cookieUpdates headers
    return jar ++ updates

/-- The jar of all response headers together. -/
def cookieJar : CookieJar → List String → Option CookieJar
  | jar, [] => some jar
  | jar, header :: headers => do
    let jar ← codec.load jar header
    cookieJar jar headers

/-- The response headers set a cookie. -/
def Sets (headers : List String) (name : String) : Prop :=
  ∃ jar, cookieJar codec [] headers = some jar ∧ name ∈ jar.map Prod.fst

def updatedJar (jar : CookieJar) (updates : List (String × Morsel)) : CookieJar :=
  updates.foldl (fun jar update =>
    if isAuthCookieName update.1 then codec.assign jar update.1 update.2.value else jar) jar

/-- The normalized header of a jar, when it has an authentication cookie. -/
def jarHeader (jar : CookieJar) : Option String :=
  match jar.filter fun item => isAuthCookieName item.1 with
  | [] => none
  | items => some ("; ".intercalate (items.map fun item => item.1 ++ "=" ++ item.2.codedValue))

/-- The header of a stored cookie with the updates of a response. -/
def mergedHeader (cookieHeader : String) (headers : List String) : Option String := do
  let jar ← codec.load [] cookieHeader
  let updates ← cookieUpdates codec headers
  jarHeader (updatedJar codec jar updates)

/-- The updates of response headers that can all be stored. -/
def StorableUpdates (wall : Nat → Datetime) (n : Nat)
    (headers : List String) (updates : List (String × Morsel)) : Prop :=
  cookieUpdates codec headers = some updates ∧ AllPersistable codec wall n updates

/-- The headers give both authentication cookies in a form that can be stored. -/
def GivesSuccessor (wall : Nat → Datetime) (n : Nat) (headers : List String) : Prop :=
  Sets codec headers "access_token" ∧ Sets codec headers "refresh_token" ∧
    ∃ updates, StorableUpdates codec wall n headers updates

/-- A response with a complete successor. -/
def EnjiHttpResponse.Complete (wall : Nat → Datetime) (n : Nat) (response : EnjiHttpResponse) :
    Prop :=
  response.statusCode = 200 ∧ GivesSuccessor codec wall n response.setCookieHeaders

/-- A response with both authentication cookies has a date that overflows where the merge into a
stored cookie header looks at it. -/
structure EnjiHttpResponse.Overflows (cookieHeader : String) (wall : Nat → Datetime) (n : Nat)
    (response : EnjiHttpResponse) : Prop where
  status : response.statusCode = 200
  access : Sets codec response.setCookieHeaders "access_token"
  refresh : Sets codec response.setCookieHeaders "refresh_token"
  stored : (codec.load [] cookieHeader).isSome = true
  reaches : ReachesOverflow codec wall n (readableUpdates codec response.setCookieHeaders)

/-- How a merge fails: with an error that its caller catches, or with a date that overflows. -/
def Refuses (overflows : Prop) (e : PyError) : Prop :=
  (e = .cookieError ∨ e = .valueError) ∧ ¬ overflows ∨ e = .overflowError ∧ overflows

variable {codec} {env : Env} {r : Run}

/-- Two runs agree but for the wall clock. -/
structure Run.Clocked (r : Run) (reads : Nat) (r' : Run) : Prop where
  world : r'.world = r.world
  now : r'.cursor.now = r.cursor.now
  minted : r'.cursor.minted = r.cursor.minted
  wall : r'.cursor.wall = r.cursor.wall + reads

lemma Run.Clocked.refl (r : Run) : r.Clocked 0 r := ⟨rfl, rfl, rfl, rfl⟩

lemma Run.Clocked.trans {r' r'' : Run} {m n : Nat} (h : r.Clocked m r') (h' : r'.Clocked n r'') :
    r.Clocked (m + n) r'' :=
  ⟨h'.world.trans h.world, h'.now.trans h.now, h'.minted.trans h.minted, by
    rw [h'.wall, h.wall, Nat.add_assoc]⟩

lemma Morsel.Persistable.not_overflows {now : Datetime} {morsel : Morsel}
    (h : morsel.Persistable codec now) : ¬ morsel.Overflows codec := by
  rintro ⟨-, -, hexpires, hoverflow⟩
  rcases h.2.2 with hnone | hmalformed | ⟨_, hinstant, -⟩
  · exact hexpires hnone
  · cases hmalformed.symm.trans hoverflow
  · cases hinstant.symm.trans hoverflow

lemma ends_morselDeletesCookie (morsel : Morsel) (hvalue : morsel.value ≠ "") :
    Ends (morselDeletesCookie codec env morsel) r
      (fun deletes r' => r.Clocked (if morsel.readsClock codec then 1 else 0) r' ∧
        (deletes = false ↔ morsel.Persistable codec (env.wall r.cursor.wall)) ∧
        ¬ morsel.Overflows codec)
      (fun e r' => e = .overflowError ∧ morsel.Overflows codec ∧ r' = r) := by
  unfold morselDeletesCookie Morsel.readsClock Morsel.Persistable Morsel.Overflows
  cases hage : isExpiredMaxAge morsel.maxAge with
  | true => exact Ends.pure ⟨by simpa [hvalue] using Run.Clocked.refl r, by simp, by simp⟩
  | false =>
    by_cases hexpires : morsel.expires = ""
    · simp only [hexpires, Bool.false_eq_true, if_false, if_true]
      exact Ends.pure ⟨by simpa using Run.Clocked.refl r, by simp [hvalue], by simp⟩
    · simp only [hexpires, Bool.false_eq_true, if_false]
      rcases hdate : codec.parseDate morsel.expires with expiresAt | _ | _
      · refine Ends.bind (Q := fun now r' => now = env.wall r.cursor.wall ∧ r.Clocked 1 r')
          (Ends.of_run rfl ⟨rfl, rfl, rfl, rfl, rfl⟩) fun now r' h => ?_
        obtain ⟨rfl, hclocked⟩ := h
        exact Ends.pure ⟨by simpa [hvalue, hexpires, ParsedDate.isInstant] using hclocked,
          by simp [hvalue], by simp⟩
      · exact Ends.pure ⟨by simpa [ParsedDate.isInstant] using Run.Clocked.refl r,
          by simp [hvalue], by simp⟩
      · exact Ends.raise ⟨rfl, ⟨hvalue, trivial, hexpires, rfl⟩, rfl⟩

lemma ends_isPersistableAuthCookieUpdate (name : String) (morsel : Morsel) :
    Ends (isPersistableAuthCookieUpdate codec env name morsel) r
      (fun persistable r' =>
        r.Clocked (if isAuthCookieName name && morsel.readsClock codec then 1 else 0) r' ∧
        (persistable = true ↔ (isAuthCookieName name = true →
          morsel.Persistable codec (env.wall r.cursor.wall))) ∧
        ¬ (isAuthCookieName name = true ∧ morsel.Overflows codec))
      (fun e r' => e = .overflowError ∧
        (isAuthCookieName name = true ∧ morsel.Overflows codec) ∧ r' = r) := by
  unfold isPersistableAuthCookieUpdate
  cases hauth : isAuthCookieName name with
  | false => exact Ends.pure ⟨by simpa using Run.Clocked.refl r, by simp, by simp⟩
  | true =>
    by_cases hvalue : morsel.value = ""
    · simp only [hvalue, Bool.not_true, Bool.false_eq_true, if_false, if_true]
      exact Ends.pure ⟨by simpa [Morsel.readsClock, hvalue] using Run.Clocked.refl r,
        by simp [Morsel.Persistable, hvalue], by simp [Morsel.Overflows, hvalue]⟩
    · simp only [hvalue, Bool.not_true, Bool.false_eq_true, if_false]
      refine ((ends_morselDeletesCookie morsel hvalue).weaken (fun _ _ h => h)
        fun e r' h => ⟨h.1, ⟨trivial, h.2.1⟩, h.2.2⟩).bind fun deletes r' h => Ends.pure ?_
      exact ⟨by simpa using h.1, by simpa using h.2.1, fun ⟨_, hoverflows⟩ => h.2.2 hoverflows⟩

lemma clockReads_append (updates more : List (String × Morsel)) :
    clockReads codec (updates ++ more) = clockReads codec updates + clockReads codec more := by
  induction updates with
  | nil => simp [clockReads]
  | cons update updates ih => simp only [List.cons_append, clockReads, ih, Nat.add_assoc]

section Updates

variable {wall : Nat → Datetime} {n : Nat}

lemma allPersistable_append (updates more : List (String × Morsel)) :
    AllPersistable codec wall n (updates ++ more) ↔ AllPersistable codec wall n updates ∧
      AllPersistable codec wall (n + clockReads codec updates) more := by
  induction updates generalizing n with
  | nil => simp [AllPersistable, clockReads]
  | cons update updates ih =>
    simp only [List.cons_append, AllPersistable, clockReads, ih, and_assoc, Nat.add_assoc]

lemma reachesOverflow_append (updates more : List (String × Morsel)) :
    ReachesOverflow codec wall n (updates ++ more) ↔ ReachesOverflow codec wall n updates ∨
      AllPersistable codec wall n updates ∧
        ReachesOverflow codec wall (n + clockReads codec updates) more := by
  induction updates generalizing n with
  | nil => simp [ReachesOverflow, AllPersistable, clockReads]
  | cons update updates ih =>
    simp only [List.cons_append, ReachesOverflow, AllPersistable, clockReads, ih, and_or_left,
      or_assoc, and_assoc, Nat.add_assoc]

lemma AllPersistable.not_reaches {updates : List (String × Morsel)}
    (h : AllPersistable codec wall n updates) : ¬ ReachesOverflow codec wall n updates := by
  induction updates generalizing n with
  | nil => exact id
  | cons update updates ih =>
    rintro (⟨hauth, hoverflows⟩ | ⟨-, hreaches⟩)
    · exact (h.1 hauth).not_overflows hoverflows
    · exact ih h.2 hreaches

lemma readableUpdates_of_cookieUpdates {headers : List String} {updates : List (String × Morsel)}
    (h : cookieUpdates codec headers = some updates) : readableUpdates codec headers = updates := by
  induction headers generalizing updates with
  | nil =>
    cases h
    rfl
  | cons header headers ih =>
    rcases hload : codec.load [] header with _ | first
    · simp [cookieUpdates, hload] at h
    · rcases hrest : cookieUpdates codec headers with _ | rest
      · simp [cookieUpdates, hload, hrest] at h
      · obtain rfl : first ++ rest = updates := by simpa [cookieUpdates, hload, hrest] using h
        simp only [readableUpdates, hload, ih hrest]

lemma StorableUpdates.not_reaches {headers : List String} {updates : List (String × Morsel)}
    (h : StorableUpdates codec wall n headers updates) :
    ¬ ReachesOverflow codec wall n (readableUpdates codec headers) := by
  rw [readableUpdates_of_cookieUpdates h.1]
  exact h.2.not_reaches

end Updates

lemma ends_applyUpdates (jar updates : CookieJar) :
    Ends (applyUpdates codec env jar updates) r
      (fun merged r' => AllPersistable codec env.wall r.cursor.wall updates ∧
        merged = updatedJar codec jar updates ∧ r.Clocked (clockReads codec updates) r')
      (fun e r' => Refuses (ReachesOverflow codec env.wall r.cursor.wall updates) e ∧
        ¬ AllPersistable codec env.wall r.cursor.wall updates ∧ ∃ reads, r.Clocked reads r') := by
  induction updates generalizing jar r with
  | nil => exact Ends.pure ⟨trivial, rfl, .refl r⟩
  | cons update updates ih =>
    obtain ⟨name, morsel⟩ := update
    refine ((ends_isPersistableAuthCookieUpdate name morsel).weaken (fun _ _ h => h) ?_).bind
      fun persistable r₁ h₁ => ?_
    · rintro e r' ⟨rfl, hoverflows, rfl⟩
      exact ⟨.inr ⟨rfl, .inl hoverflows⟩, fun hall => hall.not_reaches (.inl hoverflows), 0,
        .refl _⟩
    obtain ⟨hclocked, hpersistable, hfine⟩ := h₁
    cases persistable with
    | false =>
      have hnot : ¬ (isAuthCookieName name = true →
          morsel.Persistable codec (env.wall r.cursor.wall)) :=
        fun h => absurd (hpersistable.2 h) (by simp)
      refine Ends.raise ⟨.inl ⟨.inr rfl, ?_⟩, fun hall => hnot hall.1, _, hclocked⟩
      exact fun hreaches => hreaches.elim hfine fun h => hnot h.1
    | true =>
      have hfirst := hpersistable.1 rfl
      refine (ih _).weaken (fun merged r' h => ?_) fun e r' h => ?_
      · rw [hclocked.wall] at h
        exact ⟨⟨hfirst, h.1⟩, h.2.1, hclocked.trans h.2.2⟩
      · rw [hclocked.wall] at h
        obtain ⟨hraised, hnot, reads, hreads⟩ := h
        refine ⟨?_, fun hall => hnot hall.2, _, hclocked.trans hreads⟩
        rcases hraised with ⟨hcaught, hnone⟩ | ⟨rfl, hreaches⟩
        · exact .inl ⟨hcaught, fun h => h.elim hfine fun h => hnone h.2⟩
        · exact .inr ⟨rfl, .inr ⟨hfirst, hreaches⟩⟩

lemma ends_loadCookie (jar : CookieJar) (header : String) :
    Ends (loadCookie codec jar header) r
      (fun loaded r' => codec.load jar header = some loaded ∧ r' = r)
      (fun e r' => e = .cookieError ∧ codec.load jar header = none ∧ r' = r) := by
  unfold loadCookie
  rcases codec.load jar header with _ | loaded
  · exact Ends.raise ⟨rfl, rfl, rfl⟩
  · exact Ends.pure ⟨rfl, rfl⟩

lemma ends_applyHeaders (jar : CookieJar) (headers : List String) :
    Ends (applyHeaders codec env jar headers) r
      (fun merged r' => ∃ updates,
        StorableUpdates codec env.wall r.cursor.wall headers updates ∧
        merged = updatedJar codec jar updates ∧ r.Clocked (clockReads codec updates) r')
      (fun e r' =>
        Refuses (ReachesOverflow codec env.wall r.cursor.wall (readableUpdates codec headers)) e ∧
        (∀ updates, ¬ StorableUpdates codec env.wall r.cursor.wall headers updates) ∧
        ∃ reads, r.Clocked reads r') := by
  induction headers generalizing jar r with
  | nil => exact Ends.pure ⟨[], ⟨rfl, trivial⟩, rfl, .refl r⟩
  | cons header headers ih =>
    have hupdates : ∀ {updates}, cookieUpdates codec (header :: headers) = some updates →
        ∃ first rest, codec.load [] header = some first ∧
          cookieUpdates codec headers = some rest ∧ updates = first ++ rest := by
      intro updates h
      rcases hload : codec.load [] header with _ | first
      · simp [cookieUpdates, hload] at h
      · rcases hrest : cookieUpdates codec headers with _ | rest
        · simp [cookieUpdates, hload, hrest] at h
        · exact ⟨first, rest, rfl, rfl, by simpa [cookieUpdates, hload, hrest] using h.symm⟩
    refine ((ends_loadCookie [] header).weaken (fun _ _ h => h) ?_).bind fun first r₁ h₁ => ?_
    · rintro e r' ⟨rfl, hload, rfl⟩
      refine ⟨.inl ⟨.inl rfl, by simp [readableUpdates, hload, ReachesOverflow]⟩, ?_, 0, .refl _⟩
      rintro updates ⟨h, -⟩
      obtain ⟨first, rest, hfirst, -⟩ := hupdates h
      rw [hload] at hfirst
      cases hfirst
    · obtain ⟨hload, rfl⟩ := h₁
      -- a date of this header overflows, or one of the headers after it once this one is applied
      have hreaches : ReachesOverflow codec env.wall r₁.cursor.wall
            (readableUpdates codec (header :: headers)) ↔
          ReachesOverflow codec env.wall r₁.cursor.wall first ∨
            AllPersistable codec env.wall r₁.cursor.wall first ∧ ReachesOverflow codec env.wall
              (r₁.cursor.wall + clockReads codec first) (readableUpdates codec headers) := by
        rw [readableUpdates, hload, reachesOverflow_append]
      rw [hreaches]
      refine ((ends_applyUpdates jar first).weaken (fun _ _ h => h) ?_).bind fun merged r₂ h₂ => ?_
      · rintro e r' ⟨hraised, hnot, hreads⟩
        refine ⟨?_, ?_, hreads⟩
        · rcases hraised with ⟨hcaught, hnone⟩ | ⟨rfl, hfirst⟩
          · exact .inl ⟨hcaught, fun h => h.elim hnone fun h => hnot h.1⟩
          · exact .inr ⟨rfl, .inl hfirst⟩
        · rintro updates ⟨h, hall⟩
          obtain ⟨first', rest, hfirst, -, rfl⟩ := hupdates h
          rw [hload] at hfirst
          cases hfirst
          exact hnot ((allPersistable_append first rest).1 hall).1
      · obtain ⟨hall, rfl, hclocked⟩ := h₂
        refine (ih _).weaken ?_ ?_
        · rintro merged r' ⟨rest, ⟨hrest, hstorable⟩, rfl, hclocked'⟩
          rw [hclocked.wall] at hstorable
          refine ⟨first ++ rest, ⟨?_, (allPersistable_append first rest).2 ⟨hall, hstorable⟩⟩,
            ?_, ?_⟩
          · simp [cookieUpdates, hload, hrest]
          · simp [updatedJar]
          · rw [clockReads_append]
            exact hclocked.trans hclocked'
        · rintro e r' ⟨hraised, hnot, reads, hreads⟩
          rw [hclocked.wall] at hraised
          refine ⟨?_, ?_, _, hclocked.trans hreads⟩
          · rcases hraised with ⟨hcaught, hnone⟩ | ⟨rfl, hrest⟩
            · exact .inl ⟨hcaught, fun h => h.elim hall.not_reaches fun h => hnone h.2⟩
            · exact .inr ⟨rfl, .inr ⟨hall, hrest⟩⟩
          · rintro updates ⟨h, hall'⟩
            obtain ⟨first', rest, hfirst, hrest, rfl⟩ := hupdates h
            rw [hload] at hfirst
            cases hfirst
            refine hnot rest ⟨hrest, ?_⟩
            rw [hclocked.wall]
            exact ((allPersistable_append first rest).1 hall').2

lemma ends_authCookieHeader (jar : CookieJar) :
    Ends (authCookieHeader jar) r (fun header r' => r' = r ∧ jarHeader jar = some header)
      (fun e r' => e = .valueError ∧ r' = r ∧ jarHeader jar = none) := by
  unfold authCookieHeader jarHeader
  generalize jar.filter (fun item => isAuthCookieName item.1) = items
  cases items with
  | nil => exact Ends.raise ⟨rfl, rfl, rfl⟩
  | cons item items => exact Ends.pure ⟨rfl, rfl⟩

lemma ends_mergeSetCookieHeaders (cookieHeader : String) (headers : List String) :
    Ends (mergeSetCookieHeaders codec env cookieHeader headers) r
      (fun merged r' => (∃ updates,
          StorableUpdates codec env.wall r.cursor.wall headers updates) ∧
        mergedHeader codec cookieHeader headers = some merged ∧ ∃ reads, r.Clocked reads r')
      (fun e r' => Refuses ((codec.load [] cookieHeader).isSome = true ∧
          ReachesOverflow codec env.wall r.cursor.wall (readableUpdates codec headers)) e ∧
        ((∃ updates, StorableUpdates codec env.wall r.cursor.wall headers updates) →
          mergedHeader codec cookieHeader headers = none) ∧ ∃ reads, r.Clocked reads r') := by
  refine ((ends_loadCookie [] cookieHeader).weaken (fun _ _ h => h) ?_).bind fun jar r₁ h₁ => ?_
  · rintro e r' ⟨rfl, hload, rfl⟩
    exact ⟨.inl ⟨.inl rfl, by simp [hload]⟩, fun _ => by simp [mergedHeader, hload], 0, .refl _⟩
  · obtain ⟨hload, rfl⟩ := h₁
    simp only [hload, Option.isSome_some, true_and]
    refine ((ends_applyHeaders jar headers).weaken (fun _ _ h => h) ?_).bind
      fun updated r₂ h₂ => ?_
    · rintro e r' ⟨hraised, hnot, hreads⟩
      exact ⟨hraised, fun ⟨updates, h⟩ => absurd h (hnot updates), hreads⟩
    · obtain ⟨updates, hstorable, rfl, hclocked⟩ := h₂
      have hmerged : mergedHeader codec cookieHeader headers =
          jarHeader (updatedJar codec jar updates) := by
        simp [mergedHeader, hload, hstorable.1]
      rw [hmerged]
      refine (ends_authCookieHeader _).weaken ?_ ?_
      · rintro merged r' ⟨rfl, hheader⟩
        exact ⟨⟨updates, hstorable⟩, hheader, _, hclocked⟩
      · rintro e r' ⟨rfl, rfl, hheader⟩
        exact ⟨.inl ⟨.inr rfl, hstorable.not_reaches⟩, fun _ => hheader, _, hclocked⟩

lemma ends_setCookieNames (jar : CookieJar) (headers : List String) :
    Ends (setCookieNames codec jar headers) r
      (fun names r' => r' = r ∧ ∃ loaded, cookieJar codec jar headers = some loaded ∧
        names = loaded.map Prod.fst)
      (fun e r' => e = .cookieError ∧ cookieJar codec jar headers = none ∧ r' = r) := by
  induction headers generalizing jar with
  | nil => exact Ends.pure ⟨rfl, jar, rfl, rfl⟩
  | cons header headers ih =>
    refine ((ends_loadCookie jar header).weaken (fun _ _ h => h) ?_).bind fun loaded r₁ h₁ => ?_
    · rintro e r' ⟨rfl, hload, rfl⟩
      exact ⟨rfl, by simp [cookieJar, hload], rfl⟩
    · obtain ⟨hload, rfl⟩ := h₁
      have hjar : cookieJar codec jar (header :: headers) = cookieJar codec loaded headers := by
        simp [cookieJar, hload]
      rw [hjar]
      exact ih loaded

/-- The successor of a response for a cookie credential. It reads the wall clock alone, and it
returns unless a date overflows. -/
lemma ends_successfulReplacement {source : StoredAuth} {cookieHeader : String}
    (hsource : source.credential = .cookie cookieHeader) (response : EnjiHttpResponse) :
    Ends (successfulReplacement codec env source response) r
      (fun merged r' => (∃ reads, r.Clocked reads r') ∧
        ¬ response.Overflows codec cookieHeader env.wall r.cursor.wall ∧
        (response.Complete codec env.wall r.cursor.wall →
          merged = mergedHeader codec cookieHeader response.setCookieHeaders) ∧
        (¬ response.Complete codec env.wall r.cursor.wall → merged = none))
      (fun _ r' => (∃ reads, r.Clocked reads r') ∧
        response.Overflows codec cookieHeader env.wall r.cursor.wall) := by
  unfold successfulReplacement EnjiHttpResponse.Complete
  by_cases hstatus : response.statusCode = 200
  · rw [if_neg (by simp [hstatus])]
    simp only [hsource, hstatus, true_and]
    -- what is raised inside is caught, unless a date overflows
    refine Ends.tryCatch (E := fun e r' =>
      Refuses (response.Overflows codec cookieHeader env.wall r.cursor.wall) e ∧
      (GivesSuccessor codec env.wall r.cursor.wall response.setCookieHeaders →
        mergedHeader codec cookieHeader response.setCookieHeaders = none) ∧
      ∃ reads, r.Clocked reads r') ?_ ?_
    · refine ((ends_setCookieNames [] response.setCookieHeaders).weaken (fun _ _ h => h) ?_).bind
        fun names r₁ h₁ => ?_
      · rintro e r' ⟨rfl, hnone, rfl⟩
        have hsets : ∀ name, ¬ Sets codec response.setCookieHeaders name := by
          rintro name ⟨jar, hjar, -⟩
          rw [hnone] at hjar
          cases hjar
        exact ⟨.inl ⟨.inl rfl, fun h => hsets _ h.access⟩, fun h => absurd h.1 (hsets _), 0,
          .refl _⟩
      · obtain ⟨rfl, jar, hjar, rfl⟩ := h₁
        have hsets : ∀ name, Sets codec response.setCookieHeaders name ↔
            name ∈ jar.map Prod.fst := by
          intro name
          constructor
          · rintro ⟨jar', hjar', hmem⟩
            rw [hjar] at hjar'
            cases hjar'
            exact hmem
          · exact fun hmem => ⟨jar, hjar, hmem⟩
        split_ifs with hboth
        · refine ((ends_mergeSetCookieHeaders cookieHeader response.setCookieHeaders).weaken
            (fun _ _ h => h) ?_).bind fun merged r₂ h₂ => Ends.pure ?_
          · rintro e r' ⟨hraised, hnone, hclocked⟩
            refine ⟨?_, fun hgives => hnone hgives.2.2, hclocked⟩
            have hoverflows : response.Overflows codec cookieHeader env.wall r₁.cursor.wall ↔
                (codec.load [] cookieHeader).isSome = true ∧ ReachesOverflow codec env.wall
                  r₁.cursor.wall (readableUpdates codec response.setCookieHeaders) :=
              ⟨fun h => ⟨h.stored, h.reaches⟩, fun h =>
                ⟨hstatus, (hsets _).2 hboth.1, (hsets _).2 hboth.2, h.1, h.2⟩⟩
            rw [hoverflows]
            exact hraised
          obtain ⟨⟨updates, hstorable⟩, hmerged, hclocked⟩ := h₂
          refine ⟨hclocked, fun h => hstorable.not_reaches h.reaches, fun _ => hmerged.symm,
            fun hnot => ?_⟩
          exact absurd ⟨(hsets _).2 hboth.1, (hsets _).2 hboth.2, updates, hstorable⟩ hnot
        · refine Ends.pure ⟨⟨0, .refl _⟩, fun h => ?_, fun hgives => ?_, fun _ => rfl⟩
          · exact hboth ⟨(hsets _).1 h.access, (hsets _).1 h.refresh⟩
          · exact absurd ⟨(hsets _).1 hgives.1, (hsets _).1 hgives.2.1⟩ hboth
    · rintro e r' ⟨⟨hcaught, hfine⟩ | ⟨rfl, hoverflows⟩, hnone, hclocked⟩
      · rw [if_pos (by rcases hcaught with rfl | rfl <;> rfl)]
        exact Ends.pure ⟨hclocked, hfine, fun hgives => (hnone hgives).symm, fun _ => rfl⟩
      · exact Ends.raise ⟨hclocked, hoverflows⟩
  · rw [if_pos hstatus]
    exact Ends.pure ⟨⟨0, .refl r⟩, fun h => hstatus h.status, fun h => absurd h.1 hstatus,
      fun _ => rfl⟩

end Cookies

end EnjiGuard.AuthSession
