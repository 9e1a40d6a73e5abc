import EnjiGuard.AuthSession.Store.World
import Mathlib.Algebra.Group.Int.Defs

/-!
# Cookies, tokens and refresh responses

The cookie protocol of a refresh: how a complete successor is merged out of a response, when an
access token expires, and what a response that brought no successor says. Parsing of cookie
headers, of dates and of token payloads is the standard library's, given as a `CookieCodec`.
-/

namespace EnjiGuard.AuthSession

open Foundation Action

/-! ### The standard library's part -/

/-- A cookie of a jar, with the attributes the program looks at, surrounding blanks removed. -/
structure Morsel where
  value : String
  codedValue : String
  maxAge : String
  expires : String
  deriving DecidableEq, Repr

/-- A cookie jar, in insertion order. -/
abbrev CookieJar := List (String × Morsel)

/-- What a date header is read as. -/
inductive ParsedDate
  | instant (micros : Int)
  /-- A type or value error. -/
  | malformed
  /-- A component that is no machine integer. -/
  | overflow
  deriving DecidableEq, Repr

/-- The parsers of the standard library. -/
structure CookieCodec where
  /-- Loads a header into a jar; `none` is a cookie error. -/
  load : CookieJar → String → Option CookieJar
  /-- Assigns a value to a name of a jar. -/
  assign : CookieJar → String → String → CookieJar
  /-- The UTC microseconds of a date header. -/
  parseDate : String → ParsedDate
  /-- The payload of an encoded token segment; `none` is a decoding error. -/
  tokenPayload : String → Option Json

/-- Assigns a plain value to a name of a jar, at its old place if it has one. -/
def assignPlain (jar : CookieJar) (name value : String) : CookieJar :=
  if (jar.lookup name).isSome then
    jar.map fun item => if item.1 = name then (name, ⟨value, value, "", ""⟩) else item
  else jar ++ [(name, ⟨value, value, "", ""⟩)]

/-- The codec of cookies that need no quoting and carry no attributes. -/
def plainCodec : CookieCodec where
  load jar header := (header.toList.splitOn ';').foldlM
    (fun jar part =>
      match (part.dropWhile (· = ' ')).splitOn '=' with
      | [name, value] => some (assignPlain jar (String.ofList name) (String.ofList value))
      | _ => none) jar
  assign := assignPlain
  parseDate _ := .malformed
  tokenPayload _ := none

/-! ### Responses -/

/-- A response of the refresh endpoint; an empty body has no content. -/
structure EnjiHttpResponse where
  statusCode : Int
  content : Option FileText
  setCookieHeaders : List String

/-- The JSON body. -/
def EnjiHttpResponse.json (response : EnjiHttpResponse) : Except PyError Json :=
  match response.content with
  | none => .ok .null
  | some .notUtf8 => .error .unicodeDecodeError
  | some (.notJson _) => .error (.enjiHttp "UPSTREAM" "response is not JSON")
  | some (.refused typeName) => .error (.ofRefused typeName)
  | some (.json value) => .ok value

def isHttpAuthFailure (statusCode : Int) : Bool := statusCode = 401 || statusCode = 403

/-- Runs a handler for the errors of the HTTP layer. -/
def catchEnjiHttp {α : Type} (x : Except PyError α) (fallback : α) : Except PyError α :=
  match x with
  | .ok a => .ok a
  | .error e => if e.isEnjiHttp then .ok fallback else .error e

def isAuthInvalidResponse (response : EnjiHttpResponse) : Except PyError Bool :=
  if isHttpAuthFailure response.statusCode then
    catchEnjiHttp (response.json.map fun payload =>
      match payload with
      | .obj fields =>
        match Json.lookup "error" fields with
        | .obj error => (Json.lookup "code" error).equalsStr "AUTH_INVALID"
        | _ => (Json.lookup "code" fields).equalsStr "AUTH_INVALID"
      | _ => false) false
  else .ok false

def isRefreshTokenInvalidResponse (response : EnjiHttpResponse) : Except PyError Bool := do
  if ← isAuthInvalidResponse response then return true
  else if isHttpAuthFailure response.statusCode then
    catchEnjiHttp (response.json.map fun payload =>
      match payload with
      | .obj fields => (Json.lookup "error" fields).equalsStr "invalid refresh token"
      | _ => false) false
  else return false

def responseMessage (response : EnjiHttpResponse) : Except PyError (Option String) :=
  catchEnjiHttp (response.json.map fun payload =>
    match payload with
    | .obj fields => (Json.lookup "message" fields).str?
    | _ => none) none

/-- The recovery lane of a response that brought no successor. -/
def responseContinuation (response : EnjiHttpResponse) : Except PyError Continuation := do
  let message ← responseMessage response
  if response.statusCode = 502 ∧ message = some "failed to refresh session" then
    return .lane .safeRetry
  else
    let rejected ← if isHttpAuthFailure response.statusCode then
        isRefreshTokenInvalidResponse response else .ok false
    if rejected then return .lane .validationRecovery
    else if isHttpAuthFailure response.statusCode ∧
        (message = some "session is no longer valid" ∨ message = some "account is blocked") then
      return .stop
    else return .lane .ambiguityReplay

/-- A bounded label of a response. -/
def normalizedResponseClass (response : EnjiHttpResponse) : Except PyError String :=
  if response.statusCode = 200 then .ok "success_or_incomplete_success"
  else (responseContinuation response).map fun continuation =>
    "http_" ++ toString response.statusCode ++ "_" ++ continuation.text

/-! ### Cookie headers -/

variable (codec : CookieCodec)

def isAuthCookieName (name : String) : Bool := name = "access_token" || name = "refresh_token"

/-- Whether a text starts with a minus sign or is zero. -/
def isExpiredMaxAge (maxAge : String) : Bool :=
  maxAge.toList.head? = some '-' || maxAge = "0"

def morselDeletesCookie (env : Env) (morsel : Morsel) : Auth Bool := do
  if isExpiredMaxAge morsel.maxAge then return true
  else if morsel.expires = "" then return false
  else
    match codec.parseDate morsel.expires with
    | .malformed => return false
    | .overflow => raise .overflowError
    | .instant expiresAt =>
      let now ← wallNow env
      return decide (expiresAt ≤ now.micros)

def isPersistableAuthCookieUpdate (env : Env) (name : String) (morsel : Morsel) : Auth Bool := do
  if !isAuthCookieName name then return true
  else if morsel.value = "" then return false
  else
    let deletes ← morselDeletesCookie codec env morsel
    return !deletes

def authCookieHeader (jar : CookieJar) : Auth String :=
  match jar.filter fun item => isAuthCookieName item.1 with
  | [] => raise .valueError
  | items => return "; ".intercalate (items.map fun item => item.1 ++ "=" ++ item.2.codedValue)

def loadCookie (jar : CookieJar) (header : String) : Auth CookieJar :=
  match codec.load jar header with
  | some jar => return jar
  | none => raise .cookieError

/-- Applies the updates of one response header. -/
def applyUpdates (env : Env) (cookie : CookieJar) : CookieJar → Auth CookieJar
  | [] => return cookie
  | (name, morsel) :: updates => do
    let persistable ← isPersistableAuthCookieUpdate codec env name morsel
    if !persistable then raise .valueError
    else
      applyUpdates env (if isAuthCookieName name then codec.assign cookie name morsel.value
        else cookie) updates

/-- Applies the updates of all response headers. -/
def applyHeaders (env : Env) (cookie : CookieJar) : List String → Auth CookieJar
  | [] => return cookie
  | header :: headers => do
    let updated ← loadCookie codec [] header
    let cookie ← applyUpdates codec env cookie updated
    applyHeaders env cookie headers

def mergeSetCookieHeaders (env : Env) (cookieHeader : String) (setCookieHeaders : List String) :
    Auth String := do
  let cookie ← loadCookie codec [] cookieHeader
  let cookie ← applyHeaders codec env cookie setCookieHeaders
  authCookieHeader cookie

/-- The names the response headers set. -/
def setCookieNames (jar : CookieJar) : List String → Auth (List String)
  | [] => return jar.map Prod.fst
  | header :: headers => do
    let jar ← loadCookie codec jar header
    setCookieNames jar headers

/-- The complete successor of a response, when it carries one. -/
def successfulReplacement (env : Env) (source : StoredAuth) (response : EnjiHttpResponse) :
    Auth (Option String) :=
  if response.statusCode ≠ 200 then return none
  else
    match source.credential with
    | .bearerToken _ => return none
    | .cookie cookieHeader =>
      tryCatch
        (do
          let names ← setCookieNames codec [] response.setCookieHeaders
          if "access_token" ∈ names ∧ "refresh_token" ∈ names then
            let merged ← mergeSetCookieHeaders codec env cookieHeader response.setCookieHeaders
            return some merged
          else return none)
        fun e => if e = .cookieError || e.isValueError then return none else raise e

def cookieValue (cookieHeader name : String) : Except PyError (Option String) :=
  match codec.load [] cookieHeader with
  | some jar => .ok ((jar.lookup name).map Morsel.value)
  | none => .error .cookieError

/-! ### Tokens -/

/-- The microseconds between year one and the epoch of timestamps. -/
def epochMicros : Int := 62135596800000000

def datetimeOfTimestamp (seconds micros : Int) : Except PyError Datetime :=
  if seconds < -2 ^ 63 ∨ 2 ^ 63 ≤ seconds then .error .overflowError
  else if seconds < -67768040609740800 ∨ 67768036191676799 < seconds then
    .error (.osError "Value too large for defined data type")
  else
    match Datetime.ofMicros? (epochMicros + micros) with
    | some t => .ok t
    | none => .error .valueError

/-- A rational rounded to an integer, ties to even. -/
def roundHalfEven (q : Rat) : Int :=
  let below := q.floor
  let rest := q - below
  if rest < 1 / 2 then below
  else if 1 / 2 < rest then below + 1
  else if below % 2 = 0 then below else below + 1

def fromTimestamp : Json → Except PyError (Option Datetime)
  | .int n => (datetimeOfTimestamp n (n * 1000000)).map some
  | .float (.finite q) =>
    (datetimeOfTimestamp (roundHalfEven (q * 1000000) / 1000000)
      (roundHalfEven (q * 1000000))).map some
  | .float .nan => .error .valueError
  | .float (.infinity _) => .error .overflowError
  | _ => .ok none

/-- When a token expires, if it says so. -/
def jwtExpiresAt (token : String) : Except PyError (Option Datetime) :=
  match token.toList.splitOn '.' with
  | _ :: segment :: _ =>
    match codec.tokenPayload (String.ofList segment) with
    | some (.obj payload) => fromTimestamp (Json.lookup "exp" payload)
    | _ => .ok none
  | _ => .ok none

def refreshDiagnosticFields (source : StoredAuth) (replacementCookieHeader : Option String)
    (now : Datetime) : Except PyError (List (String × Json)) :=
  match source.credential with
  | .bearerToken _ => .ok []
  | .cookie sourceCookieHeader => do
    let accessToken ← cookieValue codec sourceCookieHeader "access_token"
    let accessExpiry ← match accessToken with
      | some token => jwtExpiresAt codec token
      | none => .ok none
    let expiry := match accessExpiry with
      | some expiry => [("access_expires_in_seconds",
          Json.int (Int.tdiv (expiry.sub now) 1000000))]
      | none => []
    match replacementCookieHeader with
    | none => return expiry
    | some replacement => do
      let sourceRefresh ← cookieValue codec sourceCookieHeader "refresh_token"
      let replacementRefresh ← cookieValue codec replacement "refresh_token"
      match sourceRefresh, replacementRefresh with
      | some a, some b => return expiry ++ [("refresh_token_changed", .bool (a ≠ b))]
      | _, _ => return expiry

/-! ### Reading a response -/

section Replacement

variable {codec} {env : Env} {source : StoredAuth} {env' : Env} (hwall : env'.wall = env.wall)
include hwall

lemma isPersistableAuthCookieUpdate_congr (name : String) (morsel : Morsel) :
    isPersistableAuthCookieUpdate codec env' name morsel =
      isPersistableAuthCookieUpdate codec env name morsel := by
  have hnow : wallNow env' = wallNow env := by
    unfold wallNow
    rw [hwall]
  simp only [isPersistableAuthCookieUpdate, morselDeletesCookie, hnow]

lemma applyUpdates_congr (updates cookie : CookieJar) :
    applyUpdates codec env' cookie updates = applyUpdates codec env cookie updates := by
  induction updates generalizing cookie with
  | nil => rfl
  | cons item updates ih =>
    simp only [applyUpdates, isPersistableAuthCookieUpdate_congr hwall, ih]

lemma applyHeaders_congr (headers : List String) (cookie : CookieJar) :
    applyHeaders codec env' cookie headers = applyHeaders codec env cookie headers := by
  induction headers generalizing cookie with
  | nil => rfl
  | cons header headers ih => simp only [applyHeaders, applyUpdates_congr hwall, ih]

/-- A response is read the same whatever the storage does. -/
lemma successfulReplacement_congr (response : EnjiHttpResponse) :
    successfulReplacement codec env' source response =
      successfulReplacement codec env source response := by
  simp only [successfulReplacement, mergeSetCookieHeaders, applyHeaders_congr hwall]

end Replacement

end EnjiGuard.AuthSession
