import EnjiGuard.Foundation.Double
import EnjiGuard.Foundation.IsoFormat
import EnjiGuard.Foundation.Json
import EnjiGuard.Foundation.Traversing

/-!
# Requests that are sent again

A request is sent once, or as often as its profile and the configuration allow, until a response
comes that is not one to retry. What becomes of each send, the headers, the clock and the jitter are
anything. The retrying itself is the library's: it asks whether to retry, how long to wait and
whether to stop, the last two in either order.
-/

namespace EnjiGuard.Transport

open Foundation

/-! ### Requests and responses -/

/-- What a request may do when it is sent more than once. -/
inductive RetryProfile
  | read
  | idempotentMutation
  | unsafeMutation
  | authRefresh
  | safeProbe
  deriving DecidableEq, Repr

/-- The profiles whose requests may be sent again. -/
def RetryProfile.canRetry (profile : RetryProfile) : Bool :=
  profile ∈ [.read, .safeProbe, .idempotentMutation]

/-- How often and how long to retry. -/
structure RetryConfig where
  total : ℤ := 3
  backoffFactor : ℚ := 1 / 2
  maxDelaySeconds : ℚ := 30
  jitterSeconds : ℚ := 1 / 2
  statusForcelist : List ℕ := [429, 500, 502, 503, 504]
  respectRetryAfterHeader : Bool := true
  deriving DecidableEq

/-- A request to the backend. -/
structure EnjiHttpRequest where
  method : String
  url : String
  operation : String
  headers : List (String × String)
  profile : RetryProfile := .read
  jsonBody : Option Json := none
  timeoutSeconds : ℚ := 20

structure HttpxResponse where
  statusCode : ℕ
  headers : List (String × String)
  content : List UInt8
  setCookies : List String
  deriving DecidableEq

/-- A response as the callers see it. -/
structure EnjiHttpResponse where
  statusCode : ℕ
  headers : List (String × String)
  content : List UInt8
  setCookieHeaders : List String
  deriving DecidableEq

def responseFromHttpx (response : HttpxResponse) : EnjiHttpResponse where
  statusCode := response.statusCode
  headers := response.headers
  content := response.content
  setCookieHeaders := response.setCookies

structure HttpxCall where
  method : String
  url : String
  headers : List (String × String)
  json : Option Json
  timeout : ℚ

def EnjiHttpRequest.call (request : EnjiHttpRequest) : HttpxCall where
  method := request.method
  url := request.url
  headers := request.headers
  json := request.jsonBody
  timeout := request.timeoutSeconds

/-- What becomes of a send. -/
inductive SendOutcome
  | response (response : HttpxResponse)
  | httpError (cause : String)
  deriving DecidableEq

/-- What is raised on the way: an error of the HTTP library, a response that is to be retried, or
something else. -/
inductive Raised
  | httpError (cause : String)
  | retryableResponse (response : HttpxResponse)
  | other (typeName : String)
  deriving DecidableEq

/-- An error that callers expect of a request. -/
structure EnjiHttpError where
  code : String
  message : String
  statusCode : Option ℕ := none
  retryAfterSeconds : Option ℕ := none
  deriving DecidableEq, Repr

def enjiTransportError (operation cause : String) : EnjiHttpError where
  code := "UPSTREAM"
  message := operation ++ " request failed: " ++ cause

/-- What a call raises: an expected error or anything else. -/
inductive CallError
  | expected (error : EnjiHttpError)
  | escaped (raised : Raised)
  deriving DecidableEq

/-! ### The time to wait -/

/-- A date of a mail header: a clock and, when it is aware, an offset below one day. -/
structure MailDate where
  clock : Datetime
  offset : Option Timedelta
  offset_lt : ∀ d ∈ offset, |d| < microsPerDay

/-- What becomes of reading a date: there is one, the text is refused, or another error is
raised. -/
inductive DateReading
  | date (parsed : MailDate)
  | refused
  | failed (typeName : String)

/-- The text functions a `Retry-After` header is read with. An integer that is not read is a value
error. -/
structure RetryAfterText where
  strip : String → String
  isDigit : String → Bool
  int : String → Option ℕ
  parsedateToDatetime : String → DateReading

/-- The exponent of half a unit in the last place of the largest floating point number. -/
def halfUnitExponent : ℕ := 970

/-- The first integer that is rounded beyond the largest floating point number. -/
def floatBound : ℕ := (2 ^ 54 - 1) * 2 ^ halfUnitExponent

/-- A number as a floating point number, without its rounding. -/
def float (n : ℕ) : Except Raised ℚ :=
  if n < floatBound then .ok n else .error (.other "OverflowError")

/-- A power of two as a floating point number. -/
def powerOfTwo (exponent : ℕ) : Except Raised ℚ :=
  if exponent < 1024 then .ok (2 ^ exponent) else .error (.other "OverflowError")

section

variable (text : RetryAfterText) (now : Datetime)

/-- The whole seconds until a date, none when it is over; without an offset it is in UTC. -/
def secondsUntil (parsed : MailDate) : ℕ :=
  (wholeSeconds (parsed.clock.micros - parsed.offset.getD 0 - now.micros)).toNat

/-- The seconds that a `Retry-After` text asks for. -/
def parseRetryAfter (rawValue : String) : Except Raised (Option ℕ) :=
  let stripped := text.strip rawValue
  if text.isDigit stripped then
    match text.int stripped with
    | some seconds => .ok (some seconds)
    | none => .error (.other "ValueError")
  else
    match text.parsedateToDatetime stripped with
    | .date parsed => .ok (some (secondsUntil now parsed))
    | .refused => .ok none
    | .failed typeName => .error (.other typeName)

/-- The `Retry-After` text of the headers. -/
def retryAfterText (headers : List (String × String)) : Option String :=
  (headers.lookup "retry-after").or (headers.lookup "Retry-After")

def retryAfterSeconds (headers : List (String × String)) : Except Raised (Option ℕ) :=
  match retryAfterText headers with
  | none => .ok none
  | some rawValue => parseRetryAfter text now rawValue

/-- The seconds that a failed attempt asks for, when it has a response. -/
def retryAfterFromAttempt : Raised → Except Raised (Option ℕ)
  | .retryableResponse response => retryAfterSeconds text now response.headers
  | _ => .ok none

end

/-- The delay that backs off exponentially, with a fraction of the jitter. -/
def backoffDelay (config : RetryConfig) (fraction : ℚ) (attemptNumber : ℕ) : Except Raised ℚ := do
  let power ← powerOfTwo (attemptNumber - 1)
  let growth := config.backoffFactor * power
  let cap := config.maxDelaySeconds
  return min cap (min cap growth + fraction * config.jitterSeconds)

/-- The delay before the next attempt, with the seconds that the attempt asks for. -/
def delayAfter (config : RetryConfig) (fraction : ℚ) (attemptNumber : ℕ) :
    Option ℕ → Except Raised ℚ
  | some retryAfter =>
    if config.respectRetryAfterHeader then
      (float retryAfter).map fun seconds => min seconds config.maxDelaySeconds
    else backoffDelay config fraction attemptNumber
  | none => backoffDelay config fraction attemptNumber

/-- The time to wait after an attempt has failed. -/
def retryWait (text : RetryAfterText) (config : RetryConfig) (now : Datetime) (fraction : ℚ)
    (attemptNumber : ℕ) (raised : Raised) : Except Raised ℚ := do
  let retryAfter ← retryAfterFromAttempt text now raised
  delayAfter config fraction attemptNumber retryAfter

/-! ### The call -/

/-- What a call meets: what becomes of its sends, the time when each delay is computed, and the
fraction of the jitter that is drawn for it. -/
structure Course where
  outcome : ℕ → SendOutcome
  now : ℕ → Datetime
  fraction : ℕ → ℚ
  fraction_nonneg : ∀ n, 0 ≤ fraction n
  fraction_le_one : ∀ n, fraction n ≤ 1

/-- What a call has done: the sends, the delays it asked for between them, and how it ends. -/
structure Call (α : Type) where
  sends : List HttpxCall
  delays : List ℚ
  result : α

/-- A response is raised when it is one to retry. -/
def requestOnce (config : RetryConfig) (request : EnjiHttpRequest) :
    SendOutcome → Except Raised HttpxResponse
  | .response response =>
    if request.profile.canRetry ∧ response.statusCode ∈ config.statusForcelist then
      .error (.retryableResponse response)
    else .ok response
  | .httpError cause => .error (.httpError cause)

def isRetryableAttempt : Raised → Bool
  | .httpError _ => true
  | .retryableResponse _ => true
  | .other _ => false

def stopAfterAttempt (maxAttemptNumber : ℤ) (attemptNumber : ℕ) : Bool :=
  maxAttemptNumber ≤ attemptNumber

section

variable (text : RetryAfterText) (config : RetryConfig) (request : EnjiHttpRequest)
variable (waitFirst : Bool) (course : Course)

/-- The delay after the `n`-th send has failed, counted from zero. -/
def waitAfter (n : ℕ) (raised : Raised) : Except Raised ℚ :=
  retryWait text config (course.now n) (course.fraction n) (n + 1) raised

/-- What the library does after the `n`-th send has failed: it waits, or it raises the failure of
the last attempt again. -/
def nextAction (n : ℕ) (raised : Raised) : Except Raised ℚ :=
  let stops := stopAfterAttempt (config.total + 1) (n + 1)
  if isRetryableAttempt raised = false then .error raised
  else if waitFirst then
    match waitAfter text config course n raised with
    | .error failure => .error failure
    | .ok delay => if stops then .error raised else .ok delay
  else if stops then .error raised
  else waitAfter text config course n raised

/-- The attempts from the `n`-th send on. Without fuel they have not ended. -/
def retryLoop : ℕ → ℕ → Option (Call (Except Raised HttpxResponse))
  | 0, _ => none
  | fuel + 1, n =>
    match requestOnce config request (course.outcome n) with
    | .ok response => some ⟨[request.call], [], .ok response⟩
    | .error raised =>
      match nextAction text config waitFirst course n raised with
      | .error failure => some ⟨[request.call], [], .error failure⟩
      | .ok delay =>
        (retryLoop fuel (n + 1)).map fun rest =>
          ⟨request.call :: rest.sends, delay :: rest.delays, rest.result⟩

/-- A response that was to be retried is returned after the last attempt. -/
def catchRetryable : Except Raised HttpxResponse → Except Raised HttpxResponse
  | .error (.retryableResponse response) => .ok response
  | result => result

/-- An error of the HTTP library becomes a transport error. -/
def convertError : Except Raised HttpxResponse → Except CallError EnjiHttpResponse
  | .ok response => .ok (responseFromHttpx response)
  | .error (.httpError cause) => .error (.expected (enjiTransportError request.operation cause))
  | .error raised => .error (.escaped raised)

def requestBlocking (fuel : ℕ) : Option (Call (Except CallError EnjiHttpResponse)) :=
  if ¬ request.profile.canRetry ∨ config.total ≤ 0 then
    some ⟨[request.call], [],
      convertError request (requestOnce config request (course.outcome 0))⟩
  else
    (retryLoop text config request waitFirst course fuel 0).map fun call =>
      ⟨call.sends, call.delays, convertError request (catchRetryable call.result)⟩

end

/-! ### What a call may do -/

/-- An outcome that a request is sent again after. -/
def Retryable (config : RetryConfig) : SendOutcome → Prop
  | .response response => response.statusCode ∈ config.statusForcelist
  | .httpError _ => True

instance (config : RetryConfig) (outcome : SendOutcome) : Decidable (Retryable config outcome) := by
  cases outcome <;> unfold Retryable <;> infer_instance

/-- What a call ends with after its last send. -/
def SendOutcome.ending (request : EnjiHttpRequest) :
    SendOutcome → Except CallError EnjiHttpResponse
  | .response received => .ok (responseFromHttpx received)
  | .httpError cause => .error (.expected (enjiTransportError request.operation cause))

def SendOutcome.raised : SendOutcome → Raised
  | .response received => .retryableResponse received
  | .httpError cause => .httpError cause

/-- The `Retry-After` text of an outcome. -/
def SendOutcome.retryAfter? : SendOutcome → Option String
  | .response received => retryAfterText received.headers
  | .httpError _ => none

/-- The delays of a configuration are not negative. -/
structure RetryConfig.NonnegDelays (config : RetryConfig) : Prop where
  backoff : 0 ≤ config.backoffFactor
  maxDelay : 0 ≤ config.maxDelaySeconds
  jitter : 0 ≤ config.jitterSeconds

section

variable (text : RetryAfterText) (config : RetryConfig) (request : EnjiHttpRequest)
variable (waitFirst : Bool) (course : Course)

/-- A call with a number of retries does what it may: the request is sent once when it must not be
repeated, and otherwise at most once more than configured; it is sent again only after an outcome to
retry; the delays are in their bounds; and the call ends with what became of the last send. -/
structure Disciplined (retries : ℕ) (call : Call (Except CallError EnjiHttpResponse)) : Prop where
  sends : call.sends = List.replicate (retries + 1) request.call
  once : request.profile ∈ [.unsafeMutation, .authRefresh] → call.sends.length = 1
  bounded : request.profile ∉ [.unsafeMutation, .authRefresh] →
    (call.sends.length : ℤ) ≤ config.total + 1
  stops : ∀ n < retries, Retryable config (course.outcome n)
  delays : ∀ delay ∈ call.delays, 0 ≤ delay ∧ delay ≤ config.maxDelaySeconds
  ends : call.result = (course.outcome retries).ending request

/-- A `Retry-After` text that is read: digits are an integer, and a floating point number when the
header is respected; anything else is a date or refused as one. -/
def Legible (rawValue : String) : Prop :=
  if text.isDigit (text.strip rawValue) then
    ∃ seconds, text.int (text.strip rawValue) = some seconds ∧
      (config.respectRetryAfterHeader = true → seconds < floatBound)
  else ∀ typeName, text.parsedateToDatetime (text.strip rawValue) ≠ .failed typeName

/-- A `Retry-After` text that takes the place of backing off. -/
def Decisive (rawValue : String) : Prop :=
  config.respectRetryAfterHeader = true ∧
    (text.isDigit (text.strip rawValue) = true ∨
      text.parsedateToDatetime (text.strip rawValue) ≠ .refused)

/-- The delay after a send can be computed: the text it comes with is read, and the send is among
the first 1024 unless the text decides. -/
def Timed (n : ℕ) (outcome : SendOutcome) : Prop :=
  (∀ rawValue ∈ outcome.retryAfter?, Legible text config rawValue) ∧
    (n < 1024 ∨ ∃ rawValue ∈ outcome.retryAfter?, Decisive text config rawValue)

/-- Nothing goes wrong in a call that may retry: there is no negative number of retries, a call
without retries meets no response to retry, and a delay that is asked for can be computed. -/
structure Calm : Prop where
  total_nonneg : 0 ≤ config.total
  first : config.total = 0 → ∀ response, course.outcome 0 = .response response →
    response.statusCode ∉ config.statusForcelist
  timed : ∀ n : ℕ, (n < config.total ∨ waitFirst = true ∧ 0 < config.total ∧ n = config.total) →
    (∀ m ≤ n, Retryable config (course.outcome m)) → Timed text config n (course.outcome n)

end

/-! ### Delays -/

section

variable {text : RetryAfterText} {config : RetryConfig} {now : Datetime} {fraction delay : ℚ}
variable {n attemptNumber seconds : ℕ} {raised failure : Raised} {rawValue : String}

/-- The seconds until a date are a floating point number. -/
lemma secondsUntil_lt (parsed : MailDate) : secondsUntil now parsed < floatBound := by
  have hclock := parsed.clock.inRange
  have hnow := now.inRange
  have hoffset : |parsed.offset.getD 0| < 86400000000 := by
    rcases hparsed : parsed.offset with _ | d
    · decide
    · exact parsed.offset_lt d hparsed
  have hspan : |(parsed.clock.micros : ℤ) - parsed.offset.getD 0 - now.micros| < 2 ^ 60 := by
    have hlow : (-86400000000 : ℤ) < (parsed.offset.getD 0 : ℤ) := (abs_lt.1 hoffset).1
    have hhigh : (86400000000 : ℤ) > (parsed.offset.getD 0 : ℤ) := (abs_lt.1 hoffset).2
    simp only [maxMicros, maxOrdinal, microsPerDay] at hclock hnow
    rw [abs_lt]
    constructor <;> omega
  have hseconds := wholeSeconds_le (parsed.clock.micros - parsed.offset.getD 0 - now.micros)
  have hbound : 2 ^ 61 ≤ floatBound := by
    have hunit : 2 ^ 61 ≤ 2 ^ halfUnitExponent :=
      pow_le_pow_right₀ one_le_two (show 61 ≤ halfUnitExponent by decide)
    rw [floatBound]
    generalize 2 ^ halfUnitExponent = unit at hunit ⊢
    omega
  rw [secondsUntil]
  omega

/-- Reading a `Retry-After` text raises nothing that callers expect. -/
lemma parseRetryAfter_error (h : parseRetryAfter text now rawValue = .error failure) :
    ∃ typeName, failure = .other typeName := by
  simp only [parseRetryAfter] at h
  split_ifs at h
  · split at h <;> cases h
    exact ⟨_, rfl⟩
  · split at h <;> cases h
    exact ⟨_, rfl⟩

lemma float_error (h : float seconds = .error failure) : failure = .other "OverflowError" := by
  rw [float] at h
  split_ifs at h
  exact (Except.error.inj h).symm

lemma backoffDelay_error (h : backoffDelay config fraction attemptNumber = .error failure) :
    failure = .other "OverflowError" := by
  rw [backoffDelay, powerOfTwo] at h
  split_ifs at h
  · cases h
  · exact (Except.error.inj h).symm

lemma backoffDelay_of_lt (h : n < 1024) :
    ∃ delay, backoffDelay config fraction (n + 1) = .ok delay := by
  rw [backoffDelay, powerOfTwo, Nat.add_sub_cancel, if_pos h]
  exact ⟨_, rfl⟩

lemma backoffDelay_mem (hconfig : config.NonnegDelays) (hfraction : 0 ≤ fraction)
    (h : backoffDelay config fraction attemptNumber = .ok delay) :
    0 ≤ delay ∧ delay ≤ config.maxDelaySeconds := by
  obtain ⟨power, hpower, hdelay⟩ := bind_eq_ok_iff.1 h
  have hpos : 0 ≤ power := by
    rw [powerOfTwo] at hpower
    split_ifs at hpower
    cases hpower
    positivity
  cases hdelay
  have hgrowth := mul_nonneg hconfig.backoff hpos
  have hjitter := mul_nonneg hfraction hconfig.jitter
  exact ⟨le_min hconfig.maxDelay (add_nonneg (le_min hconfig.maxDelay hgrowth) hjitter),
    min_le_left _ _⟩

lemma delayAfter_mem (hconfig : config.NonnegDelays) (hfraction : 0 ≤ fraction)
    {retryAfter : Option ℕ} (h : delayAfter config fraction attemptNumber retryAfter = .ok delay) :
    0 ≤ delay ∧ delay ≤ config.maxDelaySeconds := by
  rcases retryAfter with _ | seconds
  · exact backoffDelay_mem hconfig hfraction h
  · rw [delayAfter] at h
    split_ifs at h
    · rw [float] at h
      split_ifs at h <;> cases h
      exact ⟨le_min (Nat.cast_nonneg _) hconfig.maxDelay, min_le_right _ _⟩
    · exact backoffDelay_mem hconfig hfraction h

/-- A delay lies between zero and the maximum, whatever the header says. -/
lemma retryWait_mem (hconfig : config.NonnegDelays) (hfraction : 0 ≤ fraction)
    (h : retryWait text config now fraction attemptNumber raised = .ok delay) :
    0 ≤ delay ∧ delay ≤ config.maxDelaySeconds := by
  obtain ⟨retryAfter, -, hdelay⟩ := bind_eq_ok_iff.1 h
  exact delayAfter_mem hconfig hfraction hdelay

/-- A delay that cannot be computed raises nothing that callers expect. -/
lemma retryWait_error
    (h : retryWait text config now fraction attemptNumber raised = .error failure) :
    ∃ typeName, failure = .other typeName := by
  rcases hread : retryAfterFromAttempt text now raised with failure' | retryAfter
  · rw [retryWait, hread] at h
    cases h
    rcases raised with cause | response | typeName
    · cases hread
    · rw [retryAfterFromAttempt, retryAfterSeconds] at hread
      split at hread
      · cases hread
      · exact parseRetryAfter_error hread
    · cases hread
  · rw [retryWait, hread] at h
    replace h : delayAfter config fraction attemptNumber retryAfter = .error failure := h
    rw [delayAfter.eq_def] at h
    split at h
    · split_ifs at h
      · rcases hfloat : float _ with failure' | seconds
        · rw [hfloat] at h
          cases h
          exact ⟨_, float_error hfloat⟩
        · rw [hfloat] at h
          cases h
      · exact ⟨_, backoffDelay_error h⟩
    · exact ⟨_, backoffDelay_error h⟩

/-- The delay without a `Retry-After` text. -/
lemma exists_backoffDelay_iff :
    (∃ delay, backoffDelay config fraction (n + 1) = .ok delay) ↔ n < 1024 := by
  refine ⟨fun h => ?_, backoffDelay_of_lt⟩
  by_contra hlarge
  obtain ⟨delay, hdelay⟩ := h
  rw [backoffDelay, powerOfTwo, Nat.add_sub_cancel, if_neg hlarge] at hdelay
  cases hdelay

lemma exists_float_iff : (∃ x, float seconds = .ok x) ↔ seconds < floatBound := by
  rw [float]
  split_ifs with hlt <;> simp [hlt]

/-- The delay of a respected number of seconds. -/
lemma exists_delayAfter_some_iff :
    (∃ delay, delayAfter config fraction (n + 1) (some seconds) = .ok delay) ↔
      (config.respectRetryAfterHeader = true → seconds < floatBound) ∧
        (n < 1024 ∨ config.respectRetryAfterHeader = true) := by
  rw [delayAfter]
  split_ifs with hrespect
  · rw [← exists_float_iff]
    rcases float seconds with failure | x <;> simp [hrespect, Except.map]
  · rw [exists_backoffDelay_iff]
    simp [hrespect]

/-- The delay after a response that carries a `Retry-After` text. -/
lemma exists_delay_of_text_iff :
    (∃ delay, (parseRetryAfter text now rawValue >>=
        delayAfter config fraction (n + 1)) = .ok delay) ↔
      Legible text config rawValue ∧ (n < 1024 ∨ Decisive text config rawValue) := by
  rw [parseRetryAfter, Legible, Decisive]
  by_cases hdigit : text.isDigit (text.strip rawValue) = true
  · simp only [hdigit, if_true, true_or, and_true]
    rcases hint : text.int (text.strip rawValue) with _ | seconds
    · simp [bind, Except.bind]
    · simp only [bind, Except.bind, exists_delayAfter_some_iff, Option.some.injEq,
        exists_eq_left']
  · simp only [hdigit, if_false, Bool.false_eq_true, false_or]
    rcases hdate : text.parsedateToDatetime (text.strip rawValue) with parsed | _ | typeName
    · have hlt := @secondsUntil_lt now parsed
      simp only [bind, Except.bind, exists_delayAfter_some_iff, hlt, implies_true, true_and]
      simp
    · simp only [bind, Except.bind, delayAfter, exists_backoffDelay_iff]
      simp
    · simp [bind, Except.bind]

end

/-! ### The attempts -/

section

variable {text : RetryAfterText} {config : RetryConfig} {request : EnjiHttpRequest}
variable {waitFirst : Bool} {course : Course} {outcome : SendOutcome} {raised failure : Raised}
variable {response : HttpxResponse} {delay : ℚ} {fuel n : ℕ}
variable {attempts : Call (Except Raised HttpxResponse)}

/-- In a call that may retry, a send fails when its outcome is one to retry. -/
lemma requestOnce_of_canRetry (hretry : request.profile.canRetry = true) :
    (Retryable config outcome ∧ requestOnce config request outcome = .error outcome.raised) ∨
      (¬ Retryable config outcome ∧
        ∃ response, outcome = .response response ∧
          requestOnce config request outcome = .ok response) := by
  cases outcome with
  | response received =>
    by_cases hlisted : received.statusCode ∈ config.statusForcelist
    · exact .inl ⟨hlisted, if_pos ⟨hretry, hlisted⟩⟩
    · exact .inr ⟨hlisted, received, rfl, if_neg fun h => hlisted h.2⟩
  | httpError cause => exact .inl ⟨True.intro, rfl⟩

/-- A single send ends as its outcome says unless it is a response to retry. -/
lemma convertError_requestOnce_iff :
    convertError request (requestOnce config request outcome) = outcome.ending request ↔
      (request.profile.canRetry = true → ∀ received, outcome = .response received →
        received.statusCode ∉ config.statusForcelist) := by
  cases outcome with
  | response received =>
    rw [requestOnce]
    split_ifs with hlisted
    · refine iff_of_false (fun h => by cases h) fun h => ?_
      exact h hlisted.1 received rfl hlisted.2
    · refine iff_of_true rfl fun hretry other hother hmem => ?_
      cases hother
      exact hlisted ⟨hretry, hmem⟩
  | httpError cause =>
    exact iff_of_true rfl fun _ received hreceived => by cases hreceived

lemma isRetryableAttempt_raised (outcome : SendOutcome) :
    isRetryableAttempt outcome.raised = true := by
  cases outcome <;> rfl

lemma exists_waitAfter_iff :
    (∃ delay, waitAfter text config course n (course.outcome n).raised = .ok delay) ↔
      Timed text config n (course.outcome n) := by
  rw [waitAfter, retryWait, Timed]
  cases course.outcome n with
  | response received =>
    rw [SendOutcome.raised, retryAfterFromAttempt, retryAfterSeconds, SendOutcome.retryAfter?]
    rcases retryAfterText received.headers with _ | rawValue
    · simp only [bind, Except.bind, delayAfter, exists_backoffDelay_iff]
      simp
    · rw [exists_delay_of_text_iff]
      simp
  | httpError cause =>
    have hread : retryAfterFromAttempt text (course.now n) (.httpError cause) = .ok none := rfl
    rw [SendOutcome.raised, hread, SendOutcome.retryAfter?]
    simp only [bind, Except.bind, delayAfter, exists_backoffDelay_iff]
    simp

/-- What the library does after a send to retry: it raises the failure again after the last attempt,
it meets a delay that cannot be computed, or it waits. -/
lemma nextAction_cases :
    (nextAction text config waitFirst course n (course.outcome n).raised =
        .error (course.outcome n).raised ∧ config.total ≤ n ∧
        (waitFirst = true → Timed text config n (course.outcome n))) ∨
      (∃ typeName, nextAction text config waitFirst course n (course.outcome n).raised =
        .error (.other typeName) ∧ (n < config.total ∨ waitFirst = true) ∧
        ¬ Timed text config n (course.outcome n)) ∨
      ∃ delay, nextAction text config waitFirst course n (course.outcome n).raised = .ok delay ∧
        n < config.total ∧
        waitAfter text config course n (course.outcome n).raised = .ok delay := by
  have hstops : stopAfterAttempt (config.total + 1) (n + 1) = decide (config.total ≤ n) := by
    rw [stopAfterAttempt]
    push_cast
    exact decide_eq_decide.2 (by omega)
  simp only [nextAction, isRetryableAttempt_raised, hstops, Bool.true_eq_false, if_false,
    decide_eq_true_eq]
  rcases hwait : waitAfter text config course n (course.outcome n).raised with failure | delay
  · have htimed : ¬ Timed text config n (course.outcome n) :=
      mt exists_waitAfter_iff.2 fun hok => by simp [hwait] at hok
    obtain ⟨typeName, rfl⟩ := retryWait_error hwait
    by_cases hlast : config.total ≤ n
    · cases waitFirst with
      | true => exact .inr (.inl ⟨typeName, rfl, .inr rfl, htimed⟩)
      | false =>
        refine .inl ⟨?_, hlast, fun hfalse => absurd hfalse Bool.false_ne_true⟩
        rw [if_neg Bool.false_ne_true, if_pos hlast]
    · refine .inr (.inl ⟨typeName, ?_, .inl (not_le.1 hlast), htimed⟩)
      simp only [if_neg hlast, ite_self]
  · have htimed : Timed text config n (course.outcome n) := exists_waitAfter_iff.1 ⟨delay, hwait⟩
    by_cases hlast : config.total ≤ n
    · refine .inl ⟨?_, hlast, fun _ => htimed⟩
      simp only [if_pos hlast, ite_self]
    · refine .inr (.inr ⟨delay, ?_, not_le.1 hlast, rfl⟩)
      simp only [if_neg hlast, ite_self]

/-- How the attempts end with a send: with a response that is not to be retried, with the failure of
the last attempt, or with a delay that cannot be computed. -/
inductive Ended (text : RetryAfterText) (config : RetryConfig) (waitFirst : Bool) (course : Course)
    (n : ℕ) : Except Raised HttpxResponse → Prop
  | returned {response : HttpxResponse} (hretryable : ¬ Retryable config (course.outcome n))
      (houtcome : course.outcome n = .response response) : Ended text config waitFirst course n
        (.ok response)
  | exhausted (hretryable : Retryable config (course.outcome n)) (hlast : config.total ≤ n)
      (htimed : waitFirst = true → Timed text config n (course.outcome n)) :
      Ended text config waitFirst course n (.error (course.outcome n).raised)
  | untimed {typeName : String} (hretryable : Retryable config (course.outcome n))
      (hwaits : n < config.total ∨ waitFirst = true)
      (htimed : ¬ Timed text config n (course.outcome n)) :
      Ended text config waitFirst course n (.error (.other typeName))

/-- One send: the attempts end with it, or they wait and go on. -/
lemma retryLoop_cases (hretry : request.profile.canRetry = true) :
    (∃ result, Ended text config waitFirst course n result ∧
        retryLoop text config request waitFirst course (fuel + 1) n =
          some ⟨[request.call], [], result⟩) ∨
      ∃ delay, Retryable config (course.outcome n) ∧ n < config.total ∧
        waitAfter text config course n (course.outcome n).raised = .ok delay ∧
        retryLoop text config request waitFirst course (fuel + 1) n =
          (retryLoop text config request waitFirst course fuel (n + 1)).map fun rest =>
            ⟨request.call :: rest.sends, delay :: rest.delays, rest.result⟩ := by
  rw [retryLoop]
  rcases @requestOnce_of_canRetry config request (course.outcome n) hretry with
    ⟨hretryable, honce⟩ | ⟨hretryable, response, houtcome, honce⟩
  · rcases @nextAction_cases text config waitFirst course n with
      ⟨hnext, hlast, htimed⟩ | ⟨typeName, hnext, hwaits, htimed⟩ | ⟨delay, hnext, hlast, hwait⟩
    · simp only [honce, hnext]
      exact .inl ⟨_, .exhausted hretryable hlast htimed, rfl⟩
    · simp only [honce, hnext]
      exact .inl ⟨_, .untimed hretryable hwaits htimed, rfl⟩
    · simp only [honce, hnext]
      exact .inr ⟨delay, hretryable, hlast, hwait, rfl⟩
  · simp only [honce]
    exact .inl ⟨_, .returned hretryable houtcome, rfl⟩

/-- The attempts from the `n`-th send on, after a number of retries. -/
structure Attempted (text : RetryAfterText) (config : RetryConfig) (request : EnjiHttpRequest)
    (waitFirst : Bool) (course : Course) (n retries : ℕ)
    (attempts : Call (Except Raised HttpxResponse)) : Prop where
  sends : attempts.sends = List.replicate (retries + 1) request.call
  bounded : (n : ℤ) + retries ≤ config.total
  passed : ∀ m, n ≤ m → m < n + retries →
    Retryable config (course.outcome m) ∧ Timed text config m (course.outcome m)
  delays : ∀ delay ∈ attempts.delays, 0 ≤ delay ∧ delay ≤ config.maxDelaySeconds
  ends : Ended text config waitFirst course (n + retries) attempts.result

/-- The attempts end: none comes after the configured number of retries. -/
lemma exists_attempted (hretry : request.profile.canRetry = true)
    (hconfig : config.NonnegDelays) (hn : n ≤ config.total) (hfuel : config.total < n + fuel) :
    ∃ attempts retries, retryLoop text config request waitFirst course fuel n = some attempts ∧
      Attempted text config request waitFirst course n retries attempts := by
  induction fuel generalizing n with
  | zero =>
    rw [Nat.cast_zero, add_zero] at hfuel
    exact absurd hfuel (not_lt.2 hn)
  | succ fuel ih =>
    rcases @retryLoop_cases text config request waitFirst course fuel n hretry with
      ⟨result, hended, hloop⟩ | ⟨delay, hretryable, hlast, hwait, hloop⟩
    · refine ⟨_, 0, hloop, rfl, ?_, fun m hle hlt => absurd hlt (not_lt.2 hle),
        fun _ hmem => absurd hmem List.not_mem_nil, hended⟩
      rwa [Nat.cast_zero, add_zero]
    · push_cast at hfuel ih
      obtain ⟨rest, retries, hrest, hattempted⟩ := @ih (n + 1) (by push_cast; omega)
        (by push_cast; omega)
      rw [hrest] at hloop
      refine ⟨_, retries + 1, hloop, ?_, ?_, fun m hle hlt => ?_, fun d hmem => ?_, ?_⟩
      · show request.call :: rest.sends = List.replicate (retries + 1 + 1) request.call
        rw [hattempted.sends]
        rfl
      · have hbounded := hattempted.bounded
        push_cast at hbounded ⊢
        omega
      · rcases hle.eq_or_lt with rfl | hlater
        · exact ⟨hretryable, exists_waitAfter_iff.1 ⟨delay, hwait⟩⟩
        · exact hattempted.passed m hlater (by omega)
      · rcases List.mem_cons.1 hmem with rfl | hmem
        · exact retryWait_mem hconfig (course.fraction_nonneg n) hwait
        · exact hattempted.delays d hmem
      · rw [← Nat.add_assoc, Nat.add_right_comm]
        exact hattempted.ends

/-- Attempts that end without meeting a delay that cannot be computed end the call as their last
outcome says. -/
lemma convertError_of_ended {result : Except Raised HttpxResponse}
    (hended : Ended text config waitFirst course n result) :
    convertError request (catchRetryable result) = (course.outcome n).ending request ∨
      Retryable config (course.outcome n) ∧ (n < config.total ∨ waitFirst = true) ∧
        ¬ Timed text config n (course.outcome n) ∧
        ∃ typeName, convertError request (catchRetryable result) =
          .error (.escaped (.other typeName)) := by
  cases hended with
  | returned hretryable houtcome =>
    rw [houtcome]
    exact .inl rfl
  | exhausted hretryable hlast htimed =>
    cases course.outcome n <;> exact .inl rfl
  | untimed hretryable hwaits htimed =>
    exact .inr ⟨hretryable, hwaits, htimed, _, rfl⟩

end

/-! ### The discipline -/

section

variable {text : RetryAfterText} {config : RetryConfig} {request : EnjiHttpRequest}
variable {waitFirst : Bool} {course : Course} {fuel : ℕ}

lemma canRetry_eq_false_iff {profile : RetryProfile} :
    profile.canRetry = false ↔ profile ∈ [.unsafeMutation, .authRefresh] := by
  cases profile <;> decide

/-- A single send is all that a call may do when it has no retries. -/
lemma disciplined_single
    (hends : convertError request (requestOnce config request (course.outcome 0)) =
      (course.outcome 0).ending request)
    (htotal : request.profile.canRetry = true → 0 ≤ config.total) :
    Disciplined config request course 0
      ⟨[request.call], [],
        convertError request (requestOnce config request (course.outcome 0))⟩ where
  sends := rfl
  once _ := rfl
  bounded hprofile := by
    have hnonneg := htotal (Bool.not_eq_false _ ▸ mt canRetry_eq_false_iff.1 hprofile)
    simpa using hnonneg
  stops n hn := absurd hn (Nat.not_lt_zero n)
  delays _ hmem := absurd hmem List.not_mem_nil
  ends := hends

lemma requestBlocking_of_retryLoop {attempts : Call (Except Raised HttpxResponse)}
    (hretry : request.profile.canRetry = true) (htotal : 0 < config.total)
    (hloop : retryLoop text config request waitFirst course fuel 0 = some attempts) :
    requestBlocking text config request waitFirst course fuel =
      some ⟨attempts.sends, attempts.delays,
        convertError request (catchRetryable attempts.result)⟩ := by
  rw [requestBlocking, if_neg (by simpa [hretry] using htotal), hloop]
  rfl

/-- Attempts without a delay that cannot be computed are all that a call may do. -/
lemma disciplined_of_calm (hretry : request.profile.canRetry = true)
    (hconfig : config.NonnegDelays) (htotal : 0 < config.total) (hfuel : config.total < fuel)
    (hcalm : Calm text config waitFirst course) :
    ∃ call retries, requestBlocking text config request waitFirst course fuel = some call ∧
      Disciplined config request course retries call := by
  obtain ⟨attempts, retries, hloop, hattempted⟩ := @exists_attempted text config request waitFirst
    course fuel 0 hretry hconfig (by simpa using htotal.le) (by simpa using hfuel)
  obtain ⟨hsends, hbounded, hpassed, hdelays, hended⟩ := hattempted
  simp only [Nat.cast_zero, zero_add] at hbounded hpassed hended
  refine ⟨_, retries, requestBlocking_of_retryLoop hretry htotal hloop, hsends,
    fun hprofile => ?_, fun _ => ?_, fun n hn => (hpassed n (Nat.zero_le n) hn).1, hdelays, ?_⟩
  · exact absurd ((canRetry_eq_false_iff.2 hprofile).symm.trans hretry) Bool.false_ne_true
  · rw [hsends, List.length_replicate]
    push_cast
    omega
  · rcases @convertError_of_ended text config request waitFirst course retries _ hended with
      hends | ⟨hlast, hwaits, huntimed, -⟩
    · exact hends
    · refine absurd (hcalm.timed retries ?_ fun m hm => ?_) huntimed
      · rcases hbounded.lt_or_eq with hlt | heq
        · exact .inl hlt
        · exact .inr ⟨hwaits.resolve_left heq.not_lt, htotal, heq⟩
      · rcases hm.lt_or_eq with hlt | rfl
        · exact (hpassed m (Nat.zero_le m) hlt).1
        · exact hlast

/-- A call that does what it may meets no delay that cannot be computed. -/
lemma timed_of_disciplined (hretry : request.profile.canRetry = true)
    (hconfig : config.NonnegDelays) (htotal : 0 < config.total) (hfuel : config.total < fuel)
    {retries n : ℕ} {call : Call (Except CallError EnjiHttpResponse)}
    (hcall : requestBlocking text config request waitFirst course fuel = some call)
    (hdisciplined : Disciplined config request course retries call)
    (hn : n < config.total ∨ waitFirst = true ∧ 0 < config.total ∧ n = config.total)
    (hretryable : ∀ m ≤ n, Retryable config (course.outcome m)) :
    Timed text config n (course.outcome n) := by
  obtain ⟨attempts, last, hloop, hattempted⟩ := @exists_attempted text config request waitFirst
    course fuel 0 hretry hconfig (by simpa using htotal.le) (by simpa using hfuel)
  obtain ⟨hsends, hbounded, hpassed, -, hended⟩ := hattempted
  simp only [Nat.cast_zero, zero_add] at hbounded hpassed hended
  cases (requestBlocking_of_retryLoop hretry htotal hloop).symm.trans hcall
  obtain rfl : retries = last := by
    have hlength := congrArg List.length (hdisciplined.sends.symm.trans hsends)
    simpa using hlength
  by_contra huntimed
  -- The attempts do not get past the send, and up to it every outcome is one to retry.
  have hle : retries ≤ n := by
    by_contra hlt
    exact huntimed (hpassed n (Nat.zero_le n) (not_le.1 hlt)).2
  cases hresult : attempts.result with
  | ok response =>
    rw [hresult] at hended
    cases hended with
    | returned hreturned _ => exact hreturned (hretryable retries hle)
  | error raised =>
    have hends := hdisciplined.ends
    rw [hresult] at hended hends
    cases hended with
    | exhausted _ hlast htimed =>
      obtain rfl : retries = n := by omega
      exact huntimed (htimed (hn.resolve_left (not_lt.2 hlast)).1)
    | untimed _ _ _ => cases hlast : course.outcome retries <;> rw [hlast] at hends <;> cases hends

end

/-- Text functions for headers of digits: a superscript counts as a digit, but is no integer. -/
def digitText : RetryAfterText where
  strip text := text
  isDigit text := text ≠ "" && text.toList.all fun c => c.isDigit || c = '²'
  int text :=
    if text.toList.all Char.isDigit then some (Nat.ofDigitChars 10 text.toList 0) else none
  parsedateToDatetime _ := .refused

/-- A response to every send. -/
def courseOf (response : HttpxResponse) : Course where
  outcome _ := .response response
  now _ := ⟨1, by decide⟩
  fraction _ := 0
  fraction_nonneg _ := Rat.le_refl
  fraction_le_one _ := zero_le_one

def probe : EnjiHttpRequest where
  method := "GET"
  url := "https://backend/api/user"
  operation := "user"
  headers := []

/-- A service that is unavailable once. -/
def unavailableOnce : Course where
  outcome n := .response (if n = 0 then ⟨503, [], [], []⟩ else ⟨200, [], [], []⟩)
  now _ := ⟨1, by decide⟩
  fraction _ := 0
  fraction_nonneg _ := Rat.le_refl
  fraction_le_one _ := zero_le_one

end EnjiGuard.Transport
