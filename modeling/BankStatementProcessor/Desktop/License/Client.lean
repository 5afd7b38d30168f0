import BankStatementProcessor.Desktop.License.Storage

/-!
# The licence server as the application sees it

The two calls it makes on its own, and how `HttpLicenseClient` reads an HTTP response. A body
is given by what the JSON library reads of it.
-/

namespace Desktop.License

inductive ApiError
  /-- No server is configured. -/
  | noServerConfigured
  | invalidCredentials
  | unauthorized
  | licenseNotFound
  | deviceNotActivated
  | deviceLimitReached
  | licenseExpired
  | licenseRevoked
  | licenseSuspended
  | rateLimited
  /-- Treated as offline, and not as a definitive answer. -/
  | networkError (message : String)
  | serverError (message : String)
  deriving DecidableEq, Repr

structure ActivateLicenseRequest where
  licenseKey : String
  deviceId : String
  machineFingerprint : String
  deviceLabel : String
  deriving DecidableEq, Repr

structure ActivateLicenseResponse where
  licenseId : String
  customerId : String
  subscriptionType : String
  status : String
  expiresAt : Option String
  gracePeriodDays : ℤ
  deriving DecidableEq, Repr

structure ValidateLicenseRequest where
  licenseId : String
  deviceId : String
  machineFingerprint : String
  clientClock : String
  deriving DecidableEq, Repr

structure ValidateLicenseResponse where
  status : String
  expiresAt : Option String
  gracePeriodDays : ℤ
  serverTime : String
  fingerprintMatched : Bool
  deriving DecidableEq, Repr

/-- `LicenseApiClient`, as far as the licence of this installation needs it. -/
structure LicenseApiClient where
  activateLicense : ActivateLicenseRequest → Except ApiError ActivateLicenseResponse
  validateLicense : ValidateLicenseRequest → Except ApiError ValidateLicenseResponse

def offlineClient : LicenseApiClient where
  activateLicense _ := .error .noServerConfigured
  validateLicense _ := .error .noServerConfigured

/-! ## HTTP -/

/-- A response, with its body read as the expected one and as an error envelope. -/
structure HttpResponse (Resp : Type) where
  status : ℕ
  json : Except String Resp
  errorCode : Option String

/-- What becomes of a request. -/
inductive HttpAnswer (Resp : Type)
  | sendFailed (message : String)
  | response (r : HttpResponse Resp)

def HttpResponse.isSuccess {Resp : Type} (r : HttpResponse Resp) : Bool :=
  200 ≤ r.status ∧ r.status < 300

/-- `DEVICE_MISMATCH` is not among the codes. -/
def mapErrorCode (status : ℕ) (code : Option String) : ApiError :=
  if code = some "LICENSE_NOT_FOUND" then .licenseNotFound
  else if code = some "DEVICE_NOT_ACTIVATED" then .deviceNotActivated
  else if code = some "DEVICE_LIMIT_REACHED" then .deviceLimitReached
  else if code = some "LICENSE_EXPIRED" then .licenseExpired
  else if code = some "LICENSE_REVOKED" then .licenseRevoked
  else if code = some "INVALID_CREDENTIALS" then .invalidCredentials
  else if code = some "UNAUTHORIZED" then .unauthorized
  else if code = some "RATE_LIMITED" then .rateLimited
  else .serverError s!"server returned HTTP {status}"

def handleResponse {Resp : Type} (r : HttpResponse Resp) : Except ApiError Resp :=
  if r.isSuccess then
    match r.json with
    | .ok resp => .ok resp
    | .error e => .error (.networkError s!"malformed server response: {e}")
  else .error (mapErrorCode r.status r.errorCode)

def post {Resp : Type} : HttpAnswer Resp → Except ApiError Resp
  | .sendFailed message => .error (.networkError message)
  | .response r => handleResponse r

/-- `HttpLicenseClient` in front of a server. -/
def httpLicenseClient (activate : ActivateLicenseRequest → HttpAnswer ActivateLicenseResponse)
    (validate : ValidateLicenseRequest → HttpAnswer ValidateLicenseResponse) :
    LicenseApiClient where
  activateLicense request := post (activate request)
  validateLicense request := post (validate request)

end Desktop.License
