import GetPlatform.Text

set_option autoImplicit false

/-! # The audit of requests

Every request leaves a line in the audit log, written when its handler has answered or failed. What
the line says was done, and to what, is read off the URL of the request. -/

namespace GetPlatform.Audit

inductive AuditAction where
  | LOGIN | LOGOUT | REGISTER | CREATE | UPDATE | DELETE | VIEW | PAYMENT | EXPORT | IMPORT
  deriving DecidableEq

inductive AuditResource where
  | USER | STUDENT | SCHOOL | OFFER | APPLICATION | PAYMENT | REPORT | NOTIFICATION | SYSTEM
  deriving DecidableEq

/-- What a request is recorded as. -/
structure Classification where
  action : AuditAction
  resource : AuditResource
  resourceId : Option String
  deriving DecidableEq

structure AuditLogData where
  userId : Option String
  action : AuditAction
  resource : AuditResource
  resourceId : Option String
  ip : Option String
  userAgent : Option String
  status : String
  errorMessage : Option String
  deriving DecidableEq

def AuditLogData.classification (data : AuditLogData) : Classification :=
  ⟨data.action, data.resource, data.resourceId⟩

/-- A request, with the `id` of its route parameters. -/
structure Request where
  user : Option String
  method : String
  url : String
  id : Option String
  ip : Option String
  remoteAddress : Option String
  userAgent : Option String

/-! ## The interceptor -/

def methodAction (method : String) : AuditAction :=
  match method with
  | "GET" => .VIEW
  | "POST" => .CREATE
  | "PUT" => .UPDATE
  | "PATCH" => .UPDATE
  | "DELETE" => .DELETE
  | _ => .VIEW

def parseRoute (method url : String) (id : Option String) : Classification :=
  let action := methodAction method
  if includes url "/auth/login" then ⟨.LOGIN, .USER, none⟩
  else if includes url "/auth/register" then ⟨.REGISTER, .USER, none⟩
  else if includes url "/auth/logout" then ⟨.LOGOUT, .USER, none⟩
  else if includes url "/students" || includes url "/student" then ⟨action, .STUDENT, id⟩
  else if includes url "/schools" then ⟨action, .SCHOOL, id⟩
  else if includes url "/offers" then ⟨action, .OFFER, id⟩
  else if includes url "/applications" then ⟨action, .APPLICATION, id⟩
  else if includes url "/payments" then
    if method = "POST" ∧ includes url "/payments/initiate" then ⟨.PAYMENT, .PAYMENT, id⟩
    else ⟨action, .PAYMENT, id⟩
  else if includes url "/reports" then ⟨action, .REPORT, none⟩
  else if includes url "/notifications" then ⟨action, .NOTIFICATION, none⟩
  else ⟨action, .SYSTEM, none⟩

/-- `intercept`: what is logged once the handler has answered or failed with a message. -/
def intercept (request : Request) (outcome : Except String Unit) : AuditLogData :=
  let ip := if request.ip.getD "" ≠ "" then request.ip else request.remoteAddress
  let ⟨action, resource, resourceId⟩ := parseRoute request.method request.url request.id
  match outcome with
  | .ok () =>
      { userId := request.user, action, resource, resourceId, ip, userAgent := request.userAgent,
        status := "SUCCESS", errorMessage := none }
  | .error message =>
      { userId := request.user, action, resource, resourceId, ip, userAgent := request.userAgent,
        status := "FAILED", errorMessage := some message }

theorem classification_intercept (request : Request) (outcome : Except String Unit) :
    (intercept request outcome).classification =
      parseRoute request.method request.url request.id := by
  cases outcome <;> rfl

/-! ## The chain of fragments -/

/-- What a URL is searched for. -/
inductive Fragment where
  | login | register | logout | student | schools | offers | applications | initiate | payments
  | reports | notifications
  deriving DecidableEq

def Fragment.text : Fragment → String
  | login => "/auth/login"
  | register => "/auth/register"
  | logout => "/auth/logout"
  | student => "/student"
  | schools => "/schools"
  | offers => "/offers"
  | applications => "/applications"
  | initiate => "/payments/initiate"
  | payments => "/payments"
  | reports => "/reports"
  | notifications => "/notifications"

/-- The order of the search. A payment is told from its initiation for a `POST` only. -/
def chain (method : String) : List Fragment :=
  [.login, .register, .logout, .student, .schools, .offers, .applications] ++
    (if method = "POST" then [.initiate] else []) ++ [.payments, .reports, .notifications]

/-- What a request is recorded as, by the fragment that was found first. -/
def classify (method : String) (id : Option String) : Option Fragment → Classification
  | some .login => ⟨.LOGIN, .USER, none⟩
  | some .register => ⟨.REGISTER, .USER, none⟩
  | some .logout => ⟨.LOGOUT, .USER, none⟩
  | some .student => ⟨methodAction method, .STUDENT, id⟩
  | some .schools => ⟨methodAction method, .SCHOOL, id⟩
  | some .offers => ⟨methodAction method, .OFFER, id⟩
  | some .applications => ⟨methodAction method, .APPLICATION, id⟩
  | some .initiate => ⟨.PAYMENT, .PAYMENT, id⟩
  | some .payments => ⟨methodAction method, .PAYMENT, id⟩
  | some .reports => ⟨methodAction method, .REPORT, none⟩
  | some .notifications => ⟨methodAction method, .NOTIFICATION, none⟩
  | none => ⟨methodAction method, .SYSTEM, none⟩

theorem methodAction_ne_payment (method : String) : methodAction method ≠ .PAYMENT := by
  unfold methodAction
  split <;> simp

/-- The fragment that was found, read back from what was recorded. -/
def foundIn (recorded : Classification) : Option Fragment :=
  match recorded.resource, recorded.action with
  | .USER, .LOGIN => some .login
  | .USER, .REGISTER => some .register
  | .USER, _ => some .logout
  | .STUDENT, _ => some .student
  | .SCHOOL, _ => some .schools
  | .OFFER, _ => some .offers
  | .APPLICATION, _ => some .applications
  | .PAYMENT, .PAYMENT => some .initiate
  | .PAYMENT, _ => some .payments
  | .REPORT, _ => some .reports
  | .NOTIFICATION, _ => some .notifications
  | .SYSTEM, _ => none

theorem foundIn_classify (method : String) (id : Option String) (found : Option Fragment) :
    foundIn (classify method id found) = found := by
  have hpay := methodAction_ne_payment method
  cases found with
  | none => rfl
  | some fragment =>
    cases fragment with
    | payments =>
      show foundIn ⟨methodAction method, .PAYMENT, id⟩ = _
      unfold foundIn
      cases h : methodAction method <;> simp_all
    | _ => rfl

/-- Different fragments are recorded differently. -/
theorem classify_injective (method : String) (id : Option String) :
    Function.Injective (classify method id) :=
  Function.LeftInverse.injective (foundIn_classify method id)

theorem includes_of_includes {url longer shorter : String} (h : includes url longer)
    (hsub : shorter.toList <:+: longer.toList) : includes url shorter := by
  simp only [includes, decide_eq_true_eq] at h ⊢
  exact hsub.trans h

theorem students_or_student (url : String) :
    (includes url "/students" || includes url "/student") = includes url "/student" := by
  by_cases h : includes url "/students"
  · rw [h, includes_of_includes h (by decide), Bool.true_or]
  · simp [h]

theorem parseRoute_eq (method url : String) (id : Option String) :
    parseRoute method url id =
      classify method id ((chain method).find? fun fragment => includes url fragment.text) := by
  have hsub : includes url "/payments/initiate" → includes url "/payments" :=
    fun h => includes_of_includes h (by decide)
  unfold parseRoute chain
  rw [students_or_student]
  simp only [List.cons_append, List.nil_append, List.find?_cons, Fragment.text]
  cases includes url "/auth/login"
  case true => rfl
  cases includes url "/auth/register"
  case true => rfl
  cases includes url "/auth/logout"
  case true => rfl
  cases includes url "/student"
  case true => rfl
  cases includes url "/schools"
  case true => rfl
  cases includes url "/offers"
  case true => rfl
  cases includes url "/applications"
  case true => rfl
  by_cases hmethod : method = "POST"
  · simp only [hmethod, if_true, List.find?_cons, true_and, List.cons_append, List.nil_append]
    cases hinitiate : includes url "/payments/initiate"
    case true => rw [hsub hinitiate]; rfl
    cases includes url "/payments"
    case true => rfl
    cases includes url "/reports"
    case true => rfl
    cases includes url "/notifications" <;> rfl
  · simp only [hmethod, if_false, List.find?_cons, false_and, List.nil_append]
    cases includes url "/payments"
    case true => rfl
    cases includes url "/reports"
    case true => rfl
    cases includes url "/notifications" <;> rfl

/-! ## The query string -/

def url (path : String) : Option String → String
  | none => path
  | some query => path ++ "?" ++ query

theorem includes_url (path : String) (query : Option String) (fragment : Fragment) :
    includes (url path query) fragment.text =
      (includes path fragment.text || includes (query.getD "") fragment.text) := by
  cases query with
  | none =>
    have hempty : includes "" fragment.text = false := by cases fragment <;> decide
    rw [url, Option.getD_none, hempty, Bool.or_false]
  | some query =>
    have hmark : '?' ∉ fragment.text.toList := by cases fragment <;> decide
    exact includes_append hmark path query

/-- The fragment that a query brings in: the first that stands in the chain above the path's own. -/
def brought (method path : String) (query : Option String) : Option Fragment :=
  brings (fun fragment => includes path fragment.text)
    (fun fragment => includes (query.getD "") fragment.text) (chain method)

/-- Two requests that differ in the query are recorded alike exactly when the queries bring in the
    same fragment, or both none. -/
theorem intercept_query_iff (request : Request) (path : String) (query query' : Option String)
    (outcome outcome' : Except String Unit) :
    (intercept { request with url := url path query } outcome).classification =
        (intercept { request with url := url path query' } outcome').classification ↔
      brought request.method path query = brought request.method path query' := by
  rw [classification_intercept, classification_intercept]
  show parseRoute request.method (url path query) request.id =
    parseRoute request.method (url path query') request.id ↔ _
  rw [parseRoute_eq, parseRoute_eq, (classify_injective _ _).eq_iff]
  simp only [includes_url]
  exact find?_or_eq_iff _ _ _ _

/-- The score given to an application is recorded as a login. -/
theorem query_recorded_as_login :
    ¬ ∀ (request : Request) (path : String) (query query' : Option String)
      (outcome outcome' : Except String Unit),
      (intercept { request with url := url path query } outcome).classification =
        (intercept { request with url := url path query' } outcome').classification := by
  intro h
  have hsame := h ⟨some "u1", "POST", "", some "42", some "10.0.0.1", none, none⟩
    "/api/applications/42/score" none (some "next=/auth/login") (.ok ()) (.ok ())
  revert hsame
  decide +kernel

end GetPlatform.Audit
