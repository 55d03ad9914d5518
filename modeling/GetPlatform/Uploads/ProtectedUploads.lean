import GetPlatform.Uploads.Site

set_option autoImplicit false

/-! # The router of protected files

The routes of `createProtectedUploadsRouter`. Each decides from the path and the rows whether the caller
may have the file, and redirects to its object. -/

namespace GetPlatform.Uploads

structure Request where
  authorization : Option String
  cookie : Option String
  url : String
  deriving DecidableEq

/-- A redirection is to a presigned URL of the object under this key. -/
inductive Response where
  | json (status : Nat) (message : String)
  | redirect (key : String)
  deriving DecidableEq

/-- The claims of an access token. -/
structure Payload where
  sub : Id
  sessionVersion : Nat
  deriving DecidableEq

/-- The user of a request, with the rows that hang on it. -/
structure Viewer where
  id : Id
  role : RoleName
  student : Option Student
  teacher : Option Teacher
  schoolAdmin : Option SchoolAdmin
  deriving DecidableEq

def extractToken (request : Request) : Option String :=
  match request.authorization.bind (afterPrefix · "Bearer ") with
  | some token => some token
  | none =>
      let cookie := request.cookie.bind fun header =>
        (header.splitOn "; ").find? fun c => (afterPrefix c "access_token=").isSome
      cookie.bind fun c => (c.splitOn "=")[1]?

def Site.viewer (s : Site) (user : User) : Viewer :=
  { id := user.id, role := user.role.getD .STUDENT
    student := s.students.find? user.id
    teacher := s.teachers.find? user.id
    schoolAdmin := s.schoolAdmins.find? user.id }

section Routes

-- The claims of a token, if it is valid.
variable (verify : String → Option Payload)
variable (config : Config) (s : Site) (request : Request)

/-- The user of the request; or the response that turns it away. -/
def requireUser : Except Response Viewer := do
  let some token := (extractToken request).filter (· ≠ "")
    | throw <| .json 401 "Authentification requise"
  let some payload := verify token
    | throw <| .json 401 "Jeton invalide ou expiré"
  let some user := (s.users.find? payload.sub).filter (·.isActive)
    | throw <| .json 401 "Utilisateur invalide"
  if payload.sessionVersion ≠ user.sessionVersion then throw <| .json 401 "Session révoquée"
  return s.viewer user

def redirectToFile (segments : List String) : Except Failure Response := do
  let key ← buildKey segments
  if s.objects.contains (config.privateBucket, key) then return .redirect key
  else return .json 404 "Fichier introuvable"

/-- The applications that give a school access to the documents of a student. -/
def hasApplicationAtThisSchool (studentId schoolId : Id) : Bool :=
  s.applications.rows.any fun a =>
    a.studentId = studentId && (s.offers.find? a.offerId).any (·.schoolId = schoolId) &&
      a.status ∉ [.REJECTED, .CANCELLED]

def documents (user : Viewer) (studentId fileName : String) : Except Failure Response :=
  let isOwner := user.student.any (·.id = studentId)
  let isAuthorizedReviewer :=
    user.role = .ADMIN_GET ||
      (user.role = .SCHOOL_ADMIN && user.schoolAdmin.any fun admin =>
        hasApplicationAtThisSchool s studentId admin.schoolId)
  let document := s.documents.rows.find? fun d =>
    d.studentId = studentId ∧
      ("documents/" ++ studentId ++ "/" ++ fileName).toList <:+ d.fileUrl.toList ∧ d.deletedAt = none
  if user.role = .MINISTRY then .ok (.json 403 "Accès refusé")
  else if ¬ isOwner ∧ ¬ isAuthorizedReviewer then .ok (.json 403 "Accès refusé")
  else if document = none then .ok (.json 404 "Fichier introuvable")
  else redirectToFile config s ["documents", studentId, fileName]

def courseMaterials (user : Viewer) (courseId fileName : String) : Except Failure Response :=
  let course := s.courses.find? courseId
  let isTeacher := course.any fun course => user.teacher.any (·.id = course.teacherId)
  let isEnrolledStudent := course.any fun course => user.student.any fun student =>
    s.courseEnrollments.contains (courseId, student.id) &&
      (s.studentEnrollments.find? (student.id, course.schoolId)).any (·.status = .ACTIVE)
  let isAuthorizedReviewer :=
    user.role = .ADMIN_GET ||
      (user.role = .SCHOOL_ADMIN && user.schoolAdmin.any fun admin =>
        course.any (·.schoolId = admin.schoolId))
  if user.role = .MINISTRY then .ok (.json 403 "Accès refusé")
  else if ¬ isTeacher ∧ ¬ isEnrolledStudent ∧ ¬ isAuthorizedReviewer then
    .ok (.json 403 "Accès refusé")
  else redirectToFile config s ["course-materials", courseId, fileName]

def messages (user : Viewer) (messageId fileName : String) : Except Failure Response :=
  let isParticipant := (s.messages.find? messageId).any fun message =>
    message.senderId = user.id || message.recipientId = user.id
  if user.role = .MINISTRY then .ok (.json 403 "Accès refusé")
  else if ¬ isParticipant ∧ user.role ≠ .ADMIN_GET then .ok (.json 403 "Accès refusé")
  else redirectToFile config s ["messages", messageId, fileName]

inductive Route where
  | documents | courseMaterials | messages
  deriving DecidableEq

/-- What the route answers a request that has come to it with these parameters. -/
def Route.answer (route : Route) (id fileName : String) : Except Failure Response :=
  match requireUser verify s request with
  | .error response => .ok response
  | .ok user =>
      match route with
      | .documents => GetPlatform.Uploads.documents config s user id fileName
      | .courseMaterials => GetPlatform.Uploads.courseMaterials config s user id fileName
      | .messages => GetPlatform.Uploads.messages config s user id fileName

/-- The request is redirected to the object under this key. How a request for a URL arrives at a route,
    and with which parameters, is up to the client and the framework. -/
def RedirectsTo (arrive : String → Option (Route × String × String)) (key : String) : Prop :=
  ∃ route id fileName, arrive request.url = some (route, id, fileName) ∧
    route.answer verify config s request id fileName = .ok (.redirect key)

end Routes

/-! ## Authenticated requests -/

variable {verify : String → Option Payload} {config : Config} {s : Site} {request : Request}

/-- The request carries a valid token of the user, who is active, for the current session version. -/
structure Authenticated (verify : String → Option Payload) (s : Site) (request : Request)
    (user : User) : Prop where
  known : s.users.find? user.id = some user
  active : user.isActive = true
  token : ∃ token, extractToken request = some token ∧ token ≠ "" ∧
    verify token = some ⟨user.id, user.sessionVersion⟩

theorem requireUser_eq {user : User} (h : Authenticated verify s request user) :
    requireUser verify s request = .ok (s.viewer user) := by
  obtain ⟨token, htoken, hne, hverify⟩ := h.token
  unfold requireUser
  rw [htoken, Option.filter_some, if_pos (decide_eq_true hne)]
  dsimp only
  rw [hverify]
  dsimp only
  rw [h.known, Option.filter_some, if_pos h.active]
  exact if_neg fun hchanged => hchanged rfl

theorem redirectToFile_eq_redirect {segments : List String} {key : String} :
    redirectToFile config s segments = .ok (.redirect key) ↔
      buildKey segments = .ok key ∧ s.objects.contains (config.privateBucket, key) = true := by
  unfold redirectToFile
  cases hkey : buildKey segments with
  | error e => simp [bind, Except.bind]
  | ok k =>
    by_cases hthere : s.objects.contains (config.privateBucket, k) = true
    · simp only [bind, Except.bind, hthere, if_true, pure, Except.pure, Except.ok.injEq,
        Response.redirect.injEq]
      exact ⟨fun h => ⟨h, h ▸ hthere⟩, And.left⟩
    · simp only [bind, Except.bind, if_neg hthere, pure, Except.pure, Except.ok.injEq]
      constructor
      · intro h
        cases h
      · rintro ⟨rfl, h⟩
        exact absurd h hthere

end GetPlatform.Uploads
