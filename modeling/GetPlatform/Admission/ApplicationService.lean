import GetPlatform.Admission.World

set_option autoImplicit false

/-! # `ApplicationService` and `SchoolService.syncCourseEnrollments`

The operations that decide on an application. Each reads the application, checks the transition it
asks for against the status it read, and writes afterwards. -/

namespace GetPlatform.Admission

/-- The exceptions a call can end with. -/
inductive Err where
  | NotFoundException (message : String)
  | ForbiddenException (message : String)
  | BadRequestException (message : String)
  | database (f : Failure)
  deriving DecidableEq

/-- What a call sends and returns. -/
abbrev Call (α : Type) := Prog interface Err α

/-- Send a statement. -/
def send (q : Stmt) : Call (Ans q) := @Prog.query interface Err .database q

/-- `$transaction`; the default isolation is `readCommitted`. -/
def transaction {α : Type} (isolationLevel : Isolation) (body : Call α) : Call α :=
  Prog.transaction Err.database isolationLevel body

/-- An empty text counts as absent. -/
def truthy (text : Option String) : Option String := text.filter (· ≠ "")

/-! ## `SchoolService` -/

/-- Enrol the student in the published courses of a programme level, and in no other course of the
    school. -/
def syncCourseEnrollments (studentId schoolId programId : Id) (programLevel : Nat) : Call Unit := do
  let courses ← send (.courseFindMany schoolId programId programLevel)
  let _ ← send (.courseEnrollmentDeleteMany studentId schoolId courses)
  courses.forM fun courseId => send (.courseEnrollmentUpsert ⟨courseId, studentId⟩)

/-- The label of an enrolment in the first year of a programme. -/
def enrolledYear (program : SchoolProgram) (academicYear : SchoolAcademicYear) : String :=
  s!"Année 1 · {program.name} · {academicYear.label}"

/-- The active programme of an offer and the current academic year of its school. -/
def findProgram (offer : Offer) : Call (Option SchoolProgram × Option SchoolAcademicYear) := do
  match offer.programId with
  | none => return (none, none)
  | some programId =>
      let program ← send (.schoolProgramFindFirst programId offer.schoolId)
      let academicYear ← send (.schoolAcademicYearFindFirst offer.schoolId)
      return (program, academicYear)

def noEnrollmentReason (offer : Offer) : NoEnrollment :=
  if offer.programId.isNone then .noProgram else .noActiveProgram

/-- Write the enrolment of a student in the school of an offer, and follow with its courses. -/
def enrollStudent (studentId : Id) (offer : Offer) (program : SchoolProgram)
    (academicYear : SchoolAcademicYear) : Call Unit := do
  send <| .enrollmentUpsert
    { studentId, schoolId := offer.schoolId, programId := program.id, programLevel := 1,
      academicYearId := academicYear.id, enrolledYear := enrolledYear program academicYear,
      status := .ACTIVE }
  syncCourseEnrollments studentId offer.schoolId program.id 1

/-! ## `ApplicationService` -/

structure UpdateApplicationStatusDto where
  status : ApplicationStatus
  reason : Option String := none
  score : Option Rat := none

structure ScheduleTestDto where
  date : String
  type : String
  details : Option String := none
  location : Option String := none
  requiredDocuments : Option (List String) := none

structure ScheduleInterviewDto where
  date : String
  link : Option String := none

/-- `sendApplicationStatusUpdate`; a failure is logged and goes no further. -/
def notifyStatusChange (userId applicationId : Id) (status : ApplicationStatus) : Call Unit := do
  try send (.sendApplicationStatusUpdate userId applicationId status)
  catch _ => pure ()

def ensureCanManageApplication (application : ApplicationWithOffer) (userId : Id) : Call Unit := do
  let user ← send (.userFindUnique userId)
  if (user.bind (·.role)) = some .ADMIN_GET then return ()
  if (user.bind (·.role)) = some .SCHOOL_ADMIN ∧
      (user.bind (·.schoolId)) = some application.offer.schoolId then return ()
  throw (.ForbiddenException "Vous n’êtes pas autorisé à modifier ce dossier")

/-- Is the transition one that `assertValidTransition` lets through? -/
def ValidTransition (previousStatus nextStatus : ApplicationStatus) : Prop :=
  previousStatus = nextStatus ∨ nextStatus ∈ previousStatus.transitions

instance (s s' : ApplicationStatus) : Decidable (ValidTransition s s') :=
  inferInstanceAs (Decidable (_ ∨ _))

def assertValidTransition (previousStatus nextStatus : ApplicationStatus) : Call Unit :=
  if ValidTransition previousStatus nextStatus then return ()
  else
    throw <| .BadRequestException
      s!"Transition de statut invalide : {previousStatus.text} → {nextStatus.text}"

/-- Does the decision take an applicant out of a seat? -/
def freesASeat (previousStatus nextStatus : ApplicationStatus) : Bool :=
  previousStatus.occupies && (nextStatus = .CANCELLED || nextStatus = .REJECTED)

/-- The capacity of an offer, if it is limited. -/
def Offer.limit (offer : Offer) : Option Int := offer.capacity.filter (· ≠ 0)

/-- Can the decision move the number of occupied seats of a limited offer? -/
def touchesCapacity (offer : Offer) (previousStatus nextStatus : ApplicationStatus) : Bool :=
  offer.limit.isSome && (nextStatus = .ACCEPTED || freesASeat previousStatus nextStatus)

/-- The automatic enrolment of an application that is accepted. -/
def enrollAccepted (applicationId : Id) (application : ApplicationWithOffer)
    (dto : UpdateApplicationStatusDto) (userId : Id) : Call Unit := do
  match ← findProgram application.offer with
  | (some program, some academicYear) =>
      enrollStudent application.studentId application.offer program academicYear
      send <| .timelineCreate
        { applicationId, status := dto.status,
          note := .enrolled (enrolledYear program academicYear), createdBy := some userId }
  | _ =>
      send <| .timelineCreate
        { applicationId, status := dto.status,
          note := .notEnrolled (noEnrollmentReason application.offer), createdBy := some userId }

/-- The promotion of the first waitlisted applicant; the application and the user promoted. -/
def promoteNext (offerId userId : Id) : Call (Option (Id × Id)) := do
  match ← send (.applicationFindFirstWaitlisted offerId) with
  | none => return none
  | some (nextWaitlisted, student) =>
      let decisionDate ← send .now
      let _ ← send <| .applicationUpdate nextWaitlisted.id
        { status := .ACCEPTED, decisionDate := some decisionDate,
          decisionReason :=
            some "Promotion automatique depuis la liste d’attente (place libérée)" }
      send <| .timelineCreate
        { applicationId := nextWaitlisted.id, status := .ACCEPTED, note := .promoted,
          createdBy := some userId }
      return some (nextWaitlisted.id, student.userId)

/-- The body of the transaction of `updateStatus`. -/
def applyStatusTransaction (applicationId : Id) (application : ApplicationWithOffer)
    (dto : UpdateApplicationStatusDto) (userId : Id) (frees : Bool) :
    Call (Application × Option (Id × Id)) := do
  let decisionDate ← send .now
  let updated ← send <| .applicationUpdate applicationId
    { status := dto.status, score := dto.score, decisionReason := dto.reason,
      decisionDate := some decisionDate }
  send <| .timelineCreate
    { applicationId, status := dto.status,
      note := match truthy dto.reason with
        | some reason => .reason reason
        | none => .statusChanged dto.status,
      createdBy := some userId }
  if dto.status.occupies then enrollAccepted applicationId application dto userId
  let promoted ← if frees then promoteNext application.offerId userId else pure none
  return (updated, promoted)

/-- The count check of an acceptance on a limited offer. -/
def checkCapacity (application : ApplicationWithOffer) (nextStatus : ApplicationStatus) :
    Call Unit := do
  match application.offer.limit with
  | some capacity =>
      if nextStatus = .ACCEPTED ∧ application.status ≠ .ACCEPTED then
        let acceptedCount ← send (.applicationCount application.offerId [.ACCEPTED, .ENROLLED])
        if (acceptedCount : Int) ≥ capacity then
          throw <| .BadRequestException "La capacité maximale de cette offre est déjà atteinte"
  | none => return ()

/-- What `updateStatus` does after its transaction: the notifications and the audit record. -/
def announce (applicationId : Id) (application : ApplicationWithOffer)
    (nextStatus : ApplicationStatus) (userId : Id) (promoted : Option (Id × Id)) : Call Unit := do
  notifyStatusChange application.student.userId applicationId nextStatus
  if let some (id, studentUserId) := promoted then
    notifyStatusChange studentUserId id .ACCEPTED
  send (.auditLogCreate userId applicationId application.status nextStatus)

def updateStatus (applicationId : Id) (dto : UpdateApplicationStatusDto) (userId : Id) :
    Call Application := do
  let some application ← send (.applicationFindUnique applicationId)
    | throw (.NotFoundException "Application not found")
  ensureCanManageApplication application userId
  let previousStatus := application.status
  assertValidTransition previousStatus dto.status
  let frees := freesASeat previousStatus dto.status
  let isolationLevel : Isolation :=
    if touchesCapacity application.offer previousStatus dto.status then .serializable
    else .readCommitted
  let (updated, promoted) ←
    try
      transaction isolationLevel do
        checkCapacity application dto.status
        applyStatusTransaction applicationId application dto userId frees
    catch
      | .database .P2034 =>
          throw <| .BadRequestException
            "Cette offre a été modifiée simultanément par une autre décision, veuillez réessayer."
      | err => throw err
  announce applicationId application dto.status userId promoted
  return updated

/-- `scheduleTest`, `scheduleInterview` and `recordScore` are this with their own status, columns
    and note; the columns may depend on the application that was read. -/
def moveTo (applicationId userId : Id) (nextStatus : ApplicationStatus)
    (data : ApplicationWithOffer → ApplicationData) (note : Note) : Call Application := do
  let some applicationToManage ← send (.applicationFindUnique applicationId)
    | throw (.NotFoundException "Application not found")
  ensureCanManageApplication applicationToManage userId
  assertValidTransition applicationToManage.status nextStatus
  let application ← send <| .applicationUpdate applicationId
    { data applicationToManage with status := nextStatus }
  send <| .timelineCreate
    { applicationId, status := nextStatus, note, createdBy := some userId }
  notifyStatusChange applicationToManage.student.userId applicationId nextStatus
  return application

def scheduleTest (applicationId : Id) (dto : ScheduleTestDto) (userId : Id) : Call Application :=
  moveTo applicationId userId .TEST_SCHEDULED
    (fun _ =>
      { status := .TEST_SCHEDULED
        testResults := some
          { type := dto.type, details := dto.details, location := dto.location,
            requiredDocuments := some (dto.requiredDocuments.getD []),
            scheduledAt := some dto.date } })
    (.testScheduled dto.type dto.date dto.location)

def scheduleInterview (applicationId : Id) (dto : ScheduleInterviewDto) (userId : Id) :
    Call Application :=
  moveTo applicationId userId .INTERVIEW_SCHEDULED
    (fun _ =>
      { status := .INTERVIEW_SCHEDULED, interviewDate := some dto.date, interviewLink := dto.link })
    (.interviewScheduled dto.date dto.link)

def recordScore (applicationId : Id) (score : Rat) (comments : Option String) (userId : Id) :
    Call Application :=
  moveTo applicationId userId .TEST_COMPLETED
    (fun application =>
      { status := .TEST_COMPLETED, score := some score
        testResults := some { application.testResults.getD {} with comments } })
    (.scoreRecorded score comments)

end GetPlatform.Admission
