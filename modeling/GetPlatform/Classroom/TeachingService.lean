import GetPlatform.Classroom.World

set_option autoImplicit false

/-! # What teachers do with their courses

The methods of `TeachingService` that write. Each one looks up the course first: it has to be one of the
teacher's, in a school where the teacher is active. Only the records of an attendance sheet are written
in a transaction. -/

namespace GetPlatform.Classroom

open Teaching (AttendanceRecord AttendanceEntry dayOf sheet)

/-- The exceptions a call can end with. -/
inductive Err where
  | ForbiddenException (message : String)
  | NotFoundException (message : String)
  | BadRequestException (message : String)
  | failure (f : Failure)
  deriving DecidableEq

abbrev Call (α : Type) := Prog interface Err α

def perform (q : Stmt) : Call (Ans q) := @Prog.query interface Err .failure q

/-- How dates are read, and how the database compares texts. -/
structure Host where
  parseDate : String → Option Date
  collation : String → String → Bool

/-! ## Whose course it is -/

def teacher (userId : Id) : Call Teacher := do
  let some teacher ← perform (.teacherFindUnique userId)
    | throw <| .ForbiddenException "Profil professeur introuvable"
  return teacher

def course (userId courseId : Id) : Call Course := do
  let teacher ← teacher userId
  let some course ← perform (.courseFindFirst courseId teacher.id)
    | throw <| .NotFoundException "Cours introuvable"
  return course

def evaluation (userId evaluationId : Id) : Call Evaluation := do
  let some evaluation ← perform (.evaluationFindUnique evaluationId)
    | throw <| .NotFoundException "Évaluation introuvable"
  let _ ← course userId evaluation.courseId
  return evaluation

def assignment (userId assignmentId : Id) : Call Assignment := do
  let some assignment ← perform (.assignmentFindUnique assignmentId)
    | throw <| .NotFoundException "Devoir introuvable"
  let _ ← course userId assignment.courseId
  return assignment

def submission (userId submissionId : Id) : Call AssignmentSubmission := do
  let some submission ← perform (.submissionFindUnique submissionId)
    | throw <| .NotFoundException "Soumission introuvable"
  let _ ← assignment userId submission.assignmentId
  return submission

def chapter (courseId chapterId : Id) : Call CourseChapter := do
  let some chapter ← perform (.courseChapterFindFirst chapterId courseId)
    | throw <| .NotFoundException "Chapitre introuvable"
  return chapter

def resource (chapterId resourceId : Id) : Call CourseResource := do
  let some resource ← perform (.courseResourceFindFirst resourceId chapterId)
    | throw <| .NotFoundException "Ressource introuvable"
  return resource

/-! ## Courses -/

def updateCourseSettings (userId courseId : Id) (dto : UpdateCourseSettingsDto) :
    Call (Course × Nat) := do
  let _ ← course userId courseId
  perform (.courseUpdate courseId { dto with welcomeMessage := dto.welcomeMessage.map trim })

/-! ## Chapters and resources -/

def createChapter (userId courseId : Id) (dto : ChapterDto) : Call CourseChapter := do
  let _ ← course userId courseId
  let position := (← perform (.courseChapterCount courseId)) + 1
  perform (.courseChapterCreate courseId position dto)

def updateChapter (userId courseId chapterId : Id) (dto : UpdateChapterDto) : Call CourseChapter := do
  let _ ← course userId courseId
  let _ ← chapter courseId chapterId
  perform (.courseChapterUpdate chapterId dto)

def deleteChapter (userId courseId chapterId : Id) : Call CourseChapter := do
  let _ ← course userId courseId
  let _ ← chapter courseId chapterId
  perform (.courseChapterDelete chapterId)

def publishChapter (userId courseId chapterId : Id) : Call CourseChapter := do
  let _ ← course userId courseId
  let _ ← chapter courseId chapterId
  let now ← perform .now
  perform (.courseChapterPublish chapterId now)

def addResource (userId courseId chapterId : Id) (dto : ResourceDto) (file : Option File) :
    Call CourseResource := do
  let _ ← course userId courseId
  let _ ← chapter courseId chapterId
  let url ← match file with
    | some file => some <$> perform (.uploadCourseMaterial file courseId)
    | none => pure dto.url
  -- an empty address counts as none
  let some url := url.filter (· ≠ "") | throw <| .BadRequestException "Ajoutez un lien ou un fichier"
  perform (.courseResourceCreate chapterId dto.title url dto.type)

def updateResource (userId courseId chapterId resourceId : Id) (dto : UpdateResourceDto) :
    Call CourseResource := do
  let _ ← course userId courseId
  let _ ← chapter courseId chapterId
  let _ ← resource chapterId resourceId
  perform (.courseResourceUpdate resourceId dto)

def deleteResource (userId courseId chapterId resourceId : Id) : Call CourseResource := do
  let _ ← course userId courseId
  let _ ← chapter courseId chapterId
  let _ ← resource chapterId resourceId
  perform (.courseResourceDelete resourceId)

/-! ## Attendance -/

variable (host : Host)

def getAttendance (userId courseId : Id) (date : String) : Call (List AttendanceEntry) := do
  let _ ← course userId courseId
  let students ← perform (.courseEnrollmentFindStudents courseId)
  let existing ← perform (.attendanceFindMany courseId (dayOf host.parseDate date))
  return sheet (students.mergeSort fun a b => host.collation a.lastName b.lastName) existing

/-- The upserts of all records, one after the other. -/
def upsertAll (courseId : Id) (day : Option Int) (markedBy : Id) : List AttendanceRecord → Call PUnit
  | [] => return
  | record :: records => do
      let _ ← perform (.attendanceUpsert courseId record.studentId day record.status markedBy)
      upsertAll courseId day markedBy records

def markAttendance (userId courseId : Id) (date : String) (records : List AttendanceRecord) :
    Call (List AttendanceEntry) := do
  let teacher ← teacher userId
  let _ ← course userId courseId
  let enrolledIds ← perform (.courseEnrollmentFindMany courseId (records.map (·.studentId)))
  match records.find? fun record => record.studentId ∉ enrolledIds with
  | some unknown =>
      throw <| .BadRequestException
        ("L'étudiant " ++ toString unknown.studentId ++ " n'est pas inscrit à ce cours")
  | none =>
      @Prog.transaction interface _ _ .failure .readCommitted <|
        upsertAll courseId (dayOf host.parseDate date) teacher.id records
      getAttendance host userId courseId date

/-! ## Evaluations and grades -/

def createEvaluation (userId courseId : Id) (dto : EvaluationDto) : Call Evaluation := do
  let _ ← course userId courseId
  perform (.evaluationCreate courseId dto)

def saveGrade (userId evaluationId : Id) (dto : GradeDto) : Call Grade := do
  let evaluation ← evaluation userId evaluationId
  if ¬ (← perform (.courseEnrollmentFindUnique evaluation.courseId dto.studentId)) then
    throw <| .NotFoundException "Étudiant non inscrit à ce cours"
  perform (.gradeUpsert evaluationId dto)

/-! ## Assignments and submissions -/

def createAssignment (userId courseId : Id) (dto : AssignmentDto) : Call Assignment := do
  let _ ← course userId courseId
  perform (.assignmentCreate courseId dto)

def publishAssignment (userId assignmentId : Id) : Call Assignment := do
  let _ ← assignment userId assignmentId
  let now ← perform .now
  perform (.assignmentPublish assignmentId now)

def gradeSubmission (userId submissionId : Id) (dto : SubmissionGradeDto) :
    Call AssignmentSubmission := do
  let _ ← submission userId submissionId
  perform (.submissionUpdate submissionId dto)

/-! ## Calls -/

inductive Request where
  | updateCourseSettings (courseId : Id) (dto : UpdateCourseSettingsDto)
  | createChapter (courseId : Id) (dto : ChapterDto)
  | updateChapter (courseId chapterId : Id) (dto : UpdateChapterDto)
  | deleteChapter (courseId chapterId : Id)
  | publishChapter (courseId chapterId : Id)
  | addResource (courseId chapterId : Id) (dto : ResourceDto) (file : Option File)
  | updateResource (courseId chapterId resourceId : Id) (dto : UpdateResourceDto)
  | deleteResource (courseId chapterId resourceId : Id)
  | getAttendance (courseId : Id) (date : String)
  | markAttendance (courseId : Id) (date : String) (records : List AttendanceRecord)
  | createEvaluation (courseId : Id) (dto : EvaluationDto)
  | saveGrade (evaluationId : Id) (dto : GradeDto)
  | createAssignment (courseId : Id) (dto : AssignmentDto)
  | publishAssignment (assignmentId : Id)
  | gradeSubmission (submissionId : Id) (dto : SubmissionGradeDto)

/-- A request of a user who is logged in. -/
structure Op where
  userId : Id
  request : Request

/-- What a call returns. -/
inductive Reply where
  | course (row : Course × Nat)
  | chapter (row : CourseChapter)
  | resource (row : CourseResource)
  | attendance (entries : List AttendanceEntry)
  | evaluation (row : Evaluation)
  | grade (row : Grade)
  | assignment (row : Assignment)
  | submission (row : AssignmentSubmission)
  deriving DecidableEq

def answer (userId : Id) : Request → Call Reply
  | .updateCourseSettings courseId dto => .course <$> updateCourseSettings userId courseId dto
  | .createChapter courseId dto => .chapter <$> createChapter userId courseId dto
  | .updateChapter courseId chapterId dto => .chapter <$> updateChapter userId courseId chapterId dto
  | .deleteChapter courseId chapterId => .chapter <$> deleteChapter userId courseId chapterId
  | .publishChapter courseId chapterId => .chapter <$> publishChapter userId courseId chapterId
  | .addResource courseId chapterId dto file =>
      .resource <$> addResource userId courseId chapterId dto file
  | .updateResource courseId chapterId resourceId dto =>
      .resource <$> updateResource userId courseId chapterId resourceId dto
  | .deleteResource courseId chapterId resourceId =>
      .resource <$> deleteResource userId courseId chapterId resourceId
  | .getAttendance courseId date => .attendance <$> getAttendance host userId courseId date
  | .markAttendance courseId date records =>
      .attendance <$> markAttendance host userId courseId date records
  | .createEvaluation courseId dto => .evaluation <$> createEvaluation userId courseId dto
  | .saveGrade evaluationId dto => .grade <$> saveGrade userId evaluationId dto
  | .createAssignment courseId dto => .assignment <$> createAssignment userId courseId dto
  | .publishAssignment assignmentId => .assignment <$> publishAssignment userId assignmentId
  | .gradeSubmission submissionId dto => .submission <$> gradeSubmission userId submissionId dto

def program (o : Op) : Call Reply := answer host o.userId o.request

end GetPlatform.Classroom
