import GetPlatform.Store.Accountable
import GetPlatform.Store.Perishable
import GetPlatform.Teaching.TeachingService
import GetPlatform.Text

set_option autoImplicit false

/-! # What a course is made of: the database

Teachers fill their courses with chapters and resources, evaluations and grades, assignments and the
marks of what is handed in, and with attendance sheets. Who teaches which course, who is enrolled and
what is handed in is up to other services. -/

namespace GetPlatform.Classroom

export Teaching (Id Student Teacher TeacherSchool CourseEnrollment Attendance)

/-! ## Rows -/

structure Course where
  id : Id
  schoolId : Id
  teacherId : Id
  welcomeMessage : Option String
  allowGroupMessages : Bool
  notifyOnPublish : Bool
  deriving DecidableEq

structure CourseChapter where
  id : Id
  courseId : Id
  title : String
  description : Option String
  position : Nat
  isPublished : Bool
  publishedAt : Option Nat
  deriving DecidableEq

structure CourseResource where
  id : Id
  chapterId : Id
  title : String
  url : String
  type : String
  deriving DecidableEq

structure Evaluation where
  id : Id
  courseId : Id
  title : String
  type : String
  scheduledAt : Option Int
  coefficient : Rat
  deriving DecidableEq

structure Grade where
  id : Id
  evaluationId : Id
  studentId : Id
  value : Rat
  comment : Option String
  deriving DecidableEq

structure Assignment where
  id : Id
  courseId : Id
  title : String
  instructions : Option String
  dueAt : Option Int
  publishedAt : Option Nat
  deriving DecidableEq

structure AssignmentSubmission where
  id : Id
  assignmentId : Id
  studentId : Id
  contentUrl : Option String
  submittedAt : Nat
  grade : Option Rat
  feedback : Option String
  deriving DecidableEq

instance : Keyed Course Id := ⟨(·.id)⟩
instance : Keyed CourseChapter Id := ⟨(·.id)⟩
instance : Keyed CourseResource Id := ⟨(·.id)⟩
instance : Keyed Evaluation Id := ⟨(·.id)⟩
instance : Keyed Grade (Id × Id) := ⟨fun g => (g.evaluationId, g.studentId)⟩
instance : Keyed Assignment Id := ⟨(·.id)⟩
instance : Keyed AssignmentSubmission Id := ⟨(·.id)⟩

structure World where
  teachers : Table Teacher
  teacherSchools : Table TeacherSchool
  students : Table Student
  courses : Table Course
  courseEnrollments : Table CourseEnrollment
  chapters : Perishable CourseChapter
  resources : Perishable CourseResource
  evaluations : Table Evaluation
  grades : Table Grade
  assignments : Table Assignment
  submissions : Table AssignmentSubmission
  attendances : Table Attendance

/-! ## What is asked for -/

structure UpdateCourseSettingsDto where
  welcomeMessage : Option String := none
  allowGroupMessages : Option Bool := none
  notifyOnPublish : Option Bool := none

structure ChapterDto where
  title : String
  description : Option String := none

structure UpdateChapterDto where
  title : Option String := none
  description : Option String := none

structure ResourceDto where
  title : String
  url : Option String
  type : String

structure UpdateResourceDto where
  title : Option String := none
  url : Option String := none
  type : Option String := none

structure EvaluationDto where
  title : String
  type : String
  scheduledAt : Option Int := none
  coefficient : Option Rat := none

structure GradeDto where
  studentId : Id
  value : Rat
  comment : Option String := none

structure AssignmentDto where
  title : String
  instructions : Option String := none
  dueAt : Option Int := none

structure SubmissionGradeDto where
  grade : Rat
  feedback : Option String := none

structure File where
  originalname : String
  mimetype : String
  buffer : List UInt8

/-- What is not given stays as it is. -/
def UpdateCourseSettingsDto.set (data : UpdateCourseSettingsDto) (row : Course) : Course :=
  { row with
    welcomeMessage := data.welcomeMessage.orElse fun _ => row.welcomeMessage
    allowGroupMessages := data.allowGroupMessages.getD row.allowGroupMessages
    notifyOnPublish := data.notifyOnPublish.getD row.notifyOnPublish }

def UpdateChapterDto.set (data : UpdateChapterDto) (row : CourseChapter) : CourseChapter :=
  { row with
    title := data.title.getD row.title
    description := data.description.orElse fun _ => row.description }

def CourseChapter.publish (publishedAt : Nat) (row : CourseChapter) : CourseChapter :=
  { row with isPublished := true, publishedAt := some publishedAt }

def UpdateResourceDto.set (data : UpdateResourceDto) (row : CourseResource) : CourseResource :=
  { row with
    title := data.title.getD row.title
    url := data.url.getD row.url
    type := data.type.getD row.type }

def Assignment.publish (publishedAt : Nat) (row : Assignment) : Assignment :=
  { row with publishedAt := some publishedAt }

def SubmissionGradeDto.set (data : SubmissionGradeDto) (row : AssignmentSubmission) :
    AssignmentSubmission :=
  { row with grade := some data.grade, feedback := data.feedback.orElse fun _ => row.feedback }

/-! ## Statements -/

inductive Stmt where
  | now
  | teacherFindUnique (userId : Id)
  /-- The course, if the teacher has it and is active in its school. -/
  | courseFindFirst (id teacherId : Id)
  /-- With the number of its students. -/
  | courseUpdate (id : Id) (data : UpdateCourseSettingsDto)
  | courseChapterCount (courseId : Id)
  | courseChapterCreate (courseId : Id) (position : Nat) (dto : ChapterDto)
  | courseChapterFindFirst (id courseId : Id)
  | courseChapterUpdate (id : Id) (data : UpdateChapterDto)
  | courseChapterPublish (id : Id) (publishedAt : Nat)
  | courseChapterDelete (id : Id)
  | uploadCourseMaterial (file : File) (courseId : Id)
  | courseResourceCreate (chapterId : Id) (title url type : String)
  | courseResourceFindFirst (id chapterId : Id)
  | courseResourceUpdate (id : Id) (data : UpdateResourceDto)
  | courseResourceDelete (id : Id)
  /-- Which of the students are enrolled in the course. -/
  | courseEnrollmentFindMany (courseId : Id) (studentIds : List Id)
  /-- Is the student enrolled in the course? -/
  | courseEnrollmentFindUnique (courseId studentId : Id)
  | courseEnrollmentFindStudents (courseId : Id)
  | attendanceFindMany (courseId : Id) (date : Option Int)
  /-- A `date` of `none` is an invalid date, which the database refuses. -/
  | attendanceUpsert (courseId studentId : Id) (date : Option Int) (status : String) (markedBy : Id)
  | evaluationFindUnique (id : Id)
  | evaluationCreate (courseId : Id) (dto : EvaluationDto)
  | gradeUpsert (evaluationId : Id) (dto : GradeDto)
  | assignmentFindUnique (id : Id)
  | assignmentCreate (courseId : Id) (dto : AssignmentDto)
  | assignmentPublish (id : Id) (publishedAt : Nat)
  | submissionFindUnique (id : Id)
  | submissionUpdate (id : Id) (data : SubmissionGradeDto)

abbrev Ans : Stmt → Type
  | .now => Nat
  | .teacherFindUnique _ => Option Teacher
  | .courseFindFirst .. => Option Course
  | .courseUpdate .. => Course × Nat
  | .courseChapterCount _ => Nat
  | .courseChapterCreate .. => CourseChapter
  | .courseChapterFindFirst .. => Option CourseChapter
  | .courseChapterUpdate .. => CourseChapter
  | .courseChapterPublish .. => CourseChapter
  | .courseChapterDelete _ => CourseChapter
  | .uploadCourseMaterial .. => String
  | .courseResourceCreate .. => CourseResource
  | .courseResourceFindFirst .. => Option CourseResource
  | .courseResourceUpdate .. => CourseResource
  | .courseResourceDelete _ => CourseResource
  | .courseEnrollmentFindMany .. => List Id
  | .courseEnrollmentFindUnique .. => Bool
  | .courseEnrollmentFindStudents _ => List Student
  | .attendanceFindMany .. => List Attendance
  | .attendanceUpsert .. => Attendance
  | .evaluationFindUnique _ => Option Evaluation
  | .evaluationCreate .. => Evaluation
  | .gradeUpsert .. => Grade
  | .assignmentFindUnique _ => Option Assignment
  | .assignmentCreate .. => Assignment
  | .assignmentPublish .. => Assignment
  | .submissionFindUnique _ => Option AssignmentSubmission
  | .submissionUpdate .. => AssignmentSubmission

inductive Failure where
  | database
  | storage
  deriving DecidableEq, Inhabited

abbrev interface : Interface := ⟨Stmt, Ans, Failure⟩

/-- The time, the identifier of a new row, and the address of a new object. -/
structure Choice where
  now : Nat := 0
  id : Id := 0
  url : String := ""

namespace World

variable (s : World)

def holds (courseId teacherId : Id) : Option Course :=
  (s.courses.find? courseId).filter fun course =>
    course.teacherId = teacherId ∧
      (s.teacherSchools.find? (teacherId, course.schoolId)).any (·.isActive)

def chaptersOf (courseId : Id) : List CourseChapter :=
  s.chapters.table.rows.filter (·.courseId = courseId)

def studentsOf (courseId : Id) : List Student :=
  (s.courseEnrollments.rows.filter (·.courseId = courseId)).filterMap fun e =>
    s.students.rows.find? (·.id = e.studentId)

end World

/-- Answer a statement; `none` where it cannot succeed. The answer to a write is the row as it stands
    then. -/
def exec : (q : Stmt) → Choice → World → Option (Ans q)
  | .now, c, _ => some c.now
  | .teacherFindUnique userId, _, s => some (s.teachers.find? userId)
  | .courseFindFirst id teacherId, _, s => some (s.holds id teacherId)
  | .courseUpdate id data, _, s =>
      (s.courses.find? id).map fun course =>
        (data.set course, s.courseEnrollments.count (·.courseId = id))
  | .courseChapterCount courseId, _, s => some (s.chaptersOf courseId).length
  | .courseChapterCreate courseId position dto, c, s =>
      if c.id ∉ s.chapters.spent ∧ s.courses.contains courseId ∧
          ∀ row ∈ s.chaptersOf courseId, row.position ≠ position then
        some ⟨c.id, courseId, dto.title, dto.description, position, false, none⟩
      else none
  | .courseChapterFindFirst id courseId, _, s =>
      some ((s.chapters.find? id).filter (·.courseId = courseId))
  | .courseChapterUpdate id data, _, s => (s.chapters.find? id).map data.set
  | .courseChapterPublish id publishedAt, _, s => (s.chapters.find? id).map (·.publish publishedAt)
  | .courseChapterDelete id, _, s => s.chapters.find? id
  | .uploadCourseMaterial .., c, _ => some c.url
  | .courseResourceCreate chapterId title url type, c, s =>
      if c.id ∉ s.resources.spent ∧ (s.chapters.find? chapterId).isSome then
        some ⟨c.id, chapterId, title, url, type⟩
      else none
  | .courseResourceFindFirst id chapterId, _, s =>
      some ((s.resources.find? id).filter (·.chapterId = chapterId))
  | .courseResourceUpdate id data, _, s => (s.resources.find? id).map data.set
  | .courseResourceDelete id, _, s => s.resources.find? id
  | .courseEnrollmentFindMany courseId studentIds, _, s =>
      some <| (s.courseEnrollments.rows.filter fun e =>
        e.courseId = courseId ∧ e.studentId ∈ studentIds).map (·.studentId)
  | .courseEnrollmentFindUnique courseId studentId, _, s =>
      some (s.courseEnrollments.contains (courseId, studentId))
  | .courseEnrollmentFindStudents courseId, _, s => some (s.studentsOf courseId)
  | .attendanceFindMany courseId date, _, s =>
      date.map fun day => s.attendances.rows.filter fun a => a.courseId = courseId ∧ a.date = day
  | .attendanceUpsert courseId studentId date status markedBy, c, s =>
      date.bind fun day =>
        match s.attendances.find? (courseId, studentId, day) with
        | some a => some { a with status, markedBy }
        | none =>
            if s.attendances.rows.any (fun a => a.id = c.id) ∨ ¬ s.courses.contains courseId ∨
                ¬ s.students.rows.any fun x => x.id = studentId then none
            else some ⟨c.id, courseId, studentId, day, status, markedBy⟩
  | .evaluationFindUnique id, _, s => some (s.evaluations.find? id)
  | .evaluationCreate courseId dto, c, s =>
      if s.evaluations.contains c.id ∨ ¬ s.courses.contains courseId then none
      else some ⟨c.id, courseId, dto.title, dto.type, dto.scheduledAt, dto.coefficient.getD 1⟩
  | .gradeUpsert evaluationId dto, c, s =>
      match s.grades.find? (evaluationId, dto.studentId) with
      | some g => some { g with value := dto.value, comment := dto.comment.orElse fun _ => g.comment }
      | none =>
          if s.grades.rows.any (fun g => g.id = c.id) ∨ ¬ s.evaluations.contains evaluationId ∨
              ¬ s.students.rows.any fun x => x.id = dto.studentId then none
          else some ⟨c.id, evaluationId, dto.studentId, dto.value, dto.comment⟩
  | .assignmentFindUnique id, _, s => some (s.assignments.find? id)
  | .assignmentCreate courseId dto, c, s =>
      if s.assignments.contains c.id ∨ ¬ s.courses.contains courseId then none
      else some ⟨c.id, courseId, dto.title, dto.instructions, dto.dueAt, none⟩
  | .assignmentPublish id publishedAt, _, s => (s.assignments.find? id).map (·.publish publishedAt)
  | .submissionFindUnique id, _, s => some (s.submissions.find? id)
  | .submissionUpdate id data, _, s => (s.submissions.find? id).map data.set

/-! ## Writes -/

inductive Write where
  | setCourse (id : Id) (data : UpdateCourseSettingsDto)
  | chapter (row : CourseChapter)
  | setChapter (id : Id) (data : UpdateChapterDto)
  | publishChapter (id : Id) (publishedAt : Nat)
  /-- And its resources. -/
  | deleteChapter (id : Id)
  | resource (row : CourseResource)
  | setResource (id : Id) (data : UpdateResourceDto)
  | deleteResource (id : Id)
  | attendance (row : Attendance)
  | evaluation (row : Evaluation)
  | grade (row : Grade)
  | assignment (row : Assignment)
  | publishAssignment (id : Id) (publishedAt : Nat)
  | setSubmission (id : Id) (data : SubmissionGradeDto)

def writes : (q : Stmt) → Ans q → List Write
  | .courseUpdate id data, _ => [.setCourse id data]
  | .courseChapterCreate .., row => [.chapter row]
  | .courseChapterUpdate id data, _ => [.setChapter id data]
  | .courseChapterPublish id publishedAt, _ => [.publishChapter id publishedAt]
  | .courseChapterDelete id, _ => [.deleteChapter id]
  | .courseResourceCreate .., row => [.resource row]
  | .courseResourceUpdate id data, _ => [.setResource id data]
  | .courseResourceDelete id, _ => [.deleteResource id]
  | .attendanceUpsert .., row => [.attendance row]
  | .evaluationCreate .., row => [.evaluation row]
  | .gradeUpsert .., row => [.grade row]
  | .assignmentCreate .., row => [.assignment row]
  | .assignmentPublish id publishedAt, _ => [.publishAssignment id publishedAt]
  | .submissionUpdate id data, _ => [.setSubmission id data]
  | _, _ => []

def World.apply : Write → World → World
  | .setCourse id data, s => { s with courses := s.courses.modify id data.set fun _ => rfl }
  | .chapter row, s => { s with chapters := s.chapters.add row }
  | .setChapter id data, s => { s with chapters := s.chapters.modify id data.set fun _ => rfl }
  | .publishChapter id publishedAt, s =>
      { s with chapters := s.chapters.modify id (·.publish publishedAt) fun _ => rfl }
  | .deleteChapter id, s =>
      { s with
        chapters := s.chapters.remove (·.id = id)
        resources := s.resources.remove (·.chapterId = id) }
  | .resource row, s => { s with resources := s.resources.add row }
  | .setResource id data, s => { s with resources := s.resources.modify id data.set fun _ => rfl }
  | .deleteResource id, s => { s with resources := s.resources.remove (·.id = id) }
  | .attendance row, s => { s with attendances := s.attendances.put row }
  | .evaluation row, s => { s with evaluations := s.evaluations.insert row }
  | .grade row, s => { s with grades := s.grades.put row }
  | .assignment row, s => { s with assignments := s.assignments.insert row }
  | .publishAssignment id publishedAt, s =>
      { s with assignments := s.assignments.modify id (·.publish publishedAt) fun _ => rfl }
  | .setSubmission id data, s => { s with submissions := s.submissions.modify id data.set fun _ => rfl }

/-! ## Other services -/

/-- What other services do: people join, courses are opened and given to other teachers, teachers and
    students come and go, and work is handed in. -/
inductive Change where
  | teacher (row : Teacher)
  | student (row : Student)
  | staff (teacherSchools : Table TeacherSchool)
  | enrolments (courseEnrollments : Table CourseEnrollment)
  | course (id schoolId teacherId : Id)
  | courseTeacher (id teacherId : Id)
  | handedIn (id assignmentId studentId : Id) (contentUrl : String) (submittedAt : Nat)
  | replaced (id : Id) (contentUrl : String) (submittedAt : Nat)

def World.change : Change → World → World
  | .teacher row, s => { s with teachers := s.teachers.insert row }
  | .student row, s => { s with students := s.students.insert row }
  | .staff teacherSchools, s => { s with teacherSchools }
  | .enrolments courseEnrollments, s => { s with courseEnrollments }
  | .course id schoolId teacherId, s =>
      { s with courses := s.courses.insert ⟨id, schoolId, teacherId, none, true, true⟩ }
  | .courseTeacher id teacherId, s =>
      { s with courses := s.courses.modify id (fun course => { course with teacherId }) fun _ => rfl }
  | .handedIn id assignmentId studentId contentUrl submittedAt, s =>
      if s.assignments.contains assignmentId ∧
          ¬ s.submissions.rows.any fun x => x.assignmentId = assignmentId ∧ x.studentId = studentId then
        { s with
          submissions := s.submissions.insert
            ⟨id, assignmentId, studentId, some contentUrl, submittedAt, none, none⟩ }
      else s
  | .replaced id contentUrl submittedAt, s =>
      { s with
        submissions := s.submissions.modify id
          (fun x => { x with contentUrl := some contentUrl, submittedAt }) fun _ => rfl }

abbrev model : Model interface where
  State := World
  Choice := Choice
  Write := Write
  -- the rows that a transaction writes
  Key := Id × Id × Int
  Env := Change
  exec := exec
  writes := writes
  apply := World.apply
  key := fun | .attendance row => some (Keyed.key row) | _ => none
  env := World.change

end GetPlatform.Classroom
