import GetPlatform.Store.Record
import GetPlatform.Uploads.Site

set_option autoImplicit false

/-! # Documents and submissions: the database and the storage

What a student deposits is an object of the private bucket and a row with its URL: a document, or the
submission of an assignment. The two are written by separate statements, and nothing is in a
transaction. The people, the schools, the courses and the assignments belong to other services: what
these do is one new `Site`. -/

namespace GetPlatform.Deposits

open Uploads (Id Site Student Document StoredObject)

structure Assignment where
  id : Id
  courseId : Id
  publishedAt : Option Date
  deriving DecidableEq

structure AssignmentSubmission where
  id : Id
  assignmentId : Id
  studentId : Id
  contentUrl : Option String
  submittedAt : Date
  grade : Option Rat
  deriving DecidableEq

instance : Keyed Assignment Id := ⟨(·.id)⟩
instance : Keyed AssignmentSubmission (Id × Id) := ⟨fun x => (x.assignmentId, x.studentId)⟩

/-- The columns of a new document, but for its identifier and its dates. -/
structure DocumentCreate where
  studentId : Id
  type : String
  name : String
  fileUrl : String
  fileSize : Nat
  mimeType : String
  deriving DecidableEq

def DocumentCreate.row (d : DocumentCreate) (id : Id) (now : Date) : Document :=
  { id, studentId := d.studentId, type := d.type, name := d.name, fileUrl := d.fileUrl,
    fileSize := d.fileSize, mimeType := d.mimeType, uploadedAt := now, deletedAt := none }

structure World where
  site : Site
  assignments : Table Assignment
  submissions : Table AssignmentSubmission
  /-- The random names that were drawn. -/
  drawn : List String

inductive Failure where
  | database
  | storage
  deriving DecidableEq, Inhabited

/-! ## Statements -/

inductive Stmt where
  | now
  /-- 16 random bytes, in hexadecimal digits. -/
  | randomBytes
  | studentFindUnique (userId : Id)
  | putObject (bucket key : String) (file : Uploads.File)
  | deleteObject (bucket key : String)
  | documentCreate (data : DocumentCreate)
  /-- Among those that are not deleted. -/
  | documentFindFirst (id studentId : Id)
  | documentUpdate (id : Id) (deletedAt : Date)
  | assignmentFindUnique (id : Id)
  /-- With the school of the course. -/
  | courseEnrollmentFindUnique (courseId studentId : Id)
  | studentEnrollmentFindUnique (studentId schoolId : Id)
  | submissionFindUnique (assignmentId studentId : Id)
  | submissionUpsert (assignmentId studentId : Id) (contentUrl : String) (submittedAt : Date)

abbrev Ans : Stmt → Type
  | .now => Date
  | .randomBytes => String
  | .studentFindUnique _ => Option Student
  | .putObject .. => Unit
  | .deleteObject .. => Unit
  | .documentCreate _ => Document
  | .documentFindFirst .. => Option Document
  | .documentUpdate .. => Document
  | .assignmentFindUnique _ => Option Assignment
  | .courseEnrollmentFindUnique .. => Option Id
  | .studentEnrollmentFindUnique .. => Option Teaching.EnrollmentStatus
  | .submissionFindUnique .. => Option AssignmentSubmission
  | .submissionUpsert .. => AssignmentSubmission

abbrev interface : Interface := ⟨Stmt, Ans, Failure⟩

/-- The time, random bytes, or the identifier of a new row with the time of the database. -/
inductive Choice where
  | none
  | date (now : Date)
  | bytes (base : String)
  | row (id : Id) (now : Date)

instance : Inhabited Choice := ⟨.none⟩

/-- The name of 16 bytes: two digits for each. -/
def IsBase (base : String) : Prop := base.toList.length = 32 ∧ base.toList.all isHexDigit = true

instance (base : String) : Decidable (IsBase base) := inferInstanceAs (Decidable (_ ∧ _))

/-- Answer a statement; `none` where it cannot succeed. The answer to a write is the row as it stands
    then. Random bytes never repeat. -/
def exec : (q : Stmt) → Choice → World → Option (Ans q)
  | .now, .date now, _ => some now
  | .randomBytes, .bytes base, s => if IsBase base ∧ base ∉ s.drawn then some base else none
  | .studentFindUnique userId, _, s => some (s.site.students.find? userId)
  | .putObject .., _, _ => some ()
  | .deleteObject .., _, _ => some ()
  | .documentCreate data, .row id now, s =>
      if s.site.documents.contains id ∨ ¬ s.site.students.rows.any (·.id = data.studentId) then none
      else some (data.row id now)
  | .documentFindFirst id studentId, _, s =>
      some <| (s.site.documents.find? id).filter fun d => d.studentId = studentId ∧ d.deletedAt = none
  | .documentUpdate id deletedAt, _, s =>
      (s.site.documents.find? id).map fun d => { d with deletedAt := some deletedAt }
  | .assignmentFindUnique id, _, s => some (s.assignments.find? id)
  | .courseEnrollmentFindUnique courseId studentId, _, s =>
      some <| (s.site.courseEnrollments.find? (courseId, studentId)).bind fun e =>
        (s.site.courses.find? e.courseId).map (·.schoolId)
  | .studentEnrollmentFindUnique studentId schoolId, _, s =>
      some ((s.site.studentEnrollments.find? (studentId, schoolId)).map (·.status))
  | .submissionFindUnique assignmentId studentId, _, s =>
      some (s.submissions.find? (assignmentId, studentId))
  | .submissionUpsert assignmentId studentId contentUrl submittedAt, .row id now, s =>
      match s.submissions.find? (assignmentId, studentId) with
      | some x => some { x with contentUrl := some contentUrl, submittedAt }
      | none =>
          if s.submissions.rows.any fun x => x.id = id then none
          else some ⟨id, assignmentId, studentId, some contentUrl, now, none⟩
  | _, _, _ => none

/-! ## Writes -/

inductive Write where
  | drawn (base : String)
  | object (object : StoredObject)
  | noObject (bucket key : String)
  | document (row : Document)
  | submission (row : AssignmentSubmission)

def writes : (q : Stmt) → Ans q → List Write
  | .randomBytes, base => [.drawn base]
  | .putObject bucket key file, _ => [.object ⟨bucket, key, file.buffer, file.mimetype⟩]
  | .deleteObject bucket key, _ => [.noObject bucket key]
  | .documentCreate _, row => [.document row]
  | .documentUpdate .., row => [.document row]
  | .submissionUpsert .., row => [.submission row]
  | _, _ => []

def World.apply : Write → World → World
  | .drawn base, s => { s with drawn := base :: s.drawn }
  | .object object, s => { s with site := { s.site with objects := s.site.objects.put object } }
  | .noObject bucket key, s =>
      { s with site := { s.site with
                objects := s.site.objects.filter fun o => Keyed.key o ≠ (bucket, key) } }
  | .document row, s => { s with site := { s.site with documents := s.site.documents.put row } }
  | .submission row, s => { s with submissions := s.submissions.put row }

/-- What other services do. -/
inductive Elsewhere where
  | site (site : Site) (assignments : Table Assignment)
  | graded (assignmentId studentId : Id) (grade : Rat)

/-- No other service writes a document, or an object under the keys of documents. -/
def World.elsewhere : Elsewhere → World → World
  | .site site assignments, s =>
      { s with site := { site with documents := s.site.documents, objects := s.site.objects },
               assignments }
  | .graded assignmentId studentId grade, s =>
      { s with submissions := s.submissions.modify (assignmentId, studentId)
                (fun x => { x with grade := some grade }) fun _ => rfl }

abbrev model : Model interface where
  State := World
  Choice := Choice
  Write := Write
  Key := Unit
  Env := Elsewhere
  exec := exec
  writes := writes
  apply := World.apply
  key _ := none
  env := World.elsewhere

end GetPlatform.Deposits
