import GetPlatform.Store.Journal
import GetPlatform.Planning.Types

set_option autoImplicit false

/-! # The database behind the planning

`World` is the content of the tables. Besides its identifier, a label of a year, the name of a class in
a school and a year, and the subject of a requirement in a class are unique; a statement that would
break one of these, or a reference, is refused. Deleting a class deletes its requirements, and
deleting a requirement the teacher assigned to it; a year that is referred to cannot be deleted. -/

namespace GetPlatform.Planning

structure World where
  academicYears : Table AcademicYear
  programs : Table SchoolProgram
  subjects : Table SchoolSubject
  teacherSchools : Table TeacherSchool
  teacherSchoolSubjects : Table TeacherSchoolSubject
  classes : Table SchoolClass
  requirements : Table SubjectRequirement
  assignments : Table TeacherAssignment

/-- A database without a row. -/
def World.empty : World where
  academicYears := .empty
  programs := .empty
  subjects := .empty
  teacherSchools := .empty
  teacherSchoolSubjects := .empty
  classes := .empty
  requirements := .empty
  assignments := .empty

/-- The exceptions a call can end with. -/
inductive Err where
  | NotFoundException (message : String)
  | BadRequestException (message : String)
  | database
  deriving DecidableEq

inductive Failure where
  | database
  deriving DecidableEq, Inhabited

/-! ## Statements -/

inductive Stmt where
  | academicYearFindUnique (id : Id)
  | academicYearFindUniqueByLabel (label : String)
  /-- Clear the flag of every year that has it, but for one. -/
  | academicYearUpdateManyCurrent (excludedId : Option Id)
  | academicYearCreate (data : CreateAcademicYearDto)
  | academicYearUpdate (id : Id) (data : UpdateAcademicYearDto)
  | academicYearDelete (id : Id)
  | schoolClassCount (academicYearId : Id)
  | schoolProgramFindFirst (id schoolId : Id)
  | schoolClassFindFirst (id schoolId : Id)
  | schoolClassFindFirstByName (schoolId academicYearId : Id) (name : String)
  | schoolClassCreate (schoolId : Id) (data : CreateSchoolClassDto)
  | schoolClassUpdate (id : Id) (data : UpdateSchoolClassDto)
  | schoolClassDelete (id : Id)
  | schoolSubjectFindFirst (id schoolId : Id)
  | subjectRequirementFindUnique (classId subjectId : Id)
  | subjectRequirementFindFirst (id classId schoolId : Id)
  | subjectRequirementCreate (schoolId classId : Id) (data : CreateSubjectRequirementDto)
  | subjectRequirementUpdate (id : Id) (data : UpdateSubjectRequirementDto)
  | subjectRequirementDelete (id : Id)
  | teacherSchoolSubjectFindFirst (subjectId schoolId teacherId : Id)
  | teacherAssignmentUpsert (subjectRequirementId teacherId : Id)
  | teacherAssignmentDelete (subjectRequirementId : Id)

abbrev Ans : Stmt → Type
  | .academicYearFindUnique _ => Option AcademicYear
  | .academicYearFindUniqueByLabel _ => Option AcademicYear
  | .academicYearUpdateManyCurrent _ => List Id
  | .academicYearCreate _ => AcademicYear
  | .academicYearUpdate .. => AcademicYear
  | .academicYearDelete _ => Unit
  | .schoolClassCount _ => Nat
  | .schoolProgramFindFirst .. => Option SchoolProgram
  | .schoolClassFindFirst .. => Option SchoolClass
  | .schoolClassFindFirstByName .. => Option SchoolClass
  | .schoolClassCreate .. => SchoolClass
  | .schoolClassUpdate .. => SchoolClass
  | .schoolClassDelete _ => Unit
  | .schoolSubjectFindFirst .. => Option SchoolSubject
  | .subjectRequirementFindUnique .. => Option SubjectRequirement
  | .subjectRequirementFindFirst .. => Option SubjectRequirement
  | .subjectRequirementCreate .. => SubjectRequirement
  | .subjectRequirementUpdate .. => SubjectRequirement
  | .subjectRequirementDelete _ => Unit
  | .teacherSchoolSubjectFindFirst .. => Option TeacherSchoolSubject
  | .teacherAssignmentUpsert .. => TeacherAssignment
  | .teacherAssignmentDelete _ => Unit

abbrev interface : Interface := ⟨Stmt, Ans, Failure⟩

namespace World

/-- The years whose flag a call clears. -/
def currentBut (s : World) (excludedId : Option Id) : List AcademicYear :=
  s.academicYears.rows.filter fun y => y.isCurrent ∧ excludedId ≠ some y.id

/-- No other year has the label. -/
def labelFree (s : World) (row : AcademicYear) : Bool :=
  s.academicYears.rows.all fun y => y.id = row.id ∨ y.label ≠ row.label

/-- No other class of the school and the year has the name, and what the row refers to exists. -/
def classFits (s : World) (row : SchoolClass) : Bool :=
  (s.classes.rows.all fun c => c.id = row.id ∨
      ¬(c.schoolId = row.schoolId ∧ c.academicYearId = row.academicYearId ∧ c.name = row.name)) ∧
    s.academicYears.contains row.academicYearId ∧ row.programId.all s.programs.contains

/-- No other requirement of the class has the subject, and what the row refers to exists. -/
def requirementFits (s : World) (row : SubjectRequirement) : Bool :=
  (s.requirements.rows.all fun r => r.id = row.id ∨
      ¬(r.classId = row.classId ∧ r.subjectId = row.subjectId)) ∧
    s.academicYears.contains row.academicYearId ∧ s.classes.contains row.classId ∧
    s.subjects.contains row.subjectId

/-- A qualification of a teacher for a subject in a school where he is active. -/
def qualification (s : World) (subjectId schoolId teacherId : Id) : Option TeacherSchoolSubject :=
  s.teacherSchoolSubjects.rows.find? fun q => q.subjectId = subjectId ∧
    (s.teacherSchools.find? q.teacherSchoolId).any fun a =>
      a.schoolId = schoolId ∧ a.teacherId = teacherId ∧ a.isActive

end World

/-- Answer a statement; `none` where it cannot succeed. The choice is the identifier of a row that is
    created. -/
def exec : (q : Stmt) → Id → World → Option (Ans q)
  | .academicYearFindUnique id, _, s => some (s.academicYears.find? id)
  | .academicYearFindUniqueByLabel label, _, s =>
      some (s.academicYears.rows.find? fun y => y.label = label)
  | .academicYearUpdateManyCurrent excludedId, _, s => some ((s.currentBut excludedId).map (·.id))
  | .academicYearCreate data, id, s =>
      if s.academicYears.contains id ∨ ¬ s.labelFree (data.row id) then none else some (data.row id)
  | .academicYearUpdate id data, _, s =>
      ((s.academicYears.find? id).map data.set).filter s.labelFree
  | .academicYearDelete id, _, s =>
      if s.academicYears.contains id ∧ s.classes.rows.all (·.academicYearId ≠ id) ∧
        s.requirements.rows.all (·.academicYearId ≠ id) then some () else none
  | .schoolClassCount academicYearId, _, s => some (s.classes.count (·.academicYearId = academicYearId))
  | .schoolProgramFindFirst id schoolId, _, s =>
      some ((s.programs.find? id).filter (·.schoolId = schoolId))
  | .schoolClassFindFirst id schoolId, _, s =>
      some ((s.classes.find? id).filter (·.schoolId = schoolId))
  | .schoolClassFindFirstByName schoolId academicYearId name, _, s =>
      some (s.classes.rows.find? fun c =>
        c.schoolId = schoolId ∧ c.academicYearId = academicYearId ∧ c.name = name)
  | .schoolClassCreate schoolId data, id, s =>
      if s.classes.contains id ∨ ¬ s.classFits (data.row schoolId id) then none
      else some (data.row schoolId id)
  | .schoolClassUpdate id data, _, s => ((s.classes.find? id).map data.set).filter s.classFits
  | .schoolClassDelete id, _, s => if s.classes.contains id then some () else none
  | .schoolSubjectFindFirst id schoolId, _, s =>
      some ((s.subjects.find? id).filter (·.schoolId = schoolId))
  | .subjectRequirementFindUnique classId subjectId, _, s =>
      some (s.requirements.rows.find? fun r => r.classId = classId ∧ r.subjectId = subjectId)
  | .subjectRequirementFindFirst id classId schoolId, _, s =>
      some ((s.requirements.find? id).filter fun r => r.classId = classId ∧ r.schoolId = schoolId)
  | .subjectRequirementCreate schoolId classId data, id, s =>
      if s.requirements.contains id ∨ ¬ s.requirementFits (data.row schoolId classId id) then none
      else some (data.row schoolId classId id)
  | .subjectRequirementUpdate id data, _, s =>
      ((s.requirements.find? id).map data.set).filter s.requirementFits
  | .subjectRequirementDelete id, _, s => if s.requirements.contains id then some () else none
  | .teacherSchoolSubjectFindFirst subjectId schoolId teacherId, _, s =>
      some (s.qualification subjectId schoolId teacherId)
  | .teacherAssignmentUpsert subjectRequirementId teacherId, id, s =>
      match s.assignments.find? subjectRequirementId with
      | some a => some { a with teacherId }
      | none =>
          if s.requirements.contains subjectRequirementId ∧ s.assignments.rows.all (·.id ≠ id) then
            some ⟨id, subjectRequirementId, teacherId⟩
          else none
  | .teacherAssignmentDelete subjectRequirementId, _, s =>
      if s.assignments.contains subjectRequirementId then some () else none

/-! ## Writes -/

inductive Write where
  | year (row : AcademicYear)
  | notCurrent (id : Id)
  | noYear (id : Id)
  | schoolClass (row : SchoolClass)
  | noClass (id : Id)
  | requirement (row : SubjectRequirement)
  | noRequirement (id : Id)
  | assignment (row : TeacherAssignment)
  | noAssignment (subjectRequirementId : Id)

/-- The rows a statement changes, given its answer. -/
def writes : (q : Stmt) → Ans q → List Write
  | .academicYearUpdateManyCurrent _, ids => List.map .notCurrent ids
  | .academicYearCreate _, row => [.year row]
  | .academicYearUpdate .., row => [.year row]
  | .academicYearDelete id, _ => [.noYear id]
  | .schoolClassCreate .., row => [.schoolClass row]
  | .schoolClassUpdate .., row => [.schoolClass row]
  | .schoolClassDelete id, _ => [.noClass id]
  | .subjectRequirementCreate .., row => [.requirement row]
  | .subjectRequirementUpdate .., row => [.requirement row]
  | .subjectRequirementDelete id, _ => [.noRequirement id]
  | .teacherAssignmentUpsert .., row => [.assignment row]
  | .teacherAssignmentDelete id, _ => [.noAssignment id]
  | _, _ => []

/-- Clear the flag of a year. -/
def AcademicYear.clear (y : AcademicYear) : AcademicYear := { y with isCurrent := false }

theorem AcademicYear.key_clear (y : AcademicYear) : Keyed.key y.clear = Keyed.key y := rfl

namespace World

/-- The class of a requirement is `classId`. -/
def requires (s : World) (classId requirementId : Id) : Bool :=
  (s.requirements.find? requirementId).any (·.classId = classId)

def apply : Write → World → World
  | .year row, s => { s with academicYears := s.academicYears.put row }
  | .notCurrent id, s =>
      { s with academicYears := s.academicYears.modify id .clear AcademicYear.key_clear }
  | .noYear id, s => { s with academicYears := s.academicYears.filter (·.id ≠ id) }
  | .schoolClass row, s => { s with classes := s.classes.put row }
  | .noClass id, s =>
      { s with
        classes := s.classes.filter (·.id ≠ id)
        requirements := s.requirements.filter (·.classId ≠ id)
        assignments := s.assignments.filter fun a => !s.requires id a.subjectRequirementId }
  | .requirement row, s => { s with requirements := s.requirements.put row }
  | .noRequirement id, s =>
      { s with
        requirements := s.requirements.filter (·.id ≠ id)
        assignments := s.assignments.filter (·.subjectRequirementId ≠ id) }
  | .assignment row, s => { s with assignments := s.assignments.put row }
  | .noAssignment id, s =>
      { s with assignments := s.assignments.filter (·.subjectRequirementId ≠ id) }

end World

/-! ## What other services do meanwhile -/

/-- New programmes and subjects, and the teachers of a school with their qualifications. -/
inductive Change where
  | program (row : SchoolProgram)
  | subject (row : SchoolSubject)
  | teacherSchool (row : TeacherSchool)
  | qualify (row : TeacherSchoolSubject)
  | disqualify (row : TeacherSchoolSubject)

def World.change : Change → World → World
  | .program row, s => { s with programs := s.programs.insert row }
  | .subject row, s => { s with subjects := s.subjects.insert row }
  | .teacherSchool row, s => { s with teacherSchools := s.teacherSchools.put row }
  | .qualify row, s => { s with teacherSchoolSubjects := s.teacherSchoolSubjects.put row }
  | .disqualify row, s =>
      { s with teacherSchoolSubjects := s.teacherSchoolSubjects.filter (· ≠ row) }

abbrev model : Model interface where
  State := World
  Choice := Id
  Write := Write
  Key := Empty
  Env := Change
  exec := exec
  writes := writes
  apply := World.apply
  key := fun _ => none
  env := World.change

abbrev Call (α : Type) := Prog interface Err α

def send (q : Stmt) : Call (Ans q) := @Prog.query interface Err (fun _ => .database) q

end GetPlatform.Planning
