import GetPlatform.Store.Table
import GetPlatform.Text

set_option autoImplicit false

/-! # Classes and what they need: the rows

The tables behind the planning of a school: academic years, classes, the hours of each subject that a
class requires, and the teachers who cover them. Identifiers are numbers where the schema has UUIDs,
and a date is the instant it names. -/

namespace GetPlatform.Planning

abbrev Id := Nat

/-! ## Rows -/

structure AcademicYear where
  id : Id
  label : String
  startDate : Int
  endDate : Int
  isCurrent : Bool
  deriving DecidableEq

structure SchoolProgram where
  id : Id
  schoolId : Id
  deriving DecidableEq

structure SchoolSubject where
  id : Id
  schoolId : Id
  deriving DecidableEq

/-- A teacher is assigned to a school. -/
structure TeacherSchool where
  id : Id
  teacherId : Id
  schoolId : Id
  isActive : Bool
  deriving DecidableEq

/-- A teacher is declared qualified for a subject in a school. -/
structure TeacherSchoolSubject where
  teacherSchoolId : Id
  subjectId : Id
  deriving DecidableEq

structure SchoolClass where
  id : Id
  schoolId : Id
  academicYearId : Id
  programId : Option Id
  name : String
  level : Option Int
  studentCount : Option Int
  isActive : Bool
  deriving DecidableEq

/-- What a class needs: so many hours of a subject a week. -/
structure SubjectRequirement where
  id : Id
  schoolId : Id
  academicYearId : Id
  classId : Id
  subjectId : Id
  hoursPerWeek : Int
  deriving DecidableEq

/-- The teacher who covers a requirement. -/
structure TeacherAssignment where
  id : Id
  subjectRequirementId : Id
  teacherId : Id
  deriving DecidableEq

instance : Keyed AcademicYear Id := ⟨(·.id)⟩
instance : Keyed SchoolProgram Id := ⟨(·.id)⟩
instance : Keyed SchoolSubject Id := ⟨(·.id)⟩
instance : Keyed TeacherSchool Id := ⟨(·.id)⟩
instance : Keyed TeacherSchoolSubject (Id × Id) := ⟨fun q => (q.teacherSchoolId, q.subjectId)⟩
instance : Keyed SchoolClass Id := ⟨(·.id)⟩
instance : Keyed SubjectRequirement Id := ⟨(·.id)⟩
instance : Keyed TeacherAssignment Id := ⟨(·.subjectRequirementId)⟩

/-! ## What the requests carry

A field that a request may leave out is an `Option`, and a column that it may also empty is one
twice. -/

structure CreateAcademicYearDto where
  label : String
  startDate : Int
  endDate : Int
  isCurrent : Option Bool := none

structure UpdateAcademicYearDto where
  label : Option String := none
  startDate : Option Int := none
  endDate : Option Int := none
  isCurrent : Option Bool := none

structure CreateSchoolClassDto where
  academicYearId : Id
  programId : Option Id := none
  name : String
  level : Option Int := none
  studentCount : Option Int := none
  isActive : Option Bool := none

structure UpdateSchoolClassDto where
  academicYearId : Option Id := none
  programId : Option (Option Id) := none
  name : Option String := none
  level : Option (Option Int) := none
  studentCount : Option (Option Int) := none
  isActive : Option Bool := none

structure CreateSubjectRequirementDto where
  subjectId : Id
  academicYearId : Id
  hoursPerWeek : Int

structure UpdateSubjectRequirementDto where
  subjectId : Option Id := none
  academicYearId : Option Id := none
  hoursPerWeek : Option Int := none

structure AssignTeacherToRequirementDto where
  teacherId : Id

/-! ## What the queries set -/

/-- The row a request to create a class asks for, but for its identifier. -/
def CreateSchoolClassDto.row (dto : CreateSchoolClassDto) (schoolId id : Id) : SchoolClass :=
  { id, schoolId, academicYearId := dto.academicYearId, programId := dto.programId,
    name := trim dto.name, level := dto.level, studentCount := dto.studentCount,
    isActive := dto.isActive.getD true }

/-- What a request to update a class sets; the other columns are left as they are. -/
def UpdateSchoolClassDto.set (dto : UpdateSchoolClassDto) (c : SchoolClass) : SchoolClass :=
  { c with
    academicYearId := dto.academicYearId.getD c.academicYearId
    programId := dto.programId.getD c.programId
    name := (dto.name.map trim).getD c.name
    level := dto.level.getD c.level
    studentCount := dto.studentCount.getD c.studentCount
    isActive := dto.isActive.getD c.isActive }

def CreateSubjectRequirementDto.row (dto : CreateSubjectRequirementDto) (schoolId classId id : Id) :
    SubjectRequirement :=
  { id, schoolId, academicYearId := dto.academicYearId, classId, subjectId := dto.subjectId,
    hoursPerWeek := dto.hoursPerWeek }

def UpdateSubjectRequirementDto.set (dto : UpdateSubjectRequirementDto) (r : SubjectRequirement) :
    SubjectRequirement :=
  { r with
    academicYearId := dto.academicYearId.getD r.academicYearId
    subjectId := dto.subjectId.getD r.subjectId
    hoursPerWeek := dto.hoursPerWeek.getD r.hoursPerWeek }

def CreateAcademicYearDto.row (dto : CreateAcademicYearDto) (id : Id) : AcademicYear :=
  { id, label := trim dto.label, startDate := dto.startDate, endDate := dto.endDate,
    isCurrent := dto.isCurrent.getD false }

def UpdateAcademicYearDto.set (dto : UpdateAcademicYearDto) (y : AcademicYear) : AcademicYear :=
  { y with
    label := (dto.label.map trim).getD y.label
    startDate := dto.startDate.getD y.startDate
    endDate := dto.endDate.getD y.endDate
    isCurrent := dto.isCurrent.getD y.isCurrent }

end GetPlatform.Planning
