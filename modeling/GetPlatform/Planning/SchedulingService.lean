import GetPlatform.Planning.AcademicYearService

set_option autoImplicit false

/-! # Classes and requirements in `SchedulingService`

Every call carries the school of the administrator who makes it. -/

namespace GetPlatform.Planning

/-! ## Classes -/

def ensureClass (schoolId classId : Id) : Call SchoolClass := do
  let some schoolClass ← send (.schoolClassFindFirst classId schoolId)
    | throw <| .NotFoundException "Classe introuvable"
  return schoolClass

def assertClassNameAvailable (schoolId academicYearId : Id) (name : String) : Call Unit := do
  if (← send (.schoolClassFindFirstByName schoolId academicYearId (trim name))).isSome then
    throw <| .BadRequestException "Une classe porte déjà ce nom pour cette année scolaire"

def assertProgramBelongsToSchool (schoolId programId : Id) : Call Unit := do
  if (← send (.schoolProgramFindFirst programId schoolId)).isNone then
    throw <| .BadRequestException "Filière introuvable pour cette école"

def assertAcademicYearExists (academicYearId : Id) : Call Unit := do
  if (← send (.academicYearFindUnique academicYearId)).isNone then
    throw <| .BadRequestException "Année scolaire introuvable"

def createClass (schoolId : Id) (dto : CreateSchoolClassDto) : Call SchoolClass := do
  assertAcademicYearExists dto.academicYearId
  ifGiven dto.programId (assertProgramBelongsToSchool schoolId)
  assertClassNameAvailable schoolId dto.academicYearId dto.name
  send (.schoolClassCreate schoolId dto)

def updateClass (schoolId classId : Id) (dto : UpdateSchoolClassDto) : Call SchoolClass := do
  let schoolClass ← ensureClass schoolId classId
  ifGiven dto.academicYearId assertAcademicYearExists
  ifGiven dto.programId.join (assertProgramBelongsToSchool schoolId)
  ifGiven dto.name fun name => do
    if name ≠ "" ∧ trim name ≠ schoolClass.name then
      assertClassNameAvailable schoolId (dto.academicYearId.getD schoolClass.academicYearId) name
  send (.schoolClassUpdate classId dto)

def deleteClass (schoolId classId : Id) : Call Unit := do
  let _ ← ensureClass schoolId classId
  send (.schoolClassDelete classId)

/-! ## Requirements -/

def ensureRequirement (schoolId classId requirementId : Id) : Call SubjectRequirement := do
  let some requirement ← send (.subjectRequirementFindFirst requirementId classId schoolId)
    | throw <| .NotFoundException "Besoin horaire introuvable"
  return requirement

def assertSubjectBelongsToSchool (schoolId subjectId : Id) : Call Unit := do
  if (← send (.schoolSubjectFindFirst subjectId schoolId)).isNone then
    throw <| .BadRequestException "Matière introuvable pour cette école"

def assertTeacherQualified (schoolId teacherId subjectId : Id) : Call Unit := do
  if (← send (.teacherSchoolSubjectFindFirst subjectId schoolId teacherId)).isNone then
    throw <| .BadRequestException
      "Ce professeur n'est pas déclaré qualifié pour cette matière dans votre école"

def createRequirement (schoolId classId : Id) (dto : CreateSubjectRequirementDto) :
    Call SubjectRequirement := do
  let _ ← ensureClass schoolId classId
  assertSubjectBelongsToSchool schoolId dto.subjectId
  assertAcademicYearExists dto.academicYearId
  if (← send (.subjectRequirementFindUnique classId dto.subjectId)).isSome then
    throw <| .BadRequestException "Cette matière est déjà définie pour cette classe"
  send (.subjectRequirementCreate schoolId classId dto)

def updateRequirement (schoolId classId requirementId : Id) (dto : UpdateSubjectRequirementDto) :
    Call SubjectRequirement := do
  let _ ← ensureRequirement schoolId classId requirementId
  send (.subjectRequirementUpdate requirementId dto)

def deleteRequirement (schoolId classId requirementId : Id) : Call Unit := do
  let _ ← ensureRequirement schoolId classId requirementId
  send (.subjectRequirementDelete requirementId)

def assignTeacher (schoolId classId requirementId : Id) (dto : AssignTeacherToRequirementDto) :
    Call TeacherAssignment := do
  let requirement ← ensureRequirement schoolId classId requirementId
  assertTeacherQualified schoolId dto.teacherId requirement.subjectId
  send (.teacherAssignmentUpsert requirementId dto.teacherId)

def unassignTeacher (schoolId classId requirementId : Id) : Call Unit := do
  let _ ← ensureRequirement schoolId classId requirementId
  try send (.teacherAssignmentDelete requirementId) catch _ => pure ()

/-! ## Calls -/

inductive Op where
  | createYear (dto : CreateAcademicYearDto)
  | updateYear (id : Id) (dto : UpdateAcademicYearDto)
  | deleteYear (id : Id)
  | createClass (schoolId : Id) (dto : CreateSchoolClassDto)
  | updateClass (schoolId classId : Id) (dto : UpdateSchoolClassDto)
  | deleteClass (schoolId classId : Id)
  | createRequirement (schoolId classId : Id) (dto : CreateSubjectRequirementDto)
  | updateRequirement (schoolId classId requirementId : Id) (dto : UpdateSubjectRequirementDto)
  | deleteRequirement (schoolId classId requirementId : Id)
  | assignTeacher (schoolId classId requirementId : Id) (dto : AssignTeacherToRequirementDto)
  | unassignTeacher (schoolId classId requirementId : Id)

/-- What a call returns. -/
inductive Reply where
  | year (row : AcademicYear)
  | schoolClass (row : SchoolClass)
  | requirement (row : SubjectRequirement)
  | assignment (row : TeacherAssignment)
  | id (id : Id)

def program : Op → Call Reply
  | .createYear dto => .year <$> create dto
  | .updateYear id dto => .year <$> update id dto
  | .deleteYear id => (fun _ => .id id) <$> delete id
  | .createClass schoolId dto => .schoolClass <$> createClass schoolId dto
  | .updateClass schoolId classId dto => .schoolClass <$> updateClass schoolId classId dto
  | .deleteClass schoolId classId => (fun _ => .id classId) <$> deleteClass schoolId classId
  | .createRequirement schoolId classId dto =>
      .requirement <$> createRequirement schoolId classId dto
  | .updateRequirement schoolId classId requirementId dto =>
      .requirement <$> updateRequirement schoolId classId requirementId dto
  | .deleteRequirement schoolId classId requirementId =>
      (fun _ => .id requirementId) <$> deleteRequirement schoolId classId requirementId
  | .assignTeacher schoolId classId requirementId dto =>
      .assignment <$> assignTeacher schoolId classId requirementId dto
  | .unassignTeacher schoolId classId requirementId =>
      (fun _ => .id requirementId) <$> unassignTeacher schoolId classId requirementId

end GetPlatform.Planning
