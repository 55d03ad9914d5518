import GetPlatform.Store.Keeps
import GetPlatform.Schools.SchoolService

set_option autoImplicit false

/-! # What the calls send

Most statements leave programmes, academic years, enrolments and course lists as they are: the calls
about subjects, teachers and courses send no others. A student's courses are changed by three statements
that come together, and the calls about academic years change little more than their rows and labels. -/

namespace GetPlatform.Schools

open Prog

/-- The statement leaves programmes, academic years, enrolments and course lists alone. -/
def Ordinary : Stmt → Prop
  | .schoolProgramCreate .. => False
  | .schoolProgramUpdate .. => False
  | .schoolAcademicYearUpdateManyCurrent .. => False
  | .schoolAcademicYearCreate .. => False
  | .schoolAcademicYearUpdate .. => False
  | .studentEnrollmentUpsert .. => False
  | .studentEnrollmentUpdate .. => False
  | .studentEnrollmentUpdateStatus .. => False
  | .studentEnrollmentUpdateLabel .. => False
  | .courseEnrollmentDeleteMany .. => False
  | .courseEnrollmentUpsert .. => False
  | _ => True

/-- The statement is about the courses of a student. -/
def Attending : Stmt → Prop
  | .courseFindMany .. => True
  | .courseEnrollmentDeleteMany .. => True
  | .courseEnrollmentUpsert .. => True
  | _ => False

/-- The statement checks nothing that another call could break: it neither shortens a programme nor
    enrols, and leaves course lists alone. -/
def Harmless : Stmt → Prop
  | .schoolProgramUpdate .. => False
  | .studentEnrollmentUpsert .. => False
  | .studentEnrollmentUpdate .. => False
  | .studentEnrollmentUpdateStatus .. => False
  | .courseEnrollmentDeleteMany .. => False
  | .courseEnrollmentUpsert .. => False
  | _ => True

theorem Ordinary.harmless {q : Stmt} (h : Ordinary q) : Harmless q := by
  cases q <;> first | exact h.elim | trivial

/-- The tables that ordinary statements leave alone are the same. -/
structure SameRecords (s s' : World) : Prop where
  students : s'.students = s.students
  programs : s'.programs = s.programs
  academicYears : s'.academicYears = s.academicYears
  studentEnrollments : s'.studentEnrollments = s.studentEnrollments

theorem sameRecords {q : Stmt} (hq : Ordinary q ∨ Attending q) (a : Ans q) (s : World) :
    SameRecords s (model.applyAll (writes q a) s) := by
  refine model.applyAll_keeps (P := SameRecords s) (fun w hw s' hs' => ?_) ⟨rfl, rfl, rfl, rfl⟩
  have hsame : ∀ s'', s''.students = s'.students → s''.programs = s'.programs →
      s''.academicYears = s'.academicYears → s''.studentEnrollments = s'.studentEnrollments →
      SameRecords s s'' := fun s'' h₁ h₂ h₃ h₄ =>
    ⟨h₁.trans hs'.students, h₂.trans hs'.programs, h₃.trans hs'.academicYears,
      h₄.trans hs'.studentEnrollments⟩
  cases q with
  | teacherSchoolSubjectDeleteMany teacherSchoolId =>
      obtain ⟨id, -, rfl⟩ := List.mem_map.1 hw
      exact hsame _ rfl rfl rfl rfl
  | teacherSchoolSubjectCreateMany teacherSchoolId subjectIds =>
      obtain ⟨id, -, rfl⟩ := List.mem_map.1 hw
      exact hsame _ rfl rfl rfl rfl
  | courseSlotUpdateMany courseId teacherId =>
      obtain ⟨id, -, rfl⟩ := List.mem_map.1 hw
      exact hsame _ rfl rfl rfl rfl
  | courseEnrollmentDeleteMany studentId schoolId courseIds =>
      obtain ⟨id, -, rfl⟩ := List.mem_map.1 hw
      exact hsame _ rfl rfl rfl rfl
  | _ =>
      first
        | exact hq.elim False.elim False.elim
        | (obtain rfl := List.mem_singleton.1 hw; exact hsame _ rfl rfl rfl rfl)
        | cases hw

theorem sends_perform {P : Stmt → Prop} {q : Stmt} :
    @Prog.Sends interface Err (no_index (Ans q)) P (perform q) ↔ P q :=
  @sends_query interface Err P .failure q

/-- A statement, and what follows its answer. -/
theorem sends_step {P : Stmt → Prop} {β : Type} {q : Stmt} {f : Ans q → Call β} (hq : P q)
    (hf : ∀ a, (f a).Sends P) : ((perform q).handle f .fail).Sends P :=
  Sends.handle (sends_perform.2 hq) hf fun _ => trivial

theorem upsertCourses_attending (studentId : Id) (courseIds : List Id) :
    (upsertCourses studentId courseIds).Sends Attending := by
  induction courseIds with
  | nil => trivial
  | cons courseId courseIds ih => exact sends_step trivial fun _ => ih

theorem syncCourseEnrollments_attending (studentId schoolId programId : Id) (programLevel : Int) :
    (syncCourseEnrollments studentId schoolId programId programLevel).Sends Attending :=
  sends_step trivial fun _ =>
    Sends.transaction (sends_step trivial fun _ => upsertCourses_attending ..)

/-! ## Academic years and labels -/

theorem updateLabels_harmless (labels : List (Id × String)) :
    (updateLabels labels).Sends Harmless := by
  induction labels with
  | nil => trivial
  | cons label labels ih => exact sends_step trivial fun _ => ih

theorem refreshProgramEnrollmentLabels_harmless (programId : Id) (programName : String) :
    (refreshProgramEnrollmentLabels programId programName).Sends Harmless :=
  sends_step trivial fun _ => Sends.transaction (updateLabels_harmless _)

theorem refreshAcademicYearEnrollmentLabels_harmless (academicYearId : Id)
    (academicYearLabel : String) :
    (refreshAcademicYearEnrollmentLabels academicYearId academicYearLabel).Sends Harmless :=
  sends_step trivial fun _ => Sends.transaction (updateLabels_harmless _)

theorem assertEnrollmentPeriod_harmless (opensAt closesAt : Int) :
    (assertEnrollmentPeriod opensAt closesAt).Sends Harmless := by
  unfold assertEnrollmentPeriod
  split <;> trivial

theorem createAcademicYear_harmless (schoolId : Id) (dto : CreateSchoolAcademicYearDto) :
    (createAcademicYear schoolId dto).Sends Harmless := by
  refine Sends.handle (assertEnrollmentPeriod_harmless ..) (fun _ => Sends.transaction ?_)
    fun _ => trivial
  split
  · exact sends_step trivial fun _ => sends_perform.2 trivial
  · exact sends_perform.2 trivial

theorem updateAcademicYear_harmless (schoolId id : Id) (dto : UpdateSchoolAcademicYearDto) :
    (updateAcademicYear schoolId id dto).Sends Harmless := by
  refine sends_step trivial fun found => ?_
  cases found with
  | none => trivial
  | some academicYear =>
      refine Sends.handle (assertEnrollmentPeriod_harmless ..)
        (fun _ => Sends.handle (Sends.transaction ?_) (fun updated => ?_) fun _ => trivial)
        fun _ => trivial
      · split
        · exact sends_step trivial fun _ => sends_perform.2 trivial
        · exact sends_perform.2 trivial
      · split
        · exact Sends.handle (refreshAcademicYearEnrollmentLabels_harmless ..) (fun _ => trivial)
            fun _ => trivial
        · trivial

/-! ## Subjects, teachers and courses -/

theorem updateSubject_ordinary (schoolId id : Id) (isActive : Bool) :
    (updateSubject schoolId id isActive).Sends Ordinary := by
  refine sends_step trivial fun found => ?_
  cases found with
  | none => trivial
  | some subject => exact sends_perform.2 trivial

theorem syncTeacherSubjects_ordinary (schoolId teacherSchoolId : Id) (subjectIds : List Id) :
    (syncTeacherSubjects schoolId teacherSchoolId subjectIds).Sends Ordinary :=
  sends_step trivial fun _ =>
    Sends.transaction (sends_step trivial fun _ => sends_perform.2 trivial)

theorem assignTeacher_ordinary (schoolId : Id) (dto : AssignTeacherDto) :
    (assignTeacher schoolId dto).Sends Ordinary := by
  refine sends_step trivial fun found => ?_
  cases found with
  | none => trivial
  | some teacher =>
      refine sends_step trivial fun assignment => ?_
      split
      · exact Sends.handle (syncTeacherSubjects_ordinary ..) (fun _ => sends_perform.2 trivial)
          fun _ => trivial
      · exact sends_perform.2 trivial

theorem updateTeacherAssignment_ordinary (schoolId teacherSchoolId : Id)
    (dto : UpdateTeacherAssignmentDto) :
    (updateTeacherAssignment schoolId teacherSchoolId dto).Sends Ordinary := by
  refine sends_step trivial fun found => ?_
  cases found with
  | none => trivial
  | some assignment =>
      refine sends_step trivial fun updated => ?_
      split
      · exact Sends.handle (syncTeacherSubjects_ordinary ..) (fun _ => trivial) fun _ => trivial
      · trivial

theorem ensureActiveTeacherAssignment_ordinary (schoolId teacherId : Id) :
    (ensureActiveTeacherAssignment schoolId teacherId).Sends Ordinary :=
  sends_step trivial fun found => by cases found <;> trivial

theorem createCourse_ordinary (schoolId : Id) (dto : CreateSchoolCourseDto) :
    (createCourse schoolId dto).Sends Ordinary := by
  refine Sends.handle (ensureActiveTeacherAssignment_ordinary ..) (fun _ => ?_) fun _ => trivial
  refine sends_step trivial fun subject => sends_step trivial fun program => ?_
  split
  · exact (sends_ite ..).2 ⟨fun _ => trivial, fun _ => sends_perform.2 trivial⟩
  · trivial

theorem updateCourse_ordinary (schoolId courseId : Id) (dto : UpdateSchoolCourseDto) :
    (updateCourse schoolId courseId dto).Sends Ordinary := by
  have hsubject : ∀ id, (namedSubject schoolId id).Sends Ordinary := fun id => by
    cases id with
    | none => trivial
    | some id => exact sends_perform.2 trivial
  have hprogram : ∀ id, (namedProgram schoolId id).Sends Ordinary := fun id => by
    cases id with
    | none => trivial
    | some id => exact sends_perform.2 trivial
  have hslots : ∀ teacherId, (moveCourseSlots courseId teacherId).Sends Ordinary := fun teacherId =>
    Sends.handle (sends_step trivial fun _ => trivial) (fun _ => trivial) fun _ => trivial
  refine sends_step trivial fun found => ?_
  cases found with
  | none => trivial
  | some course =>
      have hrest : ∀ teacherId, (do
          ensureActiveTeacherAssignment schoolId teacherId
          let subject ← namedSubject schoolId dto.subjectId.join
          let program ← namedProgram schoolId dto.programId.join
          if (dto.subjectId.join.isSome ∧ subject.isNone) ∨
              (dto.programId.join.isSome ∧ program.isNone) then
            throw <| .NotFoundException "Matière ou filière introuvable"
          let updated ← perform <| .courseUpdate courseId
            { teacherId, code := dto.code, title := subject.map (·.name), subjectId := dto.subjectId
              programId := dto.programId, programLevel := dto.programLevel
              level := courseLevel program dto.programLevel.join, isPublished := dto.isPublished }
          if dto.teacherId.any (· ≠ course.teacherId) then moveCourseSlots courseId teacherId
          return updated : Call Course).Sends Ordinary := by
        intro teacherId
        refine Sends.handle (ensureActiveTeacherAssignment_ordinary ..) (fun _ => ?_) fun _ => trivial
        refine Sends.handle (hsubject _) (fun subject => ?_) fun _ => trivial
        refine Sends.handle (hprogram _) (fun program => ?_) fun _ => trivial
        refine (sends_ite ..).2 ⟨fun _ => trivial, fun _ => sends_step trivial fun _ => ?_⟩
        split
        · exact Sends.handle (hslots _) (fun _ => trivial) fun _ => trivial
        · trivial
      simp only
      split
      · refine sends_step trivial fun activeEnrollmentCount => ?_
        split
        · trivial
        · exact hrest _
      · exact hrest _

end GetPlatform.Schools
