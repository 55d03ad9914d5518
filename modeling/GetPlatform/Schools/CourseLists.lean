import GetPlatform.Schools.Borders
import GetPlatform.Schools.Statements

set_option autoImplicit false

/-! # The courses of a student

Enrolling gives a student the courses that are published at the level, all of them and no others of the
school, in one transaction. Nothing else writes course lists: courses that are created, moved or
withdrawn later reach no student before the next enrolment. -/

namespace GetPlatform.Schools

open Prog

/-- The student is enrolled in a course of the school. -/
def Attends (s : World) (studentId schoolId courseId : Id) : Prop :=
  (⟨courseId, studentId⟩ : CourseEnrollment) ∈ s.courseEnrollments ∧
    ∃ course, s.courses.find? courseId = some course ∧ course.schoolId = schoolId

/-- The course of the school is published at the level of the programme. -/
def Offered (s : World) (schoolId programId : Id) (level : Int) (courseId : Id) : Prop :=
  ∃ course, s.courses.find? courseId = some course ∧ course.schoolId = schoolId ∧
    course.programId = some programId ∧ course.programLevel = some level ∧ course.isPublished = true

/-- Every course that has students exists. -/
def CoursesExist (s : World) : Prop :=
  ∀ e ∈ s.courseEnrollments, s.courses.contains e.courseId = true

theorem mem_coursesOf {s : World} {studentId schoolId courseId : Id} :
    courseId ∈ s.coursesOf studentId schoolId ↔ Attends s studentId schoolId courseId := by
  unfold World.coursesOf Attends
  simp only [List.mem_map, List.mem_filter, decide_eq_true_eq, Option.any_eq_true]
  constructor
  · rintro ⟨e, ⟨he, rfl, hcourse⟩, rfl⟩
    exact ⟨he, hcourse⟩
  · rintro ⟨he, hcourse⟩
    exact ⟨_, ⟨he, rfl, hcourse⟩, rfl⟩

theorem mem_courseFindMany {s : World} {schoolId programId courseId : Id} {level : Int} :
    courseId ∈ (s.courses.rows.filter fun course => decide (course.schoolId = schoolId ∧
      course.programId = some programId ∧ course.programLevel = some level ∧
        course.isPublished = true)).map (·.id) ↔ Offered s schoolId programId level courseId := by
  unfold Offered
  simp only [List.mem_map, List.mem_filter, decide_eq_true_eq]
  constructor
  · rintro ⟨course, ⟨hcourse, hoffered⟩, rfl⟩
    exact ⟨course, Table.find?_key hcourse, hoffered⟩
  · rintro ⟨course, hfind, hoffered⟩
    exact ⟨course, ⟨Table.mem_of_find? hfind, hoffered⟩, Table.key_of_find? hfind⟩

theorem Offered.congr {s s' : World} (h : s'.courses = s.courses) {schoolId programId courseId : Id}
    {level : Int} :
    Offered s' schoolId programId level courseId ↔ Offered s schoolId programId level courseId := by
  unfold Offered
  rw [h]

/-- A row of a course list is all key. -/
theorem mem_insert_courseEnrollment {t : Table CourseEnrollment} {row e : CourseEnrollment} :
    e ∈ t.insert row ↔ e ∈ t ∨ e = row := by
  refine ⟨Table.mem_of_mem_insert, fun h => ?_⟩
  rcases h with h | rfl
  · exact Table.mem_insert_of_mem h
  · obtain ⟨r, hr⟩ := Option.isSome_iff_exists.1 (Table.contains_insert_self t e)
    obtain ⟨hmem, hkey⟩ := Table.find?_eq_some.1 hr
    obtain ⟨hcourse, hstudent⟩ := Prod.mk.inj hkey
    have heq : r = e := by
      cases r
      cases e
      simp only at hcourse hstudent
      rw [hcourse, hstudent]
    exact heq ▸ hmem

/-! ## Synchronising -/

/-- The courses of one student in one school are now those that were offered; all else is as it was. -/
structure Synced (s s' : World) (studentId schoolId programId : Id) (level : Int) : Prop where
  courses : s'.courses = s.courses
  listed : ∀ id, Attends s' studentId schoolId id ↔ Offered s schoolId programId level id
  others : ∀ studentId' schoolId', ¬ (studentId' = studentId ∧ schoolId' = schoolId) →
    ∀ id, Attends s' studentId' schoolId' id ↔ Attends s studentId' schoolId' id
  exist : CoursesExist s → CoursesExist s'

/-- Rows of the student that are deleted one by one. -/
theorem courseEnrollments_leave (studentId : Id) (courseIds : List Id) (s : World) :
    (model.applyAll (courseIds.map fun id => .courseLeft ⟨id, studentId⟩) s).courses = s.courses ∧
      ∀ e, e ∈ (model.applyAll
          (courseIds.map fun id => .courseLeft ⟨id, studentId⟩) s).courseEnrollments ↔
        e ∈ s.courseEnrollments ∧ ¬ (e.studentId = studentId ∧ e.courseId ∈ courseIds) := by
  induction courseIds generalizing s with
  | nil => exact ⟨rfl, fun e => (and_iff_left (by simp)).symm⟩
  | cons courseId courseIds ih =>
      obtain ⟨hcourses, hrows⟩ := ih (s.apply (.courseLeft ⟨courseId, studentId⟩))
      refine ⟨hcourses, fun e => (hrows e).trans ?_⟩
      have hleft : e ∈ (s.apply (.courseLeft ⟨courseId, studentId⟩)).courseEnrollments ↔
          e ∈ s.courseEnrollments ∧ ¬ (e.studentId = studentId ∧ e.courseId = courseId) := by
        refine Table.mem_filter.trans (and_congr_right fun _ => ?_)
        rw [decide_eq_true_eq, not_iff_not]
        constructor
        · rintro rfl
          exact ⟨rfl, rfl⟩
        · rintro ⟨rfl, rfl⟩
          rfl
      rw [hleft, and_assoc, List.mem_cons, ← not_or, ← and_or_left]

theorem wp_upsertCourses (studentId : Id) (courseIds : List Id) (saved : Option World) (s : World) :
    (upsertCourses studentId courseIds).wp model
      (fun _ saved' s' => saved' = saved ∧ s'.courses = s.courses ∧
        ∀ e, e ∈ s'.courseEnrollments ↔
          e ∈ s.courseEnrollments ∨ e.studentId = studentId ∧ e.courseId ∈ courseIds)
      (fun _ saved' _ => saved' = saved ∧ True) saved s := by
  induction courseIds generalizing s with
  | nil => exact ⟨rfl, rfl, fun e => by simp⟩
  | cons courseId courseIds ih =>
      refine wp_step (M := model) (fun _ => ⟨rfl, trivial⟩) fun c row _ => ?_
      refine wp_mono (fun _ saved' s' hdone => ?_) (fun _ _ _ h => h) (ih _)
      obtain ⟨hsaved, hcourses, hrows⟩ := hdone
      refine ⟨hsaved, hcourses, fun e => (hrows e).trans ?_⟩
      have hinsert : e ∈ (model.applyAll [.courseEnrollment ⟨courseId, studentId⟩] s).courseEnrollments ↔
          e ∈ s.courseEnrollments ∨ e = ⟨courseId, studentId⟩ := mem_insert_courseEnrollment
      rw [List.mem_cons, and_or_left]
      refine (or_congr_left hinsert).trans (or_assoc.trans (or_congr_right (or_congr_left ?_)))
      constructor
      · rintro rfl
        exact ⟨rfl, rfl⟩
      · rintro ⟨hstudent, hcourse⟩
        cases e
        simp only at hstudent hcourse
        rw [hstudent, hcourse]

/-- Deleting what is not offered and adding what is makes the list the one that is offered. -/
theorem synced_of_rows {s s' : World} {studentId schoolId programId : Id} {level : Int}
    {courseIds left : List Id}
    (hoffered : ∀ id, id ∈ courseIds ↔ Offered s schoolId programId level id)
    (hleft : ∀ id, id ∈ left ↔ Attends s studentId schoolId id ∧ id ∉ courseIds)
    (hcourses : s'.courses = s.courses)
    (hrows : ∀ e, e ∈ s'.courseEnrollments ↔
      (e ∈ s.courseEnrollments ∧ ¬ (e.studentId = studentId ∧ e.courseId ∈ left)) ∨
        e.studentId = studentId ∧ e.courseId ∈ courseIds) :
    Synced s s' studentId schoolId programId level where
  courses := hcourses
  listed id := by
    unfold Attends
    rw [hcourses, hrows, ← hoffered]
    constructor
    · rintro ⟨⟨he, hstays⟩ | ⟨-, hid⟩, hcourse⟩
      · by_contra hid
        exact hstays ⟨rfl, (hleft id).2 ⟨⟨he, hcourse⟩, hid⟩⟩
      · exact hid
    · intro hid
      obtain ⟨course, hfind, hschool, -⟩ := (hoffered id).1 hid
      exact ⟨.inr ⟨rfl, hid⟩, course, hfind, hschool⟩
  others studentId' schoolId' hother id := by
    unfold Attends
    rw [hcourses, hrows]
    refine and_congr_left fun hcourse => ?_
    obtain ⟨course, hfind, rfl⟩ := hcourse
    -- A course of another school is neither left nor offered.
    have hschool : ∀ programId level, studentId' = studentId →
        ¬ Offered s schoolId programId level id ∧ ¬ Attends s studentId schoolId id := by
      intro programId level hstudent
      refine ⟨fun h => ?_, fun h => ?_⟩
      · obtain ⟨course', hfind', hschool', -⟩ := h
        obtain rfl := Option.some.inj (hfind.symm.trans hfind')
        exact hother ⟨hstudent, hschool'⟩
      · obtain ⟨-, course', hfind', hschool'⟩ := h
        obtain rfl := Option.some.inj (hfind.symm.trans hfind')
        exact hother ⟨hstudent, hschool'⟩
    constructor
    · rintro (⟨he, -⟩ | ⟨hstudent, hid⟩)
      · exact he
      · exact absurd ((hoffered id).1 hid) (hschool programId level hstudent).1
    · refine fun he => .inl ⟨he, fun h => ?_⟩
      exact (hschool programId level h.1).2 ((hleft id).1 h.2).1
  exist hexist e he := by
    rw [hcourses]
    rcases (hrows e).1 he with ⟨he, -⟩ | ⟨-, hid⟩
    · exact hexist e he
    · obtain ⟨course, hfind, -⟩ := (hoffered e.courseId).1 hid
      rw [Table.contains, hfind]
      rfl

/-- It succeeds as a whole or leaves everything as it was. -/
theorem wp_syncCourseEnrollments (s : World) (studentId schoolId programId : Id) (level : Int) :
    (syncCourseEnrollments studentId schoolId programId level).wp model
      (fun _ saved s' => saved = none ∧ Synced s s' studentId schoolId programId level)
      (fun _ saved s' => saved = none ∧ s' = s) none s := by
  refine wp_read (M := model) (fun _ => rfl) (fun _ => ⟨rfl, rfl⟩) fun c courses hcourses => ?_
  obtain rfl := Option.some.inj hcourses
  refine wp_mono (fun _ _ _ h => h) (fun _ _ _ h => ⟨h.1, h.2.1⟩) (wp_of_transaction (M := model)
    (P := fun _ => True) (Q := fun _ s' => Synced s s' studentId schoolId programId level)
    (fun _ => trivial) (wp_step (M := model) (fun _ => ⟨rfl, trivial⟩) fun c left hleft => ?_))
  obtain rfl := Option.some.inj hleft
  obtain ⟨hcourses, hrows⟩ := courseEnrollments_leave studentId
    ((s.coursesOf studentId schoolId).filter (· ∉ (s.courses.rows.filter fun course =>
      course.schoolId = schoolId ∧ course.programId = some programId ∧
        course.programLevel = some level ∧ course.isPublished).map (·.id))) s
  refine wp_mono (fun _ saved s' hdone => ?_) (fun _ _ _ h => h) (wp_upsertCourses studentId _ _ _)
  obtain ⟨hsaved, hcourses', hrows'⟩ := hdone
  refine ⟨hsaved, synced_of_rows (fun _ => mem_courseFindMany) (fun id => ?_)
    (hcourses'.trans hcourses) fun e => (hrows' e).trans (or_congr_left (hrows e))⟩
  rw [List.mem_filter, mem_coursesOf, decide_eq_true_eq]

/-! ## What enrolling leaves -/

/-- What an enrolment in the school can have done to course lists since `s`: each one is as it was, or is
    one that was offered. -/
structure ListsFrom (s : World) (schoolId : Id) (s' : World) : Prop where
  courses : s'.courses = s.courses
  exist : CoursesExist s → CoursesExist s'
  lists : ∀ studentId schoolId', (∀ id, Attends s' studentId schoolId' id ↔
      Attends s studentId schoolId' id) ∨
    schoolId' = schoolId ∧ ∃ programId level, ∀ id, Attends s' studentId schoolId' id ↔
      Offered s schoolId' programId level id

theorem ListsFrom.refl (s : World) (schoolId : Id) : ListsFrom s schoolId s :=
  ⟨rfl, id, fun _ _ => .inl fun _ => Iff.rfl⟩

variable {s₀ s s' : World} {schoolId : Id}

theorem ListsFrom.synced (h : ListsFrom s₀ schoolId s) {studentId programId : Id} {level : Int}
    (hs : Synced s s' studentId schoolId programId level) : ListsFrom s₀ schoolId s' where
  courses := hs.courses.trans h.courses
  exist hexist := hs.exist (h.exist hexist)
  lists studentId' schoolId' := by
    by_cases hsame : studentId' = studentId ∧ schoolId' = schoolId
    · obtain ⟨rfl, rfl⟩ := hsame
      exact .inr ⟨rfl, programId, level, fun id => (hs.listed id).trans (Offered.congr h.courses)⟩
    · refine (h.lists studentId' schoolId').imp (fun hlist id => ?_) fun ⟨hschool, programId, level, hlist⟩ =>
        ⟨hschool, programId, level, fun id => ?_⟩
      · exact (hs.others _ _ hsame id).trans (hlist id)
      · exact (hs.others _ _ hsame id).trans (hlist id)

/-- Other tables are of no account. -/
theorem ListsFrom.congr (h : ListsFrom s₀ schoolId s) (hcourses : s'.courses = s.courses)
    (hrows : s'.courseEnrollments = s.courseEnrollments) : ListsFrom s₀ schoolId s' := by
  have hattends : ∀ studentId schoolId id,
      Attends s' studentId schoolId id ↔ Attends s studentId schoolId id := fun _ _ _ => by
    unfold Attends
    rw [hcourses, hrows]
  refine ⟨hcourses.trans h.courses, fun hexist e he => ?_, fun studentId schoolId' => ?_⟩
  · rw [hrows] at he
    rw [hcourses]
    exact h.exist hexist e he
  · refine (h.lists studentId schoolId').imp (fun hlist id => ?_) fun ⟨hschool, programId, level, hlist⟩ =>
      ⟨hschool, programId, level, fun id => ?_⟩
    · exact (hattends ..).trans (hlist id)
    · exact (hattends ..).trans (hlist id)

variable (host : Host)

theorem wp_enrollStudent (h : ListsFrom s₀ schoolId s) (dto : EnrollStudentDto) :
    (enrollStudent host schoolId dto).wp model
      (fun found saved s' => saved = none ∧ ListsFrom s₀ schoolId s' ∧
        ∀ student, found = some student →
          ∀ id, Attends s' student.id schoolId id ↔ Offered s₀ schoolId dto.programId dto.level id)
      (fun _ saved s' => saved = none ∧ ListsFrom s₀ schoolId s') none s := by
  refine wp_read (M := model) (fun _ => rfl) (fun _ => ⟨rfl, h⟩) fun c found _ => ?_
  split
  · next student hstudent =>
      refine wp_read (M := model) (fun _ => rfl) (fun _ => ⟨rfl, h⟩) fun c academicYear _ => ?_
      cases academicYear with
      | none => exact ⟨rfl, h⟩
      | some academicYear =>
          refine wp_read (M := model) (fun _ => rfl) (fun _ => ⟨rfl, h⟩) fun c now _ => ?_
          split
          · exact ⟨rfl, h⟩
          · refine wp_read (M := model) (fun _ => rfl) (fun _ => ⟨rfl, h⟩) fun c program hprogram => ?_
            obtain rfl := Option.some.inj hprogram
            split
            · next program hprogram =>
                obtain ⟨hfind, -⟩ := Option.filter_eq_some_iff.1 hprogram
                have hid : program.id = dto.programId := Table.key_of_find? hfind
                split
                · exact ⟨rfl, h⟩
                · refine wp_step (M := model) (fun _ => ⟨rfl, h⟩) fun c row _ => ?_
                  have hrow : ListsFrom s₀ schoolId
                      (model.applyAll [.studentEnrollment row] s) := h.congr rfl rfl
                  refine (wp_handle ..).2 (wp_mono (fun _ saved s' hdone => ?_)
                    (fun _ saved s' hfailed => ?_) (wp_syncCourseEnrollments _ _ _ _ _))
                  · obtain ⟨rfl, hsynced⟩ := hdone
                    refine ⟨fun _ => ⟨rfl, hrow.synced hsynced⟩, fun c found hfound => ?_⟩
                    refine ⟨rfl, hrow.synced hsynced, fun student' hfound' id => ?_⟩
                    subst hfound'
                    have hstudent' : student'.id = student.id :=
                      Table.key_of_find? (Option.some.inj hfound)
                    rw [hstudent', ← hid]
                    exact (hsynced.listed id).trans (Offered.congr h.courses)
                  · obtain ⟨rfl, rfl⟩ := hfailed
                    exact ⟨rfl, hrow⟩
            · exact ⟨rfl, h⟩
  · exact ⟨rfl, h⟩

omit host in
theorem wp_updateEnrollment (h : ListsFrom s₀ schoolId s) (studentId : Id)
    (data : UpdateSchoolStudentEnrollmentDto) :
    (updateEnrollment schoolId studentId data).wp model
      (fun row saved s' => saved = none ∧ ListsFrom s₀ schoolId s' ∧
        (data.status = .ACTIVE → ∀ id, Attends s' studentId schoolId id ↔
          Offered s₀ schoolId row.programId row.programLevel id))
      (fun _ saved s' => saved = none ∧ ListsFrom s₀ schoolId s') none s := by
  refine wp_read (M := model) (fun _ => rfl) (fun _ => ⟨rfl, h⟩) fun c found _ => ?_
  cases found with
  | none => exact ⟨rfl, h⟩
  | some found =>
      obtain ⟨enrollment, student⟩ := found
      simp only
      split
      · exact ⟨rfl, h⟩
      · split
        · next hstatus =>
            refine wp_step (M := model) (fun _ => ⟨rfl, h⟩) fun c row _ => ?_
            exact ⟨rfl, h.congr rfl rfl, fun hactive => absurd hactive hstatus⟩
        · refine wp_read (M := model) (fun _ => rfl) (fun _ => ⟨rfl, h⟩) fun c program _ => ?_
          refine wp_read (M := model) (fun _ => rfl) (fun _ => ⟨rfl, h⟩) fun c academicYear _ => ?_
          split
          · next program academicYear _ _ =>
              split
              · exact ⟨rfl, h⟩
              · refine wp_step (M := model) (fun _ => ⟨rfl, h⟩) fun c row hrow => ?_
                obtain ⟨old, -, rfl⟩ := Option.map_eq_some_iff.1 hrow
                have hwritten : ListsFrom s₀ schoolId (model.applyAll [.setStudentEnrollment
                    enrollment.id ⟨program.id, data.level.getD enrollment.programLevel, academicYear.id,
                      enrollmentLabel program.name (data.level.getD enrollment.programLevel)
                        academicYear.label⟩] s) := h.congr rfl rfl
                refine (wp_handle ..).2 (wp_mono (fun _ saved s' hdone => ?_)
                  (fun _ saved s' hfailed => ?_) (wp_syncCourseEnrollments _ _ _ _ _))
                · obtain ⟨rfl, hsynced⟩ := hdone
                  exact ⟨rfl, hwritten.synced hsynced, fun _ id =>
                    (hsynced.listed id).trans (Offered.congr h.courses)⟩
                · obtain ⟨rfl, rfl⟩ := hfailed
                  exact ⟨rfl, hwritten⟩
          · exact ⟨rfl, h⟩

theorem wp_enrollRow (h : ListsFrom s₀ schoolId s) (programs : List SchoolProgram)
    (academicYears : List SchoolAcademicYear) (row : EnrollmentRow) :
    (enrollRow host schoolId programs academicYears row).wp model
      (fun _ saved s' => saved = none ∧ ListsFrom s₀ schoolId s')
      (fun _ saved s' => saved = none ∧ ListsFrom s₀ schoolId s') none s := by
  unfold enrollRow
  simp only
  split
  · split
    · refine (wp_handle ..).2 (wp_mono (fun _ _ _ hdone => ?_) (fun _ _ _ hfailed => hfailed)
        (wp_enrollStudent host h _))
      exact ⟨hdone.1, hdone.2.1⟩
    · exact ⟨rfl, h⟩
  · exact ⟨rfl, h⟩

/-- Each line starts from what the lines before it have left, whether they failed or not. -/
theorem wp_enrollRows (h : ListsFrom s₀ schoolId s) (programs : List SchoolProgram)
    (academicYears : List SchoolAcademicYear) (rows : List EnrollmentRow) (done : Import) :
    (enrollRows host schoolId programs academicYears rows done).wp model
      (fun _ saved s' => saved = none ∧ ListsFrom s₀ schoolId s')
      (fun _ saved s' => saved = none ∧ ListsFrom s₀ schoolId s') none s := by
  induction rows generalizing done s with
  | nil => exact ⟨rfl, h⟩
  | cons row rows ih =>
      refine (wp_handle ..).2 ((wp_handle ..).2 ((wp_handle ..).2 ?_))
      refine wp_mono (fun _ saved s' hdone => ?_) (fun _ saved s' hfailed => ?_)
        (wp_enrollRow host h programs academicYears row)
      · obtain ⟨rfl, h'⟩ := hdone
        exact ih h' _
      · obtain ⟨rfl, h'⟩ := hfailed
        exact ih h' _

theorem wp_bulkEnrollStudents (h : ListsFrom s₀ schoolId s) (rows : List EnrollmentRow) :
    (bulkEnrollStudents host schoolId rows).wp model
      (fun _ saved s' => saved = none ∧ ListsFrom s₀ schoolId s')
      (fun _ saved s' => saved = none ∧ ListsFrom s₀ schoolId s') none s :=
  wp_read (M := model) (fun _ => rfl) (fun _ => ⟨rfl, h⟩) fun _ programs _ =>
    wp_read (M := model) (fun _ => rfl) (fun _ => ⟨rfl, h⟩) fun _ academicYears _ =>
      wp_enrollRows host h programs academicYears rows {}

/-! ## The other calls -/

/-- The statement is not one of those that write course lists. -/
def Aside : Stmt → Prop
  | .courseEnrollmentDeleteMany .. => False
  | .courseEnrollmentUpsert .. => False
  | _ => True

theorem Harmless.aside {q : Stmt} (h : Harmless q) : Aside q := by
  cases q <;> first | exact h.elim | trivial

theorem updateProgram_aside (id : Id) (dto : UpdateSchoolProgramDto) :
    (updateProgram schoolId id dto).Sends Aside := by
  have hupdate : (do
      let updated ← perform (.schoolProgramUpdate id
        { dto with name := dto.name.map trim, diploma := dto.diploma.map trim })
      if dto.name.isSome then refreshProgramEnrollmentLabels id updated.name
      return updated : Call SchoolProgram).Sends Aside := by
    refine sends_step trivial fun updated => ?_
    split
    · refine Sends.handle ?_ (fun _ => trivial) fun _ => trivial
      exact (refreshProgramEnrollmentLabels_harmless ..).mono fun _ => Harmless.aside
    · trivial
  refine sends_step trivial fun found => ?_
  cases found with
  | none => trivial
  | some program =>
      simp only
      split
      · refine sends_step trivial fun higherLevelEnrollment => ?_
        split
        · trivial
        · exact hupdate
      · exact hupdate

/-- Course lists are as they were. -/
structure SameLists (s s' : World) : Prop where
  exist : CoursesExist s → CoursesExist s'
  lists : CoursesExist s → ∀ studentId schoolId id,
    Attends s' studentId schoolId id ↔ Attends s studentId schoolId id

/-- Courses are added, and those there are stay in their school. -/
theorem SameLists.of_courses {s s' : World} (hrows : s'.courseEnrollments = s.courseEnrollments)
    (hcourses : ∀ id course, s.courses.find? id = some course →
      ∃ course', s'.courses.find? id = some course' ∧ course'.schoolId = course.schoolId) :
    SameLists s s' := by
  have hfound : CoursesExist s → ∀ e ∈ s.courseEnrollments, ∃ course course',
      s.courses.find? e.courseId = some course ∧ s'.courses.find? e.courseId = some course' ∧
        course'.schoolId = course.schoolId := by
    intro hexist e he
    obtain ⟨course, hfind⟩ := Option.isSome_iff_exists.1 (hexist e he)
    obtain ⟨course', hfind', hschool⟩ := hcourses _ _ hfind
    exact ⟨course, course', hfind, hfind', hschool⟩
  refine ⟨fun hexist e he => ?_, fun hexist studentId schoolId id => ?_⟩
  · obtain ⟨-, course', -, hfind', -⟩ := hfound hexist e (hrows ▸ he)
    rw [Table.contains, hfind']
    rfl
  · unfold Attends
    rw [hrows]
    refine and_congr_right fun he => ?_
    obtain ⟨course, course', hfind, hfind', hschool⟩ := hfound hexist _ he
    rw [hfind, hfind']
    simp [hschool]

theorem SameLists.refl (s : World) : SameLists s s := ⟨id, fun _ _ _ _ => Iff.rfl⟩

theorem SameLists.trans {s s₁ s' : World} (h : SameLists s s₁) (h' : SameLists s₁ s') :
    SameLists s s' :=
  ⟨fun hexist => h'.exist (h.exist hexist), fun hexist _ _ _ =>
    (h'.lists (h.exist hexist) _ _ _).trans (h.lists hexist _ _ _)⟩

theorem Aside.same {q : Stmt} (hq : Aside q) {a : Ans q} {s₀ s : World} (h : SameLists s₀ s) :
    SameLists s₀ (model.applyAll (writes q a) s) := by
  have hsame : ∀ s s' : World, s'.courseEnrollments = s.courseEnrollments → s'.courses = s.courses →
      SameLists s s' := fun s s' hrows hcourses =>
    .of_courses hrows fun id course hfind => ⟨course, hcourses ▸ hfind, rfl⟩
  refine model.applyAll_keeps (P := SameLists s₀) (fun w hw s hs => hs.trans ?_) h
  cases q with
  | schoolAcademicYearUpdateManyCurrent schoolId excludedId =>
      obtain ⟨id, -, rfl⟩ := List.mem_map.1 hw
      exact hsame _ _ rfl rfl
  | teacherSchoolSubjectDeleteMany teacherSchoolId =>
      obtain ⟨id, -, rfl⟩ := List.mem_map.1 hw
      exact hsame _ _ rfl rfl
  | teacherSchoolSubjectCreateMany teacherSchoolId subjectIds =>
      obtain ⟨id, -, rfl⟩ := List.mem_map.1 hw
      exact hsame _ _ rfl rfl
  | courseSlotUpdateMany courseId teacherId =>
      obtain ⟨id, -, rfl⟩ := List.mem_map.1 hw
      exact hsame _ _ rfl rfl
  | courseEnrollmentDeleteMany studentId schoolId courseIds => exact hq.elim
  | courseCreate data =>
      obtain rfl := List.mem_singleton.1 hw
      exact .of_courses rfl fun id course hfind =>
        ⟨course, Table.find?_insert_of_find? hfind, rfl⟩
  | courseUpdate id data =>
      obtain rfl := List.mem_singleton.1 hw
      refine .of_courses rfl fun id' course hfind => ?_
      have hmodify : (s.apply (.setCourse id data)).courses.find? id' = _ :=
        Table.find?_modify s.courses id data.set (fun _ => rfl) id'
      rw [hmodify]
      split
      · next hid => exact ⟨data.set course, by rw [← hid, hfind]; rfl, rfl⟩
      · exact ⟨course, hfind, rfl⟩
  | _ =>
      first
        | exact hq.elim
        | (obtain rfl := List.mem_singleton.1 hw; exact hsame _ _ rfl rfl)
        | cases hw

/-- The school in which a call enrols students. -/
def Op.enrollsIn : Op → Option Id
  | .enrollStudent schoolId _ => some schoolId
  | .updateEnrollment schoolId _ _ => some schoolId
  | .bulkEnrollStudents schoolId _ => some schoolId
  | _ => none

theorem program_aside {o : Op} (ho : o.enrollsIn = none) : (program host o).Sends Aside := by
  have hmap : ∀ {α : Type} {p : Call α} {f : α → Reply}, p.Sends Harmless →
      (f <$> p : Call Reply).Sends Aside := fun hp =>
    Sends.handle (hp.mono fun _ => Harmless.aside) (fun _ => trivial) fun _ => trivial
  have hmap' : ∀ {α : Type} {p : Call α} {f : α → Reply}, p.Sends Ordinary →
      (f <$> p : Call Reply).Sends Aside := fun hp => hmap (hp.mono fun _ => Ordinary.harmless)
  cases o with
  | createProgram schoolId dto => exact hmap (sends_perform.2 trivial)
  | updateProgram schoolId id dto =>
      exact Sends.handle (updateProgram_aside ..) (fun _ => trivial) fun _ => trivial
  | createAcademicYear schoolId dto => exact hmap (createAcademicYear_harmless ..)
  | updateAcademicYear schoolId id dto => exact hmap (updateAcademicYear_harmless ..)
  | createSubject schoolId name => exact hmap (sends_perform.2 trivial)
  | updateSubject schoolId id isActive => exact hmap' (updateSubject_ordinary ..)
  | assignTeacher schoolId dto => exact hmap' (assignTeacher_ordinary ..)
  | updateTeacherAssignment schoolId id dto => exact hmap' (updateTeacherAssignment_ordinary ..)
  | createCourse schoolId dto => exact hmap' (createCourse_ordinary ..)
  | updateCourse schoolId courseId dto => exact hmap' (updateCourse_ordinary ..)
  | enrollStudent schoolId dto => cases ho
  | updateEnrollment schoolId studentId data => cases ho
  | bulkEnrollStudents schoolId rows => cases ho

/-! ## Runs -/

/-- A call that enrols a student has left exactly the courses that it found offered at the level. -/
def Followed (t : Turn model Op Err Reply) : Prop :=
  match t.op, t.result with
  | .enrollStudent schoolId dto, .ok (.student (some student)) => ∀ id,
      Attends t.after student.id schoolId id ↔ Offered t.before schoolId dto.programId dto.level id
  | .updateEnrollment schoolId studentId data, .ok (.enrollment row) => data.status = .ACTIVE →
      ∀ id, Attends t.after studentId schoolId id ↔
        Offered t.before schoolId row.programId row.programLevel id
  | _, _ => True

/-- What one call does to course lists. -/
structure Listed (t : Turn model Op Err Reply) : Prop where
  aside : t.op.enrollsIn = none → SameLists t.before t.after
  enrolling : ∀ schoolId, t.op.enrollsIn = some schoolId → ListsFrom t.before schoolId t.after
  followed : Followed t

theorem listed_of_aside {o : Op} {cs : List (Except Failure Choice)} {r : Except Err Reply}
    (ho : o.enrollsIn = none) (halone : (program host o).alone (M := model) none s cs = some (r, s')) :
    Listed ⟨o, cs, s, r, s'⟩ where
  aside _ := (Sends.keeps (M := model) (I := SameLists s) (fun hq _ hs => hq.same hs)
    (program_aside host ho)).alone (.refl s) halone
  enrolling schoolId hschool := by
    rw [ho] at hschool
    cases hschool
  followed := by
    unfold Followed
    cases o <;> trivial

theorem listed_of_alone {o : Op} {cs : List (Except Failure Choice)} {r : Except Err Reply}
    (halone : (program host o).alone (M := model) none s cs = some (r, s')) :
    Listed ⟨o, cs, s, r, s'⟩ := by
  -- A call of the school that enrols, once its end is known.
  have hcall : ∀ schoolId, o.enrollsIn = some schoolId →
      ((program host o).wp model (fun reply _ s' => Listed ⟨o, cs, s, .ok reply, s'⟩)
        (fun e _ s' => Listed ⟨o, cs, s, .error e, s'⟩) none s) → Listed ⟨o, cs, s, r, s'⟩ :=
    fun _ _ hwp => wp_alone (P := fun r s' => Listed ⟨o, cs, s, r, s'⟩) hwp halone
  have hlisted : ∀ {schoolId r s'}, o.enrollsIn = some schoolId → ListsFrom s schoolId s' →
      Followed ⟨o, cs, s, r, s'⟩ → Listed ⟨o, cs, s, r, s'⟩ := by
    intro schoolId r s' hschool hlists hfollowed
    refine ⟨fun hnone => ?_, fun schoolId' hschool' => ?_, hfollowed⟩
    · cases hnone.symm.trans hschool
    · obtain rfl := Option.some.inj (hschool.symm.trans hschool')
      exact hlists
  cases o with
  | enrollStudent schoolId dto =>
      refine hcall schoolId rfl ((wp_handle ..).2 (wp_mono (fun found saved s' hdone => ?_)
        (fun e saved s' hfailed => ?_) (wp_enrollStudent host (.refl s schoolId) dto)))
      · refine hlisted rfl hdone.2.1 ?_
        cases found with
        | none => trivial
        | some student => exact hdone.2.2 student rfl
      · exact hlisted rfl hfailed.2 trivial
  | updateEnrollment schoolId studentId data =>
      refine hcall schoolId rfl ((wp_handle ..).2 (wp_mono (fun row saved s' hdone => ?_)
        (fun e saved s' hfailed => ?_) (wp_updateEnrollment (.refl s schoolId) studentId data)))
      · exact hlisted rfl hdone.2.1 hdone.2.2
      · exact hlisted rfl hfailed.2 trivial
  | bulkEnrollStudents schoolId rows =>
      refine hcall schoolId rfl ((wp_handle ..).2 (wp_mono (fun outcome saved s' hdone => ?_)
        (fun e saved s' hfailed => ?_) (wp_bulkEnrollStudents host (.refl s schoolId) rows)))
      · exact hlisted rfl hdone.2 trivial
      · exact hlisted rfl hfailed.2 trivial
  | _ => exact listed_of_aside host rfl halone

variable {host} {h : List (Turn model Op Err Reply)}

/-- The courses of the student in the school are those from before the run, or all that were offered at
    one level of one programme of the school when one of the calls that enrol there began. -/
def Taken (s₀ : World) (h : List (Turn model Op Err Reply)) (s : World) (studentId schoolId : Id) :
    Prop :=
  (∀ id, Attends s studentId schoolId id ↔ Attends s₀ studentId schoolId id) ∨
    ∃ t ∈ h, t.op.enrollsIn = some schoolId ∧ ∃ programId level, ∀ id,
      Attends s studentId schoolId id ↔ Offered t.before schoolId programId level id

theorem Taken.same {studentId schoolId : Id} (htaken : Taken s₀ h s studentId schoolId)
    (hsame : ∀ id, Attends s' studentId schoolId id ↔ Attends s studentId schoolId id)
    {h' : List (Turn model Op Err Reply)} (hh : h ⊆ h') : Taken s₀ h' s' studentId schoolId := by
  rcases htaken with hlist | ⟨t, ht, hop, programId, level, hlist⟩
  · exact .inl fun id => (hsame id).trans (hlist id)
  · exact .inr ⟨t, hh ht, hop, programId, level, fun id => (hsame id).trans (hlist id)⟩

theorem Listed.taken {t : Turn model Op Err Reply} (ht : Listed t) (hexist : CoursesExist t.before)
    {studentId schoolId : Id} (htaken : Taken s₀ h t.before studentId schoolId) :
    Taken s₀ (t :: h) t.after studentId schoolId := by
  cases hop : t.op.enrollsIn with
  | none => exact htaken.same ((ht.aside hop).lists hexist studentId schoolId) (List.subset_cons_self ..)
  | some schoolId' =>
      rcases (ht.enrolling schoolId' hop).lists studentId schoolId with hsame | hoffered
      · exact htaken.same hsame (List.subset_cons_self ..)
      · obtain ⟨rfl, programId, level, hlist⟩ := hoffered
        exact .inr ⟨t, List.mem_cons_self, hop, programId, level, hlist⟩

theorem Listed.exist {t : Turn model Op Err Reply} (ht : Listed t) (hexist : CoursesExist t.before) :
    CoursesExist t.after := by
  cases hop : t.op.enrollsIn with
  | none => exact (ht.aside hop).exist hexist
  | some schoolId => exact (ht.enrolling schoolId hop).exist hexist

/-- **Course lists.** In every run of calls, one after the other and whatever fails in them, a call that
    enrols a student leaves exactly the courses offered at the level, and the courses of a student in a
    school come from one such moment, as a whole. -/
theorem course_lists (h₀ : CoursesExist s₀) (hrun : Journal model (program host) anyTurn s₀ h s) :
    (∀ t ∈ h, Followed t) ∧ ∀ studentId schoolId, Taken s₀ h s studentId schoolId := by
  refine And.right (a := CoursesExist s) (hrun.holds (P := fun h s => CoursesExist s ∧
    (∀ t ∈ h, Followed t) ∧ ∀ studentId schoolId, Taken s₀ h s studentId schoolId)
    ⟨h₀, fun _ ht => absurd ht List.not_mem_nil, fun _ _ => .inl fun _ => Iff.rfl⟩ ?_ ?_)
  · intro h s s' r o cs _ _ halone ⟨hexist, hfollowed, htaken⟩
    have hturn := listed_of_alone host halone
    exact ⟨hturn.exist hexist, List.forall_mem_cons.2 ⟨hturn.followed, hfollowed⟩,
      fun studentId schoolId => hturn.taken hexist (htaken studentId schoolId)⟩
  · intro h s e _ ⟨hexist, hfollowed, htaken⟩
    have hsame : SameLists s (s.change e) := by
      cases e <;> exact .of_courses rfl fun _ course hfind => ⟨course, hfind, rfl⟩
    exact ⟨hsame.exist hexist, hfollowed, fun studentId schoolId =>
      (htaken studentId schoolId).same (hsame.lists hexist _ _) (List.Subset.refl _)⟩

theorem campus_coursesExist : CoursesExist campus := fun _ he => absurd he (Table.not_mem_empty _)

/-- A student is enrolled between two courses of her level. -/
theorem course_lists_campus : ∃ h s, Journal model (program plainHost) anyTurn campus h s ∧
    h.map (fun t => t.result.toBool) = [true, true, true] ∧ Attends s 3 1 30 ∧
    (∀ t ∈ h, Followed t) ∧ ∀ studentId schoolId, Taken campus h s studentId schoolId := by
  have hplay : (Journal.play (M := model) (program plainHost) anyTurn [] campus
      [(.createCourse 1 ⟨2, "H1", 7, 5, 2, none⟩, List.replicate 4 (.ok { id := 30 })),
        (.enrollStudent 1 ⟨"ana@mail.mg", 5, 2, 6⟩, List.replicate 12 (.ok { now := 50, id := 40 })),
        (.createCourse 1 ⟨2, "H2", 7, 5, 2, none⟩, List.replicate 4 (.ok { id := 31 }))]).any
      (fun p => p.1.map (fun t => t.result.toBool) = [true, true, true] ∧
        30 ∈ p.2.coursesOf 3 1) = true := by
    decide +kernel
  obtain ⟨h, s, hrun, hs⟩ := Journal.exists_of_play hplay
  obtain ⟨hresults, hattends⟩ := of_decide_eq_true hs
  exact ⟨h, s, hrun, hresults, mem_coursesOf.1 hattends, course_lists campus_coursesExist hrun⟩

end GetPlatform.Schools
