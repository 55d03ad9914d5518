import GetPlatform.Notifications.Delivery
import GetPlatform.Teaching.Attendance
import GetPlatform.Teaching.StudentService

set_option autoImplicit false

/-! # What a student who has left a school still sees

Enrolments in courses outlive the one in the school. The list of courses leaves out the courses of a
school that the student has left, and the timetable and the announcements do not. -/

namespace GetPlatform.Teaching

open Notifications (Content CreateAnnouncementInput Created createAndNotify newRecipients)

variable {collation : String → String → Bool} {roster : Roster} {student : Student} {courseId : Id}

/-! ## The courses of a student -/

/-- The student's enrolment in the school of the course is active. -/
def Roster.ActiveIn (roster : Roster) (studentId courseId : Id) : Prop :=
  ∃ course, roster.courses.find? courseId = some course ∧
    ∃ e, roster.studentEnrollments.find? (studentId, course.schoolId) = some e ∧ e.status = .ACTIVE

theorem enrolledStudent_eq (hstudent : student ∈ roster.students) :
    enrolledStudent roster student.userId = .ok student := by
  have hfound : (roster.students.rows.find? (·.userId = student.userId)) = some student := by
    obtain ⟨found, hfind⟩ := Option.isSome_iff_exists.1 (List.find?_isSome
      (p := fun s : Student => s.userId = student.userId).2 ⟨student, hstudent, decide_eq_true rfl⟩)
    have huser : found.userId = student.userId := by simpa using List.find?_some hfind
    rw [hfind, List.inj_on_of_nodup_map roster.userIds (List.mem_of_find?_eq_some hfind) hstudent huser]
  unfold enrolledStudent
  rw [hfound]
  rfl

theorem mem_activeSchoolIds {studentId schoolId : Id} :
    schoolId ∈ activeSchoolIds roster studentId ↔
      ∃ e, roster.studentEnrollments.find? (studentId, schoolId) = some e ∧ e.status = .ACTIVE := by
  constructor
  · intro h
    obtain ⟨e, he, rfl⟩ := List.mem_map.1 h
    obtain ⟨hmem, hwhere⟩ := List.mem_filter.1 he
    obtain ⟨rfl, hactive⟩ := of_decide_eq_true hwhere
    exact ⟨e, Table.find?_key hmem, hactive⟩
  · rintro ⟨e, hfind, hactive⟩
    obtain ⟨hmem, hkey⟩ := Table.find?_eq_some.1 hfind
    obtain ⟨hstudent, hschool⟩ := Prod.mk.inj hkey
    exact List.mem_map.2 ⟨e, List.mem_filter.2 ⟨hmem, decide_eq_true ⟨hstudent, hactive⟩⟩, hschool⟩

theorem mem_enrollmentsOf {studentId : Id} :
    courseId ∈ (roster.enrollmentsOf studentId).map (·.courseId) ↔
      roster.courseEnrollments.contains (courseId, studentId) = true := by
  rw [Table.contains_iff]
  constructor
  · intro h
    obtain ⟨e, he, rfl⟩ := List.mem_map.1 h
    obtain ⟨hmem, hstudent⟩ := List.mem_filter.1 he
    exact List.mem_map.2 ⟨e, hmem, Prod.ext rfl (of_decide_eq_true hstudent)⟩
  · intro h
    obtain ⟨e, hmem, hkey⟩ := List.mem_map.1 h
    obtain ⟨hcourse, hstudent⟩ := Prod.mk.inj hkey
    exact List.mem_map.2 ⟨e, List.mem_filter.2 ⟨hmem, decide_eq_true hstudent⟩, hcourse⟩

/-- The courses listed are those whose school the student has not left. -/
theorem getCourses_lists (hstudent : student ∈ roster.students) :
    ∃ courses, getCourses roster student.userId = .ok courses ∧
      ∀ courseId, (∃ course ∈ courses, course.id = courseId) ↔
        roster.courseEnrollments.contains (courseId, student.id) = true ∧
          roster.ActiveIn student.id courseId := by
  refine ⟨_, by unfold getCourses; rw [enrolledStudent_eq hstudent]; rfl, fun courseId => ?_⟩
  constructor
  · rintro ⟨course, hcourse, rfl⟩
    obtain ⟨hmem, hactive⟩ := List.mem_filter.1 hcourse
    obtain ⟨e, he, hfind⟩ := List.mem_filterMap.1 hmem
    have hid : course.id = e.courseId := Table.key_of_find? hfind
    rw [hid]
    exact ⟨mem_enrollmentsOf.1 (List.mem_map_of_mem he), course, hfind,
      mem_activeSchoolIds.1 (of_decide_eq_true hactive)⟩
  · rintro ⟨hthere, course, hfind, hactive⟩
    obtain ⟨e, he, rfl⟩ := List.mem_map.1 (mem_enrollmentsOf.2 hthere)
    refine ⟨course, List.mem_filter.2 ⟨List.mem_filterMap.2 ⟨e, he, hfind⟩, ?_⟩,
      Table.key_of_find? hfind⟩
    exact decide_eq_true (mem_activeSchoolIds.2 hactive)

/-- `courseEnrollment` lets the student into the courses that are listed. -/
theorem courseEnrollment_isOk_iff {studentId : Id} :
    (courseEnrollment roster studentId courseId).isOk = true ↔
      roster.courseEnrollments.contains (courseId, studentId) = true ∧
        roster.ActiveIn studentId courseId := by
  unfold courseEnrollment Table.contains Roster.ActiveIn
  cases hfind : roster.courseEnrollments.find? (courseId, studentId) with
  | none => simp [Except.isOk, Except.toBool, throw, throwThe, MonadExceptOf.throw]
  | some e =>
    obtain rfl : e.courseId = courseId := (Prod.mk.inj (Table.key_of_find? hfind)).1
    cases hcourse : roster.courses.find? e.courseId with
    | none => simp [Except.isOk, Except.toBool, throw, throwThe, MonadExceptOf.throw, hcourse]
    | some course =>
      cases hschool : roster.studentEnrollments.find? (studentId, course.schoolId) with
      | none => simp [Except.isOk, Except.toBool, throw, throwThe, MonadExceptOf.throw, hcourse, hschool]
      | some enrollment =>
        by_cases hactive : enrollment.status = .ACTIVE <;>
          simp [Except.isOk, Except.toBool, throw, throwThe, MonadExceptOf.throw, hcourse, hschool,
            hactive, bind, Except.bind, pure, Except.pure]

/-- The timetable shows every course the student is enrolled in that has slots. -/
theorem getSchedule_shows (collation : String → String → Bool) (hstudent : student ∈ roster.students) :
    ∃ entries, getSchedule collation roster student.userId = .ok entries ∧
      ∀ courseId, (∃ entry ∈ entries, entry.course.id = courseId) ↔
        roster.courseEnrollments.contains (courseId, student.id) = true ∧
          ∃ slot ∈ roster.courseSlots, slot.courseId = courseId := by
  unfold getSchedule
  rw [enrolledStudent_eq hstudent]
  by_cases hnone : ((roster.enrollmentsOf student.id).map (·.courseId)).length = 0
  · refine ⟨[], if_pos hnone, fun courseId => ?_⟩
    rw [← mem_enrollmentsOf, List.length_eq_zero_iff.1 hnone]
    simp
  · refine ⟨_, if_neg hnone, fun courseId => ?_⟩
    simp only [List.mem_mergeSort, List.mem_filterMap, List.mem_filter, Option.map_eq_some_iff]
    constructor
    · rintro ⟨entry, ⟨slot, ⟨hslot, hcourse⟩, course, hfind, rfl⟩, rfl⟩
      have hid : course.id = slot.courseId := Table.key_of_find? hfind
      exact ⟨hid ▸ mem_enrollmentsOf.1 (of_decide_eq_true hcourse), slot, hslot, hid.symm⟩
    · rintro ⟨hthere, slot, hslot, rfl⟩
      obtain ⟨e, he, hkey⟩ := List.mem_map.1 (Table.contains_iff.1 hthere)
      have hcourse : roster.courses.contains slot.courseId = true := by
        rw [← (Prod.mk.inj hkey).1]
        exact roster.enrolledCourse e he
      obtain ⟨course, hfind⟩ := Option.isSome_iff_exists.1 hcourse
      exact ⟨_, ⟨slot, ⟨hslot, decide_eq_true (mem_enrollmentsOf.2 hthere)⟩, course, hfind, rfl⟩,
        Table.key_of_find? hfind⟩

/-! ## Announcing to a course -/

/-- `TeachingService.course`, on the roster as it stands. -/
def courseOf (roster : Roster) (userId courseId : Id) : Except Err Course := do
  let some teacher := roster.teachers.find? userId
    | throw <| .ForbiddenException "Profil professeur introuvable"
  let some course := (roster.courses.find? courseId).filter fun course =>
      course.teacherId = teacher.id ∧
        (roster.teacherSchools.find? (teacher.id, course.schoolId)).any (·.isActive)
    | throw <| .NotFoundException "Cours introuvable"
  return course

/-- What `TeachingService.createAnnouncement` hands to `AnnouncementService.createAndNotify`. -/
def courseAnnouncement (roster : Roster) (userId courseId : Id) (dto : Content) :
    Except Err (CreateAnnouncementInput × List Id) := do
  let course ← courseOf roster userId courseId
  let recipients := (roster.studentsOf courseId).map (·.userId)
  return ({ schoolId := course.schoolId, authorId := userId, courseId := some courseId
            targetType := "COURSE_STUDENTS", targetClasses := none
            title := dto.title, body := dto.body }, recipients)

/-- The roster, and the notifications of its users. -/
structure Platform where
  roster : Roster
  notices : Notifications.World
  /-- A student is a user. -/
  studentUser : ∀ student ∈ roster.students, notices.users.contains student.userId = true

/-- `TeachingService.createAnnouncement` may end so, and leave these notifications. -/
def CreatesAnnouncement (p : Platform) (userId courseId : Id) (dto : Content)
    (r : Except (Err ⊕ Notifications.Err) Created) (notices : Notifications.World) : Prop :=
  match courseAnnouncement p.roster userId courseId dto with
  | .error e => r = .error (.inl e) ∧ notices = p.notices
  | .ok (input, recipients) => ∃ r', r = r'.mapError .inr ∧
      Prog.Ran Notifications.model (createAndNotify input recipients) none p.notices r' notices

/-- Some teacher may announce to the course: the one who teaches it, while active in its school. -/
def Roster.Taught (roster : Roster) (courseId : Id) : Prop :=
  ∃ userId, (courseOf roster userId courseId).isOk = true

/-- The students of a course are enrolled in it. -/
theorem mem_recipients (hstudent : student ∈ roster.students) :
    student.userId ∈ (roster.studentsOf courseId).map (·.userId) ↔
      roster.courseEnrollments.contains (courseId, student.id) = true := by
  constructor
  · intro h
    obtain ⟨other, hother, huser⟩ := List.mem_map.1 h
    obtain ⟨e, he, hfind⟩ := List.mem_filterMap.1 hother
    obtain ⟨hmem, hcourse⟩ := List.mem_filter.1 he
    obtain ⟨hother, hid⟩ := Table.find?_eq_some.1 hfind
    obtain rfl := List.inj_on_of_nodup_map roster.userIds hother hstudent huser
    refine Table.contains_iff.2 (List.mem_map.2 ⟨e, hmem, ?_⟩)
    exact Prod.ext (of_decide_eq_true hcourse) hid.symm
  · intro h
    obtain ⟨other, hother, hid⟩ := mem_studentsOf h
    have hmem : other ∈ roster.students := by
      obtain ⟨e, -, hfind⟩ := List.mem_filterMap.1 hother
      exact Table.mem_of_find? hfind
    obtain rfl : other = student := Table.eq_of_key_eq hmem hstudent hid
    exact List.mem_map_of_mem hother

theorem users_exist (p : Platform) :
    ∀ u ∈ (p.roster.studentsOf courseId).map (·.userId), p.notices.users.contains u = true := by
  intro u hu
  obtain ⟨student, hstudent, rfl⟩ := List.mem_map.1 hu
  obtain ⟨e, -, hfind⟩ := List.mem_filterMap.1 hstudent
  exact p.studentUser student (Table.mem_of_find? hfind)

/-- A line of the announcement names the student. -/
def Names (p : Platform) (notices : Notifications.World) (student : Student) : Prop :=
  ∃ line ∈ newRecipients p.notices notices, line.userId = student.userId

/-- An announcement to a course names the students who are enrolled in it. -/
theorem createsAnnouncement_names {p : Platform} {userId : Id} {dto : Content}
    {r : Except (Err ⊕ Notifications.Err) Created} {notices : Notifications.World}
    (hstudent : student ∈ p.roster.students)
    (hrun : CreatesAnnouncement p userId courseId dto r notices) :
    Names p notices student ↔
      (courseOf p.roster userId courseId).isOk = true ∧
        p.roster.courseEnrollments.contains (courseId, student.id) = true := by
  unfold CreatesAnnouncement courseAnnouncement at hrun
  cases hcourse : courseOf p.roster userId courseId with
  | error e =>
    rw [hcourse] at hrun
    obtain ⟨-, rfl⟩ := hrun
    have hnone : ¬ Names p p.notices student := by
      rintro ⟨line, hline, -⟩
      have hsame : p.notices.announcementRecipients.rows.Perm
          (p.notices.announcementRecipients.rows ++ []) := .of_eq (List.append_nil _).symm
      have hlines := (Table.filter_new_perm hsame).mem_iff.1 hline
      exact absurd hlines List.not_mem_nil
    exact iff_of_false hnone fun h => absurd h.1 Bool.false_ne_true
  | ok course =>
    rw [hcourse] at hrun
    obtain ⟨r', -, hrun⟩ := hrun
    obtain ⟨created, rows, -, hdelivered, hlines⟩ :=
      Notifications.createAndNotify_delivers (users_exist p) hrun
    unfold Names
    rw [hlines.names_iff hdelivered, List.mem_eraseDups, mem_recipients hstudent]
    exact ⟨fun h => ⟨rfl, h⟩, And.right⟩

/-- Every announcement of the teacher of a course may be made. -/
theorem exists_createsAnnouncement (p : Platform) (userId courseId : Id) (dto : Content) :
    ∃ r notices, CreatesAnnouncement p userId courseId dto r notices := by
  unfold CreatesAnnouncement
  cases courseAnnouncement p.roster userId courseId dto with
  | error e => exact ⟨_, _, rfl, rfl⟩
  | ok announcement =>
    obtain ⟨r', notices, hrun⟩ := Prog.exists_ran (M := Notifications.model)
      (createAndNotify announcement.1 announcement.2) none p.notices
    exact ⟨_, notices, r', rfl, hrun⟩

/-! ## After leaving a school -/

/-- Whatever the timetable shows or an announcement is made to, the list of courses has. -/
structure SeesOnlyCourses (collation : String → String → Bool) (p : Platform) (student : Student) :
    Prop where
  schedule : ∀ entries courses, getSchedule collation p.roster student.userId = .ok entries →
    getCourses p.roster student.userId = .ok courses →
    ∀ entry ∈ entries, ∃ course ∈ courses, course.id = entry.course.id
  announcements : ∀ userId courseId dto r notices courses,
    CreatesAnnouncement p userId courseId dto r notices → Names p notices student →
    getCourses p.roster student.userId = .ok courses → ∃ course ∈ courses, course.id = courseId

/-- This is so exactly when the student is still active in the school of every course that they are
    enrolled in and that has slots, or a teacher who may announce to it. -/
theorem seesOnlyCourses_iff {p : Platform} (hstudent : student ∈ p.roster.students) :
    SeesOnlyCourses collation p student ↔
      ∀ e ∈ p.roster.courseEnrollments, e.studentId = student.id →
        (∃ slot ∈ p.roster.courseSlots, slot.courseId = e.courseId) ∨ p.roster.Taught e.courseId →
        p.roster.ActiveIn student.id e.courseId := by
  obtain ⟨courses, hcourses, hlisted⟩ := getCourses_lists hstudent
  obtain ⟨entries, hentries, hshown⟩ := getSchedule_shows collation hstudent
  constructor
  · rintro h e he hid hseen
    have hthere : p.roster.courseEnrollments.contains (e.courseId, student.id) = true :=
      Table.contains_iff.2 (List.mem_map.2 ⟨e, he, Prod.ext rfl hid⟩)
    suffices hin : ∃ course ∈ courses, course.id = e.courseId from ((hlisted e.courseId).1 hin).2
    rcases hseen with hslot | ⟨userId, htaught⟩
    · obtain ⟨entry, hentry, hcourse⟩ := (hshown e.courseId).2 ⟨hthere, hslot⟩
      rw [← hcourse]
      exact h.schedule entries courses hentries hcourses entry hentry
    · obtain ⟨r, notices, hrun⟩ := exists_createsAnnouncement p userId e.courseId ⟨"", ""⟩
      have hnames := (createsAnnouncement_names hstudent hrun).2 ⟨htaught, hthere⟩
      exact h.announcements userId e.courseId _ r notices courses hrun hnames hcourses
  · intro h
    have hactive : ∀ courseId, p.roster.courseEnrollments.contains (courseId, student.id) = true →
        (∃ slot ∈ p.roster.courseSlots, slot.courseId = courseId) ∨ p.roster.Taught courseId →
        ∃ course ∈ courses, course.id = courseId := by
      intro courseId hthere hseen
      obtain ⟨e, he, hkey⟩ := List.mem_map.1 (Table.contains_iff.1 hthere)
      obtain ⟨rfl, hid⟩ := Prod.mk.inj hkey
      exact (hlisted _).2 ⟨hthere, h e he hid hseen⟩
    constructor
    · intro entries' courses' hentries' hcourses' entry hentry
      obtain rfl := Except.ok.inj (hentries.symm.trans hentries')
      obtain rfl := Except.ok.inj (hcourses.symm.trans hcourses')
      obtain ⟨hthere, hslot⟩ := (hshown _).1 ⟨entry, hentry, rfl⟩
      exact hactive _ hthere (.inl hslot)
    · intro userId courseId dto r notices courses' hrun hnames hcourses'
      obtain rfl := Except.ok.inj (hcourses.symm.trans hcourses')
      obtain ⟨htaught, hthere⟩ := (createsAnnouncement_names hstudent hrun).1 hnames
      exact hactive _ hthere (.inr ⟨userId, htaught⟩)

/-- A student of a course that has a slot, and what has become of the enrolment in its school. -/
def oneCourse (status : EnrollmentStatus) : Platform where
  roster :=
    { students := .ofList [⟨1, 11, "Mialy", "Rabe"⟩]
      teachers := .ofList [⟨2, 12⟩]
      teacherSchools := .ofList [⟨2, 3, true⟩]
      courses := .ofList [⟨5, 3, 2, "INF1", "Programmation"⟩]
      courseEnrollments := .ofList [⟨5, 1⟩]
      studentEnrollments := .ofList [⟨1, 3, status⟩]
      courseSlots := .ofList [⟨8, 5, 1, "08:00", "10:00", "A1"⟩]
      userIds := by decide
      enrolledStudent := by
        intro e he
        obtain rfl : e = ⟨5, 1⟩ := List.mem_singleton.1 he
        rfl
      enrolledCourse := by
        intro e he
        obtain rfl : e = ⟨5, 1⟩ := List.mem_singleton.1 he
        rfl }
  notices := ⟨.ofList [⟨11⟩, ⟨12⟩], .empty, .empty, .empty, .empty⟩
  studentUser := by
    intro student hstudent
    obtain rfl : student = ⟨1, 11, "Mialy", "Rabe"⟩ := List.mem_singleton.1 hstudent
    rfl

theorem oneCourse_student (status : EnrollmentStatus) :
    (⟨1, 11, "Mialy", "Rabe"⟩ : Student) ∈ (oneCourse status).roster.students :=
  List.mem_singleton.2 rfl

theorem seesOnlyCourses_iff_active :
    SeesOnlyCourses (fun a b => a ≤ b) (oneCourse .ACTIVE) ⟨1, 11, "Mialy", "Rabe"⟩ := by
  refine (seesOnlyCourses_iff (oneCourse_student .ACTIVE)).2 fun e he _ _ => ?_
  obtain rfl : e = ⟨5, 1⟩ := List.mem_singleton.1 he
  exact ⟨_, rfl, _, rfl, rfl⟩

theorem withdrawn_student_sees_course :
    ¬ SeesOnlyCourses (fun a b => a ≤ b) (oneCourse .WITHDRAWN) ⟨1, 11, "Mialy", "Rabe"⟩ := by
  intro h
  obtain ⟨courses, hcourses, hlisted⟩ := getCourses_lists (oneCourse_student .WITHDRAWN)
  obtain ⟨entries, hentries, hshown⟩ := getSchedule_shows _ (oneCourse_student .WITHDRAWN)
  obtain ⟨entry, hentry, hid⟩ := (hshown 5).2 ⟨rfl, _, List.mem_singleton.2 rfl, rfl⟩
  obtain ⟨course, hcourse, heq⟩ := h.schedule entries courses hentries hcourses entry hentry
  obtain ⟨-, course, hfind, e, he, hactive⟩ := (hlisted 5).1 ⟨course, hcourse, heq.trans hid⟩
  obtain rfl := Option.some.inj hfind
  obtain rfl := Option.some.inj he
  exact absurd hactive (by decide)

end GetPlatform.Teaching
