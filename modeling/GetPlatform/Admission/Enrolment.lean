import GetPlatform.Admission.Refund

set_option autoImplicit false

/-! # The automatic enrolment

An application that is accepted, or paid for, enrols its student in the programme of the offer, and
the courses of the student follow. Two services write this; the promotion from the waiting list
accepts an applicant and does not. Each call is run alone here, from any state. -/

namespace GetPlatform.Admission

open Prog

/-! ## What an enrolment is -/

/-- An offer enrols in this programme and this year: the programme of the offer, active in its school,
    and a current academic year of the school. -/
structure Enrols (s : World) (offer : Offer) (program : SchoolProgram)
    (academicYear : SchoolAcademicYear) : Prop where
  linked : offer.programId = some program.id
  program : program ∈ s.programs ∧ program.schoolId = offer.schoolId ∧ program.isActive = true
  academicYear : academicYear ∈ s.academicYears ∧ academicYear.schoolId = offer.schoolId ∧
    academicYear.isCurrent = true

def Enrollable (s : World) (offer : Offer) : Prop :=
  ∃ program academicYear, Enrols s offer program academicYear

/-- The enrolment of a student by an offer. -/
def enrollmentOf (studentId : Id) (offer : Offer) (program : SchoolProgram)
    (academicYear : SchoolAcademicYear) : StudentEnrollment :=
  { studentId, schoolId := offer.schoolId, programId := program.id, programLevel := 1,
    academicYearId := academicYear.id, enrolledYear := enrolledYear program academicYear,
    status := .ACTIVE }

/-- Of the courses of the school, the student follows the published ones of the programme level. -/
def Follows (s : World) (studentId schoolId programId : Id) (programLevel : Nat) : Prop :=
  ∀ course ∈ s.courses, course.schoolId = schoolId →
    ((⟨course.id, studentId⟩ : CourseEnrollment) ∈ s.courseEnrollments ↔
      course.programId = some programId ∧ course.programLevel = some programLevel ∧
        course.isPublished = true)

/-- What a decision that asks for `status` on application `applicationId` does to the applications and
    the enrolments. -/
inductive Decided (s : World) (applicationId : Id) (status : ApplicationStatus) (s' : World) : Prop
  | untouched : s'.applications = s.applications → s'.enrollments = s.enrollments →
      Decided s applicationId status s'
  /-- The application moves to a status without a seat. -/
  | moved {app : Application} {data : ApplicationData} :
      s.applications.find? applicationId = some app → data.status = status →
      ValidTransition app.status status → status.occupies = false →
      s'.applications = setApplication s.applications (applicationId, data) →
      s'.enrollments = s.enrollments → Decided s applicationId status s'
  /-- It gets a seat, and there is nothing to enrol in. -/
  | notEnrolled {app : Application} {data : ApplicationData} {offer : Offer} :
      s.applications.find? applicationId = some app → data.status = status →
      ValidTransition app.status status → status.occupies = true →
      s.offers.find? app.offerId = some offer → ¬ Enrollable s offer →
      s'.applications = setApplication s.applications (applicationId, data) →
      s'.enrollments = s.enrollments → Decided s applicationId status s'
  /-- It gets a seat, and its student is enrolled. -/
  | enrolled {app : Application} {data : ApplicationData} {offer : Offer}
      {program : SchoolProgram} {academicYear : SchoolAcademicYear} :
      s.applications.find? applicationId = some app → data.status = status →
      ValidTransition app.status status → status.occupies = true →
      s.offers.find? app.offerId = some offer → Enrols s offer program academicYear →
      s'.applications = setApplication s.applications (applicationId, data) →
      s'.enrollments =
        s.enrollments.put (enrollmentOf app.studentId offer program academicYear) →
      Follows s' app.studentId offer.schoolId program.id 1 → Decided s applicationId status s'
  /-- It gives up its seat, and a waitlisted applicant takes it. -/
  | promoted {app next : Application} {student : Student} {data data' : ApplicationData} :
      s.applications.find? applicationId = some app → data.status = status →
      ValidTransition app.status status → freesASeat app.status status = true →
      next ∈ s.firstWaitlisted app.offerId → s.students.find? next.studentId = some student →
      data'.status = .ACCEPTED →
      s'.applications =
        setApplication (setApplication s.applications (applicationId, data)) (next.id, data') →
      s'.enrollments = s.enrollments → s'.courses = s.courses →
      s'.courseEnrollments = s.courseEnrollments → Decided s applicationId status s'

/-- A delivery leaves applications and enrolments alone, or enrols the student of an application that
    has a seat. -/
inductive Delivered (s s' : World) : Prop
  | untouched : s'.applications = s.applications → s'.enrollments = s.enrollments → Delivered s s'
  | enrolled {app : Application} {offer : Offer} {program : SchoolProgram}
      {academicYear : SchoolAcademicYear} :
      s.applications.find? app.id = some app → app.status.occupies = true →
      s.offers.find? app.offerId = some offer → Enrols s offer program academicYear →
      s'.applications = setApplication s.applications (app.id, { status := .ENROLLED }) →
      s'.enrollments =
        s.enrollments.put (enrollmentOf app.studentId offer program academicYear) →
      Follows s' app.studentId offer.schoolId program.id 1 → Delivered s s'

theorem occupies_iff {st : ApplicationStatus} :
    st.occupies = true ↔ st = .ACCEPTED ∨ st = .ENROLLED := by
  simp [ApplicationStatus.occupies]

/-- A delivery does what a decision to enrol can do. -/
theorem Delivered.decided {s s' : World} (h : Delivered s s') :
    ∃ applicationId, Decided s applicationId .ENROLLED s' := by
  cases h with
  | untouched happs henr => exact ⟨0, .untouched happs henr⟩
  | @enrolled app _ _ _ hfile hseat hoffer henrols happs henr hfollows =>
      refine ⟨app.id, .enrolled hfile rfl ?_ rfl hoffer henrols happs henr hfollows⟩
      rcases occupies_iff.1 hseat with h | h <;> rw [h] <;> decide

theorem Delivered.of_same {s s' s'' : World} (h : Delivered s s')
    (happs : s''.applications = s'.applications) (henr : s''.enrollments = s'.enrollments)
    (hcourses : s''.courses = s'.courses)
    (hfollowed : s''.courseEnrollments = s'.courseEnrollments) : Delivered s s'' := by
  cases h with
  | untouched h₁ h₂ => exact .untouched (happs.trans h₁) (henr.trans h₂)
  | enrolled hfile hseat hoffer henrols h₁ h₂ hfollows =>
      refine .enrolled hfile hseat hoffer henrols (happs.trans h₁) (henr.trans h₂) ?_
      intro course hcourse hschool
      rw [hcourses] at hcourse
      rw [hfollowed]
      exact hfollows course hcourse hschool

/-! ## `syncCourseEnrollments` -/

section Sync

variable {α : Type} {E : Err → Option World → World → Prop} {saved : Option World} {s : World}

/-- `s` with other course enrolments. -/
def World.withCourses (s : World) (t : Table CourseEnrollment) : World :=
  { s with courseEnrollments := t }

theorem applyAll_noCourseEnrollment (keys : List (Id × Id)) (s : World) :
    ∃ t, model.applyAll (keys.map Write.noCourseEnrollment) s = s.withCourses t ∧
      ∀ e, e ∈ t ↔ e ∈ s.courseEnrollments ∧ Keyed.key e ∉ keys := by
  induction keys generalizing s with
  | nil => exact ⟨s.courseEnrollments, rfl, by simp⟩
  | cons key keys ih =>
      obtain ⟨t, ht, hmem⟩ := ih (World.apply (.noCourseEnrollment key) s)
      refine ⟨t, ht, fun e => ?_⟩
      rw [hmem, List.mem_cons, not_or, World.apply, Table.mem_filter, decide_eq_true_eq, and_assoc]

theorem mem_put_courseEnrollment {t : Table CourseEnrollment} {e row : CourseEnrollment} :
    e ∈ t.put row ↔ e = row ∨ e ∈ t := by
  rw [Table.mem_put]
  constructor
  · exact fun h => h.imp_right And.left
  · rintro (rfl | h)
    · exact .inl rfl
    · by_cases heq : e = row
      · exact .inl heq
      · refine .inr ⟨h, fun hkey => heq ?_⟩
        obtain ⟨hc, hs⟩ := Prod.mk.inj hkey
        cases e
        cases row
        exact congrArg₂ _ hc hs

theorem upserts_wp {studentId : Id} {Q : PUnit → Option World → World → Prop} (ids : List Id)
    (hE : ∀ e s, E e saved s)
    (hQ : ∀ t : Table CourseEnrollment,
      (∀ e, e ∈ t ↔ e ∈ s.courseEnrollments ∨ e.courseId ∈ ids ∧ e.studentId = studentId) →
      Q () saved (s.withCourses t)) :
    (ids.forM fun courseId => send (.courseEnrollmentUpsert ⟨courseId, studentId⟩)).wp model Q E
      saved s := by
  induction ids generalizing s with
  | nil => exact hQ s.courseEnrollments (by simp)
  | cons id ids ih =>
      simp only [List.forM_eq_forM, List.forM_cons, bind_eq, wp_handle, wp_send, wp_fail]
      refine ⟨fun _ => hE _ _, fun _ _ _ => ?_⟩
      refine ih fun t ht => hQ t fun e => ?_
      have hput : e ∈ (model.applyAll (writes (.courseEnrollmentUpsert ⟨id, studentId⟩) ())
          s).courseEnrollments ↔ e = ⟨id, studentId⟩ ∨ e ∈ s.courseEnrollments :=
        mem_put_courseEnrollment
      rw [ht, hput, List.mem_cons]
      constructor
      · rintro ((rfl | h) | ⟨h, hst⟩)
        · exact .inr ⟨.inl rfl, rfl⟩
        · exact .inl h
        · exact .inr ⟨.inr h, hst⟩
      · rintro (h | ⟨rfl | h, rfl⟩)
        · exact .inl (.inr h)
        · exact .inl (.inl rfl)
        · exact .inr ⟨h, rfl⟩

/-- After it the student follows the courses of the programme level, and nothing else has changed. -/
theorem syncCourseEnrollments_wp {studentId schoolId programId : Id} {programLevel : Nat}
    {Q : Unit → Option World → World → Prop} (hE : ∀ e s, E e saved s)
    (hQ : ∀ t, Follows (s.withCourses t) studentId schoolId programId programLevel →
      Q () saved (s.withCourses t)) :
    (syncCourseEnrollments studentId schoolId programId programLevel).wp model Q E saved s := by
  simp only [syncCourseEnrollments, bind_eq, wp_handle, wp_send, wp_fail]
  refine ⟨fun _ => hE _ _, fun _ ids hids => ⟨fun _ => hE _ _, fun _ keys hkeys => ?_⟩⟩
  have hids := (Option.some.inj hids).symm
  have hkeys : keys = (s.courseEnrollments.rows.filter fun e => e.studentId = studentId ∧
      e.courseId ∉ ids ∧ (s.courses.find? e.courseId).any (·.schoolId = schoolId)).map Keyed.key :=
    (Option.some.inj hkeys).symm
  obtain ⟨t, ht, hmem⟩ := applyAll_noCourseEnrollment keys s
  have hstate : model.applyAll (writes (.courseEnrollmentDeleteMany studentId schoolId ids) keys)
      (model.applyAll (writes (.courseFindMany schoolId programId programLevel) ids) s) =
    s.withCourses t := ht
  rw [hstate]
  refine upserts_wp ids hE fun t' ht' => hQ t' fun course hcourse hschool => ?_
  have hcourse : course ∈ s.courses := hcourse
  have hin : course.id ∈ ids ↔ course.programId = some programId ∧
      course.programLevel = some programLevel ∧ course.isPublished = true := by
    rw [hids, List.mem_map]
    constructor
    · rintro ⟨c, hc, hid⟩
      obtain ⟨hc, hmatch⟩ := List.mem_filter.1 hc
      obtain rfl := Table.eq_of_key_eq hc hcourse hid
      exact (of_decide_eq_true hmatch).2
    · intro hmatch
      exact ⟨course, List.mem_filter.2 ⟨hcourse, decide_eq_true ⟨hschool, hmatch⟩⟩, rfl⟩
  rw [← hin]
  refine (ht' _).trans ⟨?_, fun h => .inr ⟨h, rfl⟩⟩
  rintro (hold | ⟨h, -⟩)
  · -- An enrolment that was kept is one of a course of the list, as the course is of this school.
    obtain ⟨hmem₀, hkept⟩ := (hmem _).1 hold
    by_contra hnot
    refine hkept ?_
    rw [hkeys]
    refine List.mem_map.2 ⟨⟨course.id, studentId⟩, List.mem_filter.2 ⟨hmem₀, ?_⟩, rfl⟩
    have hfind : s.courses.find? course.id = some course := Table.find?_key hcourse
    simp [hnot, hfind, hschool]
  · exact h

/-! ## Writing an enrolment -/

theorem findProgram_wp {offer : Offer}
    {Q : Option SchoolProgram × Option SchoolAcademicYear → Option World → World → Prop}
    (hE : ∀ e s, E e saved s)
    (hyes : ∀ program academicYear, Enrols s offer program academicYear →
      Q (some program, some academicYear) saved s)
    (hno : ∀ found, ¬ Enrollable s offer → (∀ p y, found ≠ (some p, some y)) → Q found saved s) :
    (findProgram offer).wp model Q E saved s := by
  unfold findProgram
  split
  · next hnone =>
      refine hno _ ?_ (by simp)
      rintro ⟨program, academicYear, h⟩
      cases hnone.symm.trans h.linked
  · next programId hlinked =>
      simp only [bind_eq, pure_eq, wp_handle, wp_send, wp_fail, wp_ret]
      refine ⟨fun _ => hE _ _, fun _ program hprogram => ⟨fun _ => hE _ _,
        fun c academicYear hyear => ?_⟩⟩
      have hprogram := (Option.some.inj hprogram).symm
      cases c <;> simp only [exec, reduceCtorEq, Option.some.injEq] at hyear
      show Q (program, academicYear) saved s
      have hyear : pick (s.academicYears.rows.filter fun y =>
        y.schoolId = offer.schoolId ∧ y.isCurrent) _ = academicYear := hyear
      cases program with
      | none =>
          refine hno _ ?_ (by simp)
          rintro ⟨p, y, h⟩
          have hid := Option.some.inj (hlinked.symm.trans h.linked)
          have hfind : s.programs.find? programId = some p := hid ▸ Table.find?_key h.program.1
          simp [hfind, Option.filter, h.program.2.1, h.program.2.2] at hprogram
      | some program =>
          obtain ⟨hfind, hmatch⟩ := Option.filter_eq_some_iff.1 hprogram.symm
          cases academicYear with
          | none =>
              refine hno _ ?_ (by simp)
              rintro ⟨p, y, h⟩
              refine List.filter_eq_nil_iff.1 (pick_eq_none.1 hyear) y h.academicYear.1 ?_
              exact decide_eq_true h.academicYear.2
          | some academicYear =>
              obtain ⟨hy, hcurrent⟩ := List.mem_filter.1 (mem_of_pick hyear)
              refine hyes program academicYear ⟨?_, ⟨Table.mem_of_find? hfind,
                of_decide_eq_true hmatch⟩, hy, of_decide_eq_true hcurrent⟩
              rw [hlinked, ← Table.key_of_find? hfind]
              rfl

/-- `s` with the enrolment `row` and course enrolments `t`. -/
def World.enrolled (s : World) (row : StudentEnrollment) (t : Table CourseEnrollment) : World :=
  { s with enrollments := s.enrollments.put row, courseEnrollments := t }

theorem enrollStudent_wp {studentId : Id} {offer : Offer} {program : SchoolProgram}
    {academicYear : SchoolAcademicYear} {Q : Unit → Option World → World → Prop}
    (hE : ∀ e s, E e saved s)
    (hQ : ∀ t, Follows (s.enrolled (enrollmentOf studentId offer program academicYear) t) studentId
      offer.schoolId program.id 1 →
      Q () saved (s.enrolled (enrollmentOf studentId offer program academicYear) t)) :
    (enrollStudent studentId offer program academicYear).wp model Q E saved s := by
  simp only [enrollStudent, bind_eq, wp_handle, wp_send, wp_fail]
  exact ⟨fun _ => hE _ _, fun _ _ _ => syncCourseEnrollments_wp hE hQ⟩

end Sync

end GetPlatform.Admission
