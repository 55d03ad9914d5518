import GetPlatform.Schools.Facts

set_option autoImplicit false

/-! # Schools are sealed off from each other

Whoever writes a row that joins two others has read before that both belong to the school. What belongs
to a school stays there, so it does not matter what other calls have done since. -/

namespace GetPlatform.Schools

open Pool Prog

abbrev Platform := Pool model Op Err Reply

/-! ## Rows within one school -/

/-- The programme and the year of an enrolment are of its school. -/
def EnrollmentScoped (s : World) (e : StudentEnrollment) : Prop :=
  s.Knows (.program e.schoolId e.programId) ∧ s.Knows (.academicYear e.schoolId e.academicYearId)

/-- So are the programme and the subject of a course, and its teacher was assigned to the school. -/
def CourseScoped (s : World) (course : Course) : Prop :=
  (∀ id ∈ course.programId, s.Knows (.program course.schoolId id)) ∧
    (∀ id ∈ course.subjectId, s.Knows (.subject course.schoolId id)) ∧
    s.Knows (.employed course.schoolId course.teacherId)

/-- A teacher is qualified for subjects of the school of the assignment. -/
def QualificationScoped (s : World) (q : TeacherSchoolSubject) : Prop :=
  ∃ schoolId, s.Knows (.assignment schoolId q.teacherSchoolId) ∧
    s.Knows (.subject schoolId q.subjectId)

/-- Whoever follows a course has an enrolment in the school of the course. -/
def CourseEnrollmentScoped (s : World) (e : CourseEnrollment) : Prop :=
  ∃ schoolId, s.Knows (.course schoolId e.courseId) ∧ s.Knows (.enrolled schoolId e.studentId)

structure Scoped (s : World) : Prop where
  enrollment : ∀ e ∈ s.studentEnrollments, EnrollmentScoped s e
  course : ∀ course ∈ s.courses, CourseScoped s course
  qualification : ∀ q ∈ s.teacherSchoolSubjects, QualificationScoped s q
  courseEnrollment : ∀ e ∈ s.courseEnrollments, CourseEnrollmentScoped s e

section Later

variable {s s' : World} (hlasts : ∀ f, s.Knows f → s'.Knows f)

include hlasts

theorem EnrollmentScoped.later {e : StudentEnrollment} (h : EnrollmentScoped s e) :
    EnrollmentScoped s' e :=
  ⟨hlasts _ h.1, hlasts _ h.2⟩

theorem CourseScoped.later {course : Course} (h : CourseScoped s course) : CourseScoped s' course :=
  ⟨fun id hid => hlasts _ (h.1 id hid), fun id hid => hlasts _ (h.2.1 id hid), hlasts _ h.2.2⟩

theorem QualificationScoped.later {q : TeacherSchoolSubject} (h : QualificationScoped s q) :
    QualificationScoped s' q := by
  obtain ⟨schoolId, hassignment, hsubject⟩ := h
  exact ⟨schoolId, hlasts _ hassignment, hlasts _ hsubject⟩

theorem CourseEnrollmentScoped.later {e : CourseEnrollment} (h : CourseEnrollmentScoped s e) :
    CourseEnrollmentScoped s' e := by
  obtain ⟨schoolId, hcourse, hstudent⟩ := h
  exact ⟨schoolId, hlasts _ hcourse, hlasts _ hstudent⟩

/-- A change of state keeps the borders if each new row respects them. -/
theorem Scoped.later (h : Scoped s)
    (henrollment : ∀ e ∈ s'.studentEnrollments,
      (∃ e' ∈ s.studentEnrollments, e'.schoolId = e.schoolId ∧ e'.programId = e.programId ∧
        e'.academicYearId = e.academicYearId) ∨ EnrollmentScoped s e)
    (hcourse : ∀ course ∈ s'.courses, course ∈ s.courses ∨ CourseScoped s course)
    (hqualification : ∀ q ∈ s'.teacherSchoolSubjects,
      q ∈ s.teacherSchoolSubjects ∨ QualificationScoped s q)
    (hcourseEnrollment : ∀ e ∈ s'.courseEnrollments,
      e ∈ s.courseEnrollments ∨ CourseEnrollmentScoped s e) : Scoped s' where
  enrollment e he := by
    rcases henrollment e he with ⟨e', he', hschool, hprogram, hyear⟩ | hnew
    · have hold := h.enrollment e' he'
      rw [EnrollmentScoped, hschool, hprogram, hyear] at hold
      exact ⟨hlasts _ hold.1, hlasts _ hold.2⟩
    · exact hnew.later hlasts
  course course hmem := (hcourse course hmem).elim (fun hold => (h.course course hold).later hlasts)
    (CourseScoped.later hlasts)
  qualification q hq := (hqualification q hq).elim
    (fun hold => (h.qualification q hold).later hlasts) (QualificationScoped.later hlasts)
  courseEnrollment e he := (hcourseEnrollment e he).elim
    (fun hold => (h.courseEnrollment e hold).later hlasts) (CourseEnrollmentScoped.later hlasts)

end Later

/-- The row that a write leaves respects the borders. -/
def WriteScoped (s : World) : Write → Prop
  | .qualification row => QualificationScoped s row
  | .course row => CourseScoped s row
  | .setCourse id data => ∀ course, s.courses.find? id = some course → CourseScoped s course →
      CourseScoped s (data.set course)
  | .courseEnrollment row => CourseEnrollmentScoped s row
  | .studentEnrollment row => EnrollmentScoped s row
  | .setStudentEnrollment id data =>
      ∀ e, s.studentEnrollments.findNumber? id = some e → EnrollmentScoped s (data.set e)
  | _ => True

/-- A row of the students, with the columns that tie it to its school. -/
theorem enrollment_tied {s : World} {e : StudentEnrollment} (he : e ∈ s.studentEnrollments) :
    ∃ e' ∈ s.studentEnrollments, e'.schoolId = e.schoolId ∧ e'.programId = e.programId ∧
      e'.academicYearId = e.academicYearId :=
  ⟨e, he, rfl, rfl, rfl⟩

theorem Scoped.apply {s : World} {w : Write} (h : Scoped s) (hw : WriteScoped s w) :
    Scoped (s.apply w) := by
  have hlasts : ∀ f, s.Knows f → (s.apply w).Knows f := fun f hf => hf.apply w
  cases w with
  | qualification row =>
      refine h.later hlasts (fun e he => .inl (enrollment_tied he)) (fun _ h => .inl h) (fun q hq => ?_)
        fun _ h => .inl h
      rcases Table.mem_of_mem_insert hq with hq | rfl
      · exact .inl hq
      · exact .inr hw
  | unqualified row =>
      exact h.later hlasts (fun e he => .inl (enrollment_tied he)) (fun _ h => .inl h)
        (fun q hq => .inl (Table.mem_filter.1 hq).1) fun _ h => .inl h
  | course row =>
      refine h.later hlasts (fun e he => .inl (enrollment_tied he)) (fun course hcourse => ?_)
        (fun _ h => .inl h) fun _ h => .inl h
      rcases Table.mem_of_mem_insert hcourse with hcourse | rfl
      · exact .inl hcourse
      · exact .inr hw
  | setCourse id data =>
      refine h.later hlasts (fun e he => .inl (enrollment_tied he)) (fun course hcourse => ?_)
        (fun _ h => .inl h) fun _ h => .inl h
      have hcourse : course ∈ s.courses.modify id data.set fun _ => rfl := hcourse
      obtain ⟨old, hold, rfl⟩ := Table.mem_modify.1 hcourse
      split
      · next hid => exact .inr (hw old (Table.find?_eq_some.2 ⟨hold, hid⟩) (h.course old hold))
      · exact .inl hold
  | courseEnrollment row =>
      refine h.later hlasts (fun e he => .inl (enrollment_tied he)) (fun _ h => .inl h)
        (fun _ h => .inl h) fun e he => ?_
      rcases Table.mem_of_mem_insert he with he | rfl
      · exact .inl he
      · exact .inr hw
  | courseLeft row =>
      exact h.later hlasts (fun e he => .inl (enrollment_tied he)) (fun _ h => .inl h)
        (fun _ h => .inl h) fun e he => .inl (Table.mem_filter.1 he).1
  | studentEnrollment row =>
      refine h.later hlasts (fun e he => ?_) (fun _ h => .inl h) (fun _ h => .inl h) fun _ h => .inl h
      have he : e ∈ putStudentEnrollment row s.studentEnrollments := he
      unfold putStudentEnrollment at he
      split at he
      · obtain ⟨old, hold, rfl⟩ := Indexed.mem_modify.1 he
        split
        · next hkey =>
            have hschool : old.schoolId = row.schoolId := (Prod.mk.inj hkey).2
            exact .inr (show EnrollmentScoped s _ by rw [EnrollmentScoped, hschool]; exact hw)
        · exact .inl (enrollment_tied hold)
      · rcases Indexed.mem_of_mem_insert he with he | rfl
        · exact .inl (enrollment_tied he)
        · exact .inr hw
  | setStudentEnrollment id data =>
      refine h.later hlasts (fun e he => ?_) (fun _ h => .inl h) (fun _ h => .inl h) fun _ h => .inl h
      obtain ⟨old, hold, rfl⟩ := Indexed.mem_modifyNumber.1 he
      split
      · next hid => exact .inr (hw old (Indexed.findNumber?_eq_some.2 ⟨hold, hid⟩))
      · exact .inl (enrollment_tied hold)
  | setStatus id status =>
      refine h.later hlasts (fun e he => .inl ?_) (fun _ h => .inl h) (fun _ h => .inl h)
        fun _ h => .inl h
      obtain ⟨old, hold, rfl⟩ := Indexed.mem_modifyNumber.1 he
      refine ⟨old, hold, ?_⟩
      split <;> exact ⟨rfl, rfl, rfl⟩
  | setLabel id label =>
      refine h.later hlasts (fun e he => .inl ?_) (fun _ h => .inl h) (fun _ h => .inl h)
        fun _ h => .inl h
      obtain ⟨old, hold, rfl⟩ := Indexed.mem_modifyNumber.1 he
      refine ⟨old, hold, ?_⟩
      split <;> exact ⟨rfl, rfl, rfl⟩
  | _ =>
      exact h.later hlasts (fun e he => .inl (enrollment_tied he)) (fun _ h => .inl h)
        (fun _ h => .inl h) fun _ h => .inl h

/-- A statement that is safe by what is known writes rows that respect the borders. -/
theorem writeScoped_of_licensed {s : World} {q : Stmt} {a : Ans q} (hpossible : model.Possible q a)
    (h : Licensed s.Knows q) {w : Write} (hw : w ∈ writes q a) : WriteScoped s w := by
  cases q with
  | teacherSchoolSubjectCreateMany teacherSchoolId subjectIds =>
      obtain ⟨schoolId, hassignment, hsubjects⟩ := h
      obtain ⟨id, hid, rfl⟩ := List.mem_map.1 hw
      exact ⟨schoolId, hassignment, hsubjects id hid⟩
  | teacherSchoolSubjectDeleteMany teacherSchoolId =>
      obtain ⟨id, -, rfl⟩ := List.mem_map.1 hw
      trivial
  | courseCreate data =>
      obtain rfl := List.mem_singleton.1 hw
      obtain ⟨c, s', hexec⟩ := hpossible
      simp only [model, exec] at hexec
      split at hexec
      · cases hexec
      · obtain rfl := Option.some.inj hexec
        refine ⟨fun id hid => ?_, fun id hid => ?_, h.2.2⟩
        · obtain rfl := Option.some.inj hid
          exact h.1
        · obtain rfl := Option.some.inj hid
          exact h.2.1
  | courseUpdate id data =>
      obtain rfl := List.mem_singleton.1 hw
      obtain ⟨schoolId, hcourse, hteacher, hprogram, hsubject⟩ := h
      intro course hfind hold
      obtain rfl : course.schoolId = schoolId := by
        have : (s.courses.find? id).map (·.schoolId) = some schoolId := hcourse
        rw [hfind] at this
        exact Option.some.inj this
      refine ⟨fun id hid => ?_, fun id hid => ?_, hteacher⟩
      · have hid : data.programId.getD course.programId = some id := hid
        cases hnew : data.programId with
        | none => exact hold.1 id (by rwa [hnew] at hid)
        | some programId => exact hprogram id (by rw [hnew] at hid ⊢; exact hid)
      · have hid : data.subjectId.getD course.subjectId = some id := hid
        cases hnew : data.subjectId with
        | none => exact hold.2.1 id (by rwa [hnew] at hid)
        | some subjectId => exact hsubject id (by rw [hnew] at hid ⊢; exact hid)
  | courseSlotUpdateMany courseId teacherId =>
      obtain ⟨id, -, rfl⟩ := List.mem_map.1 hw
      trivial
  | courseEnrollmentDeleteMany studentId schoolId courseIds =>
      obtain ⟨id, -, rfl⟩ := List.mem_map.1 hw
      trivial
  | courseEnrollmentUpsert courseId studentId =>
      obtain rfl := List.mem_singleton.1 hw
      exact h
  | schoolAcademicYearUpdateManyCurrent schoolId excludedId =>
      obtain ⟨id, -, rfl⟩ := List.mem_map.1 hw
      trivial
  | studentEnrollmentUpsert studentId schoolId data =>
      obtain rfl := List.mem_singleton.1 hw
      obtain ⟨c, s', hexec⟩ := hpossible
      rw [WriteScoped, of_upsert hexec]
      exact h
  | studentEnrollmentUpdate id data =>
      obtain rfl := List.mem_singleton.1 hw
      obtain ⟨schoolId, henrollment, hprogram, hyear⟩ := h
      intro e he
      have hschool : e.schoolId = schoolId := by
        have : (s.studentEnrollments.findNumber? id).map (·.schoolId) = some schoolId := henrollment
        rw [he] at this
        exact Option.some.inj this
      show EnrollmentScoped s (data.row e.id e.studentId e.schoolId)
      rw [hschool]
      exact ⟨hprogram, hyear⟩
  | _ =>
      first
        | (obtain rfl := List.mem_singleton.1 hw; trivial)
        | cases hw

/-- A statement that is safe keeps the borders. -/
theorem scoped_of_licensed {s : World} {q : Stmt} {a : Ans q} (hpossible : model.Possible q a)
    (h : Licensed s.Knows q) (hs : Scoped s) : Scoped (model.applyAll (writes q a) s) := by
  have hboth : Scoped (model.applyAll (writes q a) s) ∧
      ∀ f, s.Knows f → (model.applyAll (writes q a) s).Knows f := by
    refine model.applyAll_keeps (P := fun s' => Scoped s' ∧ ∀ f, s.Knows f → s'.Knows f)
      (fun w hw s' hs' => ⟨hs'.1.apply ?_, fun f hf => (hs'.2 f hf).apply w⟩) ⟨hs, fun _ hf => hf⟩
    exact writeScoped_of_licensed hpossible (h.mono hs'.2) hw
  exact hboth.1

/-! ## The programs -/

@[simp] theorem heeds_perform {q : Stmt} {Q : (Fact → Prop) → Bool → Ans q → Prop}
    {E : (Fact → Prop) → Bool → Err → Prop} {K : Fact → Prop} {tx : Bool} :
    @Prog.Heeds interface model Err (no_index (Ans q)) learning (perform q) Q E K tx ↔
      (Licensed K q ∧ (tx = true → ∀ a f, ¬ shows ⟨q, a⟩ f)) ∧ (∀ f, E K tx (.failure f)) ∧
        ∀ a, model.Possible q a → Q (fun f => K f ∨ shows ⟨q, a⟩ f) tx a :=
  Iff.rfl

/-- The program heeds what it knows, from outside a transaction to outside again. -/
abbrev Careful {α : Type} (K : Fact → Prop) (p : Call α) : Prop :=
  p.Heeds learning (fun _ tx _ => tx = false) (fun _ tx _ => tx = false) K false

section Programs

variable {K : Fact → Prop}

/-- In a transaction, to the end of it. -/
abbrev Inside {α : Type} (K : Fact → Prop) (p : Call α) : Prop :=
  p.Heeds learning (fun _ tx _ => tx = true) (fun _ _ _ => True) K true

theorem Careful.transaction {α : Type} {body : Call α} (h : Inside K body) :
    Careful K (transaction body) := by
  refine (heeds_transaction ..).2 ⟨rfl, heeds_mono (fun _ _ _ htx => ?_) (fun _ _ _ _ => rfl) h⟩
  exact ⟨htx, fun _ => rfl, rfl⟩

/-- What a careful program is followed by. -/
theorem Careful.handle {α β : Type} {p : Call α} {f : α → Call β} (hp : Careful K p)
    (hf : ∀ (a : α) (K : Fact → Prop), Careful K (f a)) : Careful K (p.handle f .fail) := by
  rw [Careful, heeds_handle]
  refine heeds_mono (fun K tx a htx => ?_) (fun _ _ _ htx => htx) hp
  rw [htx]
  exact hf a K

theorem careful_perform {q : Stmt} (h : Licensed K q) : Careful K (perform q) :=
  ⟨⟨h, fun h => by cases h⟩, fun _ => rfl, fun _ _ => rfl⟩

/-- A statement, and what follows its answer. -/
theorem Careful.perform {β : Type} {q : Stmt} {f : Ans q → Call β} (h : Licensed K q)
    (hf : ∀ a, Careful (fun f => K f ∨ shows ⟨q, a⟩ f) (f a)) :
    Careful K ((Schools.perform q).handle f .fail) :=
  ⟨⟨h, fun h => by cases h⟩, fun _ => rfl, fun a _ => hf a⟩

theorem upsertCourses_inside {schoolId studentId : Id} (hstudent : K (.enrolled schoolId studentId))
    {courseIds : List Id} (hcourses : ∀ id ∈ courseIds, K (.course schoolId id)) :
    Inside K (upsertCourses studentId courseIds) := by
  induction courseIds generalizing K with
  | nil => exact rfl
  | cons courseId courseIds ih =>
      refine ⟨⟨⟨schoolId, hcourses _ (.head _), hstudent⟩, fun _ _ _ h => h⟩, fun _ => trivial,
        fun _ _ => ?_⟩
      exact ih (.inl hstudent) fun id hid => .inl (hcourses id (.tail _ hid))

theorem syncCourseEnrollments_careful {studentId schoolId programId : Id} {programLevel : Int}
    (hstudent : K (.enrolled schoolId studentId)) :
    Careful K (syncCourseEnrollments studentId schoolId programId programLevel) := by
  refine ⟨⟨trivial, fun h => by cases h⟩, fun _ => rfl, fun courses _ => ?_⟩
  refine Careful.transaction ⟨⟨trivial, fun _ _ _ h => h⟩, fun _ => trivial, fun _ _ => ?_⟩
  exact upsertCourses_inside (.inl (.inl hstudent)) fun id hid => .inl (.inr ⟨id, hid, rfl⟩)

theorem updateLabels_inside (labels : List (Id × String)) : Inside K (updateLabels labels) := by
  induction labels generalizing K with
  | nil => exact rfl
  | cons label labels ih => exact ⟨⟨trivial, fun _ _ _ h => h⟩, fun _ => trivial, fun _ _ => ih⟩

theorem syncTeacherSubjects_careful {schoolId teacherSchoolId : Id} {subjectIds : List Id}
    (hassignment : K (.assignment schoolId teacherSchoolId)) :
    Careful K (syncTeacherSubjects schoolId teacherSchoolId subjectIds) := by
  refine ⟨⟨trivial, fun h => by cases h⟩, fun _ => rfl, fun subjects _ => ?_⟩
  refine Careful.transaction ⟨⟨trivial, fun _ _ _ h => h⟩, fun _ => trivial, fun _ _ => ?_⟩
  refine ⟨⟨⟨schoolId, .inl (.inl hassignment), fun id hid => .inl (.inr ⟨id, hid, rfl⟩)⟩,
    fun _ _ _ h => h⟩, fun _ => trivial, fun _ _ => rfl⟩

theorem updateProgram_careful (schoolId id : Id) (dto : UpdateSchoolProgramDto) :
    Careful K (updateProgram schoolId id dto) := by
  -- What follows the check on the duration.
  have hrest : ∀ K, Careful K (do
      let updated ← Schools.perform (.schoolProgramUpdate id
        { dto with name := dto.name.map trim, diploma := dto.diploma.map trim })
      if dto.name.isSome then refreshProgramEnrollmentLabels id updated.name
      return updated) := by
    intro K
    refine Careful.perform trivial fun updated => ?_
    split
    · refine Careful.handle ?_ fun _ _ => rfl
      exact Careful.perform trivial fun enrollments => Careful.transaction (updateLabels_inside _)
    · exact rfl
  refine Careful.perform trivial fun found => ?_
  cases found with
  | none => exact rfl
  | some program =>
      simp only
      split
      · refine Careful.perform trivial fun higherLevelEnrollment => ?_
        split
        · exact rfl
        · exact hrest _
      · exact hrest _

theorem createAcademicYear_careful (schoolId : Id) (dto : CreateSchoolAcademicYearDto) :
    Careful K (createAcademicYear schoolId dto) := by
  have hcreate : ∀ K, Inside K (Schools.perform
      (.schoolAcademicYearCreate schoolId { dto with label := trim dto.label })) := fun K =>
    ⟨⟨trivial, fun _ _ _ h => h⟩, fun _ => trivial, fun _ _ => rfl⟩
  refine Careful.handle ?_ fun _ K => Careful.transaction ?_
  · unfold assertEnrollmentPeriod
    split <;> exact rfl
  · split
    · exact ⟨⟨trivial, fun _ _ _ h => h⟩, fun _ => trivial, fun _ _ => hcreate _⟩
    · exact hcreate K

theorem updateAcademicYear_careful (schoolId id : Id) (dto : UpdateSchoolAcademicYearDto) :
    Careful K (updateAcademicYear schoolId id dto) := by
  have hupdate : ∀ K, Inside K (Schools.perform
      (.schoolAcademicYearUpdate id { dto with label := dto.label.map trim })) := fun K =>
    ⟨⟨trivial, fun _ _ _ h => h⟩, fun _ => trivial, fun _ _ => rfl⟩
  refine Careful.perform trivial fun found => ?_
  cases found with
  | none => exact rfl
  | some academicYear =>
      refine Careful.handle ?_ fun _ K => Careful.handle (Careful.transaction ?_) fun updated K => ?_
      · unfold assertEnrollmentPeriod
        split <;> exact rfl
      · split
        · exact ⟨⟨trivial, fun _ _ _ h => h⟩, fun _ => trivial, fun _ _ => hupdate _⟩
        · exact hupdate K
      · split
        · refine Careful.handle ?_ fun _ _ => rfl
          exact Careful.perform trivial fun enrollments => Careful.transaction (updateLabels_inside _)
        · exact rfl

theorem updateSubject_careful (schoolId id : Id) (isActive : Bool) :
    Careful K (updateSubject schoolId id isActive) := by
  refine Careful.perform trivial fun found => ?_
  cases found with
  | none => exact rfl
  | some subject => exact careful_perform trivial

theorem assignTeacher_careful (schoolId : Id) (dto : AssignTeacherDto) :
    Careful K (assignTeacher schoolId dto) := by
  refine Careful.perform trivial fun found => ?_
  cases found with
  | none => exact rfl
  | some teacher =>
      refine Careful.perform trivial fun assignment => ?_
      split
      · exact Careful.handle (syncTeacherSubjects_careful (.inr rfl)) fun _ _ =>
          careful_perform trivial
      · exact careful_perform trivial

theorem updateTeacherAssignment_careful (schoolId teacherSchoolId : Id)
    (dto : UpdateTeacherAssignmentDto) :
    Careful K (updateTeacherAssignment schoolId teacherSchoolId dto) := by
  refine Careful.perform trivial fun found => ?_
  cases found with
  | none => exact rfl
  | some assignment =>
      refine Careful.perform trivial fun updated => ?_
      split
      · exact Careful.handle (syncTeacherSubjects_careful (.inl (.inr ⟨assignment, rfl, rfl⟩)))
          fun _ _ => rfl
      · exact rfl

/-- Once a teacher was found active in a school, it is known that he was assigned to it. -/
theorem ensureActiveTeacherAssignment_handle {β : Type} {schoolId teacherId : Id} {f : Unit → Call β}
    (hf : ∀ K', (∀ f, K f → K' f) → K' (.employed schoolId teacherId) → Careful K' (f ())) :
    Careful K ((ensureActiveTeacherAssignment schoolId teacherId).handle f .fail) := by
  refine (heeds_handle ..).2 ⟨⟨trivial, fun h => by cases h⟩, fun _ => rfl, fun found _ => ?_⟩
  cases found with
  | none => exact rfl
  | some assignment => exact hf _ (fun _ h => .inl h) (.inr ⟨assignment, rfl, rfl⟩)

theorem createCourse_careful (schoolId : Id) (dto : CreateSchoolCourseDto) :
    Careful K (createCourse schoolId dto) := by
  refine ensureActiveTeacherAssignment_handle fun K hK hteacher => ?_
  refine Careful.perform trivial fun subject => Careful.perform trivial fun program => ?_
  split
  · next subject program =>
      refine (heeds_ite ..).2 ⟨fun _ => rfl, fun _ => careful_perform ?_⟩
      exact ⟨.inr ⟨program, rfl, .inr rfl⟩, .inl (.inr ⟨subject, rfl, .inr rfl⟩),
        .inl (.inl hteacher)⟩
  · exact rfl

/-- What a change names was found in the school, if it was found. -/
theorem namedSubject_handle {β : Type} {schoolId : Id} {id : Option Id}
    {f : Option SchoolSubject → Call β}
    (hf : ∀ K' found, (∀ f, K f → K' f) →
      (id.isSome = true → ∀ b ∈ found, K' (.subject schoolId (id.getD 0))) → Careful K' (f found)) :
    Careful K ((namedSubject schoolId id).handle f .fail) := by
  cases id with
  | none => exact hf K none (fun _ h => h) fun h => by cases h
  | some id =>
      exact Careful.perform trivial fun found => hf _ found (fun _ h => .inl h) fun _ b hb =>
        .inr ⟨b, hb, .inl rfl⟩

theorem namedProgram_handle {β : Type} {schoolId : Id} {id : Option Id}
    {f : Option SchoolProgram → Call β}
    (hf : ∀ K' found, (∀ f, K f → K' f) →
      (id.isSome = true → ∀ p ∈ found, K' (.program schoolId (id.getD 0))) → Careful K' (f found)) :
    Careful K ((namedProgram schoolId id).handle f .fail) := by
  cases id with
  | none => exact hf K none (fun _ h => h) fun h => by cases h
  | some id =>
      exact Careful.perform trivial fun found => hf _ found (fun _ h => .inl h) fun _ p hp =>
        .inr ⟨p, hp, .inl rfl⟩


theorem moveCourseSlots_careful (courseId teacherId : Id) :
    Careful K (moveCourseSlots courseId teacherId) :=
  ⟨⟨trivial, fun h => by cases h⟩, fun _ => rfl, fun _ _ => rfl⟩

/-- What a change names has been found, unless the call has failed. -/
theorem named_known {ρ : Type} {id : Option Id} {found : Option ρ} {fact : Id → Fact}
    (hknown : id.isSome = true → ∀ r ∈ found, K (fact (id.getD 0)))
    (hfound : ¬ (id.isSome = true ∧ found.isNone = true)) : ∀ i ∈ id, K (fact i) := by
  intro i hi
  obtain rfl : id = some i := hi
  cases found with
  | none => exact absurd ⟨rfl, rfl⟩ hfound
  | some r => exact hknown rfl r rfl

theorem updateCourse_careful (schoolId courseId : Id) (dto : UpdateSchoolCourseDto) :
    Careful K (updateCourse schoolId courseId dto) := by
  -- What follows the check on the students of the course.
  have hrest : ∀ (K : Fact → Prop) (course : Course), K (.course schoolId courseId) → Careful K (do
      let teacherId := dto.teacherId.getD course.teacherId
      ensureActiveTeacherAssignment schoolId teacherId
      let subject ← namedSubject schoolId dto.subjectId.join
      let program ← namedProgram schoolId dto.programId.join
      if (dto.subjectId.join.isSome ∧ subject.isNone) ∨
          (dto.programId.join.isSome ∧ program.isNone) then
        throw <| .NotFoundException "Matière ou filière introuvable"
      let updated ← Schools.perform <| .courseUpdate courseId
        { teacherId, code := dto.code, title := subject.map (·.name), subjectId := dto.subjectId
          programId := dto.programId, programLevel := dto.programLevel
          level := courseLevel program dto.programLevel.join, isPublished := dto.isPublished }
      if dto.teacherId.any (· ≠ course.teacherId) then moveCourseSlots courseId teacherId
      return updated) := by
    intro K course hcourse
    refine ensureActiveTeacherAssignment_handle fun K₁ hK₁ hteacher => ?_
    refine namedSubject_handle fun K₂ subject hK₂ hsubject => ?_
    refine namedProgram_handle fun K₃ program hK₃ hprogram => ?_
    refine (heeds_ite ..).2 ⟨fun _ => rfl, fun hfound => ?_⟩
    rw [not_or] at hfound
    refine Careful.perform ⟨schoolId, hK₃ _ (hK₂ _ (hK₁ _ hcourse)), hK₃ _ (hK₂ _ hteacher),
      named_known hprogram hfound.2, fun id hid => hK₃ _ (named_known hsubject hfound.1 id hid)⟩
      fun updated => ?_
    split
    · exact Careful.handle (moveCourseSlots_careful ..) fun _ _ => rfl
    · exact rfl
  refine Careful.perform trivial fun found => ?_
  cases found with
  | none => exact rfl
  | some course =>
      simp only
      split
      · refine Careful.perform trivial fun activeEnrollmentCount => ?_
        split
        · exact rfl
        · exact hrest _ course (.inl (.inr ⟨course, rfl, rfl⟩))
      · exact hrest _ course (.inr ⟨course, rfl, rfl⟩)

section Host

variable (host : Host)

theorem enrollStudent_careful (schoolId : Id) (dto : EnrollStudentDto) :
    Careful K (enrollStudent host schoolId dto) := by
  refine Careful.perform trivial fun found => ?_
  split
  · next student hstudent =>
      refine Careful.perform trivial fun found => ?_
      cases found with
      | none => exact rfl
      | some academicYear =>
          refine Careful.perform trivial fun now => (heeds_ite ..).2 ⟨fun _ => rfl, fun _ => ?_⟩
          refine Careful.perform trivial fun found => ?_
          cases found with
          | none => exact rfl
          | some program =>
              refine (heeds_ite ..).2 ⟨fun _ => rfl, fun _ => ?_⟩
              refine Careful.perform ⟨.inr ⟨program, rfl, .inl rfl⟩,
                .inl (.inl (.inr ⟨academicYear, rfl, .inl rfl⟩))⟩ fun row => ?_
              exact Careful.handle (syncCourseEnrollments_careful (.inr rfl)) fun _ _ =>
                careful_perform trivial
  · exact rfl

theorem updateEnrollment_careful (schoolId studentId : Id) (data : UpdateSchoolStudentEnrollmentDto) :
    Careful K (updateEnrollment schoolId studentId data) := by
  refine Careful.perform trivial fun found => ?_
  cases found with
  | none => exact rfl
  | some row =>
      obtain ⟨enrollment, student⟩ := row
      refine (heeds_ite ..).2 ⟨fun _ => rfl, fun _ => ?_⟩
      refine (heeds_ite ..).2 ⟨fun _ => careful_perform trivial, fun _ => ?_⟩
      refine Careful.perform trivial fun program => Careful.perform trivial fun academicYear => ?_
      split
      · next program academicYear =>
          refine (heeds_ite ..).2 ⟨fun _ => rfl, fun _ => ?_⟩
          refine Careful.perform ⟨schoolId, .inl (.inl (.inr ⟨_, rfl, .inr rfl⟩)),
            .inl (.inr ⟨program, rfl, rfl⟩), .inr ⟨academicYear, rfl, .inr rfl⟩⟩ fun row => ?_
          exact Careful.handle
            (syncCourseEnrollments_careful (.inl (.inl (.inl (.inr ⟨_, rfl, .inl rfl⟩)))))
            fun _ _ => rfl
      · exact rfl

theorem enrollRows_careful (schoolId : Id) (programs : List SchoolProgram)
    (academicYears : List SchoolAcademicYear) (rows : List EnrollmentRow) (done : Import) :
    Careful K (enrollRows host schoolId programs academicYears rows done) := by
  induction rows generalizing done K with
  | nil => exact rfl
  | cons row rows ih =>
      refine (heeds_handle ..).2 ((heeds_handle ..).2 ((heeds_handle ..).2 ?_))
      have hrow : Careful K (enrollRow host schoolId programs academicYears row) := by
        unfold enrollRow
        dsimp only
        split
        · split
          · exact Careful.handle (enrollStudent_careful host ..) fun _ _ => rfl
          · exact rfl
        · exact rfl
      refine heeds_mono (fun K tx _ htx => ?_) (fun K tx _ htx => ?_) hrow
      · rw [htx]
        exact ih _
      · rw [htx]
        exact ih _

theorem bulkEnrollStudents_careful (schoolId : Id) (rows : List EnrollmentRow) :
    Careful K (bulkEnrollStudents host schoolId rows) :=
  Careful.perform trivial fun _ => Careful.perform trivial fun _ => enrollRows_careful host ..

theorem program_careful (o : Op) : Careful K (program host o) := by
  have hmap : ∀ {α : Type} {p : Call α} (f : α → Reply), Careful K p → Careful K (f <$> p) :=
    fun f hp => Careful.handle hp fun _ _ => rfl
  cases o with
  | createProgram schoolId dto => exact hmap _ (careful_perform trivial)
  | updateProgram schoolId id dto => exact hmap _ (updateProgram_careful ..)
  | createAcademicYear schoolId dto => exact hmap _ (createAcademicYear_careful ..)
  | updateAcademicYear schoolId id dto => exact hmap _ (updateAcademicYear_careful ..)
  | createSubject schoolId name => exact hmap _ (careful_perform trivial)
  | updateSubject schoolId id isActive => exact hmap _ (updateSubject_careful ..)
  | assignTeacher schoolId dto => exact hmap _ (assignTeacher_careful ..)
  | updateTeacherAssignment schoolId id dto => exact hmap _ (updateTeacherAssignment_careful ..)
  | createCourse schoolId dto => exact hmap _ (createCourse_careful ..)
  | updateCourse schoolId courseId dto => exact hmap _ (updateCourse_careful ..)
  | enrollStudent schoolId dto => exact hmap _ (enrollStudent_careful host ..)
  | updateEnrollment schoolId studentId data => exact hmap _ (updateEnrollment_careful ..)
  | bulkEnrollStudents schoolId rows => exact hmap _ (bulkEnrollStudents_careful host ..)

end Host

end Programs

/-! ## Every run -/

variable {host : Host}

theorem Scoped.change {s : World} (h : Scoped s) (e : Change) : Scoped (s.change e) := by
  have hlasts : ∀ f, s.Knows f → (s.change e).Knows f := fun f hf => hf.change e
  cases e <;>
    exact h.later hlasts (fun e he => .inl (enrollment_tied he)) (fun _ h => .inl h)
      (fun _ h => .inl h) fun _ h => .inl h

/-- **Schools never mix.** In every run of the service, however its calls interleave and whatever fails
    on the way, each enrolment, course, qualification and course list stays within one school. -/
theorem schools_sealed {s₀ : World} (h₀ : Scoped s₀) {R : Platform → Step model Op → Prop}
    {p : Platform} (hrun : Run (program host) R (idle s₀) p) : Scoped p.db :=
  Learning.holds (L := learning) scoped_of_licensed
    (fun o => (program_careful host (K := fun _ => False) o).conforms fun _ h => h.elim)
    (fun _ e _ h => h.change e) h₀ hrun

/-- School 1 with a programme of three years, an open academic year, a subject and a teacher, and a
    student who is not enrolled. -/
def campus : World :=
  { World.empty with
    users := .ofList [⟨11, "ana@mail.mg", some "STUDENT"⟩]
    students := .ofList [⟨3, 11, false⟩]
    teachers := .ofList [⟨2⟩]
    programs := .ofList [⟨5, 1, "Droit", "Licence", 3, true⟩]
    academicYears := .ofList [⟨6, 1, "2025", 0, 100, true⟩]
    subjects := .ofList [⟨7, 1, "Histoire", true⟩]
    teacherSchools := .ofList [⟨8, 2, 1, none, none, true⟩] }

/-- Texts are as they are written. -/
def plainHost : Host := ⟨id, fun _ => ""⟩

theorem campus_scoped : Scoped campus where
  enrollment _ he := absurd he Indexed.of_mem_empty
  course _ hcourse := absurd hcourse (Table.not_mem_empty _)
  qualification _ hq := absurd hq (Table.not_mem_empty _)
  courseEnrollment _ he := absurd he (Table.not_mem_empty _)

/-- Two calls that interleave. -/
def enrolledMeanwhile : List (Step model Op) :=
  [.spawn (.createCourse 1 ⟨2, "H1", 7, 5, 2, none⟩),
    .spawn (.enrollStudent 1 ⟨"ana@mail.mg", 5, 2, 6⟩)] ++
  List.replicate 3 (.exec 1 { now := 50 }) ++ List.replicate 4 (.exec 0 { id := 30 }) ++
  List.replicate 8 (.exec 1 { id := 40 })

/-- The student is enrolled while a course of the programme is created. -/
theorem schools_sealed_campus : ∃ p : Platform, Run (program plainHost) anyStep (idle campus) p ∧
    p.db.courseEnrollments.rows = [⟨30, 3⟩] ∧ p.db.studentEnrollments.rows.length = 1 ∧
    Scoped p.db := by
  have hplay : ((idle campus : Platform).play (program plainHost) anyStep enrolledMeanwhile).any
      (fun p => p.db.courseEnrollments.rows = [⟨30, 3⟩] ∧
        p.db.studentEnrollments.rows.length = 1) = true := by
    decide +kernel
  obtain ⟨p, hrun, hp⟩ := exists_run_of_play hplay
  obtain ⟨hcourses, henrollments⟩ := of_decide_eq_true hp
  exact ⟨p, hrun, hcourses, henrollments, schools_sealed campus_scoped hrun⟩

end GetPlatform.Schools
