import GetPlatform.Schools.Statements

set_option autoImplicit false

/-! # What enrolling keeps

A call that enrols a student has read the student, the programme and the academic year before it writes
the row. With one call at a time they are still there: what such a row keeps, the call keeps. -/

namespace GetPlatform.Schools

open Prog

/-! ## Facts about every enrolment -/

/-- Every enrolled student exists, and `Q` holds of the enrolment if the account is not deleted. -/
structure ForStudents (Q : World → StudentEnrollment → Prop) (s : World) : Prop where
  registered : ∀ e ∈ s.studentEnrollments, s.students.contains e.studentId = true
  each : ∀ e ∈ s.studentEnrollments, s.hasStudent e.studentId = true → Q s e

variable {Q Q' : World → StudentEnrollment → Prop} {s s' : World}

/-- Rows that are kept, those that change and those that are added satisfy `Q'` afterwards. -/
theorem ForStudents.of_rows (h : ForStudents Q s) (hstudents : s'.students = s.students)
    (hrows : ∀ e ∈ s'.studentEnrollments,
      (∃ e' ∈ s.studentEnrollments, e'.studentId = e.studentId ∧ (Q s e' → Q' s' e)) ∨
      s.students.contains e.studentId = true ∧ Q' s' e) : ForStudents Q' s' where
  registered e he := by
    rw [hstudents]
    rcases hrows e he with ⟨e', he', hstudent, -⟩ | ⟨hstudent, -⟩
    · exact hstudent ▸ h.registered e' he'
    · exact hstudent
  each e he hstudent := by
    have hstudent : s.hasStudent e.studentId = true := by
      unfold World.hasStudent at hstudent ⊢
      rwa [hstudents] at hstudent
    rcases hrows e he with ⟨e', he', hsame, hQ⟩ | ⟨-, hQ⟩
    · exact hQ (h.each e' he' (hsame ▸ hstudent))
    · exact hQ

/-- The enrolments are as they are. -/
theorem ForStudents.congr (h : ForStudents Q s) (hstudents : s'.students = s.students)
    (hrows : s'.studentEnrollments = s.studentEnrollments) (hQ : ∀ e, Q s e → Q' s' e) :
    ForStudents Q' s' :=
  h.of_rows hstudents fun e he => .inl ⟨e, hrows ▸ he, rfl, hQ e⟩

/-- People come and go; nobody who is enrolled comes back. -/
theorem ForStudents.change (h : ForStudents Q s) (e : Change) (hQ : ∀ x, Q s x → Q (s.change e) x) :
    ForStudents Q (s.change e) := by
  cases e with
  | student row =>
      refine ⟨fun e he => Table.contains_insert (h.registered e he), fun e he hstudent => ?_⟩
      refine hQ e (h.each e he ?_)
      -- The student of an enrolment is not the one who registers.
      obtain ⟨x, hx⟩ := Option.isSome_iff_exists.1 (h.registered e he)
      have hany : ((s.students.insert row).find? e.studentId).any (·.isDeleted = false) = true :=
        hstudent
      rw [Table.find?_insert_of_find? hx] at hany
      unfold World.hasStudent
      rwa [hx]
  | studentDeleted id =>
      have hmodify : ∀ studentId, (s.change (.studentDeleted id)).students.find? studentId = _ :=
        Table.find?_modify s.students id (fun x => { x with isDeleted := true }) fun _ => rfl
      refine ⟨fun e he => ?_, fun e he hstudent => hQ e (h.each e he ?_)⟩
      · obtain ⟨x, hx⟩ := Option.isSome_iff_exists.1 (h.registered e he)
        rw [Table.contains, hmodify]
        split
        · next hid =>
            rw [← hid, hx]
            rfl
        · rw [hx]
          rfl
      · have hany : ((s.change (.studentDeleted id)).students.find? e.studentId).any
            (·.isDeleted = false) = true := hstudent
        rw [hmodify] at hany
        split at hany
        · cases hfind : s.students.find? id <;> simp [hfind] at hany
        · exact hany
  | user row => exact ⟨h.registered, fun e he hstudent => hQ e (h.each e he hstudent)⟩
  | teacher row => exact ⟨h.registered, fun e he hstudent => hQ e (h.each e he hstudent)⟩

/-! ## The rows that are written -/

/-- The upsert answers with a row of what it was given. -/
theorem row_of_upsert {s : World} {c : Choice} {studentId schoolId : Id} {data : EnrollmentData}
    {row : StudentEnrollment}
    (h : exec (.studentEnrollmentUpsert studentId schoolId data) c s = some row) :
    ∃ id, row = data.row id studentId schoolId := by
  simp only [exec] at h
  split at h
  · next e hfind =>
      obtain rfl := Option.some.inj h
      obtain ⟨rfl, rfl⟩ := Prod.mk.inj (Indexed.key_of_find? hfind)
      exact ⟨e.id, rfl⟩
  · split at h
    · exact ⟨c.id, (Option.some.inj h).symm⟩
    · cases h

theorem contains_of_studentOf {s : World} {email : String} {student : Student}
    (h : studentOf ((s.users.rows.find? (·.email = email)).map fun user =>
      (user, s.students.rows.find? (·.userId = user.id))) = some student) :
    s.students.contains student.id = true := by
  obtain ⟨⟨user, found⟩, huser, hstudent⟩ := Option.bind_eq_some_iff.1 h
  obtain ⟨student', hfound, hsome⟩ := Option.bind_eq_some_iff.1 hstudent
  split at hsome
  · cases hsome
  · obtain rfl := Option.some.inj hsome
    obtain ⟨user', -, hpair⟩ := Option.map_eq_some_iff.1 huser
    obtain ⟨rfl, rfl⟩ := Prod.mk.inj hpair
    have hfind : s.students.find? student'.id = some student' :=
      Table.find?_key (List.mem_of_find?_eq_some hfound)
    rw [Table.contains, hfind]
    rfl

/-- The columns of an enrolment are those of a programme and an academic year that are there. -/
structure Checked (s : World) (data : EnrollmentData) (program : SchoolProgram)
    (academicYear : SchoolAcademicYear) : Prop where
  programFound : s.programs.find? data.programId = some program
  yearFound : s.academicYears.find? data.academicYearId = some academicYear
  level : data.programLevel ≤ program.durationYears
  label : data.enrolledYear = enrollmentLabel program.name data.programLevel academicYear.label

/-- The writes of calls that enrol keep the property. -/
structure KeptByEnrolling (I : World → Prop) : Prop where
  enroll : ∀ {s data program academicYear} {studentId : Id} (id schoolId : Id), I s →
    s.students.contains studentId = true → Checked s data program academicYear →
    I (s.apply (.studentEnrollment (data.row id studentId schoolId)))
  update : ∀ {s data program academicYear} (id : Id), I s → Checked s data program academicYear →
    I (s.apply (.setStudentEnrollment id data))
  leave : ∀ {s status} (id : Id), I s → status ≠ .ACTIVE → I (s.apply (.setStatus id status))
  attend : ∀ {q s} (a : Ans q), Attending q → I s → I (model.applyAll (writes q a) s)

/-! ## The calls -/

section Calls

variable {I : World → Prop} {saved : Option World} {s : World}

/-- A statement that only reads, and what follows its answer. -/
theorem keepsFrom_read {β : Type} {q : Stmt} {f : Ans q → Call β} (hread : ∀ a, writes q a = [])
    (h : Stands (M := model) I saved s)
    (hf : ∀ c a, exec q c s = some a → KeepsFrom model I saved s (f a)) :
    KeepsFrom model I saved s ((perform q).handle f .fail) :=
  KeepsFrom.read hread h (fun _ => Keeps.fail _) hf

/-- A statement that keeps the property in this state, and what follows its answer. -/
theorem keepsFrom_write {β : Type} {q : Stmt} {f : Ans q → Call β} (h : Stands (M := model) I saved s)
    (hwrite : ∀ c a, exec q c s = some a → I (model.applyAll (writes q a) s))
    (hf : ∀ a, Keeps model I (f a)) : KeepsFrom model I saved s ((perform q).handle f .fail) :=
  KeepsFrom.write h hwrite hf fun _ => Keeps.fail _

theorem keeps_read {q : Stmt} (hread : ∀ a, writes q a = []) : Keeps model I (perform q) := by
  intro saved s h
  refine (wp_query ..).2 ⟨fun _ => h, fun c a _ => ?_⟩
  rw [show model.writes q a = [] from hread a]
  exact h

variable (hI : KeptByEnrolling I)

include hI

theorem syncCourseEnrollments_keeps (studentId schoolId programId : Id) (programLevel : Int) :
    Keeps model I (syncCourseEnrollments studentId schoolId programId programLevel) :=
  Sends.keeps (fun hq _ hs => hI.attend _ hq hs)
    (syncCourseEnrollments_attending studentId schoolId programId programLevel)

theorem enrollStudent_keeps (host : Host) (schoolId : Id) (dto : EnrollStudentDto) :
    Keeps model I (enrollStudent host schoolId dto) := by
  intro saved s h
  refine keepsFrom_read (fun _ => rfl) h fun c found hfound => ?_
  obtain rfl := Option.some.inj hfound
  split
  · next student hstudent =>
      have hregistered := contains_of_studentOf hstudent
      refine keepsFrom_read (fun _ => rfl) h fun c academicYear hyear => ?_
      obtain rfl := Option.some.inj hyear
      split
      · next academicYear hyear =>
          obtain ⟨hyear, -⟩ := Option.filter_eq_some_iff.1 hyear
          refine keepsFrom_read (fun _ => rfl) h fun c now _ => ?_
          split
          · exact h
          · refine keepsFrom_read (fun _ => rfl) h fun c program hprogram => ?_
            obtain rfl := Option.some.inj hprogram
            split
            · next program hprogram =>
                obtain ⟨hprogram, -⟩ := Option.filter_eq_some_iff.1 hprogram
                split
                · exact h
                · next hlevel =>
                    refine keepsFrom_write h (fun c row hrow => ?_) fun row => ?_
                    · obtain ⟨id, rfl⟩ := row_of_upsert hrow
                      exact hI.enroll id schoolId h.1 hregistered
                        ⟨hprogram, hyear, not_lt.1 hlevel, rfl⟩
                    · exact Keeps.handle (syncCourseEnrollments_keeps hI _ _ _ _)
                        (fun _ => keeps_read fun _ => rfl) fun _ => Keeps.fail _
            · exact h
      · exact h
  · exact h

theorem updateEnrollment_keeps (schoolId studentId : Id) (data : UpdateSchoolStudentEnrollmentDto) :
    Keeps model I (updateEnrollment schoolId studentId data) := by
  intro saved s h
  refine keepsFrom_read (fun _ => rfl) h fun c found _ => ?_
  cases found with
  | none => exact h
  | some found =>
      obtain ⟨enrollment, student⟩ := found
      simp only
      split
      · exact h
      · split
        · next hstatus =>
            exact keepsFrom_write h (fun c row _ => hI.leave enrollment.id h.1 hstatus)
              fun row => Keeps.ret row
        · refine keepsFrom_read (fun _ => rfl) h fun c program hprogram => ?_
          obtain rfl := Option.some.inj hprogram
          refine keepsFrom_read (fun _ => rfl) h fun c academicYear hyear => ?_
          obtain rfl := Option.some.inj hyear
          split
          · next program academicYear hprogram hyear =>
              obtain ⟨hprogram, -⟩ := Option.filter_eq_some_iff.1 hprogram
              obtain ⟨hyear, -⟩ := Option.filter_eq_some_iff.1 hyear
              split
              · exact h
              · next hlevel =>
                  refine keepsFrom_write h (fun c row _ => ?_) fun row => ?_
                  · have hchecked : Checked s ⟨program.id, data.level.getD enrollment.programLevel,
                        academicYear.id, enrollmentLabel program.name
                          (data.level.getD enrollment.programLevel) academicYear.label⟩
                        program academicYear :=
                      ⟨Table.find?_key (Table.mem_of_find? hprogram),
                        Table.find?_key (Table.mem_of_find? hyear),
                        not_lt.1 fun habove => hlevel (.inr habove), rfl⟩
                    exact hI.update enrollment.id h.1 hchecked
                  · exact Keeps.handle (syncCourseEnrollments_keeps hI _ _ _ _)
                      (fun _ => Keeps.ret _) fun _ => Keeps.fail _
          · exact h

theorem enrollRow_keeps (host : Host) (schoolId : Id) (programs : List SchoolProgram)
    (academicYears : List SchoolAcademicYear) (row : EnrollmentRow) :
    Keeps model I (enrollRow host schoolId programs academicYears row) := by
  unfold enrollRow
  simp only
  split
  · split
    · exact Keeps.handle (enrollStudent_keeps hI host schoolId _) (fun _ => Keeps.ret _)
        fun _ => Keeps.fail _
    · exact Keeps.fail _
  · exact Keeps.fail _

/-- A line that fails changes nothing for the others. -/
theorem enrollRows_keeps (host : Host) (schoolId : Id) (programs : List SchoolProgram)
    (academicYears : List SchoolAcademicYear) (rows : List EnrollmentRow) (done : Import) :
    Keeps model I (enrollRows host schoolId programs academicYears rows done) := by
  induction rows generalizing done with
  | nil => exact Keeps.ret done
  | cons row rows ih =>
      have hrow := enrollRow_keeps hI host schoolId programs academicYears row
      refine Keeps.handle ?_ (fun done => ih done) fun _ => Keeps.fail _
      exact Keeps.handle (Keeps.handle hrow (fun _ => Keeps.ret _) fun _ => Keeps.fail _)
        (fun _ => Keeps.ret _) fun _ => Keeps.ret _

theorem bulkEnrollStudents_keeps (host : Host) (schoolId : Id) (rows : List EnrollmentRow) :
    Keeps model I (bulkEnrollStudents host schoolId rows) := by
  refine Keeps.handle (keeps_read fun _ => rfl) (fun programs => ?_) fun _ => Keeps.fail _
  refine Keeps.handle (keeps_read fun _ => rfl) (fun academicYears => ?_) fun _ => Keeps.fail _
  exact enrollRows_keeps hI host schoolId programs academicYears rows {}

end Calls

end GetPlatform.Schools
