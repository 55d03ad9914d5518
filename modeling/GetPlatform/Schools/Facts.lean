import GetPlatform.Store.Learned
import GetPlatform.Schools.SchoolService

set_option autoImplicit false

/-! # What belongs to a school

Programmes, years, subjects, courses, assignments and enrolments never move from one school to another:
that such a row belongs to a school is a fact that lasts. A call learns it from its answers. -/

namespace GetPlatform.Schools

open Pool

abbrev Log := Trace interface Op
abbrev Ev := Event interface

/-! ## Facts that last -/

/-- What belongs to a school. -/
inductive Fact where
  | program (schoolId id : Id)
  | academicYear (schoolId id : Id)
  | subject (schoolId id : Id)
  | course (schoolId id : Id)
  /-- The teacher is assigned to the school, active or not. -/
  | employed (schoolId teacherId : Id)
  | assignment (schoolId teacherSchoolId : Id)
  /-- The student has an enrolment in the school, whatever its status. -/
  | enrolled (schoolId studentId : Id)
  | enrollment (schoolId enrollmentId : Id)

def World.Knows (s : World) : Fact → Prop
  | .program schoolId id => (s.programs.find? id).map (·.schoolId) = some schoolId
  | .academicYear schoolId id => (s.academicYears.find? id).map (·.schoolId) = some schoolId
  | .subject schoolId id => (s.subjects.find? id).map (·.schoolId) = some schoolId
  | .course schoolId id => (s.courses.find? id).map (·.schoolId) = some schoolId
  | .employed schoolId teacherId => s.teacherSchools.contains (teacherId, schoolId) = true
  | .assignment schoolId id => (s.teacherSchools.findNumber? id).map (·.schoolId) = some schoolId
  | .enrolled schoolId studentId => s.studentEnrollments.contains (studentId, schoolId) = true
  | .enrollment schoolId id => (s.studentEnrollments.findNumber? id).map (·.schoolId) = some schoolId

section Lasts

variable {ρ κ ι α : Type} [Keyed ρ κ] [Numbered ρ ι] [DecidableEq κ] [DecidableEq ι]

omit [Numbered ρ ι] [DecidableEq ι] in
/-- A column that no update changes stays as it is when rows are updated, -/
theorem column_modify {t : Table ρ} {k l : κ} (f : ρ → ρ)
    (hf : ∀ r, Keyed.key (f r) = Keyed.key r) {column : ρ → α} {a : α} (h : (t.find? l).map column = some a)
    (hcolumn : ∀ r, column (f r) = column r) :
    ((t.modify k f hf).find? l).map column = some a := by
  rw [Table.find?_modify]
  split
  · next hk =>
      rw [Option.map_map, ← hk, ← h]
      exact congrArg (Option.map · _) (funext hcolumn)
  · exact h

omit [Numbered ρ ι] [DecidableEq ι] in
/-- and when rows are added. -/
theorem column_insert {t : Table ρ} {r : ρ} {k : κ} {column : ρ → α} {a : α}
    (h : (t.find? k).map column = some a) : ((t.insert r).find? k).map column = some a := by
  obtain ⟨s, hs, rfl⟩ := Option.map_eq_some_iff.1 h
  rw [Table.find?_insert_of_find? hs]
  rfl

theorem contains_modifyNumber {t : Indexed ρ} {i : ι} {f : ρ → ρ}
    {hkey : ∀ r, Keyed.key (f r) = Keyed.key r}
    {hnumber : ∀ r, Numbered.number (f r) = Numbered.number r} (k : κ) :
    (t.modifyNumber i f hkey hnumber).contains k = t.contains k := by
  rw [Indexed.contains, Indexed.find?_modifyNumber, Option.isSome_map]
  rfl

theorem column_modifyNumber {t : Indexed ρ} {i j : ι} {f : ρ → ρ}
    {hkey : ∀ r, Keyed.key (f r) = Keyed.key r}
    {hnumber : ∀ r, Numbered.number (f r) = Numbered.number r} {column : ρ → α} {a : α}
    (h : (t.findNumber? j).map column = some a) (hcolumn : ∀ r, column (f r) = column r) :
    ((t.modifyNumber i f hkey hnumber).findNumber? j).map column = some a := by
  rw [Indexed.findNumber?_modifyNumber, Option.map_map, ← h]
  refine congrArg (Option.map · _) (funext fun r => ?_)
  show column (if Numbered.number r = i then f r else r) = column r
  split
  · exact hcolumn r
  · rfl

end Lasts

theorem mem_putTeacherSchool (row : TeacherSchool) {a : TeacherSchool} {t : Indexed TeacherSchool} (h : a ∈ t) :
    ∃ a' ∈ putTeacherSchool row t, a'.id = a.id ∧ a'.teacherId = a.teacherId ∧
      a'.schoolId = a.schoolId := by
  unfold putTeacherSchool
  split
  · refine ⟨_, Indexed.mem_modify.2 ⟨a, h, rfl⟩, ?_⟩
    split <;> exact ⟨rfl, rfl, rfl⟩
  · exact ⟨a, Indexed.mem_insert_of_mem h, rfl, rfl, rfl⟩

theorem mem_putStudentEnrollment (row : StudentEnrollment) {e : StudentEnrollment}
    {t : Indexed StudentEnrollment} (h : e ∈ t) :
    ∃ e' ∈ putStudentEnrollment row t, e'.id = e.id ∧ e'.studentId = e.studentId ∧
      e'.schoolId = e.schoolId := by
  unfold putStudentEnrollment
  split
  · refine ⟨_, Indexed.mem_modify.2 ⟨e, h, rfl⟩, ?_⟩
    split <;> exact ⟨rfl, rfl, rfl⟩
  · exact ⟨e, Indexed.mem_insert_of_mem h, rfl, rfl, rfl⟩

theorem employed_iff {s : World} {schoolId teacherId : Id} : s.Knows (.employed schoolId teacherId) ↔
    ∃ a ∈ s.teacherSchools, a.teacherId = teacherId ∧ a.schoolId = schoolId := by
  show (s.teacherSchools.find? (teacherId, schoolId)).isSome = true ↔ _
  rw [Option.isSome_iff_exists]
  refine exists_congr fun a => ?_
  rw [Indexed.find?_eq_some]
  exact and_congr_right fun _ => Prod.mk_inj

theorem enrolled_iff {s : World} {schoolId studentId : Id} : s.Knows (.enrolled schoolId studentId) ↔
    ∃ e ∈ s.studentEnrollments, e.studentId = studentId ∧ e.schoolId = schoolId := by
  show (s.studentEnrollments.find? (studentId, schoolId)).isSome = true ↔ _
  rw [Option.isSome_iff_exists]
  refine exists_congr fun e => ?_
  rw [Indexed.find?_eq_some]
  exact and_congr_right fun _ => Prod.mk_inj

theorem assignment_iff {s : World} {schoolId id : Id} : s.Knows (.assignment schoolId id) ↔
    ∃ a ∈ s.teacherSchools, a.id = id ∧ a.schoolId = schoolId := by
  show (s.teacherSchools.findNumber? id).map (·.schoolId) = some schoolId ↔ _
  rw [Option.map_eq_some_iff]
  refine exists_congr fun a => ?_
  rw [Indexed.findNumber?_eq_some, and_assoc]
  exact Iff.rfl

theorem enrollment_iff {s : World} {schoolId id : Id} : s.Knows (.enrollment schoolId id) ↔
    ∃ e ∈ s.studentEnrollments, e.id = id ∧ e.schoolId = schoolId := by
  show (s.studentEnrollments.findNumber? id).map (·.schoolId) = some schoolId ↔ _
  rw [Option.map_eq_some_iff]
  refine exists_congr fun e => ?_
  rw [Indexed.findNumber?_eq_some, and_assoc]
  exact Iff.rfl

/-- **What belongs to a school stays there**, whatever is written. -/
theorem World.Knows.apply {s : World} (w : Write) {f : Fact} (h : s.Knows f) :
    (s.apply w).Knows f := by
  cases w with
  | program row => cases f with
    | program schoolId id => exact column_insert h
    | _ => exact h
  | setProgram id data => cases f with
    | program schoolId id => exact column_modify data.set (fun _ => rfl) h fun _ => rfl
    | _ => exact h
  | academicYear row => cases f with
    | academicYear schoolId id => exact column_insert h
    | _ => exact h
  | setAcademicYear id data => cases f with
    | academicYear schoolId id => exact column_modify data.set (fun _ => rfl) h fun _ => rfl
    | _ => exact h
  | subject row => cases f with
    | subject schoolId id => exact column_insert h
    | _ => exact h
  | setSubject id isActive => cases f with
    | subject schoolId id => exact column_modify (fun b => { b with isActive }) (fun _ => rfl) h fun _ => rfl
    | _ => exact h
  | teacherSchool row => cases f with
    | employed schoolId teacherId =>
        obtain ⟨a, ha, rfl, rfl⟩ := employed_iff.1 h
        obtain ⟨a', ha', -, hteacher, hschool⟩ := mem_putTeacherSchool row ha
        exact employed_iff.2 ⟨a', ha', hteacher, hschool⟩
    | assignment schoolId id =>
        obtain ⟨a, ha, rfl, rfl⟩ := assignment_iff.1 h
        obtain ⟨a', ha', hid, -, hschool⟩ := mem_putTeacherSchool row ha
        exact assignment_iff.2 ⟨a', ha', hid, hschool⟩
    | _ => exact h
  | setTeacherSchool id data => cases f with
    | employed schoolId teacherId => exact (contains_modifyNumber _).trans h
    | assignment schoolId id => exact column_modifyNumber h fun _ => rfl
    | _ => exact h
  | course row => cases f with
    | course schoolId id => exact column_insert h
    | _ => exact h
  | setCourse id data => cases f with
    | course schoolId id => exact column_modify data.set (fun _ => rfl) h fun _ => rfl
    | _ => exact h
  | studentEnrollment row => cases f with
    | enrolled schoolId studentId =>
        obtain ⟨e, he, rfl, rfl⟩ := enrolled_iff.1 h
        obtain ⟨e', he', -, hstudent, hschool⟩ := mem_putStudentEnrollment row he
        exact enrolled_iff.2 ⟨e', he', hstudent, hschool⟩
    | enrollment schoolId id =>
        obtain ⟨e, he, rfl, rfl⟩ := enrollment_iff.1 h
        obtain ⟨e', he', hid, -, hschool⟩ := mem_putStudentEnrollment row he
        exact enrollment_iff.2 ⟨e', he', hid, hschool⟩
    | _ => exact h
  | setStudentEnrollment id data => cases f with
    | enrolled schoolId studentId => exact (contains_modifyNumber _).trans h
    | enrollment schoolId id => exact column_modifyNumber h fun _ => rfl
    | _ => exact h
  | setStatus id status => cases f with
    | enrolled schoolId studentId => exact (contains_modifyNumber _).trans h
    | enrollment schoolId id => exact column_modifyNumber h fun _ => rfl
    | _ => exact h
  | setLabel id label => cases f with
    | enrolled schoolId studentId => exact (contains_modifyNumber _).trans h
    | enrollment schoolId id => exact column_modifyNumber h fun _ => rfl
    | _ => exact h
  | _ => cases f <;> exact h

theorem World.Knows.change {s : World} (e : Change) {f : Fact} (h : s.Knows f) :
    (s.change e).Knows f := by
  cases e <;> cases f <;> exact h

/-! ## What a call learns, and what it needs -/

/-- What an answer shows to belong to a school. -/
def shows : Ev → Fact → Prop
  | ⟨.schoolProgramFindFirst _ schoolId, found⟩, f => ∃ p ∈ found, f = .program schoolId p.id
  | ⟨.schoolProgramFindFirstActive id schoolId, found⟩, f =>
      ∃ p ∈ found, f = .program schoolId id ∨ f = .program schoolId p.id
  | ⟨.schoolAcademicYearFindFirst id schoolId, found⟩, f =>
      ∃ y ∈ found, f = .academicYear schoolId id ∨ f = .academicYear schoolId y.id
  | ⟨.schoolSubjectFindFirstActive id schoolId, found⟩, f =>
      ∃ b ∈ found, f = .subject schoolId id ∨ f = .subject schoolId b.id
  | ⟨.schoolSubjectFindManyActive _ schoolId, ids⟩, f => ∃ id ∈ ids, f = .subject schoolId id
  | ⟨.teacherSchoolFindFirst id schoolId, found⟩, f => ∃ _ ∈ found, f = .assignment schoolId id
  | ⟨.teacherSchoolFindFirstActive schoolId teacherId, found⟩, f =>
      ∃ _ ∈ found, f = .employed schoolId teacherId
  | ⟨.teacherSchoolUpsert schoolId _, row⟩, f => f = .assignment schoolId row.id
  | ⟨.courseFindFirst id schoolId, found⟩, f => ∃ _ ∈ found, f = .course schoolId id
  | ⟨.courseFindMany schoolId .., ids⟩, f => ∃ id ∈ ids, f = .course schoolId id
  | ⟨.studentEnrollmentFindUnique studentId schoolId, found⟩, f =>
      ∃ e ∈ found, f = .enrolled schoolId studentId ∨ f = .enrollment schoolId e.1.id
  | ⟨.studentEnrollmentUpsert studentId schoolId _, _⟩, f => f = .enrolled schoolId studentId
  | _, _ => False

/-- What a statement needs to belong to one school. -/
def Licensed (K : Fact → Prop) : Stmt → Prop
  | .teacherSchoolSubjectCreateMany teacherSchoolId subjectIds =>
      ∃ schoolId, K (.assignment schoolId teacherSchoolId) ∧
        ∀ id ∈ subjectIds, K (.subject schoolId id)
  | .courseCreate data =>
      K (.program data.schoolId data.programId) ∧ K (.subject data.schoolId data.subjectId) ∧
        K (.employed data.schoolId data.teacherId)
  | .courseUpdate id data =>
      ∃ schoolId, K (.course schoolId id) ∧ K (.employed schoolId data.teacherId) ∧
        (∀ id ∈ data.programId.join, K (.program schoolId id)) ∧
        ∀ id ∈ data.subjectId.join, K (.subject schoolId id)
  | .courseEnrollmentUpsert courseId studentId =>
      ∃ schoolId, K (.course schoolId courseId) ∧ K (.enrolled schoolId studentId)
  | .studentEnrollmentUpsert _ schoolId data =>
      K (.program schoolId data.programId) ∧ K (.academicYear schoolId data.academicYearId)
  | .studentEnrollmentUpdate id data =>
      ∃ schoolId, K (.enrollment schoolId id) ∧ K (.program schoolId data.programId) ∧
        K (.academicYear schoolId data.academicYearId)
  | _ => True

theorem Licensed.mono {K K' : Fact → Prop} {q : Stmt} (hK : ∀ f, K f → K' f) (h : Licensed K q) :
    Licensed K' q := by
  cases q with
  | teacherSchoolSubjectCreateMany teacherSchoolId subjectIds =>
      obtain ⟨schoolId, hassignment, hsubjects⟩ := h
      exact ⟨schoolId, hK _ hassignment, fun id hid => hK _ (hsubjects id hid)⟩
  | courseCreate data => exact ⟨hK _ h.1, hK _ h.2.1, hK _ h.2.2⟩
  | courseUpdate id data =>
      obtain ⟨schoolId, hcourse, hteacher, hprogram, hsubject⟩ := h
      exact ⟨schoolId, hK _ hcourse, hK _ hteacher, fun id hid => hK _ (hprogram id hid),
        fun id hid => hK _ (hsubject id hid)⟩
  | courseEnrollmentUpsert courseId studentId =>
      obtain ⟨schoolId, hcourse, hstudent⟩ := h
      exact ⟨schoolId, hK _ hcourse, hK _ hstudent⟩
  | studentEnrollmentUpsert studentId schoolId data => exact ⟨hK _ h.1, hK _ h.2⟩
  | studentEnrollmentUpdate id data =>
      obtain ⟨schoolId, henrollment, hprogram, hyear⟩ := h
      exact ⟨schoolId, hK _ henrollment, hK _ hprogram, hK _ hyear⟩
  | _ => trivial

/-- A row that was looked for by its identifier and filtered by its school. -/
theorem column_of_filter {ρ : Type} [Keyed ρ Id] {t : Table ρ} {id schoolId : Id} {r : ρ}
    (school : ρ → Id) {p : ρ → Bool} (hp : p r = true → school r = schoolId)
    (h : (t.find? id).filter p = some r) :
    (t.find? id).map school = some schoolId ∧ Keyed.key r = id := by
  obtain ⟨hfind, hfilter⟩ := Option.filter_eq_some_iff.1 h
  rw [hfind]
  exact ⟨congrArg some (hp hfilter), Table.key_of_find? hfind⟩

/-- Whoever is assigned is assigned by a row with the identifier that is answered. -/
theorem assignment_of_upsert {schoolId : Id} {data : AssignTeacherDto} {c : Choice} {s : World}
    {row : TeacherSchool} (hexec : exec (.teacherSchoolUpsert schoolId data) c s = some row) :
    (s.apply (.teacherSchool row)).Knows (.assignment schoolId row.id) := by
  refine assignment_iff.2 ?_
  simp only [exec] at hexec
  split at hexec
  · next a ha =>
      obtain rfl := Option.some.inj hexec
      obtain ⟨hmem, hkey⟩ := Indexed.find?_eq_some.1 ha
      obtain ⟨a', ha', hid, -, hschool⟩ := mem_putTeacherSchool _ (t := s.teacherSchools) hmem
      exact ⟨a', ha', hid, hschool.trans (Prod.mk.inj hkey).2⟩
  · next hnone =>
      split at hexec
      · next hfits =>
          obtain rfl := Option.some.inj hexec
          refine ⟨_, ?_, rfl, rfl⟩
          show _ ∈ putTeacherSchool _ s.teacherSchools
          unfold putTeacherSchool
          rw [if_neg (by rw [Indexed.contains, hfits.1]; exact Bool.false_ne_true), Indexed.mem_def,
            Indexed.rows_insert hfits]
          exact List.mem_append_right _ (List.mem_singleton_self _)
      · cases hexec

/-- What is answered to an enrolment has the columns that were asked for. -/
theorem of_upsert {studentId schoolId : Id} {data : EnrollmentData} {c : Choice} {s : World}
    {row : StudentEnrollment}
    (hexec : exec (.studentEnrollmentUpsert studentId schoolId data) c s = some row) :
    row = data.row row.id studentId schoolId := by
  simp only [exec] at hexec
  split at hexec
  · next e he =>
      obtain rfl := Option.some.inj hexec
      obtain ⟨rfl, rfl⟩ := Prod.mk.inj (Indexed.key_of_find? he)
      rfl
  · split at hexec
    · obtain rfl := Option.some.inj hexec
      rfl
    · cases hexec

theorem enrolled_of_upsert {studentId schoolId : Id} {data : EnrollmentData} {c : Choice} {s : World}
    {row : StudentEnrollment}
    (hexec : exec (.studentEnrollmentUpsert studentId schoolId data) c s = some row) :
    (s.apply (.studentEnrollment row)).Knows (.enrolled schoolId studentId) := by
  refine enrolled_iff.2 ?_
  simp only [exec] at hexec
  split at hexec
  · next e he =>
      obtain rfl := Option.some.inj hexec
      obtain ⟨hmem, hkey⟩ := Indexed.find?_eq_some.1 he
      obtain ⟨hstudent, hschool⟩ := Prod.mk.inj hkey
      obtain ⟨e', he', -, hstudent', hschool'⟩ := mem_putStudentEnrollment _ (t := s.studentEnrollments) hmem
      exact ⟨e', he', hstudent'.trans hstudent, hschool'.trans hschool⟩
  · split at hexec
    · next hfits =>
        obtain rfl := Option.some.inj hexec
        refine ⟨data.row c.id studentId schoolId, ?_, rfl, rfl⟩
        show _ ∈ putStudentEnrollment _ s.studentEnrollments
        unfold putStudentEnrollment
        rw [if_neg (by rw [Indexed.contains, hfits.1.1]; exact Bool.false_ne_true), Indexed.mem_def,
          Indexed.rows_insert hfits.1]
        exact List.mem_append_right _ (List.mem_singleton_self _)
    · cases hexec

/-- What an answer shows is so. -/
theorem knows_of_shows {q : Stmt} {a : Ans q} {c : Choice} {s : World} {f : Fact}
    (hexec : exec q c s = some a) (hf : shows ⟨q, a⟩ f) :
    (model.applyAll (writes q a) s).Knows f := by
  cases q with
  | schoolProgramFindFirst id schoolId =>
      obtain ⟨p, hp, rfl⟩ := hf
      obtain rfl := Option.some.inj hexec
      obtain ⟨hschool, hid⟩ := column_of_filter SchoolProgram.schoolId of_decide_eq_true hp
      exact (show p.id = id from hid) ▸ hschool
  | schoolProgramFindFirstActive id schoolId =>
      obtain ⟨p, hp, hf⟩ := hf
      obtain rfl := Option.some.inj hexec
      obtain ⟨hschool, hid⟩ := column_of_filter SchoolProgram.schoolId
        (fun h => (of_decide_eq_true h).1) hp
      rw [show p.id = id from hid, or_self] at hf
      exact hf ▸ hschool
  | schoolAcademicYearFindFirst id schoolId =>
      obtain ⟨y, hy, hf⟩ := hf
      obtain rfl := Option.some.inj hexec
      obtain ⟨hschool, hid⟩ := column_of_filter SchoolAcademicYear.schoolId
        of_decide_eq_true hy
      rw [show y.id = id from hid, or_self] at hf
      exact hf ▸ hschool
  | schoolSubjectFindFirstActive id schoolId =>
      obtain ⟨b, hb, hf⟩ := hf
      obtain rfl := Option.some.inj hexec
      obtain ⟨hschool, hid⟩ := column_of_filter SchoolSubject.schoolId
        (fun h => (of_decide_eq_true h).1) hb
      rw [show b.id = id from hid, or_self] at hf
      exact hf ▸ hschool
  | schoolSubjectFindManyActive ids schoolId =>
      obtain ⟨id, hid, rfl⟩ := hf
      obtain rfl := Option.some.inj hexec
      obtain ⟨b, hb, rfl⟩ := List.mem_map.1 hid
      obtain ⟨hmem, hfilter⟩ := List.mem_filter.1 hb
      obtain ⟨-, hschool, -⟩ := of_decide_eq_true hfilter
      exact (congrArg (Option.map SchoolSubject.schoolId) (Table.find?_key hmem)).trans
        (congrArg some hschool)
  | teacherSchoolFindFirst id schoolId =>
      obtain ⟨a, ha, rfl⟩ := hf
      obtain rfl := Option.some.inj hexec
      obtain ⟨hfind, hschool⟩ := Option.filter_eq_some_iff.1 ha
      exact (congrArg (Option.map TeacherSchool.schoolId) hfind).trans
        (congrArg some (of_decide_eq_true hschool))
  | teacherSchoolFindFirstActive schoolId teacherId =>
      obtain ⟨a, ha, rfl⟩ := hf
      obtain rfl := Option.some.inj hexec
      obtain ⟨hfind, -⟩ := Option.filter_eq_some_iff.1 ha
      exact Option.isSome_iff_exists.2 ⟨a, hfind⟩
  | teacherSchoolUpsert schoolId data =>
      obtain rfl : f = .assignment schoolId (TeacherSchool.id a) := hf
      exact assignment_of_upsert hexec
  | courseFindFirst id schoolId =>
      obtain ⟨course, hcourse, rfl⟩ := hf
      obtain rfl := Option.some.inj hexec
      exact (column_of_filter Course.schoolId of_decide_eq_true hcourse).1
  | courseFindMany schoolId programId programLevel =>
      obtain ⟨id, hid, rfl⟩ := hf
      obtain rfl := Option.some.inj hexec
      obtain ⟨course, hcourse, rfl⟩ := List.mem_map.1 hid
      obtain ⟨hmem, hfilter⟩ := List.mem_filter.1 hcourse
      obtain ⟨hschool, -⟩ := of_decide_eq_true hfilter
      exact (congrArg (Option.map Course.schoolId) (Table.find?_key hmem)).trans
        (congrArg some hschool)
  | studentEnrollmentFindUnique studentId schoolId =>
      obtain ⟨e, he, hf⟩ := hf
      obtain rfl := Option.some.inj hexec
      obtain ⟨row, hrow, hstudent⟩ := Option.bind_eq_some_iff.1 he
      obtain ⟨x, -, rfl⟩ := Option.map_eq_some_iff.1 hstudent
      obtain ⟨hmem, hkey⟩ := Indexed.find?_eq_some.1 hrow
      rcases hf with rfl | rfl
      · exact Option.isSome_iff_exists.2 ⟨row, hrow⟩
      · exact enrollment_iff.2 ⟨row, hmem, rfl, (Prod.mk.inj hkey).2⟩
  | studentEnrollmentUpsert studentId schoolId data =>
      obtain rfl : f = .enrolled schoolId studentId := hf
      exact enrolled_of_upsert hexec
  | _ => exact hf.elim

abbrev learning : Learning model where
  Fact := Fact
  Knows := World.Knows
  shows := shows
  Licensed := Licensed
  mono := Licensed.mono
  lasts w _ _ h := h.apply w
  env e _ _ h := h.change e
  shown := knows_of_shows

end GetPlatform.Schools
