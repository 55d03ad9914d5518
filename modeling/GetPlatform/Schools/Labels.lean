import GetPlatform.Schools.Levels

set_option autoImplicit false

/-! # Labels of enrolments

The row of an enrolment repeats the name of its programme and the label of its academic year. A call that
gives one of them a new text writes the rows again afterwards, in a transaction of its own: between the
two, and for good if the second fails, the rows show the text there was. -/

namespace GetPlatform.Schools

open Prog

/-- The enrolment shows what its programme and its academic year are called now. -/
def Label (s : World) (e : StudentEnrollment) : Prop :=
  ∃ program academicYear, s.programs.find? e.programId = some program ∧
    s.academicYears.find? e.academicYearId = some academicYear ∧
    e.enrolledYear = enrollmentLabel program.name e.programLevel academicYear.label

abbrev Labelled : World → Prop := ForStudents Label

/-! ## What keeps them -/

/-- Programmes and years that are added or changed under the same names. -/
structure SameNames (s s' : World) : Prop where
  program : ∀ id program, s.programs.find? id = some program →
    ∃ program', s'.programs.find? id = some program' ∧ program'.name = program.name
  academicYear : ∀ id academicYear, s.academicYears.find? id = some academicYear →
    ∃ academicYear', s'.academicYears.find? id = some academicYear' ∧
      academicYear'.label = academicYear.label

theorem Label.same {s s' : World} {e : StudentEnrollment} (h : Label s e) (hs : SameNames s s') :
    Label s' e := by
  obtain ⟨program, academicYear, hprogram, hyear, hlabel⟩ := h
  obtain ⟨program', hprogram', hname⟩ := hs.program _ _ hprogram
  obtain ⟨academicYear', hyear', hlabel'⟩ := hs.academicYear _ _ hyear
  exact ⟨program', academicYear', hprogram', hyear', by rw [hname, hlabel', hlabel]⟩

/-- A write that leaves labels right. -/
def WriteLabelled (s : World) : Write → Prop
  | .setProgram _ data => data.name = none
  | .setAcademicYear _ data => data.label = none
  | .studentEnrollment row =>
      s.students.contains row.studentId = true ∧ Label s row
  | .setStudentEnrollment _ data => ∀ e, Label s (data.set e)
  | .setLabel .. => False
  | _ => True

theorem find?_setAcademicYear (s : World) (id : Id) (data : UpdateSchoolAcademicYearDto) (id' : Id) :
    (s.apply (.setAcademicYear id data)).academicYears.find? id' =
      if id' = id then (s.academicYears.find? id).map data.set else s.academicYears.find? id' :=
  Table.find?_modify s.academicYears id data.set (fun _ => rfl) id'

theorem Labelled.apply {s : World} {w : Write} (h : Labelled s) (hw : WriteLabelled s w) :
    Labelled (s.apply w) := by
  have hsame : SameNames s s :=
    ⟨fun _ program hfind => ⟨program, hfind, rfl⟩, fun _ year hfind => ⟨year, hfind, rfl⟩⟩
  cases w with
  | program row =>
      exact h.congr rfl rfl fun e hlabel => hlabel.same
        ⟨fun _ program hfind => ⟨program, Table.find?_insert_of_find? hfind, rfl⟩, hsame.academicYear⟩
  | academicYear row =>
      exact h.congr rfl rfl fun e hlabel => hlabel.same
        ⟨hsame.program, fun _ year hfind => ⟨year, Table.find?_insert_of_find? hfind, rfl⟩⟩
  | setProgram id data =>
      refine h.congr rfl rfl fun e hlabel => hlabel.same ⟨fun id' program hfind => ?_, hsame.academicYear⟩
      rw [find?_setProgram]
      split
      · next hid =>
          refine ⟨data.set program, by rw [← hid, hfind]; rfl, ?_⟩
          show data.name.getD program.name = program.name
          rw [hw]
          rfl
      · exact ⟨program, hfind, rfl⟩
  | setAcademicYear id data =>
      refine h.congr rfl rfl fun e hlabel => hlabel.same ⟨hsame.program, fun id' year hfind => ?_⟩
      rw [find?_setAcademicYear]
      split
      · next hid =>
          refine ⟨data.set year, by rw [← hid, hfind]; rfl, ?_⟩
          show data.label.getD year.label = year.label
          rw [hw]
          rfl
      · exact ⟨year, hfind, rfl⟩
  | studentEnrollment row =>
      refine h.of_rows rfl fun e he => ?_
      have he : e ∈ putStudentEnrollment row s.studentEnrollments := he
      unfold putStudentEnrollment at he
      split at he
      · obtain ⟨old, hold, rfl⟩ := Indexed.mem_modify.1 he
        split
        · exact .inl ⟨old, hold, rfl, fun _ => hw.2⟩
        · exact .inl ⟨old, hold, rfl, id⟩
      · rcases Indexed.mem_of_mem_insert he with he | rfl
        · exact .inl ⟨e, he, rfl, id⟩
        · exact .inr hw
  | setStudentEnrollment id data =>
      refine h.of_rows rfl fun e he => .inl ?_
      obtain ⟨old, hold, rfl⟩ := Indexed.mem_modifyNumber.1 he
      split
      · exact ⟨old, hold, rfl, fun _ => hw old⟩
      · exact ⟨old, hold, rfl, fun hlabel => hlabel⟩
  | setStatus id status =>
      refine h.of_rows rfl fun e he => .inl ?_
      obtain ⟨old, hold, rfl⟩ := Indexed.mem_modifyNumber.1 he
      refine ⟨old, hold, ?_⟩
      split <;> exact ⟨rfl, fun hlabel => hlabel⟩
  | setLabel id label => exact hw.elim
  | _ => exact h.congr rfl rfl fun _ hlabel => hlabel

/-! ## Writing labels again -/

/-- The labels of these enrolments are still to be written; their programmes and years are there. -/
abbrev Stale (stale : StudentEnrollment → Prop) : World → Prop :=
  ForStudents fun s e => (¬ stale e → Label s e) ∧ ∃ program academicYear,
    s.programs.find? e.programId = some program ∧ s.academicYears.find? e.academicYearId = some academicYear

/-- A call ends with every label right, or with a failure of the database. -/
abbrev Ends {α : Type} (p : Call α) (s : World) : Prop :=
  p.wp model (fun _ saved s' => saved = none ∧ Labelled s')
    (fun error saved s' => saved = none ∧ ((∃ f, error = .failure f) ∨ Labelled s')) none s

/-- What is left to do ends well. -/
theorem Ends.handle {α β : Type} {p : Call α} {f : α → Call β} {s : World} (hp : Ends p s)
    (hf : ∀ a s', Labelled s' → Ends (f a) s') : Ends (p.handle f .fail) s := by
  refine (wp_handle ..).2 (wp_mono (fun a saved s' hdone => ?_) (fun _ _ _ hfailed => hfailed) hp)
  obtain ⟨rfl, hs'⟩ := hdone
  exact hf a s' hs'

/-- The statement leaves labels right in any state. -/
def Nameless : Stmt → Prop
  | .schoolProgramUpdate .. => False
  | .schoolAcademicYearUpdate .. => False
  | .studentEnrollmentUpsert .. => False
  | .studentEnrollmentUpdate .. => False
  | .studentEnrollmentUpdateLabel .. => False
  | _ => True

theorem Nameless.labelled {q : Stmt} (hq : Nameless q) (a : Ans q) {s : World} (h : Labelled s) :
    Labelled (model.applyAll (writes q a) s) := by
  refine model.applyAll_keeps (P := Labelled) (fun w hw s hs => hs.apply ?_) h
  cases q with
  | schoolAcademicYearUpdateManyCurrent schoolId excludedId =>
      obtain ⟨id, -, rfl⟩ := List.mem_map.1 hw
      rfl
  | teacherSchoolSubjectDeleteMany teacherSchoolId =>
      obtain ⟨id, -, rfl⟩ := List.mem_map.1 hw
      trivial
  | teacherSchoolSubjectCreateMany teacherSchoolId subjectIds =>
      obtain ⟨id, -, rfl⟩ := List.mem_map.1 hw
      trivial
  | courseSlotUpdateMany courseId teacherId =>
      obtain ⟨id, -, rfl⟩ := List.mem_map.1 hw
      trivial
  | courseEnrollmentDeleteMany studentId schoolId courseIds =>
      obtain ⟨id, -, rfl⟩ := List.mem_map.1 hw
      trivial
  | _ =>
      first
        | exact hq.elim
        | (obtain rfl := List.mem_singleton.1 hw; trivial)
        | cases hw

theorem Nameless.keeps {α : Type} {p : Call α} (hp : p.Sends Nameless) : Keeps model Labelled p :=
  Sends.keeps (fun hq _ hs => hq.labelled _ hs) hp

variable (host : Host)

variable {host}

end GetPlatform.Schools
