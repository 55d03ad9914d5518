import GetPlatform.Schools.Borders
import GetPlatform.Schools.Enrollments

set_option autoImplicit false

/-! # No student is above the last year of a programme

Enrolling checks the level against the duration of the programme, and a programme is shortened only
when no active student is above the new duration. With one call at a time the two checks are enough,
whatever fails: each is made against the rows that the write then changes. -/

namespace GetPlatform.Schools

open Prog

/-- The level is one of the programme. -/
def LevelWithin (s : World) (programId : Id) (level : Int) : Prop :=
  ∃ program, s.programs.find? programId = some program ∧ level ≤ program.durationYears

/-- Every active enrolment is within the duration of its programme. -/
abbrev Leveled : World → Prop :=
  ForStudents fun s e => e.status = .ACTIVE → LevelWithin s e.programId e.programLevel

/-! ## What keeps it -/

/-- A write that keeps the levels within the durations. -/
def WriteLeveled (s : World) : Write → Prop
  | .setProgram id data => ∀ program, s.programs.find? id = some program →
      ∀ e ∈ s.studentEnrollments, s.hasStudent e.studentId = true → e.status = .ACTIVE →
        e.programId = id → e.programLevel ≤ (data.set program).durationYears
  | .studentEnrollment row =>
      s.students.contains row.studentId = true ∧ LevelWithin s row.programId row.programLevel
  | .setStudentEnrollment _ data => LevelWithin s data.programId data.programLevel
  | .setStatus _ status => status ≠ .ACTIVE
  | _ => True

theorem find?_setProgram (s : World) (id : Id) (data : UpdateSchoolProgramDto) (id' : Id) :
    (s.apply (.setProgram id data)).programs.find? id' =
      if id' = id then (s.programs.find? id).map data.set else s.programs.find? id' :=
  Table.find?_modify s.programs id data.set (fun _ => rfl) id'

theorem Leveled.apply {s : World} {w : Write} (h : Leveled s) (hw : WriteLeveled s w) :
    Leveled (s.apply w) := by
  cases w with
  | program row =>
      refine h.congr rfl rfl fun e hlevel hactive => ?_
      obtain ⟨program, hfind, hwithin⟩ := hlevel hactive
      exact ⟨program, Table.find?_insert_of_find? hfind, hwithin⟩
  | setProgram id data =>
      refine ⟨h.registered, fun e he hstudent hactive => ?_⟩
      obtain ⟨program, hfind, hlevel⟩ := h.each e he hstudent hactive
      unfold LevelWithin
      rw [find?_setProgram]
      split
      · next hid =>
          rw [hid] at hfind
          exact ⟨data.set program, by rw [hfind]; rfl, hw program hfind e he hstudent hactive hid⟩
      · exact ⟨program, hfind, hlevel⟩
  | studentEnrollment row =>
      refine h.of_rows rfl fun e he => ?_
      have he : e ∈ putStudentEnrollment row s.studentEnrollments := he
      unfold putStudentEnrollment at he
      split at he
      · obtain ⟨old, hold, rfl⟩ := Indexed.mem_modify.1 he
        split
        · exact .inl ⟨old, hold, rfl, fun _ _ => hw.2⟩
        · exact .inl ⟨old, hold, rfl, id⟩
      · rcases Indexed.mem_of_mem_insert he with he | rfl
        · exact .inl ⟨e, he, rfl, id⟩
        · exact .inr ⟨hw.1, fun _ => hw.2⟩
  | setStudentEnrollment id data =>
      refine h.of_rows rfl fun e he => .inl ?_
      obtain ⟨old, hold, rfl⟩ := Indexed.mem_modifyNumber.1 he
      split
      · exact ⟨old, hold, rfl, fun _ _ => hw⟩
      · exact ⟨old, hold, rfl, fun hlevel => hlevel⟩
  | setStatus id status =>
      refine h.of_rows rfl fun e he => .inl ?_
      obtain ⟨old, hold, rfl⟩ := Indexed.mem_modifyNumber.1 he
      split
      · exact ⟨old, hold, rfl, fun _ hactive => absurd hactive hw⟩
      · exact ⟨old, hold, rfl, fun hlevel => hlevel⟩
  | setLabel id label =>
      refine h.of_rows rfl fun e he => .inl ?_
      obtain ⟨old, hold, rfl⟩ := Indexed.mem_modifyNumber.1 he
      refine ⟨old, hold, ?_⟩
      split <;> exact ⟨rfl, fun hlevel => hlevel⟩
  | _ => exact h.congr rfl rfl fun _ hlevel => hlevel

/-! ## The statements -/

theorem leveled_of_harmless {s : World} {q : Stmt} {a : Ans q} (hq : Harmless q ∨ Attending q)
    (h : Leveled s) :
    Leveled (model.applyAll (writes q a) s) := by
  refine model.applyAll_keeps (fun w hw s hs => hs.apply ?_) h
  cases q with
  | schoolAcademicYearUpdateManyCurrent schoolId excludedId =>
      obtain ⟨id, -, rfl⟩ := List.mem_map.1 hw
      trivial
  | teacherSchoolSubjectDeleteMany teacherSchoolId =>
      obtain ⟨id, -, rfl⟩ := List.mem_map.1 hw
      trivial
  | teacherSchoolSubjectCreateMany teacherSchoolId subjectIds =>
      obtain ⟨id, -, rfl⟩ := List.mem_map.1 hw
      trivial
  | courseSlotUpdateMany courseId teacherId =>
      obtain ⟨id, -, rfl⟩ := List.mem_map.1 hw
      trivial
  | courseEnrollmentDeleteMany studentId schoolId courseIds =>
      obtain ⟨id, -, rfl⟩ := List.mem_map.1 hw
      trivial
  | schoolProgramUpdate id data => exact hq.elim False.elim False.elim
  | studentEnrollmentUpsert studentId schoolId data => exact hq.elim False.elim False.elim
  | studentEnrollmentUpdate id data => exact hq.elim False.elim False.elim
  | studentEnrollmentUpdateStatus id status => exact hq.elim False.elim False.elim
  | _ =>
      first
        | (obtain rfl := List.mem_singleton.1 hw; trivial)
        | cases hw

theorem Harmless.keeps {α : Type} {p : Call α} (hp : p.Sends Harmless) : Keeps model Leveled p :=
  Sends.keeps (fun hq _ hs => leveled_of_harmless (.inl hq) hs) hp

theorem Ordinary.keeps {α : Type} {p : Call α} (hp : p.Sends Ordinary) : Keeps model Leveled p :=
  Harmless.keeps (hp.mono fun _ => Ordinary.harmless)

/-! ## The calls -/

/-- A new duration is at least a year, as the body of the request is checked for. -/
def ValidDuration (dto : UpdateSchoolProgramDto) : Prop :=
  ∀ years, dto.durationYears = some years → 1 ≤ years

instance (dto : UpdateSchoolProgramDto) : Decidable (ValidDuration dto) :=
  decidable_of_iff (∀ years ∈ dto.durationYears, 1 ≤ years) Iff.rfl

/-- A duration that is not shorter is no shorter. -/
theorem le_of_not_shorter {dto : UpdateSchoolProgramDto} {program : SchoolProgram}
    (hdto : ValidDuration dto) (h : shorterDuration dto program = none) :
    program.durationYears ≤ dto.durationYears.getD program.durationYears := by
  cases hyears : dto.durationYears with
  | none => exact le_refl _
  | some years =>
      unfold shorterDuration at h
      rw [hyears, Option.filter_eq_none_iff] at h
      have hnot := h years rfl
      have hpos := hdto years hyears
      simp only [decide_eq_true_eq, not_and, not_lt] at hnot
      exact hnot (by omega)

/-- No active enrolment is above a level above which none was found. -/
theorem level_le_of_not_found {s : World} {programId : Id} {level : Int} {e : StudentEnrollment}
    (h : s.studentEnrollments.rows.find? (fun e => decide (e.programId = programId ∧
      level < e.programLevel ∧ e.status = .ACTIVE ∧ s.hasStudent e.studentId)) = none)
    (he : e ∈ s.studentEnrollments) (hstudent : s.hasStudent e.studentId = true)
    (hactive : e.status = .ACTIVE) (hprogram : e.programId = programId) : e.programLevel ≤ level := by
  have hnot := List.find?_eq_none.1 h e he
  by_contra habove
  exact hnot (decide_eq_true ⟨hprogram, not_le.1 habove, hactive, hstudent⟩)

theorem updateProgram_keeps (schoolId id : Id) {dto : UpdateSchoolProgramDto}
    (hdto : ValidDuration dto) : Keeps model Leveled (updateProgram schoolId id dto) := by
  intro saved s h
  refine keepsFrom_read (fun _ => rfl) h fun c found hfound => ?_
  obtain rfl := Option.some.inj hfound
  split
  · next program hprogram =>
      obtain ⟨hfind, -⟩ := Option.filter_eq_some_iff.1 hprogram
      -- The update keeps the levels if no active student is above the new duration.
      have hupdate : (∀ e ∈ s.studentEnrollments, s.hasStudent e.studentId = true →
          e.status = .ACTIVE → e.programId = id →
          e.programLevel ≤ dto.durationYears.getD program.durationYears) →
          KeepsFrom model Leveled saved s (do
            let updated ← perform (.schoolProgramUpdate id
              { dto with name := dto.name.map trim, diploma := dto.diploma.map trim })
            if dto.name.isSome then refreshProgramEnrollmentLabels id updated.name
            return updated) := by
        intro hlevels
        refine keepsFrom_write h (fun c updated _ => ?_) fun updated => Harmless.keeps ?_
        · have hwrite : WriteLeveled s (.setProgram id
              { dto with name := dto.name.map trim, diploma := dto.diploma.map trim }) := by
            intro program' hprogram'
            obtain rfl := Option.some.inj (hfind.symm.trans hprogram')
            exact hlevels
          exact h.1.apply hwrite
        · split
          · exact Sends.handle (refreshProgramEnrollmentLabels_harmless ..) (fun _ => trivial)
              fun _ => trivial
          · trivial
      simp only
      split
      · next durationYears hshorter =>
          obtain ⟨hyears, -⟩ := Option.filter_eq_some_iff.1 hshorter
          refine keepsFrom_read (fun _ => rfl) h fun c higherLevelEnrollment hhigher => ?_
          obtain rfl := Option.some.inj hhigher
          split
          · exact h
          · next hnone =>
              refine hupdate fun e he hstudent hactive hprogram => ?_
              rw [hyears]
              exact level_le_of_not_found (Option.not_isSome_iff_eq_none.1 hnone) he hstudent hactive
                hprogram
      · next hshorter =>
          refine hupdate fun e he hstudent hactive hprogram => ?_
          obtain ⟨program', hfind', hlevel⟩ := h.1.each e he hstudent hactive
          rw [hprogram, hfind] at hfind'
          obtain rfl := Option.some.inj hfind'
          exact hlevel.trans (le_of_not_shorter hdto (Option.eq_none_iff_forall_ne_some.2 hshorter))
  · exact h

theorem leveled_keptByEnrolling : KeptByEnrolling Leveled where
  enroll _ _ h hstudent hchecked :=
    h.apply ⟨hstudent, _, hchecked.programFound, hchecked.level⟩
  update id h hchecked :=
    h.apply (w := .setStudentEnrollment id _) ⟨_, hchecked.programFound, hchecked.level⟩
  leave id h hstatus := h.apply (w := .setStatus id _) hstatus
  attend _ hq h := leveled_of_harmless (.inr hq) h

variable (host : Host)

/-! ## Runs -/

/-- The body of the call was checked. -/
def Op.Valid : Op → Prop
  | .updateProgram _ _ dto => ValidDuration dto
  | _ => True

instance (o : Op) : Decidable o.Valid :=
  match o with
  | .updateProgram _ _ dto => inferInstanceAs (Decidable (ValidDuration dto))
  | .createProgram .. => inferInstanceAs (Decidable True)
  | .createAcademicYear .. => inferInstanceAs (Decidable True)
  | .updateAcademicYear .. => inferInstanceAs (Decidable True)
  | .createSubject .. => inferInstanceAs (Decidable True)
  | .updateSubject .. => inferInstanceAs (Decidable True)
  | .assignTeacher .. => inferInstanceAs (Decidable True)
  | .updateTeacherAssignment .. => inferInstanceAs (Decidable True)
  | .createCourse .. => inferInstanceAs (Decidable True)
  | .updateCourse .. => inferInstanceAs (Decidable True)
  | .enrollStudent .. => inferInstanceAs (Decidable True)
  | .updateEnrollment .. => inferInstanceAs (Decidable True)
  | .bulkEnrollStudents .. => inferInstanceAs (Decidable True)

theorem program_keeps {o : Op} (ho : o.Valid) : Keeps model Leveled (program host o) := by
  have hmap : ∀ {α : Type} {p : Call α} {f : α → Reply}, Keeps model Leveled p →
      Keeps model Leveled (f <$> p) := fun hp =>
    Keeps.handle hp (fun _ => Keeps.ret _) fun _ => Keeps.fail _
  cases o with
  | createProgram schoolId dto => exact hmap (Harmless.keeps (sends_perform.2 trivial))
  | updateProgram schoolId id dto => exact hmap (updateProgram_keeps schoolId id ho)
  | createAcademicYear schoolId dto => exact hmap (Harmless.keeps (createAcademicYear_harmless ..))
  | updateAcademicYear schoolId id dto =>
      exact hmap (Harmless.keeps (updateAcademicYear_harmless ..))
  | createSubject schoolId name => exact hmap (Harmless.keeps (sends_perform.2 trivial))
  | updateSubject schoolId id isActive => exact hmap (Ordinary.keeps (updateSubject_ordinary ..))
  | assignTeacher schoolId dto => exact hmap (Ordinary.keeps (assignTeacher_ordinary ..))
  | updateTeacherAssignment schoolId id dto =>
      exact hmap (Ordinary.keeps (updateTeacherAssignment_ordinary ..))
  | createCourse schoolId dto => exact hmap (Ordinary.keeps (createCourse_ordinary ..))
  | updateCourse schoolId courseId dto => exact hmap (Ordinary.keeps (updateCourse_ordinary ..))
  | enrollStudent schoolId dto => exact hmap (enrollStudent_keeps leveled_keptByEnrolling host schoolId dto)
  | updateEnrollment schoolId studentId data =>
      exact hmap (updateEnrollment_keeps leveled_keptByEnrolling schoolId studentId data)
  | bulkEnrollStudents schoolId rows =>
      exact hmap (bulkEnrollStudents_keeps leveled_keptByEnrolling host schoolId rows)

/-- The calls whose bodies were checked. -/
abbrev validTurn : TurnRule model Op Err Reply := fun _ _ o _ => o.Valid

/-- **Nobody is enrolled above the last year.** After any number of calls, one after the other, and
    whatever failed in them, every active enrolment of a student is within the duration that its
    programme has now. -/
theorem levels_within {s₀ : World} (h₀ : Leveled s₀) {h : List (Turn model Op Err Reply)} {s : World}
    (hrun : Journal model (program host) validTurn s₀ h s) : Leveled s :=
  Keeps.journal (fun _ _ _ _ ho => program_keeps host ho)
    (fun e _ hs => hs.change e fun _ hlevel => by cases e <;> exact hlevel) h₀ hrun

theorem campus_leveled : Leveled campus :=
  ⟨fun _ he => absurd he Indexed.of_mem_empty, fun _ he => absurd he Indexed.of_mem_empty⟩

/-- The programme is shortened when the student in the second year has left, not before. -/
theorem levels_within_shortened : ∃ h s, Journal model (program plainHost) validTurn campus h s ∧
    h.map (fun t => t.result.toBool) = [true, true, false, true] ∧
    (s.programs.find? 5).map (·.durationYears) = some 1 ∧ Leveled s := by
  have hplay : (Journal.play (program plainHost) validTurn [] campus
      [(.enrollStudent 1 ⟨"ana@mail.mg", 5, 2, 6⟩, List.replicate 12 (.ok { now := 50, id := 40 })),
        (.updateProgram 1 5 { durationYears := some 1 }, List.replicate 2 (.ok {})),
        (.updateEnrollment 1 3 { status := .WITHDRAWN }, List.replicate 2 (.ok {})),
        (.updateProgram 1 5 { durationYears := some 1 }, List.replicate 3 (.ok {}))]).any
      (fun p => p.1.map (fun t => t.result.toBool) = [true, true, false, true] ∧
        (p.2.programs.find? 5).map (·.durationYears) = some 1) = true := by
    decide +kernel
  obtain ⟨h, s, hrun, hs⟩ := Journal.exists_of_play hplay
  obtain ⟨hresults, hyears⟩ := of_decide_eq_true hs
  exact ⟨h, s, hrun, hresults, hyears, levels_within plainHost campus_leveled hrun⟩

end GetPlatform.Schools
