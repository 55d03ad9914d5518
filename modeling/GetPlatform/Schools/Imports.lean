import GetPlatform.Schools.Statements
import GetPlatform.Store.Halts

set_option autoImplicit false

/-! # An import is its lines, one by one

`bulkEnrollStudents` reads the programmes and the academic years of the school once, and enrols the
students of the list with that. A run of it is a run of `enrollStudent` for each line, one after the
other, each with the programme and the academic year that the line names in the rows as they are then. -/

namespace GetPlatform.Schools

open Prog

variable {host : Host} {schoolId : Id}

/-! ## One line -/

instance inhabitedChoice : Inhabited model.Choice := ⟨({} : Choice)⟩

/-- `a` and then `b`. -/
def Import.append (a b : Import) : Import := ⟨a.succeeded ++ b.succeeded, a.failed ++ b.failed⟩

/-- A line that was enrolled, or was not. -/
def Import.one (row : EnrollmentRow) {α : Type} : Except Err α → Import
  | .ok _ => ⟨[row.email], []⟩
  | .error e => ⟨[], [(row, e)]⟩

def World.activePrograms (s : World) (schoolId : Id) : List SchoolProgram :=
  s.programs.rows.filter fun p => p.schoolId = schoolId ∧ p.isActive

def World.yearsOf (s : World) (schoolId : Id) : List SchoolAcademicYear :=
  s.academicYears.rows.filter (·.schoolId = schoolId)

/-- The request that a line stands for, with these programmes and academic years. -/
def requestOf (host : Host) (programs : List SchoolProgram) (academicYears : List SchoolAcademicYear)
    (row : EnrollmentRow) : Except Err EnrollStudentDto :=
  match byText host (·.name) programs row.programName,
      byText host (·.label) academicYears row.academicYearLabel with
  | none, _ => .error (.NotFoundException "Filière introuvable")
  | some _, none => .error (.NotFoundException "Année académique introuvable")
  | some program, some academicYear => .ok ⟨row.email, program.id, row.level, academicYear.id⟩

/-- A line by itself: its request is looked up now, and the student is enrolled by a call for it. -/
inductive Line (host : Host) (schoolId : Id) (s : World) (row : EnrollmentRow) :
    Import → World → Prop
  | refused (e : Err) : requestOf host (s.activePrograms schoolId) (s.yearsOf schoolId) row = .error e →
      Line host schoolId s row ⟨[], [(row, e)]⟩ s
  | called {s' : World} (dto : EnrollStudentDto) (r : Except Err (Option Student)) :
      requestOf host (s.activePrograms schoolId) (s.yearsOf schoolId) row = .ok dto →
      (∃ cs, (enrollStudent host schoolId dto).alone (M := model) none s cs = some (r, s')) →
      Line host schoolId s row (.one row r) s'

/-- Lines one after the other, and what became of them. -/
inductive Lines (host : Host) (schoolId : Id) : World → List EnrollmentRow → Import → World → Prop
  | nil (s : World) : Lines host schoolId s [] {} s
  | cons {s s₁ s' : World} {row : EnrollmentRow} {rows : List EnrollmentRow} {one rest : Import} :
      Line host schoolId s row one s₁ → Lines host schoolId s₁ rows rest s' →
      Lines host schoolId s (row :: rows) (one.append rest) s'

/-! ## Outcomes -/

@[simp] theorem append_empty (a : Import) : a.append {} = a := by
  simp [Import.append]

@[simp] theorem empty_append (a : Import) : Import.append {} a = a := rfl

theorem append_assoc (a b c : Import) : (a.append b).append c = a.append (b.append c) := by
  simp [Import.append]

/-! ## What enrolling leaves alone -/

/-- No transaction is open, and programmes and academic years are as in `s`. -/
def Unmoved (s : World) (saved : Option World) (s' : World) : Prop :=
  saved = none ∧ s'.programs = s.programs ∧ s'.academicYears = s.academicYears

theorem programs_of_attending {q : Stmt} (hq : Attending q) (a : Ans q) (s : World) :
    (model.applyAll (writes q a) s).programs = s.programs ∧
      (model.applyAll (writes q a) s).academicYears = s.academicYears :=
  ⟨(sameRecords (.inr hq) a s).programs, (sameRecords (.inr hq) a s).academicYears⟩

theorem upsertCourses_unmoved (studentId : Id) (courseIds : List Id) (s₀ : World) {s : World}
    (hs : s.programs = s₀.programs ∧ s.academicYears = s₀.academicYears) :
    (upsertCourses studentId courseIds).wp model
      (fun _ saved s' => saved = some s₀ ∧ s'.programs = s₀.programs ∧
        s'.academicYears = s₀.academicYears)
      (fun _ saved _ => saved = some s₀ ∧ True) (some s₀) s := by
  induction courseIds generalizing s with
  | nil => exact ⟨rfl, hs⟩
  | cons courseId courseIds ih =>
      refine wp_step (M := model) (fun _ => ⟨rfl, trivial⟩) fun c a _ => ih ?_
      obtain ⟨hprograms, hyears⟩ := programs_of_attending (q := .courseEnrollmentUpsert courseId studentId)
        trivial a s
      exact ⟨hprograms.trans hs.1, hyears.trans hs.2⟩

theorem syncCourseEnrollments_unmoved (studentId schoolId programId : Id) (programLevel : Int) (s₀ : World)
    {s : World} (hs : s.programs = s₀.programs ∧ s.academicYears = s₀.academicYears) :
    (syncCourseEnrollments studentId schoolId programId programLevel).wp model (fun _ => Unmoved s₀)
      (fun _ => Unmoved s₀) none s := by
  refine wp_read (M := model) (fun _ => rfl) (fun _ => ⟨rfl, hs⟩) fun c courses _ => ?_
  refine wp_mono (fun _ saved s' hdone => ⟨hdone.1, hdone.2.1.trans hs.1, hdone.2.2.trans hs.2⟩)
    (fun _ saved s' hfailed => ⟨hfailed.1, hfailed.2.1 ▸ hs⟩)
    (wp_of_transaction (M := model) (P := fun _ => True)
      (Q := fun _ s' => s'.programs = s.programs ∧ s'.academicYears = s.academicYears)
      (fun _ => trivial) ?_)
  refine wp_step (M := model) (fun _ => ⟨rfl, trivial⟩) fun c a _ => upsertCourses_unmoved studentId courses s ?_
  exact programs_of_attending (q := .courseEnrollmentDeleteMany studentId schoolId courses) trivial a s

theorem enrollStudent_unmoved (schoolId : Id) (dto : EnrollStudentDto) (s : World) :
    (enrollStudent host schoolId dto).wp model (fun _ => Unmoved s) (fun _ => Unmoved s) none s := by
  have hsame : Unmoved s none s := ⟨rfl, rfl, rfl⟩
  refine wp_read (M := model) (fun _ => rfl) (fun _ => hsame) fun c found _ => ?_
  cases hstudent : studentOf found with
  | none => exact hsame
  | some student =>
      refine wp_read (M := model) (fun _ => rfl) (fun _ => hsame) fun c academicYear _ => ?_
      cases academicYear with
      | none => exact hsame
      | some academicYear =>
          refine wp_read (M := model) (fun _ => rfl) (fun _ => hsame) fun c now _ => ?_
          dsimp only
          split
          · exact hsame
          · refine wp_read (M := model) (fun _ => rfl) (fun _ => hsame) fun c program _ => ?_
            cases program with
            | none => exact hsame
            | some program =>
                dsimp only
                split
                · exact hsame
                · refine wp_step (M := model) (fun _ => hsame) fun c row _ => ?_
                  refine (wp_handle ..).2 (wp_mono (fun _ saved s' hdone => ?_)
                    (fun _ _ _ hfailed => hfailed)
                    (syncCourseEnrollments_unmoved student.id schoolId program.id dto.level s
                      ⟨rfl, rfl⟩))
                  obtain ⟨rfl, hdone⟩ := hdone
                  exact ⟨fun _ => ⟨rfl, hdone⟩, fun c a _ => ⟨rfl, hdone⟩⟩

/-! ## One turn of the loop -/

theorem enrollRow_eq (programs : List SchoolProgram) (academicYears : List SchoolAcademicYear)
    (row : EnrollmentRow) :
    enrollRow host schoolId programs academicYears row =
      next (fun dto => (enrollStudent host schoolId dto).handle (fun _ => .ret ()) .fail) .fail
        (requestOf host programs academicYears row) := by
  unfold enrollRow requestOf
  cases byText host (·.name) programs row.programName with
  | none => rfl
  | some program =>
      cases byText host (·.label) academicYears row.academicYearLabel with
      | none => rfl
      | some academicYear => rfl

/-- What happens to a line does not stop those after it. -/
theorem enrollRows_cons (programs : List SchoolProgram) (academicYears : List SchoolAcademicYear)
    (row : EnrollmentRow) (rows : List EnrollmentRow) (done : Import) :
    enrollRows host schoolId programs academicYears (row :: rows) done =
      (enrollRow host schoolId programs academicYears row).handle
        (fun _ => enrollRows host schoolId programs academicYears rows
          { done with succeeded := done.succeeded ++ [row.email] })
        (fun error => enrollRows host schoolId programs academicYears rows
          { done with failed := done.failed ++ [(row, error)] }) := by
  rw [enrollRows]
  simp only [bind_eq, pure_eq, tryCatch_eq, handle_handle, handle_ret, handle_fail]

theorem line_of_turn {s s₁ : World} {saved₁ : Option World} {row : EnrollmentRow} {r : Except Err Unit}
    (h : Halts model (enrollRow host schoolId (s.activePrograms schoolId) (s.yearsOf schoolId) row)
      none s r saved₁ s₁) :
    Line host schoolId s row (.one row r) s₁ ∧ Unmoved s saved₁ s₁ := by
  rw [enrollRow_eq] at h
  cases hrequest : requestOf host (s.activePrograms schoolId) (s.yearsOf schoolId) row with
  | error e =>
      rw [hrequest] at h
      obtain ⟨rfl, rfl, rfl⟩ := halts_fail.1 h
      exact ⟨.refused e hrequest, rfl, rfl, rfl⟩
  | ok dto =>
      rw [hrequest] at h
      obtain ⟨r₁, saved₂, s₂, hcall, hrest⟩ := halts_handle.1 h
      have hunmoved := hcall.of_wp (enrollStudent_unmoved schoolId dto s)
      cases r₁ with
      | ok student =>
          obtain ⟨rfl, rfl, rfl⟩ := halts_ret.1 hrest
          exact ⟨.called dto (.ok student) hrequest ((exists_alone_iff (M := model)).2 ⟨_, hcall⟩), hunmoved⟩
      | error e =>
          obtain ⟨rfl, rfl, rfl⟩ := halts_fail.1 hrest
          exact ⟨.called dto (.error e) hrequest ((exists_alone_iff (M := model)).2 ⟨_, hcall⟩), hunmoved⟩

theorem turn_of_line {s s₁ : World} {row : EnrollmentRow} {one : Import}
    (h : Line host schoolId s row one s₁) :
    ∃ r, one = .one row r ∧ Halts model
      (enrollRow host schoolId (s.activePrograms schoolId) (s.yearsOf schoolId) row)
      none s r none s₁ := by
  rw [enrollRow_eq]
  cases h with
  | refused e hrequest => exact ⟨.error e, rfl, hrequest ▸ .fail e⟩
  | called dto r hrequest hrun =>
      obtain ⟨saved₁, hcall⟩ := (exists_alone_iff (M := model)).1 hrun
      obtain rfl : saved₁ = none := by
        have hunmoved := hcall.of_wp (enrollStudent_unmoved schoolId dto s)
        cases r with
        | ok student => exact hunmoved.1
        | error e => exact hunmoved.1
      rw [hrequest]
      cases r with
      | ok student => exact ⟨.ok (), rfl, halts_handle.2 ⟨_, _, _, hcall, .ret ()⟩⟩
      | error e => exact ⟨.error e, rfl, halts_handle.2 ⟨_, _, _, hcall, .fail e⟩⟩

/-! ## The loop -/

theorem activePrograms_eq {s s' : World} (h : s'.programs = s.programs) :
    s'.activePrograms schoolId = s.activePrograms schoolId := by
  rw [World.activePrograms, h, World.activePrograms]

theorem yearsOf_eq {s s' : World} (h : s'.academicYears = s.academicYears) :
    s'.yearsOf schoolId = s.yearsOf schoolId := by
  rw [World.yearsOf, h, World.yearsOf]

/-- The loop goes on with what the line adds to the outcome so far. -/
theorem next_eq (row : EnrollmentRow) (done : Import) (loop : Import → Call Import) (r : Except Err Unit) :
    next (fun _ => loop { done with succeeded := done.succeeded ++ [row.email] })
      (fun error => loop { done with failed := done.failed ++ [(row, error)] }) r =
    loop (done.append (.one row r)) := by
  cases r with
  | ok student => simp [next, Import.append, Import.one]
  | error e => simp [next, Import.append, Import.one]

/-- From the rows of now, the loop does the lines one by one. -/
theorem enrollRows_halts {rows : List EnrollmentRow} {s s' : World} {done : Import}
    {r : Except Err Import} :
    (∃ saved', Halts model (enrollRows host schoolId (s.activePrograms schoolId) (s.yearsOf schoolId)
      rows done) none s r saved' s') ↔
      ∃ outcome, r = .ok (done.append outcome) ∧ Lines host schoolId s rows outcome s' := by
  induction rows generalizing s done with
  | nil =>
      constructor
      · rintro ⟨saved', h⟩
        obtain ⟨rfl, rfl, rfl⟩ := halts_ret.1 h
        exact ⟨{}, congrArg _ (append_empty done).symm, .nil s'⟩
      · rintro ⟨outcome, rfl, hlines⟩
        cases hlines
        exact ⟨none, halts_ret.2 ⟨congrArg _ (append_empty done), rfl, rfl⟩⟩
  | cons row rows ih =>
      rw [enrollRows_cons]
      constructor
      · rintro ⟨saved', h⟩
        obtain ⟨r₁, saved₁, s₁, hturn, hrest⟩ := halts_handle.1 h
        obtain ⟨hline, rfl, hprograms, hyears⟩ := line_of_turn hturn
        rw [next_eq row done, ← activePrograms_eq hprograms, ← yearsOf_eq hyears] at hrest
        obtain ⟨rest, rfl, hlines⟩ := ih.1 ⟨saved', hrest⟩
        exact ⟨_, congrArg _ (append_assoc ..), .cons hline hlines⟩
      · rintro ⟨outcome, rfl, hlines⟩
        cases hlines with
        | @cons _ s₁ _ _ _ one rest hline hrest =>
            obtain ⟨r₁, rfl, hturn⟩ := turn_of_line hline
            obtain ⟨-, -, hprograms, hyears⟩ := line_of_turn hturn
            obtain ⟨saved', hloop⟩ := ih.2 ⟨rest, congrArg _ (append_assoc ..).symm, hrest⟩
            refine ⟨saved', halts_handle.2 ⟨r₁, none, s₁, hturn, ?_⟩⟩
            rw [next_eq row done, ← activePrograms_eq hprograms, ← yearsOf_eq hyears]
            exact hloop

/-! ## The whole import -/

/-- The two lists are read, and then the lines are done; or a read fails, and nothing is. -/
theorem bulkEnrollStudents_halts {rows : List EnrollmentRow} {s s' : World} {r : Except Err Import} :
    (∃ saved', Halts model (bulkEnrollStudents host schoolId rows) none s r saved' s') ↔
      (∃ outcome, r = .ok outcome ∧ Lines host schoolId s rows outcome s') ∨
        (∃ f, r = .error (.failure f)) ∧ s' = s := by
  have hloop : (∃ saved', Halts model (enrollRows host schoolId (s.activePrograms schoolId)
      (s.yearsOf schoolId) rows {}) none s r saved' s') ↔
      ∃ outcome, r = .ok outcome ∧ Lines host schoolId s rows outcome s' := enrollRows_halts
  constructor
  · rintro ⟨saved', h⟩
    cases h with
    | failed f h =>
        obtain ⟨rfl, rfl, rfl⟩ := halts_fail.1 h
        exact .inr ⟨⟨f, rfl⟩, rfl⟩
    | answered c programs hprograms h =>
        cases h with
        | failed f h =>
            obtain ⟨rfl, rfl, rfl⟩ := halts_fail.1 h
            exact .inr ⟨⟨f, rfl⟩, rfl⟩
        | answered c years hyears h =>
            cases hprograms
            cases hyears
            exact .inl (hloop.1 ⟨saved', h⟩)
  · rintro (hdone | ⟨⟨f, rfl⟩, rfl⟩)
    · obtain ⟨saved', h⟩ := hloop.2 hdone
      exact ⟨saved', .answered {} _ rfl (.answered {} _ rfl h)⟩
    · exact ⟨none, .failed f (.fail _)⟩

theorem Lines.append {xs ys : List EnrollmentRow} {s s' : World} {outcome : Import} :
    Lines host schoolId s (xs ++ ys) outcome s' ↔
      ∃ one two s₁, outcome = one.append two ∧ Lines host schoolId s xs one s₁ ∧
        Lines host schoolId s₁ ys two s' := by
  induction xs generalizing s outcome with
  | nil =>
      constructor
      · intro h
        exact ⟨{}, outcome, s, rfl, .nil s, h⟩
      · rintro ⟨one, two, s₁, rfl, hxs, hys⟩
        cases hxs
        exact hys
  | cons x xs ih =>
      constructor
      · intro h
        cases h with
        | cons hline hrest =>
            obtain ⟨one, two, s₁, rfl, hxs, hys⟩ := ih.1 hrest
            exact ⟨_, two, s₁, (append_assoc ..).symm, .cons hline hxs, hys⟩
      · rintro ⟨one, two, s₁, rfl, hxs, hys⟩
        cases hxs with
        | cons hline hrest =>
            rw [append_assoc]
            exact .cons hline (ih.2 ⟨_, two, s₁, rfl, hrest, hys⟩)

theorem bulkEnrollStudents_ok {rows : List EnrollmentRow} {s s' : World} {outcome : Import} :
    (∃ cs, (bulkEnrollStudents host schoolId rows).alone (M := model) none s cs =
      some (.ok outcome, s')) ↔ Lines host schoolId s rows outcome s' := by
  rw [exists_alone_iff (M := model), bulkEnrollStudents_halts]
  constructor
  · rintro (⟨outcome, h, hlines⟩ | ⟨⟨f, h⟩, -⟩)
    · cases h
      exact hlines
    · cases h
  · intro hlines
    exact .inl ⟨outcome, rfl, hlines⟩

/-- Reading the programmes and the years once makes no difference: the runs of an import that return are
    those that look each line up anew and make a call for it, whichever calls fail on the way. One that
    does not return has changed nothing. -/
theorem import_by_lines (host : Host) (schoolId : Id) (rows : List EnrollmentRow) (s s' : World) :
    (∀ outcome, (∃ cs, (bulkEnrollStudents host schoolId rows).alone (M := model) none s cs =
        some (.ok outcome, s')) ↔ Lines host schoolId s rows outcome s') ∧
      ∀ e, (∃ cs, (bulkEnrollStudents host schoolId rows).alone (M := model) none s cs =
        some (.error e, s')) → s' = s := by
  refine ⟨fun outcome => bulkEnrollStudents_ok, fun e hrun => ?_⟩
  rw [exists_alone_iff (M := model), bulkEnrollStudents_halts] at hrun
  obtain ⟨outcome, h, -⟩ | ⟨-, hsame⟩ := hrun
  · cases h
  · exact hsame

/-- A file may be cut anywhere: importing it is importing its first part and then the rest. -/
theorem import_in_parts (host : Host) (schoolId : Id) (xs ys : List EnrollmentRow) (s s' : World)
    (outcome : Import) :
    (∃ cs, (bulkEnrollStudents host schoolId (xs ++ ys)).alone (M := model) none s cs =
        some (.ok outcome, s')) ↔
      ∃ one two s₁, outcome = one.append two ∧
        (∃ cs, (bulkEnrollStudents host schoolId xs).alone (M := model) none s cs =
          some (.ok one, s₁)) ∧
        ∃ cs, (bulkEnrollStudents host schoolId ys).alone (M := model) none s₁ cs =
          some (.ok two, s') := by
  refine bulkEnrollStudents_ok.trans (Lines.append.trans ⟨?_, ?_⟩)
  · rintro ⟨one, two, s₁, houtcome, hxs, hys⟩
    exact ⟨one, two, s₁, houtcome, bulkEnrollStudents_ok.2 hxs, bulkEnrollStudents_ok.2 hys⟩
  · rintro ⟨one, two, s₁, houtcome, hxs, hys⟩
    exact ⟨one, two, s₁, houtcome, bulkEnrollStudents_ok.1 hxs, bulkEnrollStudents_ok.1 hys⟩

end GetPlatform.Schools
