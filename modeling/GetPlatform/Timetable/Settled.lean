import GetPlatform.Timetable.Placement

set_option autoImplicit false

/-! # What a job of the generation leaves

A job is `Settled` when nothing more can be placed for it. The generation leaves every job settled
(`placeJobs_reliably`), and writes nothing where they are (`placeJobs_settled`). -/

namespace GetPlatform.Timetable

open Prog

/-! ## The course of a job -/

section Reads

variable {services : Services} {s : World} {saved : Option World} {α : Type}
  {Q : α → Option World → World → Prop} {E : Err → Option World → World → Prop} {g : Err → Call α}

theorem reliably_assignment {schoolId teacherId : Id} {f : Option TeacherSchool → Call α} :
    ((send (.teacherSchoolFindFirst schoolId teacherId)).handle f g).reliably services.model Q E saved
        s ↔ (f ((s.assignments.find? (teacherId, schoolId)).filter (·.isActive))).reliably
          services.model Q E saved s :=
  (reliably_handle _ f g).trans (reliably_answer (M := services.model) _ fun _ => rfl)

theorem reliably_subject {id schoolId : Id} {f : Option SchoolSubject → Call α} :
    ((send (.schoolSubjectFindFirst id schoolId)).handle f g).reliably services.model Q E saved s ↔
      (f ((s.subjects.find? id).filter fun b => b.schoolId = schoolId ∧ b.isActive)).reliably
        services.model Q E saved s :=
  (reliably_handle _ f g).trans (reliably_answer (M := services.model) _ fun _ => rfl)

theorem reliably_program {id schoolId : Id} {f : Option SchoolProgram → Call α} :
    ((send (.schoolProgramFindFirst id schoolId)).handle f g).reliably services.model Q E saved s ↔
      (f ((s.programs.find? id).filter fun p => p.schoolId = schoolId ∧ p.isActive)).reliably
        services.model Q E saved s :=
  (reliably_handle _ f g).trans (reliably_answer (M := services.model) _ fun _ => rfl)

end Reads

section Jobs

variable {services : Services} {schoolId : Id} {s s' : World} {E : Err → Option World → World → Prop}

/-- The checks are made on what the generation does not change. -/
theorem createCourse_cases (services : Services) (schoolId : Id) (dto : CreateSchoolCourseDto)
    (s : World) :
    (∃ e, ∀ s', Extends s s' → ∀ Q E,
      (createCourse schoolId dto).reliably services.model Q E none s' ↔ E e none s') ∨
    ∃ data : Course, data.teacherId = dto.teacherId ∧ ∀ s', Extends s s' → ∀ Q E,
      (createCourse schoolId dto).reliably services.model Q E none s' ↔
        (send (.courseCreate data)).reliably services.model Q E none s' := by
  have hsame : ∀ s', Extends s s' → s'.assignments = s.assignments ∧ s'.subjects = s.subjects ∧
      s'.programs = s.programs := by
    intro s' hext
    rw [hext.rest]
    exact ⟨rfl, rfl, rfl⟩
  -- Three reads decide it: each finds its row or not.
  cases hassignment : (s.assignments.find? (dto.teacherId, schoolId)).filter (·.isActive) with
  | none =>
      refine .inl ⟨?_, fun s' hext Q E => ?_⟩
      rotate_left
      · obtain ⟨hassignments, -, -⟩ := hsame s' hext
        simp only [createCourse, ensureActiveTeacherAssignment, bind_eq, pure_eq, throw_eq,
          handle_handle]
        rw [reliably_assignment, hassignments, hassignment]
        exact Iff.rfl
  | some assignment =>
      cases hsubject : (s.subjects.find? dto.subjectId).filter
          fun b => b.schoolId = schoolId ∧ b.isActive with
      | none =>
          refine .inl ⟨?_, fun s' hext Q E => ?_⟩
          rotate_left
          · obtain ⟨hassignments, hsubjects, hprograms⟩ := hsame s' hext
            simp only [createCourse, ensureActiveTeacherAssignment, bind_eq, pure_eq, throw_eq,
              handle_handle]
            rw [reliably_assignment, hassignments, hassignment, handle_ret, reliably_subject,
              hsubjects, hsubject, reliably_program, hprograms]
            exact Iff.rfl
      | some subject =>
          cases hprogram : (s.programs.find? dto.programId).filter
              fun p => p.schoolId = schoolId ∧ p.isActive with
          | none =>
              refine .inl ⟨?_, fun s' hext Q E => ?_⟩
              rotate_left
              · obtain ⟨hassignments, hsubjects, hprograms⟩ := hsame s' hext
                simp only [createCourse, ensureActiveTeacherAssignment, bind_eq, pure_eq, throw_eq,
                  handle_handle]
                rw [reliably_assignment, hassignments, hassignment, handle_ret, reliably_subject,
                  hsubjects, hsubject, reliably_program, hprograms, hprogram]
                exact Iff.rfl
          | some program =>
              by_cases hlevel : dto.programLevel > program.durationYears
              · refine .inl ⟨?_, fun s' hext Q E => ?_⟩
                rotate_left
                · obtain ⟨hassignments, hsubjects, hprograms⟩ := hsame s' hext
                  simp only [createCourse, ensureActiveTeacherAssignment, bind_eq, pure_eq, throw_eq,
                    handle_handle]
                  rw [reliably_assignment, hassignments, hassignment, handle_ret, reliably_subject,
                    hsubjects, hsubject, reliably_program, hprograms, hprogram]
                  dsimp only
                  rw [if_pos hlevel]
                  exact Iff.rfl
              · refine .inr ⟨?_, ?_, fun s' hext Q E => ?_⟩
                rotate_left 2
                · obtain ⟨hassignments, hsubjects, hprograms⟩ := hsame s' hext
                  simp only [createCourse, ensureActiveTeacherAssignment, bind_eq, pure_eq, throw_eq,
                    handle_handle]
                  rw [reliably_assignment, hassignments, hassignment, handle_ret, reliably_subject,
                    hsubjects, hsubject, reliably_program, hprograms, hprogram]
                  dsimp only
                  rw [if_neg hlevel]
                · rfl

theorem eq_of_exec_courseCreate {data row : Course} {c : Id}
    (h : exec (.courseCreate data) c s = some row) : row = { data with id := c } := by
  simp only [exec] at h
  split at h
  · cases h
  · exact (Option.some.inj h).symm

/-- An identifier that is new later is new before. -/
theorem exec_courseCreate_mono {data row : Course} {c : Id} (hext : Extends s s')
    (h : exec (.courseCreate data) c s' = some row) : exec (.courseCreate data) c s = some row := by
  simp only [exec] at h ⊢
  split at h
  · cases h
  · next hnew =>
      rw [if_neg]
      · exact h
      · rw [not_or] at hnew ⊢
        refine ⟨fun hused => hnew.1 ?_, fun hused => hnew.2 ?_⟩
        · obtain ⟨course, hcourse⟩ := Option.isSome_iff_exists.1 hused
          exact Option.isSome_iff_exists.2 ⟨course, hext.find?_course hcourse⟩
        · obtain ⟨slot, hslot, heq⟩ := List.any_eq_true.1 hused
          exact List.any_eq_true.2 ⟨slot, hext.slots slot hslot, heq⟩

/-- No course is created, whatever identifier is chosen. -/
def Uncreatable (services : Services) (schoolId : Id) (dto : CreateSchoolCourseDto) (s : World) :
    Prop :=
  (createCourse schoolId dto).reliably services.model (fun _ _ _ => False)
    (fun _ saved s' => saved = none ∧ s' = s) none s

theorem Uncreatable.mono (hsound : services.Sound) {dto : CreateSchoolCourseDto}
    (h : Uncreatable services schoolId dto s) (hext : Extends s s') :
    Uncreatable services schoolId dto s' := by
  rcases createCourse_cases services schoolId dto s with ⟨e, hr⟩ | ⟨data, -, hr⟩
  · exact (hr s' hext _ _).2 ⟨rfl, rfl⟩
  · have h := (hr s (.refl s) _ _).1 h
    refine (hr s' hext _ _).2 ⟨fun _ _ => ⟨rfl, rfl⟩, fun c row hrow => ?_⟩
    -- What answers it later would have answered it before.
    obtain ⟨haccepted, hrow⟩ := Model.exec_checked.1 hrow
    refine h.2 c row (Model.exec_checked.2 ⟨hsound.createCourse_mono hext haccepted, ?_⟩)
    exact exec_courseCreate_mono hext hrow

/-- What the generation asks for when a job has no course. -/
def courseDto (teacherId programId : Id) (job : Job) : CreateSchoolCourseDto :=
  { teacherId, code := s!"AUTO-{(job.id.take 8).toString.toUpper}", subjectId := job.subjectId
    programId, programLevel := job.schoolClass.level.getD 1, isPublished := true }

/-- What a job was read with is still so. -/
structure ReadAt (s : World) (job : Job) : Prop where
  jobOf : JobOf s job
  course : job.course = s.courseOf job.id

/-- The course of a job, if it has one, is held by its teacher. -/
def Job.Held (s : World) (job : Job) : Prop :=
  ∀ course teacher, s.courseFor job.id = some course → job.assignment = some teacher →
    course.teacherId = teacher.id

/-- The sessions that a job was read with. -/
def existingSessions (course : Option (Course × List CourseSlot)) : Int :=
  (course.map (·.2.length)).getD 0

/-- A new course that is linked to its requirement. -/
structure LinkedTo (s : World) (row : Course) (requirementId : Id) (s' : World) : Prop where
  added : Added [requirementId] s s'
  courses : s'.courses.rows = s.courses.rows ++ [row]
  courseFor : s.courseFor requirementId = none → s'.courseFor requirementId = some row
  slots : s'.slots = s.slots

theorem linked_course {row : Course} {requirementId : Id} (hfresh : s.courses.find? row.id = none) :
    LinkedTo s { row with subjectRequirementId := some requirementId } requirementId
      (World.apply (.course { row with subjectRequirementId := some requirementId })
        (World.apply (.course row) s)) := by
  have hrows : ((s.courses.put row).put
      { row with subjectRequirementId := some requirementId }).rows =
      s.courses.rows ++ [{ row with subjectRequirementId := some requirementId }] := by
    have hsame : Keyed.key { row with subjectRequirementId := some requirementId } =
        Keyed.key row := rfl
    rw [Table.put_put hsame]
    refine Table.rows_put_new ?_
    rw [hsame, Table.contains, show s.courses.find? (Keyed.key row) = none from hfresh]
    rfl
  refine ⟨⟨rfl, ⟨_, hrows, fun course hcourse => ?_⟩, ⟨[], (List.append_nil _).symm, by simp⟩⟩,
    hrows, fun hnone => ?_, rfl⟩
  · rintro id hlink
    rw [List.mem_singleton.1 hcourse] at hlink
    exact List.mem_singleton.2 (Option.some.inj hlink).symm
  · have hnone : (s.courses.rows.find? fun c => c.subjectRequirementId = some requirementId) = none :=
      hnone
    simp [World.courseFor, World.apply, hrows, List.find?_append, hnone]

/-- A course is linked, if no other one is linked to the requirement. -/
theorem exec_courseUpdate {row : Course} {requirementId : Id} (hnone : s.courseFor requirementId = none)
    (c : Id) : exec (.courseUpdate row.id requirementId) c (World.apply (.course row) s) =
      some { row with subjectRequirementId := some requirementId } := by
  have hfree : ((s.courses.put row).rows.any fun other =>
      other.id ≠ row.id && other.subjectRequirementId = some requirementId) = false := by
    refine List.any_eq_false.2 fun other hother => ?_
    rw [Bool.and_eq_true, decide_eq_true_eq, decide_eq_true_eq]
    rintro ⟨hne, hlink⟩
    rcases Table.mem_put.1 hother with rfl | ⟨hmem, -⟩
    · exact hne rfl
    · exact absurd hlink (by simpa using List.find?_eq_none.1 hnone other hmem)
  simp only [exec, World.apply, hfree, Table.find?_put]
  rw [if_neg (by simp), if_pos (by rfl)]
  rfl

theorem courseOfJob_reliably {teacherId programId : Id} {job : Job}
    {Q : Except String Id → Option World → World → Prop} (hread : ReadAt s job)
    (hheld : ∀ course, s.courseFor job.id = some course → course.teacherId = teacherId)
    (hok : ∀ course s', Added [job.id] s s' → s'.courseFor job.id = some course →
      course.teacherId = teacherId → (s'.sessionsOf course.id : Int) = existingSessions job.course →
      Q (.ok course.id) none s')
    (herror : ∀ message, job.course = none →
      Uncreatable services schoolId (courseDto teacherId programId job) s →
      Q (.error message) none s) :
    (courseOfJob schoolId teacherId programId job).reliably services.model Q E none s := by
  unfold courseOfJob
  split
  · next course slots hcourse =>
      have hcourse := hread.course.symm.trans hcourse
      obtain ⟨course', hfor, heq⟩ := Option.map_eq_some_iff.1 hcourse
      obtain ⟨rfl, rfl⟩ := Prod.mk.inj heq
      refine hok _ s (.refl _ s) hfor (hheld _ hfor) ?_
      rw [hread.course, hcourse]
      rfl
  · next hnone =>
      simp only [bind_eq, pure_eq, tryCatch_eq, reliably_handle]
      rcases createCourse_cases services schoolId (courseDto teacherId programId job) s with
        ⟨e, hr⟩ | ⟨data, hteacher, hr⟩
      · have huncreatable : Uncreatable services schoolId (courseDto teacherId programId job) s :=
          (hr s (.refl s) _ _).2 ⟨rfl, rfl⟩
        refine (hr s (.refl s) _ _).2 ?_
        rw [reliably_fail]
        split <;> exact herror _ hnone huncreatable
      · refine (hr s (.refl s) _ _).2 ⟨fun hrefused f => ?_, fun c row hrow => ?_⟩
        · have huncreatable : Uncreatable services schoolId (courseDto teacherId programId job) s := by
            refine (hr s (.refl s) _ _).2 ⟨fun _ _ => ⟨rfl, rfl⟩, fun c row hrow => ?_⟩
            cases (hrefused c).symm.trans hrow
          simp only [reliably_fail]
          split <;> exact herror _ hnone huncreatable
        · have hfor : s.courseFor job.id = none := by
            simpa [World.courseOf] using hread.course.symm.trans hnone
          obtain ⟨-, hrow⟩ := Model.exec_checked.1 hrow
          obtain ⟨hfresh, hunused⟩ := of_exec_courseCreate hrow
          refine (reliably_handle (M := services.model) _ _ _).2 ?_
          have hanswer : ∀ c, services.model.exec (.courseUpdate row.id job.id) c
              (World.apply (.course row) s) = some { row with subjectRequirementId := some job.id } :=
            fun c => Model.exec_checked.2 ⟨rfl, exec_courseUpdate hfor c⟩
          refine (reliably_answer (M := services.model) _ hanswer).2 ?_
          have hlinked := @linked_course s row job.id hfresh
          have hdone := hok _ _ hlinked.added (hlinked.courseFor hfor)
          refine hdone ?_ ?_
          · rw [eq_of_exec_courseCreate hrow]
            exact hteacher
          · have hempty : (s.slots.rows.filter fun slot => slot.courseId = row.id) = [] :=
              List.filter_eq_nil_iff.2 fun slot hslot heq => hunused slot hslot (of_decide_eq_true heq)
            rw [hnone, World.sessionsOf, hlinked.slots, hempty]
            rfl

/-! ## What a job leaves -/

/-- All that a session of a job needs is configured. -/
structure Placeable (timeSlots : List SchoolTimeSlot) (rooms : List Room) (job : Job)
    (teacher : Teacher) (programId : Id) : Prop where
  assignment : job.assignment = some teacher
  programId : job.schoolClass.programId = some programId
  program : job.schoolClass.program.isSome = true
  configured : ¬ (timeSlots.isEmpty ∨ rooms.isEmpty ∨ typicalDurationMinutes timeSlots ≤ 0)

/-- What a job has too few of. -/
def missing (timeSlots : List SchoolTimeSlot) (job : Job)
    (course : Option (Course × List CourseSlot)) : Int :=
  sessionsNeededFor job.hoursPerWeek (typicalDurationMinutes timeSlots) - existingSessions course

/-- What the generation says of a job once its course has these slots, but for the reason. -/
def leftOver (timeSlots : List SchoolTimeSlot) (rooms : List Room) (job : Job)
    (course : Option (Course × List CourseSlot)) : Option UnresolvedItem :=
  let typical := typicalDurationMinutes timeSlots
  match job.assignment, job.schoolClass.programId, job.schoolClass.program with
  | none, _, _ => some (baseUnresolved typical job 0 "")
  | some _, some _, some _ =>
      if timeSlots.isEmpty ∨ rooms.isEmpty ∨ typical ≤ 0 then some (baseUnresolved typical job 0 "")
      else if missing timeSlots job course ≤ 0 then none
      else some (baseUnresolved typical job (existingSessions course) "")
  | _, _, _ => some (baseUnresolved typical job 0 "")

/-- An item but for its reason, which is not always the same. -/
def UnresolvedItem.unexplained (item : UnresolvedItem) : UnresolvedItem := { item with reason := "" }

/-- Nothing more can be placed for the job. -/
def Settled (services : Services) (schoolId : Id) (timeSlots : List SchoolTimeSlot)
    (rooms : List Room) (job : Job) (s : World) : Prop :=
  ∀ teacher programId, Placeable timeSlots rooms job teacher programId →
    0 < missing timeSlots job (s.courseOf job.id) → match s.courseFor job.id with
      | some course => ∀ timeSlot ∈ timeSlots, Blocked services schoolId course.id job.schoolClass.id
          rooms ⟨timeSlot.dayOfWeek, timeSlot.period⟩ s
      | none => Uncreatable services schoolId (courseDto teacher.id programId job) s

/-- What is added for other requirements leaves a job settled. -/
theorem Settled.mono (hsound : services.Sound) {timeSlots : List SchoolTimeSlot} {rooms : List Room}
    {job : Job} {requirementIds : List Id} (h : Settled services schoolId timeSlots rooms job s)
    (hadded : Added requirementIds s s') (hother : job.id ∉ requirementIds) :
    Settled services schoolId timeSlots rooms job s' := by
  intro teacher programId hplaceable hmissing
  rw [hadded.courseOf_ne hother] at hmissing
  have h := h teacher programId hplaceable hmissing
  rw [hadded.courseFor_ne hother]
  cases hcourse : s.courseFor job.id with
  | none =>
      rw [hcourse] at h
      exact h.mono hsound hadded.to_extends
  | some course =>
      rw [hcourse] at h
      exact fun timeSlot hmem => (h timeSlot hmem).mono hsound hadded.to_extends
        (Option.isSome_iff_exists.2 ⟨_, (courseFor_spec hcourse).1⟩)

/-- What was read of a job is not changed by what is added for other requirements. -/
theorem ReadAt.mono {job : Job} {requirementIds : List Id} (h : ReadAt s job)
    (hadded : Added requirementIds s s') (hother : job.id ∉ requirementIds) : ReadAt s' job := by
  refine ⟨⟨?_, h.jobOf.classId, fun course slots hcourse => ?_⟩, ?_⟩
  · rw [hadded.to_extends.requirements]
    exact h.jobOf.requirement
  · obtain ⟨hfind, hlinked⟩ := h.jobOf.course course slots hcourse
    exact ⟨hadded.to_extends.find?_course hfind, hlinked⟩
  · rw [hadded.courseOf_ne hother]
    exact h.course

theorem Job.Held.mono {job : Job} {requirementIds : List Id} (h : job.Held s)
    (hadded : Added requirementIds s s') (hother : job.id ∉ requirementIds) : job.Held s' := by
  rw [Job.Held, hadded.courseFor_ne hother]
  exact h

theorem unexplained_leave (g : Generation) (typical : Int) (job : Job) (n : Int) (reason : String) :
    (g.leave (baseUnresolved typical job n reason)).unresolved.map UnresolvedItem.unexplained =
      g.unresolved.map UnresolvedItem.unexplained ++ [baseUnresolved typical job n ""] := by
  simp [Generation.leave, UnresolvedItem.unexplained, baseUnresolved]

theorem existingSessions_courseOf {requirementId : Id} {course : Course}
    (h : s.courseFor requirementId = some course) :
    existingSessions (s.courseOf requirementId) = s.sessionsOf course.id := by
  rw [World.courseOf, h]
  rfl

theorem leftOver_of_placeable {timeSlots : List SchoolTimeSlot} {rooms : List Room} {job : Job}
    {teacher : Teacher} {programId : Id} (h : Placeable timeSlots rooms job teacher programId)
    (course : Option (Course × List CourseSlot)) :
    leftOver timeSlots rooms job course = if missing timeSlots job course ≤ 0 then none
      else some (baseUnresolved (typicalDurationMinutes timeSlots) job (existingSessions course) "") := by
  obtain ⟨program, hprogram⟩ := Option.isSome_iff_exists.1 h.program
  rw [leftOver, h.assignment, h.programId, hprogram]
  dsimp only
  rw [if_neg h.configured]

/-- The first generation: a job is settled when it is done with. -/
theorem placeJob_reliably (hsound : services.Sound) {timeSlots : List SchoolTimeSlot}
    {rooms : List Room} {job : Job} {g : Generation}
    {Q : Generation → Option World → World → Prop} (hread : ReadAt s job)
    (hheld : job.Held s) (hcached : Cached schoolId g s)
    (hQ : ∀ g' s', Added [job.id] s s' → Cached schoolId g' s' →
      g'.unresolved.map UnresolvedItem.unexplained = g.unresolved.map UnresolvedItem.unexplained ++
        (leftOver timeSlots rooms job (s'.courseOf job.id)).toList →
      Settled services schoolId timeSlots rooms job s' → Q g' none s') :
    (placeJob schoolId timeSlots rooms job g).reliably services.model Q E none s := by
  simp only [placeJob, bind_eq, pure_eq]
  split
  · next hassignment =>
      refine hQ _ s (.refl _ s) ⟨hcached.teachers, hcached.rooms⟩ ?_ ?_
      · rw [unexplained_leave, leftOver, hassignment]
        rfl
      · intro teacher programId hplaceable
        cases hassignment.symm.trans hplaceable.assignment
  · next teacher programId program hassignment hprogramId hprogram =>
      rw [reliably_ite]
      refine ⟨fun hunconfigured => hQ _ s (.refl _ s) ⟨hcached.teachers, hcached.rooms⟩ ?_ ?_,
        fun hconfigured => ?_⟩
      · rw [unexplained_leave, leftOver, hassignment, hprogramId, hprogram]
        dsimp only
        rw [if_pos hunconfigured]
        rfl
      · exact fun _ _ hplaceable => absurd hunconfigured hplaceable.configured
      · have hplaceable : Placeable timeSlots rooms job teacher programId :=
          ⟨hassignment, hprogramId, by rw [hprogram]; rfl, hconfigured⟩
        rw [reliably_ite]
        refine ⟨fun hdone => ?_, fun hneeded => ?_⟩
        · replace hdone : missing timeSlots job (s.courseOf job.id) ≤ 0 := by
            rw [← hread.course]
            exact hdone
          refine hQ g s (.refl _ s) hcached ?_ fun _ _ _ hmissing => by omega
          rw [leftOver_of_placeable hplaceable, if_pos hdone]
          exact (List.append_nil _).symm
        · rw [reliably_handle]
          refine courseOfJob_reliably hread (fun course hfor => hheld course teacher hfor hassignment)
            (fun course s' hadded hfor hteacher hsessions => ?_) fun message hnone huncreatable => ?_
          · dsimp only
            obtain ⟨hfind, hlink⟩ := courseFor_spec hfor
            have hext := hadded.to_extends
            have hclass : ForClass s' course.id job.schoolClass.id :=
              ⟨course, job.toSubjectRequirement, hfind, hlink,
                hext.requirements ▸ hread.jobOf.requirement, hread.jobOf.classId⟩
            rw [reliably_handle, ← hteacher]
            refine placeSessions_reliably hsound hlink (hcached.mono hext) hfind hclass timeSlots
              fun next s'' hprogress hblocked => ?_
            have hadded' := hadded.trans hprogress.added
            have hfor' := hprogress.added.courseFor_of_some hfor
            -- What is stored now is what was stored before and what was placed.
            have hexisting : existingSessions (s''.courseOf job.id) =
                existingSessions job.course + next.2 := by
              have := hprogress.placed
              rw [existingSessions_courseOf hfor']
              omega
            have hmissing : missing timeSlots job (s''.courseOf job.id) =
                missing timeSlots job job.course - next.2 := by
              rw [missing, missing, hexisting]
              omega
            have hsettled : Settled services schoolId timeSlots rooms job s'' := by
              intro _ _ _ hleft
              rw [hfor']
              exact hblocked (show next.2 < missing timeSlots job job.course by omega)
            have hunresolved : next.1.unresolved = g.unresolved := hprogress.unresolved
            rw [reliably_ite]
            refine ⟨fun hlt => ?_, fun hge => ?_⟩
            · replace hlt : next.2 < missing timeSlots job job.course := hlt
              refine hQ _ s'' hadded' ⟨hprogress.cached.teachers, hprogress.cached.rooms⟩ ?_ hsettled
              rw [unexplained_leave, hunresolved, leftOver_of_placeable hplaceable,
                if_neg (by omega), hexisting]
              rfl
            · replace hge : ¬ next.2 < missing timeSlots job job.course := hge
              refine hQ _ s'' hadded' hprogress.cached ?_ hsettled
              rw [hunresolved, leftOver_of_placeable hplaceable, if_pos (by omega)]
              exact (List.append_nil _).symm
          · -- Without a course there is nothing that could be placed.
            have hfor : s.courseFor job.id = none := by
              simpa [World.courseOf] using hread.course.symm.trans hnone
            have hcourse : s.courseOf job.id = none := hread.course.symm.trans hnone
            refine hQ _ s (.refl _ s) ⟨hcached.teachers, hcached.rooms⟩ ?_ ?_
            · rw [unexplained_leave, leftOver_of_placeable hplaceable, hcourse, if_neg]
              · rfl
              · rw [← hnone]
                exact hneeded
            · intro teacher' programId' hplaceable' _
              obtain rfl := Option.some.inj (hassignment.symm.trans hplaceable'.assignment)
              obtain rfl := Option.some.inj (hprogramId.symm.trans hplaceable'.programId)
              rw [hfor]
              exact huncreatable
  · next hnone hsome =>
      refine hQ _ s (.refl _ s) ⟨hcached.teachers, hcached.rooms⟩ ?_ ?_
      · rw [unexplained_leave, leftOver]
        split
        · rfl
        · next teacher programId program hassignment hprogramId hprogram =>
            exact absurd hprogram (hsome _ _ _ hassignment hprogramId)
        · rfl
      · intro teacher programId hplaceable
        obtain ⟨program, hprogram⟩ := Option.isSome_iff_exists.1 hplaceable.program
        exact absurd hprogram (hsome _ _ _ hplaceable.assignment hplaceable.programId)

/-- The second generation: where a job is settled, nothing is written for it. -/
theorem placeJob_settled {timeSlots : List SchoolTimeSlot} {rooms : List Room} {job : Job}
    {g : Generation} {Q : Generation → Option World → World → Prop}
    (hcourse : job.course = s.courseOf job.id)
    (hsettled : Settled services schoolId timeSlots rooms job s)
    (hQ : ∀ g', g'.createdSlots = g.createdSlots →
      g'.unresolved.map UnresolvedItem.unexplained = g.unresolved.map UnresolvedItem.unexplained ++
        (leftOver timeSlots rooms job job.course).toList → Q g' none s) :
    (placeJob schoolId timeSlots rooms job g).reliably services.model Q E none s := by
  simp only [placeJob, bind_eq, pure_eq]
  split
  · next hassignment =>
      refine hQ _ rfl ?_
      rw [unexplained_leave, leftOver, hassignment]
      rfl
  · next teacher programId program hassignment hprogramId hprogram =>
      rw [reliably_ite]
      refine ⟨fun hunconfigured => hQ _ rfl ?_, fun hconfigured => ?_⟩
      · rw [unexplained_leave, leftOver, hassignment, hprogramId, hprogram]
        dsimp only
        rw [if_pos hunconfigured]
        rfl
      · have hplaceable : Placeable timeSlots rooms job teacher programId :=
          ⟨hassignment, hprogramId, by rw [hprogram]; rfl, hconfigured⟩
        rw [reliably_ite]
        refine ⟨fun hdone => hQ g rfl ?_, fun hneeded => ?_⟩
        · replace hdone : missing timeSlots job job.course ≤ 0 := hdone
          rw [leftOver_of_placeable hplaceable, if_pos hdone]
          exact (List.append_nil _).symm
        · replace hneeded : ¬ missing timeSlots job job.course ≤ 0 := hneeded
          have hleft := hsettled teacher programId hplaceable (by rw [← hcourse]; omega)
          have hitem : ∀ n reason, n = existingSessions job.course →
              Q (g.leave (baseUnresolved (typicalDurationMinutes timeSlots) job n reason)) none s := by
            rintro n reason rfl
            refine hQ _ rfl ?_
            rw [unexplained_leave, leftOver_of_placeable hplaceable, if_neg hneeded]
            rfl
          rw [reliably_handle]
          unfold courseOfJob
          split
          · next course slots hread =>
              obtain ⟨course', hfor, heq⟩ := Option.map_eq_some_iff.1 (hcourse.symm.trans hread)
              obtain ⟨rfl, -⟩ := Prod.mk.inj heq
              rw [hfor] at hleft
              dsimp only [pure_eq, reliably_ret]
              rw [reliably_ret, reliably_handle]
              refine placeSessions_blocked hleft ?_
              rw [reliably_ite]
              refine ⟨fun _ => hitem _ _ (by simp [existingSessions]), fun hge => ?_⟩
              exact absurd (show 0 < missing timeSlots job job.course by omega) hge
          · next hnone =>
              have hfor : s.courseFor job.id = none := by
                simpa [World.courseOf] using hcourse.symm.trans hnone
              rw [hfor] at hleft
              simp only [bind_eq, pure_eq, tryCatch_eq, reliably_handle]
              refine reliably_mono (fun _ _ _ h => h.elim) ?_ hleft
              rintro e _ _ ⟨rfl, rfl⟩
              cases e <;> exact hitem _ _ (by rw [hnone]; rfl)
  · next hnone hsome =>
      refine hQ _ rfl ?_
      rw [unexplained_leave, leftOver]
      split
      · rfl
      · next teacher programId program hassignment hprogramId hprogram =>
          exact absurd hprogram (hsome _ _ _ hassignment hprogramId)
      · rfl

theorem placeJobs_reliably (hsound : services.Sound) {timeSlots : List SchoolTimeSlot}
    {rooms : List Room} {Q : Generation → Option World → World → Prop} (jobs : List Job)
    (g : Generation) (hread : ∀ job ∈ jobs, ReadAt s job) (hheld : ∀ job ∈ jobs, job.Held s)
    (hdistinct : (jobs.map (·.id)).Nodup)
    (hcached : Cached schoolId g s)
    (hQ : ∀ g' s', Added (jobs.map (·.id)) s s' →
      g'.unresolved.map UnresolvedItem.unexplained = g.unresolved.map UnresolvedItem.unexplained ++
        jobs.flatMap (fun job => (leftOver timeSlots rooms job (s'.courseOf job.id)).toList) →
      (∀ job ∈ jobs, Settled services schoolId timeSlots rooms job s') → Q g' none s') :
    (placeJobs schoolId timeSlots rooms jobs g).reliably services.model Q E none s := by
  induction jobs generalizing s g with
  | nil => exact hQ g s (.refl _ s) (List.append_nil _).symm fun _ h => by cases h
  | cons job jobs ih =>
      obtain ⟨hnew, hdistinct⟩ := List.nodup_cons.1 hdistinct
      simp only [placeJobs, bind_eq, reliably_handle]
      refine placeJob_reliably hsound (hread job (.head _)) (hheld job (.head _)) hcached
        fun g' s' hadded hcached' hunresolved hsettled => ?_
      have hother : ∀ job' ∈ jobs, job'.id ∉ [job.id] := by
        intro job' hmem heq
        exact hnew (List.mem_map.2 ⟨job', hmem, List.mem_singleton.1 heq⟩)
      refine ih g' (fun job' hmem => (hread job' (.tail _ hmem)).mono hadded (hother job' hmem))
        (fun job' hmem => (hheld job' (.tail _ hmem)).mono hadded (hother job' hmem)) hdistinct
        hcached' fun g'' s'' hadded' hunresolved' hsettled' => ?_
      refine hQ g'' s'' ((hadded.widen ?_).trans (hadded'.widen ?_)) ?_ fun job' hmem => ?_
      · exact fun id hid => List.mem_singleton.1 hid ▸ List.mem_cons_self
      · exact List.subset_cons_self _ _
      · rw [hunresolved', hunresolved, List.flatMap_cons, List.append_assoc, hadded'.courseOf_ne hnew]
      · rcases List.mem_cons.1 hmem with rfl | hmem
        · exact hsettled.mono hsound hadded' hnew
        · exact hsettled' job' hmem

theorem placeJobs_settled {timeSlots : List SchoolTimeSlot} {rooms : List Room}
    {Q : Generation → Option World → World → Prop} (jobs : List Job) (g : Generation)
    (hread : ∀ job ∈ jobs, job.course = s.courseOf job.id)
    (hsettled : ∀ job ∈ jobs, Settled services schoolId timeSlots rooms job s)
    (hQ : ∀ g', g'.createdSlots = g.createdSlots →
      g'.unresolved.map UnresolvedItem.unexplained = g.unresolved.map UnresolvedItem.unexplained ++
        jobs.flatMap (fun job => (leftOver timeSlots rooms job job.course).toList) → Q g' none s) :
    (placeJobs schoolId timeSlots rooms jobs g).reliably services.model Q E none s := by
  induction jobs generalizing g with
  | nil => exact hQ g rfl (List.append_nil _).symm
  | cons job jobs ih =>
      simp only [placeJobs, bind_eq, reliably_handle]
      refine placeJob_settled (hread job (.head _)) (hsettled job (.head _))
        fun g' hcreated hunresolved => ?_
      refine ih g' (fun job' hmem => hread job' (.tail _ hmem))
        (fun job' hmem => hsettled job' (.tail _ hmem)) fun g'' hcreated' hunresolved' => ?_
      refine hQ g'' (hcreated'.trans hcreated) ?_
      rw [hunresolved', hunresolved, List.flatMap_cons, List.append_assoc]

end Jobs

end GetPlatform.Timetable
