import GetPlatform.Timetable.Settled

set_option autoImplicit false

/-! # A second generation changes nothing

The keys that a generation remembers are forgotten when it ends, so the next one tries again what they
ruled out. `SchoolService` refuses it then, because of the slots they stand for: a generation that
starts from where another one ended finds every job settled. -/

namespace GetPlatform.Timetable

open Prog

/-! ## The jobs of a generation -/

/-- The classes that a generation is for. -/
def World.classesFor (s : World) (schoolId : Id) (dto : GenerateScheduleDto) : List ClassRow :=
  (s.classes.rows.filter fun c => c.schoolId = schoolId ∧ c.academicYearId = dto.academicYearId ∧
    dto.classId.all (· = c.id)).map (s.classRow dto)

/-- The jobs of the classes, in the order in which they are placed. -/
def World.jobs (s : World) (localeCompare : String → String → Int) (schoolId : Id)
    (dto : GenerateScheduleDto) : List Job :=
  orderBy (fun a b => compareJobs localeCompare a b ≤ 0)
    ((s.classesFor schoolId dto).flatMap fun c => c.requirements.map fun r => (⟨r, c⟩ : Job))

/-- A job read again: its course may be new, and so may those of the other requirements. -/
def Job.again (dto : GenerateScheduleDto) (s : World) (job : Job) : Job :=
  ⟨{ job.toRequirementRow with course := s.courseOf job.id },
    { job.schoolClass with
      requirements := (s.classRow dto job.schoolClass.toSchoolClass).requirements }⟩

section Reading

variable {s s' : World} {localeCompare : String → String → Int} {schoolId : Id}
  {dto : GenerateScheduleDto}

theorem mem_jobs {job : Job} (h : job ∈ s.jobs localeCompare schoolId dto) :
    ∃ c ∈ s.classes, job.schoolClass = s.classRow dto c ∧
      job.toRequirementRow ∈ (s.classRow dto c).requirements := by
  rw [World.jobs, mem_orderBy, List.mem_flatMap] at h
  obtain ⟨row, hrow, hjob⟩ := h
  obtain ⟨r, hr, rfl⟩ := List.mem_map.1 hjob
  obtain ⟨c, hc, rfl⟩ := List.mem_map.1 hrow
  exact ⟨c, (List.mem_filter.1 hc).1, rfl, hr⟩

theorem of_mem_requirements {c : SchoolClass} {row : RequirementRow}
    (h : row ∈ (s.classRow dto c).requirements) : row.classId = c.id ∧
      ∃ r ∈ s.requirements, s.requirementRow r = some row ∧ row.toSubjectRequirement = r := by
  simp only [World.classRow, List.mem_filter, List.mem_filterMap] at h
  obtain ⟨⟨r, hr, hrow⟩, -⟩ := h
  split at hrow
  · next hclass =>
      have hsame : row.toSubjectRequirement = r := by
        simp only [World.requirementRow, Option.pure_def, Option.bind_eq_bind,
          Option.bind_eq_some_iff, Option.some.injEq] at hrow
        obtain ⟨subject, -, rfl⟩ := hrow
        rfl
      exact ⟨hsame ▸ hclass.1, r, hr, hrow, hsame⟩
  · cases hrow

/-- Every course of a requirement is held by the teacher who is assigned to it. -/
def HeldByAssigned (s : World) : Prop :=
  ∀ course ∈ s.courses, ∀ requirementId assignment,
    course.subjectRequirementId = some requirementId →
    s.requirementAssignments.find? requirementId = some assignment →
    course.teacherId = assignment.teacherId

theorem readAt_of_mem {job : Job} (h : job ∈ s.jobs localeCompare schoolId dto) :
    ReadAt s job := by
  obtain ⟨c, -, hclass, hrow⟩ := mem_jobs h
  obtain ⟨-, r, -, hread, hr⟩ := of_mem_requirements hrow
  have hjob : job = ⟨job.toRequirementRow, s.classRow dto c⟩ := by rw [← hclass]
  simp only [World.requirementRow, Option.pure_def, Option.bind_eq_bind, Option.bind_eq_some_iff,
    Option.some.injEq] at hread
  obtain ⟨subject, -, hread⟩ := hread
  refine ⟨hjob ▸ jobOf_of_mem hrow, ?_⟩
  rw [show job.id = r.id by rw [← hr], ← hread]
  rfl

/-- The teacher of a job is the one who is assigned to its requirement. -/
theorem assigned_of_mem {job : Job} (h : job ∈ s.jobs localeCompare schoolId dto) {teacher : Teacher}
    (hteacher : job.assignment = some teacher) : ∃ assignment,
      s.requirementAssignments.find? job.id = some assignment ∧ assignment.teacherId = teacher.id := by
  obtain ⟨c, -, -, hrow⟩ := mem_jobs h
  obtain ⟨-, r, -, hread, hr⟩ := of_mem_requirements hrow
  simp only [World.requirementRow, Option.pure_def, Option.bind_eq_bind, Option.bind_eq_some_iff,
    Option.some.injEq] at hread
  obtain ⟨subject, -, hread⟩ := hread
  have hassignment : (s.requirementAssignments.find? r.id).bind
      (fun a => s.teachers.find? a.teacherId) = some teacher := by
    rw [← hteacher, ← hread]
  obtain ⟨assignment, hassigned, hfound⟩ := Option.bind_eq_some_iff.1 hassignment
  rw [show job.id = r.id by rw [← hr]]
  exact ⟨assignment, hassigned, (Table.key_of_find? hfound).symm⟩

theorem held_of_mem (hheld : HeldByAssigned s) {job : Job}
    (h : job ∈ s.jobs localeCompare schoolId dto) : job.Held s := by
  intro course teacher hfor hteacher
  obtain ⟨hfind, hlink⟩ := courseFor_spec hfor
  obtain ⟨assignment, hassigned, heq⟩ := assigned_of_mem h hteacher
  exact (hheld course (Table.mem_of_find? hfind) job.id assignment hlink hassigned).trans heq

theorem map_filterMap_sublist {α β γ : Type} {f : α → Option β} {k : α → γ} {k' : β → γ}
    (h : ∀ a b, f a = some b → k' b = k a) (l : List α) :
    ((l.filterMap f).map k').Sublist (l.map k) := by
  induction l with
  | nil => exact .slnil
  | cons a l ih =>
      cases hf : f a with
      | none =>
          rw [List.filterMap_cons_none hf]
          exact ih.cons _
      | some b =>
          rw [List.filterMap_cons_some hf, List.map_cons, List.map_cons, h a b hf]
          exact ih.cons_cons _

/-- A requirement belongs to one class, and gives one job. -/
theorem nodup_jobs : ((s.jobs localeCompare schoolId dto).map (·.id)).Nodup := by
  have hperm := (perm_orderBy (fun a b => compareJobs localeCompare a b ≤ 0)
    ((s.classesFor schoolId dto).flatMap fun c => c.requirements.map fun r => (⟨r, c⟩ : Job))).map
      (·.id)
  rw [World.jobs, hperm.nodup_iff, List.map_flatMap, World.classesFor, List.flatMap_map,
    List.nodup_flatMap]
  have hsource : ∀ c, ∀ row ∈ (s.classRow dto c).requirements, row.classId = c.id ∧
      s.requirements.find? row.id = some row.toSubjectRequirement := by
    intro c row hrow
    obtain ⟨hclass, r, hr, -, hsame⟩ := of_mem_requirements hrow
    exact ⟨hclass, hsame ▸ Table.find?_key hr⟩
  refine ⟨fun c _ => ?_, ?_⟩
  · rw [List.map_map]
    refine List.Nodup.sublist (List.Sublist.trans (List.filter_sublist.map _)
      (map_filterMap_sublist ?_ s.requirements.rows)) s.requirements.nodup
    intro r row hrow
    split at hrow
    · simp only [World.requirementRow, Option.pure_def, Option.bind_eq_bind,
        Option.bind_eq_some_iff, Option.some.injEq] at hrow
      obtain ⟨subject, -, rfl⟩ := hrow
      rfl
    · cases hrow
  · have hclasses := (List.Nodup.of_map _ s.classes.nodup).sublist
      (List.filter_sublist (l := s.classes.rows) (p := fun c => c.schoolId = schoolId ∧
        c.academicYearId = dto.academicYearId ∧ dto.classId.all (· = c.id)))
    refine hclasses.imp_of_mem fun {c c'} hc hc' hne => ?_
    intro id hid hid'
    obtain ⟨_, hjob, rfl⟩ := List.mem_map.1 hid
    obtain ⟨row, hrow, rfl⟩ := List.mem_map.1 hjob
    obtain ⟨_, hjob', heq⟩ := List.mem_map.1 hid'
    obtain ⟨row', hrow', rfl⟩ := List.mem_map.1 hjob'
    obtain ⟨hclass, hfind⟩ := hsource c row hrow
    obtain ⟨hclass', hfind'⟩ := hsource c' row' hrow'
    have hsame : row'.toSubjectRequirement = row.toSubjectRequirement := by
      have heq : row'.id = row.id := heq
      rw [heq, hfind] at hfind'
      exact (Option.some.inj hfind').symm
    have hid : row'.classId = row.classId := congrArg SubjectRequirement.classId hsame
    exact hne (Table.eq_of_key_eq (List.mem_filter.1 hc).1 (List.mem_filter.1 hc').1
      (hclass.symm.trans (hid.symm.trans hclass')))

theorem requirements_again (hext : Extends s s') (c : SchoolClass) :
    (s'.classRow dto c).requirements = (s.classRow dto c).requirements.map fun r =>
      { r with course := s'.courseOf r.id } := by
  have hrow : ∀ r, s'.requirementRow r =
      (s.requirementRow r).map fun row => { row with course := s'.courseOf row.id } := by
    intro r
    rw [hext.rest]
    simp only [World.requirementRow, Option.pure_def, Option.bind_eq_bind]
    cases s.subjects.find? r.subjectId with
    | none => rfl
    | some subject => rfl
  have hrequirements : s'.requirements = s.requirements := hext.requirements
  have hrows : (s.requirements.rows.filterMap fun r =>
      if r.classId = c.id ∧ dto.subjectId.all (· = r.subjectId) then s'.requirementRow r else none) =
      (s.requirements.rows.filterMap fun r =>
        if r.classId = c.id ∧ dto.subjectId.all (· = r.subjectId) then s.requirementRow r
        else none).map fun row => { row with course := s'.courseOf row.id } := by
    rw [List.map_filterMap]
    congr 1
    funext r
    split
    · exact hrow r
    · rfl
  simp only [World.classRow, hrequirements]
  rw [hrows, List.filter_map]
  rfl

theorem settled_again {services : Services} {timeSlots : List SchoolTimeSlot} {rooms : List Room}
    {job : Job} (h : Settled services schoolId timeSlots rooms job s) :
    Settled services schoolId timeSlots rooms (job.again dto s') s :=
  fun teacher programId hplaceable hmissing => h teacher programId
    ⟨hplaceable.assignment, hplaceable.programId, hplaceable.program, hplaceable.configured⟩ hmissing

theorem jobs_again (hext : Extends s s') : s'.jobs localeCompare schoolId dto =
    (s.jobs localeCompare schoolId dto).map (Job.again dto s') := by
  have hclasses : s'.classes = s.classes := by rw [hext.rest]
  let le : Job → Job → Prop := fun a b => decide (compareJobs localeCompare a b ≤ 0) = true
  have hsort := List.map_insertionSort le le (Job.again dto s')
    ((s.classesFor schoolId dto).flatMap fun c => c.requirements.map fun r => (⟨r, c⟩ : Job))
    fun _ _ _ _ => Iff.rfl
  refine Eq.trans ?_ hsort.symm
  rw [World.jobs, orderBy]
  congr 1
  rw [World.classesFor, World.classesFor, hclasses, List.flatMap_map, List.flatMap_map,
    List.map_flatMap]
  refine List.flatMap_congr fun c _ => ?_
  have hclass : s'.classRow dto c =
      { s.classRow dto c with requirements := (s'.classRow dto c).requirements } := by
    rw [hext.rest]
    rfl
  rw [hclass, requirements_again hext, List.map_map, List.map_map]
  refine List.map_congr_left fun row _ => ?_
  rw [← requirements_again hext]
  rfl

/-- What is read first is not changed by a generation, but for the jobs. -/
theorem generate_reads (services : Services) (localeCompare : String → String → Int) (schoolId : Id)
    (dto : GenerateScheduleDto) (s : World) : ∃ timeSlots rooms, ∀ s', Extends s s' → ∀ Q E,
      (generate localeCompare schoolId dto).reliably services.model Q E none s' ↔
        (placeJobs schoolId timeSlots rooms (s'.jobs localeCompare schoolId dto) {}).reliably
          services.model (fun g => Q ⟨g.createdSlots, g.unresolved⟩) E none s' := by
  refine ⟨?_, ?_, fun s' hext Q E => ?_⟩
  rotate_left 2
  · obtain ⟨courses, slots, rfl⟩ : ∃ courses slots, s' = { s with courses, slots } :=
      ⟨_, _, hext.rest⟩
    simp only [generate, bind_eq, pure_eq]
    rw [reliably_handle, send, reliably_answer (M := services.model) _ fun _ => rfl, reliably_handle,
      send, reliably_answer (M := services.model) _ fun _ => rfl, reliably_handle, send,
      reliably_answer (M := services.model) _ fun _ => rfl, reliably_handle]
    dsimp only [writes, Model.applyAll, List.foldl_nil]
    exact Iff.rfl

end Reading

/-- **Schedule generation is idempotent.** -/
theorem generate_idempotent {services : Services} (hsound : services.Sound)
    {localeCompare : String → String → Int} {schoolId : Id} {dto : GenerateScheduleDto}
    {s s₁ s₂ : World} {r₁ r₂ : Except Err GenerationResult} (hheld : HeldByAssigned s)
    (h₁ : Ran services.model (generate localeCompare schoolId dto) none s r₁ s₁)
    (h₂ : Ran services.model (generate localeCompare schoolId dto) none s₁ r₂ s₂) :
    ∃ first second, r₁ = .ok first ∧ r₂ = .ok second ∧ s₂ = s₁ ∧ second.createdSlots = 0 ∧
      second.unresolved.map UnresolvedItem.unexplained =
        first.unresolved.map UnresolvedItem.unexplained := by
  obtain ⟨timeSlots, rooms, hreads⟩ := generate_reads services localeCompare schoolId dto s
  let jobs := s.jobs localeCompare schoolId dto
  let left (s' : World) (job : Job) := (leftOver timeSlots rooms job (s'.courseOf job.id)).toList
  -- The first generation settles every job.
  obtain ⟨first, rfl, hext, hfirst, hsettled⟩ : ∃ first, r₁ = .ok first ∧ Extends s s₁ ∧
      first.unresolved.map UnresolvedItem.unexplained = jobs.flatMap (left s₁) ∧
      ∀ job ∈ jobs, Settled services schoolId timeSlots rooms job s₁ := by
    refine h₁.holds (P := fun r s' => ∃ first, r = .ok first ∧ Extends s s' ∧
      first.unresolved.map UnresolvedItem.unexplained = jobs.flatMap (left s') ∧
      ∀ job ∈ jobs, Settled services schoolId timeSlots rooms job s') ((hreads s (.refl s) _ _).2 ?_)
    refine placeJobs_reliably hsound jobs {} (fun job hjob => readAt_of_mem hjob)
      (fun job hjob => held_of_mem hheld hjob) nodup_jobs
      ⟨by simp, by simp⟩ fun g s' hadded hunresolved hsettled => ?_
    exact ⟨_, rfl, hadded.to_extends, hunresolved, hsettled⟩
  -- The second one finds them settled.
  obtain ⟨second, rfl, rfl, hcreated, hsecond⟩ : ∃ second, r₂ = .ok second ∧ s₂ = s₁ ∧
      second.createdSlots = 0 ∧
      second.unresolved.map UnresolvedItem.unexplained = jobs.flatMap (left s₁) := by
    refine h₂.holds (P := fun r s' => ∃ second, r = .ok second ∧ s' = s₁ ∧
      second.createdSlots = 0 ∧
      second.unresolved.map UnresolvedItem.unexplained = jobs.flatMap (left s₁))
      ((hreads s₁ hext _ _).2 ?_)
    rw [jobs_again hext]
    refine placeJobs_settled _ {} (fun job hjob => ?_) (fun job hjob => ?_)
      fun g hcreated hunresolved => ?_
    · obtain ⟨job, -, rfl⟩ := List.mem_map.1 hjob
      rfl
    · obtain ⟨job, hmem, rfl⟩ := List.mem_map.1 hjob
      exact settled_again (hsettled job hmem)
    · refine ⟨_, rfl, rfl, hcreated, ?_⟩
      rw [List.flatMap_map] at hunresolved
      exact hunresolved
  exact ⟨first, second, rfl, rfl, rfl, hcreated, hsecond.trans hfirst.symm⟩

/-! ## `SchoolService` -/

section SchoolService

variable {schoolId courseId id : Id} {dto : CreateCourseSlotDto} {s s' : World}

/-- What a slot has to meet, whatever its identifier. -/
structure Acceptable (schoolId courseId : Id) (dto : CreateCourseSlotDto) (s : World)
    (course : Course) (period : Period) : Prop where
  found : s.courses.find? courseId = some course
  inSchool : course.schoolId = schoolId
  ordered : period? dto.startTime dto.endTime = .ok period
  roomFree : s.roomConflicts schoolId dto.room ⟨dto.dayOfWeek, period⟩ none = []
  teacherFree : isTeacherFree course.teacherId schoolId ⟨dto.dayOfWeek, period⟩ none s = true
  unexcluded : ∀ other ∈ s.slots, ∀ id, doubleBooked other
    ⟨id, courseId, course.teacherId, dto.dayOfWeek, period, dto.room⟩ = false
  unique : ∀ other ∈ s.slots, ∀ id, other.sameBooking
    ⟨id, courseId, course.teacherId, dto.dayOfWeek, period, dto.room⟩ = false

/-- A call with a new identifier succeeds or not, whatever the identifier. -/
theorem createCourseSlot_ok_iff (hid : s.slots.contains id = false) :
    (∃ s', createCourseSlot schoolId courseId dto id s = .ok s') ↔
      ∃ course period, Acceptable schoolId courseId dto s course period := by
  have hother : ∀ other ∈ s.slots, other.id ≠ id := by
    rintro other hmem rfl
    rw [Table.contains, show s.slots.find? other.id = some other from Table.find?_key hmem] at hid
    cases hid
  constructor
  · rintro ⟨s', h⟩
    unfold createCourseSlot at h
    obtain ⟨course, hcourse, h⟩ := bind_ok h
    obtain ⟨period, hperiod, h⟩ := bind_ok h
    obtain ⟨_, hroom, h⟩ := bind_ok h
    obtain ⟨_, hfree, h⟩ := bind_ok h
    obtain ⟨hfound, hschool⟩ := of_ensureSchoolCourse hcourse
    rw [if_neg (by simp [hid])] at h
    unfold writeSlot at h
    split at h
    · cases h
    · next hunrefused =>
        split at h
        · cases h
        · next hunique =>
            refine ⟨course, period, hfound, hschool, hperiod, ?_, ?_, fun other hmem _ => ?_,
              fun other hmem _ => ?_⟩
            · unfold ensureNoRoomConflict at hroom
              split at hroom
              · next hempty => exact List.isEmpty_iff.1 hempty
              · cases hroom
            · unfold assertTeacherFreeOrThrow at hfree
              split at hfree
              · next hyes => exact hyes
              · cases hfree
            · have hone := List.any_eq_false.1 (Bool.eq_false_iff.2 hunrefused) other hmem
              rw [Bool.and_eq_true, decide_eq_true_eq, not_and, Bool.not_eq_true] at hone
              exact hone (hother other hmem)
            · have hone := List.any_eq_false.1 (Bool.eq_false_iff.2 hunique) other hmem
              rw [Bool.and_eq_true, decide_eq_true_eq, not_and, Bool.not_eq_true] at hone
              exact hone (hother other hmem)
  · rintro ⟨course, period, h⟩
    have hcourse : ensureSchoolCourse schoolId courseId s = .ok course := by
      rw [ensureSchoolCourse, h.found, Option.filter_some, if_pos (decide_eq_true h.inSchool)]
    have hroom : ensureNoRoomConflict schoolId dto.room ⟨dto.dayOfWeek, period⟩ none s = .ok () := by
      rw [ensureNoRoomConflict, h.roomFree]
      rfl
    have hfree : assertTeacherFreeOrThrow course.teacherId schoolId ⟨dto.dayOfWeek, period⟩ none s =
        .ok () := by
      rw [assertTeacherFreeOrThrow, if_pos h.teacherFree]
    have hwrite : writeSlot ⟨id, courseId, course.teacherId, dto.dayOfWeek, period, dto.room⟩ s =
        .ok (World.apply (.slot
          ⟨id, courseId, course.teacherId, dto.dayOfWeek, period, dto.room⟩) s) := by
      rw [writeSlot, if_neg, if_neg]
      · rfl
      · rw [Bool.not_eq_true]
        exact List.any_eq_false.2 fun other hmem => by simp [h.unique other hmem]
      · rw [Bool.not_eq_true]
        exact List.any_eq_false.2 fun other hmem => by simp [h.unexcluded other hmem]
    refine ⟨?_, ?_⟩
    rotate_left
    · simp only [createCourseSlot, hcourse, assertSlotTimes, h.ordered, hroom, hfree, hid, bind,
        Except.bind]
      exact hwrite

theorem Acceptable.mono {course course' : Course} {period : Period}
    (h : Acceptable schoolId courseId dto s' course' period) (hext : Extends s s')
    (hcourse : s.courses.find? courseId = some course) :
    Acceptable schoolId courseId dto s course period := by
  obtain rfl := Option.some.inj ((hext.find?_course hcourse).symm.trans h.found)
  refine ⟨hcourse, h.inSchool, h.ordered, ?_, ?_, fun other hmem => h.unexcluded other (hext.slots other hmem),
    fun other hmem => h.unique other (hext.slots other hmem)⟩
  · refine List.eq_nil_iff_forall_not_mem.2 fun other hother => ?_
    simp only [World.roomConflicts, List.mem_filter, decide_eq_true_eq] at hother
    obtain ⟨hmem, hne, hday, hroom, hbefore, hafter, hschool⟩ := hother
    have hconflict : other ∈ s'.roomConflicts schoolId dto.room ⟨dto.dayOfWeek, period⟩ none := by
      simp only [World.roomConflicts, List.mem_filter, decide_eq_true_eq]
      exact ⟨hext.slots other hmem, hne, hday, hroom, hbefore, hafter, hext.schoolOf hschool⟩
    rw [h.roomFree] at hconflict
    cases hconflict
  · have hfree := isTeacherFree_iff.1 h.teacherFree
    have hslots : ∀ other ∈ s.slotsOn course.teacherId dto.dayOfWeek none,
        other ∈ s'.slotsOn course.teacherId dto.dayOfWeek none := by
      intro other hother
      obtain ⟨hmem, hteacher, hday, hne⟩ := mem_slotsOn.1 hother
      exact mem_slotsOn.2 ⟨hext.slots other hmem, hteacher, hday, hne⟩
    have hsame : s'.unavailability = s.unavailability ∧ s'.buffers = s.buffers := by
      rw [hext.rest]
      exact ⟨rfl, rfl⟩
    refine isTeacherFree_iff.2 ⟨fun u hu => hfree.available u ?_,
      fun other hother => hfree.unbooked other (hslots other hother),
      fun other hother otherId hschool hne buffer hbuffer =>
        hfree.inTime other (hslots other hother) otherId (hext.schoolOf hschool) hne buffer ?_⟩
    · rw [World.weeklyUnavailability, hsame.1]
      exact hu
    · rw [hsame.2]
      exact hbuffer

/-- An identifier longer than those of the table. -/
def newId (t : Table CourseSlot) : Id :=
  .ofList (List.replicate (t.rows.foldr (fun slot n => max (slot.id.length + 1) n) 0) '-')

theorem contains_newId (t : Table CourseSlot) : t.contains (newId t) = false := by
  have hlonger : ∀ slots : List CourseSlot, ∀ slot ∈ slots,
      slot.id.length < slots.foldr (fun slot n => max (slot.id.length + 1) n) 0 := by
    intro slots
    induction slots with
    | nil => exact fun _ h => by cases h
    | cons first slots ih =>
        intro slot hmem
        rcases List.mem_cons.1 hmem with rfl | hmem
        · exact Nat.lt_of_lt_of_le (Nat.lt_succ_self _) (le_max_left _ _)
        · exact Nat.lt_of_lt_of_le (ih slot hmem) (le_max_right _ _)
  refine Bool.eq_false_iff.2 fun h => ?_
  obtain ⟨slot, hslot⟩ := Option.isSome_iff_exists.1 h
  obtain ⟨hmem, hkey⟩ := Table.find?_eq_some.1 hslot
  have hlength : slot.id.length = (newId t).length := congrArg String.length hkey
  have := hlonger t.rows slot hmem
  simp [newId] at hlength
  omega

/-- The calls of `SchoolService` as they are: a course is always created, and a slot where
    `createCourseSlot` succeeds. -/
def schoolService : Services where
  createCourse _ _ := true
  createCourseSlot schoolId courseId dto s :=
    (createCourseSlot schoolId courseId dto (newId s.slots) s).isOk

theorem schoolService_iff : schoolService.createCourseSlot schoolId courseId dto s = true ↔
    ∃ course period, Acceptable schoolId courseId dto s course period := by
  rw [← createCourseSlot_ok_iff (contains_newId s.slots)]
  show (createCourseSlot schoolId courseId dto (newId s.slots) s).isOk = true ↔ _
  cases createCourseSlot schoolId courseId dto (newId s.slots) s with
  | error e => simp [Except.isOk, Except.toBool]
  | ok s' => simp [Except.isOk, Except.toBool]

/-- The statement is answered where the call succeeds. -/
theorem schoolService_exec (hid : s.slots.contains id = false) :
    (∃ row, schoolService.model.exec (.createCourseSlot schoolId courseId dto) id s = some row) ↔
      ∃ s', createCourseSlot schoolId courseId dto id s = .ok s' := by
  rw [createCourseSlot_ok_iff hid, ← schoolService_iff]
  constructor
  · rintro ⟨row, hrow⟩
    exact (Model.exec_checked.1 hrow).1
  · intro h
    obtain ⟨s', hok⟩ := (createCourseSlot_ok_iff hid).2 (schoolService_iff.1 h)
    obtain ⟨row, hrow, -⟩ := createCourseSlot_exec hok
    exact ⟨row, Model.exec_checked.2 ⟨h, hrow⟩⟩

theorem of_period? {startTime endTime : Time} {period : Period}
    (h : period? startTime endTime = .ok period) :
    period.startTime = startTime ∧ period.endTime = endTime := by
  unfold period? at h
  split at h
  · obtain rfl := Except.ok.inj h
    exact ⟨rfl, rfl⟩
  · cases h

theorem schoolService_sound : schoolService.Sound where
  ofSchool {schoolId courseId dto s} haccepted course hcourse := by
    obtain ⟨course', period, h⟩ := schoolService_iff.1 haccepted
    exact Option.some.inj (hcourse.symm.trans h.found) ▸ h.inSchool
  teacherFree {schoolId courseId dto s} haccepted course hcourse other hother hteacher hday := by
    obtain ⟨course', period, h⟩ := schoolService_iff.1 haccepted
    obtain rfl := Option.some.inj (hcourse.symm.trans h.found)
    obtain ⟨hstart, hend⟩ := of_period? h.ordered
    have hfree := (isTeacherFree_iff.1 h.teacherFree).unbooked other
      (mem_slotsOn.2 ⟨hother, hteacher, hday, by simp⟩)
    rintro ⟨hbefore, hafter⟩
    rw [Period.overlaps_iff.2 ⟨hstart ▸ hafter, hend ▸ hbefore⟩] at hfree
    cases hfree
  roomFree {schoolId courseId dto s} haccepted other hother hroom hschool hday := by
    obtain ⟨course', period, h⟩ := schoolService_iff.1 haccepted
    obtain ⟨hstart, hend⟩ := of_period? h.ordered
    rintro ⟨hbefore, hafter⟩
    have hconflict : other ∈ s.roomConflicts schoolId dto.room ⟨dto.dayOfWeek, period⟩ none := by
      simp only [World.roomConflicts, List.mem_filter, decide_eq_true_eq]
      exact ⟨hother, by simp, hday, hroom, hend ▸ hbefore, hstart ▸ hafter, hschool⟩
    rw [h.roomFree] at hconflict
    cases hconflict
  createCourseSlot_mono {schoolId courseId dto s s'} hext hcourse haccepted := by
    obtain ⟨course', period, h⟩ := schoolService_iff.1 haccepted
    obtain ⟨course, hcourse⟩ := Option.isSome_iff_exists.1 hcourse
    exact schoolService_iff.2 ⟨course, period, h.mono hext hcourse⟩
  createCourse_mono _ _ := rfl

end SchoolService

/-- A third requirement, for which the class has no time left. -/
def threeRequirements : World :=
  { twoRequirements with
    teachers := .ofList [⟨"t1", none, none⟩, ⟨"t2", none, none⟩, ⟨"t3", none, none⟩]
    assignments := .ofList [⟨"t1", "s1", true⟩, ⟨"t2", "s1", true⟩, ⟨"t3", "s1", true⟩]
    subjects := .ofList
      [⟨"m1", "s1", "Maths", true⟩, ⟨"m2", "s1", "Droit", true⟩, ⟨"m3", "s1", "Sport", true⟩]
    requirements := .ofList [⟨"q1", "k1", "m1", 2⟩, ⟨"q2", "k1", "m2", 2⟩, ⟨"q3", "k1", "m3", 2⟩]
    requirementAssignments := .ofList [⟨"q1", "t1"⟩, ⟨"q2", "t2"⟩, ⟨"q3", "t3"⟩] }

def generateThree : Call GenerationResult :=
  generate (fun a b => if a < b then -1 else if b < a then 1 else 0) "s1" { academicYearId := "y1" }

/-- What the first generation meets: the identifiers of three courses and two slots. -/
def firstIds : List Id :=
  ["", "", "", "", "", "", "c1", "", "", "k1", "", "", "", "c2", "", "", "", "", "k2", "", "", "",
    "c3", "", "", "", ""]

def secondIds : List Id := List.replicate 6 ""

theorem isSome_first : (generateThree.alone (M := schoolService.model) none threeRequirements
    (firstIds.map .ok)).isSome = true := by decide +kernel

def firstEnd : Except Err GenerationResult × World :=
  (generateThree.alone (M := schoolService.model) none threeRequirements (firstIds.map .ok)).get
    isSome_first

theorem isSome_second : (generateThree.alone (M := schoolService.model) none firstEnd.2
    (secondIds.map .ok)).isSome = true := by decide +kernel

def secondEnd : Except Err GenerationResult × World :=
  (generateThree.alone (M := schoolService.model) none firstEnd.2 (secondIds.map .ok)).get
    isSome_second

theorem ran_first : Ran schoolService.model generateThree none threeRequirements firstEnd.1
    firstEnd.2 := ran_get isSome_first

theorem ran_second : Ran schoolService.model generateThree none firstEnd.2 secondEnd.1
    secondEnd.2 := ran_get isSome_second

/-- Two sessions are placed by the first generation, and one is missing after both. -/
theorem generate_idempotent_threeRequirements : firstEnd.2.slots.rows.length = 2 ∧
    ∃ first second, firstEnd.1 = .ok first ∧ secondEnd.1 = .ok second ∧ secondEnd.2 = firstEnd.2 ∧
      second.createdSlots = 0 ∧ second.unresolved.map UnresolvedItem.unexplained =
        first.unresolved.map UnresolvedItem.unexplained := by
  refine ⟨by decide +kernel, ?_⟩
  have hheld : HeldByAssigned threeRequirements := by rintro course ⟨⟩
  exact generate_idempotent schoolService_sound hheld ran_first ran_second

end GetPlatform.Timetable
