import GetPlatform.Store.Watch
import GetPlatform.Timetable.Idempotence

set_option autoImplicit false

/-! # What a generation has done when it ends

Any statement of a generation may fail. `Handled` is what the generation has done for a job once it
goes on to the next one, and `Links` what has become of the courses, however the generation ends: a
course is created by one statement and linked to its requirement by the next, so that a course is left
without a requirement when the second one fails. -/

namespace GetPlatform.Timetable

open Prog

/-- The statement that links a new course to its requirement. -/
def linksCourse : Stmt → Bool
  | .courseUpdate .. => true
  | _ => false

section Accounts

variable {s s' s'' : World} {b b' b'' : Bool} {E : Err → Bool → Option World → World → Prop}

@[simp] theorem watched_send {q : Stmt} {Q : Ans q → Bool → Option World → World → Prop}
    {saved : Option World} :
    @Prog.watched interface Err (no_index (Ans q)) model linksCourse (send q) Q E b saved s ↔
      (∀ f, E f (b || linksCourse q) saved s) ∧
        ∀ c a, exec q c s = some a → Q a b saved (model.applyAll (writes q a) s) := Iff.rfl

/-! ## The courses -/

/-- What has become of the courses: `b` tells whether a link has failed before, and `b'` after. -/
structure Links (jobs : List Job) (s s' : World) (b b' : Bool) : Prop where
  added : Added (jobs.map (·.id)) s s'
  linked : ∀ course ∈ s'.courses, course ∉ s.courses →
    (∃ job ∈ jobs, course.subjectRequirementId = some job.id ∧ course.subjectId = some job.subjectId) ∨
      course.subjectRequirementId = none ∧ b' = true
  orphan : b' = true → b = true ∨
    ∃ course ∈ s'.courses, course ∉ s.courses ∧ course.subjectRequirementId = none
  failed : b = true → b' = true
  unused : ∀ course ∈ s'.courses, course ∉ s.courses → ∀ slot ∈ s.slots, slot.courseId ≠ course.id

theorem Links.refl (jobs : List Job) (s : World) (b : Bool) : Links jobs s s b b :=
  ⟨.refl _ s, fun _ h h' => absurd h h', .inl, id, fun _ h h' => absurd h h'⟩

theorem Links.widen {jobs jobs' : List Job} (h : Links jobs s s' b b') (hsub : jobs ⊆ jobs') :
    Links jobs' s s' b b' := by
  refine ⟨h.added.widen (List.map_subset _ hsub), fun course hc hnew => ?_, h.orphan, h.failed,
    h.unused⟩
  rcases h.linked course hc hnew with ⟨job, hjob, hlink⟩ | horphan
  · exact .inl ⟨job, hsub hjob, hlink⟩
  · exact .inr horphan

theorem Links.trans {jobs : List Job} (h : Links jobs s s' b b') (h' : Links jobs s' s'' b' b'') :
    Links jobs s s'' b b'' := by
  have hext := h.added.to_extends
  have hext' := h'.added.to_extends
  refine ⟨h.added.trans h'.added, fun course hc hnew => ?_, fun hfailed => ?_, h'.failed ∘ h.failed,
    fun course hc hnew slot hslot => ?_⟩
  · by_cases hmem : course ∈ s'.courses
    · exact (h.linked course hmem hnew).imp id fun ⟨hnone, hfailed⟩ => ⟨hnone, h'.failed hfailed⟩
    · exact h'.linked course hc hmem
  · rcases h'.orphan hfailed with hfailed | ⟨course, hc, hnew, hnone⟩
    · refine (h.orphan hfailed).imp id ?_
      rintro ⟨course, hc, hnew, hnone⟩
      exact ⟨course, hext'.courses course hc, hnew, hnone⟩
    · exact .inr ⟨course, hc, fun hmem => hnew (hext.courses course hmem), hnone⟩
  · by_cases hmem : course ∈ s'.courses
    · exact h.unused course hmem hnew slot hslot
    · exact h'.unused course hc hmem slot (hext.slots slot hslot)

/-- Where only slots are added, the courses are as they were. -/
theorem Links.of_slots {job : Job} (hadded : Added [job.id] s s') (hcourses : s'.courses = s.courses) :
    Links [job] s s' b b :=
  ⟨hadded, fun _ hc hnew => absurd (hcourses ▸ hc) hnew, .inl, id,
    fun _ hc hnew => absurd (hcourses ▸ hc) hnew⟩

/-! ## The sessions of a job -/

/-- The sessions that have been placed for a course. -/
structure Booked (timeSlots : List SchoolTimeSlot) (requirementId : Id) (course : Course)
    (s s' : World) (g g' : Generation × Int) : Prop where
  added : Added [requirementId] s s'
  courses : s'.courses = s.courses
  created : s'.slots.rows.length + g.1.createdSlots = s.slots.rows.length + g'.1.createdSlots
  placed : (s'.sessionsOf course.id : Int) - s.sessionsOf course.id = g'.2 - g.2
  unresolved : g'.1.unresolved = g.1.unresolved
  booked : ∀ slot ∈ s'.slots, slot ∉ s.slots → slot.courseId = course.id ∧
    slot.teacherId = course.teacherId ∧ ∃ timeSlot ∈ timeSlots, slot.period = timeSlot.period

variable {timeSlots : List SchoolTimeSlot} {requirementId : Id} {course : Course}

theorem Booked.refl (g : Generation × Int) : Booked timeSlots requirementId course s s g g :=
  ⟨.refl _ s, rfl, rfl, by omega, rfl, fun _ h h' => absurd h h'⟩

theorem Booked.trans {g g' g'' : Generation × Int}
    (h : Booked timeSlots requirementId course s s' g g')
    (h' : Booked timeSlots requirementId course s' s'' g' g'') :
    Booked timeSlots requirementId course s s'' g g'' := by
  have hcreated := h.created
  have hcreated' := h'.created
  have hplaced := h.placed
  have hplaced' := h'.placed
  refine ⟨h.added.trans h'.added, h'.courses.trans h.courses, by omega, by omega,
    h'.unresolved.trans h.unresolved, fun slot hslot hnew => ?_⟩
  by_cases hmem : slot ∈ s'.slots
  · exact h.booked slot hmem hnew
  · exact h'.booked slot hslot hmem

/-- One session more. -/
theorem booked_slot {g : Generation} {placed : Int} {row : CourseSlot} {keys keys' : List String}
    (hcourse : s.courses.find? course.id = some course)
    (hlink : course.subjectRequirementId = some requirementId)
    (hfresh : s.slots.contains row.id = false) (hrow : row.courseId = course.id)
    (hteacher : row.teacherId = course.teacherId)
    (hperiod : ∃ timeSlot ∈ timeSlots, row.period = timeSlot.period) :
    Booked timeSlots requirementId course s (World.apply (.slot row) s) (g, placed)
      ({ g with
        usedTeacherSlots := keys, usedRoomSlots := keys', createdSlots := g.createdSlots + 1 },
        placed + 1) := by
  have hsessions := sessionsOf_slot hfresh
  have hrows : (World.apply (.slot row) s).slots.rows = s.slots.rows ++ [row] :=
    Table.rows_put_new (r := row) hfresh
  refine ⟨added_slot hfresh hcourse hrow hlink, rfl, ?_, ?_, rfl, fun slot hslot hnew => ?_⟩
  · rw [hrows, List.length_append, List.length_singleton]
    dsimp only
    omega
  · rw [hrow] at hsessions
    dsimp only
    omega
  · rw [Table.mem_def, hrows, List.mem_append] at hslot
    rcases hslot with hslot | hslot
    · exact absurd hslot hnew
    · rw [List.mem_singleton.1 hslot]
      exact ⟨hrow, hteacher, hperiod⟩

theorem tryRooms_watched {schoolId teacherId : Id} {sessionsToPlace : Int} {slotKey : CandidateSlot}
    {g : Generation × Int} {Q : Generation × Int → Bool → Option World → World → Prop}
    (hcourse : s.courses.find? course.id = some course)
    (hlink : course.subjectRequirementId = some requirementId)
    (hperiod : ∃ timeSlot ∈ timeSlots, slotKey.period = timeSlot.period)
    (hQ : ∀ next s', Booked timeSlots requirementId course s s' g next → Q next b none s')
    (rooms : List Room) :
    (tryRooms schoolId course.id teacherId sessionsToPlace slotKey rooms g).watched model linksCourse Q
      E b none s := by
  obtain ⟨g, placed⟩ := g
  induction rooms with
  | nil => exact hQ _ s (.refl _)
  | cons room rooms ih =>
      simp only [tryRooms, bind_eq, pure_eq, tryCatch_eq]
      rw [watched_ite]
      refine ⟨fun _ => hQ _ s (.refl _), fun _ => ?_⟩
      rw [watched_ite]
      refine ⟨fun _ => ih, fun _ => ?_⟩
      simp only [watched_handle, watched_send, linksCourse, Bool.or_false]
      refine ⟨fun _ => ih, fun c row hrow => hQ _ _ ?_⟩
      rw [exec_createCourseSlot hcourse] at hrow
      split at hrow
      · cases hrow
      · next hfresh =>
          obtain rfl := Option.some.inj hrow
          exact booked_slot hcourse hlink (Bool.eq_false_iff.2 hfresh) rfl rfl hperiod

theorem placeSessions_watched {schoolId teacherId classId : Id} {sessionsToPlace : Int}
    {rooms : List Room} {Q : Generation × Int → Bool → Option World → World → Prop}
    {g : Generation × Int} (hcourse : s.courses.find? course.id = some course)
    (hlink : course.subjectRequirementId = some requirementId)
    (hE : ∀ e next s', Booked timeSlots requirementId course s s' g next → E e b none s')
    (hQ : ∀ next s', Booked timeSlots requirementId course s s' g next → Q next b none s')
    (left : List SchoolTimeSlot) (hleft : left ⊆ timeSlots) :
    (placeSessions schoolId course.id teacherId classId sessionsToPlace rooms left g).watched model
      linksCourse Q E b none s := by
  induction left generalizing s g with
  | nil => exact hQ g s (.refl g)
  | cons timeSlot left ih =>
      obtain ⟨hmem, hleft⟩ := List.cons_subset.1 hleft
      have hskip := ih hcourse hE hQ hleft
      obtain ⟨g, placed⟩ := g
      simp only [placeSessions, bind_eq, pure_eq]
      rw [watched_ite]
      refine ⟨fun _ => hQ _ s (.refl _), fun _ => ?_⟩
      rw [watched_ite]
      refine ⟨fun _ => hskip, fun _ => ?_⟩
      simp only [isClassBusy, bind_eq, pure_eq, watched_handle, watched_send, watched_fail,
        watched_ret, linksCourse, Bool.or_false]
      refine ⟨fun _ => hE _ (g, placed) s (.refl _), fun _ conflict _ => ?_⟩
      rw [watched_ite]
      refine ⟨fun _ => hskip, fun _ => ?_⟩
      rw [watched_handle]
      refine tryRooms_watched hcourse hlink ⟨timeSlot, hmem, rfl⟩ (fun next s' hbooked => ?_) rooms
      exact ih (hbooked.courses ▸ hcourse) (fun e next' s'' h => hE e next' s'' (hbooked.trans h))
        (fun next' s'' h => hQ next' s'' (hbooked.trans h)) hleft

/-! ## The course of a job -/

theorem createCourse_watched {schoolId : Id} {dto : CreateSchoolCourseDto}
    {Q : Course → Bool → Option World → World → Prop} (hE : ∀ e, E e b none s)
    (hQ : ∀ row : Course, s.courses.find? row.id = none →
      (∀ slot ∈ s.slots, slot.courseId ≠ row.id) → row.subjectRequirementId = none →
      row.teacherId = dto.teacherId → row.subjectId = some dto.subjectId →
      Q row b none (World.apply (.course row) s)) :
    (createCourse schoolId dto).watched model linksCourse Q E b none s := by
  simp only [createCourse, ensureActiveTeacherAssignment, bind_eq, pure_eq, throw_eq, watched_handle,
    watched_send, watched_fail, linksCourse, Bool.or_false]
  refine ⟨fun _ => hE _, fun _ assignment _ => ?_⟩
  cases assignment with
  | none => exact hE _
  | some _ =>
      simp only [watched_ret, watched_handle, watched_send, watched_fail, linksCourse, Bool.or_false]
      refine ⟨fun _ => hE _, fun _ subject hsubject => ⟨fun _ => hE _, fun _ program _ => ?_⟩⟩
      split
      · next subject program =>
          simp only [watched_ite, watched_handle, watched_send, watched_fail, linksCourse,
            Bool.or_false]
          refine ⟨fun _ => hE _, fun _ => ⟨fun _ => hE _, fun c row hrow => ?_⟩⟩
          obtain ⟨hcourse, hslots⟩ := of_exec_courseCreate hrow
          have heq := eq_of_exec_courseCreate hrow
          obtain ⟨hsubject, -⟩ := Option.filter_eq_some_iff.1 (Option.some.inj hsubject)
          refine hQ row hcourse hslots (by rw [heq]) (by rw [heq]) ?_
          rw [heq]
          exact congrArg some (Table.key_of_find? hsubject)
      · exact hE _

theorem mem_course {row course : Course} (hfresh : s.courses.find? row.id = none) :
    course ∈ (World.apply (.course row) s).courses ↔ course ∈ s.courses ∨ course = row := by
  have hnew : s.courses.contains (Keyed.key row) = false := by
    rw [Table.contains, show s.courses.find? (Keyed.key row) = none from hfresh]
    rfl
  rw [World.apply, Table.mem_def, Table.rows_put_new hnew, List.mem_append, List.mem_singleton]
  rfl

/-- A new course that is not linked yet. -/
theorem added_orphan {row : Course} {requirementIds : List Id}
    (hfresh : s.courses.find? row.id = none) (hnone : row.subjectRequirementId = none) :
    Added requirementIds s (World.apply (.course row) s) := by
  have hnew : s.courses.contains (Keyed.key row) = false := by
    rw [Table.contains, show s.courses.find? (Keyed.key row) = none from hfresh]
    rfl
  refine ⟨rfl, ⟨[row], Table.rows_put_new hnew, fun course hc id hlink => ?_⟩,
    ⟨[], (List.append_nil _).symm, by simp⟩⟩
  rw [List.mem_singleton.1 hc, hnone] at hlink
  cases hlink

theorem not_mem_of_fresh {row course : Course} (hfresh : s.courses.find? row.id = none)
    (hid : course.id = row.id) : course ∉ s.courses := by
  intro hmem
  have hfind : s.courses.find? course.id = some course := Table.find?_key hmem
  rw [hid, hfresh] at hfind
  cases hfind

/-- The course of a job is one that it had, or one that is created and linked. If linking it fails, the
    course stays behind. -/
theorem courseOfJob_watched {schoolId teacherId programId : Id} {job : Job}
    {Q : Except String Id → Bool → Option World → World → Prop} (hread : ReadAt s job)
    (hok : ∀ course s', Links [job] s s' b b → s'.courseFor job.id = some course →
      s'.slots = s.slots → (s.courseFor job.id = none → course.teacherId = teacherId) →
      (s'.sessionsOf course.id : Int) = existingSessions job.course → Q (.ok course.id) b none s')
    (herror : ∀ message b' s', Links [job] s s' b b' → job.course = none → s'.slots = s.slots →
      s'.courseFor job.id = none → Q (.error message) b' none s') :
    (courseOfJob schoolId teacherId programId job).watched model linksCourse Q E b none s := by
  unfold courseOfJob
  split
  · next course slots hcourse =>
      have hcourse := hread.course.symm.trans hcourse
      obtain ⟨course', hfor, heq⟩ := Option.map_eq_some_iff.1 hcourse
      obtain ⟨rfl, rfl⟩ := Prod.mk.inj heq
      refine hok _ s (.refl _ s b) hfor rfl (fun hnone => ?_) ?_
      · rw [hfor] at hnone
        cases hnone
      · rw [hread.course, hcourse]
        rfl
  · next hnone =>
      have hfor : s.courseFor job.id = none := by
        simpa [World.courseOf] using hread.course.symm.trans hnone
      simp only [bind_eq, pure_eq, tryCatch_eq, watched_handle]
      refine createCourse_watched (fun e => ?_)
        fun row hfresh hunused hunlinked hteacher hsubject => ?_
      · rw [watched_fail]
        split <;> exact herror _ b s (.refl _ s b) hnone rfl hfor
      simp only [watched_handle, watched_send, watched_fail, watched_ret]
      refine ⟨fun f => ?_, fun c updated hupdated => ?_⟩
      · -- The link fails: the course is an orphan.
        have horphan : Added [] s (World.apply (.course row) s) := added_orphan hfresh hunlinked
        have hstill : (World.apply (.course row) s).courseFor job.id = none :=
          (horphan.courseFor_ne List.not_mem_nil).trans hfor
        have hlinks : Links [job] s (World.apply (.course row) s) b
            (b || linksCourse (.courseUpdate row.id job.id)) := by
          refine ⟨added_orphan hfresh hunlinked, fun course hc hnew => ?_, fun _ => .inr ?_, ?_, ?_⟩
          · obtain rfl := ((mem_course hfresh).1 hc).resolve_left hnew
            exact .inr ⟨hunlinked, Bool.or_true b⟩
          · exact ⟨row, (mem_course hfresh).2 (.inr rfl), not_mem_of_fresh hfresh rfl, hunlinked⟩
          · exact fun _ => Bool.or_true b
          · intro course hc hnew
            obtain rfl := ((mem_course hfresh).1 hc).resolve_left hnew
            exact hunused
        split <;> exact herror _ _ _ hlinks hnone rfl hstill
      · rw [exec_courseUpdate hfor] at hupdated
        obtain rfl := Option.some.inj hupdated
        have hlinked := @linked_course s row job.id hfresh
        have hempty : (s.slots.rows.filter fun slot => slot.courseId = row.id) = [] :=
          List.filter_eq_nil_iff.2 fun slot hslot heq => hunused slot hslot (of_decide_eq_true heq)
        have honly : ∀ course ∈ (World.apply (.course { row with subjectRequirementId := some job.id })
            (World.apply (.course row) s)).courses, course ∉ s.courses →
            course = { row with subjectRequirementId := some job.id } := by
          intro course hc hnew
          rw [Table.mem_def, hlinked.courses, List.mem_append, List.mem_singleton] at hc
          exact hc.resolve_left hnew
        have hdone := hok _ _ ⟨hlinked.added, fun course hc hnew => .inl ⟨job, .head _, ?_⟩, .inl, id,
          fun course hc hnew => ?_⟩ (hlinked.courseFor hfor) hlinked.slots (fun _ => hteacher)
        · refine hdone ?_
          rw [hnone, World.sessionsOf, hlinked.slots, hempty]
          rfl
        · rw [honly course hc hnew]
          exact ⟨rfl, hsubject⟩
        · rw [honly course hc hnew]
          exact hunused

/-! ## What is done for a job -/

/-- A slot that is created for a job, in the course that the job has or gets. -/
structure CreatedFor (timeSlots : List SchoolTimeSlot) (rooms : List Room) (job : Job)
    (s s' : World) (slot : CourseSlot) (course : Course) (teacher : Teacher) (programId : Id) :
    Prop where
  placeable : Placeable timeSlots rooms job teacher programId
  missing : 0 < missing timeSlots job (s.courseOf job.id)
  courseFor : s'.courseFor job.id = some course
  courseId : slot.courseId = course.id
  teacherId : slot.teacherId = course.teacherId
  newCourse : s.courseFor job.id = none → course.teacherId = teacher.id
  period : ∃ timeSlot ∈ timeSlots, slot.period = timeSlot.period

/-- The slots that are new were created for one of the jobs. -/
def Created (timeSlots : List SchoolTimeSlot) (rooms : List Room) (jobs : List Job) (s s' : World) :
    Prop :=
  ∀ slot ∈ s'.slots, slot ∉ s.slots → ∃ job ∈ jobs, ∃ course teacher programId,
    CreatedFor timeSlots rooms job s s' slot course teacher programId

structure Handled (timeSlots : List SchoolTimeSlot) (rooms : List Room) (jobs : List Job)
    (s s' : World) (g g' : Generation) : Prop where
  counted : s'.slots.rows.length + g.createdSlots = s.slots.rows.length + g'.createdSlots
  unresolved : g'.unresolved.map UnresolvedItem.unexplained =
    g.unresolved.map UnresolvedItem.unexplained ++
      jobs.flatMap fun job => (leftOver timeSlots rooms job (s'.courseOf job.id)).toList
  created : Created timeSlots rooms jobs s s'
  kept : ∀ job ∈ jobs, (∀ teacher programId, ¬ Placeable timeSlots rooms job teacher programId) →
    s'.courseOf job.id = s.courseOf job.id

theorem Created.of_slots {rooms : List Room} {jobs : List Job} (hslots : s'.slots = s.slots) :
    Created timeSlots rooms jobs s s' := fun _ hslot hnew => absurd (hslots ▸ hslot) hnew

/-- Nothing is done for a job that is left or needs nothing. -/
theorem Handled.untouched {rooms : List Room} {job : Job} {g g' : Generation}
    (hslots : s'.slots = s.slots) (hcreated : g'.createdSlots = g.createdSlots)
    (hunresolved : g'.unresolved.map UnresolvedItem.unexplained =
      g.unresolved.map UnresolvedItem.unexplained ++
        (leftOver timeSlots rooms job (s'.courseOf job.id)).toList)
    (hkept : (∀ teacher programId, ¬ Placeable timeSlots rooms job teacher programId) →
      s'.courseOf job.id = s.courseOf job.id) :
    Handled timeSlots rooms [job] s s' g g' := by
  refine ⟨by rw [hslots, hcreated], ?_, .of_slots hslots,
    fun job' hmem => List.mem_singleton.1 hmem ▸ hkept⟩
  rw [hunresolved, List.flatMap_singleton]

theorem placeJob_watched {schoolId : Id} {rooms : List Room} {job : Job} {g : Generation}
    {Q : Generation → Bool → Option World → World → Prop} (hread : ReadAt s job)
    (hE : ∀ e b' s', Links [job] s s' b b' → Created timeSlots rooms [job] s s' → E e b' none s')
    (hQ : ∀ g' b' s', Links [job] s s' b b' → Handled timeSlots rooms [job] s s' g g' →
      Q g' b' none s') :
    (placeJob schoolId timeSlots rooms job g).watched model linksCourse Q E b none s := by
  simp only [placeJob, bind_eq, pure_eq]
  split
  · next hassignment =>
      refine hQ _ b s (.refl _ s b) (.untouched rfl rfl ?_ fun _ => rfl)
      rw [unexplained_leave, leftOver, hassignment]
      rfl
  · next teacher programId program hassignment hprogramId hprogram =>
      rw [watched_ite]
      refine ⟨fun hunconfigured => hQ _ b s (.refl _ s b) (.untouched rfl rfl ?_ fun _ => rfl),
        fun hconfigured => ?_⟩
      · rw [unexplained_leave, leftOver, hassignment, hprogramId, hprogram]
        dsimp only
        rw [if_pos hunconfigured]
        rfl
      · have hplaceable : Placeable timeSlots rooms job teacher programId :=
          ⟨hassignment, hprogramId, by rw [hprogram]; rfl, hconfigured⟩
        rw [watched_ite]
        refine ⟨fun hdone => ?_, fun hneeded => ?_⟩
        · replace hdone : missing timeSlots job (s.courseOf job.id) ≤ 0 := by
            rw [← hread.course]
            exact hdone
          refine hQ g b s (.refl _ s b) (.untouched rfl rfl ?_ fun _ => rfl)
          rw [leftOver_of_placeable hplaceable, if_pos hdone]
          exact (List.append_nil _).symm
        · replace hneeded : ¬ missing timeSlots job job.course ≤ 0 := hneeded
          rw [watched_handle]
          refine courseOfJob_watched hread
            (fun course s' hlinks hfor hslots hteacher hsessions => ?_)
            fun message b' s' hlinks hnone hslots hfor => ?_
          · obtain ⟨hfind, hlink⟩ := courseFor_spec hfor
            dsimp only
            have hcreated : ∀ next s'', Booked timeSlots job.id course s' s'' (g, 0) next →
                Created timeSlots rooms [job] s s'' := by
              intro next s'' hbooked slot hslot hnew
              obtain ⟨hcourseId, hteacherId, hperiod⟩ := hbooked.booked slot hslot (hslots ▸ hnew)
              refine ⟨job, .head _, course, teacher, programId, hplaceable, ?_,
                hbooked.added.courseFor_of_some hfor, hcourseId, hteacherId, hteacher, hperiod⟩
              rw [← hread.course]
              omega
            rw [watched_handle]
            refine placeSessions_watched hfind hlink (fun e next s'' hbooked => ?_)
              (fun next s'' hbooked => ?_) timeSlots (List.Subset.refl _)
            · exact hE e b s'' (hlinks.trans (.of_slots hbooked.added hbooked.courses))
                (hcreated next s'' hbooked)
            have hlinks' := hlinks.trans (.of_slots hbooked.added hbooked.courses)
            have hfor' := hbooked.added.courseFor_of_some hfor
            replace hcreated := hcreated next s'' hbooked
            have hcounted := hbooked.created
            rw [hslots] at hcounted
            -- What is stored now is what was stored before and what was placed.
            have hexisting : existingSessions (s''.courseOf job.id) =
                existingSessions job.course + next.2 := by
              have := hbooked.placed
              rw [existingSessions_courseOf hfor']
              omega
            have hmissing : missing timeSlots job (s''.courseOf job.id) =
                missing timeSlots job job.course - next.2 := by
              rw [missing, missing, hexisting]
              omega
            have hunresolved : next.1.unresolved = g.unresolved := hbooked.unresolved
            rw [watched_ite]
            have hkept : ∀ job' ∈ [job],
                (∀ teacher programId, ¬ Placeable timeSlots rooms job' teacher programId) →
                s''.courseOf job'.id = s.courseOf job'.id := by
              intro job' hmem hnot
              rw [List.mem_singleton.1 hmem] at hnot
              exact absurd hplaceable (hnot _ _)
            refine ⟨fun hlt => hQ _ b s'' hlinks' ⟨hcounted, ?_, hcreated, hkept⟩,
              fun hge => hQ _ b s'' hlinks' ⟨hcounted, ?_, hcreated, hkept⟩⟩
            · replace hlt : next.2 < missing timeSlots job job.course := hlt
              rw [unexplained_leave, hunresolved, List.flatMap_singleton,
                leftOver_of_placeable hplaceable, if_neg (by omega), hexisting]
              rfl
            · replace hge : ¬ next.2 < missing timeSlots job job.course := hge
              rw [hunresolved, List.flatMap_singleton, leftOver_of_placeable hplaceable,
                if_pos (by omega)]
              exact (List.append_nil _).symm
          · refine hQ _ b' s' hlinks (.untouched hslots rfl ?_ fun h => absurd hplaceable (h _ _))
            rw [unexplained_leave, leftOver_of_placeable hplaceable,
              show s'.courseOf job.id = none by rw [World.courseOf, hfor]; rfl, if_neg]
            · rfl
            · rw [← hnone]
              exact hneeded
  · next hnone hsome =>
      refine hQ _ b s (.refl _ s b) (.untouched rfl rfl ?_ fun _ => rfl)
      rw [unexplained_leave, leftOver]
      split
      · rfl
      · next teacher programId program hassignment hprogramId hprogram =>
          exact absurd hprogram (hsome _ _ _ hassignment hprogramId)
      · rfl

/-- What is done for the other jobs does not change what was done for one. -/
theorem CreatedFor.later {rooms : List Room} {job : Job} {slot : CourseSlot} {teacher : Teacher}
    {programId : Id} (h : CreatedFor timeSlots rooms job s s' slot course teacher programId)
    {requirementIds : List Id} (hadded : Added requirementIds s' s'') :
    CreatedFor timeSlots rooms job s s'' slot course teacher programId :=
  { h with courseFor := hadded.courseFor_of_some h.courseFor }

theorem CreatedFor.earlier {rooms : List Room} {job : Job} {slot : CourseSlot} {teacher : Teacher}
    {programId : Id} (h : CreatedFor timeSlots rooms job s' s'' slot course teacher programId)
    {requirementIds : List Id} (hadded : Added requirementIds s s') (hother : job.id ∉ requirementIds) :
    CreatedFor timeSlots rooms job s s'' slot course teacher programId :=
  { h with
    missing := hadded.courseOf_ne hother ▸ h.missing
    newCourse := hadded.courseFor_ne hother ▸ h.newCourse }

theorem Created.widen {rooms : List Room} {jobs jobs' : List Job}
    (h : Created timeSlots rooms jobs s s') (hsub : jobs ⊆ jobs') :
    Created timeSlots rooms jobs' s s' := by
  intro slot hslot hnew
  obtain ⟨job, hjob, hcreated⟩ := h slot hslot hnew
  exact ⟨job, hsub hjob, hcreated⟩

theorem Created.cons {rooms : List Room} {job : Job} {jobs : List Job}
    {requirementIds requirementIds' : List Id} (h : Created timeSlots rooms [job] s s')
    (h' : Created timeSlots rooms jobs s' s'') (hadded : Added requirementIds s s')
    (hadded' : Added requirementIds' s' s'') (hother : ∀ job' ∈ jobs, job'.id ∉ requirementIds) :
    Created timeSlots rooms (job :: jobs) s s'' := by
  intro slot hslot hnew
  by_cases hmem : slot ∈ s'.slots
  · obtain ⟨job', hjob', course, teacher, programId, h⟩ := h slot hmem hnew
    rw [List.mem_singleton.1 hjob'] at h
    exact ⟨job, .head _, course, teacher, programId, h.later hadded'⟩
  · obtain ⟨job', hjob', course, teacher, programId, h⟩ := h' slot hslot hmem
    exact ⟨job', .tail _ hjob', course, teacher, programId, h.earlier hadded (hother job' hjob')⟩

theorem placeJobs_watched {schoolId : Id} {rooms : List Room}
    {Q : Generation → Bool → Option World → World → Prop} (jobs : List Job) (g : Generation)
    (hread : ∀ job ∈ jobs, ReadAt s job) (hdistinct : (jobs.map (·.id)).Nodup)
    (hE : ∀ e b' s', Links jobs s s' b b' → Created timeSlots rooms jobs s s' → E e b' none s')
    (hQ : ∀ g' b' s', Links jobs s s' b b' → Handled timeSlots rooms jobs s s' g g' →
      Q g' b' none s') :
    (placeJobs schoolId timeSlots rooms jobs g).watched model linksCourse Q E b none s := by
  induction jobs generalizing s b g with
  | nil =>
      exact hQ g b s (.refl _ s b)
        ⟨rfl, (List.append_nil _).symm, .of_slots rfl, fun _ h => by cases h⟩
  | cons job jobs ih =>
      obtain ⟨hnew, hdistinct⟩ := List.nodup_cons.1 hdistinct
      have hfirst : [job] ⊆ job :: jobs := fun _ h => List.mem_singleton.1 h ▸ List.mem_cons_self
      have hrest : jobs ⊆ job :: jobs := List.subset_cons_self _ _
      simp only [placeJobs, bind_eq, watched_handle]
      refine placeJob_watched (hread job (.head _))
        (fun e b' s' hlinks hcreated => hE e b' s' (hlinks.widen hfirst) (hcreated.widen hfirst))
        fun g' b' s' hlinks hhandled => ?_
      have hother : ∀ job' ∈ jobs, job'.id ∉ [job].map (·.id) := by
        intro job' hmem heq
        exact hnew (List.mem_map.2 ⟨job', hmem, List.mem_singleton.1 heq⟩)
      refine ih g' (fun job' hmem => (hread job' (.tail _ hmem)).mono hlinks.added (hother job' hmem))
        hdistinct
        (fun e b'' s'' hlinks' hcreated => hE e b'' s'' ((hlinks.widen hfirst).trans
          (hlinks'.widen hrest)) (hhandled.created.cons hcreated hlinks.added hlinks'.added hother))
        fun g'' b'' s'' hlinks' hhandled' => ?_
      refine hQ g'' b'' s'' ((hlinks.widen hfirst).trans (hlinks'.widen hrest)) ⟨?_, ?_,
        hhandled.created.cons hhandled'.created hlinks.added hlinks'.added hother, ?_⟩
      · have := hhandled.counted
        have := hhandled'.counted
        omega
      · rw [hhandled'.unresolved, hhandled.unresolved, List.flatMap_cons, List.flatMap_cons,
          List.flatMap_nil, List.append_nil, List.append_assoc, hlinks'.added.courseOf_ne hnew]
      · intro job' hmem hnot
        rcases List.mem_cons.1 hmem with rfl | hmem
        · rw [hlinks'.added.courseOf_ne hnew]
          exact hhandled.kept job' (.head _) hnot
        · rw [hhandled'.kept job' hmem hnot]
          exact hlinks.added.courseOf_ne (hother job' hmem)

end Accounts

/-! ## A generation -/

section Generations

variable {s s' : World} {localeCompare : String → String → Int} {schoolId : Id}
  {dto : GenerateScheduleDto}

/-- The active time slots of a school, in the order in which they are tried. -/
def World.activeTimeSlots (s : World) (schoolId : Id) : List SchoolTimeSlot :=
  orderBy
    (fun a b => a.dayOfWeek < b.dayOfWeek || a.dayOfWeek = b.dayOfWeek &&
      !(b.period.startTime < a.period.startTime))
    (s.timeSlots.rows.filter fun t => t.schoolId = schoolId ∧ t.isActive)

/-- The active rooms of a school, or the one that is asked for. -/
def World.activeRooms (s : World) (schoolId : Id) (roomId : Option Id) : List Room :=
  orderBy (fun a b => a.name ≤ b.name)
    (s.rooms.rows.filter fun r => r.schoolId = schoolId ∧ r.isActive ∧ roomId.all (· = r.id))

theorem generate_watched {Q : GenerationResult → Bool → Option World → World → Prop}
    {E : Err → Bool → Option World → World → Prop}
    (hE : ∀ e b' s', Links (s.jobs localeCompare schoolId dto) s s' false b' →
      Created (s.activeTimeSlots schoolId) (s.activeRooms schoolId dto.roomId)
        (s.jobs localeCompare schoolId dto) s s' → E e b' none s')
    (hQ : ∀ g b' s', Links (s.jobs localeCompare schoolId dto) s s' false b' →
      Handled (s.activeTimeSlots schoolId) (s.activeRooms schoolId dto.roomId)
        (s.jobs localeCompare schoolId dto) s s' {} g →
      Q ⟨g.createdSlots, g.unresolved⟩ b' none s') :
    (generate localeCompare schoolId dto).watched model linksCourse Q E false none s := by
  have hsame : ∀ e, E e false none s := fun e => hE e false s (.refl _ s false) (.of_slots rfl)
  simp only [generate, bind_eq, pure_eq, watched_handle, watched_send, watched_fail, linksCourse,
    Bool.or_false]
  refine ⟨fun f => hsame f, fun _ timeSlots htimeSlots => ⟨fun f => hsame f,
    fun _ rooms hrooms => ⟨fun f => hsame f, fun _ classes hclasses => ?_⟩⟩⟩
  obtain rfl := Option.some.inj htimeSlots
  obtain rfl := Option.some.inj hrooms
  obtain rfl := Option.some.inj hclasses
  exact placeJobs_watched _ {} (fun job hjob => readAt_of_mem hjob) nodup_jobs hE hQ

/-- What a run of the generation has done when it ends, normally or not. -/
structure Generated (localeCompare : String → String → Int) (schoolId : Id)
    (dto : GenerateScheduleDto) (s s' : World) (r : Except Err GenerationResult) (failed : Bool) :
    Prop where
  links : Links (s.jobs localeCompare schoolId dto) s s' false failed
  created : Created (s.activeTimeSlots schoolId) (s.activeRooms schoolId dto.roomId)
    (s.jobs localeCompare schoolId dto) s s'
  handled : ∀ result, r = .ok result → ∃ g : Generation, result = ⟨g.createdSlots, g.unresolved⟩ ∧
    Handled (s.activeTimeSlots schoolId) (s.activeRooms schoolId dto.roomId)
      (s.jobs localeCompare schoolId dto) s s' {} g

theorem of_generate {cs : List (Except Err Id)} {r : Except Err GenerationResult}
    (hrun : (generate localeCompare schoolId dto).alone (M := model) none s cs = some (r, s')) :
    Generated localeCompare schoolId dto s s' r
      ((generate localeCompare schoolId dto).failing model linksCourse none s cs) := by
  have h := watched_alone (P := fun r b s' => Generated localeCompare schoolId dto s s' r b)
    (generate_watched (fun e b' s' hlinks hcreated => ⟨hlinks, hcreated, fun _ h => by cases h⟩)
      fun g b' s' hlinks hhandled =>
        ⟨hlinks, hhandled.created, fun result h => ⟨g, (Except.ok.inj h).symm, hhandled⟩⟩)
    hrun
  exact h

end Generations

end GetPlatform.Timetable
