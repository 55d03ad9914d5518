import GetPlatform.Timetable.Agreement

set_option autoImplicit false

/-! # The timetable of a class

The generation places a session of a class only where the class has none yet. It reads that from the
stored slots, through the requirement of each course, so a course has to be linked to its requirement
before a slot of it is written, and the time must not be taken between the check and the write. -/

namespace GetPlatform.Timetable

open Prog

/-- No two slots of a class overlap. -/
def ClassSafe (s : World) : Prop :=
  ∀ a ∈ s.slots, ∀ b ∈ s.slots, a.id ≠ b.id → ∀ classId, s.classOf a = some classId →
    s.classOf b = some classId → a.dayOfWeek = b.dayOfWeek → a.period.overlaps b.period = false

/-- What the generation does to the database from one state to a later one. -/
structure Grown (s s' : World) : Prop where
  safe : ClassSafe s → ClassSafe s'
  requirements : s'.requirements = s.requirements
  courses : ∀ id course, s.courses.find? id = some course → s'.courses.find? id = some course

theorem Grown.refl (s : World) : Grown s s := ⟨id, rfl, fun _ _ h => h⟩

theorem Grown.trans {s s' s'' : World} (h : Grown s s') (h' : Grown s' s'') : Grown s s'' :=
  ⟨h'.safe ∘ h.safe, h'.requirements.trans h.requirements,
    fun id course hfind => h'.courses id course (h.courses id course hfind)⟩

/-- The course is the one of a requirement of the class. -/
def ForClass (s : World) (courseId classId : Id) : Prop :=
  ∃ course requirement, s.courses.find? courseId = some course ∧
    course.subjectRequirementId = some requirement.id ∧
    s.requirements.find? requirement.id = some requirement ∧ requirement.classId = classId

theorem ForClass.grown {s s' : World} {courseId classId : Id} (h : ForClass s courseId classId)
    (hgrown : Grown s s') : ForClass s' courseId classId := by
  obtain ⟨course, requirement, hcourse, hlinked, hrequirement, hclass⟩ := h
  refine ⟨course, requirement, hgrown.courses _ _ hcourse, hlinked, ?_, hclass⟩
  rw [hgrown.requirements]
  exact hrequirement

theorem ForClass.classOf {s : World} {courseId classId : Id} (h : ForClass s courseId classId)
    {slot : CourseSlot} (hslot : slot.courseId = courseId) : s.classOf slot = some classId := by
  obtain ⟨course, requirement, hcourse, hlinked, hrequirement, rfl⟩ := h
  simp [World.classOf, hslot, hcourse, hlinked, hrequirement]

/-! ## The writes -/

/-- A slot of the class goes where the class is free. -/
theorem grown_slot {s : World} {row : CourseSlot} {classId : Id}
    (hclass : ForClass s row.courseId classId)
    (hfree : s.classConflicts classId ⟨row.dayOfWeek, row.period⟩ = []) :
    Grown s (World.apply (.slot row) s) := by
  have hclassOf : ∀ slot, (World.apply (.slot row) s).classOf slot = s.classOf slot := fun _ => rfl
  -- The new slot keeps clear of those that the class has.
  have hnew : ∀ other ∈ s.slots, s.classOf other = some classId →
      other.dayOfWeek = row.dayOfWeek → row.period.overlaps other.period = false := by
    intro other hmem hother hday
    by_contra hoverlaps
    rw [Bool.not_eq_false] at hoverlaps
    have hconflict : other ∈ s.classConflicts classId ⟨row.dayOfWeek, row.period⟩ :=
      mem_classConflicts.2 ⟨hmem, hday, hother, hoverlaps⟩
    rw [hfree] at hconflict
    cases hconflict
  refine ⟨fun hsafe a ha b hb hne classId' hca hcb hday => ?_, rfl, fun _ _ h => h⟩
  rw [hclassOf] at hca hcb
  rcases Table.mem_put.1 ha with rfl | ⟨ha', -⟩ <;> rcases Table.mem_put.1 hb with rfl | ⟨hb', -⟩
  · exact absurd rfl hne
  · obtain rfl := Option.some.inj ((hclass.classOf rfl).symm.trans hca)
    exact hnew b hb' hcb hday.symm
  · obtain rfl := Option.some.inj ((hclass.classOf rfl).symm.trans hcb)
    rw [Period.overlaps_comm]
    exact hnew a ha' hca hday
  · exact hsafe a ha' b hb' hne classId' hca hcb hday

/-- A course that no slot refers to is written. -/
theorem grown_course {s s' : World} {id : Id} (hfresh : s.courses.find? id = none)
    (hunused : ∀ slot ∈ s.slots, slot.courseId ≠ id) (hslots : s'.slots = s.slots)
    (hrequirements : s'.requirements = s.requirements)
    (hcourses : ∀ other, other ≠ id → s'.courses.find? other = s.courses.find? other) :
    Grown s s' := by
  have hclassOf : ∀ slot ∈ s.slots, s'.classOf slot = s.classOf slot := by
    intro slot hslot
    simp only [World.classOf, hcourses _ (hunused slot hslot), hrequirements]
  refine ⟨fun hsafe a ha b hb hne classId hca hcb hday => ?_, hrequirements,
    fun other course hfind => ?_⟩
  · rw [hslots] at ha hb
    rw [hclassOf a ha] at hca
    rw [hclassOf b hb] at hcb
    exact hsafe a ha b hb hne classId hca hcb hday
  · refine (hcourses other ?_).trans hfind
    rintro rfl
    cases hfresh.symm.trans hfind

/-- Writing a course leaves the other courses alone. -/
theorem find?_course_ne {s : World} {row : Course} {id : Id} (h : id ≠ row.id) :
    (World.apply (.course row) s).courses.find? id = s.courses.find? id :=
  (Table.find?_put _ _ _).trans (if_neg h)

theorem find?_course_self (s : World) (row : Course) :
    (World.apply (.course row) s).courses.find? row.id = some row :=
  (Table.find?_put _ _ _).trans (if_pos rfl)

/-! ## The calls

Each call ends, with a result or an error, in a state that has grown. -/

section Calls

variable {E : Err → Option World → World → Prop} {s : World}

@[simp] theorem wp_send {q : Stmt} {Q : Ans q → Option World → World → Prop}
    {saved : Option World} :
    @Prog.wp interface Err (no_index (Ans q)) model (send q) Q E saved s ↔
      (∀ f, E f saved s) ∧
        ∀ c a, exec q c s = some a → Q a saved (model.applyAll (writes q a) s) := Iff.rfl

theorem of_exec_courseCreate {data row : Course} {c : Id}
    (h : exec (.courseCreate data) c s = some row) :
    s.courses.find? row.id = none ∧ ∀ slot ∈ s.slots, slot.courseId ≠ row.id := by
  simp only [exec] at h
  split at h
  · cases h
  · next hfresh =>
      obtain rfl := Option.some.inj h
      rw [not_or, Bool.not_eq_true, Table.contains, Option.isSome_eq_false_iff,
        Option.isNone_iff_eq_none, List.any_eq_true] at hfresh
      exact ⟨hfresh.1, fun slot hslot heq => hfresh.2 ⟨slot, hslot, decide_eq_true heq⟩⟩

/-- Exactly the slot that was asked for is created. -/
theorem of_exec_createCourseSlot {schoolId courseId room c : Id} {slotKey : CandidateSlot}
    {row : CourseSlot} (h : exec (.createCourseSlot schoolId courseId
      ⟨slotKey.dayOfWeek, slotKey.period.startTime, slotKey.period.endTime, room⟩) c s = some row) :
    row.courseId = courseId ∧ (⟨row.dayOfWeek, row.period⟩ : CandidateSlot) = slotKey := by
  simp only [exec, period?, dif_pos slotKey.period.ordered, Except.toOption, Option.bind_eq_bind,
    Option.bind_eq_some_iff] at h
  obtain ⟨course, -, period, hperiod, h⟩ := h
  obtain rfl := Option.some.inj hperiod
  split at h
  · cases h
  · obtain rfl := Option.some.inj h
    exact ⟨rfl, rfl⟩

theorem createCourse_wp {schoolId : Id} {dto : CreateSchoolCourseDto}
    {Q : Course → Option World → World → Prop} (hE : ∀ e, E e none s)
    (hQ : ∀ row : Course, s.courses.find? row.id = none →
      (∀ slot ∈ s.slots, slot.courseId ≠ row.id) → Q row none (World.apply (.course row) s)) :
    (createCourse schoolId dto).wp model Q E none s := by
  simp only [createCourse, ensureActiveTeacherAssignment, bind_eq, pure_eq, throw_eq, wp_handle,
    wp_send, wp_fail]
  refine ⟨fun _ => hE _, fun _ assignment _ => ?_⟩
  cases assignment with
  | none => exact hE _
  | some _ =>
      simp only [wp_ret, wp_handle, wp_send, wp_fail]
      refine ⟨fun _ => hE _, fun _ subject _ => ⟨fun _ => hE _, fun _ program _ => ?_⟩⟩
      split
      · simp only [wp_ite, wp_handle, wp_send, wp_fail]
        refine ⟨fun _ => hE _, fun _ => ⟨fun _ => hE _, fun c row hrow => ?_⟩⟩
        obtain ⟨hcourse, hslots⟩ := of_exec_courseCreate hrow
        exact hQ row hcourse hslots
      · exact hE _

/-- One session is placed at most, where the class is free. -/
theorem tryRooms_wp {schoolId courseId teacherId classId : Id} {sessionsToPlace : Int}
    {slotKey : CandidateSlot} {Q : Generation × Int → Option World → World → Prop}
    (hclass : ForClass s courseId classId) (hfree : s.classConflicts classId slotKey = [])
    (hQ : ∀ r s', Grown s s' → Q r none s') (rooms : List Room) (g : Generation × Int) :
    (tryRooms schoolId courseId teacherId sessionsToPlace slotKey rooms g).wp model Q E none s := by
  induction rooms generalizing g with
  | nil => exact hQ g s (.refl s)
  | cons room rooms ih =>
      obtain ⟨g, placed⟩ := g
      simp only [tryRooms, bind_eq, pure_eq, tryCatch_eq]
      rw [wp_ite]
      refine ⟨fun _ => hQ _ s (.refl s), fun _ => ?_⟩
      rw [wp_ite]
      refine ⟨fun _ => ih (g, placed), fun _ => ?_⟩
      simp only [wp_handle, wp_send, wp_ret]
      -- A room that is refused leaves everything as it was.
      refine ⟨fun _ => ih (g, placed), fun c row hrow => hQ _ _ ?_⟩
      obtain ⟨hcourse, hslot⟩ := of_exec_createCourseSlot hrow
      refine grown_slot (hcourse ▸ hclass) ?_
      rw [hslot]
      exact hfree

theorem placeSessions_wp {schoolId courseId teacherId classId : Id} {sessionsToPlace : Int}
    {rooms : List Room} {Q : Generation × Int → Option World → World → Prop}
    (hclass : ForClass s courseId classId) (hE : ∀ e s', Grown s s' → E e none s')
    (hQ : ∀ r s', Grown s s' → Q r none s') (timeSlots : List SchoolTimeSlot)
    (g : Generation × Int) :
    (placeSessions schoolId courseId teacherId classId sessionsToPlace rooms timeSlots g).wp model Q
      E none s := by
  induction timeSlots generalizing s g with
  | nil => exact hQ g s (.refl s)
  | cons timeSlot timeSlots ih =>
      obtain ⟨g, placed⟩ := g
      simp only [placeSessions, bind_eq, pure_eq]
      rw [wp_ite]
      refine ⟨fun _ => hQ _ s (.refl s), fun _ => ?_⟩
      rw [wp_ite]
      refine ⟨fun _ => ih hclass hE hQ (g, placed), fun _ => ?_⟩
      simp only [isClassBusy, bind_eq, pure_eq, wp_handle, wp_send, wp_fail, wp_ret]
      refine ⟨fun _ => hE _ _ (.refl s), fun _ conflict hconflict => ?_⟩
      have hconflict := Option.some.inj hconflict
      rw [wp_ite]
      refine ⟨fun _ => ih hclass hE hQ (g, placed), fun hfree => ?_⟩
      rw [wp_handle]
      rw [← hconflict, Bool.not_eq_true, Option.isSome_eq_false_iff, Option.isNone_iff_eq_none,
        List.head?_eq_none_iff] at hfree
      refine tryRooms_wp hclass hfree (fun r s' hgrown => ?_) rooms (g, placed)
      exact ih (hclass.grown hgrown) (fun e s'' h => hE e s'' (hgrown.trans h))
        (fun r s'' h => hQ r s'' (hgrown.trans h)) r

/-- What a job says of its class and its course is so in the database. -/
structure JobOf (s : World) (job : Job) : Prop where
  requirement : s.requirements.find? job.id = some job.toSubjectRequirement
  classId : job.classId = job.schoolClass.id
  course : ∀ course slots, job.course = some (course, slots) →
    s.courses.find? course.id = some course ∧ course.subjectRequirementId = some job.id

theorem JobOf.grown {s s' : World} {job : Job} (h : JobOf s job) (hgrown : Grown s s') :
    JobOf s' job := by
  refine ⟨?_, h.classId, fun course slots hcourse => ?_⟩
  · rw [hgrown.requirements]
    exact h.requirement
  · obtain ⟨hfind, hlinked⟩ := h.course course slots hcourse
    exact ⟨hgrown.courses _ _ hfind, hlinked⟩

/-- A course of a job is one of its class. -/
theorem courseOfJob_wp {schoolId teacherId programId : Id} {job : Job}
    {Q : Except String Id → Option World → World → Prop} (hjob : JobOf s job)
    (hQ : ∀ r s', Grown s s' → (∀ courseId, r = .ok courseId →
      ForClass s' courseId job.schoolClass.id) → Q r none s') :
    (courseOfJob schoolId teacherId programId job).wp model Q E none s := by
  unfold courseOfJob
  split
  · next course slots hcourse =>
      obtain ⟨hfind, hlinked⟩ := hjob.course course slots hcourse
      refine hQ _ s (.refl s) fun courseId hid => ?_
      obtain rfl := Except.ok.inj hid
      exact ⟨course, job.toSubjectRequirement, hfind, hlinked, hjob.requirement, hjob.classId⟩
  · simp only [bind_eq, pure_eq, tryCatch_eq, wp_handle]
    refine createCourse_wp (fun e => ?_) fun row hfresh hunused => ?_
    · rw [wp_fail]
      split <;> exact hQ _ s (.refl s) (by simp)
    have hgrown : Grown s (World.apply (.course row) s) :=
      grown_course hfresh hunused rfl rfl fun _ => find?_course_ne
    simp only [wp_handle, wp_send, wp_fail, wp_ret]
    refine ⟨fun e => ?_, fun c updated hupdated => ?_⟩
    · split <;> exact hQ _ _ hgrown (by simp)
    -- The new course is the one that is linked.
    obtain rfl : updated = { row with subjectRequirementId := some job.id } := by
      simp only [exec] at hupdated
      split at hupdated
      · cases hupdated
      · rw [find?_course_self] at hupdated
        exact (Option.some.inj hupdated).symm
    have hlinked : Grown s (World.apply (.course { row with subjectRequirementId := some job.id })
        (World.apply (.course row) s)) :=
      grown_course hfresh hunused rfl rfl fun other hne =>
        (@find?_course_ne _ { row with subjectRequirementId := some job.id } other hne).trans
          (find?_course_ne hne)
    refine hQ _ _ hlinked fun courseId hid => ?_
    obtain rfl := Except.ok.inj hid
    exact ⟨_, job.toSubjectRequirement, find?_course_self _ _, rfl, hjob.requirement, hjob.classId⟩

theorem placeJob_wp {schoolId : Id} {timeSlots : List SchoolTimeSlot} {rooms : List Room}
    {job : Job} {g : Generation} {Q : Generation → Option World → World → Prop} (hjob : JobOf s job)
    (hE : ∀ e s', Grown s s' → E e none s') (hQ : ∀ g s', Grown s s' → Q g none s') :
    (placeJob schoolId timeSlots rooms job g).wp model Q E none s := by
  have hskip : ∀ g, Q g none s := fun g => hQ g s (.refl s)
  simp only [placeJob, bind_eq, pure_eq]
  split
  · exact hskip _
  · rw [wp_ite]
    refine ⟨fun _ => hskip _, fun _ => ?_⟩
    rw [wp_ite]
    refine ⟨fun _ => hskip _, fun _ => ?_⟩
    rw [wp_handle]
    refine courseOfJob_wp hjob fun r s' hgrown hclass => ?_
    cases r with
    | error message => exact hQ _ s' hgrown
    | ok courseId =>
        rw [wp_handle]
        refine placeSessions_wp (hclass courseId rfl) (fun e s'' h => hE e s'' (hgrown.trans h))
          (fun r s'' h => ?_) timeSlots (g, 0)
        rw [wp_ite]
        exact ⟨fun _ => hQ _ s'' (hgrown.trans h), fun _ => hQ _ s'' (hgrown.trans h)⟩
  · exact hskip _

theorem placeJobs_wp {schoolId : Id} {timeSlots : List SchoolTimeSlot} {rooms : List Room}
    {Q : Generation → Option World → World → Prop} (jobs : List Job) (g : Generation)
    (hjobs : ∀ job ∈ jobs, JobOf s job) (hE : ∀ e s', Grown s s' → E e none s')
    (hQ : ∀ g s', Grown s s' → Q g none s') :
    (placeJobs schoolId timeSlots rooms jobs g).wp model Q E none s := by
  induction jobs generalizing s g with
  | nil => exact hQ g s (.refl s)
  | cons job jobs ih =>
      simp only [placeJobs, bind_eq, wp_handle]
      refine placeJob_wp (hjobs job (.head _)) hE fun g s' hgrown => ?_
      exact ih g (fun job' hmem => (hjobs job' (.tail _ hmem)).grown hgrown)
        (fun e s'' h => hE e s'' (hgrown.trans h)) (fun g s'' h => hQ g s'' (hgrown.trans h))

/-- A requirement that is read with its class is one of the class, and its course is linked to it. -/
theorem jobOf_of_mem {dto : GenerateScheduleDto} {c : SchoolClass} {r : RequirementRow}
    (h : r ∈ (s.classRow dto c).requirements) : JobOf s ⟨r, s.classRow dto c⟩ := by
  simp only [World.classRow, List.mem_filter, List.mem_filterMap] at h
  obtain ⟨⟨requirement, hmem, hrow⟩, -⟩ := h
  split at hrow
  · next hmatch =>
      simp only [World.requirementRow, Option.pure_def, Option.bind_eq_bind,
        Option.bind_eq_some_iff, Option.some.injEq] at hrow
      obtain ⟨subject, -, rfl⟩ := hrow
      refine ⟨Table.find?_key hmem, hmatch.1, fun course slots hcourse => ?_⟩
      obtain ⟨c', hc', heq⟩ := Option.map_eq_some_iff.1 hcourse
      obtain ⟨rfl, -⟩ := Prod.mk.inj heq
      have hlinked := List.find?_some
        (p := fun c : Course => decide (c.subjectRequirementId = some requirement.id)) hc'
      exact ⟨Table.find?_key (List.mem_of_find?_eq_some hc'), of_decide_eq_true hlinked⟩
  · cases hrow

/-- **A generation only grows the timetable**, however it ends. -/
theorem generate_wp {localeCompare : String → String → Int} {schoolId : Id}
    {dto : GenerateScheduleDto} :
    (generate localeCompare schoolId dto).wp model (fun _ saved s' => Grown s (saved.getD s'))
      (fun _ saved s' => Grown s (saved.getD s')) none s := by
  have hsame := Grown.refl s
  simp only [generate, bind_eq, pure_eq, wp_handle, wp_send, wp_fail]
  refine ⟨fun _ => hsame, fun _ timeSlots _ => ⟨fun _ => hsame, fun _ rooms _ => ⟨fun _ => hsame,
    fun _ classes hclasses => ?_⟩⟩⟩
  have hclasses := (Option.some.inj hclasses).symm
  refine placeJobs_wp _ _ (fun job hjob => ?_) (fun _ _ h => h) fun _ _ h => h
  rw [mem_orderBy, List.mem_flatMap] at hjob
  obtain ⟨row, hrow, hjob⟩ := hjob
  obtain ⟨r, hr, rfl⟩ := List.mem_map.1 hjob
  rw [hclasses] at hrow
  obtain ⟨c, -, rfl⟩ := List.mem_map.1 hrow
  exact jobOf_of_mem hr

end Calls

instance : Inhabited interface.Failure := ⟨Err.database⟩

/-- **A class is never double-booked.** If no two slots of a class overlap before the generation, none
    do in any state on its way. -/
theorem class_never_double_booked {s s' : World} {localeCompare : String → String → Int}
    {schoolId : Id} {dto : GenerateScheduleDto} (h₀ : ClassSafe s)
    (hrun : Through model (generate localeCompare schoolId dto) none s s') : ClassSafe s' :=
  (wp_through generate_wp hrun).safe h₀

/-- A call of `createCourseSlot` that succeeds is answered the same way by the statement, and writes the
    same row. -/
theorem createCourseSlot_exec {schoolId courseId id : Id} {dto : CreateCourseSlotDto} {s s' : World}
    (h : Timetable.createCourseSlot schoolId courseId dto id s = .ok s') :
    ∃ row, exec (.createCourseSlot schoolId courseId dto) id s = some row ∧
      s' = model.applyAll (writes (.createCourseSlot schoolId courseId dto) row) s := by
  obtain ⟨course, period, hcourse, hperiod, -, hid, rfl⟩ := createCourseSlot_ok h
  refine ⟨⟨id, courseId, course.teacherId, dto.dayOfWeek, period, dto.room⟩, ?_, rfl⟩
  simp [exec, (of_ensureSchoolCourse hcourse).1, hperiod, Except.toOption, hid]

def overlapping : Period := ⟨⟨"09:00", by decide⟩, ⟨"11:00", by decide⟩, by decide⟩

/-- A class with two requirements of one session each, and two time slots that overlap. -/
def twoRequirements : World :=
  { World.empty with
    teachers := .ofList [⟨"t1", none, none⟩, ⟨"t2", none, none⟩]
    assignments := .ofList [⟨"t1", "s1", true⟩, ⟨"t2", "s1", true⟩]
    subjects := .ofList [⟨"m1", "s1", "Maths", true⟩, ⟨"m2", "s1", "Droit", true⟩]
    programs := .ofList [⟨"p1", "s1", "Licence", true, 3⟩]
    timeSlots := .ofList
      [⟨"h1", "s1", 1, morning, none, true⟩, ⟨"h2", "s1", 1, overlapping, none, true⟩,
       ⟨"h3", "s1", 1, midday, none, true⟩]
    rooms := .ofList [⟨"r1", "s1", "A1", true⟩, ⟨"r2", "s1", "B", true⟩]
    classes := .ofList [⟨"k1", "s1", "y1", some "p1", "L1", none⟩]
    requirements := .ofList [⟨"q1", "k1", "m1", 2⟩, ⟨"q2", "k1", "m2", 2⟩]
    requirementAssignments := .ofList [⟨"q1", "t1"⟩, ⟨"q2", "t2"⟩] }

/-- What the generation meets: the identifiers of two courses and two slots. -/
def newIds : List (Except Err Id) :=
  (["", "", "", "", "", "", "c1", "", "", "k1", "", "", "", "c2", "", "", "", "", "k2"] :
    List Id).map .ok

/-- The second requirement is placed after the first, past the time slot that overlaps. -/
theorem class_never_double_booked_twoRequirements : ∃ s',
    s'.slots.rows.map (·.period.startTime.text) = ["08:00", "10:00"] ∧ ClassSafe s' := by
  refine ⟨(generate (fun a b => if a < b then -1 else if b < a then 1 else 0) "s1"
    { academicYearId := "y1" }).seen (M := model) none twoRequirements newIds, by decide +kernel, ?_⟩
  refine class_never_double_booked ?_ (through_seen (M := model) _ none twoRequirements newIds)
  rintro a ⟨⟩

end GetPlatform.Timetable
