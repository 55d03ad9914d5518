import GetPlatform.Order.PairKey
import GetPlatform.Store.Reliable
import GetPlatform.Timetable.ClassTimetable

set_option autoImplicit false

/-! # What the generation places

The generation of a timetable over a reliable database. A session is refused by `SchoolService` or is
stored for good; where no session of a requirement fits, none fits later either. `Progress` is what the
placing of sessions does to the database and to what the generation remembers, and `Settled` what it
leaves behind. -/

namespace GetPlatform.Timetable

open Prog

/-! ## The keys of a run -/

theorem toList_comboKey (entityKey : String) (slot : CandidateSlot) :
    (comboKey entityKey slot).toList = (entityKey.toList ++ '|' :: Nat.toDigits 10 slot.dayOfWeek) ++
      '|' :: slot.period.startTime.text.toList := by
  simp [comboKey, toString]

theorem bar_notMem_toDigits (n : Nat) : '|' ∉ Nat.toDigits 10 n := fun h =>
  absurd (Nat.isDigit_of_mem_toDigits (by decide) (by decide) h) (by decide)

theorem bar_notMem_time (t : Time) : '|' ∉ t.text.toList := by
  obtain ⟨h₁, h₂, m₁, m₂, ht, hh₁, hh₂, hm₁, hm₂, -⟩ := t.spelled
  have hne : ∀ c : Char, digit c = true → '|' ≠ c := by
    rintro c h rfl
    exact absurd h (by decide)
  simp [ht, hne _ hh₁, hne _ hh₂, hne _ hm₁, hne _ hm₂]

/-- A key tells whom it is for and when. -/
theorem comboKey_inj {a b : String} {slot slot' : CandidateSlot}
    (h : comboKey a slot = comboKey b slot') : a = b ∧ slot.dayOfWeek = slot'.dayOfWeek ∧
      slot.period.startTime = slot'.period.startTime := by
  have hlist := congrArg String.toList h
  rw [toList_comboKey, toList_comboKey] at hlist
  obtain ⟨hfront, htime⟩ := append_cons_inj_last (bar_notMem_time _) (bar_notMem_time _) hlist
  obtain ⟨hentity, hday⟩ :=
    append_cons_inj_last (bar_notMem_toDigits _) (bar_notMem_toDigits _) hfront
  refine ⟨String.toList_inj.1 hentity, ?_, ?_⟩
  · rw [← Nat.ofDigitChars_ten_toDigits (n := slot.dayOfWeek), hday, Nat.ofDigitChars_ten_toDigits]
  · have htext := String.toList_inj.1 htime
    cases hs : slot.period.startTime
    cases hs' : slot'.period.startTime
    rw [hs, hs'] at htext
    cases htext
    rfl

/-! ## The calls of `SchoolService` -/

/-- Which calls are accepted; the other ones throw, with no effect. -/
structure Services where
  createCourse : Course → World → Bool
  createCourseSlot : Id → Id → CreateCourseSlotDto → World → Bool

def Services.accepts (services : Services) : Stmt → World → Bool
  | .courseCreate data, s => services.createCourse data s
  | .createCourseSlot schoolId courseId dto, s => services.createCourseSlot schoolId courseId dto s
  | _, _ => true

abbrev Services.model (services : Services) : Model interface :=
  Timetable.model.checked services.accepts

/-- More courses and slots are stored; all else is the same. -/
structure Extends (s s' : World) : Prop where
  rest : s' = { s with courses := s'.courses, slots := s'.slots }
  courses : ∀ course ∈ s.courses, course ∈ s'.courses
  slots : ∀ slot ∈ s.slots, slot ∈ s'.slots

/-- What the generation relies on: a slot of a course of the school is refused when it overlaps with a
    slot of the same teacher, or of the same room of the school, and what is refused stays refused. -/
structure Services.Sound (services : Services) : Prop where
  ofSchool {schoolId courseId dto s} : services.createCourseSlot schoolId courseId dto s = true →
    ∀ course, s.courses.find? courseId = some course → course.schoolId = schoolId
  teacherFree {schoolId courseId dto s} : services.createCourseSlot schoolId courseId dto s = true →
    ∀ course, s.courses.find? courseId = some course → ∀ other ∈ s.slots,
      other.teacherId = course.teacherId → other.dayOfWeek = dto.dayOfWeek →
      ¬ (other.period.startTime < dto.endTime ∧ dto.startTime < other.period.endTime)
  roomFree {schoolId courseId dto s} : services.createCourseSlot schoolId courseId dto s = true →
    ∀ other ∈ s.slots, other.room = dto.room → s.schoolOf other = some schoolId →
      other.dayOfWeek = dto.dayOfWeek →
      ¬ (other.period.startTime < dto.endTime ∧ dto.startTime < other.period.endTime)
  createCourseSlot_mono {schoolId courseId dto s s'} : Extends s s' →
    s.courses.contains courseId = true →
    services.createCourseSlot schoolId courseId dto s' = true →
    services.createCourseSlot schoolId courseId dto s = true
  createCourse_mono {data s s'} : Extends s s' → services.createCourse data s' = true →
    services.createCourse data s = true

namespace Extends

theorem refl (s : World) : Extends s s := ⟨rfl, fun _ h => h, fun _ h => h⟩

theorem trans {s s' s'' : World} (h : Extends s s') (h' : Extends s' s'') : Extends s s'' := by
  refine ⟨?_, fun course hc => h'.courses _ (h.courses _ hc), fun slot hx => h'.slots _ (h.slots _ hx)⟩
  rw [h'.rest, h.rest]

variable {s s' : World}

theorem find?_course (h : Extends s s') {id : Id} {course : Course}
    (hfind : s.courses.find? id = some course) : s'.courses.find? id = some course := by
  obtain ⟨hmem, hkey⟩ := Table.find?_eq_some.1 hfind
  exact Table.find?_eq_some.2 ⟨h.courses course hmem, hkey⟩

theorem requirements (h : Extends s s') : s'.requirements = s.requirements := by rw [h.rest]

theorem classOf (h : Extends s s') {slot : CourseSlot} {classId : Id}
    (hclass : s.classOf slot = some classId) : s'.classOf slot = some classId := by
  simp only [World.classOf, Option.bind_eq_bind, Option.bind_eq_some_iff] at hclass ⊢
  obtain ⟨course, hcourse, id, hid, requirement, hrequirement, hclass⟩ := hclass
  exact ⟨course, h.find?_course hcourse, id, hid, requirement, h.requirements ▸ hrequirement, hclass⟩

theorem forClass (h : Extends s s') {courseId classId : Id} (hclass : ForClass s courseId classId) :
    ForClass s' courseId classId := by
  obtain ⟨course, requirement, hcourse, hlinked, hrequirement, rfl⟩ := hclass
  exact ⟨course, requirement, h.find?_course hcourse, hlinked, h.requirements ▸ hrequirement, rfl⟩

theorem schoolOf (h : Extends s s') {slot : CourseSlot} {schoolId : Id}
    (hschool : s.schoolOf slot = some schoolId) : s'.schoolOf slot = some schoolId := by
  obtain ⟨course, hcourse, rfl⟩ := Option.map_eq_some_iff.1 hschool
  exact Option.map_eq_some_iff.2 ⟨course, h.find?_course hcourse, rfl⟩

end Extends

/-! ## What is added -/

/-- The course of a requirement, with its slots. -/
def World.courseOf (s : World) (requirementId : Id) : Option (Course × List CourseSlot) :=
  (s.courseFor requirementId).map fun c => (c, s.slots.rows.filter (·.courseId = c.id))

/-- Courses are added, of some requirements or of none, and slots of the courses of these
    requirements. -/
structure Added (requirementIds : List Id) (s s' : World) : Prop where
  rest : s' = { s with courses := s'.courses, slots := s'.slots }
  courses : ∃ rows, s'.courses.rows = s.courses.rows ++ rows ∧
    ∀ course ∈ rows, ∀ id, course.subjectRequirementId = some id → id ∈ requirementIds
  slots : ∃ rows, s'.slots.rows = s.slots.rows ++ rows ∧ ∀ slot ∈ rows, ∃ course ∈ s'.courses,
    slot.courseId = course.id ∧ ∃ id ∈ requirementIds, course.subjectRequirementId = some id

namespace Added

variable {requirementIds requirementIds' : List Id} {s s' s'' : World}

theorem refl (requirementIds : List Id) (s : World) : Added requirementIds s s :=
  ⟨rfl, ⟨[], (List.append_nil _).symm, by simp⟩, ⟨[], (List.append_nil _).symm, by simp⟩⟩

theorem widen (h : Added requirementIds s s') (hsub : requirementIds ⊆ requirementIds') :
    Added requirementIds' s s' := by
  obtain ⟨hrest, ⟨courses, hcourses, hlinked⟩, ⟨slots, hslots, howned⟩⟩ := h
  refine ⟨hrest, ⟨courses, hcourses, fun course hc => ?_⟩, ⟨slots, hslots, fun slot hx => ?_⟩⟩
  · exact fun id hlink => hsub (hlinked course hc id hlink)
  · obtain ⟨course, hc, hcourse, id, hid, hlink⟩ := howned slot hx
    exact ⟨course, hc, hcourse, id, hsub hid, hlink⟩

theorem to_extends (h : Added requirementIds s s') : Extends s s' := by
  obtain ⟨hrest, ⟨courses, hcourses, -⟩, ⟨slots, hslots, -⟩⟩ := h
  refine ⟨hrest, fun course hc => ?_, fun slot hx => ?_⟩
  · rw [Table.mem_def, hcourses]
    exact List.mem_append_left _ hc
  · rw [Table.mem_def, hslots]
    exact List.mem_append_left _ hx

theorem trans (h : Added requirementIds s s') (h' : Added requirementIds s' s'') :
    Added requirementIds s s'' := by
  refine ⟨(h.to_extends.trans h'.to_extends).rest, ?_, ?_⟩
  · obtain ⟨rows, hrows, hlinked⟩ := h.courses
    obtain ⟨rows', hrows', hlinked'⟩ := h'.courses
    refine ⟨rows ++ rows', by rw [hrows', hrows, List.append_assoc], fun course hc => ?_⟩
    exact (List.mem_append.1 hc).elim (hlinked course) (hlinked' course)
  · obtain ⟨rows, hrows, howned⟩ := h.slots
    obtain ⟨rows', hrows', howned'⟩ := h'.slots
    refine ⟨rows ++ rows', by rw [hrows', hrows, List.append_assoc], fun slot hx => ?_⟩
    rcases List.mem_append.1 hx with hx | hx
    · obtain ⟨course, hc, hcourse⟩ := howned slot hx
      exact ⟨course, h'.to_extends.courses course hc, hcourse⟩
    · exact howned' slot hx

/-- The course that a requirement has stays its course. -/
theorem courseFor_of_some (h : Added requirementIds s s') {id : Id} {course : Course}
    (hcourse : s.courseFor id = some course) : s'.courseFor id = some course := by
  obtain ⟨rows, hrows, -⟩ := h.courses
  rw [World.courseFor] at hcourse
  rw [World.courseFor, hrows, List.find?_append, hcourse, Option.some_or]

theorem courseFor_ne (h : Added requirementIds s s') {id : Id} (hid : id ∉ requirementIds) :
    s'.courseFor id = s.courseFor id := by
  obtain ⟨rows, hrows, hlinked⟩ := h.courses
  have hnone : (rows.find? fun c => c.subjectRequirementId = some id) = none := by
    refine List.find?_eq_none.2 fun course hc => ?_
    rw [decide_eq_true_eq]
    exact fun hlink => hid (hlinked course hc id hlink)
  rw [World.courseFor, World.courseFor, hrows, List.find?_append, hnone, Option.or_none]

/-- A requirement for which nothing is added keeps its course and the slots of it. -/
theorem courseOf_ne (h : Added requirementIds s s') {id : Id} (hid : id ∉ requirementIds) :
    s'.courseOf id = s.courseOf id := by
  rw [World.courseOf, World.courseOf, h.courseFor_ne hid]
  cases hcourse : s.courseFor id with
  | none => rfl
  | some course =>
      obtain ⟨rows, hrows, howned⟩ := h.slots
      have hmem : course ∈ s'.courses :=
        h.to_extends.courses course (List.mem_of_find?_eq_some hcourse)
      have hlink : course.subjectRequirementId = some id := by
        simpa using List.find?_some hcourse
      have hnone : rows.filter (fun slot => slot.courseId = course.id) = [] := by
        refine List.filter_eq_nil_iff.2 fun slot hx hslot => ?_
        obtain ⟨course', hmem', hcourse', id', hid', hlink'⟩ := howned slot hx
        obtain rfl := Table.eq_of_key_eq hmem' hmem (hcourse'.symm.trans (of_decide_eq_true hslot))
        exact hid (Option.some.inj (hlink.symm.trans hlink') ▸ hid')
      simp only [Option.map_some, hrows, List.filter_append, hnone, List.append_nil]

end Added

theorem courseFor_spec {s : World} {id : Id} {course : Course}
    (h : s.courseFor id = some course) :
    s.courses.find? course.id = some course ∧ course.subjectRequirementId = some id := by
  refine ⟨Table.find?_key (List.mem_of_find?_eq_some h), ?_⟩
  simpa using List.find?_some h

/-! ## What the generation remembers -/

/-- The teachers and the rooms that are used have a slot stored for it. -/
structure Cached (schoolId : Id) (g : Generation) (s : World) : Prop where
  teachers : ∀ key ∈ g.usedTeacherSlots, ∃ slot ∈ s.slots,
    key = comboKey slot.teacherId ⟨slot.dayOfWeek, slot.period⟩
  rooms : ∀ key ∈ g.usedRoomSlots, ∃ slot ∈ s.slots, s.schoolOf slot = some schoolId ∧
    key = comboKey slot.room ⟨slot.dayOfWeek, slot.period⟩

theorem Cached.mono {schoolId : Id} {g : Generation} {s s' : World} (h : Cached schoolId g s)
    (hext : Extends s s') : Cached schoolId g s' := by
  refine ⟨fun key hkey => ?_, fun key hkey => ?_⟩
  · obtain ⟨slot, hslot, heq⟩ := h.teachers key hkey
    exact ⟨slot, hext.slots slot hslot, heq⟩
  · obtain ⟨slot, hslot, hschool, heq⟩ := h.rooms key hkey
    exact ⟨slot, hext.slots slot hslot, hext.schoolOf hschool, heq⟩

/-- Two slots that start together overlap. -/
theorem overlaps_of_startTime {p p' : Period} (h : p.startTime = p'.startTime) :
    p.startTime < p'.endTime ∧ p'.startTime < p.endTime :=
  ⟨h ▸ p'.ordered, h ▸ p.ordered⟩

/-- The number of slots that are stored for a course. -/
def World.sessionsOf (s : World) (courseId : Id) : Nat :=
  (s.slots.rows.filter (·.courseId = courseId)).length

/-- What the placing of sessions for a course has done, and how many it has placed. -/
structure Progress (schoolId : Id) (requirementId : Id) (course : Course) (s s' : World)
    (g g' : Generation × Int) : Prop where
  added : Added [requirementId] s s'
  cached : Cached schoolId g'.1 s'
  unresolved : g'.1.unresolved = g.1.unresolved
  placed : (s'.sessionsOf course.id : Int) - s.sessionsOf course.id = g'.2 - g.2

theorem Progress.refl {schoolId requirementId : Id} {course : Course} {s : World}
    {g : Generation × Int} (h : Cached schoolId g.1 s) :
    Progress schoolId requirementId course s s g g :=
  ⟨.refl _ s, h, rfl, by omega⟩

theorem Progress.le {schoolId requirementId : Id} {course : Course} {s s' : World}
    {g g' : Generation × Int} (h : Progress schoolId requirementId course s s' g g') : g.2 ≤ g'.2 := by
  have hgrown : s.sessionsOf course.id ≤ s'.sessionsOf course.id := by
    obtain ⟨rows, hrows, -⟩ := h.added.slots
    simp [World.sessionsOf, hrows]
  have := h.placed
  omega

theorem Progress.trans {schoolId requirementId : Id} {course : Course} {s s' s'' : World}
    {g g' g'' : Generation × Int} (h : Progress schoolId requirementId course s s' g g')
    (h' : Progress schoolId requirementId course s' s'' g' g'') :
    Progress schoolId requirementId course s s'' g g'' :=
  ⟨h.added.trans h'.added, h'.cached, h'.unresolved.trans h.unresolved, by
    have := h.placed
    have := h'.placed
    omega⟩

/-- The class has a session then, or every room is refused. -/
def Blocked (services : Services) (schoolId courseId classId : Id) (rooms : List Room)
    (slotKey : CandidateSlot) (s : World) : Prop :=
  s.classConflicts classId slotKey ≠ [] ∨ ∀ room ∈ rooms, services.createCourseSlot schoolId courseId
    ⟨slotKey.dayOfWeek, slotKey.period.startTime, slotKey.period.endTime, room.name⟩ s = false

theorem Blocked.mono {services : Services} (hsound : services.Sound)
    {schoolId courseId classId : Id} {rooms : List Room} {slotKey : CandidateSlot} {s s' : World}
    (h : Blocked services schoolId courseId classId rooms slotKey s) (hext : Extends s s')
    (hcourse : s.courses.contains courseId = true) :
    Blocked services schoolId courseId classId rooms slotKey s' := by
  refine h.imp (fun hbusy => ?_) fun hrefused room hroom => ?_
  · obtain ⟨other, hother⟩ := List.exists_mem_of_ne_nil _ hbusy
    obtain ⟨hmem, hday, hclass, hoverlaps⟩ := mem_classConflicts.1 hother
    exact List.ne_nil_of_mem (mem_classConflicts.2
      ⟨hext.slots other hmem, hday, hext.classOf hclass, hoverlaps⟩)
  · rw [← Bool.not_eq_true]
    intro haccepted
    have := hsound.createCourseSlot_mono hext hcourse haccepted
    rw [hrefused room hroom] at this
    cases this

/-! ## Placing the sessions of a course -/

section Sessions

variable {services : Services} {s : World} {schoolId requirementId classId : Id} {course : Course}

theorem exec_createCourseSlot {room c : Id} {slotKey : CandidateSlot}
    (hcourse : s.courses.find? course.id = some course) :
    exec (.createCourseSlot schoolId course.id
      ⟨slotKey.dayOfWeek, slotKey.period.startTime, slotKey.period.endTime, room⟩) c s =
      if s.slots.contains c then none
      else some ⟨c, course.id, course.teacherId, slotKey.dayOfWeek, slotKey.period, room⟩ := by
  simp [exec, hcourse, period?, dif_pos slotKey.period.ordered, Except.toOption]

/-- A slot that is refused is one that `SchoolService` does not accept. -/
theorem refused_createCourseSlot {room : Id} {slotKey : CandidateSlot}
    (hcourse : s.courses.find? course.id = some course)
    (h : services.model.Refused (.createCourseSlot schoolId course.id
      ⟨slotKey.dayOfWeek, slotKey.period.startTime, slotKey.period.endTime, room⟩) s) :
    services.createCourseSlot schoolId course.id
      ⟨slotKey.dayOfWeek, slotKey.period.startTime, slotKey.period.endTime, room⟩ s = false := by
  rcases Model.refused_checked.1 h with hrefused | hrefused
  · exact hrefused
  · obtain ⟨c, hfresh, -⟩ := s.slots.exists_fresh []
    have hnone := hrefused c
    rw [show Timetable.model.exec = exec from rfl, exec_createCourseSlot hcourse, hfresh] at hnone
    cases hnone

theorem sessionsOf_slot {row : CourseSlot} (hfresh : s.slots.contains row.id = false) :
    (World.apply (.slot row) s).sessionsOf row.courseId = s.sessionsOf row.courseId + 1 := by
  simp [World.sessionsOf, World.apply, Table.rows_put_new (r := row) hfresh, List.filter_append]

theorem added_slot {row : CourseSlot} (hfresh : s.slots.contains row.id = false)
    (hcourse : s.courses.find? course.id = some course) (hrow : row.courseId = course.id)
    (hlink : course.subjectRequirementId = some requirementId) :
    Added [requirementId] s (World.apply (.slot row) s) := by
  refine ⟨rfl, ⟨[], (List.append_nil _).symm, by simp⟩,
    ⟨[row], Table.rows_put_new (r := row) hfresh, fun slot hslot => ?_⟩⟩
  rw [List.mem_singleton.1 hslot]
  exact ⟨course, Table.mem_of_find? hcourse, hrow, requirementId, .head _, hlink⟩

/-- What a session that is placed does. -/
theorem progress_slot {g : Generation} {placed : Int} {slotKey : CandidateSlot} {room c : Id}
    (hcached : Cached schoolId g s) (hcourse : s.courses.find? course.id = some course)
    (hlink : course.subjectRequirementId = some requirementId)
    (hschool : course.schoolId = schoolId) (hfresh : s.slots.contains c = false) :
    Progress schoolId requirementId course s
      (World.apply (.slot
        ⟨c, course.id, course.teacherId, slotKey.dayOfWeek, slotKey.period, room⟩) s)
      (g, placed)
      ({ g with
        usedTeacherSlots := g.usedTeacherSlots ++ [comboKey course.teacherId slotKey]
        usedRoomSlots := g.usedRoomSlots ++ [comboKey room slotKey]
        createdSlots := g.createdSlots + 1 }, placed + 1) := by
  let row : CourseSlot := ⟨c, course.id, course.teacherId, slotKey.dayOfWeek, slotKey.period, room⟩
  have hadded : Added [requirementId] s (World.apply (.slot row) s) :=
    added_slot hfresh hcourse rfl hlink
  have hstored : row ∈ (World.apply (.slot row) s).slots := Table.mem_put.2 (.inl rfl)
  have hkept := hcached.mono hadded.to_extends
  refine ⟨hadded, ⟨fun key hkey => ?_, fun key hkey => ?_⟩, rfl, ?_⟩
  · rcases List.mem_append.1 hkey with hkey | hkey
    · exact hkept.teachers key hkey
    · exact ⟨row, hstored, List.mem_singleton.1 hkey⟩
  · rcases List.mem_append.1 hkey with hkey | hkey
    · exact hkept.rooms key hkey
    · refine ⟨row, hstored, ?_, List.mem_singleton.1 hkey⟩
      exact Option.map_eq_some_iff.2 ⟨course, hcourse, hschool⟩
  · have := @sessionsOf_slot s row hfresh
    show (((World.apply (.slot row) s).sessionsOf row.courseId : Nat) : Int) -
      s.sessionsOf row.courseId = placed + 1 - placed
    omega

/-- A room that is used at that time is refused. -/
theorem refused_of_used (hsound : services.Sound) {g : Generation} {slotKey : CandidateSlot}
    {room courseId : Id} (hcached : Cached schoolId g s)
    (hused : comboKey room slotKey ∈ g.usedRoomSlots) :
    services.createCourseSlot schoolId courseId
      ⟨slotKey.dayOfWeek, slotKey.period.startTime, slotKey.period.endTime, room⟩ s = false := by
  rw [← Bool.not_eq_true]
  intro haccepted
  obtain ⟨other, hother, hschool, hkey⟩ := hcached.rooms _ hused
  obtain ⟨hroom, hday, hstart⟩ := comboKey_inj hkey
  exact hsound.roomFree haccepted other hother hroom.symm hschool hday.symm
    (overlaps_of_startTime hstart.symm)

/-- So is every room for a teacher who is. -/
theorem blocked_of_used (hsound : services.Sound) {g : Generation} {slotKey : CandidateSlot}
    {rooms : List Room} (hcached : Cached schoolId g s)
    (hcourse : s.courses.find? course.id = some course)
    (hused : comboKey course.teacherId slotKey ∈ g.usedTeacherSlots) :
    Blocked services schoolId course.id classId rooms slotKey s := by
  refine .inr fun room _ => ?_
  rw [← Bool.not_eq_true]
  intro haccepted
  obtain ⟨other, hother, hkey⟩ := hcached.teachers _ hused
  obtain ⟨hteacher, hday, hstart⟩ := comboKey_inj hkey
  exact hsound.teacherFree haccepted course hcourse other hother hteacher.symm hday.symm
    (overlaps_of_startTime hstart.symm)

/-- A class is busy when it has a session. -/
theorem busy_slot {slotKey : CandidateSlot} {room c : Id} (hclass : ForClass s course.id classId) :
    (World.apply (.slot
        ⟨c, course.id, course.teacherId, slotKey.dayOfWeek, slotKey.period, room⟩) s).classConflicts
      classId slotKey ≠ [] := by
  refine List.ne_nil_of_mem (mem_classConflicts.2 ⟨Table.mem_put.2 (.inl rfl), rfl, ?_, ?_⟩)
  · exact hclass.classOf rfl
  · exact Period.overlaps_iff.2 (overlaps_of_startTime rfl)

variable {E : Err → Option World → World → Prop}

/-- A session is placed in one of the rooms, or it is refused in all of them. -/
theorem tryRooms_reliably (hsound : services.Sound) {sessionsToPlace : Int}
    {slotKey : CandidateSlot} {g : Generation} {placed : Int}
    {Q : Generation × Int → Option World → World → Prop} (hcached : Cached schoolId g s)
    (hcourse : s.courses.find? course.id = some course)
    (hlink : course.subjectRequirementId = some requirementId)
    (hclass : ForClass s course.id classId) (rooms : List Room)
    (hQ : ∀ next s', Progress schoolId requirementId course s s' (g, placed) next →
      (next.2 < sessionsToPlace →
        Blocked services schoolId course.id classId rooms slotKey s') → Q next none s') :
    (tryRooms schoolId course.id course.teacherId sessionsToPlace slotKey rooms (g, placed)).reliably
      services.model Q E none s := by
  induction rooms with
  | nil => exact hQ _ s (.refl hcached) fun _ => .inr fun _ h => by cases h
  | cons room rooms ih =>
      have hskip : services.createCourseSlot schoolId course.id
          ⟨slotKey.dayOfWeek, slotKey.period.startTime, slotKey.period.endTime, room.name⟩ s = false →
          (tryRooms schoolId course.id course.teacherId sessionsToPlace slotKey rooms
            (g, placed)).reliably services.model Q E none s := by
        intro hrefused
        refine ih fun next s' hprogress hblocked => hQ next s' hprogress fun hlt => ?_
        have hext := hprogress.added.to_extends
        have hroom : Blocked services schoolId course.id classId [room] slotKey s :=
          .inr fun room' h => List.mem_singleton.1 h ▸ hrefused
        rcases hblocked hlt with hbusy | hrooms
        · exact .inl hbusy
        · rcases hroom.mono hsound hext (Option.isSome_iff_exists.2 ⟨_, hcourse⟩) with hbusy | hroom
          · exact .inl hbusy
          · refine .inr fun room' h => ?_
            rcases List.mem_cons.1 h with rfl | h
            · exact hroom _ (.head _)
            · exact hrooms _ h
      simp only [tryRooms, bind_eq, pure_eq, tryCatch_eq]
      rw [reliably_ite]
      refine ⟨fun hdone => hQ _ s (.refl hcached) fun hlt => by omega, fun _ => ?_⟩
      rw [reliably_ite]
      refine ⟨fun hused => hskip (refused_of_used hsound hcached hused), fun _ => ?_⟩
      simp only [reliably_handle]
      refine ⟨fun hrefused _ => hskip (refused_createCourseSlot hcourse hrefused),
        fun c row hrow => ?_⟩
      obtain ⟨haccepted, hrow⟩ := Model.exec_checked.1 hrow
      rw [show Timetable.model.exec = exec from rfl, exec_createCourseSlot hcourse] at hrow
      split at hrow
      · cases hrow
      · next hfresh =>
          obtain rfl := Option.some.inj hrow
          refine hQ _ _ ?_ fun _ => .inl (busy_slot hclass)
          exact progress_slot hcached hcourse hlink (hsound.ofSchool haccepted course hcourse)
            (Bool.eq_false_iff.2 hfresh)

theorem isClassBusy_reliably {slotKey : CandidateSlot} {Q : Bool → Option World → World → Prop}
    (hQ : ∀ busy, (busy = true ↔ s.classConflicts classId slotKey ≠ []) → Q busy none s) :
    (isClassBusy classId slotKey).reliably services.model Q E none s := by
  simp only [isClassBusy, bind_eq, pure_eq, reliably_handle]
  refine (reliably_answer (M := services.model) _ fun _ => rfl).2 (hQ _ ?_)
  rw [List.isSome_head?]

/-- Where fewer sessions are placed than asked for, no time slot is left for one. -/
theorem placeSessions_reliably (hsound : services.Sound) {sessionsToPlace : Int} {rooms : List Room}
    (hlink : course.subjectRequirementId = some requirementId) {g : Generation × Int}
    {Q : Generation × Int → Option World → World → Prop} (hcached : Cached schoolId g.1 s)
    (hcourse : s.courses.find? course.id = some course)
    (hclass : ForClass s course.id classId) (timeSlots : List SchoolTimeSlot)
    (hQ : ∀ next s', Progress schoolId requirementId course s s' g next →
      (next.2 < sessionsToPlace → ∀ timeSlot ∈ timeSlots, Blocked services schoolId course.id classId
        rooms ⟨timeSlot.dayOfWeek, timeSlot.period⟩ s') → Q next none s') :
    (placeSessions schoolId course.id course.teacherId classId sessionsToPlace rooms timeSlots
      g).reliably services.model Q E none s := by
  induction timeSlots generalizing s g with
  | nil => exact hQ g s (.refl hcached) fun _ _ h => by cases h
  | cons timeSlot timeSlots ih =>
      obtain ⟨g, placed⟩ := g
      -- Past a time slot at which the first sessions stopped, the others go on.
      have hnext : ∀ next s', Progress schoolId requirementId course s s' (g, placed) next →
          (next.2 < sessionsToPlace → Blocked services schoolId course.id classId rooms
            ⟨timeSlot.dayOfWeek, timeSlot.period⟩ s') →
          (placeSessions schoolId course.id course.teacherId classId sessionsToPlace rooms timeSlots
            next).reliably services.model Q E none s' := by
        intro next s' hprogress hblocked
        have hcourse' := hprogress.added.to_extends.find?_course hcourse
        refine ih hprogress.cached hcourse' (hprogress.added.to_extends.forClass hclass)
          fun last s'' hmore hrest => hQ last s'' (hprogress.trans hmore) fun hlt timeSlot' hmem => ?_
        rcases List.mem_cons.1 hmem with rfl | hmem
        · refine (hblocked ?_).mono hsound hmore.added.to_extends
            (Option.isSome_iff_exists.2 ⟨_, hcourse'⟩)
          exact lt_of_le_of_lt hmore.le hlt
        · exact hrest hlt timeSlot' hmem
      simp only [placeSessions, bind_eq, pure_eq]
      rw [reliably_ite]
      refine ⟨fun hdone => hQ _ s (.refl hcached) fun hlt => by omega, fun _ => ?_⟩
      rw [reliably_ite]
      refine ⟨fun hused => hnext _ s (.refl hcached) fun _ => ?_, fun _ => ?_⟩
      · exact blocked_of_used hsound hcached hcourse hused
      · rw [reliably_handle]
        refine isClassBusy_reliably fun busy hbusy => ?_
        rw [reliably_ite]
        refine ⟨fun h => hnext _ s (.refl hcached) fun _ => .inl (hbusy.1 h), fun _ => ?_⟩
        rw [reliably_handle]
        exact tryRooms_reliably hsound hcached hcourse hlink hclass rooms hnext

/-! ## Where nothing is left to place -/

theorem tryRooms_refused {courseId teacherId : Id} {sessionsToPlace : Int} {slotKey : CandidateSlot}
    {g : Generation × Int} {Q : Generation × Int → Option World → World → Prop} {rooms : List Room}
    (hrefused : ∀ room ∈ rooms, services.createCourseSlot schoolId courseId
      ⟨slotKey.dayOfWeek, slotKey.period.startTime, slotKey.period.endTime, room.name⟩ s = false)
    (hQ : Q g none s) :
    (tryRooms schoolId courseId teacherId sessionsToPlace slotKey rooms g).reliably services.model Q E
      none s := by
  induction rooms with
  | nil => exact hQ
  | cons room rooms ih =>
      obtain ⟨g, placed⟩ := g
      have hskip := ih fun room' h => hrefused room' (.tail _ h)
      simp only [tryRooms, bind_eq, pure_eq, tryCatch_eq]
      rw [reliably_ite]
      refine ⟨fun _ => hQ, fun _ => ?_⟩
      rw [reliably_ite]
      refine ⟨fun _ => hskip, fun _ => ?_⟩
      simp only [reliably_handle]
      refine ⟨fun _ _ => hskip, fun c row hrow => ?_⟩
      -- The room is refused, so there is no slot to be answered.
      have haccepted := (Model.exec_checked.1 hrow).1
      exact absurd haccepted (by simp [Services.accepts, hrefused room (.head _)])

theorem placeSessions_blocked {courseId teacherId : Id} {sessionsToPlace : Int} {rooms : List Room}
    {g : Generation × Int} {Q : Generation × Int → Option World → World → Prop}
    {timeSlots : List SchoolTimeSlot}
    (hblocked : ∀ timeSlot ∈ timeSlots, Blocked services schoolId courseId classId rooms
      ⟨timeSlot.dayOfWeek, timeSlot.period⟩ s) (hQ : Q g none s) :
    (placeSessions schoolId courseId teacherId classId sessionsToPlace rooms timeSlots g).reliably
      services.model Q E none s := by
  induction timeSlots with
  | nil => exact hQ
  | cons timeSlot timeSlots ih =>
      obtain ⟨g, placed⟩ := g
      have hskip := ih fun timeSlot' h => hblocked timeSlot' (.tail _ h)
      simp only [placeSessions, bind_eq, pure_eq]
      rw [reliably_ite]
      refine ⟨fun _ => hQ, fun _ => ?_⟩
      rw [reliably_ite]
      refine ⟨fun _ => hskip, fun _ => ?_⟩
      rw [reliably_handle]
      refine isClassBusy_reliably fun busy hbusy => ?_
      rw [reliably_ite]
      refine ⟨fun _ => hskip, fun hfree => ?_⟩
      rw [reliably_handle]
      rcases hblocked timeSlot (.head _) with h | hrefused
      · exact absurd (hbusy.2 h) hfree
      · exact tryRooms_refused hrefused hskip

end Sessions

end GetPlatform.Timetable
