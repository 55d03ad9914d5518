import Mathlib.Logic.Relation
import GetPlatform.Store.Keeps
import GetPlatform.Timetable.Idempotence
import GetPlatform.Timetable.TeacherTimetable

set_option autoImplicit false

/-! # Teachers and rooms

Slots are written by the administrators of the schools and by the generation, which calls the same
service. Whatever it has written before it fails, what stands is in order: neither a teacher nor a room
is taken twice, and teachers have the time to travel. -/

namespace GetPlatform.Timetable

open Prog

/-! ## Rooms -/

/-- The room of the row is free in the school of its course. -/
def RoomFree (s : World) (row : CourseSlot) : Prop :=
  ∀ other ∈ s.slots, other.id ≠ row.id → other.room = row.room → other.dayOfWeek = row.dayOfWeek →
    s.schoolOf other = s.schoolOf row → row.period.overlaps other.period = false

/-- No room of a school is taken twice. -/
def RoomsApart (s : World) : Prop :=
  ∀ a ∈ s.slots, ∀ b ∈ s.slots, a.id ≠ b.id → a.room = b.room → a.dayOfWeek = b.dayOfWeek →
    s.schoolOf a = s.schoolOf b → a.period.overlaps b.period = false

theorem RoomsApart.of_subset {s s' : World} (h : RoomsApart s)
    (hslots : ∀ slot ∈ s'.slots, slot ∈ s.slots)
    (hschool : ∀ slot ∈ s'.slots, s'.schoolOf slot = s.schoolOf slot) : RoomsApart s' := by
  intro a ha b hb hne hroom hday hsame
  rw [hschool a ha, hschool b hb] at hsame
  exact h a (hslots a ha) b (hslots b hb) hne hroom hday hsame

theorem RoomsApart.write {s : World} (h : RoomsApart s) {row : CourseSlot} (hrow : RoomFree s row) :
    RoomsApart { s with slots := s.slots.put row } := by
  intro a ha b hb hne hroom hday hschool
  rcases Table.mem_put.1 ha with rfl | ⟨ha', -⟩ <;> rcases Table.mem_put.1 hb with rfl | ⟨hb', -⟩
  · exact absurd rfl hne
  · exact hrow b hb' hne.symm hroom.symm hday.symm hschool.symm
  · rw [Period.overlaps_comm]
    exact hrow a ha' hne hroom hday hschool
  · exact h a ha' b hb' hne hroom hday hschool

/-- The check of the service leaves the room free. -/
theorem RoomFree.of_ensureNoRoomConflict {s : World} {schoolId : Id} (excludedSlotId : Option Id)
    {row : CourseSlot} {u : Unit} (hschool : s.schoolOf row = some schoolId)
    (hexcluded : ∀ id, excludedSlotId = some id → id = row.id)
    (h : ensureNoRoomConflict schoolId row.room ⟨row.dayOfWeek, row.period⟩ excludedSlotId s = .ok u) :
    RoomFree s row := by
  unfold ensureNoRoomConflict at h
  split at h
  · next hempty =>
      intro other hother hne hroom hday hsame
      by_contra hoverlaps
      obtain ⟨hstart, hend⟩ := Period.overlaps_iff.1 (Bool.not_eq_false _ ▸ hoverlaps)
      have hconflict : other ∈ s.roomConflicts schoolId row.room ⟨row.dayOfWeek, row.period⟩
          excludedSlotId := by
        refine List.mem_filter.2 ⟨hother, decide_eq_true ⟨fun hex => hne (hexcluded _ hex), hday, hroom,
          hend, hstart, hsame.trans hschool⟩⟩
      rw [List.isEmpty_iff.1 hempty] at hconflict
      cases hconflict
  · cases h

/-! ## Operations -/

theorem roomFree_of_createCourseSlot {schoolId courseId id : Id} {dto : CreateCourseSlotDto}
    {s s' : World} (h : createCourseSlot schoolId courseId dto id s = .ok s') :
    ∃ row, RoomFree s row ∧ s' = { s with slots := s.slots.put row } := by
  unfold createCourseSlot at h
  obtain ⟨course, hcourse, h⟩ := bind_ok h
  obtain ⟨period, -, h⟩ := bind_ok h
  obtain ⟨_, hroom, h⟩ := bind_ok h
  obtain ⟨_, -, h⟩ := bind_ok h
  obtain ⟨hfind, hschool⟩ := of_ensureSchoolCourse hcourse
  by_cases hid : s.slots.contains id = true
  · rw [if_pos hid] at h
    cases h
  · rw [if_neg hid] at h
    refine ⟨_, RoomFree.of_ensureNoRoomConflict none ?_ (fun _ hex => ?_) hroom,
      of_writeSlot h⟩
    · rw [World.schoolOf, hfind, Option.map_some, hschool]
    · cases hex

theorem roomFree_of_updateCourseSlot {schoolId courseId slotId : Id} {dto : UpdateCourseSlotDto}
    {s s' : World} (h : updateCourseSlot schoolId courseId slotId dto s = .ok s') :
    ∃ row, RoomFree s row ∧ s' = { s with slots := s.slots.put row } := by
  unfold updateCourseSlot at h
  obtain ⟨course, hcourse, h⟩ := bind_ok h
  obtain ⟨hfind, hschool⟩ := of_ensureSchoolCourse hcourse
  split at h
  · cases h
  · next slot hslot =>
      obtain ⟨period, -, h⟩ := bind_ok h
      obtain ⟨_, hroom, h⟩ := bind_ok h
      obtain ⟨_, -, h⟩ := bind_ok h
      obtain ⟨hslot, hsame⟩ := Option.filter_eq_some_iff.1 hslot
      have hcourseId : slot.courseId = courseId := of_decide_eq_true hsame
      have hid : slot.id = slotId := Table.key_of_find? hslot
      refine ⟨_, RoomFree.of_ensureNoRoomConflict (some slotId) ?_ (fun _ hex => ?_)
        hroom, of_writeSlot h⟩
      · rw [World.schoolOf, hcourseId, hfind, Option.map_some, hschool]
      · exact (Option.some.inj hex).symm.trans hid.symm

theorem RoomsApart.run {s s' : World} (h : RoomsApart s) {o : Op} (hrun : o.run s = .ok s') :
    RoomsApart s' := by
  cases o with
  | createCourseSlot schoolId courseId dto id =>
      obtain ⟨row, hrow, rfl⟩ := roomFree_of_createCourseSlot hrun
      exact h.write hrow
  | updateCourseSlot schoolId courseId slotId dto =>
      obtain ⟨row, hrow, rfl⟩ := roomFree_of_updateCourseSlot hrun
      exact h.write hrow
  | deleteCourseSlot schoolId courseId slotId =>
      obtain rfl := of_deleteCourseSlot hrun
      exact h.of_subset (fun slot hslot => (Table.mem_filter.1 hslot).1) fun _ _ => rfl
  | declareUnavailability teacherId dto id =>
      obtain ⟨t, rfl⟩ := of_declareUnavailability hrun
      exact h.of_subset (fun _ hslot => hslot) fun _ _ => rfl
  | deleteUnavailability teacherId id =>
      obtain ⟨t, rfl⟩ := of_deleteUnavailability hrun
      exact h.of_subset (fun _ hslot => hslot) fun _ _ => rfl

/-! ## What stands -/

/-- Neither teachers nor rooms are taken twice, and teachers have the time to travel. -/
structure InOrder (s : World) : Prop where
  teachers : Safe ⟨s, fun _ => .empty⟩
  rooms : RoomsApart s

theorem Safe.forget {h : History} (hsafe : Safe h) : Safe ⟨h.world, fun _ => .empty⟩ :=
  ⟨hsafe.linked, hsafe.compatible, fun _ _ u hu => absurd hu (Table.not_mem_empty u)⟩

theorem InOrder.run {s s' : World} (h : InOrder s) {o : Op} (hrun : o.run s = .ok s') :
    InOrder s' := by
  obtain ⟨hsafe, -⟩ := h.teachers.step o
  have hworld : (History.step ⟨s, fun _ => .empty⟩ o).world = s' := by
    unfold History.step
    rw [hrun]
  exact ⟨hworld ▸ hsafe.forget, h.rooms.run hrun⟩

/-- Courses that are added, or change in neither teacher nor school. -/
theorem InOrder.of_courses {s : World} (h : InOrder s) {courses : Table Course}
    (hcourses : ∀ slot ∈ s.slots, ∀ course, s.courses.find? slot.courseId = some course →
      ∃ course', courses.find? slot.courseId = some course' ∧ course'.teacherId = course.teacherId ∧
        course'.schoolId = course.schoolId) : InOrder { s with courses } := by
  have hschool : ∀ slot ∈ s.slots, World.schoolOf { s with courses } slot = s.schoolOf slot := by
    intro slot hslot
    obtain ⟨course, hfind, -⟩ := h.teachers.linked slot hslot
    obtain ⟨course', hfind', -, hsame⟩ := hcourses slot hslot course hfind
    simp only [World.schoolOf, hfind, hfind', Option.map_some, hsame]
  refine ⟨⟨fun slot hslot => ?_, fun a ha b hb hne hteacher hday => ?_,
    fun _ _ u hu => absurd hu (Table.not_mem_empty u)⟩, h.rooms.of_subset (fun _ hslot => hslot) hschool⟩
  · obtain ⟨course, hfind, hteacher⟩ := h.teachers.linked slot hslot
    obtain ⟨course', hfind', hsame, -⟩ := hcourses slot hslot course hfind
    exact ⟨course', hfind', hsame.trans hteacher⟩
  · obtain ⟨hapart, htime⟩ := h.teachers.compatible a ha b hb hne hteacher hday
    refine ⟨hapart, fun x y hx hy hdifferent buffer hbuffer => ?_⟩
    rw [hschool a ha] at hx
    rw [hschool b hb] at hy
    exact htime x y hx hy hdifferent buffer hbuffer

/-! ## The generation -/

theorem InOrder.answered {s : World} (h : InOrder s) {q : Stmt} {id : Id} {a : Ans q}
    (ha : schoolService.model.exec q id s = some a) :
    InOrder (schoolService.model.applyAll (writes q a) s) := by
  cases q with
  | courseCreate data =>
      have hexec := (Model.exec_checked.1 ha).2
      simp only [exec] at hexec
      split at hexec
      · cases hexec
      · next hnew =>
          obtain rfl := Option.some.inj hexec
          refine h.of_courses fun slot hslot course hfind => ⟨course, ?_, rfl, rfl⟩
          rw [Table.find?_put, if_neg fun hid => hnew (.inr ?_)]
          · exact hfind
          · exact List.any_eq_true.2 ⟨slot, hslot, decide_eq_true hid⟩
  | courseUpdate courseId requirementId =>
      have hexec := (Model.exec_checked.1 ha).2
      simp only [exec] at hexec
      split at hexec
      · cases hexec
      · obtain ⟨old, hold, rfl⟩ := Option.map_eq_some_iff.1 hexec
        refine h.of_courses fun slot hslot course hfind => ?_
        rw [Table.find?_put]
        split
        · next hid =>
            have hsame : course = old := by
              have hold' : old.id = courseId := Table.key_of_find? hold
              have hkey : slot.courseId = courseId := hid.trans hold'
              rw [hkey, hold] at hfind
              exact (Option.some.inj hfind).symm
            exact ⟨_, rfl, by rw [hsame], by rw [hsame]⟩
        · exact ⟨course, hfind, rfl, rfl⟩
  | createCourseSlot schoolId courseId dto =>
      have hid : s.slots.contains id = false := by
        have hexec := (Model.exec_checked.1 ha).2
        simp only [exec, Option.bind_eq_bind, Option.bind_eq_some_iff] at hexec
        obtain ⟨_, _, _, _, hexec⟩ := hexec
        split at hexec
        · cases hexec
        · next hnew => exact Bool.eq_false_iff.2 hnew
      obtain ⟨s', hok⟩ := (schoolService_exec hid).1 ⟨a, ha⟩
      obtain ⟨row, hrow, rfl⟩ := createCourseSlot_exec hok
      obtain rfl := Option.some.inj ((Model.exec_checked.1 ha).2.symm.trans hrow)
      exact h.run (o := .createCourseSlot schoolId courseId dto id) hok
  | _ => exact h

/-! ## Runs -/

/-- A step: an operation that succeeds, or a generation, however far it comes. -/
inductive Planned (localeCompare : String → String → Int) : World → World → Prop
  | op {s s' : World} (o : Op) : o.run s = .ok s' → Planned localeCompare s s'
  | generate {s s' : World} (schoolId : Id) (dto : GenerateScheduleDto)
      (met : List (Except Err Id)) {r : Except Err GenerationResult} :
      (Timetable.generate localeCompare schoolId dto).alone (M := schoolService.model) none s met =
        some (r, s') → Planned localeCompare s s'

variable {localeCompare : String → String → Int}

theorem InOrder.planned {s s' : World} (h : InOrder s) (hstep : Planned localeCompare s s') :
    InOrder s' := by
  cases hstep with
  | op o hrun => exact h.run hrun
  | generate schoolId dto met hrun =>
      exact (Sends.keeps (M := schoolService.model) (fun _ ha hs => hs.answered ha) (sends_any _)).alone h hrun

/-- **The timetable stays in order.** From an empty timetable, whatever slots are created, moved and
    deleted, whatever the teachers declare, and however often the timetable of a school is generated and
    wherever that fails: two slots of a teacher never overlap and leave the time to travel, and two
    slots in one room of a school never overlap. -/
theorem timetable_in_order {s s' : World} (hslots : s.slots = .empty)
    (hrun : Relation.ReflTransGen (Planned localeCompare) s s') : InOrder s' := by
  have hstart : InOrder s := by
    have hnone : ∀ slot, slot ∉ s.slots := fun slot hslot => Table.not_mem_empty slot (hslots ▸ hslot)
    exact ⟨⟨fun slot hslot => absurd hslot (hnone slot), fun a ha => absurd ha (hnone a),
      fun slot hslot => absurd hslot (hnone slot)⟩, fun a ha => absurd ha (hnone a)⟩
  induction hrun with
  | refl => exact hstart
  | tail _ hstep ih => exact ih.planned hstep

/-- A slot of one of the teachers, in the room and at the time that the generation tries first. -/
def takenByHand : Op :=
  .createCourseSlot "s1" "c0" ⟨1, ⟨"08:00", accepted_eight⟩, ⟨"10:00", accepted_ten⟩, "A1"⟩ "k0"

/-- Two requirements, and a course that belongs to neither. -/
def beforeTerm : World :=
  { twoRequirements with
    courses := .ofList [⟨"c0", "s1", "t2", "A", "Droit", none, none, none, "1", true, none⟩] }

theorem isSome_takenByHand : (takenByHand.run beforeTerm).toOption.isSome = true := by decide +kernel

def afterHand : World := (takenByHand.run beforeTerm).toOption.get isSome_takenByHand

theorem ok_of_toOption {α : Type} {x : Except Err α} {a : α} (h : x.toOption = some a) :
    x = .ok a := by
  cases x with
  | error e => cases h
  | ok a' => exact congrArg _ (Option.some.inj h)

theorem run_takenByHand : takenByHand.run beforeTerm = .ok afterHand :=
  ok_of_toOption (Option.some_get isSome_takenByHand).symm

/-- What the generation meets: the sessions that are refused, and the identifiers of the rows. -/
def metAfterHand : List (Except Err Id) :=
  List.replicate 6 (.ok "") ++ [.ok "c1", .ok "", .ok "", .error .database, .error .database, .ok "",
    .error .database, .error .database, .ok "", .ok "k1"] ++ List.replicate 3 (.ok "") ++
  [.ok "c2", .ok "", .ok "", .error .database, .ok "k2"]

def generateAfterHand : Option (Except Err GenerationResult × World) :=
  (generate (fun a b => if a < b then -1 else if b < a then 1 else 0) "s1"
    { academicYearId := "y1" }).alone (M := schoolService.model) none afterHand metAfterHand

/-- The session of the teacher moves to another time, and that of the other teacher to another room. -/
theorem timetable_in_order_afterHand : ∃ s', s'.slots.rows.map (fun slot =>
      (slot.teacherId, slot.room, slot.period.startTime.text)) =
        [("t2", "A1", "08:00"), ("t2", "A1", "10:00"), ("t1", "B", "08:00")] ∧ InOrder s' := by
  have hsome : (generateAfterHand.map fun end' => end'.2.slots.rows.map fun slot =>
      (slot.teacherId, slot.room, slot.period.startTime.text)) =
        some [("t2", "A1", "08:00"), ("t2", "A1", "10:00"), ("t1", "B", "08:00")] := by decide +kernel
  obtain ⟨⟨r, s'⟩, hrun, hrows⟩ := Option.map_eq_some_iff.1 hsome
  exact ⟨s', hrows, timetable_in_order (s := beforeTerm) rfl
    (.tail (.tail .refl (.op takenByHand run_takenByHand)) (.generate "s1" _ metAfterHand hrun))⟩

end GetPlatform.Timetable
