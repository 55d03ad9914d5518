import GetPlatform.Timetable.TeacherAvailabilityService

set_option autoImplicit false

/-! # The slots of `SchoolService`

A slot is written when its room and its teacher are free. A call is one step here; what it sends to
the teacher afterwards is left out. -/

namespace GetPlatform.Timetable

structure CreateCourseSlotDto where
  dayOfWeek : Nat
  startTime : Time
  endTime : Time
  room : String

structure UpdateCourseSlotDto where
  dayOfWeek : Option Nat := none
  startTime : Option Time := none
  endTime : Option Time := none
  room : Option String := none

def ensureSchoolCourse (schoolId courseId : Id) (s : World) : Except Err Course :=
  match (s.courses.find? courseId).filter (·.schoolId = schoolId) with
  | some course => .ok course
  | none => .error (.NotFoundException "Course not found")

def assertSlotTimes (startTime endTime : Time) : Except Err Period := period? startTime endTime

/-- The slots of the school in the same room at the same time; texts are compared. -/
def World.roomConflicts (s : World) (schoolId room : String) (slot : CandidateSlot)
    (excludedSlotId : Option Id) : List CourseSlot :=
  s.slots.rows.filter fun other =>
    excludedSlotId ≠ some other.id ∧ other.dayOfWeek = slot.dayOfWeek ∧ other.room = room ∧
      other.period.startTime < slot.period.endTime ∧
      slot.period.startTime < other.period.endTime ∧ s.schoolOf other = some schoolId

def ensureNoRoomConflict (schoolId room : String) (slot : CandidateSlot)
    (excludedSlotId : Option Id) (s : World) : Except Err Unit :=
  if (s.roomConflicts schoolId room slot excludedSlotId).isEmpty then .ok ()
  else .error (.BadRequestException "Ce créneau chevauche déjà un autre cours dans cette salle")

/-- The columns that are unique together. -/
def CourseSlot.sameBooking (a b : CourseSlot) : Bool :=
  a.courseId = b.courseId ∧ a.dayOfWeek = b.dayOfWeek ∧ a.period = b.period ∧ a.room = b.room

/-- The database takes a row that no other row stands against. -/
def writeSlot (row : CourseSlot) (s : World) : Except Err World :=
  if s.refuses row then .error translateExclusionConstraintError
  else if s.slots.rows.any fun other => other.id ≠ row.id && other.sameBooking row then
    .error .database
  else .ok { s with slots := s.slots.put row }

def createCourseSlot (schoolId courseId : Id) (dto : CreateCourseSlotDto) (id : Id) (s : World) :
    Except Err World := do
  let course ← ensureSchoolCourse schoolId courseId s
  let period ← assertSlotTimes dto.startTime dto.endTime
  let slot : CandidateSlot := ⟨dto.dayOfWeek, period⟩
  ensureNoRoomConflict schoolId dto.room slot none s
  assertTeacherFreeOrThrow course.teacherId schoolId slot none s
  if s.slots.contains id then throw .database
  writeSlot ⟨id, courseId, course.teacherId, dto.dayOfWeek, period, dto.room⟩ s

def updateCourseSlot (schoolId courseId slotId : Id) (dto : UpdateCourseSlotDto) (s : World) :
    Except Err World := do
  let course ← ensureSchoolCourse schoolId courseId s
  match (s.slots.find? slotId).filter (·.courseId = courseId) with
  | none => throw (.NotFoundException "Course slot not found")
  | some slot =>
      let period ← assertSlotTimes (dto.startTime.getD slot.period.startTime)
        (dto.endTime.getD slot.period.endTime)
      let candidate : CandidateSlot := ⟨dto.dayOfWeek.getD slot.dayOfWeek, period⟩
      let room := dto.room.getD slot.room
      ensureNoRoomConflict schoolId room candidate (some slotId) s
      assertTeacherFreeOrThrow course.teacherId schoolId candidate (some slotId) s
      writeSlot { slot with dayOfWeek := candidate.dayOfWeek, period, room } s

def deleteCourseSlot (schoolId courseId slotId : Id) (s : World) : Except Err World := do
  let _ ← ensureSchoolCourse schoolId courseId s
  if (s.slots.find? slotId).any (·.courseId = courseId) then
    return { s with slots := s.slots.filter (·.id ≠ slotId) }
  else throw (.NotFoundException "Course slot not found")

/-! ## What a call that succeeds has found -/

theorem bind_ok {α β : Type} {x : Except Err α} {f : α → Except Err β} {b : β}
    (h : (x >>= f) = .ok b) : ∃ a, x = .ok a ∧ f a = .ok b := by
  cases x with
  | error e => cases h
  | ok a => exact ⟨a, rfl, h⟩

theorem of_ensureSchoolCourse {schoolId courseId : Id} {s : World} {course : Course}
    (h : ensureSchoolCourse schoolId courseId s = .ok course) :
    s.courses.find? courseId = some course ∧ course.schoolId = schoolId := by
  unfold ensureSchoolCourse at h
  split at h
  · next hfind =>
      obtain rfl := Except.ok.inj h
      obtain ⟨hfind, hschool⟩ := Option.filter_eq_some_iff.1 hfind
      exact ⟨hfind, of_decide_eq_true hschool⟩
  · cases h

theorem of_writeSlot {row : CourseSlot} {s s' : World} (h : writeSlot row s = .ok s') :
    s' = { s with slots := s.slots.put row } := by
  unfold writeSlot at h
  split at h
  · cases h
  · split at h
    · cases h
    · exact (Except.ok.inj h).symm

/-- What `createCourseSlot` writes, and for which course. -/
theorem createCourseSlot_ok {schoolId courseId id : Id} {dto : CreateCourseSlotDto} {s s' : World}
    (h : createCourseSlot schoolId courseId dto id s = .ok s') :
    ∃ course period, ensureSchoolCourse schoolId courseId s = .ok course ∧
      period? dto.startTime dto.endTime = .ok period ∧
      assertTeacherFreeOrThrow course.teacherId schoolId ⟨dto.dayOfWeek, period⟩ none s = .ok () ∧
      s.slots.contains id = false ∧
      s' = { s with
        slots := s.slots.put ⟨id, courseId, course.teacherId, dto.dayOfWeek, period, dto.room⟩ } := by
  unfold createCourseSlot at h
  obtain ⟨course, hcourse, h⟩ := bind_ok h
  obtain ⟨period, hperiod, h⟩ := bind_ok h
  obtain ⟨_, -, h⟩ := bind_ok h
  obtain ⟨_, hfree, h⟩ := bind_ok h
  by_cases hid : s.slots.contains id = true
  · rw [if_pos hid] at h
    cases h
  · rw [if_neg hid] at h
    exact ⟨course, period, hcourse, hperiod, hfree, Bool.eq_false_iff.2 hid, of_writeSlot h⟩

end GetPlatform.Timetable
