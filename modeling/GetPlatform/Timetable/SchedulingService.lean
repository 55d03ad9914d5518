import GetPlatform.Timetable.TeacherAvailabilityService

set_option autoImplicit false

/-! # The time slots of `SchedulingService`

The grid of a school: the ranges of time its courses may take. Times are compared as texts. -/

namespace GetPlatform.Timetable

structure CreateSchoolTimeSlotDto where
  dayOfWeek : Nat
  startTime : Time
  endTime : Time
  label : Option String := none
  isActive : Option Bool := none

structure UpdateSchoolTimeSlotDto where
  dayOfWeek : Option Nat := none
  startTime : Option Time := none
  endTime : Option Time := none
  label : Option String := none
  isActive : Option Bool := none

def assertTimeOrder (startTime endTime : Time) : Except Err Period := period? startTime endTime

/-- The time slots of a school that the candidate overlaps, but for one. -/
def World.timeSlotConflicts (s : World) (schoolId : Id) (slot : CandidateSlot)
    (excludedSlotId : Option Id) : List SchoolTimeSlot :=
  s.timeSlots.rows.filter fun other =>
    other.schoolId = schoolId ∧ other.dayOfWeek = slot.dayOfWeek ∧
      other.period.startTime < slot.period.endTime ∧
      slot.period.startTime < other.period.endTime ∧ excludedSlotId ≠ some other.id

def assertNoTimeSlotOverlap (schoolId : Id) (slot : CandidateSlot) (excludedSlotId : Option Id)
    (s : World) : Except Err Unit :=
  if (s.timeSlotConflicts schoolId slot excludedSlotId).isEmpty then .ok ()
  else .error (.BadRequestException "Ce créneau chevauche un créneau-type existant")

/-- The columns that are unique together. -/
def SchoolTimeSlot.sameRange (a b : SchoolTimeSlot) : Bool :=
  a.schoolId = b.schoolId ∧ a.dayOfWeek = b.dayOfWeek ∧ a.period = b.period

def writeTimeSlot (row : SchoolTimeSlot) (s : World) : Except Err World :=
  if s.timeSlots.rows.any fun other => other.id ≠ row.id && other.sameRange row then .error .database
  else .ok { s with timeSlots := s.timeSlots.put row }

def createTimeSlot (schoolId : Id) (dto : CreateSchoolTimeSlotDto) (id : Id) (s : World) :
    Except Err World := do
  let period ← assertTimeOrder dto.startTime dto.endTime
  assertNoTimeSlotOverlap schoolId ⟨dto.dayOfWeek, period⟩ none s
  if s.timeSlots.contains id then throw .database
  writeTimeSlot ⟨id, schoolId, dto.dayOfWeek, period, dto.label, dto.isActive.getD true⟩ s

def updateTimeSlot (schoolId slotId : Id) (dto : UpdateSchoolTimeSlotDto) (s : World) :
    Except Err World := do
  match (s.timeSlots.find? slotId).filter (·.schoolId = schoolId) with
  | none => throw (.NotFoundException "Créneau introuvable")
  | some slot =>
      let period ← assertTimeOrder (dto.startTime.getD slot.period.startTime)
        (dto.endTime.getD slot.period.endTime)
      let dayOfWeek := dto.dayOfWeek.getD slot.dayOfWeek
      assertNoTimeSlotOverlap schoolId ⟨dayOfWeek, period⟩ (some slotId) s
      writeTimeSlot
        { slot with
          dayOfWeek, period
          label := dto.label <|> slot.label
          isActive := dto.isActive.getD slot.isActive } s

def deleteTimeSlot (schoolId slotId : Id) (s : World) : Except Err World := do
  match (s.timeSlots.find? slotId).filter (·.schoolId = schoolId) with
  | none => throw (.NotFoundException "Créneau introuvable")
  | some _ => return { s with timeSlots := s.timeSlots.filter (·.id ≠ slotId) }

end GetPlatform.Timetable
