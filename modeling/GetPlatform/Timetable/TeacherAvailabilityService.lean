import GetPlatform.Timetable.World

set_option autoImplicit false

/-! # `TeacherAvailabilityService`

When a teacher is free, and what a report says about the timetable of a teacher. A call reads and
writes the database in one step here. -/

namespace GetPlatform.Timetable

def overlaps (aStart aEnd bStart bEnd : Int) : Bool := aStart < bEnd && bStart < aEnd

/-! ## Unavailability -/

structure DeclareUnavailabilityDto where
  dayOfWeek : Option Nat
  date : Option String
  startTime : Time
  endTime : Time
  reason : Option String

/-- The order of two times, checked. -/
def period? (startTime endTime : Time) : Except Err Period :=
  if h : startTime < endTime then .ok ⟨startTime, endTime, h⟩
  else
    .error (.BadRequestException "L'heure de fin doit être postérieure à l'heure de début")

def declareUnavailability (teacherId : Id) (dto : DeclareUnavailabilityDto) (id : Id) (s : World) :
    Except Err World := do
  let period ← period? dto.startTime dto.endTime
  if dto.dayOfWeek.isNone ∧ dto.date.isNone then
    throw (.BadRequestException "Précisez un jour récurrent ou une date ponctuelle")
  if s.unavailability.contains id then throw .database
  return { s with
    unavailability := s.unavailability.insert
      { id, teacherId, dayOfWeek := dto.dayOfWeek, date := dto.date, period, reason := dto.reason } }

def deleteUnavailability (teacherId id : Id) (s : World) : Except Err World :=
  if (s.unavailability.find? id).any (·.teacherId = teacherId) then
    .ok { s with unavailability := s.unavailability.filter (·.id ≠ id) }
  else .error (.NotFoundException "Indisponibilité introuvable")

/-! ## Travel buffers -/

structure SetTravelBufferDto where
  schoolAId : Id
  schoolBId : Id
  minutesBuffer : Nat

/-- `[a, b].sort()` -/
def sort (a b : Id) : Id × Id := if a ≤ b then (a, b) else (b, a)

def assertActiveAssignment (teacherId schoolId : Id) (s : World) : Except Err Unit :=
  if (s.assignments.find? (teacherId, schoolId)).any (·.isActive) then .ok ()
  else .error (.BadRequestException "Le professeur n'est pas affecté à cette école")

def setTravelBuffer (teacherId : Id) (dto : SetTravelBufferDto) (s : World) : Except Err World := do
  if dto.schoolAId = dto.schoolBId then
    throw (.BadRequestException "Choisissez deux écoles différentes")
  assertActiveAssignment teacherId dto.schoolAId s
  assertActiveAssignment teacherId dto.schoolBId s
  let (schoolAId, schoolBId) := sort dto.schoolAId dto.schoolBId
  return { s with
    buffers := s.buffers.put
      { teacherId, schoolAId, schoolBId, minutesBuffer := dto.minutesBuffer } }

/-! ## Availability -/

/-- A slot that is asked for. -/
structure CandidateSlot where
  dayOfWeek : Nat
  period : Period
  deriving DecidableEq

/-- The minutes of two periods overlap. -/
def Period.overlaps (a b : Period) : Bool :=
  Timetable.overlaps (toMinutes a.startTime) (toMinutes a.endTime) (toMinutes b.startTime)
    (toMinutes b.endTime)

namespace World

/-- The school of a slot, which is the one of its course. -/
def schoolOf (s : World) (slot : CourseSlot) : Option Id :=
  (s.courses.find? slot.courseId).map (·.schoolId)

/-- The weekly unavailability of a teacher on a day. -/
def weeklyUnavailability (s : World) (teacherId : Id) (dayOfWeek : Nat) : List TeacherAvailability :=
  s.unavailability.rows.filter fun u => u.teacherId = teacherId ∧ u.dayOfWeek = some dayOfWeek

/-- The slots of a teacher on a day, but for one. -/
def slotsOn (s : World) (teacherId : Id) (dayOfWeek : Nat) (excludeSlotId : Option Id) :
    List CourseSlot :=
  s.slots.rows.filter fun slot =>
    slot.teacherId = teacherId ∧ slot.dayOfWeek = dayOfWeek ∧ excludeSlotId ≠ some slot.id

end World

/-- The gap between a slot and one that it does not overlap. -/
def gapBetween (period existing : Period) : Int :=
  let gapBefore := toMinutes period.startTime - toMinutes existing.endTime
  let gapAfter := toMinutes existing.startTime - toMinutes period.endTime
  if gapBefore ≥ 0 then gapBefore else gapAfter

def isTeacherFree (teacherId schoolId : Id) (slot : CandidateSlot) (excludeSlotId : Option Id)
    (s : World) : Bool :=
  let unavailability := s.weeklyUnavailability teacherId slot.dayOfWeek
  if unavailability.any fun entry => slot.period.overlaps entry.period then false
  else
    let existingSlots := s.slotsOn teacherId slot.dayOfWeek excludeSlotId
    if existingSlots.any fun existing => slot.period.overlaps existing.period then false
    else
      let otherSchoolSlots := (existingSlots.filterMap fun existing =>
        (s.schoolOf existing).map (existing, ·)).filter fun existing => existing.2 ≠ schoolId
      if otherSchoolSlots.isEmpty then true
      else
        let otherSchoolIds := (otherSchoolSlots.map (·.2)).dedup
        let buffers := s.buffers.rows.filter fun buf =>
          buf.teacherId = teacherId ∧
            otherSchoolIds.any fun otherId => (buf.schoolAId, buf.schoolBId) = sort schoolId otherId
        otherSchoolSlots.all fun existing =>
          match buffers.find? fun buf =>
              (buf.schoolAId, buf.schoolBId) = sort schoolId existing.2 with
          | none => true
          | some buffer => !(gapBetween slot.period existing.1.period < buffer.minutesBuffer)

def assertTeacherFreeOrThrow (teacherId schoolId : Id) (slot : CandidateSlot)
    (excludeSlotId : Option Id) (s : World) : Except Err Unit :=
  if isTeacherFree teacherId schoolId slot excludeSlotId s then .ok ()
  else
    .error <| .BadRequestException
      "Ce professeur n'est pas disponible sur ce créneau (indisponibilité déclarée, cours dans une autre école, ou temps de trajet insuffisant)"

/-- What a write that the exclusion constraint refuses is reported as. -/
def translateExclusionConstraintError : Err :=
  .BadRequestException
    "Ce professeur vient d'être réservé sur ce créneau par un autre établissement. Veuillez réessayer avec un autre horaire."

/-! ## The report -/

structure Warning where
  dayOfWeek : Nat
  schoolA : String
  timeA : String
  schoolB : String
  timeB : String
  gapMinutes : Int
  requiredMinutes : Nat
  deriving DecidableEq

structure ConflictReport where
  teacherId : Id
  schoolCount : Nat
  warnings : List Warning
  deriving DecidableEq

/-- A slot of the report, with its school. -/
structure ReportedSlot where
  slot : CourseSlot
  school : School

def ReportedSlot.time (a : ReportedSlot) : String :=
  s!"{a.slot.period.startTime.text}–{a.slot.period.endTime.text}"

/-- The comparison of two slots of one day in different schools. -/
def compareSlots (buffers : List TeacherTravelBuffer) (a b : ReportedSlot) : Option Warning :=
  if a.slot.dayOfWeek ≠ b.slot.dayOfWeek then none
  else if a.school.id = b.school.id then none
  else
    let (x, y) :=
      if toMinutes a.slot.period.startTime ≤ toMinutes b.slot.period.startTime then (a, b)
      else (b, a)
    let gap := toMinutes y.slot.period.startTime - toMinutes x.slot.period.endTime
    let buffer := buffers.find? fun buf =>
      (buf.schoolAId, buf.schoolBId) = sort x.school.id y.school.id
    let required : Nat := (buffer.map (·.minutesBuffer)).getD 0
    if gap < required then
      some
        { dayOfWeek := x.slot.dayOfWeek, schoolA := x.school.name, timeA := x.time,
          schoolB := y.school.name, timeB := y.time, gapMinutes := gap, requiredMinutes := required }
    else none

/-- Each slot is compared with those after it. -/
def compareAll (buffers : List TeacherTravelBuffer) : List ReportedSlot → List Warning
  | [] => []
  | a :: rest => rest.filterMap (compareSlots buffers a) ++ compareAll buffers rest

/-- The slots of a teacher with their schools, by day and time. -/
def World.reportedSlots (s : World) (teacherId : Id) : List ReportedSlot :=
  orderBy
    (fun a b => a.slot.dayOfWeek < b.slot.dayOfWeek || a.slot.dayOfWeek = b.slot.dayOfWeek &&
      !(b.slot.period.startTime < a.slot.period.startTime))
    ((s.slots.rows.filter (·.teacherId = teacherId)).filterMap fun slot =>
      ((s.schoolOf slot).bind s.schools.find?).map (⟨slot, ·⟩))

def getConflictReport (teacherId : Id) (s : World) : Except Err ConflictReport := do
  if ¬ s.teachers.contains teacherId then
    throw (.NotFoundException "Professeur introuvable")
  let slots := s.reportedSlots teacherId
  let buffers := s.buffers.rows.filter (·.teacherId = teacherId)
  return { teacherId, schoolCount := (slots.map (·.school.id)).dedup.length,
           warnings := compareAll buffers slots }

end GetPlatform.Timetable
