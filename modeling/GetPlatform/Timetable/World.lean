import Mathlib.Data.List.Sort
import GetPlatform.Timetable.Types

set_option autoImplicit false

/-! # The database behind the timetables

`World` is the content of the tables, and the constraint that no teacher is booked twice. A date is
not part of it: the weekly timetable is the same every week. -/

namespace GetPlatform.Timetable

structure World where
  schools : Table School
  teachers : Table Teacher
  assignments : Table TeacherSchool
  subjects : Table SchoolSubject
  programs : Table SchoolProgram
  courses : Table Course
  slots : Table CourseSlot
  unavailability : Table TeacherAvailability
  buffers : Table TeacherTravelBuffer
  timeSlots : Table SchoolTimeSlot
  rooms : Table Room
  classes : Table SchoolClass
  requirements : Table SubjectRequirement
  requirementAssignments : Table TeacherAssignment

/-- A database without a row. -/
def World.empty : World where
  schools := .empty
  teachers := .empty
  assignments := .empty
  subjects := .empty
  programs := .empty
  courses := .empty
  slots := .empty
  unavailability := .empty
  buffers := .empty
  timeSlots := .empty
  rooms := .empty
  classes := .empty
  requirements := .empty
  requirementAssignments := .empty

/-- A stable sort. -/
def orderBy {α : Type} (le : α → α → Bool) (rows : List α) : List α :=
  rows.insertionSort fun a b => le a b = true

theorem perm_orderBy {α : Type} (le : α → α → Bool) (rows : List α) :
    (orderBy le rows).Perm rows := List.perm_insertionSort _ rows

theorem mem_orderBy {α : Type} {le : α → α → Bool} {rows : List α} {a : α} :
    a ∈ orderBy le rows ↔ a ∈ rows := (perm_orderBy le rows).mem_iff

/-- The exceptions a call can end with. -/
inductive Err where
  | NotFoundException (message : String)
  | ForbiddenException (message : String)
  | BadRequestException (message : String)
  | database
  deriving DecidableEq

/-! ## The exclusion constraint -/

/-- `int4range(lower, upper)`, which is an error when the bounds are out of order. -/
def int4range (lower upper : Int) : Option (Int × Int) :=
  if lower ≤ upper then some (lower, upper) else none

/-- `&&`; an empty range overlaps with nothing. -/
def rangesOverlap (r r' : Int × Int) : Bool :=
  r.1 < r.2 && r'.1 < r'.2 && (r.1 < r'.2 && r'.1 < r.2)

/-- Two rows exclude each other: the same teacher, the same day, and ranges that overlap. -/
def doubleBooked (a b : CourseSlot) : Bool :=
  a.teacherId = b.teacherId && a.dayOfWeek = b.dayOfWeek &&
    match int4range (sqlMinutes a.period.startTime) (sqlMinutes a.period.endTime),
      int4range (sqlMinutes b.period.startTime) (sqlMinutes b.period.endTime) with
    | some r, some r' => rangesOverlap r r'
    | _, _ => false

/-- `no_teacher_double_booking` refuses a row that one of the other rows excludes. -/
def World.refuses (s : World) (row : CourseSlot) : Bool :=
  s.slots.rows.any fun other => other.id ≠ row.id && doubleBooked other row

end GetPlatform.Timetable
