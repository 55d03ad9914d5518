import Mathlib.Data.List.Dedup
import GetPlatform.Timetable.SchedulingService
import GetPlatform.Timetable.ScheduleGenerationService

set_option autoImplicit false

/-! # The overlap tests agree

Four services test whether two ranges of time overlap: on minutes, on texts in two queries, and in the
exclusion constraint of the database. Each of them is `Overlap`, on one scale or the other. -/

namespace GetPlatform.Timetable

/-! ## Each test is `Overlap` -/

theorem overlaps_iff {a b c d : Int} : overlaps a b c d = true ↔ Overlap a b c d := by
  simp [overlaps, Overlap]

/-- The test on minutes, on the scale of the texts. -/
theorem Period.overlaps_iff {a b : Period} : a.overlaps b = true ↔
    a.startTime < b.endTime ∧ b.startTime < a.endTime := by
  rw [Period.overlaps, Timetable.overlaps_iff, Overlap, toMinutes_lt_iff, toMinutes_lt_iff]

theorem Period.overlaps_comm (a b : Period) : a.overlaps b = b.overlaps a := by
  rw [Bool.eq_iff_iff, Period.overlaps_iff, Period.overlaps_iff, and_comm]

/-- A period is not empty, and neither is its range in the database. -/
theorem Period.toMinutes_lt (p : Period) : toMinutes p.startTime < toMinutes p.endTime :=
  (toMinutes_lt_iff _ _).2 p.ordered

theorem int4range_period (p : Period) :
    int4range (sqlMinutes p.startTime) (sqlMinutes p.endTime) =
      some (toMinutes p.startTime, toMinutes p.endTime) := by
  rw [int4range, sqlMinutes_eq, sqlMinutes_eq, if_pos p.toMinutes_lt.le]

theorem doubleBooked_iff {a b : CourseSlot} : doubleBooked a b = true ↔
    a.teacherId = b.teacherId ∧ a.dayOfWeek = b.dayOfWeek ∧ a.period.overlaps b.period = true := by
  have ha := a.period.toMinutes_lt
  have hb := b.period.toMinutes_lt
  simp only [doubleBooked, int4range_period, rangesOverlap, Bool.and_eq_true, decide_eq_true_eq, ha,
    hb, true_and, and_assoc, Period.overlaps, overlaps]

theorem mem_classConflicts {s : World} {classId : Id} {slot : CandidateSlot} {other : CourseSlot} :
    other ∈ s.classConflicts classId slot ↔ other ∈ s.slots ∧ other.dayOfWeek = slot.dayOfWeek ∧
      s.classOf other = some classId ∧ slot.period.overlaps other.period = true := by
  rw [World.classConflicts, List.mem_filter, decide_eq_true_eq, Period.overlaps_iff]
  constructor
  · rintro ⟨hmem, hday, hbefore, hafter, hclass⟩
    exact ⟨hmem, hday, hclass, hafter, hbefore⟩
  · rintro ⟨hmem, hday, hclass, hafter, hbefore⟩
    exact ⟨hmem, hday, hbefore, hafter, hclass⟩

theorem mem_timeSlotConflicts {s : World} {schoolId : Id} {slot : CandidateSlot}
    {excludedSlotId : Option Id} {other : SchoolTimeSlot} :
    other ∈ s.timeSlotConflicts schoolId slot excludedSlotId ↔ other ∈ s.timeSlots ∧
      other.schoolId = schoolId ∧ other.dayOfWeek = slot.dayOfWeek ∧
      excludedSlotId ≠ some other.id ∧ slot.period.overlaps other.period = true := by
  rw [World.timeSlotConflicts, List.mem_filter, decide_eq_true_eq, Period.overlaps_iff]
  constructor
  · rintro ⟨hmem, hschool, hday, hbefore, hafter, hother⟩
    exact ⟨hmem, hschool, hday, hother, hafter, hbefore⟩
  · rintro ⟨hmem, hschool, hday, hother, hafter, hbefore⟩
    exact ⟨hmem, hschool, hday, hbefore, hafter, hother⟩

/-! ## What a teacher is free for -/

theorem mem_slotsOn {s : World} {teacherId : Id} {dayOfWeek : Nat} {excludeSlotId : Option Id}
    {slot : CourseSlot} : slot ∈ s.slotsOn teacherId dayOfWeek excludeSlotId ↔ slot ∈ s.slots ∧
      slot.teacherId = teacherId ∧ slot.dayOfWeek = dayOfWeek ∧ excludeSlotId ≠ some slot.id := by
  rw [World.slotsOn, List.mem_filter, decide_eq_true_eq]
  rfl

/-- The buffer that the check finds is the one that is stored for the two schools. -/
theorem find_buffer {s : World} {teacherId schoolId other : Id} {otherSchoolIds : List Id}
    (hother : other ∈ otherSchoolIds) :
    (s.buffers.rows.filter fun buf => buf.teacherId = teacherId ∧
      otherSchoolIds.any fun otherId => (buf.schoolAId, buf.schoolBId) = sort schoolId otherId).find?
        (fun buf => (buf.schoolAId, buf.schoolBId) = sort schoolId other) =
      s.buffers.find? (teacherId, sort schoolId other) := by
  rw [List.find?_filter, Table.find?]
  congr 1
  funext buf
  rw [decide_eq_decide, decide_eq_true_eq, decide_eq_true_eq]
  constructor
  · rintro ⟨⟨hteacher, -⟩, hschools⟩
    exact Prod.ext hteacher hschools
  · intro hkey
    obtain ⟨hteacher, hschools⟩ := Prod.mk.inj hkey
    exact ⟨⟨hteacher, List.any_eq_true.2 ⟨other, hother, decide_eq_true hschools⟩⟩, hschools⟩

/-- What it takes for a teacher to be free. -/
structure Free (s : World) (teacherId schoolId : Id) (slot : CandidateSlot)
    (excludeSlotId : Option Id) : Prop where
  available : ∀ u ∈ s.weeklyUnavailability teacherId slot.dayOfWeek,
    slot.period.overlaps u.period = false
  unbooked : ∀ other ∈ s.slotsOn teacherId slot.dayOfWeek excludeSlotId,
    slot.period.overlaps other.period = false
  inTime : ∀ other ∈ s.slotsOn teacherId slot.dayOfWeek excludeSlotId, ∀ otherId,
    s.schoolOf other = some otherId → otherId ≠ schoolId → ∀ buffer,
    s.buffers.find? (teacherId, sort schoolId otherId) = some buffer →
    (buffer.minutesBuffer : Int) ≤ gapBetween slot.period other.period

theorem isTeacherFree_iff {s : World} {teacherId schoolId : Id} {slot : CandidateSlot}
    {excludeSlotId : Option Id} : isTeacherFree teacherId schoolId slot excludeSlotId s = true ↔
      Free s teacherId schoolId slot excludeSlotId := by
  -- The slots in other schools, each with its school.
  have hmem : ∀ other otherId, (other, otherId) ∈
      (((s.slotsOn teacherId slot.dayOfWeek excludeSlotId).filterMap fun existing =>
        (s.schoolOf existing).map (existing, ·)).filter fun existing => existing.2 ≠ schoolId) ↔
      other ∈ s.slotsOn teacherId slot.dayOfWeek excludeSlotId ∧ s.schoolOf other = some otherId ∧
        otherId ≠ schoolId := by
    intro other otherId
    simp only [List.mem_filter, List.mem_filterMap, Option.map_eq_some_iff, Prod.mk.injEq,
      decide_eq_true_eq]
    constructor
    · rintro ⟨⟨_, hslot, _, hschool, rfl, rfl⟩, hne⟩
      exact ⟨hslot, hschool, hne⟩
    · rintro ⟨hslot, hschool, hne⟩
      exact ⟨⟨other, hslot, otherId, hschool, rfl, rfl⟩, hne⟩
  unfold isTeacherFree
  dsimp only
  split_ifs with hunavailable hbooked halone
  · obtain ⟨u, hu, hoverlaps⟩ := List.any_eq_true.1 hunavailable
    exact ⟨fun h => absurd h (by simp), fun h => absurd hoverlaps (by simp [h.available u hu])⟩
  · obtain ⟨other, hother, hoverlaps⟩ := List.any_eq_true.1 hbooked
    exact ⟨fun h => absurd h (by simp), fun h => absurd hoverlaps (by simp [h.unbooked other hother])⟩
  all_goals
    have havailable : ∀ u ∈ s.weeklyUnavailability teacherId slot.dayOfWeek,
        slot.period.overlaps u.period = false := by
      simpa only [List.any_eq_true, not_exists, not_and, Bool.not_eq_true] using hunavailable
    have hunbooked : ∀ other ∈ s.slotsOn teacherId slot.dayOfWeek excludeSlotId,
        slot.period.overlaps other.period = false := by
      simpa only [List.any_eq_true, not_exists, not_and, Bool.not_eq_true] using hbooked
  · refine ⟨fun _ => ⟨havailable, hunbooked, fun other hother otherId hschool hne => ?_⟩, fun _ => rfl⟩
    have hlisted := (hmem other otherId).2 ⟨hother, hschool, hne⟩
    rw [List.isEmpty_iff.1 halone] at hlisted
    cases hlisted
  · rw [List.all_eq_true]
    constructor
    · intro h
      refine ⟨havailable, hunbooked, fun other hother otherId hschool hne buffer hbuffer => ?_⟩
      have hlisted := (hmem other otherId).2 ⟨hother, hschool, hne⟩
      have hgap := h _ hlisted
      rw [find_buffer (List.mem_dedup.2 (List.mem_map.2 ⟨_, hlisted, rfl⟩)), hbuffer] at hgap
      simpa using hgap
    · rintro h ⟨other, otherId⟩ hlisted
      obtain ⟨hother, hschool, hne⟩ := (hmem other otherId).1 hlisted
      rw [find_buffer (List.mem_dedup.2 (List.mem_map.2 ⟨_, hlisted, rfl⟩))]
      split
      · rfl
      · next buffer hbuffer =>
          simpa using h.inTime other hother otherId hschool hne buffer hbuffer

/-- The verdicts of the four tests on a candidate and a stored range, of a school, a class and a
    teacher, are the same. -/
structure SameVerdict (s : World) (slot : CandidateSlot) : Prop where
  isClassBusy : ∀ classId, ∀ other ∈ s.slots, other.dayOfWeek = slot.dayOfWeek →
    s.classOf other = some classId →
    (other ∈ s.classConflicts classId slot ↔ slot.period.overlaps other.period = true)
  assertNoTimeSlotOverlap : ∀ schoolId, ∀ other ∈ s.timeSlots, other.schoolId = schoolId →
    other.dayOfWeek = slot.dayOfWeek →
    (other ∈ s.timeSlotConflicts schoolId slot none ↔ slot.period.overlaps other.period = true)
  noTeacherDoubleBooking : ∀ row other : CourseSlot, row.dayOfWeek = slot.dayOfWeek →
    row.period = slot.period → other.teacherId = row.teacherId → other.dayOfWeek = row.dayOfWeek →
    (doubleBooked other row = true ↔ slot.period.overlaps other.period = true)

theorem sameVerdict (s : World) (slot : CandidateSlot) : SameVerdict s slot where
  isClassBusy classId other hmem hday hclass := by
    rw [mem_classConflicts]
    exact ⟨fun h => h.2.2.2, fun h => ⟨hmem, hday, hclass, h⟩⟩
  assertNoTimeSlotOverlap schoolId other hmem hschool hday := by
    rw [mem_timeSlotConflicts]
    exact ⟨fun h => h.2.2.2.2, fun h => ⟨hmem, hschool, hday, by simp, h⟩⟩
  noTeacherDoubleBooking row other _ hperiod hteacher hsame := by
    rw [doubleBooked_iff, hperiod, Period.overlaps_comm]
    exact ⟨fun h => h.2.2, fun h => ⟨hteacher, hsame, h⟩⟩

/-- **The notions of overlap agree**: the four tests give the same verdict, and a slot for which the
    teacher is free is not one that the constraint refuses. -/
theorem overlap_notions_agree (s : World) (teacherId schoolId : Id) (slot : CandidateSlot)
    (excludeSlotId : Option Id) (row : CourseSlot) (hteacher : row.teacherId = teacherId)
    (hday : row.dayOfWeek = slot.dayOfWeek) (hperiod : row.period = slot.period)
    (hself : ∀ id, excludeSlotId = some id → id = row.id) :
    SameVerdict s slot ∧
      ¬ (isTeacherFree teacherId schoolId slot excludeSlotId s = true ∧ s.refuses row = true) := by
  refine ⟨sameVerdict s slot, ?_⟩
  rintro ⟨hfree, hrefused⟩
  obtain ⟨other, hmem, hother⟩ := List.any_eq_true.1 hrefused
  rw [Bool.and_eq_true, decide_eq_true_eq, doubleBooked_iff] at hother
  obtain ⟨hne, hsame, hsameDay, hoverlaps⟩ := hother
  -- The row that excludes it is one of the slots that were looked at.
  have hlooked : other ∈ s.slotsOn teacherId slot.dayOfWeek excludeSlotId :=
    mem_slotsOn.2 ⟨hmem, hsame.trans hteacher, hsameDay.trans hday, fun h => hne (hself _ h)⟩
  have hnot := (isTeacherFree_iff.1 hfree).unbooked other hlooked
  rw [← hperiod, Period.overlaps_comm, hoverlaps] at hnot
  cases hnot

def morning : Period := ⟨⟨"08:00", accepted_eight⟩, ⟨"10:00", accepted_ten⟩, by decide⟩

def midday : Period := ⟨⟨"10:00", accepted_ten⟩, ⟨"12:30", by decide⟩, by decide⟩

/-- Teacher `t1` has a course on Monday morning. -/
def mondayMorning : World :=
  { World.empty with
    courses := .ofList [⟨"c1", "s1", "t1", "A", "Droit", none, none, none, "1", true, none⟩]
    slots := .ofList [⟨"k1", "c1", "t1", 1, morning, "A1"⟩] }

/-- A slot that begins when the stored one ends is accepted by all of them. -/
theorem overlap_notions_agree_touching :
    isTeacherFree "t1" "s2" ⟨1, midday⟩ none mondayMorning = true ∧
      SameVerdict mondayMorning ⟨1, midday⟩ ∧
      ¬ (isTeacherFree "t1" "s2" ⟨1, midday⟩ none mondayMorning = true ∧
        mondayMorning.refuses ⟨"k2", "c2", "t1", 1, midday, "B"⟩ = true) :=
  ⟨by decide +kernel,
    overlap_notions_agree mondayMorning "t1" "s2" ⟨1, midday⟩ none
      ⟨"k2", "c2", "t1", 1, midday, "B"⟩ rfl rfl rfl (by simp)⟩

end GetPlatform.Timetable
