import GetPlatform.Timetable.Agreement

set_option autoImplicit false

/-! # The grid of a school

The checks of `SchedulingService` keep the time slots of a school and a day apart, whichever of them
are active: a slot is written after it was compared with all the others. The order of its two times is
part of a `Period`, which `assertTimeOrder` alone builds. -/

namespace GetPlatform.Timetable

/-! ## Runs -/

inductive TimeSlotOp where
  | createTimeSlot (schoolId : Id) (dto : CreateSchoolTimeSlotDto) (id : Id)
  | updateTimeSlot (schoolId slotId : Id) (dto : UpdateSchoolTimeSlotDto)
  | deleteTimeSlot (schoolId slotId : Id)

def TimeSlotOp.run : TimeSlotOp → World → Except Err World
  | createTimeSlot schoolId dto id => Timetable.createTimeSlot schoolId dto id
  | updateTimeSlot schoolId slotId dto => Timetable.updateTimeSlot schoolId slotId dto
  | deleteTimeSlot schoolId slotId => Timetable.deleteTimeSlot schoolId slotId

/-- A call that is refused changes nothing: the only statement that writes is its last. -/
def World.attempt (s : World) (o : TimeSlotOp) : World := (o.run s).toOption.getD s

def World.attemptAll (s : World) (ops : List TimeSlotOp) : World := ops.foldl World.attempt s

/-! ## What is kept -/

/-- Two slots of the same school and day do not overlap. -/
def SchoolTimeSlot.Apart (a b : SchoolTimeSlot) : Prop :=
  a.schoolId = b.schoolId → a.dayOfWeek = b.dayOfWeek → a.period.overlaps b.period = false

theorem SchoolTimeSlot.Apart.symm {a b : SchoolTimeSlot} (h : a.Apart b) : b.Apart a := by
  intro hschool hday
  rw [Period.overlaps_comm]
  exact h hschool.symm hday.symm

/-- The time slots of a school and a day are apart. -/
def GridSafe (s : World) : Prop :=
  ∀ a ∈ s.timeSlots, ∀ b ∈ s.timeSlots, a.id ≠ b.id → a.Apart b

/-- A row that keeps clear of the other rows may be written. -/
theorem GridSafe.put {s : World} (hsafe : GridSafe s) {row : SchoolTimeSlot}
    (hrow : ∀ other ∈ s.timeSlots, other.id ≠ row.id → row.Apart other) :
    GridSafe { s with timeSlots := s.timeSlots.put row } := by
  intro a ha b hb hne
  rcases Table.mem_put.1 ha with rfl | ⟨ha', hane⟩ <;>
    rcases Table.mem_put.1 hb with rfl | ⟨hb', hbne⟩
  · exact absurd rfl hne
  · exact hrow b hb' hbne
  · exact (hrow a ha' hane).symm
  · exact hsafe a ha' b hb' hne

/-! ## What a call that succeeds has found -/

/-- The check has compared the candidate with every other slot of the school. -/
theorem apart_of_assertNoTimeSlotOverlap {s : World} {row other : SchoolTimeSlot}
    {excludedSlotId : Option Id}
    (h : assertNoTimeSlotOverlap row.schoolId ⟨row.dayOfWeek, row.period⟩ excludedSlotId s = .ok ())
    (hmem : other ∈ s.timeSlots) (hexcluded : excludedSlotId ≠ some other.id) : row.Apart other := by
  intro hschool hday
  unfold assertNoTimeSlotOverlap at h
  by_cases hempty : (s.timeSlotConflicts row.schoolId ⟨row.dayOfWeek, row.period⟩
      excludedSlotId).isEmpty = true
  · by_contra hoverlaps
    rw [Bool.not_eq_false] at hoverlaps
    have hconflict : other ∈ s.timeSlotConflicts row.schoolId ⟨row.dayOfWeek, row.period⟩
        excludedSlotId :=
      mem_timeSlotConflicts.2 ⟨hmem, hschool.symm, hday.symm, hexcluded, hoverlaps⟩
    rw [List.isEmpty_iff.1 hempty] at hconflict
    cases hconflict
  · rw [if_neg hempty] at h
    cases h

theorem of_writeTimeSlot {row : SchoolTimeSlot} {s s' : World} (h : writeTimeSlot row s = .ok s') :
    s' = { s with timeSlots := s.timeSlots.put row } := by
  unfold writeTimeSlot at h
  split at h
  · cases h
  · exact (Except.ok.inj h).symm

/-- What a call writes keeps clear of all the slots but the one it replaces. -/
theorem createTimeSlot_ok {schoolId id : Id} {dto : CreateSchoolTimeSlotDto} {s s' : World}
    (h : createTimeSlot schoolId dto id s = .ok s') :
    ∃ row, s' = { s with timeSlots := s.timeSlots.put row } ∧
      ∀ other ∈ s.timeSlots, other.id ≠ row.id → row.Apart other := by
  unfold createTimeSlot at h
  obtain ⟨period, -, h⟩ := bind_ok h
  obtain ⟨_, hfree, h⟩ := bind_ok h
  by_cases hid : s.timeSlots.contains id = true
  · rw [if_pos hid] at h
    cases h
  · rw [if_neg hid] at h
    refine ⟨_, of_writeTimeSlot h, fun other hmem _ => ?_⟩
    exact apart_of_assertNoTimeSlotOverlap hfree hmem nofun

theorem updateTimeSlot_ok {schoolId slotId : Id} {dto : UpdateSchoolTimeSlotDto} {s s' : World}
    (h : updateTimeSlot schoolId slotId dto s = .ok s') :
    ∃ row, s' = { s with timeSlots := s.timeSlots.put row } ∧
      ∀ other ∈ s.timeSlots, other.id ≠ row.id → row.Apart other := by
  unfold updateTimeSlot at h
  split at h
  · cases h
  · next slot hfind =>
      obtain ⟨hfind, hschool⟩ := Option.filter_eq_some_iff.1 hfind
      obtain rfl : slot.id = slotId := Table.key_of_find? hfind
      obtain rfl : slot.schoolId = schoolId := of_decide_eq_true hschool
      obtain ⟨period, -, h⟩ := bind_ok h
      obtain ⟨_, hfree, h⟩ := bind_ok h
      refine ⟨_, of_writeTimeSlot h, fun other hmem hne => ?_⟩
      -- The slot itself is the only one that the check leaves out.
      exact apart_of_assertNoTimeSlotOverlap hfree hmem fun heq => hne (Option.some.inj heq).symm

theorem deleteTimeSlot_ok {schoolId slotId : Id} {s s' : World}
    (h : deleteTimeSlot schoolId slotId s = .ok s') :
    s' = { s with timeSlots := s.timeSlots.filter (·.id ≠ slotId) } := by
  unfold deleteTimeSlot at h
  split at h
  · cases h
  · exact (Except.ok.inj h).symm

theorem GridSafe.run {s s' : World} (hsafe : GridSafe s) {o : TimeSlotOp} (h : o.run s = .ok s') :
    GridSafe s' := by
  cases o with
  | createTimeSlot schoolId dto id =>
      obtain ⟨row, rfl, hrow⟩ := createTimeSlot_ok h
      exact hsafe.put hrow
  | updateTimeSlot schoolId slotId dto =>
      obtain ⟨row, rfl, hrow⟩ := updateTimeSlot_ok h
      exact hsafe.put hrow
  | deleteTimeSlot schoolId slotId =>
      obtain rfl := deleteTimeSlot_ok h
      intro a ha b hb
      exact hsafe a (Table.mem_filter.1 ha).1 b (Table.mem_filter.1 hb).1

theorem World.attempt_of_error {s : World} {o : TimeSlotOp} {e : Err} (h : o.run s = .error e) :
    s.attempt o = s := by
  rw [attempt, h]
  rfl

theorem GridSafe.attempt {s : World} (hsafe : GridSafe s) (o : TimeSlotOp) :
    GridSafe (s.attempt o) := by
  cases h : o.run s with
  | error e =>
      rw [World.attempt_of_error h]
      exact hsafe
  | ok s' =>
      have hnext : s.attempt o = s' := by
        rw [World.attempt, h]
        rfl
      rw [hnext]
      exact hsafe.run h

theorem GridSafe.attemptAll {s : World} (hsafe : GridSafe s) (ops : List TimeSlotOp) :
    GridSafe (s.attemptAll ops) := by
  induction ops generalizing s with
  | nil => exact hsafe
  | cons o ops ih => exact ih (hsafe.attempt o)

/-! ## The result -/

/-- **The time slots of a school never overlap**, active or not, and each of them ends after it
    starts, whatever is created, changed and deleted from a database without time slots on. A call
    that is refused leaves them as they are. -/
theorem timeSlots_never_overlap (s : World) (ops : List TimeSlotOp) :
    let s' := World.attemptAll { s with timeSlots := .empty } ops
    (∀ a ∈ s'.timeSlots, a.period.startTime < a.period.endTime) ∧
      (∀ a ∈ s'.timeSlots, ∀ b ∈ s'.timeSlots, a.id ≠ b.id → a.schoolId = b.schoolId →
        a.dayOfWeek = b.dayOfWeek → a.period.overlaps b.period = false) ∧
      ∀ o e, o.run s' = .error e → (s'.attempt o).timeSlots = s'.timeSlots := by
  intro s'
  have hstart : GridSafe { s with timeSlots := .empty } :=
    fun a ha => absurd ha (Table.not_mem_empty a)
  have hsafe : GridSafe s' := hstart.attemptAll ops
  refine ⟨fun a _ => a.period.ordered, hsafe, fun o e he => ?_⟩
  rw [World.attempt_of_error he]

end GetPlatform.Timetable
