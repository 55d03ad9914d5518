import Mathlib.Data.List.Induction
import GetPlatform.Timetable.Agreement

set_option autoImplicit false

/-! # The timetable of a teacher

Whatever slots are created, moved and deleted, in any school: when each of them is written while the
teacher is free, the slots of a teacher never overlap, leave the time to travel, and keep clear of what
the teacher had declared. So the report on a teacher has nothing to warn of. -/

namespace GetPlatform.Timetable

/-! ## Declared buffers -/

theorem sort_comm (a b : Id) : sort a b = sort b a := by
  unfold sort
  split_ifs with hab hba hba
  · rw [le_antisymm hab hba]
  · rfl
  · rfl
  · exact absurd ((le_total a b).resolve_left hab) hba

theorem sort_eq_iff {a b x y : Id} : sort a b = sort x y ↔ a = x ∧ b = y ∨ a = y ∧ b = x := by
  constructor
  · intro h
    unfold sort at h
    split_ifs at h <;> obtain ⟨rfl, rfl⟩ := Prod.mk.inj h
    · exact .inl ⟨rfl, rfl⟩
    · exact .inr ⟨rfl, rfl⟩
    · exact .inr ⟨rfl, rfl⟩
    · exact .inl ⟨rfl, rfl⟩
  · rintro (⟨rfl, rfl⟩ | ⟨rfl, rfl⟩)
    · rfl
    · exact sort_comm a b

/-- A declaration of travel time by a teacher. -/
abbrev Declaration := Id × SetTravelBufferDto

/-- Is the declaration one that is accepted? -/
def accepts (s : World) (d : Declaration) : Bool :=
  d.2.schoolAId ≠ d.2.schoolBId &&
    ((s.assignments.find? (d.1, d.2.schoolAId)).any (·.isActive) &&
      (s.assignments.find? (d.1, d.2.schoolBId)).any (·.isActive))

/-- The declarations are made one after the other; one that is refused changes nothing. -/
def declareBuffers (s : World) (ds : List Declaration) : World :=
  ds.foldl (fun s d => (setTravelBuffer d.1 d.2 s).toOption.getD s) s

/-- What a teacher declared last for two schools, in either order. -/
def declared (s : World) (ds : List Declaration) (teacherId x y : Id) : Option Nat :=
  (ds.reverse.find? fun d => accepts s d && (d.1 = teacherId &&
    (d.2.schoolAId = x && d.2.schoolBId = y || d.2.schoolAId = y && d.2.schoolBId = x))).map
      (·.2.minutesBuffer)

/-- The row of a declaration. -/
def bufferOf (d : Declaration) : TeacherTravelBuffer :=
  ⟨d.1, (sort d.2.schoolAId d.2.schoolBId).1, (sort d.2.schoolAId d.2.schoolBId).2,
    d.2.minutesBuffer⟩

theorem setTravelBuffer_eq (s : World) (d : Declaration) :
    (setTravelBuffer d.1 d.2 s).toOption.getD s =
      if accepts s d then { s with buffers := s.buffers.put (bufferOf d) } else s := by
  unfold setTravelBuffer accepts assertActiveAssignment
  by_cases hdifferent : d.2.schoolAId = d.2.schoolBId
  · simp [hdifferent, Except.toOption, throw, throwThe, MonadExceptOf.throw, bind, Except.bind]
  · by_cases hA : (s.assignments.find? (d.1, d.2.schoolAId)).any (·.isActive) = true
    · by_cases hB : (s.assignments.find? (d.1, d.2.schoolBId)).any (·.isActive) = true
      · simp [hdifferent, hA, hB, Except.toOption, bind, Except.bind, pure, Except.pure, bufferOf]
      · simp [hdifferent, hA, hB, Except.toOption, bind, Except.bind]
    · simp [hdifferent, hA, Except.toOption, bind, Except.bind]

theorem declareBuffers_concat (s : World) (ds : List Declaration) (d : Declaration) :
    declareBuffers s (ds ++ [d]) = if accepts (declareBuffers s ds) d then
      { declareBuffers s ds with buffers := (declareBuffers s ds).buffers.put (bufferOf d) }
      else declareBuffers s ds := by
  rw [← setTravelBuffer_eq, declareBuffers, List.foldl_append]
  rfl

/-- Declarations change the buffers only. -/
theorem declareBuffers_eq (s : World) (ds : List Declaration) :
    ∃ t, declareBuffers s ds = { s with buffers := t } := by
  induction ds using List.reverseRecOn with
  | nil => exact ⟨s.buffers, rfl⟩
  | append_singleton ds d ih =>
      obtain ⟨t, ht⟩ := ih
      rw [declareBuffers_concat, ht]
      split
      · exact ⟨_, rfl⟩
      · exact ⟨t, rfl⟩

/-- The buffer that is stored for two schools is the last one that was declared. -/
theorem find?_declareBuffers {s : World} (h₀ : s.buffers = .empty) (ds : List Declaration)
    (teacherId x y : Id) :
    ((declareBuffers s ds).buffers.find? (teacherId, sort x y)).map (·.minutesBuffer) =
      declared s ds teacherId x y := by
  induction ds using List.reverseRecOn with
  | nil => simp [declareBuffers, declared, h₀]
  | append_singleton ds d ih =>
      obtain ⟨t, ht⟩ := declareBuffers_eq s ds
      rw [ht] at ih
      have haccepts : accepts { s with buffers := t } d = accepts s d := rfl
      rw [declareBuffers_concat, ht, haccepts, declared, List.reverse_append, List.reverse_singleton,
        List.singleton_append, List.find?_cons]
      by_cases haccept : accepts s d = true
      · -- It is accepted: it is the last one for its own schools.
        rw [if_pos haccept, haccept, Bool.true_and, Table.find?_put]
        have hkey : ((teacherId, sort x y) = Keyed.key (bufferOf d)) ↔
            (d.1 = teacherId && (d.2.schoolAId = x && d.2.schoolBId = y ||
              d.2.schoolAId = y && d.2.schoolBId = x)) = true := by
          simp only [Bool.and_eq_true, Bool.or_eq_true, decide_eq_true_eq, ← sort_eq_iff]
          show (teacherId, sort x y) = (d.1, sort d.2.schoolAId d.2.schoolBId) ↔ _
          rw [Prod.mk.injEq, eq_comm, @eq_comm _ (sort x y)]
        by_cases hmatch : (teacherId, sort x y) = Keyed.key (bufferOf d)
        · rw [if_pos hmatch, hkey.1 hmatch]
          rfl
        · rw [if_neg hmatch, Bool.eq_false_iff.2 fun h => hmatch (hkey.2 h)]
          exact ih
      · rw [if_neg haccept, Bool.eq_false_iff.2 haccept, Bool.false_and]
        exact ih

/-! ## What a write requires -/

/-- The row may be written: it takes its teacher from its course, and the teacher is free for it. -/
structure Admissible (s : World) (row : CourseSlot) : Prop where
  course : ∃ course, s.courses.find? row.courseId = some course ∧ course.teacherId = row.teacherId
  available : ∀ u ∈ s.unavailability, u.teacherId = row.teacherId →
    u.dayOfWeek = some row.dayOfWeek → row.period.overlaps u.period = false
  unbooked : ∀ other ∈ s.slots, other.id ≠ row.id → other.teacherId = row.teacherId →
    other.dayOfWeek = row.dayOfWeek → row.period.overlaps other.period = false
  inTime : ∀ other ∈ s.slots, other.id ≠ row.id → other.teacherId = row.teacherId →
    other.dayOfWeek = row.dayOfWeek → ∀ x y, s.schoolOf row = some x → s.schoolOf other = some y →
    y ≠ x → ∀ buffer, s.buffers.find? (row.teacherId, sort x y) = some buffer →
    (buffer.minutesBuffer : Int) ≤ gapBetween row.period other.period

/-- Every slot has a course, and its teacher is the one of the course. -/
def Linked (s : World) : Prop :=
  ∀ slot ∈ s.slots, ∃ course, s.courses.find? slot.courseId = some course ∧
    course.teacherId = slot.teacherId

theorem Free.admissible {s : World} {schoolId : Id} {excludeSlotId : Option Id} {row : CourseSlot}
    {course : Course} (hcourse : s.courses.find? row.courseId = some course)
    (hteacher : course.teacherId = row.teacherId) (hschool : course.schoolId = schoolId)
    (hexclude : ∀ id, excludeSlotId = some id → id = row.id)
    (h : Free s row.teacherId schoolId ⟨row.dayOfWeek, row.period⟩ excludeSlotId) :
    Admissible s row := by
  have hlooked : ∀ other ∈ s.slots, other.id ≠ row.id → other.teacherId = row.teacherId →
      other.dayOfWeek = row.dayOfWeek →
      other ∈ s.slotsOn row.teacherId row.dayOfWeek excludeSlotId :=
    fun other hmem hne hsame hday => mem_slotsOn.2 ⟨hmem, hsame, hday, fun hex => hne (hexclude _ hex)⟩
  have hof : s.schoolOf row = some schoolId := by
    rw [World.schoolOf, hcourse, Option.map_some, hschool]
  refine ⟨⟨course, hcourse, hteacher⟩, fun u hu hsame hday => ?_,
    fun other hmem hne hsame hday => h.unbooked other (hlooked other hmem hne hsame hday),
    fun other hmem hne hsame hday x y hx hy hdifferent buffer hbuffer => ?_⟩
  · exact h.available u (List.mem_filter.2 ⟨hu, decide_eq_true ⟨hsame, hday⟩⟩)
  · obtain rfl := Option.some.inj (hx.symm.trans hof)
    exact h.inTime other (hlooked other hmem hne hsame hday) y hy hdifferent buffer hbuffer

theorem of_assertTeacherFreeOrThrow {teacherId schoolId : Id} {slot : CandidateSlot}
    {excludeSlotId : Option Id} {s : World} {u : Unit}
    (h : assertTeacherFreeOrThrow teacherId schoolId slot excludeSlotId s = .ok u) :
    Free s teacherId schoolId slot excludeSlotId := by
  unfold assertTeacherFreeOrThrow at h
  split at h
  · next hfree => exact isTeacherFree_iff.1 hfree
  · cases h

/-- A slot that is created is admissible. -/
theorem of_createCourseSlot {schoolId courseId id : Id} {dto : CreateCourseSlotDto} {s s' : World}
    (h : createCourseSlot schoolId courseId dto id s = .ok s') :
    ∃ row, row.id = id ∧ Admissible s row ∧ s' = { s with slots := s.slots.put row } := by
  obtain ⟨course, period, hcourse, -, hfree, -, rfl⟩ := createCourseSlot_ok h
  obtain ⟨hfind, hschool⟩ := of_ensureSchoolCourse hcourse
  exact ⟨_, rfl, (of_assertTeacherFreeOrThrow hfree).admissible hfind rfl hschool (by simp), rfl⟩

/-- A slot that is moved is admissible, when it has the teacher of its course. -/
theorem of_updateCourseSlot {schoolId courseId slotId : Id} {dto : UpdateCourseSlotDto}
    {s s' : World} (hlinked : Linked s) (h : updateCourseSlot schoolId courseId slotId dto s = .ok s') :
    ∃ row, row.id = slotId ∧ Admissible s row ∧ s' = { s with slots := s.slots.put row } := by
  unfold updateCourseSlot at h
  obtain ⟨course, hcourse, h⟩ := bind_ok h
  split at h
  · cases h
  · next slot hslot =>
      obtain ⟨period, -, h⟩ := bind_ok h
      obtain ⟨_, -, h⟩ := bind_ok h
      obtain ⟨_, hfree, h⟩ := bind_ok h
      obtain ⟨hfind, hschool⟩ := of_ensureSchoolCourse hcourse
      obtain ⟨hslot, hsame⟩ := Option.filter_eq_some_iff.1 hslot
      have hcourseId : slot.courseId = courseId := of_decide_eq_true hsame
      have hid : slot.id = slotId := Table.key_of_find? hslot
      obtain ⟨course', hcourse', hteacher⟩ := hlinked slot (Table.mem_of_find? hslot)
      obtain rfl := Option.some.inj (hfind.symm.trans (hcourseId ▸ hcourse'))
      rw [hteacher] at hfree
      refine ⟨_, ?_, ?_, of_writeSlot h⟩
      · exact hid
      · refine Free.admissible hcourse' hteacher hschool (fun _ hex => ?_)
          (of_assertTeacherFreeOrThrow hfree)
        exact (Option.some.inj hex).symm.trans hid.symm

/-- What is declared changes no slot. -/
theorem of_declareUnavailability {teacherId id : Id} {dto : DeclareUnavailabilityDto} {s s' : World}
    (h : declareUnavailability teacherId dto id s = .ok s') :
    ∃ t, s' = { s with unavailability := t } := by
  unfold declareUnavailability at h
  obtain ⟨period, -, h⟩ := bind_ok h
  by_cases hdate : dto.dayOfWeek.isNone ∧ dto.date.isNone
  · rw [if_pos hdate] at h
    cases h
  · rw [if_neg hdate] at h
    by_cases hid : s.unavailability.contains id = true
    · rw [if_pos hid] at h
      cases h
    · rw [if_neg hid] at h
      exact ⟨_, (Except.ok.inj h).symm⟩

theorem of_deleteUnavailability {teacherId id : Id} {s s' : World}
    (h : deleteUnavailability teacherId id s = .ok s') : ∃ t, s' = { s with unavailability := t } := by
  unfold deleteUnavailability at h
  split at h
  · exact ⟨_, (Except.ok.inj h).symm⟩
  · cases h

theorem of_deleteCourseSlot {schoolId courseId slotId : Id} {s s' : World}
    (h : deleteCourseSlot schoolId courseId slotId s = .ok s') :
    s' = { s with slots := s.slots.filter (·.id ≠ slotId) } := by
  unfold deleteCourseSlot at h
  obtain ⟨_, -, h⟩ := bind_ok h
  split at h
  · exact (Except.ok.inj h).symm
  · cases h

/-! ## Runs -/

inductive Op where
  | createCourseSlot (schoolId courseId : Id) (dto : CreateCourseSlotDto) (id : Id)
  | updateCourseSlot (schoolId courseId slotId : Id) (dto : UpdateCourseSlotDto)
  | deleteCourseSlot (schoolId courseId slotId : Id)
  | declareUnavailability (teacherId : Id) (dto : DeclareUnavailabilityDto) (id : Id)
  | deleteUnavailability (teacherId id : Id)

def Op.run : Op → World → Except Err World
  | createCourseSlot schoolId courseId dto id => Timetable.createCourseSlot schoolId courseId dto id
  | updateCourseSlot schoolId courseId slotId dto =>
      Timetable.updateCourseSlot schoolId courseId slotId dto
  | deleteCourseSlot schoolId courseId slotId =>
      Timetable.deleteCourseSlot schoolId courseId slotId
  | declareUnavailability teacherId dto id => Timetable.declareUnavailability teacherId dto id
  | deleteUnavailability teacherId id => Timetable.deleteUnavailability teacherId id

/-- The slot that the operation writes. -/
def Op.written : Op → Option Id
  | createCourseSlot _ _ _ id => some id
  | updateCourseSlot _ _ slotId _ => some slotId
  | _ => none

/-- The database, and for each slot the unavailability that was declared when it was written last. -/
structure History where
  world : World
  seen : Id → Table TeacherAvailability

def History.step (h : History) (o : Op) : History :=
  match o.run h.world with
  | .error _ => h
  | .ok s' =>
      { world := s'
        seen := fun id => if o.written = some id then h.world.unavailability else h.seen id }

def History.run (h : History) (ops : List Op) : History := ops.foldl History.step h

/-- Nothing has been written yet. -/
def History.start (s : World) : History := ⟨s, fun _ => .empty⟩

/-! ## The invariant -/

/-- The two periods leave this time between them. -/
def Separated (a b : Period) (minutes : Nat) : Prop :=
  (minutes : Int) ≤ toMinutes b.startTime - toMinutes a.endTime ∨
    (minutes : Int) ≤ toMinutes a.startTime - toMinutes b.endTime

theorem Separated.symm {a b : Period} {minutes : Nat} (h : Separated a b minutes) :
    Separated b a minutes := Or.symm h

/-- A gap that is long enough, on whichever side it is. -/
theorem separated_of_gapBetween {a b : Period} {minutes : Nat}
    (h : (minutes : Int) ≤ gapBetween a b) : Separated a b minutes := by
  unfold gapBetween at h
  dsimp only at h
  split at h
  · exact .inr h
  · exact .inl h

/-- Two slots of a teacher on a day are compatible. -/
structure Compatible (s : World) (a b : CourseSlot) : Prop where
  apart : a.period.overlaps b.period = false
  inTime : ∀ x y, s.schoolOf a = some x → s.schoolOf b = some y → x ≠ y → ∀ buffer,
    s.buffers.find? (a.teacherId, sort x y) = some buffer →
    Separated a.period b.period buffer.minutesBuffer

theorem Compatible.symm {s : World} {a b : CourseSlot} (hsame : a.teacherId = b.teacherId)
    (h : Compatible s a b) : Compatible s b a := by
  refine ⟨(Period.overlaps_comm _ _).trans h.apart, fun x y hx hy hne buffer hbuffer => ?_⟩
  rw [← hsame, sort_comm] at hbuffer
  exact (h.inTime y x hy hx hne.symm buffer hbuffer).symm

/-- What holds of the timetable in every state. -/
structure Safe (h : History) : Prop where
  linked : Linked h.world
  compatible : ∀ a ∈ h.world.slots, ∀ b ∈ h.world.slots, a.id ≠ b.id → a.teacherId = b.teacherId →
    a.dayOfWeek = b.dayOfWeek → Compatible h.world a b
  available : ∀ slot ∈ h.world.slots, ∀ u ∈ h.seen slot.id, u.teacherId = slot.teacherId →
    u.dayOfWeek = some slot.dayOfWeek → slot.period.overlaps u.period = false

theorem Admissible.compatible {s : World} {row other : CourseSlot} (h : Admissible s row)
    (hmem : other ∈ s.slots) (hne : other.id ≠ row.id) (hsame : other.teacherId = row.teacherId)
    (hday : other.dayOfWeek = row.dayOfWeek) : Compatible s row other :=
  ⟨h.unbooked other hmem hne hsame hday, fun x y hx hy hdifferent buffer hbuffer =>
    separated_of_gapBetween <|
      h.inTime other hmem hne hsame hday x y hx hy hdifferent.symm buffer hbuffer⟩

/-- Writing an admissible row keeps the timetable safe. -/
theorem Safe.write {h : History} (hsafe : Safe h) {row : CourseSlot}
    (hrow : Admissible h.world row) :
    Safe ⟨{ h.world with slots := h.world.slots.put row },
      fun id => if some row.id = some id then h.world.unavailability else h.seen id⟩ := by
  refine ⟨fun slot hslot => ?_, fun a ha b hb hne hsame hday => ?_, fun slot hslot u hu => ?_⟩
  · rcases Table.mem_put.1 hslot with rfl | ⟨hslot, -⟩
    · exact hrow.course
    · exact hsafe.linked slot hslot
  · rcases Table.mem_put.1 ha with rfl | ⟨ha', -⟩ <;> rcases Table.mem_put.1 hb with rfl | ⟨hb', -⟩
    · exact absurd rfl hne
    · obtain ⟨hapart, htime⟩ := hrow.compatible hb' hne.symm hsame.symm hday.symm
      exact ⟨hapart, htime⟩
    · obtain ⟨hapart, htime⟩ := (hrow.compatible ha' hne hsame hday).symm hsame.symm
      exact ⟨hapart, htime⟩
    · obtain ⟨hapart, htime⟩ := hsafe.compatible a ha' b hb' hne hsame hday
      exact ⟨hapart, htime⟩
  · rcases Table.mem_put.1 hslot with rfl | ⟨hslot', hslotne⟩
    · have hu : u ∈ h.world.unavailability := by simpa using hu
      exact hrow.available u hu
    · have hne : row.id ≠ slot.id := fun heq => hslotne heq.symm
      have hu : u ∈ h.seen slot.id := by simpa [hne] using hu
      exact hsafe.available slot hslot' u hu

/-- The invariant does not depend on what else is stored. -/
theorem Safe.of_slots {h h' : History} (hsafe : Safe h)
    (hslots : ∀ slot ∈ h'.world.slots, slot ∈ h.world.slots)
    (hcourses : h'.world.courses = h.world.courses) (hbuffers : h'.world.buffers = h.world.buffers)
    (hseen : h'.seen = h.seen) : Safe h' := by
  have hschool : ∀ slot, h'.world.schoolOf slot = h.world.schoolOf slot := fun slot => by
    rw [World.schoolOf, World.schoolOf, hcourses]
  refine ⟨fun slot hslot => ?_, fun a ha b hb hne hsame hday => ?_, fun slot hslot u hu => ?_⟩
  · rw [hcourses]
    exact hsafe.linked slot (hslots slot hslot)
  · obtain ⟨hapart, htime⟩ := hsafe.compatible a (hslots a ha) b (hslots b hb) hne hsame hday
    refine ⟨hapart, fun x y hx hy => ?_⟩
    rw [hschool] at hx hy
    rw [hbuffers]
    exact htime x y hx hy
  · rw [hseen] at hu
    exact hsafe.available slot (hslots slot hslot) u hu

/-- **The invariant is kept by every operation**, and the declared buffers stay as they are. -/
theorem Safe.step {h : History} (hsafe : Safe h) (o : Op) :
    Safe (h.step o) ∧ (h.step o).world.buffers = h.world.buffers ∧
      (h.step o).world.courses = h.world.courses := by
  unfold History.step
  split
  · exact ⟨hsafe, rfl, rfl⟩
  · next s' hrun =>
      cases o with
      | createCourseSlot schoolId courseId dto id =>
          obtain ⟨row, rfl, hrow, rfl⟩ := of_createCourseSlot hrun
          exact ⟨hsafe.write hrow, rfl, rfl⟩
      | updateCourseSlot schoolId courseId slotId dto =>
          obtain ⟨row, rfl, hrow, rfl⟩ := of_updateCourseSlot hsafe.linked hrun
          exact ⟨hsafe.write hrow, rfl, rfl⟩
      | deleteCourseSlot schoolId courseId slotId =>
          obtain rfl := of_deleteCourseSlot hrun
          exact ⟨hsafe.of_slots (fun _ hslot => (Table.mem_filter.1 hslot).1) rfl rfl rfl, rfl, rfl⟩
      | declareUnavailability teacherId dto id =>
          obtain ⟨t, rfl⟩ := of_declareUnavailability hrun
          exact ⟨hsafe.of_slots (fun _ hslot => hslot) rfl rfl rfl, rfl, rfl⟩
      | deleteUnavailability teacherId id =>
          obtain ⟨t, rfl⟩ := of_deleteUnavailability hrun
          exact ⟨hsafe.of_slots (fun _ hslot => hslot) rfl rfl rfl, rfl, rfl⟩

theorem Safe.run {h : History} (hsafe : Safe h) (ops : List Op) :
    Safe (h.run ops) ∧ (h.run ops).world.buffers = h.world.buffers := by
  induction ops generalizing h with
  | nil => exact ⟨hsafe, rfl⟩
  | cons o ops ih =>
      obtain ⟨hstep, hbuffers, -⟩ := hsafe.step o
      obtain ⟨hrun, hbuffers'⟩ := ih hstep
      exact ⟨hrun, hbuffers'.trans hbuffers⟩

/-! ## The report -/

/-- The buffer that the report finds is the one that is stored for the two schools. -/
theorem find_reported {s : World} {teacherId x y : Id} :
    (s.buffers.rows.filter (·.teacherId = teacherId)).find?
        (fun buf => (buf.schoolAId, buf.schoolBId) = sort x y) =
      s.buffers.find? (teacherId, sort x y) := by
  rw [List.find?_filter, Table.find?]
  congr 1
  funext buf
  rw [decide_eq_decide, decide_eq_true_eq, decide_eq_true_eq]
  constructor
  · rintro ⟨hteacher, hschools⟩
    exact Prod.ext hteacher hschools
  · exact fun hkey => Prod.mk.inj hkey

/-- The report compares two compatible slots without a warning. -/
theorem compareSlots_eq_none {s : World} {teacherId : Id} {a b : ReportedSlot}
    (hteacher : a.slot.teacherId = teacherId) (hsame : b.slot.teacherId = teacherId)
    (ha : s.schoolOf a.slot = some a.school.id) (hb : s.schoolOf b.slot = some b.school.id)
    (h : a.slot.dayOfWeek = b.slot.dayOfWeek → Compatible s a.slot b.slot) :
    compareSlots (s.buffers.rows.filter (·.teacherId = teacherId)) a b = none := by
  -- One after the other, the two slots leave the time that is required.
  have hordered : ∀ x y : ReportedSlot, Compatible s x.slot y.slot → x.slot.teacherId = teacherId →
      s.schoolOf x.slot = some x.school.id → s.schoolOf y.slot = some y.school.id →
      x.school.id ≠ y.school.id →
      toMinutes x.slot.period.startTime ≤ toMinutes y.slot.period.startTime →
      ¬ toMinutes y.slot.period.startTime - toMinutes x.slot.period.endTime <
        ((((s.buffers.rows.filter (·.teacherId = teacherId)).find? fun buf =>
          (buf.schoolAId, buf.schoolBId) = sort x.school.id y.school.id).map
            (·.minutesBuffer)).getD 0 : Nat) := by
    intro x y hcompatible hx hxs hys hne hle
    have hxpos := x.slot.period.toMinutes_lt
    have hypos := y.slot.period.toMinutes_lt
    have hapart : ¬ Overlap (toMinutes x.slot.period.startTime) (toMinutes x.slot.period.endTime)
        (toMinutes y.slot.period.startTime) (toMinutes y.slot.period.endTime) := by
      rw [← overlaps_iff, Bool.not_eq_true]
      exact hcompatible.apart
    rw [not_overlap_iff] at hapart
    rw [find_reported]
    cases hbuffer : s.buffers.find? (teacherId, sort x.school.id y.school.id) with
    | none =>
        rw [Option.map_none, Option.getD_none]
        omega
    | some buffer =>
        rw [Option.map_some, Option.getD_some]
        rcases hcompatible.inTime _ _ hxs hys hne buffer (hx ▸ hbuffer) with hafter | hbefore <;> omega
  unfold compareSlots
  split_ifs with hday hschool hle
  · rfl
  · rfl
  · have hcompatible := h (not_not.1 hday)
    exact if_neg (hordered a b hcompatible hteacher ha hb hschool hle)
  · have hcompatible := (h (not_not.1 hday)).symm (hteacher.trans hsame.symm)
    have hle := (not_le.1 hle).le
    exact if_neg (hordered b a hcompatible hsame hb ha (Ne.symm hschool) hle)

theorem compareAll_eq_nil {buffers : List TeacherTravelBuffer} {slots : List ReportedSlot}
    (h : slots.Pairwise fun a b => compareSlots buffers a b = none) : compareAll buffers slots = [] := by
  induction h with
  | nil => rfl
  | cons ha _ ih =>
      rw [compareAll, ih, List.append_nil]
      exact List.filterMap_eq_nil_iff.2 ha

/-- The slots of the report are slots of the teacher, with their schools. -/
theorem of_mem_reportedSlots {s : World} {teacherId : Id} {a : ReportedSlot}
    (h : a ∈ s.reportedSlots teacherId) :
    a.slot ∈ s.slots ∧ a.slot.teacherId = teacherId ∧ s.schoolOf a.slot = some a.school.id := by
  rw [World.reportedSlots, mem_orderBy, List.mem_filterMap] at h
  obtain ⟨slot, hslot, ha⟩ := h
  obtain ⟨hmem, hteacher⟩ := List.mem_filter.1 hslot
  obtain ⟨school, hschool, rfl⟩ := Option.map_eq_some_iff.1 ha
  obtain ⟨id, hid, hfind⟩ := Option.bind_eq_some_iff.1 hschool
  obtain rfl : school.id = id := Table.key_of_find? hfind
  exact ⟨hmem, of_decide_eq_true hteacher, hid⟩

theorem pairwise_reportedSlots (s : World) (teacherId : Id) :
    (s.reportedSlots teacherId).Pairwise fun a b => a.slot.id ≠ b.slot.id := by
  have hrows : s.slots.rows.Pairwise fun a b => a.id ≠ b.id := List.pairwise_map.1 s.slots.nodup
  refine ((perm_orderBy _ _).pairwise_iff fun h => h.symm).2 ?_
  refine List.pairwise_filterMap.2 ((hrows.filter _).imp fun hne a ha b hb => ?_)
  obtain ⟨_, -, rfl⟩ := Option.map_eq_some_iff.1 ha
  obtain ⟨_, -, rfl⟩ := Option.map_eq_some_iff.1 hb
  exact hne

theorem Safe.report {h : History} (hsafe : Safe h) {teacherId : Id}
    (hteacher : h.world.teachers.contains teacherId = true) :
    ∃ report, getConflictReport teacherId h.world = .ok report ∧ report.warnings = [] := by
  refine ⟨_, by rw [getConflictReport, if_neg (not_not.2 hteacher)]; rfl, compareAll_eq_nil ?_⟩
  refine (pairwise_reportedSlots h.world teacherId).imp_of_mem fun ha hb hne => ?_
  obtain ⟨hmem, hsame, hschool⟩ := of_mem_reportedSlots ha
  obtain ⟨hmem', hsame', hschool'⟩ := of_mem_reportedSlots hb
  exact compareSlots_eq_none hsame hsame' hschool hschool' fun hday =>
    hsafe.compatible _ hmem _ hmem' hne (hsame.trans hsame'.symm) hday

/-! ## Every run -/

/-- What is promised of a state: slots of a teacher on a day do not overlap and leave the time that was
    declared between their schools, no slot overlaps a weekly unavailability that stood when it was
    written, and no report has a warning. -/
structure Promised (h : History) (buffer : Id → Id → Id → Option Nat) : Prop where
  apart : ∀ a ∈ h.world.slots, ∀ b ∈ h.world.slots, a.id ≠ b.id → a.teacherId = b.teacherId →
    a.dayOfWeek = b.dayOfWeek → a.period.overlaps b.period = false
  inTime : ∀ a ∈ h.world.slots, ∀ b ∈ h.world.slots, a.id ≠ b.id → a.teacherId = b.teacherId →
    a.dayOfWeek = b.dayOfWeek → ∀ x y, h.world.schoolOf a = some x → h.world.schoolOf b = some y →
    x ≠ y → ∀ minutes, buffer a.teacherId x y = some minutes → Separated a.period b.period minutes
  available : ∀ slot ∈ h.world.slots, ∀ u ∈ h.seen slot.id, u.teacherId = slot.teacherId →
    u.dayOfWeek = some slot.dayOfWeek → slot.period.overlaps u.period = false
  report : ∀ teacherId, h.world.teachers.contains teacherId = true →
    ∃ report, getConflictReport teacherId h.world = .ok report ∧ report.warnings = []

/-- **Timetable safety.** Once the travel buffers are declared, the promises hold in every state that
    any sequence of operations reaches from an empty timetable. -/
theorem teacher_timetable_safe {s : World} (hslots : s.slots = .empty) (hbuffers : s.buffers = .empty)
    (ds : List Declaration) (ops : List Op) :
    Promised ((History.start (declareBuffers s ds)).run ops) (declared s ds) := by
  obtain ⟨t, ht⟩ := declareBuffers_eq s ds
  have hempty : ∀ slot, slot ∉ (History.start (declareBuffers s ds)).world.slots := by
    intro slot hslot
    rw [History.start, ht] at hslot
    exact Table.not_mem_empty slot (hslots ▸ hslot)
  have hstart : Safe (History.start (declareBuffers s ds)) :=
    ⟨fun slot hslot => absurd hslot (hempty slot), fun a ha => absurd ha (hempty a),
      fun slot hslot => absurd hslot (hempty slot)⟩
  obtain ⟨hsafe, hsame⟩ := hstart.run ops
  refine ⟨fun a ha b hb hne hteacher hday =>
    (hsafe.compatible a ha b hb hne hteacher hday).apart,
    fun a ha b hb hne hteacher hday x y hx hy hdifferent minutes hminutes => ?_,
    hsafe.available, fun teacherId => hsafe.report⟩
  rw [← find?_declareBuffers hbuffers] at hminutes
  obtain ⟨buffer, hfind, rfl⟩ := Option.map_eq_some_iff.1 hminutes
  refine (hsafe.compatible a ha b hb hne hteacher hday).inTime x y hx hy hdifferent buffer ?_
  rw [hsame]
  exact hfind

/-- Teacher `t1` works in schools `s1` and `s2`. -/
def twoSchools : World :=
  { World.empty with
    schools := .ofList [⟨"s1", "Nord"⟩, ⟨"s2", "Sud"⟩]
    teachers := .ofList [⟨"t1", none, none⟩]
    assignments := .ofList [⟨"t1", "s1", true⟩, ⟨"t1", "s2", true⟩]
    courses := .ofList
      [⟨"c1", "s1", "t1", "A", "Droit", none, none, none, "1", true, none⟩,
       ⟨"c2", "s2", "t1", "B", "Droit", none, none, none, "1", true, none⟩] }

/-- Half an hour is needed between the two. -/
def halfAnHour : List Declaration := [("t1", ⟨"s2", "s1", 30⟩)]

/-- A slot in each school, the second at noon; it is refused at ten and moved to half past ten. -/
def bookings : List Op :=
  [.createCourseSlot "s1" "c1" ⟨1, ⟨"08:00", accepted_eight⟩, ⟨"10:00", accepted_ten⟩, "A1"⟩ "k1",
   .createCourseSlot "s2" "c2" ⟨1, ⟨"12:00", by decide⟩, ⟨"13:00", by decide⟩, "B"⟩ "k2",
   .updateCourseSlot "s2" "c2" "k2" { startTime := some ⟨"10:00", accepted_ten⟩ },
   .updateCourseSlot "s2" "c2" "k2" { startTime := some ⟨"10:30", by decide⟩ }]

theorem teacher_timetable_safe_twoSchools :
    ((History.start (declareBuffers twoSchools halfAnHour)).run bookings).world.slots.rows.map
        (·.period.startTime.text) = ["08:00", "10:30"] ∧
      Promised ((History.start (declareBuffers twoSchools halfAnHour)).run bookings)
        (declared twoSchools halfAnHour) :=
  ⟨by decide +kernel, teacher_timetable_safe rfl rfl halfAnHour bookings⟩

end GetPlatform.Timetable
