import Mathlib.Algebra.Order.BigOperators.Group.List
import Mathlib.Tactic.Linarith
import Mathlib.Tactic.Ring
import GetPlatform.Timetable.Report

set_option autoImplicit false

/-! # What the created sessions are worth

Hours are converted to sessions by the average length of the time slots, so a covered requirement has
the hours that it needs when each of its sessions is counted at that length (`resolved_covered`). Each
session is held by the teacher of its course, who is not always the one that is assigned by now
(`sessions_held`). -/

namespace GetPlatform.Timetable

open Prog

/-! ## Minutes -/

def Period.minutes (period : Period) : Int := toMinutes period.endTime - toMinutes period.startTime

def totalMinutes (slots : List CourseSlot) : Int := (slots.map (·.period.minutes)).sum

/-- A rounded quotient is less than a half below the quotient. -/
theorem sub_lt_mul_roundDiv (n : Int) {d : Int} (hd : 0 < d) : 2 * n - d < 2 * d * roundDiv n d := by
  have hdiv := Int.mul_ediv_add_emod (2 * n + d) (2 * d)
  have hmod := Int.emod_lt_of_pos (2 * n + d) (show 0 < 2 * d by omega)
  rw [roundDiv]
  linarith

/-- A quotient that is exact is not rounded. -/
theorem roundDiv_mul {n d : Int} (hd : 0 < d) : roundDiv (d * n) d = n := by
  rw [roundDiv, show 2 * (d * n) + d = d + 2 * d * n by ring,
    Int.add_mul_ediv_left _ _ (by omega), Int.ediv_eq_zero_of_lt (by omega) (by omega), zero_add]

/-- Time slots of one length have it as their average. -/
theorem typicalDurationMinutes_of_even {timeSlots : List SchoolTimeSlot}
    (heven : ∀ t ∈ timeSlots, ∀ t' ∈ timeSlots, t.period.minutes = t'.period.minutes)
    {timeSlot : SchoolTimeSlot} (hmem : timeSlot ∈ timeSlots) :
    typicalDurationMinutes timeSlots = timeSlot.period.minutes := by
  have hsum : (timeSlots.map fun t => toMinutes t.period.endTime - toMinutes t.period.startTime).sum =
      timeSlots.length * timeSlot.period.minutes := by
    rw [← nsmul_eq_mul, ← List.length_map (f := fun t : SchoolTimeSlot => t.period.minutes)]
    refine List.sum_eq_card_nsmul _ _ fun minutes hminutes => ?_
    obtain ⟨t, ht, rfl⟩ := List.mem_map.1 hminutes
    exact heven t ht timeSlot hmem
  have hlength := List.length_pos_of_mem hmem
  rw [typicalDurationMinutes, if_neg (by simpa using List.ne_nil_of_mem hmem), hsum,
    roundDiv_mul (by omega)]

section Coverage

variable {s s' : World} {localeCompare : String → String → Int} {schoolId : Id}
  {dto : GenerateScheduleDto}

/-! ## A requirement that is not reported -/

/-- The sessions of a course. -/
def sessions (course : Option (Course × List CourseSlot)) : List CourseSlot :=
  (course.map (·.2)).getD []

theorem existingSessions_eq (course : Option (Course × List CourseSlot)) :
    existingSessions course = (sessions course).length := by
  cases course <;> rfl

/-- The sessions are worth the hours: each counts for the typical duration, and all of them together
    for what they last unless one of them is shorter than that. -/
structure Covered (timeSlots : List SchoolTimeSlot) (hoursPerWeek : Int) (slots : List CourseSlot) :
    Prop where
  counted : 2 * (hoursPerWeek * 60) - typicalDurationMinutes timeSlots ≤
    2 * (slots.length * typicalDurationMinutes timeSlots)
  lasting : (∀ slot ∈ slots, typicalDurationMinutes timeSlots ≤ slot.period.minutes) →
    2 * (hoursPerWeek * 60) - typicalDurationMinutes timeSlots ≤ 2 * totalMinutes slots
  drawn : ∀ slot ∈ slots, ∃ timeSlot ∈ timeSlots, slot.period = timeSlot.period
  even : (∀ t ∈ timeSlots, ∀ t' ∈ timeSlots, t.period.minutes = t'.period.minutes) →
    ∀ slot ∈ slots, slot.period.minutes = typicalDurationMinutes timeSlots

theorem covered_of_sessionsNeededFor {timeSlots : List SchoolTimeSlot} {hoursPerWeek : Int}
    {slots : List CourseSlot} (hpositive : 0 < typicalDurationMinutes timeSlots)
    (hneeded : sessionsNeededFor hoursPerWeek (typicalDurationMinutes timeSlots) ≤ slots.length)
    (hdrawn : ∀ slot ∈ slots, ∃ timeSlot ∈ timeSlots, slot.period = timeSlot.period) :
    Covered timeSlots hoursPerWeek slots := by
  have hcounted : 2 * (hoursPerWeek * 60) - typicalDurationMinutes timeSlots ≤
      2 * (slots.length * typicalDurationMinutes timeSlots) := by
    have hround : roundDiv (hoursPerWeek * 60) (typicalDurationMinutes timeSlots) ≤ slots.length := by
      rw [sessionsNeededFor, if_neg (by omega)] at hneeded
      omega
    have hlower := sub_lt_mul_roundDiv (hoursPerWeek * 60) hpositive
    have hupper := mul_le_mul_of_nonneg_left hround (show 0 ≤ 2 * typicalDurationMinutes timeSlots by
      omega)
    linarith
  refine ⟨hcounted, fun hlong => ?_, hdrawn, fun heven slot hslot => ?_⟩
  · have htotal : slots.length * typicalDurationMinutes timeSlots ≤ totalMinutes slots := by
      rw [totalMinutes, ← nsmul_eq_mul, ← List.length_map (f := fun slot : CourseSlot =>
        slot.period.minutes)]
      refine List.card_nsmul_le_sum _ _ fun minutes hminutes => ?_
      obtain ⟨slot, hslot, rfl⟩ := List.mem_map.1 hminutes
      exact hlong slot hslot
    linarith
  · obtain ⟨timeSlot, hmem, heq⟩ := hdrawn slot hslot
    rw [heq, typicalDurationMinutes_of_even heven hmem]

theorem leftOver_of_unreported {timeSlots : List SchoolTimeSlot} {rooms : List Room} {jobs : List Job}
    {unresolved : List UnresolvedItem}
    (hunresolved : unresolved.map UnresolvedItem.unexplained = jobs.flatMap fun job =>
      (leftOver timeSlots rooms job (s'.courseOf job.id)).toList)
    {job : Job} (hjob : job ∈ jobs) (hitems : itemsFor unresolved job = []) :
    leftOver timeSlots rooms job (s'.courseOf job.id) = none := by
  by_contra hsome
  obtain ⟨item, hitem⟩ := Option.ne_none_iff_exists'.1 hsome
  have hmem : item ∈ unresolved.map UnresolvedItem.unexplained := by
    rw [hunresolved, List.mem_flatMap]
    exact ⟨job, hjob, Option.mem_toList.2 hitem⟩
  obtain ⟨reported, hreported, rfl⟩ := List.mem_map.1 hmem
  have hsame := of_mem_leftOver (Option.mem_def.2 hitem)
  exact List.filter_eq_nil_iff.1 hitems reported hreported (decide_eq_true hsame)

/-- A slot of a course that had none is a new one. -/
theorem not_mem_of_empty {failed : Bool} {jobs : List Job} (hlinks : Links jobs s s' false failed)
    {requirementId : Id} {course : Course} (hempty : existingSessions (s.courseOf requirementId) = 0)
    (hfor : s'.courseFor requirementId = some course) {slot : CourseSlot}
    (hcourse : slot.courseId = course.id) : slot ∉ s.slots := by
  intro hmem
  obtain ⟨hfind, hlink⟩ := courseFor_spec hfor
  by_cases hold : course ∈ s.courses
  · -- The course is the one that the requirement had.
    obtain ⟨before, hbefore⟩ : ∃ before, s.courseFor requirementId = some before := by
      refine Option.isSome_iff_exists.1 (List.find?_isSome.2 ⟨course, hold, ?_⟩)
      exact decide_eq_true hlink
    obtain rfl := Option.some.inj (hfor.symm.trans (hlinks.added.courseFor_of_some hbefore))
    rw [existingSessions_courseOf hbefore, World.sessionsOf] at hempty
    have hnone := List.length_eq_zero_iff.1 (Int.natCast_eq_zero.1 hempty)
    exact List.filter_eq_nil_iff.1 hnone slot hmem (decide_eq_true hcourse)
  · exact hlinks.unused course (Table.mem_of_find? hfind) hold slot hmem hcourse

/-- A requirement that starts without a session and is not reported **is covered**, its sessions being
    counted at the typical duration. -/
theorem resolved_covered {cs : List (Except Err Id)} {result : GenerationResult}
    (hrun : (generate localeCompare schoolId dto).alone (M := model) none s cs =
      some (.ok result, s')) {job : Job} (hjob : job ∈ s.jobs localeCompare schoolId dto)
    (hempty : existingSessions (s.courseOf job.id) = 0)
    (hresolved : itemsFor result.unresolved job = []) :
    Covered (s.activeTimeSlots schoolId) job.hoursPerWeek (sessions (s'.courseOf job.id)) := by
  have hgenerated := of_generate hrun
  obtain ⟨g, rfl, hhandled⟩ := hgenerated.handled result rfl
  have hnone := leftOver_of_unreported hhandled.unresolved hjob hresolved
  obtain ⟨teacher, programId, hplaceable⟩ : ∃ teacher programId,
      Placeable (s.activeTimeSlots schoolId) (s.activeRooms schoolId dto.roomId) job teacher
        programId := by
    by_contra hnot
    rw [leftOver_of_not_placeable fun teacher programId h => hnot ⟨teacher, programId, h⟩] at hnone
    cases hnone
  have hdone : missing (s.activeTimeSlots schoolId) job (s'.courseOf job.id) ≤ 0 := by
    by_contra hmissing
    rw [leftOver_of_placeable hplaceable, if_neg hmissing] at hnone
    cases hnone
  rw [missing, existingSessions_eq] at hdone
  refine covered_of_sessionsNeededFor ?_ (by omega) fun slot hslot => ?_
  · have hconfigured := hplaceable.configured
    omega
  · cases hfor : s'.courseFor job.id with
    | none =>
        rw [World.courseOf, hfor] at hslot
        cases hslot
    | some course =>
        rw [World.courseOf, hfor] at hslot
        obtain ⟨hslot, hcourse⟩ := List.mem_filter.1 hslot
        have hnew := not_mem_of_empty hgenerated.links hempty hfor (of_decide_eq_true hcourse)
        obtain ⟨_, -, _, _, _, hcreated⟩ := hhandled.created slot hslot hnew
        exact hcreated.period

end Coverage

def halfHour : Period := ⟨⟨"07:30", by decide⟩, ⟨"08:00", accepted_eight⟩, by decide⟩

def longMorning : Period := ⟨⟨"08:00", accepted_eight⟩, ⟨"11:30", by decide⟩, by decide⟩

/-- One requirement, and two time slots of different lengths. -/
def uneven : World :=
  { twoRequirements with
    timeSlots := .ofList
      [⟨"h1", "s1", 1, halfHour, none, true⟩, ⟨"h2", "s1", 1, longMorning, none, true⟩]
    requirements := .ofList [⟨"q1", "k1", "m1", 2⟩] }

/-- What the generation meets: the identifiers of a course and a slot. -/
def oneCourse : List (Except Err Id) :=
  (["", "", "", "", "", "", "c1", "", "", "k1"] : List Id).map .ok

/-- Two hours a week are covered by half an hour. -/
theorem resolved_not_covered : ∃ cs result s',
    (generate byText "s1" { academicYearId := "y1" }).alone (M := model) none uneven cs =
      some (.ok result, s') ∧
    ∃ job ∈ uneven.jobs byText "s1" { academicYearId := "y1" }, 1 ≤ job.hoursPerWeek ∧
      existingSessions (uneven.courseOf job.id) = 0 ∧ itemsFor result.unresolved job = [] ∧
      ¬ 2 * (job.hoursPerWeek * 60) - typicalDurationMinutes (uneven.activeTimeSlots "s1") ≤
        2 * totalMinutes (sessions (s'.courseOf job.id)) := by
  have hend : ((generate byText "s1" { academicYearId := "y1" }).alone (M := model) none uneven
      oneCourse).any (fun (r, s') => match r with
        | .ok result => ∃ job ∈ uneven.jobs byText "s1" { academicYearId := "y1" },
            1 ≤ job.hoursPerWeek ∧ existingSessions (uneven.courseOf job.id) = 0 ∧
            itemsFor result.unresolved job = [] ∧
            ¬ 2 * (job.hoursPerWeek * 60) - typicalDurationMinutes (uneven.activeTimeSlots "s1") ≤
              2 * totalMinutes (sessions (s'.courseOf job.id))
        | .error _ => False) = true := by decide +kernel
  obtain ⟨⟨r, s'⟩, hrun, hjob⟩ := (Option.any_eq_true _ _).1 hend
  cases r with
  | error e => cases of_decide_eq_true hjob
  | ok result => exact ⟨_, result, s', hrun, of_decide_eq_true hjob⟩

/-- Time slots of one length: the requirement is covered by one session of two hours. -/
def even : World :=
  { uneven with timeSlots := .ofList [⟨"h1", "s1", 1, morning, none, true⟩] }

theorem resolved_covered_even : ∃ s' : World, ∃ job ∈ even.jobs byText "s1" { academicYearId := "y1" },
    (sessions (s'.courseOf job.id)).length = 1 ∧
    Covered (even.activeTimeSlots "s1") job.hoursPerWeek (sessions (s'.courseOf job.id)) := by
  have hend : ((generate byText "s1" { academicYearId := "y1" }).alone (M := model) none even
      oneCourse).any (fun (r, s') => match r with
        | .ok result => ∃ job ∈ even.jobs byText "s1" { academicYearId := "y1" },
            existingSessions (even.courseOf job.id) = 0 ∧ itemsFor result.unresolved job = [] ∧
            (sessions (s'.courseOf job.id)).length = 1
        | .error _ => False) = true := by decide +kernel
  obtain ⟨⟨r, s'⟩, hrun, hjob⟩ := (Option.any_eq_true _ _).1 hend
  cases r with
  | error e => cases of_decide_eq_true hjob
  | ok result =>
      obtain ⟨job, hmem, hempty, hresolved, hlength⟩ := of_decide_eq_true hjob
      exact ⟨s', job, hmem, hlength, resolved_covered hrun hmem hempty hresolved⟩

/-! ## The teachers of the sessions -/

/-- `teacherAssignment.upsert`, all that `assignTeacher` writes once its checks have passed. -/
def World.assignTeacher (requirementId teacherId : Id) (s : World) : World :=
  { s with
    requirementAssignments := s.requirementAssignments.put
      { subjectRequirementId := requirementId, teacherId } }

inductive Event where
  | assigned (requirementId teacherId : Id)
  | generated (schoolId : Id) (dto : GenerateScheduleDto) (before after : World)

/-- Teachers are assigned, and timetables are generated, in any order. A generation may meet failures
    and end early. -/
inductive Run (localeCompare : String → String → Int) (s₀ : World) : List Event → World → Prop
  | start : Run localeCompare s₀ [] s₀
  | assign {events : List Event} {s : World} (requirementId teacherId : Id)
      (h : Run localeCompare s₀ events s) :
      Run localeCompare s₀ (events ++ [.assigned requirementId teacherId])
        (s.assignTeacher requirementId teacherId)
  | generate {events : List Event} {s s' : World} {schoolId : Id} {dto : GenerateScheduleDto}
      {cs : List (Except Err Id)} {r : Except Err GenerationResult}
      (h : Run localeCompare s₀ events s)
      (hrun : (generate localeCompare schoolId dto).alone (M := model) none s cs = some (r, s')) :
      Run localeCompare s₀ (events ++ [.generated schoolId dto s s']) s'

/-- The requirement that a slot covers. -/
def World.requirementOf (s : World) (slot : CourseSlot) : Option Id :=
  (s.courses.find? slot.courseId).bind (·.subjectRequirementId)

/-- The slots that are new are held by the teachers who were assigned to their requirements. -/
def HeldByAssignee (s s' : World) : Prop :=
  ∀ slot ∈ s'.slots, slot ∉ s.slots → ∃ requirementId assignment,
    s'.requirementOf slot = some requirementId ∧
    s.requirementAssignments.find? requirementId = some assignment ∧
    slot.teacherId = assignment.teacherId

/-- Where sessions are still to be placed in a course, the assigned teacher holds the course. -/
def HeldWhereMissing (localeCompare : String → String → Int) (schoolId : Id)
    (dto : GenerateScheduleDto) (s : World) : Prop :=
  ∀ job ∈ s.jobs localeCompare schoolId dto, ∀ teacher programId,
    Placeable (s.activeTimeSlots schoolId) (s.activeRooms schoolId dto.roomId) job teacher programId →
    0 < missing (s.activeTimeSlots schoolId) job (s.courseOf job.id) →
    ∀ course, s.courseFor job.id = some course → course.teacherId = teacher.id

theorem heldByAssignee_of_generate {localeCompare : String → String → Int} {schoolId : Id}
    {dto : GenerateScheduleDto} {s s' : World} {cs : List (Except Err Id)}
    {r : Except Err GenerationResult} (hheld : HeldWhereMissing localeCompare schoolId dto s)
    (hrun : (generate localeCompare schoolId dto).alone (M := model) none s cs = some (r, s')) :
    HeldByAssignee s s' := by
  intro slot hslot hnew
  have hgenerated := of_generate hrun
  obtain ⟨job, hjob, course, teacher, programId, hcreated⟩ := hgenerated.created slot hslot hnew
  obtain ⟨assignment, hassigned, heq⟩ := assigned_of_mem hjob hcreated.placeable.assignment
  obtain ⟨hfind, hlink⟩ := courseFor_spec hcreated.courseFor
  refine ⟨job.id, assignment, ?_, hassigned, ?_⟩
  · rw [World.requirementOf, hcreated.courseId, hfind]
    exact hlink
  · rw [hcreated.teacherId, heq]
    cases hfor : s.courseFor job.id with
    | none => exact hcreated.newCourse hfor
    | some before =>
        have hsame := hgenerated.links.added.courseFor_of_some hfor
        obtain rfl := Option.some.inj (hsame.symm.trans hcreated.courseFor)
        exact hheld job hjob teacher programId hcreated.placeable hcreated.missing before hfor

/-- **Generated sessions go to the assigned teacher**, as long as no course that still lacks sessions
    is held by another one. -/
theorem sessions_held {localeCompare : String → String → Int} {s₀ s : World} {events : List Event}
    (hrun : Run localeCompare s₀ events s)
    (hheld : ∀ schoolId dto before after, .generated schoolId dto before after ∈ events →
      HeldWhereMissing localeCompare schoolId dto before) :
    ∀ schoolId dto before after, .generated schoolId dto before after ∈ events →
      HeldByAssignee before after := by
  induction hrun with
  | start => exact fun _ _ _ _ hmem => absurd hmem List.not_mem_nil
  | assign requirementId teacherId _ ih =>
      intro schoolId dto before after hmem
      refine ih (fun _ _ _ _ hmem => hheld _ _ _ _ (List.mem_append_left _ hmem)) schoolId dto before
        after ?_
      simpa using hmem
  | generate _ hgenerate ih =>
      intro schoolId dto before after hmem
      rcases List.mem_append.1 hmem with hmem | hlast
      · exact ih (fun _ _ _ _ hmem => hheld _ _ _ _ (List.mem_append_left _ hmem)) schoolId dto before
          after hmem
      · cases List.mem_singleton.1 hlast
        exact heldByAssignee_of_generate (hheld _ _ _ _ hmem) hgenerate

/-- A requirement whose course was created for `t1`, without a session so far. -/
def unplaced : World :=
  { even with
    requirementAssignments := .ofList [⟨"q1", "t1"⟩]
    courses := .ofList [⟨"c1", "s1", "t1", "AUTO-Q1", "Maths", some "m1", some "p1", some 1,
      "Année 1 · Licence", true, some "q1"⟩] }

/-- What a generation meets that creates no course. -/
def oneSlot : List (Except Err Id) := (["", "", "", "", "k1"] : List Id).map .ok

/-- The requirement is assigned to `t2`, and its session goes to `t1`. -/
theorem session_not_held : ∃ events s, Run byText unplaced events s ∧ ∃ schoolId dto before after,
    .generated schoolId dto before after ∈ events ∧ ¬ HeldByAssignee before after := by
  have hend : ((generate byText "s1" { academicYearId := "y1" }).alone (M := model) none
      (unplaced.assignTeacher "q1" "t2") oneSlot).any (fun (_, s') => ∃ slot ∈ s'.slots.rows,
        s'.requirementOf slot = some "q1" ∧ slot.teacherId = "t1") = true := by decide +kernel
  obtain ⟨⟨r, s'⟩, hrun, hslot⟩ := (Option.any_eq_true _ _).1 hend
  obtain ⟨slot, hslot, hrequirement, hteacher⟩ := of_decide_eq_true hslot
  refine ⟨_, s', .generate (.assign "q1" "t2" .start) hrun, _, _, _, s', .tail _ (.head _),
    fun hheld => ?_⟩
  obtain ⟨requirementId, assignment, hrequirement', hassigned, heq⟩ :=
    hheld slot hslot (by rintro ⟨⟩)
  obtain rfl := Option.some.inj (hrequirement.symm.trans hrequirement')
  obtain rfl : (⟨"q1", "t2"⟩ : TeacherAssignment) = assignment := Option.some.inj hassigned
  rw [hteacher] at heq
  exact absurd heq (by decide)

/-- Assigned to `t1` again, the requirement gets a session of `t1`. -/
theorem sessions_held_unplaced : ∃ events s, Run byText unplaced events s ∧ s.slots.rows.length = 1 ∧
    ∀ schoolId dto before after, .generated schoolId dto before after ∈ events →
      HeldByAssignee before after := by
  have hend : ((generate byText "s1" { academicYearId := "y1" }).alone (M := model) none
      (unplaced.assignTeacher "q1" "t1") oneSlot).any (fun (_, s') => s'.slots.rows.length = 1) =
      true := by decide +kernel
  obtain ⟨⟨r, s'⟩, hrun, hlength⟩ := (Option.any_eq_true _ _).1 hend
  have hrun : Run byText unplaced _ s' := .generate (.assign "q1" "t1" .start) hrun
  refine ⟨_, s', hrun, of_decide_eq_true hlength, sessions_held hrun ?_⟩
  intro schoolId dto before after hmem
  obtain ⟨rfl, rfl, rfl, rfl⟩ : schoolId = "s1" ∧ dto = { academicYearId := "y1" } ∧
      before = unplaced.assignTeacher "q1" "t1" ∧ after = s' := by simpa using hmem
  intro job hjob teacher programId hplaceable _ course hfor
  obtain ⟨assignment, hassigned, heq⟩ := assigned_of_mem hjob hplaceable.assignment
  have hcourses : ∀ course ∈ unplaced.courses.rows, course.teacherId = "t1" := by decide
  have hassignments : ∀ assignment ∈ (unplaced.assignTeacher "q1" "t1").requirementAssignments.rows,
      assignment.teacherId = "t1" := by decide +kernel
  rw [← heq, hassignments assignment (Table.mem_of_find? hassigned)]
  exact hcourses course (Table.mem_of_find? (courseFor_spec hfor).1)

end GetPlatform.Timetable
