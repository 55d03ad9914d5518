import GetPlatform.Timetable.Accounting

set_option autoImplicit false

/-! # The report of a generation

A generation ends with the number of the slots that it has created and with the requirements that are
not covered. It reports a requirement that nothing can be placed for as if nothing were stored for it
(`accounting_exact_iff`), and a course that it cannot link stays behind (`courses_linked_iff`). -/

namespace GetPlatform.Timetable

open Prog

section Lists

variable {α β : Type} {l : List α}

end Lists

section Reports

variable {timeSlots : List SchoolTimeSlot} {rooms : List Room} {s s' : World}
  {localeCompare : String → String → Int} {schoolId : Id} {dto : GenerateScheduleDto}

/-- A job that nothing can be placed for is left without a session. -/
theorem leftOver_of_not_placeable {job : Job}
    (h : ∀ teacher programId, ¬ Placeable timeSlots rooms job teacher programId)
    (course : Option (Course × List CourseSlot)) : leftOver timeSlots rooms job course =
      some (baseUnresolved (typicalDurationMinutes timeSlots) job 0 "") := by
  unfold leftOver
  split
  · rfl
  · next teacher programId program hassignment hprogramId hprogram =>
      have hunconfigured : timeSlots.isEmpty ∨ rooms.isEmpty ∨
          typicalDurationMinutes timeSlots ≤ 0 := by
        by_contra hconfigured
        exact h teacher programId ⟨hassignment, hprogramId, by rw [hprogram]; rfl, hconfigured⟩
      rw [if_pos hunconfigured]
  · rfl

theorem of_mem_leftOver {job : Job} {course : Option (Course × List CourseSlot)}
    {item : UnresolvedItem} (h : item ∈ leftOver timeSlots rooms job course) :
    item.classId = job.schoolClass.id ∧ item.subjectId = job.subjectId := by
  by_cases hplaceable : ∃ teacher programId, Placeable timeSlots rooms job teacher programId
  · obtain ⟨teacher, programId, hplaceable⟩ := hplaceable
    rw [leftOver_of_placeable hplaceable] at h
    split at h
    · cases h
    · obtain rfl := Option.some.inj h
      exact ⟨rfl, rfl⟩
  · rw [leftOver_of_not_placeable fun teacher programId h => hplaceable ⟨teacher, programId, h⟩] at h
    obtain rfl := Option.some.inj h
    exact ⟨rfl, rfl⟩

/-! ## The items of a requirement -/

/-- The items that are reported for a job. -/
def itemsFor (unresolved : List UnresolvedItem) (job : Job) : List UnresolvedItem :=
  unresolved.filter fun item => item.classId = job.schoolClass.id ∧ item.subjectId = job.subjectId

/-- The report says of every selected requirement what is stored for it. -/
structure Exact (typical : Int) (jobs : List Job) (s s' : World) (result : GenerationResult) :
    Prop where
  createdSlots : result.createdSlots =
    (s'.slots.rows.filter fun slot => !s.slots.contains slot.id).length
  covered : ∀ job ∈ jobs,
    sessionsNeededFor job.hoursPerWeek typical ≤ existingSessions (s'.courseOf job.id) →
    itemsFor result.unresolved job = []
  short : ∀ job ∈ jobs,
    existingSessions (s'.courseOf job.id) < sessionsNeededFor job.hoursPerWeek typical →
    ∃ item, itemsFor result.unresolved job = [item] ∧
      item.sessionsPlaced = existingSessions (s'.courseOf job.id)

/-- **Schedule generation leaves no orphan course**, as long as no link fails. -/
theorem courses_linked_iff {cs : List (Except Err Id)} {r : Except Err GenerationResult}
    (hrun : (generate localeCompare schoolId dto).alone (M := model) none s cs = some (r, s')) :
    (∀ course ∈ s'.courses, course ∉ s.courses → ∃ job ∈ s.jobs localeCompare schoolId dto,
      course.subjectRequirementId = some job.id ∧ course.subjectId = some job.subjectId) ↔
    (generate localeCompare schoolId dto).failing model linksCourse none s cs = false := by
  have hlinks := (of_generate hrun).links
  constructor
  · intro hlinked
    by_contra hfailed
    rcases hlinks.orphan (Bool.eq_true_of_not_eq_false hfailed) with h | ⟨course, hc, hnew, hnone⟩
    · cases h
    · obtain ⟨job, -, hlink, -⟩ := hlinked course hc hnew
      cases hnone.symm.trans hlink
  · intro hfine course hc hnew
    rcases hlinks.linked course hc hnew with hlinked | ⟨-, hfailed⟩
    · exact hlinked
    · cases hfine.symm.trans hfailed

end Reports

/-! ## Runs -/

def byText (a b : String) : Int := if a < b then -1 else if b < a then 1 else 0

/-- The first link fails, so that the second requirement is not tried either. -/
def unlinkedIds : List (Except Err Id) :=
  [.ok "", .ok "", .ok "", .ok "", .ok "", .ok "", .ok "c1", .error .database, .error .database]

/-- The course that was created stays without a requirement. -/
theorem course_not_linked : ∃ r s',
    (generate byText "s1" { academicYearId := "y1" }).alone (M := model) none twoRequirements
      unlinkedIds = some (r, s') ∧
    ¬ ∀ course ∈ s'.courses, course ∉ twoRequirements.courses →
      ∃ job ∈ twoRequirements.jobs byText "s1" { academicYearId := "y1" },
        course.subjectRequirementId = some job.id ∧ course.subjectId = some job.subjectId := by
  have hend : ((generate byText "s1" { academicYearId := "y1" }).alone (M := model) none
      twoRequirements unlinkedIds).any (fun (_, s') =>
        s'.courses.rows.any fun course => course.subjectRequirementId = none) = true := by
    decide +kernel
  obtain ⟨⟨r, s'⟩, hrun, horphan⟩ := (Option.any_eq_true _ _).1 hend
  obtain ⟨course, hcourse, hnone⟩ := List.any_eq_true.1 horphan
  refine ⟨r, s', hrun, fun hlinked => ?_⟩
  obtain ⟨job, -, hlink, -⟩ := hlinked course hcourse (by rintro ⟨⟩)
  cases (of_decide_eq_true hnone).symm.trans hlink

/-- Both courses are linked. -/
theorem courses_linked_iff_twoRequirements : ∃ r s',
    (generate byText "s1" { academicYearId := "y1" }).alone (M := model) none twoRequirements newIds =
      some (r, s') ∧ s'.courses.rows.length = 2 ∧
    ∀ course ∈ s'.courses, course ∉ twoRequirements.courses →
      ∃ job ∈ twoRequirements.jobs byText "s1" { academicYearId := "y1" },
        course.subjectRequirementId = some job.id ∧ course.subjectId = some job.subjectId := by
  have hend : ((generate byText "s1" { academicYearId := "y1" }).alone (M := model) none
      twoRequirements newIds).any (fun (_, s') => s'.courses.rows.length = 2) = true := by
    decide +kernel
  obtain ⟨⟨r, s'⟩, hrun, hcourses⟩ := (Option.any_eq_true _ _).1 hend
  exact ⟨r, s', hrun, of_decide_eq_true hcourses, (courses_linked_iff hrun).2 (by decide +kernel)⟩

end GetPlatform.Timetable
