import GetPlatform.Planning.Tenancy

set_option autoImplicit false

/-! # The year of a requirement and of its class

A requirement carries the academic year that its class has. Each of them takes its year from the
request that writes it, so they agree as long as every request gives the year that the other has. A
year is deleted when no class is in it; where they agree, no requirement is in it either. -/

namespace GetPlatform.Planning

/-- Every requirement is of the year of its class. -/
def FollowsClass (s : World) : Prop :=
  ∀ r ∈ s.requirements, ∃ c, s.classes.find? r.classId = some c ∧
    r.academicYearId = c.academicYearId

/-- Where `delete` counts no class in a year, no requirement refers to the year. -/
def DeletesCleanly (s : World) : Prop :=
  ∀ id c, exec (.schoolClassCount id) c s = some 0 → ∀ r ∈ s.requirements, r.academicYearId ≠ id

/-- A requirement that is written gets the year of its class, and a class that is moved to another year
    finds its requirements there. -/
def YearKept : TurnRule model Op Err Reply := fun _ s o _ =>
  match o with
  | .createRequirement schoolId classId dto =>
      ∀ c ∈ s.classes.find? classId, c.schoolId = schoolId → dto.academicYearId = c.academicYearId
  | .updateRequirement schoolId classId requirementId dto =>
      ∀ r ∈ s.requirements.find? requirementId, r.classId = classId → r.schoolId = schoolId →
        ∀ year ∈ dto.academicYearId, ∀ c ∈ s.classes.find? classId, year = c.academicYearId
  | .updateClass schoolId classId dto =>
      ∀ c ∈ s.classes.find? classId, c.schoolId = schoolId → ∀ year ∈ dto.academicYearId,
        ∀ r ∈ s.requirements.rows, r.classId = classId → r.academicYearId = year
  | _ => True

instance (h : Calls) (s : World) (o : Op) (cs : List (Except Failure Id)) :
    Decidable (YearKept h s o cs) :=
  match o with
  | .createRequirement .. | .updateRequirement .. | .updateClass .. => by
      dsimp only [YearKept]
      infer_instance
  | .createYear _ | .updateYear .. | .deleteYear _ | .createClass .. | .deleteClass ..
  | .deleteRequirement .. | .assignTeacher .. | .unassignTeacher .. => inferInstanceAs (Decidable True)

theorem FollowsClass.deletesCleanly {s : World} (hs : FollowsClass s) : DeletesCleanly s := by
  intro id _ hcount r hr hyear
  obtain ⟨c, hfind, hc⟩ := hs r hr
  have hzero : s.classes.count (fun c => decide (c.academicYearId = id)) = 0 := Option.some.inj hcount
  have hnot := List.countP_eq_zero.1 hzero c (Table.mem_of_find? hfind)
  exact hnot (decide_eq_true (hc.symm.trans hyear))

/-! ## What keeps it -/

section Steps

variable {s : World}

/-- A class is written whose requirements, if it has any, are of its year. -/
theorem FollowsClass.putClass (hs : FollowsClass s) (row : SchoolClass)
    (hyear : ∀ r ∈ s.requirements, r.classId = row.id → r.academicYearId = row.academicYearId) :
    FollowsClass (World.apply (.schoolClass row) s) := by
  intro r hr
  obtain ⟨c, hfind, hc⟩ := hs r hr
  have hput := Table.find?_put s.classes row r.classId
  split at hput
  · next hrow => exact ⟨row, hput, hyear r hr hrow⟩
  · exact ⟨c, hput.trans hfind, hc⟩

theorem FollowsClass.putRequirement (hs : FollowsClass s) (row : SubjectRequirement)
    (hclass : ∃ c, s.classes.find? row.classId = some c ∧ row.academicYearId = c.academicYearId) :
    FollowsClass (World.apply (.requirement row) s) := by
  intro r hr
  rcases Table.mem_put.1 hr with rfl | ⟨hr, -⟩
  · exact hclass
  · exact hs r hr

theorem FollowsClass.noClass (hs : FollowsClass s) (classId : Id) :
    FollowsClass (World.apply (.noClass classId) s) := by
  intro r hr
  obtain ⟨hr, hother⟩ := Table.mem_filter.1 hr
  obtain ⟨c, hfind, hc⟩ := hs r hr
  refine ⟨c, (Table.find?_filter_key fun c' _ hkey => ?_).trans hfind, hc⟩
  have hid : c'.id = r.classId := hkey
  simpa [hid] using hother

/-- What a call leaves behind agrees, if it gives the years that are there. -/
theorem FollowsClass.effect {h : Calls} {o : Op} {cs : List (Except Failure Id)}
    {r : Except Err Reply} {s' : World} (hs : FollowsClass s) (hkept : YearKept h s o cs)
    (he : Effect s o r s') : FollowsClass s' := by
  cases he with
  | failed e => exact hs
  | years _ hsame =>
      rw [hsame]
      exact hs
  | @createClass schoolId id dto hfree hprogram =>
      refine hs.putClass (dto.row schoolId id) fun r hr hclass => ?_
      -- No requirement refers to a class that was not there.
      obtain ⟨c, hfind, -⟩ := hs r hr
      have hnone : s.classes.find? id = none := by simpa [Table.contains] using hfree
      have hid : r.classId = id := hclass
      rw [hid, hnone] at hfind
      cases hfind
  | @updateClass schoolId classId dto c hfind hschool hprogram =>
      have hid : c.id = classId := Table.key_of_find? hfind
      refine hs.putClass (dto.set c) fun r hr hclass => ?_
      have hclass : r.classId = classId := Eq.trans hclass hid
      cases hdto : dto.academicYearId with
      | none =>
          obtain ⟨c', hfind', hc'⟩ := hs r hr
          rw [hclass, hfind] at hfind'
          obtain rfl := Option.some.inj hfind'
          simpa [UpdateSchoolClassDto.set, hdto] using hc'
      | some year =>
          simpa [UpdateSchoolClassDto.set, hdto] using
            hkept c hfind hschool year hdto r hr hclass
  | deleteClass => exact hs.noClass _
  | @createRequirement schoolId classId id dto c hfind hschool hsubject hfree =>
      exact hs.putRequirement (dto.row schoolId classId id) ⟨c, hfind, hkept c hfind hschool⟩
  | @updateRequirement schoolId classId requirementId dto r hfind hclass hschool =>
      obtain ⟨c, hfindClass, hc⟩ := hs r (Table.mem_of_find? hfind)
      refine hs.putRequirement (dto.set r) ⟨c, hfindClass, ?_⟩
      cases hdto : dto.academicYearId with
      | none => simpa [UpdateSubjectRequirementDto.set, hdto] using hc
      | some year =>
          simpa [UpdateSubjectRequirementDto.set, hdto] using
            hkept r hfind hclass hschool year hdto c (hclass ▸ hfindClass)
  | deleteRequirement =>
      intro r hr
      exact hs r (Table.mem_filter.1 hr).1
  | assignTeacher => exact hs
  | unassignTeacher _ _ _ hwritten => rcases hwritten with rfl | rfl <;> exact hs

end Steps

/-- **A requirement follows the year of its class**, in every state that is reached by calls that give
    the years that are there, and no deletion of a year meets a requirement. -/
theorem requirements_follow_class {s₀ s : World} {h : Calls} (h₀ : Unplanned s₀)
    (hrun : Journal model program YearKept s₀ h s) : FollowsClass s ∧ DeletesCleanly s := by
  have hs : FollowsClass s := hrun.holds (P := fun _ s => FollowsClass s)
    (fun r hr => by simp [h₀.requirements] at hr)
    (fun _ _ _ hkept halone hs => hs.effect hkept (effect_of_alone halone))
    fun e _ hs => by cases e <;> exact hs
  exact ⟨hs, hs.deletesCleanly⟩

/-- One school, and two years. -/
def twoYears : World :=
  { World.empty with
    academicYears := .ofList [⟨100, "2025-2026", 0, 1000, true⟩, ⟨101, "2026-2027", 1000, 2000, false⟩]
    subjects := .ofList [⟨10, 1⟩] }

theorem unplanned_twoYears : Unplanned twoYears := ⟨rfl, rfl, rfl⟩

/-- A class of the first year requires a subject, and then moves to the second year. -/
def classMoved (year : Id) : List (Op × List (Except Failure Id)) :=
  [(.createClass 1 { academicYearId := 100, name := "L1" }, [.ok 0, .ok 0, .ok 1]),
    (.createRequirement 1 1 ⟨10, year, 4⟩, [.ok 0, .ok 0, .ok 0, .ok 0, .ok 2]),
    (.updateClass 1 1 { academicYearId := some 101 }, [.ok 0, .ok 0, .ok 0])]

/-- The class stays in its year. -/
theorem requirements_follow_class_created : ∃ (h : Calls) (s : World),
    (s.requirements.rows.any fun r => r.academicYearId = 100) = true ∧
      FollowsClass s ∧ DeletesCleanly s := by
  have hplay : (Journal.play program YearKept [] twoYears ((classMoved 100).take 2)).any
      (fun out => out.2.requirements.rows.any fun r => r.academicYearId = 100) = true := by
    decide +kernel
  obtain ⟨h, s, hrun, hs⟩ := Journal.exists_of_play hplay
  exact ⟨h, s, hs, requirements_follow_class unplanned_twoYears hrun⟩

/-- The class moves, its requirement does not, and the first year, which has no class any more, cannot
    be deleted because of it. -/
theorem not_requirements_follow_class : ¬ ∀ (s₀ s : World) (h : Calls), Unplanned s₀ →
    Journal model program anyTurn s₀ h s → FollowsClass s ∧ DeletesCleanly s := by
  intro hall
  have hplay : (Journal.play (M := model) program anyTurn [] twoYears (classMoved 100)).any
      (fun out => (exec (.schoolClassCount 100) 0 out.2 = some 0) &&
        out.2.requirements.rows.any fun r => r.academicYearId = 100) = true := by
    decide +kernel
  obtain ⟨h, s, hrun, hs⟩ := Journal.exists_of_play hplay
  obtain ⟨hcount, hrequirement⟩ := Bool.and_eq_true_iff.1 hs
  obtain ⟨r, hr, hyear⟩ := List.any_eq_true.1 hrequirement
  exact (hall _ s h unplanned_twoYears hrun).2 100 0 (of_decide_eq_true hcount) r hr
    (of_decide_eq_true hyear)

end GetPlatform.Planning
