import GetPlatform.Planning.SchedulingService

set_option autoImplicit false

/-! # What a call leaves behind

A call that is run by itself checks what its request names, as far as it does, and then sends at most
one statement that changes classes, requirements or assignments. `Effect` says, operation by
operation, what was checked and what was written. -/

namespace GetPlatform.Planning

open Prog

/-! ## The checks -/

section Checks

variable {E : Err → Option World → World → Prop} {saved : Option World} {s : World}

@[simp] theorem wp_send {q : Stmt} {Q : Ans q → Option World → World → Prop} :
    @Prog.wp interface Err (no_index (Ans q)) model (send q) Q E saved s ↔
      E .database saved s ∧
        ∀ c a, exec q c s = some a → Q a saved (model.applyAll (writes q a) s) :=
  ⟨fun h => ⟨h.1 .database, h.2⟩, fun h => ⟨fun _ => h.1, h.2⟩⟩

/-- A check on a value that may be missing: what it tells of the value is known from then on. -/
theorem ifGiven_wp {α : Type} {value : Option α} {check : α → Call Unit} {P : α → Prop}
    {Q : Unit → Option World → World → Prop}
    (hcheck : ∀ a, (P a → Q () saved s) → (check a).wp model Q E saved s)
    (hQ : (∀ a, value = some a → P a) → Q () saved s) :
    (ifGiven value check).wp model Q E saved s := by
  cases value with
  | none => exact hQ (by simp)
  | some a =>
      refine hcheck a fun hP => hQ fun b hb => ?_
      obtain rfl := Option.some.inj hb
      exact hP

theorem findOne_wp {id : Id} {Q : AcademicYear → Option World → World → Prop}
    (hE : ∀ e, E e saved s) (hQ : ∀ y, s.academicYears.find? id = some y → Q y saved s) :
    (findOne id).wp model Q E saved s := by
  simp only [findOne, bind_eq, pure_eq, throw_eq, wp_handle, wp_send]
  refine ⟨hE _, fun _ year hyear => ?_⟩
  have hfind := Option.some.inj hyear
  cases year with
  | none => exact hE _
  | some y => exact hQ y hfind

theorem assertDateOrder_wp {startDate endDate : Int} {Q : Unit → Option World → World → Prop}
    (hE : ∀ e, E e saved s) (hQ : startDate < endDate → Q () saved s) :
    (assertDateOrder startDate endDate).wp model Q E saved s := by
  simp only [assertDateOrder, throw_eq, pure_eq, wp_ite, wp_fail, wp_ret]
  exact ⟨fun _ => hE _, fun h => hQ (by omega)⟩

/-- A check that goes on, or fails, whatever it reads. -/
theorem assertLabelAvailable_wp {label : String} {Q : Unit → Option World → World → Prop}
    (hE : ∀ e, E e saved s) (hQ : Q () saved s) :
    (assertLabelAvailable label).wp model Q E saved s := by
  simp only [assertLabelAvailable, bind_eq, pure_eq, throw_eq, wp_handle, wp_send, wp_ite, wp_fail,
    wp_ret]
  exact ⟨hE _, fun _ _ _ => ⟨fun _ => hE _, fun _ => hQ⟩⟩

theorem assertClassNameAvailable_wp {schoolId academicYearId : Id} {name : String}
    {Q : Unit → Option World → World → Prop} (hE : ∀ e, E e saved s) (hQ : Q () saved s) :
    (assertClassNameAvailable schoolId academicYearId name).wp model Q E saved s := by
  simp only [assertClassNameAvailable, bind_eq, pure_eq, throw_eq, wp_handle, wp_send, wp_ite,
    wp_fail, wp_ret]
  exact ⟨hE _, fun _ _ _ => ⟨fun _ => hE _, fun _ => hQ⟩⟩

theorem assertAcademicYearExists_wp {academicYearId : Id} {Q : Unit → Option World → World → Prop}
    (hE : ∀ e, E e saved s) (hQ : Q () saved s) :
    (assertAcademicYearExists academicYearId).wp model Q E saved s := by
  simp only [assertAcademicYearExists, bind_eq, pure_eq, throw_eq, wp_handle, wp_send, wp_ite,
    wp_fail, wp_ret]
  exact ⟨hE _, fun _ _ _ => ⟨fun _ => hE _, fun _ => hQ⟩⟩

theorem ensureClass_wp {schoolId classId : Id} {Q : SchoolClass → Option World → World → Prop}
    (hE : ∀ e, E e saved s)
    (hQ : ∀ c, s.classes.find? classId = some c → c.schoolId = schoolId → Q c saved s) :
    (ensureClass schoolId classId).wp model Q E saved s := by
  simp only [ensureClass, bind_eq, pure_eq, throw_eq, wp_handle, wp_send]
  refine ⟨hE _, fun _ row hrow => ?_⟩
  have hfind := Option.some.inj hrow
  cases row with
  | none => exact hE _
  | some c =>
      obtain ⟨hfind, hschool⟩ := Option.filter_eq_some_iff.1 hfind
      exact hQ c hfind (of_decide_eq_true hschool)

theorem ensureRequirement_wp {schoolId classId requirementId : Id}
    {Q : SubjectRequirement → Option World → World → Prop} (hE : ∀ e, E e saved s)
    (hQ : ∀ r, s.requirements.find? requirementId = some r → r.classId = classId →
      r.schoolId = schoolId → Q r saved s) :
    (ensureRequirement schoolId classId requirementId).wp model Q E saved s := by
  simp only [ensureRequirement, bind_eq, pure_eq, throw_eq, wp_handle, wp_send]
  refine ⟨hE _, fun _ row hrow => ?_⟩
  have hfind := Option.some.inj hrow
  cases row with
  | none => exact hE _
  | some r =>
      obtain ⟨hfind, hhere⟩ := Option.filter_eq_some_iff.1 hfind
      obtain ⟨hclass, hschool⟩ := of_decide_eq_true hhere
      exact hQ r hfind hclass hschool

/-- The programme is one of the school. -/
def World.OwnsProgram (s : World) (schoolId programId : Id) : Prop :=
  ∃ row, s.programs.find? programId = some row ∧ row.schoolId = schoolId

/-- The subject is one of the school. -/
def World.OwnsSubject (s : World) (schoolId subjectId : Id) : Prop :=
  ∃ row, s.subjects.find? subjectId = some row ∧ row.schoolId = schoolId

/-- The teacher is declared qualified for the subject in the school. -/
def World.Qualified (s : World) (schoolId teacherId subjectId : Id) : Prop :=
  (s.qualification subjectId schoolId teacherId).isSome = true

instance (s : World) (schoolId programId : Id) : Decidable (s.OwnsProgram schoolId programId) :=
  decidable_of_iff ((s.programs.find? programId).any (·.schoolId = schoolId) = true) <| by
    simp [World.OwnsProgram, Option.any_eq_true]

instance (s : World) (schoolId subjectId : Id) : Decidable (s.OwnsSubject schoolId subjectId) :=
  decidable_of_iff ((s.subjects.find? subjectId).any (·.schoolId = schoolId) = true) <| by
    simp [World.OwnsSubject, Option.any_eq_true]

instance (s : World) (schoolId teacherId subjectId : Id) :
    Decidable (s.Qualified schoolId teacherId subjectId) :=
  inferInstanceAs (Decidable (_ = true))

theorem assertProgramBelongsToSchool_wp {schoolId programId : Id}
    {Q : Unit → Option World → World → Prop} (hE : ∀ e, E e saved s)
    (hQ : s.OwnsProgram schoolId programId → Q () saved s) :
    (assertProgramBelongsToSchool schoolId programId).wp model Q E saved s := by
  simp only [assertProgramBelongsToSchool, bind_eq, pure_eq, throw_eq, wp_handle, wp_send, wp_ite,
    wp_fail, wp_ret]
  refine ⟨hE _, fun _ row hrow => ⟨fun _ => hE _, fun hsome => hQ ?_⟩⟩
  obtain ⟨program, rfl⟩ := Option.ne_none_iff_exists'.1 (by simpa using hsome)
  obtain ⟨hfind, hschool⟩ := Option.filter_eq_some_iff.1 (Option.some.inj hrow)
  exact ⟨program, hfind, of_decide_eq_true hschool⟩

theorem assertSubjectBelongsToSchool_wp {schoolId subjectId : Id}
    {Q : Unit → Option World → World → Prop} (hE : ∀ e, E e saved s)
    (hQ : s.OwnsSubject schoolId subjectId → Q () saved s) :
    (assertSubjectBelongsToSchool schoolId subjectId).wp model Q E saved s := by
  simp only [assertSubjectBelongsToSchool, bind_eq, pure_eq, throw_eq, wp_handle, wp_send, wp_ite,
    wp_fail, wp_ret]
  refine ⟨hE _, fun _ row hrow => ⟨fun _ => hE _, fun hsome => hQ ?_⟩⟩
  obtain ⟨subject, rfl⟩ := Option.ne_none_iff_exists'.1 (by simpa using hsome)
  obtain ⟨hfind, hschool⟩ := Option.filter_eq_some_iff.1 (Option.some.inj hrow)
  exact ⟨subject, hfind, of_decide_eq_true hschool⟩

theorem assertTeacherQualified_wp {schoolId teacherId subjectId : Id}
    {Q : Unit → Option World → World → Prop} (hE : ∀ e, E e saved s)
    (hQ : s.Qualified schoolId teacherId subjectId → Q () saved s) :
    (assertTeacherQualified schoolId teacherId subjectId).wp model Q E saved s := by
  simp only [assertTeacherQualified, bind_eq, pure_eq, throw_eq, wp_handle, wp_send, wp_ite, wp_fail,
    wp_ret]
  refine ⟨hE _, fun _ row hrow => ⟨fun _ => hE _, fun hsome => hQ ?_⟩⟩
  rw [World.Qualified, Option.some.inj hrow]
  simpa [Option.isSome_iff_ne_none] using hsome

end Checks

/-! ## The calls -/

/-- The call is one of `AcademicYearService`. -/
def Op.onYears : Op → Bool
  | .createYear _ => true
  | .updateYear .. => true
  | .deleteYear _ => true
  | _ => false

/-- What call `o` that is run by itself in `s` may end with and leave behind. -/
inductive Effect (s : World) : Op → Except Err Reply → World → Prop
  | failed {o : Op} (e : Err) : Effect s o (.error e) s
  | years {o : Op} {r : Except Err Reply} {s' : World} : o.onYears = true →
      s' = { s with academicYears := s'.academicYears } → Effect s o r s'
  | createClass {schoolId id : Id} {dto : CreateSchoolClassDto} : s.classes.contains id = false →
      (∀ programId, dto.programId = some programId → s.OwnsProgram schoolId programId) →
      Effect s (.createClass schoolId dto) (.ok (.schoolClass (dto.row schoolId id)))
        (World.apply (.schoolClass (dto.row schoolId id)) s)
  | updateClass {schoolId classId : Id} {dto : UpdateSchoolClassDto} {c : SchoolClass} :
      s.classes.find? classId = some c → c.schoolId = schoolId →
      (∀ programId, dto.programId.join = some programId → s.OwnsProgram schoolId programId) →
      Effect s (.updateClass schoolId classId dto) (.ok (.schoolClass (dto.set c)))
        (World.apply (.schoolClass (dto.set c)) s)
  | deleteClass {schoolId classId : Id} {c : SchoolClass} :
      s.classes.find? classId = some c → c.schoolId = schoolId →
      Effect s (.deleteClass schoolId classId) (.ok (.id classId)) (World.apply (.noClass classId) s)
  | createRequirement {schoolId classId id : Id} {dto : CreateSubjectRequirementDto}
      {c : SchoolClass} : s.classes.find? classId = some c → c.schoolId = schoolId →
      s.OwnsSubject schoolId dto.subjectId → s.requirements.contains id = false →
      Effect s (.createRequirement schoolId classId dto)
        (.ok (.requirement (dto.row schoolId classId id)))
        (World.apply (.requirement (dto.row schoolId classId id)) s)
  | updateRequirement {schoolId classId requirementId : Id} {dto : UpdateSubjectRequirementDto}
      {r : SubjectRequirement} : s.requirements.find? requirementId = some r →
      r.classId = classId → r.schoolId = schoolId →
      Effect s (.updateRequirement schoolId classId requirementId dto)
        (.ok (.requirement (dto.set r))) (World.apply (.requirement (dto.set r)) s)
  | deleteRequirement {schoolId classId requirementId : Id} {r : SubjectRequirement} :
      s.requirements.find? requirementId = some r → r.classId = classId → r.schoolId = schoolId →
      Effect s (.deleteRequirement schoolId classId requirementId) (.ok (.id requirementId))
        (World.apply (.noRequirement requirementId) s)
  | assignTeacher {schoolId classId requirementId : Id} {dto : AssignTeacherToRequirementDto}
      {r : SubjectRequirement} {a : TeacherAssignment} :
      s.requirements.find? requirementId = some r → r.classId = classId → r.schoolId = schoolId →
      s.Qualified schoolId dto.teacherId r.subjectId → a.subjectRequirementId = requirementId →
      a.teacherId = dto.teacherId →
      Effect s (.assignTeacher schoolId classId requirementId dto) (.ok (.assignment a))
        (World.apply (.assignment a) s)
  | unassignTeacher {schoolId classId requirementId : Id} {r : SubjectRequirement} {s' : World} :
      s.requirements.find? requirementId = some r → r.classId = classId → r.schoolId = schoolId →
      s' = s ∨ s' = World.apply (.noAssignment requirementId) s →
      Effect s (.unassignTeacher schoolId classId requirementId) (.ok (.id requirementId)) s'

section Calls

variable {s : World}

/-- The years only. -/
def SameButYears (s s' : World) : Prop := s' = { s with academicYears := s'.academicYears }

theorem SameButYears.refl (s : World) : SameButYears s s := rfl

theorem SameButYears.trans {s s' s'' : World} (h : SameButYears s s') (h' : SameButYears s' s'') :
    SameButYears s s'' := by
  unfold SameButYears at *
  rw [h', h]

/-- Clearing flags touches the years only. -/
theorem sameButYears_clear (ids : List Id) (s : World) :
    SameButYears s (model.applyAll (ids.map .notCurrent) s) := by
  induction ids generalizing s with
  | nil => exact .refl s
  | cons id ids ih => exact (show SameButYears s (World.apply (.notCurrent id) s) from rfl).trans (ih _)

theorem clearOthers_wp {isCurrent : Option Bool} {excludedId : Option Id}
    {Q : Unit → Option World → World → Prop} {E : Err → Option World → World → Prop}
    {saved : Option World} (hE : ∀ e, E e saved s)
    (hQ : ∀ s', SameButYears s s' → Q () saved s') :
    (clearOthers isCurrent excludedId).wp model Q E saved s := by
  simp only [clearOthers, bind_eq, pure_eq, wp_ite, wp_handle, wp_send, wp_ret]
  exact ⟨fun _ => ⟨hE _, fun _ ids _ => hQ _ (sameButYears_clear ids s)⟩, fun _ => hQ s (.refl s)⟩

theorem create_wp {dto : CreateAcademicYearDto} {Q : AcademicYear → Option World → World → Prop}
    {E : Err → Option World → World → Prop} (hE : ∀ e s', SameButYears s s' → E e none s')
    (hQ : ∀ row s', SameButYears s s' → Q row none s') : (create dto).wp model Q E none s := by
  simp only [create, bind_eq]
  rw [wp_handle]
  refine assertDateOrder_wp (fun e => hE e s (.refl s)) fun _ => ?_
  rw [wp_handle]
  refine assertLabelAvailable_wp (fun e => hE e s (.refl s)) ?_
  rw [wp_handle]
  refine clearOthers_wp (fun e => hE e s (.refl s)) fun s₁ hs₁ => ?_
  exact wp_send.2 ⟨hE _ s₁ hs₁, fun _ row _ => hQ row _ (hs₁.trans rfl)⟩

theorem update_wp {id : Id} {dto : UpdateAcademicYearDto}
    {Q : AcademicYear → Option World → World → Prop} {E : Err → Option World → World → Prop}
    (hE : ∀ e s', SameButYears s s' → E e none s')
    (hQ : ∀ row s', SameButYears s s' → Q row none s') : (update id dto).wp model Q E none s := by
  have hfail : ∀ e, E e none s := fun e => hE e s (.refl s)
  simp only [update, bind_eq]
  rw [wp_handle]
  refine findOne_wp hfail fun year _ => ?_
  rw [wp_handle]
  refine assertDateOrder_wp hfail fun _ => ?_
  rw [wp_handle]
  refine ifGiven_wp (P := fun _ => True) (fun label hnext => ?_) fun _ => ?_
  · simp only [pure_eq, wp_ite, wp_ret]
    exact ⟨fun _ => assertLabelAvailable_wp hfail (hnext trivial), fun _ => hnext trivial⟩
  · rw [wp_handle]
    exact clearOthers_wp hfail fun s₁ hs₁ =>
      wp_send.2 ⟨hE _ s₁ hs₁, fun _ row _ => hQ row _ (hs₁.trans rfl)⟩

theorem delete_wp {id : Id} {Q : Unit → Option World → World → Prop}
    {E : Err → Option World → World → Prop} (hE : ∀ e, E e none s)
    (hQ : ∀ s', SameButYears s s' → Q () none s') : (delete id).wp model Q E none s := by
  simp only [delete, bind_eq, throw_eq]
  rw [wp_handle]
  refine findOne_wp hE fun _ _ => ?_
  simp only [wp_handle, wp_send, wp_ite, wp_fail]
  exact ⟨hE _, fun _ n _ => ⟨fun _ => hE _, fun _ => ⟨hE _, fun _ _ _ => hQ _ rfl⟩⟩⟩

/-- A call may end as `Effect` says. -/
def Ends (s : World) (o : Op) (p : Call Reply) : Prop :=
  p.wp model (fun a _ => Effect s o (.ok a)) (fun e _ => Effect s o (.error e)) none s

theorem createClass_ends {schoolId : Id} {dto : CreateSchoolClassDto} :
    Ends s (.createClass schoolId dto) (.schoolClass <$> createClass schoolId dto) := by
  have hfail : ∀ e, Effect s (.createClass schoolId dto) (.error e) s := .failed
  simp only [Ends, createClass, map_eq, bind_eq, handle_handle, handle_fail]
  rw [wp_handle]
  refine assertAcademicYearExists_wp hfail ?_
  rw [wp_handle]
  refine ifGiven_wp (P := s.OwnsProgram schoolId)
    (fun _ hnext => assertProgramBelongsToSchool_wp hfail hnext) fun hprogram => ?_
  rw [wp_handle]
  refine assertClassNameAvailable_wp hfail ?_
  simp only [wp_handle, wp_send, wp_ret, wp_fail]
  refine ⟨hfail _, fun id row hrow => ?_⟩
  simp only [exec] at hrow
  split at hrow
  · cases hrow
  · next hfree =>
      obtain rfl := Option.some.inj hrow
      exact .createClass (by simpa using (not_or.1 hfree).1) hprogram

theorem updateClass_ends {schoolId classId : Id} {dto : UpdateSchoolClassDto} :
    Ends s (.updateClass schoolId classId dto) (.schoolClass <$> updateClass schoolId classId dto) := by
  have hfail : ∀ e, Effect s (.updateClass schoolId classId dto) (.error e) s := .failed
  simp only [Ends, updateClass, map_eq, bind_eq, handle_handle, handle_fail]
  rw [wp_handle]
  refine ensureClass_wp hfail fun c hfind hschool => ?_
  rw [wp_handle]
  refine ifGiven_wp (P := fun _ => True)
    (fun _ hnext => assertAcademicYearExists_wp hfail (hnext trivial)) fun _ => ?_
  rw [wp_handle]
  refine ifGiven_wp (P := s.OwnsProgram schoolId)
    (fun _ hnext => assertProgramBelongsToSchool_wp hfail hnext) fun hprogram => ?_
  rw [wp_handle]
  refine ifGiven_wp (P := fun _ => True) (fun name hnext => ?_) fun _ => ?_
  · simp only [pure_eq, wp_ite, wp_ret]
    exact ⟨fun _ => assertClassNameAvailable_wp hfail (hnext trivial), fun _ => hnext trivial⟩
  · simp only [wp_handle, wp_send, wp_ret, wp_fail]
    refine ⟨hfail _, fun _ row hrow => ?_⟩
    simp only [exec, hfind, Option.map_some] at hrow
    obtain ⟨hrow, -⟩ := Option.filter_eq_some_iff.1 hrow
    obtain rfl := Option.some.inj hrow
    exact .updateClass hfind hschool hprogram

theorem deleteClass_ends {schoolId classId : Id} :
    Ends s (.deleteClass schoolId classId)
      ((fun _ => .id classId) <$> deleteClass schoolId classId) := by
  have hfail : ∀ e, Effect s (.deleteClass schoolId classId) (.error e) s := .failed
  simp only [Ends, deleteClass, map_eq, bind_eq, handle_handle, handle_fail]
  rw [wp_handle]
  refine ensureClass_wp hfail fun c hfind hschool => ?_
  simp only [wp_handle, wp_send, wp_ret, wp_fail]
  exact ⟨hfail _, fun _ _ _ => .deleteClass hfind hschool⟩

theorem createRequirement_ends {schoolId classId : Id} {dto : CreateSubjectRequirementDto} :
    Ends s (.createRequirement schoolId classId dto)
      (.requirement <$> createRequirement schoolId classId dto) := by
  have hfail : ∀ e, Effect s (.createRequirement schoolId classId dto) (.error e) s := .failed
  simp only [Ends, createRequirement, map_eq, bind_eq, throw_eq, handle_handle, handle_fail]
  rw [wp_handle]
  refine ensureClass_wp hfail fun c hfind hschool => ?_
  rw [wp_handle]
  refine assertSubjectBelongsToSchool_wp hfail fun hsubject => ?_
  rw [wp_handle]
  refine assertAcademicYearExists_wp hfail ?_
  simp only [wp_handle, wp_send, wp_ite, wp_ret, wp_fail]
  refine ⟨hfail _, fun _ existing _ => ⟨fun _ => hfail _, fun _ => ⟨hfail _, fun id row hrow => ?_⟩⟩⟩
  simp only [exec] at hrow
  split at hrow
  · cases hrow
  · next hfree =>
      obtain rfl := Option.some.inj hrow
      have hfresh : ¬ s.requirements.contains id = true := (not_or.1 hfree).1
      exact .createRequirement hfind hschool hsubject (Bool.eq_false_iff.2 hfresh)

theorem updateRequirement_ends {schoolId classId requirementId : Id}
    {dto : UpdateSubjectRequirementDto} :
    Ends s (.updateRequirement schoolId classId requirementId dto)
      (.requirement <$> updateRequirement schoolId classId requirementId dto) := by
  have hfail : ∀ e, Effect s (.updateRequirement schoolId classId requirementId dto) (.error e) s :=
    .failed
  simp only [Ends, updateRequirement, map_eq, bind_eq, handle_handle, handle_fail]
  rw [wp_handle]
  refine ensureRequirement_wp hfail fun r hfind hclass hschool => ?_
  simp only [wp_handle, wp_send, wp_ret, wp_fail]
  refine ⟨hfail _, fun _ row hrow => ?_⟩
  simp only [exec, hfind, Option.map_some] at hrow
  obtain ⟨hrow, -⟩ := Option.filter_eq_some_iff.1 hrow
  obtain rfl := Option.some.inj hrow
  exact .updateRequirement hfind hclass hschool

theorem deleteRequirement_ends {schoolId classId requirementId : Id} :
    Ends s (.deleteRequirement schoolId classId requirementId)
      ((fun _ => .id requirementId) <$> deleteRequirement schoolId classId requirementId) := by
  have hfail : ∀ e, Effect s (.deleteRequirement schoolId classId requirementId) (.error e) s :=
    .failed
  simp only [Ends, deleteRequirement, map_eq, bind_eq, handle_handle, handle_fail]
  rw [wp_handle]
  refine ensureRequirement_wp hfail fun r hfind hclass hschool => ?_
  simp only [wp_handle, wp_send, wp_ret, wp_fail]
  exact ⟨hfail _, fun _ _ _ => .deleteRequirement hfind hclass hschool⟩

/-- The row that an upsert leaves is one of the requirement, with the teacher that was asked for. -/
theorem of_exec_teacherAssignmentUpsert {requirementId teacherId c : Id} {a : TeacherAssignment}
    (h : exec (.teacherAssignmentUpsert requirementId teacherId) c s = some a) :
    a.subjectRequirementId = requirementId ∧ a.teacherId = teacherId := by
  simp only [exec] at h
  split at h
  · next b hfind =>
      obtain rfl := Option.some.inj h
      exact ⟨Table.key_of_find? hfind, rfl⟩
  · split at h
    · obtain rfl := Option.some.inj h
      exact ⟨rfl, rfl⟩
    · cases h

theorem assignTeacher_ends {schoolId classId requirementId : Id}
    {dto : AssignTeacherToRequirementDto} :
    Ends s (.assignTeacher schoolId classId requirementId dto)
      (.assignment <$> assignTeacher schoolId classId requirementId dto) := by
  have hfail : ∀ e, Effect s (.assignTeacher schoolId classId requirementId dto) (.error e) s :=
    .failed
  simp only [Ends, assignTeacher, map_eq, bind_eq, handle_handle, handle_fail]
  rw [wp_handle]
  refine ensureRequirement_wp hfail fun r hfind hclass hschool => ?_
  rw [wp_handle]
  refine assertTeacherQualified_wp hfail fun hqualified => ?_
  simp only [wp_handle, wp_send, wp_ret, wp_fail]
  refine ⟨hfail _, fun _ a ha => ?_⟩
  obtain ⟨hrequirement, hteacher⟩ := of_exec_teacherAssignmentUpsert ha
  exact .assignTeacher hfind hclass hschool hqualified hrequirement hteacher

/-- That there was no teacher to take away is not an error. -/
theorem unassignTeacher_ends {schoolId classId requirementId : Id} :
    Ends s (.unassignTeacher schoolId classId requirementId)
      ((fun _ => .id requirementId) <$> unassignTeacher schoolId classId requirementId) := by
  simp only [Ends, unassignTeacher, map_eq, bind_eq, pure_eq, tryCatch_eq, handle_handle, handle_fail]
  rw [wp_handle]
  refine ensureRequirement_wp .failed fun r hfind hclass hschool => ?_
  simp only [wp_handle, wp_send, wp_ret]
  exact ⟨.unassignTeacher hfind hclass hschool (.inl rfl), fun _ _ _ =>
    .unassignTeacher hfind hclass hschool (.inr rfl)⟩

/-- **What a call that is run by itself ends with.** -/
theorem program_ends (s : World) (o : Op) : Ends s o (program o) := by
  cases o with
  | createYear dto =>
      refine (wp_handle ..).2 (create_wp (fun e s' h => ?_) fun row s' h => ?_) <;> exact .years rfl h
  | updateYear id dto =>
      refine (wp_handle ..).2 (update_wp (fun e s' h => ?_) fun row s' h => ?_) <;> exact .years rfl h
  | deleteYear id =>
      refine (wp_handle ..).2 (delete_wp (fun e => ?_) fun s' h => ?_)
      · exact .failed e
      · exact .years rfl h
  | createClass schoolId dto => exact createClass_ends
  | updateClass schoolId classId dto => exact updateClass_ends
  | deleteClass schoolId classId => exact deleteClass_ends
  | createRequirement schoolId classId dto => exact createRequirement_ends
  | updateRequirement schoolId classId requirementId dto => exact updateRequirement_ends
  | deleteRequirement schoolId classId requirementId => exact deleteRequirement_ends
  | assignTeacher schoolId classId requirementId dto => exact assignTeacher_ends
  | unassignTeacher schoolId classId requirementId => exact unassignTeacher_ends

theorem effect_of_alone {o : Op} {cs : List (Except Failure Id)} {r : Except Err Reply} {s' : World}
    (halone : Prog.alone (M := model) (program o) none s cs = some (r, s')) : Effect s o r s' :=
  wp_alone (M := model) (P := Effect s o) (program_ends s o) halone

end Calls

end GetPlatform.Planning
