import GetPlatform.Planning.Effects

set_option autoImplicit false

/-! # Schools keep to themselves

A class, its programme, its requirements and their subjects belong to one school, and the teacher of a
requirement was declared qualified there for its subject when he was assigned. Each call checks the
identifiers it is given, but for the subject that an update puts in a requirement. -/

namespace GetPlatform.Planning

/-- The calls of a run so far, the last one first. -/
abbrev Calls := List (Turn model Op Err Reply)

/-! ## Who was assigned, and when -/

/-- The teacher that a call has assigned to a requirement. -/
def assigned (requirementId : Id) (t : Turn model Op Err Reply) : Option Id :=
  match t.op, t.result with
  | .assignTeacher _ _ id dto, .ok _ => if id = requirementId then some dto.teacherId else none
  | _, _ => none

/-- The teacher that was last assigned to a requirement, with the state in which he was. -/
def lastAssigned (requirementId : Id) (h : Calls) : Option (World × Id) :=
  h.findSome? fun t => (assigned requirementId t).map fun teacherId => (t.before, teacherId)

/-- The teacher was the last one to be assigned to the requirement, and was declared qualified for the
    subject in the school then. -/
def DeclaredWhenAssigned (h : Calls) (requirementId schoolId teacherId subjectId : Id) : Prop :=
  ∃ last ∈ lastAssigned requirementId h,
    last.2 = teacherId ∧ last.1.Qualified schoolId teacherId subjectId

instance (h : Calls) (requirementId schoolId teacherId subjectId : Id) :
    Decidable (DeclaredWhenAssigned h requirementId schoolId teacherId subjectId) :=
  decidable_of_iff ((lastAssigned requirementId h).any fun last =>
    last.2 = teacherId ∧ last.1.Qualified schoolId teacherId subjectId) <| by
      simp [DeclaredWhenAssigned, Option.any_eq_true]

theorem lastAssigned_cons {requirementId : Id} {t : Turn model Op Err Reply} {h : Calls}
    (ht : assigned requirementId t = none) :
    lastAssigned requirementId (t :: h) = lastAssigned requirementId h := by
  simp [lastAssigned, ht]

theorem DeclaredWhenAssigned.cons {requirementId schoolId teacherId subjectId : Id}
    {t : Turn model Op Err Reply} {h : Calls}
    (hd : DeclaredWhenAssigned h requirementId schoolId teacherId subjectId)
    (ht : assigned requirementId t = none) :
    DeclaredWhenAssigned (t :: h) requirementId schoolId teacherId subjectId := by
  unfold DeclaredWhenAssigned
  rwa [lastAssigned_cons ht]

/-! ## The boundary between schools -/

/-- Nothing crosses from one school to another. -/
structure Scoped (h : Calls) (s : World) : Prop where
  program : ∀ c ∈ s.classes, ∀ programId ∈ c.programId, s.OwnsProgram c.schoolId programId
  requirement : ∀ r ∈ s.requirements, ∃ c, s.classes.find? r.classId = some c ∧
    c.schoolId = r.schoolId
  subject : ∀ r ∈ s.requirements, s.OwnsSubject r.schoolId r.subjectId
  teacher : ∀ a ∈ s.assignments, ∃ r, s.requirements.find? a.subjectRequirementId = some r ∧
    DeclaredWhenAssigned h r.id r.schoolId a.teacherId r.subjectId

/-- An update that finds its requirement and replaces the subject names a subject of the school, for
    which the teacher of the requirement, if there is one, was declared qualified when assigned. -/
def SubjectKept : TurnRule model Op Err Reply := fun h s o _ =>
  match o with
  | .updateRequirement schoolId classId requirementId dto =>
      ∀ r ∈ s.requirements.find? requirementId, r.classId = classId → r.schoolId = schoolId →
        ∀ subjectId ∈ dto.subjectId, s.OwnsSubject schoolId subjectId ∧
          ∀ a ∈ s.assignments.find? requirementId,
            DeclaredWhenAssigned h requirementId schoolId a.teacherId subjectId
  | _ => True

instance (h : Calls) (s : World) (o : Op) (cs : List (Except Failure Id)) :
    Decidable (SubjectKept h s o cs) := by
  unfold SubjectKept
  split <;> infer_instance

/-- No class, requirement or assignment has been made yet. -/
structure Unplanned (s : World) : Prop where
  classes : s.classes = .empty
  requirements : s.requirements = .empty
  assignments : s.assignments = .empty

theorem Unplanned.scoped {s : World} (h : Unplanned s) : Scoped [] s where
  program c hc := by simp [h.classes] at hc
  requirement r hr := by simp [h.requirements] at hr
  subject r hr := by simp [h.requirements] at hr
  teacher a ha := by simp [h.assignments] at ha

/-! ## What keeps it -/

section Steps

variable {h : Calls} {s : World}

/-- A call that assigns nobody and leaves these tables alone. -/
theorem Scoped.frame {h' : Calls} {s' : World} (hs : Scoped h s)
    (hlast : ∀ id, lastAssigned id h' = lastAssigned id h) (hclasses : s'.classes = s.classes)
    (hrequirements : s'.requirements = s.requirements) (hassignments : s'.assignments = s.assignments)
    (hprograms : ∀ schoolId id, s.OwnsProgram schoolId id → s'.OwnsProgram schoolId id)
    (hsubjects : ∀ schoolId id, s.OwnsSubject schoolId id → s'.OwnsSubject schoolId id) :
    Scoped h' s' where
  program c hc programId hp := hprograms _ _ (hs.program c (hclasses ▸ hc) programId hp)
  requirement r hr := by
    rw [hclasses]
    exact hs.requirement r (hrequirements ▸ hr)
  subject r hr := hsubjects _ _ (hs.subject r (hrequirements ▸ hr))
  teacher a ha := by
    obtain ⟨r, hfind, hdeclared⟩ := hs.teacher a (hassignments ▸ ha)
    refine ⟨r, by rwa [hrequirements], ?_⟩
    unfold DeclaredWhenAssigned
    rwa [hlast]

/-- A call that assigns nobody changes nothing that was declared. -/
theorem Scoped.told {t : Turn model Op Err Reply} (hs : Scoped h s)
    (ht : ∀ id, assigned id t = none) : Scoped (t :: h) s :=
  hs.frame (fun id => lastAssigned_cons (ht id)) rfl rfl rfl (fun _ _ h => h) fun _ _ h => h

theorem Scoped.years (hs : Scoped h s) (academicYears : Table AcademicYear) :
    Scoped h { s with academicYears } :=
  hs.frame (fun _ => rfl) rfl rfl rfl (fun _ _ h => h) fun _ _ h => h

/-- A class is written: a new one, or one that stays in its school. -/
theorem Scoped.putClass (hs : Scoped h s) (row : SchoolClass)
    (hprogram : ∀ programId ∈ row.programId, s.OwnsProgram row.schoolId programId)
    (hschool : ∀ c, s.classes.find? row.id = some c → c.schoolId = row.schoolId) :
    Scoped h (World.apply (.schoolClass row) s) where
  program c hc programId hp := by
    rcases Table.mem_put.1 hc with rfl | ⟨hc, -⟩
    · exact hprogram programId hp
    · exact hs.program c hc programId hp
  requirement r hr := by
    obtain ⟨c, hfind, hc⟩ := hs.requirement r hr
    have hput := Table.find?_put s.classes row r.classId
    split at hput
    · next hrow =>
        have hrow : s.classes.find? row.id = some c :=
          (congrArg s.classes.find? hrow.symm).trans hfind
        exact ⟨row, hput, (hschool c hrow).symm.trans hc⟩
    · exact ⟨c, hput.trans hfind, hc⟩
  subject := hs.subject
  teacher := hs.teacher

/-- A requirement is written for a class and a subject of its school, and its teacher was declared. -/
theorem Scoped.putRequirement (hs : Scoped h s) (row : SubjectRequirement)
    (hclass : ∃ c, s.classes.find? row.classId = some c ∧ c.schoolId = row.schoolId)
    (hsubject : s.OwnsSubject row.schoolId row.subjectId)
    (hteacher : ∀ a, s.assignments.find? row.id = some a →
      DeclaredWhenAssigned h row.id row.schoolId a.teacherId row.subjectId) :
    Scoped h (World.apply (.requirement row) s) where
  program := hs.program
  requirement r hr := by
    rcases Table.mem_put.1 hr with rfl | ⟨hr, -⟩
    · exact hclass
    · exact hs.requirement r hr
  subject r hr := by
    rcases Table.mem_put.1 hr with rfl | ⟨hr, -⟩
    · exact hsubject
    · exact hs.subject r hr
  teacher a ha := by
    have hput := Table.find?_put s.requirements row a.subjectRequirementId
    split at hput
    · next hrow =>
        refine ⟨row, hput, hteacher a ?_⟩
        exact (congrArg s.assignments.find? hrow.symm).trans (Table.find?_key ha)
    · obtain ⟨r, hfind, hdeclared⟩ := hs.teacher a ha
      exact ⟨r, hput.trans hfind, hdeclared⟩

/-- A class is deleted, with its requirements and their teachers. -/
theorem Scoped.noClass {classId : Id} (hs : Scoped h s) :
    Scoped h (World.apply (.noClass classId) s) where
  program c hc := hs.program c (Table.mem_filter.1 hc).1
  requirement r hr := by
    obtain ⟨hr, hother⟩ := Table.mem_filter.1 hr
    obtain ⟨c, hfind, hc⟩ := hs.requirement r hr
    refine ⟨c, (Table.find?_filter_key fun c' _ hkey => ?_).trans hfind, hc⟩
    have hid : c'.id = r.classId := hkey
    simpa [hid] using hother
  subject r hr := hs.subject r (Table.mem_filter.1 hr).1
  teacher a ha := by
    obtain ⟨ha, hother⟩ := Table.mem_filter.1 ha
    obtain ⟨r, hfind, hdeclared⟩ := hs.teacher a ha
    refine ⟨r, (Table.find?_filter_key fun r' hr' hkey => ?_).trans hfind, hdeclared⟩
    obtain rfl : r' = r := Option.some.inj
      ((hkey ▸ Table.find?_key hr' : s.requirements.find? a.subjectRequirementId = some r').symm.trans
        hfind)
    simpa [World.requires, hfind] using hother

/-- A requirement is deleted, with its teacher. -/
theorem Scoped.noRequirement {requirementId : Id} (hs : Scoped h s) :
    Scoped h (World.apply (.noRequirement requirementId) s) where
  program := hs.program
  requirement r hr := hs.requirement r (Table.mem_filter.1 hr).1
  subject r hr := hs.subject r (Table.mem_filter.1 hr).1
  teacher a ha := by
    obtain ⟨ha, hother⟩ := Table.mem_filter.1 ha
    obtain ⟨r, hfind, hdeclared⟩ := hs.teacher a ha
    refine ⟨r, (Table.find?_filter_key fun r' _ hkey => ?_).trans hfind, hdeclared⟩
    have hid : r'.id = a.subjectRequirementId := hkey
    simpa [hid] using hother

theorem Scoped.noAssignment {requirementId : Id} (hs : Scoped h s) :
    Scoped h (World.apply (.noAssignment requirementId) s) where
  program := hs.program
  requirement := hs.requirement
  subject := hs.subject
  teacher a ha := hs.teacher a (Table.mem_filter.1 ha).1

/-- A teacher who is declared qualified for its subject is assigned to a requirement. -/
theorem Scoped.assign {t : Turn model Op Err Reply} {r : SubjectRequirement}
    {a : TeacherAssignment} (hs : Scoped h s) (hbefore : t.before = s)
    (hassigned : ∀ id, assigned id t = if id = r.id then some a.teacherId else none)
    (hfind : s.requirements.find? r.id = some r) (ha : a.subjectRequirementId = r.id)
    (hqualified : s.Qualified r.schoolId a.teacherId r.subjectId) :
    Scoped (t :: h) (World.apply (.assignment a) s) where
  program := hs.program
  requirement := hs.requirement
  subject := hs.subject
  teacher b hb := by
    rcases Table.mem_put.1 hb with rfl | ⟨hb, hother⟩
    · refine ⟨r, ha ▸ hfind, (s, b.teacherId), ?_, rfl, hqualified⟩
      simp [lastAssigned, hassigned, hbefore]
    · obtain ⟨r', hfind', hdeclared⟩ := hs.teacher b hb
      refine ⟨r', hfind', hdeclared.cons ?_⟩
      have hid : r'.id = b.subjectRequirementId := Table.key_of_find? hfind'
      have hne : b.subjectRequirementId ≠ a.subjectRequirementId := hother
      rw [hassigned, if_neg (by rw [hid, ← ha]; exact hne)]

/-- What a call leaves behind is scoped, if it keeps the subject of what it updates. -/
theorem Scoped.effect {o : Op} {cs : List (Except Failure Id)} {r : Except Err Reply} {s' : World}
    (hs : Scoped h s) (hkept : SubjectKept h s o cs) (he : Effect s o r s') :
    Scoped (⟨o, cs, s, r, s'⟩ :: h) s' := by
  cases he with
  | failed e => exact hs.told fun id => by cases o <;> rfl
  | years hyears hsame =>
      have hnobody : ∀ id, assigned id (⟨o, cs, s, r, s'⟩ : Turn model Op Err Reply) = none := by
        intro id
        cases o <;> first | rfl | cases hyears
      rw [hsame]
      exact (hs.years s'.academicYears).told hnobody
  | @createClass schoolId id dto hfree hprogram =>
      refine (hs.putClass (dto.row schoolId id) hprogram fun c hc => ?_).told fun _ => rfl
      have hid : s.classes.find? id = none := by simpa [Table.contains] using hfree
      cases hid.symm.trans hc
  | @updateClass schoolId classId dto c hfind hschool hprogram =>
      obtain rfl := hschool
      refine (hs.putClass (dto.set c) (fun programId hp => ?_) fun c' hc' => ?_).told
        fun _ => rfl
      · cases hdto : dto.programId with
        | none =>
            simp only [UpdateSchoolClassDto.set, hdto, Option.getD_none] at hp
            exact hs.program c (Table.mem_of_find? hfind) programId hp
        | some p =>
            simp only [UpdateSchoolClassDto.set, hdto, Option.getD_some] at hp
            refine hprogram programId ?_
            rw [hdto]
            exact hp
      · have hid : c.id = classId := Table.key_of_find? hfind
        obtain rfl := Option.some.inj ((hid ▸ hfind : s.classes.find? c.id = some c).symm.trans hc')
        rfl
  | deleteClass => exact hs.noClass.told fun _ => rfl
  | @createRequirement schoolId classId id dto c hfind hschool hsubject hfree =>
      refine (hs.putRequirement (dto.row schoolId classId id) ⟨c, hfind, hschool⟩ hsubject
        fun a ha => ?_).told fun _ => rfl
      -- No teacher can have been assigned to a requirement that was not there.
      obtain ⟨r, hr, -⟩ := hs.teacher a (Table.mem_of_find? ha)
      have hid : a.subjectRequirementId = id := Table.key_of_find? ha
      have hnone : s.requirements.find? id = none := by simpa [Table.contains] using hfree
      rw [hid, hnone] at hr
      cases hr
  | @updateRequirement schoolId classId requirementId dto r hfind hclass hschool =>
      have hid : r.id = requirementId := Table.key_of_find? hfind
      have hmem := Table.mem_of_find? hfind
      have hkept := hkept r hfind hclass hschool
      obtain rfl := hschool
      refine (hs.putRequirement (dto.set r) (hs.requirement r hmem) ?_ fun a ha => ?_).told
        fun _ => rfl
      · cases hdto : dto.subjectId with
        | none => simpa [UpdateSubjectRequirementDto.set, hdto] using hs.subject r hmem
        | some subjectId =>
            simpa [UpdateSubjectRequirementDto.set, hdto] using (hkept subjectId hdto).1
      · have ha' : s.assignments.find? requirementId = some a := hid ▸ ha
        obtain ⟨r', hr', hdeclared⟩ := hs.teacher a (Table.mem_of_find? ha')
        have hkey : a.subjectRequirementId = requirementId := Table.key_of_find? ha'
        rw [hkey, hfind] at hr'
        obtain rfl := Option.some.inj hr'
        cases hdto : dto.subjectId with
        | none => simpa [UpdateSubjectRequirementDto.set, hdto] using hdeclared
        | some subjectId =>
            simpa [UpdateSubjectRequirementDto.set, hdto, hid] using (hkept subjectId hdto).2 a ha'
  | deleteRequirement => exact hs.noRequirement.told fun _ => rfl
  | @assignTeacher schoolId classId requirementId dto r a hfind hclass hschool hqualified ha hteacher =>
      have hid : r.id = requirementId := Table.key_of_find? hfind
      subst hid hschool
      refine hs.assign rfl (fun id => ?_) hfind ha (hteacher ▸ hqualified)
      simp only [assigned, hteacher, eq_comm]
  | unassignTeacher _ _ _ hwritten =>
      rcases hwritten with rfl | rfl
      · exact hs.told fun _ => rfl
      · exact hs.noAssignment.told fun _ => rfl

/-- What other services do meanwhile takes nothing away from a school. -/
theorem Scoped.change (hs : Scoped h s) (e : Change) : Scoped h (World.change e s) := by
  refine hs.frame (fun _ => rfl) ?_ ?_ ?_ (fun schoolId id => ?_) fun schoolId id => ?_
  · cases e <;> rfl
  · cases e <;> rfl
  · cases e <;> rfl
  · rintro ⟨row, hfind, hschool⟩
    refine ⟨row, ?_, hschool⟩
    cases e <;> first | exact hfind | exact Table.find?_insert_of_find? hfind
  · rintro ⟨row, hfind, hschool⟩
    refine ⟨row, ?_, hschool⟩
    cases e <;> first | exact hfind | exact Table.find?_insert_of_find? hfind

end Steps

/-- **Scheduling data never crosses schools**, in every state that is reached by calls that keep the
    subjects of the requirements they update. -/
theorem scheduling_data_scoped {s₀ s : World} {h : Calls} (h₀ : Unplanned s₀)
    (hrun : Journal model program SubjectKept s₀ h s) : Scoped h s :=
  hrun.holds h₀.scoped
    (fun _ _ _ hkept halone hs => hs.effect hkept (effect_of_alone halone))
    fun e _ hs => hs.change e

/-- Schools `1` and `2`, each with a programme and subjects. Teacher `7` is declared qualified for the
    two subjects of school `1`. -/
def twoSchools : World :=
  { World.empty with
    academicYears := .ofList [⟨100, "2025-2026", 0, 1000, true⟩]
    programs := .ofList [⟨30, 1⟩, ⟨40, 2⟩]
    subjects := .ofList [⟨10, 1⟩, ⟨11, 1⟩, ⟨20, 2⟩]
    teacherSchools := .ofList [⟨50, 7, 1, true⟩]
    teacherSchoolSubjects := .ofList [⟨50, 10⟩, ⟨50, 11⟩] }

theorem unplanned_twoSchools : Unplanned twoSchools := ⟨rfl, rfl, rfl⟩

/-- A class of school `1` requires four hours of subject `10`, which teacher `7` covers, and then of
    subject `subjectId`. -/
def subjectReplaced (subjectId : Id) : List (Op × List (Except Failure Id)) :=
  [(.createClass 1 { academicYearId := 100, programId := some 30, name := "L1" },
      [.ok 0, .ok 0, .ok 0, .ok 1]),
    (.createRequirement 1 1 ⟨10, 100, 4⟩, [.ok 0, .ok 0, .ok 0, .ok 0, .ok 2]),
    (.assignTeacher 1 1 2 ⟨7⟩, [.ok 0, .ok 0, .ok 3]),
    (.updateRequirement 1 1 2 { subjectId := some subjectId }, [.ok 0, .ok 0])]

/-- The subject is replaced by another one that the teacher was declared qualified for. -/
theorem scheduling_data_scoped_replaced : ∃ (h : Calls) (s : World),
    (s.requirements.rows.any fun r => r.subjectId = 11) = true ∧ Scoped h s := by
  have hplay : (Journal.play program SubjectKept [] twoSchools (subjectReplaced 11)).any
      (fun out => out.2.requirements.rows.any fun r => r.subjectId = 11) = true := by
    decide +kernel
  obtain ⟨h, s, hrun, hs⟩ := Journal.exists_of_play hplay
  exact ⟨h, s, hs, scheduling_data_scoped unplanned_twoSchools hrun⟩

/-- An update takes the subject of another school, which `createRequirement` refuses. -/
theorem not_scheduling_data_scoped : ¬ ∀ (s₀ s : World) (h : Calls), Unplanned s₀ →
    Journal model program anyTurn s₀ h s → Scoped h s := by
  intro hall
  have hplay : (Journal.play (M := model) program anyTurn [] twoSchools (subjectReplaced 20)).any
      (fun out => out.2.requirements.rows.any fun r =>
        ¬ out.2.OwnsSubject r.schoolId r.subjectId) = true := by
    decide +kernel
  obtain ⟨h, s, hrun, hs⟩ := Journal.exists_of_play hplay
  obtain ⟨r, hr, hnot⟩ := List.any_eq_true.1 hs
  exact of_decide_eq_true hnot ((hall _ s h unplanned_twoSchools hrun).subject r hr)

end GetPlatform.Planning
