import GetPlatform.Classroom.Facts

set_option autoImplicit false

/-! # What a course contains

Everything teachers write is about one course: its settings, chapters, resources, evaluations, grades,
assignments, marks or attendance. A write leaves every other course as it is, and a statement that is
licensed is about a course that the teacher was found to have. -/

namespace GetPlatform.Classroom

/-- What is in a course, by identifiers, by evaluation and student, or by student and day. A submission
    that is not there has no mark. -/
@[ext] structure Contents where
  settings : Option String × Bool × Bool
  chapter : Id → Option CourseChapter
  resource : Id → Option CourseResource
  evaluation : Id → Option Evaluation
  grade : Id × Id → Option Grade
  assignment : Id → Option Assignment
  mark : Id → Option Rat × Option String
  attendance : Id × Int → Option Attendance

def Course.settings (course : Course) : Option String × Bool × Bool :=
  (course.welcomeMessage, course.allowGroupMessages, course.notifyOnPublish)

def markOf (found : Option AssignmentSubmission) : Option Rat × Option String :=
  (found.bind (·.grade), found.bind (·.feedback))

namespace World

variable (s : World) (courseId : Id)

def chapterIn (id : Id) : Option CourseChapter := (s.chapters.find? id).filter (·.courseId = courseId)

def resourceIn (id : Id) : Option CourseResource :=
  (s.resources.find? id).filter fun r => (s.chapterIn courseId r.chapterId).isSome

def evaluationIn (id : Id) : Option Evaluation := (s.evaluations.find? id).filter (·.courseId = courseId)

def gradeIn (k : Id × Id) : Option Grade :=
  (s.grades.find? k).filter fun g => (s.evaluationIn courseId g.evaluationId).isSome

def assignmentIn (id : Id) : Option Assignment := (s.assignments.find? id).filter (·.courseId = courseId)

def submissionIn (id : Id) : Option AssignmentSubmission :=
  (s.submissions.find? id).filter fun x => (s.assignmentIn courseId x.assignmentId).isSome

def contents : Contents where
  settings := ((s.courses.find? courseId).map Course.settings).getD (none, true, true)
  chapter := s.chapterIn courseId
  resource := s.resourceIn courseId
  evaluation := s.evaluationIn courseId
  grade := s.gradeIn courseId
  assignment := s.assignmentIn courseId
  mark id := markOf (s.submissionIn courseId id)
  attendance k := s.attendances.find? (courseId, k)

end World

/-- The write is about this course. -/
def Write.Of (s : World) (courseId : Id) : Write → Prop
  | .setCourse id _ => id = courseId
  | .chapter row => row.courseId = courseId
  | .setChapter id _ => (s.chapterIn courseId id).isSome = true
  | .publishChapter id _ => (s.chapterIn courseId id).isSome = true
  | .deleteChapter id => (s.chapterIn courseId id).isSome = true
  | .resource row => (s.chapterIn courseId row.chapterId).isSome = true
  | .setResource id _ => (s.resourceIn courseId id).isSome = true
  | .deleteResource id => (s.resourceIn courseId id).isSome = true
  | .attendance row => row.courseId = courseId
  | .evaluation row => row.courseId = courseId
  | .grade row => (s.evaluationIn courseId row.evaluationId).isSome = true
  | .assignment row => row.courseId = courseId
  | .publishAssignment id _ => (s.assignmentIn courseId id).isSome = true
  | .setSubmission id _ => (s.submissionIn courseId id).isSome = true

/-! ## Other courses -/

section Other

variable {s s' : World} {courseId : Id}

/-- A row of interest that is not there. -/
theorem not_interest {ρ : Type} {found : Option ρ} {p : ρ → Bool} (h : ¬ (found.filter p).isSome = true) :
    ∀ r, found = some r → p r = false := by
  intro r hr
  rw [Option.not_isSome_iff_eq_none, hr] at h
  cases hp : p r with
  | false => rfl
  | true =>
      rw [Option.filter_some_pos hp] at h
      cases h

theorem resourceIn_congr (hresources : s'.resources = s.resources)
    (hchapters : ∀ id, s'.chapterIn courseId id = s.chapterIn courseId id) :
    s'.resourceIn courseId = s.resourceIn courseId := by
  funext id
  unfold World.resourceIn
  simp only [hresources, hchapters]

theorem gradeIn_congr (hgrades : s'.grades = s.grades)
    (hevaluations : ∀ id, s'.evaluationIn courseId id = s.evaluationIn courseId id) :
    s'.gradeIn courseId = s.gradeIn courseId := by
  funext id
  unfold World.gradeIn
  simp only [hgrades, hevaluations]

theorem submissionIn_congr (hsubmissions : s'.submissions = s.submissions)
    (hassignments : ∀ id, s'.assignmentIn courseId id = s.assignmentIn courseId id) :
    s'.submissionIn courseId = s.submissionIn courseId := by
  funext id
  unfold World.submissionIn
  simp only [hsubmissions, hassignments]

/-- Chapters change, but not those of the course. -/
theorem contents_of_chapters {chapters : Perishable CourseChapter}
    (h : ∀ id, (chapters.find? id).filter (·.courseId = courseId) = s.chapterIn courseId id) :
    ({ s with chapters } : World).contents courseId = s.contents courseId :=
  Contents.ext rfl (funext h) (resourceIn_congr rfl h) rfl rfl rfl rfl rfl

theorem contents_of_resources {resources : Perishable CourseResource}
    (h : ∀ id, ((resources.find? id).filter fun r => (s.chapterIn courseId r.chapterId).isSome) =
      s.resourceIn courseId id) :
    ({ s with resources } : World).contents courseId = s.contents courseId :=
  Contents.ext rfl rfl (funext h) rfl rfl rfl rfl rfl

theorem markOf_filter (p : AssignmentSubmission → Bool) (x : AssignmentSubmission) :
    markOf ((some x).filter p) = if p x then (x.grade, x.feedback) else (none, none) := by
  cases hp : p x with
  | true => rw [Option.filter_some_pos hp]; rfl
  | false => rw [Option.filter_some_neg (by simp [hp])]; rfl

/-- Submissions change, but no mark does. -/
theorem contents_of_submissions {submissions : Table AssignmentSubmission}
    (h : ∀ id, markOf ((submissions.find? id).filter fun x => (s.assignmentIn courseId x.assignmentId).isSome) =
      markOf (s.submissionIn courseId id)) :
    ({ s with submissions } : World).contents courseId = s.contents courseId :=
  Contents.ext rfl rfl rfl rfl rfl rfl (funext h) rfl

theorem contents_of_assignments {assignments : Table Assignment}
    (h : ∀ id, (assignments.find? id).filter (·.courseId = courseId) = s.assignmentIn courseId id) :
    ({ s with assignments } : World).contents courseId = s.contents courseId := by
  have hsubmissions : ({ s with assignments } : World).submissionIn courseId = s.submissionIn courseId :=
    submissionIn_congr rfl h
  refine Contents.ext rfl rfl rfl rfl rfl (funext h) (funext fun id => ?_) rfl
  exact congrArg markOf (congrFun hsubmissions id)

/-- **A write leaves other courses as they are.** -/
theorem contents_apply {w : Write} (h : ¬ w.Of s courseId) :
    (s.apply w).contents courseId = s.contents courseId := by
  cases w with
  | setCourse id data =>
      refine Contents.ext ?_ rfl rfl rfl rfl rfl rfl rfl
      exact congrArg (fun found => (Option.map Course.settings found).getD _)
        (Table.find?_modify_ne s.courses data.set (fun _ => rfl) (Ne.symm h))
  | chapter row =>
      have hrow : row.courseId ≠ courseId := h
      exact contents_of_chapters fun id =>
        Perishable.filter_find?_add (r := row) (decide_eq_false hrow) id
  | setChapter id data =>
      refine contents_of_chapters fun k => Perishable.filter_find?_modify (fun r hr => ?_) k
      exact ⟨not_interest h r hr, not_interest h r hr⟩
  | publishChapter id publishedAt =>
      refine contents_of_chapters fun k => Perishable.filter_find?_modify (fun r hr => ?_) k
      exact ⟨not_interest h r hr, not_interest h r hr⟩
  | deleteChapter id =>
      have hchapters : ∀ k, ((s.chapters.remove (·.id = id)).find? k).filter (·.courseId = courseId) =
          s.chapterIn courseId k := by
        refine fun k => Perishable.filter_find?_remove fun r hr hid => not_interest h r ?_
        rw [← of_decide_eq_true hid, ← Table.key_of_find? hr] at *
        exact hr
      refine (contents_of_resources (s := { s with chapters := s.chapters.remove (·.id = id) })
        fun k => ?_).trans (contents_of_chapters hchapters)
      refine Perishable.filter_find?_remove fun r _ hchapter => ?_
      have hnone : (s.chapterIn courseId r.chapterId).isSome = false := by
        rw [of_decide_eq_true hchapter]
        exact Bool.eq_false_iff.2 h
      exact (congrArg Option.isSome (hchapters r.chapterId)).trans hnone
  | resource row =>
      have hrow : (s.chapterIn courseId row.chapterId).isSome = false := Bool.eq_false_iff.2 h
      exact contents_of_resources fun k => Perishable.filter_find?_add (r := row) hrow k
  | setResource id data =>
      refine contents_of_resources fun k => Perishable.filter_find?_modify (fun r hr => ?_) k
      exact ⟨not_interest h r hr, not_interest h r hr⟩
  | deleteResource id =>
      refine contents_of_resources fun k => Perishable.filter_find?_remove fun r hr hid => ?_
      refine not_interest h r ?_
      rw [← of_decide_eq_true hid, ← Table.key_of_find? hr] at *
      exact hr
  | attendance row =>
      refine Contents.ext rfl rfl rfl rfl rfl rfl rfl (funext fun k => ?_)
      refine (Table.find?_put s.attendances row (courseId, k)).trans (if_neg fun hk => h ?_)
      exact (Prod.mk.inj hk).1.symm
  | evaluation row =>
      have hrow : row.courseId ≠ courseId := h
      have hevaluations : ∀ k, ((s.evaluations.insert row).find? k).filter (·.courseId = courseId) =
          s.evaluationIn courseId k := Table.filter_find?_insert (decide_eq_false hrow)
      exact Contents.ext rfl rfl rfl (funext hevaluations) (gradeIn_congr rfl hevaluations) rfl rfl rfl
  | grade row =>
      have hrow : (s.evaluationIn courseId row.evaluationId).isSome = false := Bool.eq_false_iff.2 h
      refine Contents.ext rfl rfl rfl rfl (funext fun k => ?_) rfl rfl rfl
      refine Table.filter_find?_put (t := s.grades) (r := row) hrow (fun g hg => ?_) k
      have hkey : g.evaluationId = row.evaluationId := (Prod.mk.inj (Table.key_of_find? hg)).1
      exact hkey ▸ hrow
  | assignment row =>
      have hrow : row.courseId ≠ courseId := h
      exact contents_of_assignments (Table.filter_find?_insert (decide_eq_false hrow))
  | publishAssignment id publishedAt =>
      refine contents_of_assignments fun k => Table.filter_find?_modify (fun r hr => ?_) k
      exact ⟨not_interest h r hr, not_interest h r hr⟩
  | setSubmission id data =>
      have hsubmissions : ∀ k, (s.apply (.setSubmission id data)).submissionIn courseId k =
          s.submissionIn courseId k := by
        intro k
        show ((s.submissions.modify id data.set fun _ => rfl).find? k).filter _ = _
        refine Table.filter_find?_modify (fun r hr => ?_) k
        exact ⟨not_interest h r hr, not_interest h r hr⟩
      exact Contents.ext rfl rfl rfl rfl rfl rfl
        (funext fun k => congrArg markOf (hsubmissions k)) rfl

/-- A row under a key that is new. -/
theorem find?_of_not_contains {ρ : Type} [Keyed ρ Id] {t : Table ρ} {k : Id} (h : t.contains k = false) :
    t.find? k = none := by
  rw [← Option.not_isSome_iff_eq_none]
  simpa [Table.contains] using h

theorem grades_change (s : World) (e : Change) : (s.change e).grades = s.grades := by
  cases e with
  | handedIn id assignmentId studentId contentUrl submittedAt =>
      simp only [World.change]
      split <;> rfl
  | _ => rfl

theorem attendances_change (s : World) (e : Change) : (s.change e).attendances = s.attendances := by
  cases e with
  | handedIn id assignmentId studentId contentUrl submittedAt =>
      simp only [World.change]
      split <;> rfl
  | _ => rfl

/-- **What other services do leaves courses as they are.** -/
theorem contents_change (s : World) (e : Change) (courseId : Id) :
    (s.change e).contents courseId = s.contents courseId := by
  cases e with
  | teacher row => rfl
  | student row => rfl
  | staff teacherSchools => rfl
  | enrolments courseEnrollments => rfl
  | course id schoolId teacherId =>
      -- a course that is opened has the settings it is taken to have before
      have hsettings : ((s.courses.insert ⟨id, schoolId, teacherId, none, true, true⟩).find? courseId).map
            Course.settings = (s.courses.find? courseId).map Course.settings ∨
          s.courses.find? courseId = none ∧
            (s.courses.insert ⟨id, schoolId, teacherId, none, true, true⟩).find? courseId =
              some ⟨id, schoolId, teacherId, none, true, true⟩ := by
        cases hold : s.courses.contains id with
        | true => exact .inl (by rw [Table.insert_of_contains hold])
        | false =>
            rw [Table.find?_insert hold]
            split
            · next hid => exact .inr ⟨find?_of_not_contains (hid ▸ hold), rfl⟩
            · exact .inl rfl
      refine Contents.ext ?_ rfl rfl rfl rfl rfl rfl rfl
      show (((s.courses.insert _).find? courseId).map Course.settings).getD _ =
        ((s.courses.find? courseId).map Course.settings).getD _
      rcases hsettings with hsame | ⟨hnone, hnew⟩
      · rw [hsame]
      · rw [hnone, hnew]
        rfl
  | courseTeacher id teacherId =>
      refine Contents.ext ?_ rfl rfl rfl rfl rfl rfl rfl
      exact congrArg (fun settings => Option.getD settings _)
        (map_find?_modify (f := fun course : Course => { course with teacherId }) (fun _ => rfl)
          fun _ => rfl)
  | handedIn id assignmentId studentId contentUrl submittedAt =>
      simp only [World.change]
      split
      · refine contents_of_submissions fun k => ?_
        cases hold : s.submissions.contains id with
        | true =>
            rw [Table.insert_of_contains hold]
            rfl
        | false =>
            rw [Table.find?_insert hold]
            split
            · next hid =>
                have hnone : s.submissionIn courseId k = none := by
                  rw [World.submissionIn, find?_of_not_contains (hid ▸ hold)]
                  rfl
                rw [hnone, markOf_filter, ite_self]
                rfl
            · rfl
      · rfl
  | replaced id contentUrl submittedAt =>
      refine contents_of_submissions fun k => ?_
      rw [Table.find?_modify]
      split
      · next hid =>
          rw [World.submissionIn, hid]
          cases s.submissions.find? id with
          | none => rfl
          | some x => rw [Option.map_some, markOf_filter, markOf_filter]
      · rfl

end Other

/-! ## What a licensed statement is about -/

theorem settled_of_chapterIn {s : World} {courseId courseId' id : Id}
    (h : s.Knows (.chapter courseId' id)) (hin : (s.chapterIn courseId id).isSome = true) :
    courseId' = courseId := by
  obtain ⟨row, hrow⟩ := Option.isSome_iff_exists.1 hin
  obtain ⟨hfind, hcourse⟩ := Option.filter_eq_some_iff.1 hrow
  exact (h.column row hfind).symm.trans (of_decide_eq_true hcourse)

theorem chapter_of_resourceIn {s : World} {courseId chapterId id : Id}
    (h : s.Knows (.resource chapterId id)) (hin : (s.resourceIn courseId id).isSome = true) :
    (s.chapterIn courseId chapterId).isSome = true := by
  obtain ⟨row, hrow⟩ := Option.isSome_iff_exists.1 hin
  obtain ⟨hfind, hchapter⟩ := Option.filter_eq_some_iff.1 hrow
  exact h.column row hfind ▸ hchapter

theorem of_evaluationIn {s : World} {courseId courseId' id : Id} (h : s.Knows (.evaluation courseId' id))
    (hin : (s.evaluationIn courseId id).isSome = true) : courseId' = courseId := by
  obtain ⟨row, hrow⟩ := Option.isSome_iff_exists.1 hin
  obtain ⟨hfind, hcourse⟩ := Option.filter_eq_some_iff.1 hrow
  rw [World.Knows, hfind] at h
  exact (Option.some.inj h).symm.trans (of_decide_eq_true hcourse)

theorem of_assignmentIn {s : World} {courseId courseId' id : Id} (h : s.Knows (.assignment courseId' id))
    (hin : (s.assignmentIn courseId id).isSome = true) : courseId' = courseId := by
  obtain ⟨row, hrow⟩ := Option.isSome_iff_exists.1 hin
  obtain ⟨hfind, hcourse⟩ := Option.filter_eq_some_iff.1 hrow
  rw [World.Knows, hfind] at h
  exact (Option.some.inj h).symm.trans (of_decide_eq_true hcourse)

theorem assignment_of_submissionIn {s : World} {courseId assignmentId id : Id}
    (h : s.Knows (.submission assignmentId id)) (hin : (s.submissionIn courseId id).isSome = true) :
    (s.assignmentIn courseId assignmentId).isSome = true := by
  obtain ⟨row, hrow⟩ := Option.isSome_iff_exists.1 hin
  obtain ⟨hfind, hassignment⟩ := Option.filter_eq_some_iff.1 hrow
  rw [World.Knows, hfind] at h
  exact Option.some.inj h ▸ hassignment

/-! ### Rows that are answered -/

theorem of_attendanceUpsert {courseId studentId markedBy : Id} {date : Option Int} {status : String}
    {a : Attendance}
    (h : model.Possible (.attendanceUpsert courseId studentId date status markedBy) a) :
    a.courseId = courseId ∧ a.studentId = studentId := by
  obtain ⟨c, s, hexec⟩ := h
  simp only [exec, Option.bind_eq_some_iff] at hexec
  obtain ⟨day, -, hexec⟩ := hexec
  split at hexec
  · next row hrow =>
      obtain rfl := Option.some.inj hexec
      obtain ⟨hcourse, hrest⟩ := Prod.mk.inj (Table.key_of_find? hrow)
      exact ⟨hcourse, (Prod.mk.inj hrest).1⟩
  · split at hexec
    · cases hexec
    · obtain rfl := Option.some.inj hexec
      exact ⟨rfl, rfl⟩

theorem of_gradeUpsert {evaluationId : Id} {dto : GradeDto} {a : Grade}
    (h : model.Possible (.gradeUpsert evaluationId dto) a) :
    a.evaluationId = evaluationId ∧ a.studentId = dto.studentId := by
  obtain ⟨c, s, hexec⟩ := h
  simp only [exec] at hexec
  split at hexec
  · next row hrow =>
      obtain rfl := Option.some.inj hexec
      exact Prod.mk.inj (Table.key_of_find? hrow)
  · split at hexec
    · cases hexec
    · obtain rfl := Option.some.inj hexec
      exact ⟨rfl, rfl⟩

/-- The answer, where a condition has to hold for there to be one. -/
theorem of_ite_some {ρ : Type} {c : Prop} [Decidable c] {row a : ρ}
    (h : (if c then some row else none) = some a) : a = row := by
  split at h
  · exact (Option.some.inj h).symm
  · cases h

theorem of_ite_none {ρ : Type} {c : Prop} [Decidable c] {row a : ρ}
    (h : (if c then none else some row) = some a) : a = row := by
  split at h
  · cases h
  · exact (Option.some.inj h).symm

/-- **Whoever sends a licensed statement was found to have the course it is about.** -/
theorem held_of_licensed {K : Fact → Prop} {q : Stmt} {a : Ans q} {s : World} {courseId : Id}
    (hpossible : model.Possible q a) (hknows : ∀ f, K f → s.Knows f) (h : Licensed K q) {w : Write}
    (hw : w ∈ writes q a) (hof : w.Of s courseId) : Held K courseId := by
  have hchapter : ∀ {id : Id}, (∃ courseId, K (.chapter courseId id) ∧ Held K courseId) →
      (s.chapterIn courseId id).isSome = true → Held K courseId := by
    rintro id ⟨courseId', hin, hheld⟩ hof
    exact settled_of_chapterIn (hknows _ hin) hof ▸ hheld
  have hresource : ∀ {id : Id},
      (∃ chapterId courseId, K (.resource chapterId id) ∧ K (.chapter courseId chapterId) ∧
        Held K courseId) → (s.resourceIn courseId id).isSome = true → Held K courseId := by
    rintro id ⟨chapterId, courseId', hinner, houter, hheld⟩ hof
    exact hchapter ⟨courseId', houter, hheld⟩ (chapter_of_resourceIn (hknows _ hinner) hof)
  cases q with
  | courseUpdate id data =>
      obtain rfl := List.mem_singleton.1 hw
      exact hof ▸ h
  | courseChapterCreate courseId' position dto =>
      obtain rfl := List.mem_singleton.1 hw
      obtain ⟨c, s', hexec⟩ := hpossible
      obtain rfl := of_ite_some hexec
      exact hof ▸ h
  | courseChapterUpdate id data =>
      obtain rfl := List.mem_singleton.1 hw
      exact hchapter h hof
  | courseChapterPublish id publishedAt =>
      obtain rfl := List.mem_singleton.1 hw
      exact hchapter h hof
  | courseChapterDelete id =>
      obtain rfl := List.mem_singleton.1 hw
      exact hchapter h hof
  | courseResourceCreate chapterId title url type =>
      obtain rfl := List.mem_singleton.1 hw
      obtain ⟨c, s', hexec⟩ := hpossible
      obtain rfl := of_ite_some hexec
      exact hchapter h hof
  | courseResourceUpdate id data =>
      obtain rfl := List.mem_singleton.1 hw
      exact hresource h hof
  | courseResourceDelete id =>
      obtain rfl := List.mem_singleton.1 hw
      exact hresource h hof
  | attendanceUpsert courseId' studentId date status markedBy =>
      obtain rfl := List.mem_singleton.1 hw
      exact (of_attendanceUpsert hpossible).1.symm.trans hof ▸ h.2
  | evaluationCreate courseId' dto =>
      obtain rfl := List.mem_singleton.1 hw
      obtain ⟨c, s', hexec⟩ := hpossible
      obtain rfl := of_ite_none hexec
      exact hof ▸ h
  | gradeUpsert evaluationId dto =>
      obtain rfl := List.mem_singleton.1 hw
      obtain ⟨courseId', hevaluation, -, hheld⟩ := h
      have hin : (s.evaluationIn courseId evaluationId).isSome = true :=
        (of_gradeUpsert hpossible).1 ▸ hof
      exact of_evaluationIn (hknows _ hevaluation) hin ▸ hheld
  | assignmentCreate courseId' dto =>
      obtain rfl := List.mem_singleton.1 hw
      obtain ⟨c, s', hexec⟩ := hpossible
      obtain rfl := of_ite_none hexec
      exact hof ▸ h
  | assignmentPublish id publishedAt =>
      obtain rfl := List.mem_singleton.1 hw
      obtain ⟨courseId', hin, hheld⟩ := h
      exact of_assignmentIn (hknows _ hin) hof ▸ hheld
  | submissionUpdate id data =>
      obtain rfl := List.mem_singleton.1 hw
      obtain ⟨assignmentId, courseId', hinner, houter, hheld⟩ := h
      exact of_assignmentIn (hknows _ houter) (assignment_of_submissionIn (hknows _ hinner) hof) ▸ hheld
  | _ => cases hw

/-- A statement that changes a course has a write that is about it. -/
theorem of_contents_ne {q : Stmt} {a : Ans q} {s : World} {courseId : Id}
    (h : (model.applyAll (writes q a) s).contents courseId ≠ s.contents courseId) :
    ∃ w ∈ writes q a, w.Of s courseId := by
  have hwrites : writes q a = [] ∨ ∃ w, writes q a = [w] := by
    cases q with
    | _ => first | exact .inl rfl | exact .inr ⟨_, rfl⟩
  rcases hwrites with hnone | ⟨w, hw⟩
  · rw [hnone] at h
    exact absurd rfl h
  · rw [hw] at h ⊢
    refine ⟨w, .head _, ?_⟩
    by_contra hother
    exact h (contents_apply hother)

end GetPlatform.Classroom
