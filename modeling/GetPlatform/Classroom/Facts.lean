import GetPlatform.Classroom.TeachingService

set_option autoImplicit false

/-! # What a call knows of a course

Who is which teacher never changes, nor which course a chapter, an evaluation or an assignment is part
of. Who teaches a course and who is enrolled does change: of these a call knows only what it has found. -/

namespace GetPlatform.Classroom

open Pool Prog

abbrev Log := Trace interface Op
abbrev Ev := Event interface
abbrev Platform := Pool model Op Err Reply

/-! ## Facts -/

inductive Fact where
  | teacher (userId teacherId : Id)
  /-- The teacher was found to have the course, whatever has become of that. -/
  | held (teacherId courseId : Id)
  /-- The student was found to be enrolled in the course. -/
  | enrolled (courseId studentId : Id)
  | chapter (courseId chapterId : Id)
  | resource (chapterId resourceId : Id)
  | evaluation (courseId evaluationId : Id)
  | assignment (courseId assignmentId : Id)
  | submission (assignmentId submissionId : Id)

def World.Knows (s : World) : Fact → Prop
  | .teacher userId teacherId => (s.teachers.find? userId).map (·.id) = some teacherId
  | .held .. => True
  | .enrolled .. => True
  | .chapter courseId chapterId => s.chapters.Settled (·.courseId) chapterId courseId
  | .resource chapterId resourceId => s.resources.Settled (·.chapterId) resourceId chapterId
  | .evaluation courseId evaluationId => (s.evaluations.find? evaluationId).map (·.courseId) = some courseId
  | .assignment courseId assignmentId => (s.assignments.find? assignmentId).map (·.courseId) = some courseId
  | .submission assignmentId submissionId =>
      (s.submissions.find? submissionId).map (·.assignmentId) = some assignmentId

section Lasts

variable {ρ κ α : Type} [Keyed ρ κ] [DecidableEq κ] {t : Table ρ} {k l : κ} {column : ρ → α} {a : α}

/-- A column that an update leaves alone, -/
theorem map_find?_modify {f : ρ → ρ} (hf : ∀ r, Keyed.key (f r) = Keyed.key r)
    (hcolumn : ∀ r, column (f r) = column r) :
    ((t.modify k f hf).find? l).map column = (t.find? l).map column := by
  rw [Table.find?_modify]
  split
  · next hk =>
      rw [Option.map_map, hk]
      exact congrArg (Option.map · _) (funext hcolumn)
  · rfl

/-- and one that a new row leaves alone. -/
theorem map_find?_insert {r : ρ} (h : (t.find? k).map column = some a) :
    ((t.insert r).find? k).map column = some a := by
  obtain ⟨s, hs, rfl⟩ := Option.map_eq_some_iff.1 h
  rw [Table.find?_insert_of_find? hs]
  rfl

end Lasts

theorem World.Knows.apply {s : World} (w : Write) {f : Fact} (h : s.Knows f) : (s.apply w).Knows f := by
  cases w with
  | chapter row => cases f with
    | chapter courseId chapterId => exact Perishable.Settled.add h row
    | _ => exact h
  | setChapter id data => cases f with
    | chapter courseId chapterId => exact Perishable.Settled.modify h id data.set _ fun _ => rfl
    | _ => exact h
  | publishChapter id publishedAt => cases f with
    | chapter courseId chapterId => exact Perishable.Settled.modify h id _ _ fun _ => rfl
    | _ => exact h
  | deleteChapter id => cases f with
    | chapter courseId chapterId => exact Perishable.Settled.remove h _
    | resource chapterId resourceId => exact Perishable.Settled.remove h _
    | _ => exact h
  | resource row => cases f with
    | resource chapterId resourceId => exact Perishable.Settled.add h row
    | _ => exact h
  | setResource id data => cases f with
    | resource chapterId resourceId => exact Perishable.Settled.modify h id data.set _ fun _ => rfl
    | _ => exact h
  | deleteResource id => cases f with
    | resource chapterId resourceId => exact Perishable.Settled.remove h _
    | _ => exact h
  | evaluation row => cases f with
    | evaluation courseId evaluationId => exact map_find?_insert h
    | _ => exact h
  | assignment row => cases f with
    | assignment courseId assignmentId => exact map_find?_insert h
    | _ => exact h
  | publishAssignment id publishedAt => cases f with
    | assignment courseId assignmentId =>
        exact (map_find?_modify (f := Assignment.publish publishedAt) (fun _ => rfl) fun _ => rfl).trans h
    | _ => exact h
  | setSubmission id data => cases f with
    | submission assignmentId submissionId =>
        exact (map_find?_modify (f := data.set) (fun _ => rfl) fun _ => rfl).trans h
    | _ => exact h
  | _ => cases f <;> exact h

theorem World.Knows.change {s : World} (e : Change) {f : Fact} (h : s.Knows f) : (s.change e).Knows f := by
  cases e with
  | teacher row => cases f with
    | teacher userId teacherId => exact map_find?_insert h
    | _ => exact h
  | handedIn id assignmentId studentId contentUrl submittedAt =>
      simp only [World.change]
      split
      · cases f with
        | submission assignmentId submissionId => exact map_find?_insert h
        | _ => exact h
      · exact h
  | replaced id contentUrl submittedAt => cases f with
    | submission assignmentId submissionId =>
        exact (map_find?_modify
          (f := fun x : AssignmentSubmission => { x with contentUrl := some contentUrl, submittedAt })
          (fun _ => rfl) fun _ => rfl).trans h
    | _ => exact h
  | _ => cases f <;> exact h

/-! ## What a call learns, and what it needs -/

def shows : Ev → Fact → Prop
  | ⟨.teacherFindUnique userId, found⟩, f => ∃ x ∈ found, f = .teacher userId x.id
  | ⟨.courseFindFirst id teacherId, found⟩, f => ∃ _ ∈ found, f = .held teacherId id
  | ⟨.courseChapterFindFirst id courseId, found⟩, f => ∃ _ ∈ found, f = .chapter courseId id
  | ⟨.courseResourceFindFirst id chapterId, found⟩, f => ∃ _ ∈ found, f = .resource chapterId id
  | ⟨.courseEnrollmentFindMany courseId _, ids⟩, f => ∃ id ∈ ids, f = .enrolled courseId id
  | ⟨.courseEnrollmentFindUnique courseId studentId, found⟩, f =>
      found = true ∧ f = .enrolled courseId studentId
  | ⟨.evaluationFindUnique id, found⟩, f => ∃ x ∈ found, f = .evaluation x.courseId id
  | ⟨.assignmentFindUnique id, found⟩, f => ∃ x ∈ found, f = .assignment x.courseId id
  | ⟨.submissionFindUnique id, found⟩, f => ∃ x ∈ found, f = .submission x.assignmentId id
  | _, _ => False

/-- A teacher was found to have the course. -/
def Held (K : Fact → Prop) (courseId : Id) : Prop := ∃ teacherId, K (.held teacherId courseId)

/-- What a statement needs to be about a course that the teacher has, and a student of it. -/
def Licensed (K : Fact → Prop) : Stmt → Prop
  | .courseFindFirst _ teacherId => ∃ userId, K (.teacher userId teacherId)
  | .courseUpdate id _ => Held K id
  | .courseChapterCreate courseId .. => Held K courseId
  | .courseChapterUpdate id _ => ∃ courseId, K (.chapter courseId id) ∧ Held K courseId
  | .courseChapterPublish id _ => ∃ courseId, K (.chapter courseId id) ∧ Held K courseId
  | .courseChapterDelete id => ∃ courseId, K (.chapter courseId id) ∧ Held K courseId
  | .courseResourceCreate chapterId .. => ∃ courseId, K (.chapter courseId chapterId) ∧ Held K courseId
  | .courseResourceUpdate id _ =>
      ∃ chapterId courseId, K (.resource chapterId id) ∧ K (.chapter courseId chapterId) ∧ Held K courseId
  | .courseResourceDelete id =>
      ∃ chapterId courseId, K (.resource chapterId id) ∧ K (.chapter courseId chapterId) ∧ Held K courseId
  | .attendanceUpsert courseId studentId .. => K (.enrolled courseId studentId) ∧ Held K courseId
  | .evaluationCreate courseId _ => Held K courseId
  | .gradeUpsert evaluationId dto =>
      ∃ courseId, K (.evaluation courseId evaluationId) ∧ K (.enrolled courseId dto.studentId) ∧
        Held K courseId
  | .assignmentCreate courseId _ => Held K courseId
  | .assignmentPublish id _ => ∃ courseId, K (.assignment courseId id) ∧ Held K courseId
  | .submissionUpdate id _ =>
      ∃ assignmentId courseId, K (.submission assignmentId id) ∧ K (.assignment courseId assignmentId) ∧
        Held K courseId
  | _ => True

theorem Held.mono {K K' : Fact → Prop} {courseId : Id} (hK : ∀ f, K f → K' f) (h : Held K courseId) :
    Held K' courseId := by
  obtain ⟨teacherId, hheld⟩ := h
  exact ⟨teacherId, hK _ hheld⟩

theorem Licensed.mono {K K' : Fact → Prop} {q : Stmt} (hK : ∀ f, K f → K' f) (h : Licensed K q) :
    Licensed K' q := by
  have hpart : ∀ {fact : Id → Fact}, (∃ courseId, K (fact courseId) ∧ Held K courseId) →
      ∃ courseId, K' (fact courseId) ∧ Held K' courseId := by
    rintro fact ⟨courseId, hfact, hheld⟩
    exact ⟨courseId, hK _ hfact, hheld.mono hK⟩
  have hparts : ∀ {inner : Id → Fact} {outer : Id → Id → Fact},
      (∃ id courseId, K (inner id) ∧ K (outer courseId id) ∧ Held K courseId) →
      ∃ id courseId, K' (inner id) ∧ K' (outer courseId id) ∧ Held K' courseId := by
    rintro inner outer ⟨id, courseId, hinner, houter, hheld⟩
    exact ⟨id, courseId, hK _ hinner, hK _ houter, hheld.mono hK⟩
  cases q with
  | courseFindFirst id teacherId => exact h.imp fun _ => hK _
  | courseUpdate id data => exact Held.mono hK h
  | courseChapterCreate courseId position dto => exact Held.mono hK h
  | courseChapterUpdate id data => exact hpart h
  | courseChapterPublish id publishedAt => exact hpart h
  | courseChapterDelete id => exact hpart h
  | courseResourceCreate chapterId title url type => exact hpart h
  | courseResourceUpdate id data => exact hparts h
  | courseResourceDelete id => exact hparts h
  | attendanceUpsert courseId studentId date status markedBy => exact ⟨hK _ h.1, h.2.mono hK⟩
  | evaluationCreate courseId dto => exact Held.mono hK h
  | gradeUpsert evaluationId dto =>
      obtain ⟨courseId, hevaluation, henrolled, hheld⟩ := h
      exact ⟨courseId, hK _ hevaluation, hK _ henrolled, hheld.mono hK⟩
  | assignmentCreate courseId dto => exact Held.mono hK h
  | assignmentPublish id publishedAt => exact hpart h
  | submissionUpdate id data => exact hparts h
  | _ => trivial

theorem World.Knows.shown {q : Stmt} {a : Ans q} {c : Choice} {s : World} {f : Fact}
    (hexec : exec q c s = some a) (hshows : shows ⟨q, a⟩ f) :
    World.Knows (model.applyAll (writes q a) s) f := by
  cases q with
  | teacherFindUnique userId =>
      obtain rfl := Option.some.inj hexec
      obtain ⟨x, hx, rfl⟩ := hshows
      exact congrArg (Option.map _) hx
  | courseFindFirst id teacherId =>
      obtain ⟨x, -, rfl⟩ := hshows
      trivial
  | courseChapterFindFirst id courseId =>
      obtain rfl := Option.some.inj hexec
      obtain ⟨x, hx, rfl⟩ := hshows
      obtain ⟨hfind, hcourse⟩ := Option.filter_eq_some_iff.1 hx
      exact of_decide_eq_true hcourse ▸ Perishable.settled_of_find? hfind
  | courseResourceFindFirst id chapterId =>
      obtain rfl := Option.some.inj hexec
      obtain ⟨x, hx, rfl⟩ := hshows
      obtain ⟨hfind, hchapter⟩ := Option.filter_eq_some_iff.1 hx
      exact of_decide_eq_true hchapter ▸ Perishable.settled_of_find? hfind
  | courseEnrollmentFindMany courseId studentIds =>
      obtain ⟨x, -, rfl⟩ := hshows
      trivial
  | courseEnrollmentFindUnique courseId studentId =>
      obtain ⟨-, rfl⟩ := hshows
      trivial
  | evaluationFindUnique id =>
      obtain rfl := Option.some.inj hexec
      obtain ⟨x, hx, rfl⟩ := hshows
      exact congrArg (Option.map _) hx
  | assignmentFindUnique id =>
      obtain rfl := Option.some.inj hexec
      obtain ⟨x, hx, rfl⟩ := hshows
      exact congrArg (Option.map _) hx
  | submissionFindUnique id =>
      obtain rfl := Option.some.inj hexec
      obtain ⟨x, hx, rfl⟩ := hshows
      exact congrArg (Option.map _) hx
  | _ => cases hshows

/-- What calls learn of courses. -/
def learning : Learning model where
  Fact := Fact
  Knows := World.Knows
  shows := shows
  Licensed := Licensed
  mono := Licensed.mono
  lasts w _ _ h := World.Knows.apply w h
  env e _ _ h := World.Knows.change e h
  shown := World.Knows.shown

end GetPlatform.Classroom
