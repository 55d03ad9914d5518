import GetPlatform.Classroom.Contents

set_option autoImplicit false

/-! # Calls look before they write

Every call that writes to a course has looked up whose course it is, by the profile of its own user, and
that what it writes to belongs to that course; and whoever marks a student has found the student in the
course. -/

namespace GetPlatform.Classroom

open Pool Prog
open Teaching (AttendanceRecord)

/-! ## The programs -/

section Programs

variable {K : Fact → Prop} {β : Type}

abbrev Cautious {α : Type} (K : Fact → Prop) (p : Call α) : Prop := Careful learning K p

/-- What was found before another answer. -/
theorem Held.later {courseId : Id} {e : Ev} (h : Held K courseId) :
    Held (fun f => K f ∨ learning.shows e f) courseId :=
  h.mono fun _ => .inl

theorem teacher_cautious {userId : Id} {f : Teacher → Call β}
    (hf : ∀ (row : Teacher) (K' : Fact → Prop), (∀ x, K x → K' x) → K' (.teacher userId row.id) →
      Cautious K' (f row)) : Cautious K ((teacher userId).handle f .fail) := by
  simp only [teacher, bind_eq, handle_handle, handle_fail]
  refine Careful.query trivial fun found _ => ?_
  cases found with
  | none => exact rfl
  | some row => exact hf row _ (fun _ => .inl) (.inr ⟨row, rfl, rfl⟩)

theorem course_cautious {userId courseId : Id} {f : Course → Call β}
    (hf : ∀ (row : Course) (K' : Fact → Prop), (∀ x, K x → K' x) → Held K' courseId →
      Cautious K' (f row)) : Cautious K ((course userId courseId).handle f .fail) := by
  simp only [course, bind_eq, handle_handle, handle_fail]
  refine teacher_cautious fun x K' hK hteacher => ?_
  refine Careful.query ⟨userId, hteacher⟩ fun found _ => ?_
  cases found with
  | none => exact rfl
  | some row =>
      exact hf row _ (fun _ h => .inl (hK _ h)) ⟨x.id, .inr ⟨row, rfl, rfl⟩⟩

theorem chapter_cautious {courseId chapterId : Id} {f : CourseChapter → Call β}
    (hf : ∀ (row : CourseChapter) (K' : Fact → Prop), (∀ x, K x → K' x) →
      K' (.chapter courseId chapterId) → Cautious K' (f row)) :
    Cautious K ((chapter courseId chapterId).handle f .fail) := by
  simp only [chapter, bind_eq, handle_handle, handle_fail]
  refine Careful.query trivial fun found _ => ?_
  cases found with
  | none => exact rfl
  | some row => exact hf row _ (fun _ => .inl) (.inr ⟨row, rfl, rfl⟩)

theorem resource_cautious {chapterId resourceId : Id} {f : CourseResource → Call β}
    (hf : ∀ (row : CourseResource) (K' : Fact → Prop), (∀ x, K x → K' x) →
      K' (.resource chapterId resourceId) → Cautious K' (f row)) :
    Cautious K ((resource chapterId resourceId).handle f .fail) := by
  simp only [resource, bind_eq, handle_handle, handle_fail]
  refine Careful.query trivial fun found _ => ?_
  cases found with
  | none => exact rfl
  | some row => exact hf row _ (fun _ => .inl) (.inr ⟨row, rfl, rfl⟩)

theorem evaluation_cautious {userId evaluationId : Id} {f : Evaluation → Call β}
    (hf : ∀ (row : Evaluation) (K' : Fact → Prop), (∀ x, K x → K' x) →
      K' (.evaluation row.courseId evaluationId) → Held K' row.courseId → Cautious K' (f row)) :
    Cautious K ((evaluation userId evaluationId).handle f .fail) := by
  simp only [evaluation, bind_eq, handle_handle, handle_fail]
  refine Careful.query trivial fun found _ => ?_
  cases found with
  | none => exact rfl
  | some row =>
      simp only [handle_handle, handle_fail]
      refine course_cautious fun _ K' hK hheld => ?_
      exact hf row K' (fun _ h => hK _ (.inl h)) (hK _ (.inr ⟨row, rfl, rfl⟩)) hheld

theorem assignment_cautious {userId assignmentId : Id} {f : Assignment → Call β}
    (hf : ∀ (row : Assignment) (K' : Fact → Prop), (∀ x, K x → K' x) →
      K' (.assignment row.courseId assignmentId) → Held K' row.courseId → Cautious K' (f row)) :
    Cautious K ((assignment userId assignmentId).handle f .fail) := by
  simp only [assignment, bind_eq, handle_handle, handle_fail]
  refine Careful.query trivial fun found _ => ?_
  cases found with
  | none => exact rfl
  | some row =>
      simp only [handle_handle, handle_fail]
      refine course_cautious fun _ K' hK hheld => ?_
      exact hf row K' (fun _ h => hK _ (.inl h)) (hK _ (.inr ⟨row, rfl, rfl⟩)) hheld

theorem submission_cautious {userId submissionId : Id} {f : AssignmentSubmission → Call β}
    (hf : ∀ (row : AssignmentSubmission) (courseId : Id) (K' : Fact → Prop), (∀ x, K x → K' x) →
      K' (.submission row.assignmentId submissionId) → K' (.assignment courseId row.assignmentId) →
      Held K' courseId → Cautious K' (f row)) :
    Cautious K ((submission userId submissionId).handle f .fail) := by
  simp only [submission, bind_eq, handle_handle, handle_fail]
  refine Careful.query trivial fun found _ => ?_
  cases found with
  | none => exact rfl
  | some row =>
      simp only [handle_handle, handle_fail]
      refine assignment_cautious fun x K' hK hassignment hheld => ?_
      exact hf row x.courseId K' (fun _ h => hK _ (.inl h)) (hK _ (.inr ⟨row, rfl, rfl⟩)) hassignment hheld

/-! ### Chapters and resources -/

theorem updateCourseSettings_cautious (userId courseId : Id) (dto : UpdateCourseSettingsDto) :
    Cautious K (updateCourseSettings userId courseId dto) :=
  course_cautious fun _ _ _ hheld => Careful.last hheld

theorem createChapter_cautious (userId courseId : Id) (dto : ChapterDto) :
    Cautious K (createChapter userId courseId dto) :=
  course_cautious fun _ _ _ hheld => Careful.query trivial fun _ _ =>
    Careful.last hheld.later

/-- What is done to a chapter of the course once both were found. -/
theorem onChapter_cautious {userId courseId chapterId : Id} {p : Call β}
    (hp : ∀ K' : Fact → Prop, K' (.chapter courseId chapterId) → Held K' courseId → Cautious K' p) :
    Cautious K (do
      let _ ← course userId courseId
      let _ ← chapter courseId chapterId
      p) :=
  course_cautious fun _ _ _ hheld => chapter_cautious fun _ K' hK hchapter =>
    hp K' hchapter (hheld.mono hK)

theorem updateChapter_cautious (userId courseId chapterId : Id) (dto : UpdateChapterDto) :
    Cautious K (updateChapter userId courseId chapterId dto) :=
  onChapter_cautious fun _ hchapter hheld => Careful.last ⟨courseId, hchapter, hheld⟩

theorem deleteChapter_cautious (userId courseId chapterId : Id) :
    Cautious K (deleteChapter userId courseId chapterId) :=
  onChapter_cautious fun _ hchapter hheld => Careful.last ⟨courseId, hchapter, hheld⟩

theorem publishChapter_cautious (userId courseId chapterId : Id) :
    Cautious K (publishChapter userId courseId chapterId) :=
  onChapter_cautious fun _ hchapter hheld => Careful.query trivial fun _ _ =>
    Careful.last ⟨courseId, .inl hchapter, hheld.later⟩

theorem addResource_cautious (userId courseId chapterId : Id) (dto : ResourceDto) (file : Option File) :
    Cautious K (addResource userId courseId chapterId dto file) := by
  refine onChapter_cautious fun K' hchapter hheld => ?_
  cases file with
  | none =>
      simp only [bind_eq, pure_eq, handle_ret]
      cases dto.url.filter (· ≠ "") with
      | none => exact rfl
      | some url => exact Careful.last ⟨courseId, hchapter, hheld⟩
  | some file =>
      simp only [bind_eq, map_eq, handle_handle, handle_fail, handle_ret]
      refine Careful.query trivial fun url _ => ?_
      cases (some url).filter (· ≠ "") with
      | none => exact rfl
      | some url => exact Careful.last ⟨courseId, .inl hchapter, hheld.later⟩

/-- What is done to a resource once the chapter and the resource were found. -/
theorem onResource_cautious {userId courseId chapterId resourceId : Id} {p : Call β}
    (hp : ∀ K' : Fact → Prop, (∃ chapterId courseId, K' (.resource chapterId resourceId) ∧
      K' (.chapter courseId chapterId) ∧ Held K' courseId) → Cautious K' p) :
    Cautious K (do
      let _ ← course userId courseId
      let _ ← chapter courseId chapterId
      let _ ← resource chapterId resourceId
      p) :=
  onChapter_cautious fun _ hchapter hheld => resource_cautious fun _ K' hK hresource =>
    hp K' ⟨chapterId, courseId, hresource, hK _ hchapter, hheld.mono hK⟩

theorem updateResource_cautious (userId courseId chapterId resourceId : Id) (dto : UpdateResourceDto) :
    Cautious K (updateResource userId courseId chapterId resourceId dto) :=
  onResource_cautious fun _ h => Careful.last h

theorem deleteResource_cautious (userId courseId chapterId resourceId : Id) :
    Cautious K (deleteResource userId courseId chapterId resourceId) :=
  onResource_cautious fun _ h => Careful.last h

/-! ### Attendance -/

variable (host : Host)

theorem getAttendance_cautious (userId courseId : Id) (date : String) :
    Cautious K (getAttendance host userId courseId date) :=
  course_cautious fun _ _ _ _ => Careful.query trivial fun _ _ => Careful.query trivial fun _ _ => rfl

theorem upsertAll_inside {courseId markedBy : Id} {day : Option Int} {records : List AttendanceRecord}
    (hheld : Held K courseId) (henrolled : ∀ record ∈ records, K (.enrolled courseId record.studentId)) :
    (upsertAll courseId day markedBy records).Heeds learning (fun _ tx _ => tx = true)
      (fun _ _ _ => True) K true := by
  induction records generalizing K with
  | nil => exact rfl
  | cons record records ih =>
      refine ⟨⟨⟨henrolled record (.head _), hheld⟩, fun _ _ _ h => h⟩, fun _ => trivial, fun _ _ => ?_⟩
      exact ih hheld.later fun r hr => .inl (henrolled r (.tail _ hr))

theorem markAttendance_cautious (userId courseId : Id) (date : String) (records : List AttendanceRecord) :
    Cautious K (markAttendance host userId courseId date records) := by
  refine teacher_cautious fun x _ _ _ => course_cautious fun _ _ _ hheld => ?_
  refine Careful.query trivial fun ids _ => ?_
  cases hunknown : records.find? fun record => record.studentId ∉ ids with
  | some unknown => exact rfl
  | none =>
      refine Careful.handle ((heeds_transaction ..).2 ⟨rfl, ?_⟩) fun _ _ =>
        getAttendance_cautious host userId courseId date
      refine heeds_mono (fun _ _ _ htx => ⟨htx, fun _ => rfl, rfl⟩) (fun _ _ _ _ => rfl)
        (upsertAll_inside hheld.later fun record hrecord => ?_)
      have hknown : record.studentId ∈ ids := by
        simpa using List.find?_eq_none.1 hunknown record hrecord
      exact .inr ⟨record.studentId, hknown, rfl⟩

/-! ### Evaluations and assignments -/

theorem createEvaluation_cautious (userId courseId : Id) (dto : EvaluationDto) :
    Cautious K (createEvaluation userId courseId dto) :=
  course_cautious fun _ _ _ hheld => Careful.last hheld

theorem saveGrade_cautious (userId evaluationId : Id) (dto : GradeDto) :
    Cautious K (saveGrade userId evaluationId dto) := by
  refine evaluation_cautious fun row _ _ hevaluation hheld => ?_
  refine Careful.query trivial fun found _ => ?_
  cases found with
  | false => exact rfl
  | true =>
      exact Careful.last ⟨row.courseId, .inl hevaluation, .inr ⟨rfl, rfl⟩, hheld.later⟩

theorem createAssignment_cautious (userId courseId : Id) (dto : AssignmentDto) :
    Cautious K (createAssignment userId courseId dto) :=
  course_cautious fun _ _ _ hheld => Careful.last hheld

theorem publishAssignment_cautious (userId assignmentId : Id) :
    Cautious K (publishAssignment userId assignmentId) :=
  assignment_cautious fun row _ _ hassignment hheld => Careful.query trivial fun _ _ =>
    Careful.last ⟨row.courseId, .inl hassignment, hheld.later⟩

theorem gradeSubmission_cautious (userId submissionId : Id) (dto : SubmissionGradeDto) :
    Cautious K (gradeSubmission userId submissionId dto) :=
  submission_cautious fun row courseId _ _ hsubmission hassignment hheld =>
    Careful.last ⟨row.assignmentId, courseId, hsubmission, hassignment, hheld⟩

end Programs

/-! ### Whose profile is looked up -/

section Own

variable {userId : Id} {α β : Type}

/-- A call looks up the profile of its own user. -/
def Own (userId : Id) : Stmt → Prop
  | .teacherFindUnique id => id = userId
  | _ => True

theorem perform_own {q : Stmt} (h : Own userId q) : (perform q).Sends (Own userId) := (sends_query ..).2 h

theorem bind_own {p : Call α} {f : α → Call β} (hp : p.Sends (Own userId))
    (hf : ∀ a, (f a).Sends (Own userId)) : (p.handle f .fail).Sends (Own userId) :=
  hp.handle hf fun _ => trivial

theorem course_own (courseId : Id) : (course userId courseId).Sends (Own userId) := by
  refine bind_own (bind_own (perform_own rfl) fun found => ?_) fun _ =>
    bind_own (perform_own trivial) fun found => ?_
  · cases found <;> trivial
  · cases found <;> trivial

theorem chapter_own (courseId chapterId : Id) : (chapter courseId chapterId).Sends (Own userId) := by
  refine bind_own (perform_own trivial) fun found => ?_
  cases found <;> trivial

theorem resource_own (chapterId resourceId : Id) : (resource chapterId resourceId).Sends (Own userId) := by
  refine bind_own (perform_own trivial) fun found => ?_
  cases found <;> trivial

theorem evaluation_own (evaluationId : Id) : (evaluation userId evaluationId).Sends (Own userId) := by
  refine bind_own (perform_own trivial) fun found => ?_
  cases found with
  | none => trivial
  | some row => exact bind_own (course_own row.courseId) fun _ => trivial

theorem assignment_own (assignmentId : Id) : (assignment userId assignmentId).Sends (Own userId) := by
  refine bind_own (perform_own trivial) fun found => ?_
  cases found with
  | none => trivial
  | some row => exact bind_own (course_own row.courseId) fun _ => trivial

theorem submission_own (submissionId : Id) : (submission userId submissionId).Sends (Own userId) := by
  refine bind_own (perform_own trivial) fun found => ?_
  cases found with
  | none => trivial
  | some row => exact bind_own (assignment_own row.assignmentId) fun _ => trivial

theorem addResource_own (courseId chapterId : Id) (dto : ResourceDto) (file : Option File) :
    (addResource userId courseId chapterId dto file).Sends (Own userId) := by
  refine bind_own (course_own courseId) fun _ => bind_own (chapter_own courseId chapterId) fun _ => ?_
  cases file with
  | none =>
      simp only [bind_eq, pure_eq, handle_ret]
      cases dto.url.filter (· ≠ "") with
      | none => trivial
      | some url => exact perform_own trivial
  | some file =>
      refine bind_own (bind_own (perform_own trivial) fun _ => trivial) fun url => ?_
      dsimp only
      cases url.filter (· ≠ "") with
      | none => trivial
      | some url => exact perform_own trivial

theorem getAttendance_own (host : Host) (courseId : Id) (date : String) :
    (getAttendance host userId courseId date).Sends (Own userId) :=
  bind_own (course_own courseId) fun _ => bind_own (perform_own trivial) fun _ =>
    bind_own (perform_own trivial) fun _ => trivial

theorem upsertAll_own (courseId markedBy : Id) (day : Option Int) (records : List AttendanceRecord) :
    (upsertAll courseId day markedBy records).Sends (Own userId) := by
  induction records with
  | nil => trivial
  | cons record records ih => exact bind_own (perform_own trivial) fun _ => ih

theorem markAttendance_own (host : Host) (courseId : Id) (date : String) (records : List AttendanceRecord) :
    (markAttendance host userId courseId date records).Sends (Own userId) := by
  refine bind_own (bind_own (perform_own rfl) fun found => ?_) fun x =>
    bind_own (course_own courseId) fun _ => bind_own (perform_own trivial) fun ids => ?_
  · cases found <;> trivial
  · split
    · trivial
    · exact bind_own (upsertAll_own courseId x.id _ records).transaction fun _ =>
        getAttendance_own host courseId date

theorem saveGrade_own (evaluationId : Id) (dto : GradeDto) :
    (saveGrade userId evaluationId dto).Sends (Own userId) := by
  refine bind_own (evaluation_own evaluationId) fun row => bind_own (perform_own trivial) fun found => ?_
  cases found with
  | false => trivial
  | true => exact perform_own trivial

end Own

theorem program_own (host : Host) (o : Op) : (program host o).Sends (Own o.userId) := by
  cases o with
  | mk userId request =>
      cases request with
      | updateCourseSettings courseId dto =>
          exact bind_own (bind_own (course_own courseId) fun _ => perform_own trivial) fun _ => trivial
      | createChapter courseId dto =>
          exact bind_own (bind_own (course_own courseId) fun _ => bind_own (perform_own trivial) fun _ =>
            perform_own trivial) fun _ => trivial
      | updateChapter courseId id dto =>
          exact bind_own (bind_own (course_own courseId) fun _ => bind_own (chapter_own courseId id) fun _ =>
            perform_own trivial) fun _ => trivial
      | deleteChapter courseId id =>
          exact bind_own (bind_own (course_own courseId) fun _ => bind_own (chapter_own courseId id) fun _ =>
            perform_own trivial) fun _ => trivial
      | publishChapter courseId id =>
          exact bind_own (bind_own (course_own courseId) fun _ => bind_own (chapter_own courseId id) fun _ =>
            bind_own (perform_own trivial) fun _ => perform_own trivial) fun _ => trivial
      | addResource courseId id dto file =>
          exact bind_own (addResource_own courseId id dto file) fun _ => trivial
      | updateResource courseId chapterId id dto =>
          exact bind_own (bind_own (course_own courseId) fun _ => bind_own (chapter_own courseId chapterId)
            fun _ => bind_own (resource_own chapterId id) fun _ => perform_own trivial) fun _ => trivial
      | deleteResource courseId chapterId id =>
          exact bind_own (bind_own (course_own courseId) fun _ => bind_own (chapter_own courseId chapterId)
            fun _ => bind_own (resource_own chapterId id) fun _ => perform_own trivial) fun _ => trivial
      | getAttendance courseId date => exact bind_own (getAttendance_own host courseId date) fun _ => trivial
      | markAttendance courseId date records =>
          exact bind_own (markAttendance_own host courseId date records) fun _ => trivial
      | createEvaluation courseId dto =>
          exact bind_own (bind_own (course_own courseId) fun _ => perform_own trivial) fun _ => trivial
      | saveGrade evaluationId dto => exact bind_own (saveGrade_own evaluationId dto) fun _ => trivial
      | createAssignment courseId dto =>
          exact bind_own (bind_own (course_own courseId) fun _ => perform_own trivial) fun _ => trivial
      | publishAssignment assignmentId =>
          exact bind_own (bind_own (assignment_own assignmentId) fun _ => bind_own (perform_own trivial)
            fun _ => perform_own trivial) fun _ => trivial
      | gradeSubmission submissionId dto =>
          exact bind_own (bind_own (submission_own submissionId) fun _ => perform_own trivial) fun _ => trivial

theorem program_conforms (host : Host) (o : Op) :
    (program host o).Conforms model learning.guards (fun _ _ => True) (fun _ _ => True) (.start o) := by
  have hreply : ∀ {α : Type} {p : Call α} {reply : α → Reply},
      Cautious (fun _ => False) p → Cautious (fun _ => False) (reply <$> p) := by
    intro α p reply hp
    exact hp.handle fun _ _ => rfl
  suffices hcautious : Cautious (fun _ => False) (program host o) from
    hcautious.conforms fun _ h => h.elim
  cases o with
  | mk userId request =>
      cases request with
      | updateCourseSettings courseId dto => exact hreply (updateCourseSettings_cautious userId courseId dto)
      | createChapter courseId dto => exact hreply (createChapter_cautious userId courseId dto)
      | updateChapter courseId id dto => exact hreply (updateChapter_cautious userId courseId id dto)
      | deleteChapter courseId id => exact hreply (deleteChapter_cautious userId courseId id)
      | publishChapter courseId id => exact hreply (publishChapter_cautious userId courseId id)
      | addResource courseId id dto file => exact hreply (addResource_cautious userId courseId id dto file)
      | updateResource courseId chapterId id dto =>
          exact hreply (updateResource_cautious userId courseId chapterId id dto)
      | deleteResource courseId chapterId id =>
          exact hreply (deleteResource_cautious userId courseId chapterId id)
      | getAttendance courseId date => exact hreply (getAttendance_cautious host userId courseId date)
      | markAttendance courseId date records =>
          exact hreply (markAttendance_cautious host userId courseId date records)
      | createEvaluation courseId dto => exact hreply (createEvaluation_cautious userId courseId dto)
      | saveGrade evaluationId dto => exact hreply (saveGrade_cautious userId evaluationId dto)
      | createAssignment courseId dto => exact hreply (createAssignment_cautious userId courseId dto)
      | publishAssignment assignmentId => exact hreply (publishAssignment_cautious userId assignmentId)
      | gradeSubmission submissionId dto => exact hreply (gradeSubmission_cautious userId submissionId dto)

end GetPlatform.Classroom
