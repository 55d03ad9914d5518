import GetPlatform.Classroom.Guards

set_option autoImplicit false

/-! # Courses are changed by whoever teaches them

What a call has found it was answered in a state on the way. So a course only changes by calls of users
who taught it at some moment of the call, and only students who were in the course at some moment of the
call are marked. That moment may be over when the write is made: nothing holds the course in place
between the look and the write. -/

namespace GetPlatform.Classroom

open Pool Prog

/-! ## What was found on the way -/

section OnTheWay

variable {host : Host} {s₀ : World} {p : Platform} {i : Nat} {t : Thread interface Op Err Reply}

/-- The user has the profile of a teacher, who has the course and is active in its school. -/
def World.Teaches (s : World) (userId courseId : Id) : Prop :=
  ∃ teacher course, s.teachers.find? userId = some teacher ∧ s.holds courseId teacher.id = some course

theorem holds_of_run (hrun : Run (program host) anyStep (idle s₀) p) :
    Sound learning.guards p ∧ Holds (fun _ => True) (fun s (l : Log) => learning.Told s l)
      (fun _ _ => True) p :=
  (Learning.rules (L := learning) (I := fun _ => True) (fun _ _ _ => trivial) fun _ _ _ _ => trivial).holds
    (fun _ o _ => program_conforms host o) trivial hrun

/-- What a call has learned was answered outside a transaction, in a state on the way. -/
theorem shown_on_the_way (hrun : Run (program host) anyStep (idle s₀) p)
    (ht : p.threads[i]? = some t) {f : Fact} (h : learning.learned t.trace.done f) :
    ∃ (e : Ev) (q : Platform) (u : Thread interface Op Err Reply) (c : Choice), shows e f ∧
      Run (program host) anyStep (idle s₀) q ∧ Run (program host) anyStep q p ∧
      q.threads[i]? = some u ∧ u.trace.op = t.trace.op ∧ u.next? = some e.stmt ∧
      exec e.stmt c q.db = some e.ans := by
  obtain ⟨e, -, hshows, q, u, hq, hlater, hu, hnext, c, hexec⟩ := Learning.answered hrun ht h
  have hguard : learning.guards.stmt u.trace e.stmt := (holds_of_run hq).1.guard hu hnext
  have houtside : u.trace.tx = none := by
    by_contra htx
    exact hguard.2 htx e.ans f hshows
  rw [Trace.view_of_none houtside] at hexec
  obtain ⟨t', ht', hop, -⟩ := hlater.keeps hu
  obtain rfl := Option.some.inj (ht.symm.trans ht')
  exact ⟨e, q, u, c, hshows, hq, hlater, hu, hop.symm, hnext, hexec⟩

theorem shows_held {e : Ev} {teacherId courseId : Id} (h : shows e (.held teacherId courseId)) :
    ∃ row, e = ⟨.courseFindFirst courseId teacherId, some row⟩ := by
  obtain ⟨q, a⟩ := e
  cases q with
  | courseFindFirst id teacherId' =>
      obtain ⟨row, hrow, hfact⟩ := h
      obtain ⟨rfl, rfl⟩ := Fact.held.inj hfact
      exact ⟨row, congrArg (Event.mk _) hrow⟩
  | _ => simp [shows] at h

theorem shows_teacher {e : Ev} {userId teacherId : Id} (h : shows e (.teacher userId teacherId)) :
    e.stmt = .teacherFindUnique userId := by
  obtain ⟨q, a⟩ := e
  cases q with
  | teacherFindUnique id =>
      obtain ⟨row, -, hfact⟩ := h
      rw [(Fact.teacher.inj hfact).1]
  | _ => simp [shows] at h

theorem enrolled_of_shows {e : Ev} {courseId studentId : Id} {c : Choice} {s : World}
    (h : shows e (.enrolled courseId studentId)) (hexec : exec e.stmt c s = some e.ans) :
    s.courseEnrollments.contains (courseId, studentId) = true := by
  obtain ⟨q, a⟩ := e
  cases q with
  | courseEnrollmentFindMany id studentIds =>
      obtain ⟨x, hx, hfact⟩ := h
      obtain ⟨rfl, rfl⟩ := Fact.enrolled.inj hfact
      obtain rfl := Option.some.inj hexec
      obtain ⟨row, hrow, rfl⟩ := List.mem_map.1 hx
      obtain ⟨hmem, hcourse⟩ := List.mem_filter.1 hrow
      obtain ⟨rfl, -⟩ := of_decide_eq_true hcourse
      exact Table.contains_iff.2 (List.mem_map_of_mem hmem)
  | courseEnrollmentFindUnique id x =>
      obtain ⟨hfound, hfact⟩ := h
      obtain ⟨rfl, rfl⟩ := Fact.enrolled.inj hfact
      exact (Option.some.inj hexec).trans hfound
  | _ => simp [shows] at h

/-- Whoever was found to have a course is the user of the call, and had it in a state on the way. -/
theorem teaches_of_held (hrun : Run (program host) anyStep (idle s₀) p) (ht : p.threads[i]? = some t)
    {courseId : Id} (h : Held (learning.learned t.trace.done) courseId) :
    ∃ q : Platform, Run (program host) anyStep (idle s₀) q ∧ Run (program host) anyStep q p ∧
      i < q.threads.length ∧ q.db.Teaches t.trace.op.userId courseId := by
  obtain ⟨teacherId, hheld⟩ := h
  obtain ⟨e, q, u, c, hshows, hq, hlater, hu, hop, hnext, hexec⟩ := shown_on_the_way hrun ht hheld
  obtain ⟨row, rfl⟩ := shows_held hshows
  have hrow : q.db.holds courseId teacherId = some row := Option.some.inj hexec
  obtain ⟨hsound, hholds⟩ := holds_of_run hq
  obtain ⟨userId, hteacher⟩ := (hsound.guard hu hnext).1
  have hknows : (q.db.teachers.find? userId).map (·.id) = some teacherId :=
    (hholds.thread i u hu).knows _ hteacher
  obtain ⟨x, hx, rfl⟩ := Option.map_eq_some_iff.1 hknows
  obtain ⟨e', he', hshows'⟩ := hteacher
  have hown : Own u.trace.op.userId e'.stmt :=
    hq.sent (program_conforms host) (program_own host) hu (List.mem_append_left _ he')
  rw [shows_teacher hshows'] at hown
  obtain rfl : userId = t.trace.op.userId := hop ▸ hown
  exact ⟨q, hq, hlater, (List.getElem?_eq_some_iff.1 hu).1, x, row, hx, hrow⟩

end OnTheWay

/-! ## A grade that comes late -/

/-- One course with one student and one examination. -/
def oneClass : World where
  teachers := .ofList [⟨10, 1⟩]
  teacherSchools := .ofList [⟨10, 7, true⟩]
  students := .ofList [⟨20, 2, "Lova", "Rabe"⟩]
  courses := .ofList [⟨5, 7, 10, none, true, true⟩]
  courseEnrollments := .ofList [⟨5, 20⟩]
  chapters := .empty
  resources := .empty
  evaluations := .ofList [⟨30, 5, "Partiel", "EXAM", none, 1⟩]
  grades := .empty
  assignments := .empty
  submissions := .empty
  attendances := .empty

def plainHost : Host := ⟨fun _ => none, fun _ _ => true⟩

/-- The teacher and the student are gone when the grade is about to be written. -/
def gradedLate : List (Step model Op) :=
  [.spawn ⟨1, .saveGrade 30 ⟨20, 14, none⟩⟩, .exec 0 {}, .exec 0 {}, .exec 0 {}, .exec 0 {},
    .env (.courseTeacher 5 11), .env (.enrolments .empty)]

theorem gradedLate_plays : ∃ p p' : Platform,
    Run (program plainHost) anyStep (idle oneClass) p ∧
      p.step (program plainHost) (.exec 0 ⟨0, 40, ""⟩) = some p' ∧ p.db.holds 5 10 = none ∧
      p.db.courseEnrollments.contains (5, 20) = false ∧ p.db.grades.find? (30, 20) = none ∧
      (p'.db.contents 5).grade (30, 20) = some ⟨40, 30, 20, 14, none⟩ := by
  have hplay : ((idle oneClass : Platform).play (program plainHost) anyStep gradedLate).any
      (fun p => p.db.holds 5 10 = none ∧ p.db.courseEnrollments.contains (5, 20) = false ∧
        p.db.grades.find? (30, 20) = none ∧
        (p.step (program plainHost) (.exec 0 ⟨0, 40, ""⟩)).any fun p' =>
          (p'.db.contents 5).grade (30, 20) = some ⟨40, 30, 20, 14, none⟩) = true := by
    decide +kernel
  obtain ⟨p, hrun, hp⟩ := exists_run_of_play hplay
  obtain ⟨hholds, hcontains, hold, hstep⟩ := of_decide_eq_true hp
  obtain ⟨p', hp', hnew⟩ := (Option.any_eq_true ..).1 hstep
  exact ⟨p, p', hrun, hp', hholds, hcontains, hold, of_decide_eq_true hnew⟩

/-! ## Who changes a course -/

/-- **A course only changes by calls of users who taught it at some moment of the call**: if a step
    changes anything in the course, it is a command of a call whose user had the course, and was active
    in its school, in a state on the way that the call has seen. -/
theorem contents_guarded (host : Host) {s₀ : World} {p p' : Platform} {a : Step model Op}
    (hrun : Run (program host) anyStep (idle s₀) p) (hstep : p.step (program host) a = some p')
    {courseId : Id} (hchange : p'.db.contents courseId ≠ p.db.contents courseId) :
    ∃ i c t, ∃ q : Platform, a = .exec i c ∧ p.threads[i]? = some t ∧
      Run (program host) anyStep (idle s₀) q ∧ Run (program host) anyStep q p ∧
      i < q.threads.length ∧ q.db.Teaches t.trace.op.userId courseId := by
  have hneeds : ∀ {K : Fact → Prop} {q : Stmt} {a : Ans q} {s : World}, model.Possible q a →
      (∀ f, K f → s.Knows f) → Licensed K q → True →
      (model.applyAll (writes q a) s).contents courseId ≠ s.contents courseId → Held K courseId := by
    intro K q a s hpossible hknows hlicensed _ hne
    obtain ⟨w, hw, hof⟩ := of_contents_ne hne
    exact held_of_licensed hpossible hknows hlicensed hw hof
  rcases Learning.changed (M := model) (L := learning) (I := fun _ => True)
    (fun s : World => s.contents courseId) (fun K => Held K courseId) (fun _ _ _ => trivial) hneeds
    (fun _ _ _ _ => trivial) (program_conforms host) trivial hrun hstep hchange with
    ⟨e, rfl⟩ | ⟨i, c, t, rfl, ht, hheld⟩
  · obtain rfl := Option.some.inj hstep
    exact absurd (contents_change p.db e courseId) hchange
  · obtain ⟨q, hq, hlater, hi, hteaches⟩ := teaches_of_held hrun ht hheld
    exact ⟨i, c, t, q, rfl, ht, hq, hlater, hi, hteaches⟩

theorem contents_guarded_gradedLate : ∃ p p' : Platform,
    p.step (program plainHost) (.exec 0 ⟨0, 40, ""⟩) = some p' ∧ p.db.holds 5 10 = none ∧
      ∃ i c t, ∃ q : Platform, (.exec 0 ⟨0, 40, ""⟩ : Step model Op) = .exec i c ∧
        p.threads[i]? = some t ∧ Run (program plainHost) anyStep (idle oneClass) q ∧
        Run (program plainHost) anyStep q p ∧ i < q.threads.length ∧
        q.db.Teaches t.trace.op.userId 5 := by
  obtain ⟨p, p', hrun, hstep, hholds, -, hold, hnew⟩ := gradedLate_plays
  refine ⟨p, p', hstep, hholds, contents_guarded plainHost hrun hstep fun hsame => ?_⟩
  rw [hsame] at hnew
  cases hold.symm.trans (Option.filter_eq_some_iff.1 hnew).1

/-! ## Whom a teacher marks -/

/-- The write of a grade, or of a line of an attendance sheet, is about a student who was found in the
    course. -/
theorem enrolled_of_grade {K : Fact → Prop} {q : Stmt} {a : Ans q} {s : World} {evaluationId studentId : Id}
    (hpossible : model.Possible q a) (h : Licensed K q)
    (hne : (model.applyAll (writes q a) s).grades.find? (evaluationId, studentId) ≠
      s.grades.find? (evaluationId, studentId)) :
    ∃ courseId, K (.evaluation courseId evaluationId) ∧ K (.enrolled courseId studentId) := by
  cases q with
  | gradeUpsert id dto =>
      obtain ⟨hid, hstudent⟩ := of_gradeUpsert hpossible
      have hput : (s.grades.put a).find? (evaluationId, studentId) ≠
          s.grades.find? (evaluationId, studentId) := hne
      rw [Table.find?_put] at hput
      split at hput
      · next hkey =>
          obtain ⟨rfl, rfl⟩ := Prod.mk.inj hkey
          obtain ⟨courseId, hevaluation, henrolled, -⟩ := h
          exact ⟨courseId, hid ▸ hevaluation, hstudent ▸ henrolled⟩
      · exact absurd rfl hput
  | _ => exact absurd rfl hne

theorem enrolled_of_attendance {K : Fact → Prop} {q : Stmt} {a : Ans q} {s : World}
    {courseId studentId : Id} {day : Int} (hpossible : model.Possible q a) (h : Licensed K q)
    (hne : (model.applyAll (writes q a) s).attendances.find? (courseId, studentId, day) ≠
      s.attendances.find? (courseId, studentId, day)) : K (.enrolled courseId studentId) := by
  cases q with
  | attendanceUpsert id x date status markedBy =>
      obtain ⟨hid, hstudent⟩ := of_attendanceUpsert hpossible
      have hput : (s.attendances.put a).find? (courseId, studentId, day) ≠
          s.attendances.find? (courseId, studentId, day) := hne
      rw [Table.find?_put] at hput
      split at hput
      · next hkey =>
          obtain ⟨rfl, hrest⟩ := Prod.mk.inj hkey
          obtain ⟨rfl, rfl⟩ := Prod.mk.inj hrest
          exact hid ▸ hstudent ▸ h.1
      · exact absurd rfl hput
  | _ => exact absurd rfl hne

/-- **Only students of the course are marked**: a step that changes a grade, or a line of an attendance
    sheet, is a command of a call that has found the student enrolled in the course of the evaluation, or
    of the sheet, in a state on the way. -/
theorem marks_guarded (host : Host) {s₀ : World} {p p' : Platform} {a : Step model Op}
    (hrun : Run (program host) anyStep (idle s₀) p) (hstep : p.step (program host) a = some p') :
    (∀ evaluationId studentId, p'.db.grades.find? (evaluationId, studentId) ≠
        p.db.grades.find? (evaluationId, studentId) →
      ∃ i c courseId, ∃ q : Platform, a = .exec i c ∧
        (p.db.evaluations.find? evaluationId).map (·.courseId) = some courseId ∧
        Run (program host) anyStep (idle s₀) q ∧ Run (program host) anyStep q p ∧
        i < q.threads.length ∧ q.db.courseEnrollments.contains (courseId, studentId) = true) ∧
    ∀ courseId studentId day, p'.db.attendances.find? (courseId, studentId, day) ≠
        p.db.attendances.find? (courseId, studentId, day) →
      ∃ i c, ∃ q : Platform, a = .exec i c ∧
        Run (program host) anyStep (idle s₀) q ∧ Run (program host) anyStep q p ∧
        i < q.threads.length ∧ q.db.courseEnrollments.contains (courseId, studentId) = true := by
  have hfound : ∀ {i : Nat} {t : Thread interface Op Err Reply} {courseId studentId : Id},
      p.threads[i]? = some t → learning.learned t.trace.done (.enrolled courseId studentId) →
      ∃ q : Platform, Run (program host) anyStep (idle s₀) q ∧ Run (program host) anyStep q p ∧
        i < q.threads.length ∧ q.db.courseEnrollments.contains (courseId, studentId) = true := by
    intro i t courseId studentId ht henrolled
    obtain ⟨e, q, u, c, hshows, hq, hlater, hu, -, -, hexec⟩ := shown_on_the_way hrun ht henrolled
    exact ⟨q, hq, hlater, (List.getElem?_eq_some_iff.1 hu).1, enrolled_of_shows hshows hexec⟩
  refine ⟨fun evaluationId studentId hchange => ?_, fun courseId studentId day hchange => ?_⟩
  · rcases Learning.changed (M := model) (L := learning) (I := fun _ => True)
      (fun s : World => s.grades.find? (evaluationId, studentId))
      (fun K => ∃ courseId, K (.evaluation courseId evaluationId) ∧ K (.enrolled courseId studentId))
      (fun _ _ _ => trivial) (fun hpossible _ hlicensed _ => enrolled_of_grade hpossible hlicensed)
      (fun _ _ _ _ => trivial) (program_conforms host) trivial hrun hstep hchange with
      ⟨e, rfl⟩ | ⟨i, c, t, rfl, ht, courseId, hevaluation, henrolled⟩
    · obtain rfl := Option.some.inj hstep
      exact absurd (congrFun (congrArg Table.find? (grades_change p.db e)) _) hchange
    · obtain ⟨q, hq, hlater, hi, hcontains⟩ := hfound ht henrolled
      have hcourse := ((holds_of_run hrun).2.thread i t ht).knows _ hevaluation
      exact ⟨i, c, courseId, q, rfl, hcourse, hq, hlater, hi, hcontains⟩
  · rcases Learning.changed (M := model) (L := learning) (I := fun _ => True)
      (fun s : World => s.attendances.find? (courseId, studentId, day))
      (fun K => K (.enrolled courseId studentId)) (fun _ _ _ => trivial)
      (fun hpossible _ hlicensed _ => enrolled_of_attendance hpossible hlicensed)
      (fun _ _ _ _ => trivial) (program_conforms host) trivial hrun hstep hchange with
      ⟨e, rfl⟩ | ⟨i, c, t, rfl, ht, henrolled⟩
    · obtain rfl := Option.some.inj hstep
      exact absurd (congrFun (congrArg Table.find? (attendances_change p.db e)) _) hchange
    · obtain ⟨q, hq, hlater, hi, hcontains⟩ := hfound ht henrolled
      exact ⟨i, c, q, rfl, hq, hlater, hi, hcontains⟩

theorem marks_guarded_gradedLate : ∃ p p' : Platform,
    p.step (program plainHost) (.exec 0 ⟨0, 40, ""⟩) = some p' ∧
      p.db.courseEnrollments.contains (5, 20) = false ∧
      ∃ i c courseId, ∃ q : Platform, (.exec 0 ⟨0, 40, ""⟩ : Step model Op) = .exec i c ∧
        (p.db.evaluations.find? 30).map (·.courseId) = some courseId ∧
        Run (program plainHost) anyStep (idle oneClass) q ∧ Run (program plainHost) anyStep q p ∧
        i < q.threads.length ∧ q.db.courseEnrollments.contains (courseId, 20) = true := by
  obtain ⟨p, p', hrun, hstep, -, hcontains, hold, hnew⟩ := gradedLate_plays
  refine ⟨p, p', hstep, hcontains, (marks_guarded plainHost hrun hstep).1 30 20 fun hsame => ?_⟩
  cases (hold.symm.trans hsame.symm).trans (Option.filter_eq_some_iff.1 hnew).1

end GetPlatform.Classroom
