import GetPlatform.Coursework.Submissions

set_option autoImplicit false

/-! # A grade locks the submission

`submitAssignment` refuses to replace a submission that has been graded. It looks for a grade first,
then stores the file, and then writes; a grade given in the meantime is not noticed. As long as none
is, a graded submission keeps its file and its date. -/

namespace GetPlatform.Coursework

open Pool Prog

abbrev Log := Trace interface Op
abbrev Ev := Event interface
abbrev Platform := Pool model Op Err AssignmentSubmission

/-- The submissions that are graded in `s` are the same in `s'`, and what is stored stays stored. -/
structure Frozen (s s' : World) : Prop where
  submission : ∀ k x, s.submissions.find? k = some x → x.grade.isSome = true →
    ∃ x', s'.submissions.find? k = some x' ∧ x'.id = x.id ∧ x'.contentUrl = x.contentUrl ∧
      x'.submittedAt = x.submittedAt ∧ x'.grade.isSome = true
  object : ∀ url o, s.objects.find? url = some o → s'.objects.find? url = some o

/-- There is no grade on submission `k`, or no submission. -/
def Ungraded (s : World) (k : Id × Id) : Prop :=
  ∀ x, s.submissions.find? k = some x → x.grade = none

/-! ## The condition -/

/-- The submission a statement hands in. -/
def handsIn : Stmt → Option (Id × Id)
  | .submissionUpsert assignmentId studentId .. => some (assignmentId, studentId)
  | _ => none

/-- The submission an event has graded. -/
def graded : Ev → Option (Id × Id)
  | ⟨.submissionUpdate .., row⟩ => some (Keyed.key (show AssignmentSubmission from row))
  | _ => none

/-- The submission an event has found without a grade. -/
def foundUngraded : Ev → Option (Id × Id)
  | ⟨.submissionFindUniqueByStudent assignmentId studentId, found⟩ =>
      if (Option.bind found AssignmentSubmission.grade).isSome then none else some (assignmentId, studentId)
  | _ => none

/-- Was submission `k` graded since the call at place `i` found it without a grade? -/
def gradedSince (i : Nat) (k : Id × Id) : History interface → Bool
  | [] => false
  | (j, e) :: h =>
      if j = i ∧ foundUngraded e = some k then false else graded e = some k || gradedSince i k h

/-- Whoever hands in a submission has found it without a grade, and it was not graded since. -/
def inTime (h : History interface) (p : Platform) : Step model Op → Prop
  | .exec i _ => ∀ t ∈ p.threads[i]?, ∀ k ∈ t.next?.bind handsIn, gradedSince i k h = false
  | _ => True

instance (h : History interface) (p : Platform) (a : Step model Op) : Decidable (inTime h p a) := by
  cases a <;> unfold inTime <;> infer_instance

/-! ## What a call has done before it writes -/

/-- No call opens a transaction, and one that hands in has looked for a grade. -/
def guards : Guards interface Op where
  stmt l q := l.tx = none ∧ ∀ k, handsIn q = some k → ∃ e ∈ l.done, foundUngraded e = some k
  commit _ := False

@[simp] theorem conforms_perform {q : Stmt} {Q : Log → Ans q → Prop} {E : Log → Err → Prop} {l : Log}
    {G : Guards interface Op} :
    @Prog.Conforms interface model Err (no_index (Ans q)) Op G (perform q) Q E l ↔
      G.stmt l q ∧ (∀ f, E l (.failure f)) ∧ ∀ a, model.Possible q a → Q (l.push ⟨q, a⟩) a :=
  Iff.rfl

/-- The statement does not hand in. -/
def Aside (q : Stmt) : Prop := handsIn q = none

theorem only_perform {P : Stmt → Prop} {q : Stmt} :
    @Prog.Only interface Err (no_index (Ans q)) P (perform q) ↔ P q :=
  @only_query interface Err P .failure q

section Conformance

variable {α β : Type} {o : Op} {d : List Ev}

theorem Aside.conforms {p : Call α} (hp : p.Only Aside) {f : α → Call β}
    (hf : ∀ a d', (f a).Conforms model guards (fun _ _ => True) (fun _ _ => True) ⟨o, d', none⟩) :
    (p.handle f .fail).Conforms model guards (fun _ _ => True) (fun _ _ => True)
      ⟨o, d, none⟩ := by
  rw [conforms_handle]
  refine hp.conforms_outside (fun d' _ q hq => ⟨rfl, fun k hk => ?_⟩) (fun _ _ a => hf a _)
    fun _ _ _ => trivial
  cases hq.symm.trans hk

theorem Aside.last {p : Call α} (hp : p.Only Aside) :
    p.Conforms model guards (fun _ _ => True) (fun _ _ => True) ⟨o, d, none⟩ :=
  hp.conforms_outside (fun _ _ q hq => ⟨rfl, fun k hk => by cases hq.symm.trans hk⟩)
    (fun _ _ _ => trivial) fun _ _ _ => trivial

end Conformance

/-! ### The checks -/

theorem enrolledStudent_only (userId : Id) : (enrolledStudent userId).Only Aside := by
  refine Only.handle (only_perform.2 rfl) (fun found => ?_) fun _ => trivial
  cases found <;> trivial

theorem courseEnrollment_only (studentId courseId : Id) :
    (courseEnrollment studentId courseId).Only Aside := by
  refine Only.handle (only_perform.2 rfl) (fun found => ?_) fun _ => trivial
  cases found with
  | none => trivial
  | some schoolId =>
      refine Only.handle (only_perform.2 rfl) (fun status => ?_) fun _ => trivial
      simp

theorem course_only (userId courseId : Id) : (course userId courseId).Only Aside := by
  refine Only.handle (Only.handle (only_perform.2 rfl) (fun found => ?_) fun _ => trivial)
    (fun teacher => ?_) fun _ => trivial
  · cases found <;> trivial
  · refine Only.handle (only_perform.2 rfl) (fun found => ?_) fun _ => trivial
    cases found <;> trivial

theorem submission_only (userId submissionId : Id) :
    (submission userId submissionId).Only Aside := by
  refine Only.handle (only_perform.2 rfl) (fun found => ?_) fun _ => trivial
  cases found with
  | none => trivial
  | some x =>
      refine Only.handle ?_ (fun _ => trivial) fun _ => trivial
      refine Only.handle (only_perform.2 rfl) (fun found => ?_) fun _ => trivial
      cases found with
      | none => trivial
      | some a => exact (course_only userId a.courseId).handle (fun _ => trivial) fun _ => trivial

theorem gradeSubmission_only (userId submissionId : Id) (grade : Rat) (feedback : Option String) :
    (gradeSubmission userId submissionId grade feedback).Only Aside :=
  (submission_only userId submissionId).handle (fun _ => only_perform.2 rfl) fun _ => trivial

theorem submitAssignment_conforms {o : Op} (userId assignmentId : Id) (file : File) :
    (submitAssignment userId assignmentId file).Conforms model guards (fun _ _ => True)
      (fun _ _ => True) (.start o) := by
  simp only [submitAssignment, bind_eq, throw_eq, handle_fail, Trace.start_eq]
  refine Aside.conforms (enrolledStudent_only userId) fun student d => ?_
  refine Aside.conforms (only_perform.2 (by rfl)) fun found d => ?_
  cases found with
  | none => trivial
  | some a =>
      simp only [conforms_ite, conforms_fail]
      refine ⟨fun _ => trivial, fun _ => ?_⟩
      refine Aside.conforms (courseEnrollment_only student.id a.courseId) fun _ d => ?_
      have haside : ∀ (d : List Ev) (q : Stmt), handsIn q = none → guards.stmt ⟨o, d, none⟩ q :=
        fun _ _ hq => ⟨rfl, fun k hk => by cases hq.symm.trans hk⟩
      simp only [conforms_handle, conforms_perform, conforms_ite, conforms_fail, Trace.push_outside]
      refine ⟨haside _ _ rfl, fun _ => trivial, fun found _ => ⟨fun _ => trivial, fun hnone =>
        ⟨haside _ _ rfl, fun _ => trivial, fun object _ => ⟨haside _ _ rfl, fun _ => trivial,
          fun now _ => ⟨⟨rfl, fun k hk => ?_⟩, fun _ => trivial, fun _ _ => trivial⟩⟩⟩⟩⟩
      -- The grade was looked for three statements ago.
      refine ⟨⟨.submissionFindUniqueByStudent assignmentId student.id, found⟩, by simp, ?_⟩
      simp only [foundUngraded]
      rw [if_neg hnone]
      exact hk

theorem program_conforms (o : Op) :
    (program o).Conforms model guards (fun _ _ => True) (fun _ _ => True) (.start o) := by
  cases o with
  | submitAssignment userId assignmentId file => exact submitAssignment_conforms ..
  | gradeSubmission userId submissionId grade feedback =>
      exact Aside.last (gradeSubmission_only userId submissionId grade feedback)

/-! ## What a write leaves -/

/-- Handing in leaves the grade as it is; a new submission has none. -/
theorem upsert_of_exec {s : World} {assignmentId studentId : Id} {contentUrl : String}
    {submittedAt : Nat} {c : Choice} {row : AssignmentSubmission}
    (hexec : exec (.submissionUpsert assignmentId studentId contentUrl submittedAt) c s = some row) :
    Keyed.key row = (assignmentId, studentId) ∧ (row.grade = none ∨
      ∃ y, s.submissions.find? (assignmentId, studentId) = some y ∧ row.grade = y.grade) := by
  cases c with
  | row id now =>
      simp only [exec] at hexec
      split at hexec
      · next y hy =>
          obtain rfl := Option.some.inj hexec
          have hky : Keyed.key y = (assignmentId, studentId) := Table.key_of_find? hy
          exact ⟨hky, .inr ⟨y, hy, rfl⟩⟩
      · split at hexec
        · cases hexec
        · obtain rfl := Option.some.inj hexec
          exact ⟨rfl, .inl rfl⟩
  | _ => cases hexec

/-- A submission without a grade gets one from an event that grades it, and from no other. -/
theorem Ungraded.event {s : World} {k : Id × Id} (h : Ungraded s k) {q : Stmt} {a : Ans q}
    {c : Choice} (hexec : exec q c s = some a) (hne : graded ⟨q, a⟩ ≠ some k) :
    Ungraded (model.applyAll (writes q a) s) k := by
  intro x hx
  cases q with
  | submissionUpsert assignmentId studentId contentUrl submittedAt =>
      have hput : (s.submissions.put a).find? k = some x := hx
      rw [Table.find?_put] at hput
      split at hput
      · next hk =>
          obtain rfl := Option.some.inj hput
          obtain ⟨hkey, hgrade | ⟨y, hy, hgrade⟩⟩ := upsert_of_exec hexec
          · exact hgrade
          · exact hgrade.trans (h y (by rw [hk]; exact hkey ▸ hy))
      · exact h x hput
  | submissionUpdate id grade feedback =>
      have hput : (s.submissions.put a).find? k = some x := hx
      rw [Table.find?_put, if_neg fun hk => hne (congrArg some hk.symm)] at hput
      exact h x hput
  | _ => exact h x hx

theorem Frozen.refl (s : World) : Frozen s s :=
  ⟨fun _ x hx hgrade => ⟨x, hx, rfl, rfl, rfl, hgrade⟩, fun _ _ ho => ho⟩

theorem Frozen.trans {s s' s'' : World} (h : Frozen s s') (h' : Frozen s' s'') : Frozen s s'' := by
  refine ⟨fun k x hx hgrade => ?_, fun url o ho => h'.object url o (h.object url o ho)⟩
  obtain ⟨y, hy, hid, hurl, hat, hgrade'⟩ := h.submission k x hx hgrade
  obtain ⟨z, hz, hid', hurl', hat', hgrade''⟩ := h'.submission k y hy hgrade'
  exact ⟨z, hz, hid'.trans hid, hurl'.trans hurl, hat'.trans hat, hgrade''⟩

/-- Writing a row freezes what is graded, if the row that was graded under its key keeps its file,
    its date and a grade. -/
theorem Frozen.put {s : World} {row : AssignmentSubmission}
    (hrow : ∀ x, s.submissions.find? (Keyed.key row) = some x → x.grade.isSome = true →
      row.id = x.id ∧ row.contentUrl = x.contentUrl ∧ row.submittedAt = x.submittedAt ∧
        row.grade.isSome = true) : Frozen s (s.apply (.submission row)) := by
  refine ⟨fun k x hx hgrade => ?_, fun _ _ ho => ho⟩
  have hput : (World.apply (.submission row) s).submissions.find? k =
      if k = Keyed.key row then some row else s.submissions.find? k := Table.find?_put ..
  by_cases hk : k = Keyed.key row
  · exact ⟨row, hput.trans (if_pos hk), hrow x (hk ▸ hx) hgrade⟩
  · exact ⟨x, (hput.trans (if_neg hk)).trans hx, rfl, rfl, rfl, hgrade⟩

/-- A statement freezes what is graded, if what it hands in is not. -/
theorem frozen_of_exec {s : World} {q : Stmt} {a : Ans q} {c : Choice}
    (hexec : exec q c s = some a) (hin : ∀ k, handsIn q = some k → Ungraded s k) :
    Frozen s (model.applyAll (writes q a) s) := by
  cases q with
  | uploadDocument file studentId =>
      refine ⟨fun _ x hx hgrade => ⟨x, hx, rfl, rfl, rfl, hgrade⟩, fun url o ho => ?_⟩
      refine (Table.find?_put ..).trans ((if_neg fun hurl => ?_).trans ho)
      -- The name of the new object is not the one of `o`.
      cases c with
      | name url' =>
          simp only [exec] at hexec
          split at hexec
          · cases hexec
          · next hfree =>
              obtain rfl := Option.some.inj hexec
              obtain rfl : url = url' := hurl
              simp [Table.contains, ho] at hfree
      | _ => cases hexec
  | submissionUpsert assignmentId studentId contentUrl submittedAt =>
      obtain ⟨hkey, -⟩ := upsert_of_exec hexec
      refine Frozen.put fun x hx hgrade => ?_
      rw [hkey] at hx
      simp [hin _ rfl x hx] at hgrade
  | submissionUpdate id grade feedback =>
      obtain ⟨y, hy, rfl⟩ := Option.map_eq_some_iff.1 hexec
      refine Frozen.put fun x hx _ => ?_
      have hmem : y ∈ s.submissions := List.mem_of_find?_eq_some hy
      obtain rfl := Option.some.inj ((Table.find?_key hmem).symm.trans hx)
      exact ⟨rfl, rfl, rfl, rfl⟩
  | _ => exact Frozen.refl s

/-! ## What the history says -/

/-- A submission that was found without a grade, and not graded since, has none. -/
def Remembers (h : History interface) (s : World) : Prop :=
  ∀ i k, (∃ e, (i, e) ∈ h ∧ foundUngraded e = some k) → gradedSince i k h = false → Ungraded s k

theorem Remembers.event {h : History interface} {s : World} (hrem : Remembers h s) (j : Nat)
    {q : Stmt} {a : Ans q} {c : Choice} (hexec : exec q c s = some a) :
    Remembers ((j, ⟨q, a⟩) :: h) (model.applyAll (writes q a) s) := by
  rintro i k ⟨e, he, hfound⟩ hsince
  simp only [gradedSince] at hsince
  split at hsince
  · next hnow =>
      -- It was found just now, by a statement that writes nothing.
      obtain ⟨-, hfound⟩ := hnow
      cases q with
      | submissionFindUniqueByStudent assignmentId studentId =>
          obtain rfl := Option.some.inj hexec
          simp only [foundUngraded] at hfound
          split at hfound
          · cases hfound
          · next hnone =>
              obtain rfl := Option.some.inj hfound
              intro x hx
              have hx : s.submissions.find? (assignmentId, studentId) = some x := hx
              simpa [hx] using hnone
      | _ => cases hfound
  · next hnot =>
      simp only [Bool.or_eq_false_iff, decide_eq_false_iff_not] at hsince
      refine (hrem i k ⟨e, ?_, hfound⟩ hsince.2).event hexec hsince.1
      rcases List.mem_cons.1 he with heq | he
      · obtain ⟨rfl, rfl⟩ := Prod.mk.inj heq
        exact absurd ⟨rfl, hfound⟩ hnot
      · exact he

theorem remembers {s₀ : World} {R : History interface → Platform → Step model Op → Prop}
    {h : History interface} {p : Platform} (hrec : Recorded program R (idle s₀) h p) :
    Remembers h p.db := by
  induction hrec with
  | refl =>
      rintro i k ⟨e, he, -⟩
      cases he
  | @step h p p' a hrec _ hs ih =>
      have hsound := hrec.run.sound program_conforms
      cases taken_of_step hs with
      | spawn o => exact ih
      | env roster => exact ih
      | turn hans => rwa [hans]
      | @commit i t k c ht hk => exact (hsound.conforms i t ht _ hk).2.1.elim
      | @callTx i t q k c x ht hk htx hx => exact absurd (hsound.conforms i t ht _ hk).1.1 htx
      | @call i t q k c x ht hk htx hx =>
          rw [answering_exec ht hk (by rwa [Trace.view_of_none htx])]
          exact ih.event i hx

/-! ## Every run -/

/-- What one step leaves. -/
theorem frozen_of_step {s₀ : World} {h : History interface} {p p' : Platform}
    {a : Step model Op} (hrec : Recorded program inTime (idle s₀) h p) (hR : inTime h p a)
    (hs : p.step program a = some p') : Frozen p.db p'.db := by
  have hsound := hrec.run.sound program_conforms
  cases taken_of_step hs with
  | spawn o => exact Frozen.refl _
  | env roster => exact ⟨fun _ x hx hgrade => ⟨x, hx, rfl, rfl, rfl, hgrade⟩, fun _ _ ho => ho⟩
  | turn => exact Frozen.refl _
  | @commit i t k c ht hk => exact (hsound.conforms i t ht _ hk).2.1.elim
  | @callTx i t q k c x ht hk htx hx => exact absurd (hsound.conforms i t ht _ hk).1.1 htx
  | @call i t q k c x ht hk htx hx =>
      refine frozen_of_exec hx fun key hkey => ?_
      obtain ⟨e, he, hfound⟩ := (hsound.conforms i t ht _ hk).1.2 key hkey
      have hmem := hrec.mem_history program_conforms (fun _ h => h) ht he
      have hsince : gradedSince i key h = false :=
        hR t ht key (by simp [next_of_call hk, hkey])
      exact remembers hrec i key ⟨e, hmem, hfound⟩ hsince

/-- **A graded submission is frozen.** In every run in which each call that hands in a submission does
    so before it is graded, if it found it ungraded: a submission that is graded at some moment has the
    same file and the same date at every later moment, and what is stored under its address stays. -/
theorem graded_submission_frozen {s₀ : World} {h h' : History interface} {p p' : Platform}
    (hrec : Recorded program inTime (idle s₀) h p) (hon : Onward program inTime h p h' p') :
    Frozen p.db p'.db := by
  induction hon with
  | refl => exact Frozen.refl _
  | step hon hR hs ih => exact ih.trans (frozen_of_step (hrec.onward hon) hR hs)

/-- Student 1 follows course 4 of school 3, which teacher 2 gives; assignment 5 is published. -/
def classroom : World where
  roster :=
    { students := .ofList [⟨1, 11⟩], teachers := .ofList [⟨2, 12⟩],
      teacherSchools := .ofList [⟨2, 3, true⟩], courses := .ofList [⟨4, 3, some 2⟩],
      courseEnrollments := .ofList [⟨4, 1⟩], studentEnrollments := .ofList [⟨1, 3, .ACTIVE⟩],
      assignments := .ofList [⟨5, 4, some 0⟩] }
  submissions := .empty
  objects := .empty

/-- The call at place `i` hands in a file, up to its last statement. -/
def handIn (i : Nat) (file : File) (url : String) (now : Nat) : List (Step model Op) :=
  .spawn (.submitAssignment 11 5 file) :: List.replicate 5 (.exec i (.nat 0)) ++
    [.exec i (.name url), .exec i (.nat now)]

/-- The call at place `i` grades submission 9. -/
def mark (i : Nat) : List (Step model Op) :=
  .spawn (.gradeSubmission 12 9 15 none) :: List.replicate 5 (.exec i (.nat 0))

def essay : File := ⟨"essay.pdf", "application/pdf", [1]⟩

def corrected : File := ⟨"corrected.pdf", "application/pdf", [2]⟩

/-- The submission is graded, and its file is the one at `url`. -/
def holds (s : World) (url : String) : Bool :=
  (s.submissions.find? (5, 1)).any fun x => x.grade.isSome ∧ x.contentUrl = some url

/-- The student hands in an essay, the teacher grades it, and a second file is refused. -/
theorem graded_submission_frozen_refused :
    ∃ (h h' : History interface) (p p' : Platform),
      Recorded program inTime (idle classroom) h p ∧ Onward program inTime h p h' p' ∧
      holds p.db "essay" = true ∧ p'.threads.length = 3 ∧ Frozen p.db p'.db := by
  have hplay : (playOn program inTime ([], (idle classroom : Platform))
      (handIn 0 essay "essay" 100 ++ .exec 0 (Choice.row 9 100) :: mark 1)).any (fun hp =>
        holds hp.2.db "essay" ∧ (playOn program inTime hp
          (.spawn (.submitAssignment 11 5 corrected) :: List.replicate 5 (.exec 2 (.nat 0)))).any
            fun hp' => hp'.2.threads.length = 3) = true := by
    decide +kernel
  obtain ⟨hp, hplay, hgraded⟩ := (Option.any_eq_true ..).1 hplay
  obtain ⟨hholds, hplay'⟩ := of_decide_eq_true hgraded
  obtain ⟨hp', hplay', hlength⟩ := (Option.any_eq_true ..).1 hplay'
  have hstart : Recorded program inTime (idle classroom : Platform) [] (idle classroom) := .refl
  have hrec := hstart.onward (Onward.of_playOn hplay)
  have hon := Onward.of_playOn hplay'
  exact ⟨hp.1, hp'.1, hp.2, hp'.2, hrec, hon, hholds, of_decide_eq_true hlength,
    graded_submission_frozen hrec hon⟩

/-- The student stores a second file, the teacher grades the first one, and then the second takes its
    place. -/
theorem not_graded_submission_frozen :
    ¬ ∀ (s₀ : World) (h h' : History interface) (p p' : Platform),
        Recorded program (fun _ _ _ => True) (idle s₀) h p →
        Onward program (fun _ _ _ => True) h p h' p' → Frozen p.db p'.db := by
  intro hall
  have hplay : (playOn program (fun _ _ _ => True) ([], (idle classroom : Platform))
      (handIn 0 essay "essay" 100 ++ .exec 0 (Choice.row 9 100) :: handIn 1 corrected "corrected" 200 ++
        mark 2)).any (fun hp => holds hp.2.db "essay" ∧
          (playOn program (fun _ _ _ => True) hp [.exec 1 (Choice.row 10 200)]).any
            fun hp' => holds hp'.2.db "corrected") = true := by
    decide +kernel
  obtain ⟨hp, hplay, hgraded⟩ := (Option.any_eq_true ..).1 hplay
  obtain ⟨hholds, hplay'⟩ := of_decide_eq_true hgraded
  obtain ⟨hp', hplay', hholds'⟩ := (Option.any_eq_true ..).1 hplay'
  have hstart : Recorded program (fun _ _ _ => True) (idle classroom : Platform) []
    (idle classroom) := .refl
  have hfrozen := hall classroom hp.1 hp'.1 hp.2 hp'.2
    (hstart.onward (Onward.of_playOn hplay)) (Onward.of_playOn hplay')
  obtain ⟨x, hx, hgrade⟩ := (Option.any_eq_true ..).1 hholds
  obtain ⟨y, hy, hgrade'⟩ := (Option.any_eq_true ..).1 hholds'
  obtain ⟨hgraded, hurl⟩ := of_decide_eq_true hgrade
  obtain ⟨-, hurl'⟩ := of_decide_eq_true hgrade'
  obtain ⟨z, hz, -, hsame, -⟩ := hfrozen.submission _ x hx hgraded
  obtain rfl := Option.some.inj (hy.symm.trans hz)
  rw [hurl', hurl] at hsame
  exact absurd (Option.some.inj hsame) (by decide)

end GetPlatform.Coursework
