import GetPlatform.Admission.Admitted

set_option autoImplicit false

/-! # What an enrolment rests on

An enrolment is written when an application gets a seat, and no operation on applications or payments
ends it: its status belongs to the school. So an ACTIVE enrolment rests on an application that has a
seat, or that had one in the run and was cancelled. Calls are run one after the other here. -/

namespace GetPlatform.Admission

open Prog

/-! ## Runs of decisions and deliveries -/

/-- The calls that write enrolments. -/
inductive EnrollingOp where
  | updateStatus (applicationId : Id) (dto : UpdateApplicationStatusDto) (userId : Id)
  | reconcilePayment (providerRef : Id) (expectedAmount : Option Rat)

def EnrollingOp.prog : EnrollingOp → Call Unit
  | updateStatus applicationId dto userId => do
      let _ ← Admission.updateStatus applicationId dto userId
  | reconcilePayment providerRef expectedAmount => do
      let _ ← Admission.reconcilePayment providerRef expectedAmount

/-- The states reached from `s₀` by such calls, one after the other. -/
abbrev Reached (s₀ s : World) : Prop := Serial model EnrollingOp.prog s₀ s

/-- A call does what a decision can do, on offers that stay as they are. -/
theorem decided_of_alone {s s' : World} {o : EnrollingOp} {cs : List (Except Failure Choice)}
    {r : Except Err Unit} (h : o.prog.alone (M := model) none s cs = some (r, s')) :
    (∃ applicationId status, Decided s applicationId status s') ∧ s'.offers = s.offers := by
  refine ⟨?_, alone_frame World.offers (fun w s => by cases w <;> rfl) h rfl⟩
  refine wp_alone (P := fun _ s' => ∃ applicationId status, Decided s applicationId status s') ?_ h
  cases o with
  | updateStatus applicationId dto userId =>
      simp only [EnrollingOp.prog, bind_eq, pure_eq, wp_handle]
      exact updateStatus_wp ⟨applicationId, dto.status, .untouched rfl rfl⟩
        fun _ s' _ _ hdecided _ => ⟨applicationId, dto.status, hdecided⟩
  | reconcilePayment providerRef expectedAmount =>
      simp only [EnrollingOp.prog, bind_eq, pure_eq, wp_handle]
      exact reconcilePayment_delivered fun s' hdelivered =>
        hdelivered.decided.imp fun applicationId hdecided => ⟨.ENROLLED, hdecided⟩

/-! ## Applications move along valid transitions -/

theorem occupies_or_cancelled_of_valid {st st' : ApplicationStatus} (h : ValidTransition st st')
    (hseat : st.occupies = true) : st'.occupies = true ∨ st' = .CANCELLED := by
  revert h hseat
  cases st <;> cases st' <;> decide

theorem cancelled_of_valid {st : ApplicationStatus} (h : ValidTransition .CANCELLED st) :
    st = .CANCELLED := by
  revert h
  cases st <;> decide

/-- An application keeps its student and its offer, and its status moves along a valid transition. -/
theorem Decided.transition {s s' : World} {applicationId id : Id} {status : ApplicationStatus}
    {app : Application} (h : Decided s applicationId status s')
    (happ : s.applications.find? id = some app) :
    ∃ app', s'.applications.find? id = some app' ∧ app'.studentId = app.studentId ∧
      app'.offerId = app.offerId ∧ ValidTransition app.status app'.status := by
  -- One update moves its own application to a status that is valid for it.
  have hset : ∀ {row : Application} (data : ApplicationData), data.status = status →
      s.applications.find? applicationId = some row → ValidTransition row.status status →
      ∃ app', (setApplication s.applications (applicationId, data)).find? id = some app' ∧
        app'.studentId = app.studentId ∧ app'.offerId = app.offerId ∧
        ValidTransition app.status app'.status := by
    intro row data hdata hfile hvalid
    by_cases hid : id = applicationId
    · subst hid
      obtain rfl := Option.some.inj (happ.symm.trans hfile)
      rw [← hdata] at hvalid
      refine ⟨data.set app, ?_, rfl, rfl, hvalid⟩
      rw [setApplication, Table.find?_modify_self _ _ _ data.key_set, happ]
      rfl
    · refine ⟨app, ?_, rfl, rfl, .inl rfl⟩
      rw [setApplication, Table.find?_modify_ne _ _ data.key_set hid, happ]
  cases h with
  | untouched happs => exact ⟨app, happs ▸ happ, rfl, rfl, .inl rfl⟩
  | moved hfile hdata hvalid _ happs => exact happs ▸ hset _ hdata hfile hvalid
  | notEnrolled hfile hdata hvalid _ _ _ happs => exact happs ▸ hset _ hdata hfile hvalid
  | enrolled hfile hdata hvalid _ _ _ happs => exact happs ▸ hset _ hdata hfile hvalid
  | @promoted row next student data data' hfile hdata hvalid hfrees hnext _ hdata' happs =>
      obtain ⟨mid, hmid, hstudent, hoffer, hstep⟩ := hset data hdata hfile hvalid
      rw [happs]
      by_cases hid : id = next.id
      · -- The one promoted was waitlisted, so the decision was not on it.
        subst hid
        obtain ⟨hmem, hwaiting⟩ := List.mem_filter.1 (List.mem_filter.1 hnext).1
        have hwaitlisted := (of_decide_eq_true hwaiting).2
        have hfind : s.applications.find? next.id = some next := Table.find?_key hmem
        obtain rfl := Option.some.inj (happ.symm.trans hfind)
        refine ⟨data'.set mid, ?_, hstudent, hoffer, ?_⟩
        · rw [setApplication, Table.find?_modify_self _ _ _ data'.key_set, hmid]
          rfl
        · rw [hwaitlisted, show (data'.set mid).status = .ACCEPTED from hdata']
          decide
      · refine ⟨mid, ?_, hstudent, hoffer, hstep⟩
        rw [setApplication, Table.find?_modify_ne _ _ data'.key_set hid, hmid]

/-! ## Backing -/

/-- The application is one of this student to an offer of this school. -/
structure IsFor (s : World) (app : Application) (studentId schoolId : Id) : Prop where
  file : s.applications.find? app.id = some app
  student : app.studentId = studentId
  school : ∃ offer, s.offers.find? app.offerId = some offer ∧ offer.schoolId = schoolId

/-- The application had a seat in a state of the run that led from `s₀` to `s`. -/
def HadSeat (s₀ s : World) (id : Id) : Prop :=
  ∃ s₁ app, Reached s₀ s₁ ∧ Reached s₁ s ∧ s₁.applications.find? id = some app ∧
    app.status.occupies = true

/-- It has a seat, or it had one and is cancelled. -/
def Backs (s₀ s : World) (app : Application) : Prop :=
  app.status.occupies = true ∨ app.status = .CANCELLED ∧ HadSeat s₀ s app.id

/-- Every ACTIVE enrolment rests on an application. -/
def Backed (s₀ s : World) : Prop :=
  ∀ e ∈ s.enrollments, e.status = .ACTIVE →
    ∃ app, IsFor s app e.studentId e.schoolId ∧ Backs s₀ s app

/-- What backs an enrolment before a call backs it after the call. -/
theorem Decided.backs {s₀ s s' : World} {applicationId studentId schoolId : Id}
    {status : ApplicationStatus} {app : Application} (h : Decided s applicationId status s')
    (hoffers : s'.offers = s.offers) (hrun : Reached s₀ s)
    (hstep : ∀ {s₁}, Reached s₁ s → Reached s₁ s') (hfor : IsFor s app studentId schoolId)
    (hbacks : Backs s₀ s app) : ∃ app', IsFor s' app' studentId schoolId ∧ Backs s₀ s' app' := by
  obtain ⟨app', happ', hstudent, hoffer, hvalid⟩ := h.transition hfor.file
  have hid : app'.id = app.id := Table.key_of_find? happ'
  refine ⟨app', ⟨hid ▸ happ', hstudent.trans hfor.student, ?_⟩, ?_⟩
  · rw [hoffers, hoffer]
    exact hfor.school
  · rcases hbacks with hseat | ⟨hcancelled, s₁, app₁, hbefore, hafter, happ₁, hseat⟩
    · refine (occupies_or_cancelled_of_valid hvalid hseat).imp_right fun hcancelled => ?_
      exact ⟨hcancelled, s, app, hrun, hstep .refl, hid ▸ hfor.file, hseat⟩
    · rw [hcancelled] at hvalid
      exact .inr ⟨cancelled_of_valid hvalid, s₁, app₁, hbefore, hstep hafter, hid ▸ happ₁, hseat⟩

/-- The invariant is kept by a call. -/
theorem Decided.backed {s₀ s s' : World} {applicationId : Id} {status : ApplicationStatus}
    (h : Decided s applicationId status s') (hoffers : s'.offers = s.offers) (hrun : Reached s₀ s)
    (hstep : ∀ {s₁}, Reached s₁ s → Reached s₁ s') (hbacked : Backed s₀ s) : Backed s₀ s' := by
  have hkept : ∀ e ∈ s.enrollments, e.status = .ACTIVE →
      ∃ app, IsFor s' app e.studentId e.schoolId ∧ Backs s₀ s' app := by
    intro e he hactive
    obtain ⟨app, hfor, hbacks⟩ := hbacked e he hactive
    exact h.backs hoffers hrun hstep hfor hbacks
  intro e he hactive
  cases h with
  | untouched _ henr => exact hkept e (henr ▸ he) hactive
  | moved _ _ _ _ _ henr => exact hkept e (henr ▸ he) hactive
  | notEnrolled _ _ _ _ _ _ _ henr => exact hkept e (henr ▸ he) hactive
  | promoted _ _ _ _ _ _ _ _ henr => exact hkept e (henr ▸ he) hactive
  | @enrolled app data offer program academicYear hfile hdata hvalid hseat hoffer _ happs henr _ =>
      rw [henr] at he
      rcases Table.mem_put.1 he with rfl | ⟨he, -⟩
      · -- The new enrolment rests on the application that got the seat.
        have hid : app.id = applicationId := Table.key_of_find? hfile
        refine ⟨data.set app, ⟨?_, rfl, offer, hoffers ▸ hoffer, rfl⟩, .inl ?_⟩
        · rw [happs, setApplication, show (data.set app).id = applicationId from hid,
            Table.find?_modify_self _ _ _ data.key_set, hfile]
          rfl
        · rw [show (data.set app).status = status from hdata]
          exact hseat
      · exact hkept e he hactive

/-- **An enrolment is backed by an admission.** In every run of decisions and deliveries from a state
    without enrolments, an ACTIVE enrolment rests on an application of the student to an offer of the
    school that is ACCEPTED or ENROLLED, or was so and has been cancelled. -/
theorem enrolment_backed {s₀ s : World} (h₀ : ∀ e, e ∉ s₀.enrollments) (hrun : Reached s₀ s) :
    Backed s₀ s := by
  refine hrun.holds (fun e he => absurd he (h₀ e)) (fun o cs hbefore halone hbacked => ?_)
    fun n hbefore hbacked => ?_
  · obtain ⟨⟨applicationId, status, hdecided⟩, hoffers⟩ := decided_of_alone halone
    exact hdecided.backed hoffers hbefore (.run o cs · halone) hbacked
  · have hsame : ∀ s : World, Decided s 0 .PENDING (tick n s) := fun s => .untouched rfl rfl
    exact (hsame _).backed rfl hbefore (.env n ·) hbacked

/-- What a call meets when nothing fails and no choice matters. -/
def allWell : List (Except Failure Choice) := List.replicate 20 (.ok (.nat 0))

/-- The student of application 1 has an ACTIVE enrolment, and the application is in this status. -/
def enrolledWith (status : ApplicationStatus) (s : World) : Prop :=
  (s.enrollments.find? (11, 7)).any (·.status = .ACTIVE) = true ∧
    s.applications.rows.map (·.status) = [status]

instance (status : ApplicationStatus) : DecidablePred (enrolledWith status) := fun _ =>
  inferInstanceAs (Decidable (_ ∧ _))

/-- Application 1 is given these statuses, one decision after the other. -/
def decisions (statuses : List ApplicationStatus) :
    List (EnrollingOp × List (Except Failure Choice)) :=
  statuses.map fun status => (.updateStatus 1 { status } 9, allWell)

theorem reached_enrolledWith {statuses : List ApplicationStatus} {status : ApplicationStatus}
    (h : ((serially (M := model) EnrollingOp.prog enrollableFile (decisions statuses)).any
      fun s => enrolledWith status s) = true) :
    ∃ s, Reached enrollableFile s ∧ enrolledWith status s := by
  obtain ⟨s, hplay, hgood⟩ := (Option.any_eq_true ..).1 h
  exact ⟨s, Serial.of_serially .refl hplay, of_decide_eq_true hgood⟩

theorem enrolment_backed_enrolled : ∃ s, Reached enrollableFile s ∧ enrolledWith .ENROLLED s ∧
    Backed enrollableFile s := by
  obtain ⟨s, hrun, henrolled⟩ := @reached_enrolledWith [.ENROLLED] .ENROLLED (by decide +kernel)
  exact ⟨s, hrun, henrolled, enrolment_backed (fun _ => Table.not_mem_empty _) hrun⟩

/-- When its application is cancelled, an enrolment stays ACTIVE. -/
theorem not_enrolment_backed :
    ¬ ∀ s₀ s : World, (∀ e, e ∉ s₀.enrollments) → Reached s₀ s → ∀ e ∈ s.enrollments,
      e.status = .ACTIVE → ∃ app, IsFor s app e.studentId e.schoolId ∧
        (app.status = .ACCEPTED ∨ app.status = .ENROLLED) := by
  intro h
  obtain ⟨s, hrun, hactive, hstatus⟩ :=
    @reached_enrolledWith [.ENROLLED, .CANCELLED] .CANCELLED (by decide +kernel)
  obtain ⟨e, he, hstatus'⟩ := (Option.any_eq_true ..).1 hactive
  obtain ⟨app, hfor, hseat⟩ := h enrollableFile s (fun _ => Table.not_mem_empty _) hrun e
    (Table.mem_of_find? he) (of_decide_eq_true hstatus')
  have hmem : app.status ∈ s.applications.rows.map (·.status) :=
    List.mem_map_of_mem (Table.mem_of_find? hfor.file)
  rw [hstatus, List.mem_singleton] at hmem
  rw [hmem] at hseat
  simp at hseat

end GetPlatform.Admission
