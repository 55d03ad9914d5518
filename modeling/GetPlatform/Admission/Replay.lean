import GetPlatform.Admission.Admitted

set_option autoImplicit false

/-! # A decision or a payment that comes again

An application that is accepted may be accepted once more, and one that is enrolled may still be paid
for. Both write the enrolment of the student afresh: the first year, the current academic year,
ACTIVE. Whatever the enrolment has become since is lost, unless it says exactly this. -/

namespace GetPlatform.Admission

open Prog

/-- Application `app` to `offer` has a seat, and its student has the enrolment `e` in the school. -/
structure EnrolledFile (s : World) (app : Application) (offer : Offer) (e : StudentEnrollment) :
    Prop where
  file : s.applications.find? app.id = some app
  offered : s.offers.find? app.offerId = some offer
  seat : app.status.occupies = true
  enrollment : s.enrollments.find? (app.studentId, offer.schoolId) = some e

/-- The enrolment is what the offer writes when it enrols the student now. -/
def AsEnrolled (s : World) (app : Application) (offer : Offer) (e : StudentEnrollment) : Prop :=
  ∀ program academicYear, Enrols s offer program academicYear →
    e = enrollmentOf app.studentId offer program academicYear

/-- The application can be read, and the user may decide on it. -/
def MayDecide (s : World) (applicationId userId : Id) : Prop :=
  ∃ row, Loaded s applicationId row ∧ Manages s row userId

/-- A delivery for `ref` is about payment `pay` of application `applicationId`. -/
def DeliveryFor (s : World) (ref : Id) (pay : Payment) (applicationId : Id) : Prop :=
  (s.payments.rows.find? fun p => p.providerRef = some ref) = some pay ∧
    pay.applicationId = some applicationId

/-- A delivery for `ref` can confirm payment `pay` as the only one of application `applicationId`. -/
structure CanConfirm (s : World) (ref : Id) (expectedAmount : Option Rat) (pay : Payment)
    (applicationId : Id) : Prop where
  opened : pay.status ≠ .COMPLETED
  amount : expectedAmount.any (· ≠ pay.amount) = false
  only : NoOther s applicationId pay.id
  ownRef : s.refFree pay.id (some ref) = true
  unrecorded : s.transactions.contains pay.id = false
  loaded : ∃ row, Loaded s applicationId row

section Replay

variable {s s' : World} {app : Application} {offer : Offer} {e : StudentEnrollment}
  {E : Err → Option World → World → Prop} {saved : Option World}

theorem EnrolledFile.key (h : EnrolledFile s app offer e) :
    Keyed.key e = (app.studentId, offer.schoolId) :=
  Table.key_of_find? h.enrollment

theorem EnrolledFile.mem (h : EnrolledFile s app offer e) : e ∈ s.enrollments :=
  Table.mem_of_find? h.enrollment

/-- Writing the enrolment again keeps it if and only if it is what is written. -/
theorem EnrolledFile.mem_put_iff (h : EnrolledFile s app offer e) {program : SchoolProgram}
    {academicYear : SchoolAcademicYear} :
    e ∈ s.enrollments.put (enrollmentOf app.studentId offer program academicYear) ↔
      e = enrollmentOf app.studentId offer program academicYear := by
  rw [Table.mem_put]
  refine ⟨fun hmem => hmem.resolve_right fun hold => hold.2 h.key, .inl⟩

/-! ## Kept -/

theorem keeps_of_updateStatus (h : EnrolledFile s app offer e) {userId : Id}
    {dto : UpdateApplicationStatusDto}
    (hkept : MayDecide s app.id userId → AsEnrolled s app offer e) :
    (updateStatus app.id dto userId).wp model (fun _ _ s' => e ∈ s'.enrollments)
      (fun _ _ s' => e ∈ s'.enrollments) none s := by
  refine updateStatus_wp h.mem fun row s' hfound hmanages hdecided _ => ?_
  cases hdecided with
  | untouched _ henr => exact henr ▸ h.mem
  | moved _ _ _ _ _ henr => exact henr ▸ h.mem
  | notEnrolled _ _ _ _ _ _ _ henr => exact henr ▸ h.mem
  | promoted _ _ _ _ _ _ _ _ henr => exact henr ▸ h.mem
  | enrolled hfile _ _ _ hoffer henrols _ henr _ =>
      obtain rfl := Option.some.inj (h.file.symm.trans hfile)
      obtain rfl := Option.some.inj (h.offered.symm.trans hoffer)
      rw [henr]
      exact h.mem_put_iff.2 (hkept ⟨row, hfound, hmanages⟩ _ _ henrols)

/-- What a confirmed payment does to the enrolments: nothing, or it is the only one of the application
    and writes the enrolment. -/
theorem settleApplication_keeps (h : EnrolledFile s app offer e) {pay : Payment}
    {data : PaymentData} {Q : Bool → Option World → World → Prop} (hE : ∀ e s, E e saved s)
    (hQ : ∀ b s', s'.transactions = s.transactions → (s'.enrollments = s.enrollments ∨
      NoOther s app.id pay.id ∧ (∃ row, Loaded s app.id row) ∧ ∃ program academicYear,
        Enrols s offer program academicYear ∧ s'.enrollments =
          s.enrollments.put (enrollmentOf app.studentId offer program academicYear)) →
      Q b saved s') :
    (settleApplication pay app.id).wp model Q E saved (World.apply (.payment pay.id data) s) := by
  simp only [settleApplication, bind_eq, wp_handle, wp_send, wp_fail]
  refine ⟨fun _ => hE _ _, fun c found hfound => ?_⟩
  cases c <;> simp only [exec, reduceCtorEq, Option.some.injEq] at hfound
  cases found with
  | some other =>
      simp only [wp_handle, wp_send, wp_fail, pure_eq, wp_ret]
      exact ⟨fun _ => hE _ _, fun _ _ _ => hQ _ _ rfl (.inl rfl)⟩
  | none =>
      have hnone : NoOther s app.id pay.id := by
        by_contra hother
        obtain ⟨other, hother⟩ := pick_paymentsIn_claimed data hother
        rw [pick_eq_none.1 hfound] at hother
        cases hother
      simp only [wp_handle, wp_send, wp_fail]
      refine ⟨fun _ => hE _ _, fun c found hfound => ?_⟩
      cases found with
      | none => exact hQ _ _ rfl (.inl rfl)
      | some application =>
          have hloaded := loaded_iff.1 hfound
          obtain rfl : app = application.toApplication :=
            Option.some.inj (h.file.symm.trans hloaded.file)
          obtain rfl := Option.some.inj (h.offered.symm.trans hloaded.offer)
          simp only [wp_ite, wp_handle, pure_eq]
          refine ⟨fun _ => enrollPaid_wp hE (fun program academicYear t henrols _ => ?_)
              fun _ => hQ _ _ rfl (.inl rfl),
            fun _ => refundClosed_wp hE fun _ _ _ _ => hQ _ _ rfl (.inl rfl)⟩
          exact hQ _ _ rfl (.inr ⟨hnone, ⟨application, hloaded.file, hloaded.offer,
            hloaded.student⟩, program, academicYear,
            ⟨henrols.linked, henrols.program, henrols.academicYear⟩, rfl⟩)

theorem settlePayment_keeps (h : EnrolledFile s app offer e) {pay : Payment} {ref : Id}
    {status : PaymentStatus} {txId : Option String}
    {Q : Payment × Bool → Option World → World → Prop} (happ : pay.applicationId = some app.id)
    (hkept : NoOther s app.id pay.id → s.refFree pay.id (some ref) = true →
      s.transactions.contains pay.id = false → (∃ row, Loaded s app.id row) →
      AsEnrolled s app offer e)
    (hE : ∀ e s, E e saved s) (hQ : ∀ r s', e ∈ s'.enrollments → Q r saved s') :
    (settlePayment pay ref status txId).wp model Q E saved s := by
  refine settlePayment_wp hE (fun r => hQ _ _ h.mem) (fun _ r data _ => hQ _ _ h.mem)
    fun _ hown r data => ?_
  simp only [settleConfirmed, happ, bind_eq, pure_eq, wp_handle]
  refine settleApplication_keeps h hE fun b s' htxs hwritten => ?_
  rw [wp_handle]
  refine recordTransaction_wp hE fun hnew row => hQ _ _ ?_
  show e ∈ s'.enrollments
  rcases hwritten with henr | ⟨honly, hloaded, program, academicYear, henrols, henr⟩
  · exact henr ▸ h.mem
  · rw [henr]
    exact h.mem_put_iff.2 (hkept honly hown (htxs ▸ hnew) hloaded _ _ henrols)

theorem keeps_of_reconcilePayment (h : EnrolledFile s app offer e) {ref : Id} {pay : Payment}
    {expectedAmount : Option Rat} (hfor : DeliveryFor s ref pay app.id)
    (hkept : CanConfirm s ref expectedAmount pay app.id → AsEnrolled s app offer e) :
    (reconcilePayment ref expectedAmount).wp model (fun _ _ s' => e ∈ s'.enrollments)
      (fun _ _ s' => e ∈ s'.enrollments) none s := by
  have hmem := h.mem
  simp only [reconcilePayment, bind_eq, pure_eq, throw_eq, wp_handle, wp_send, wp_fail]
  refine ⟨fun _ => hmem, fun _ found hfound => ?_⟩
  obtain rfl : found = some pay := (Option.some.inj hfound).symm.trans hfor.1
  simp only [wp_ite, wp_ret, wp_handle, wp_send, wp_fail]
  refine ⟨fun _ => hmem, fun hopen => ⟨fun _ => hmem, fun hamount => ⟨fun _ => hmem,
    fun _ confirmation _ => ⟨fun _ => hmem, fun _ => (wp_transaction ..).2 ?_⟩⟩⟩⟩
  refine settlePayment_keeps h hfor.2 (fun honly hown hnew hloaded => hkept
      ⟨hopen, by simpa using hamount, honly, hown, hnew, hloaded⟩) (fun _ _ => hmem)
    fun r s' hend => ⟨fun _ => hmem, (wp_ite ..).2 ⟨fun _ => (wp_handle ..).2
      (processRefund_wp hend fun _ _ => hend), fun _ => hend⟩⟩

/-! ## Overwritten -/

theorem of_findProgram_wp {program : SchoolProgram} {academicYear : SchoolAcademicYear}
    {Q : Option SchoolProgram × Option SchoolAcademicYear → Option World → World → Prop}
    (h : (findProgram offer).wp model Q E saved s)
    (henrols : Enrols s offer program academicYear) :
    Q (some program, some academicYear) saved s := by
  have hfind : s.programs.find? program.id = some program := Table.find?_key henrols.program.1
  obtain ⟨n, hn, hget⟩ := List.mem_iff_getElem.1 (List.mem_filter.2
    ⟨henrols.academicYear.1, decide_eq_true henrols.academicYear.2⟩ :
    academicYear ∈ s.academicYears.rows.filter fun y => y.schoolId = offer.schoolId ∧ y.isCurrent)
  have hpick : pick (s.academicYears.rows.filter fun y =>
      y.schoolId = offer.schoolId ∧ y.isCurrent) n = some academicYear := by
    rw [pick, Nat.mod_eq_of_lt hn, List.getElem?_eq_getElem hn, hget]
  simp only [findProgram, henrols.linked, bind_eq, pure_eq, wp_handle, wp_send, wp_fail, wp_ret] at h
  have hprogram : exec (.schoolProgramFindFirst program.id offer.schoolId) (.nat 0) s =
      some (some program) := by
    simp [exec, hfind, Option.filter, henrols.program.2.1, henrols.program.2.2]
  exact (h.2 (.nat 0) (some program) hprogram).2 (.nat n) (some academicYear) (congrArg some hpick)

theorem of_upserts_wp {studentId : Id} {Q : PUnit → Option World → World → Prop} (ids : List Id)
    (h : (ids.forM fun courseId => send (.courseEnrollmentUpsert ⟨courseId, studentId⟩)).wp model Q E
      saved s) : ∃ t, Q () saved (s.withCourses t) := by
  induction ids generalizing s with
  | nil => exact ⟨s.courseEnrollments, h⟩
  | cons id ids ih =>
      simp only [List.forM_eq_forM, List.forM_cons, bind_eq, wp_handle, wp_send, wp_fail] at h
      obtain ⟨t, ht⟩ := ih (h.2 (.nat 0) () rfl)
      exact ⟨t, ht⟩

theorem of_syncCourseEnrollments_wp {studentId schoolId programId : Id} {programLevel : Nat}
    {Q : Unit → Option World → World → Prop}
    (h : (syncCourseEnrollments studentId schoolId programId programLevel).wp model Q E saved s) :
    ∃ t, Q () saved (s.withCourses t) := by
  simp only [syncCourseEnrollments, bind_eq, wp_handle, wp_send, wp_fail] at h
  let ids : List Id := (s.courses.rows.filter fun c => c.schoolId = schoolId ∧
    c.programId = some programId ∧ c.programLevel = some programLevel ∧ c.isPublished).map (·.id)
  let keys : List (Id × Id) := (s.courseEnrollments.rows.filter fun e => e.studentId = studentId ∧
    e.courseId ∉ ids ∧ (s.courses.find? e.courseId).any (·.schoolId = schoolId)).map Keyed.key
  replace h := (h.2 (.nat 0) ids rfl).2 (.nat 0) keys rfl
  obtain ⟨t, ht, -⟩ := applyAll_noCourseEnrollment keys s
  have hstate : model.applyAll (writes (.courseEnrollmentDeleteMany studentId schoolId ids) keys)
      (model.applyAll (writes (.courseFindMany schoolId programId programLevel) ids) s) =
    s.withCourses t := ht
  rw [hstate] at h
  obtain ⟨t', ht'⟩ := of_upserts_wp ids h
  exact ⟨t', ht'⟩

/-- An enrolment can always be written. -/
theorem of_enrollStudent_wp {studentId : Id} {program : SchoolProgram}
    {academicYear : SchoolAcademicYear} {Q : Unit → Option World → World → Prop}
    (h : (enrollStudent studentId offer program academicYear).wp model Q E saved s) :
    ∃ t, Q () saved (s.enrolled (enrollmentOf studentId offer program academicYear) t) := by
  simp only [enrollStudent, bind_eq, wp_handle, wp_send, wp_fail] at h
  obtain ⟨t, ht⟩ := of_syncCourseEnrollments_wp (h.2 (.nat 0) () rfl)
  exact ⟨t, ht⟩

theorem of_enrollAccepted_wp {row : ApplicationWithOffer} {dto : UpdateApplicationStatusDto}
    {applicationId userId : Id} {program : SchoolProgram} {academicYear : SchoolAcademicYear}
    {Q : Unit → Option World → World → Prop}
    (h : (enrollAccepted applicationId row dto userId).wp model Q E saved s)
    (henrols : Enrols s row.offer program academicYear) :
    ∃ t entry, Q () saved (World.apply (.timeline entry)
      (s.enrolled (enrollmentOf row.studentId row.offer program academicYear) t)) := by
  simp only [enrollAccepted, bind_eq, wp_handle] at h
  replace h := of_findProgram_wp h henrols
  simp only [wp_handle] at h
  obtain ⟨t, h⟩ := of_enrollStudent_wp h
  exact ⟨t, _, h.2 (.nat 0) () rfl⟩

theorem of_enrollPaid_wp {row : ApplicationWithOffer} {program : SchoolProgram}
    {academicYear : SchoolAcademicYear} {Q : Unit → Option World → World → Prop}
    (h : (enrollPaid row).wp model Q E saved s) (henrols : Enrols s row.offer program academicYear)
    (hfile : s.applications.find? row.id = some row.toApplication) :
    ∃ t entry, Q () saved (World.apply (.timeline entry)
      ((World.apply (.application row.id { status := .ENROLLED }) s).enrolled
        (enrollmentOf row.studentId row.offer program academicYear) t)) := by
  simp only [enrollPaid, bind_eq, wp_handle] at h
  replace h := of_findProgram_wp h henrols
  simp only [wp_handle, wp_send, wp_fail] at h
  replace h := h.2 (.nat 0) _ (congrArg (Option.map _) hfile)
  obtain ⟨t, h⟩ := of_enrollStudent_wp h
  exact ⟨t, _, h.2 (.nat 0) () rfl⟩

/-- In one of its runs, a decision that leaves an application in its seat writes the enrolment. -/
theorem asEnrolled_of_updateStatus (h : EnrolledFile s app offer e) {userId : Id}
    {dto : UpdateApplicationStatusDto} (hsame : dto.status = app.status)
    (hwp : (updateStatus app.id dto userId).wp model (fun _ _ s' => e ∈ s'.enrollments)
      (fun _ _ s' => e ∈ s'.enrollments) none s)
    (hmay : MayDecide s app.id userId) : AsEnrolled s app offer e := by
  intro program academicYear henrols
  obtain ⟨row, hfound, hmanages⟩ := hmay
  obtain rfl : app = row.toApplication := Option.some.inj (h.file.symm.trans hfound.file)
  obtain rfl := Option.some.inj (h.offered.symm.trans hfound.offer)
  have hseat : dto.status.occupies = true := hsame ▸ h.seat
  have hvalid : ValidTransition row.status dto.status := .inl hsame.symm
  have hfrees : freesASeat row.status dto.status = false := by
    by_contra hnot
    rw [Bool.not_eq_false] at hnot
    simp [(not_occupies_of_freesASeat hnot).2] at hseat
  simp only [updateStatus, bind_eq, throw_eq, wp_handle, wp_send, wp_fail] at hwp
  replace hwp := hwp.2 (.nat 0) (some row) (loaded_iff.2 hfound)
  rw [wp_handle] at hwp
  replace hwp := of_ensureCanManageApplication_wp hmanages hwp
  simp only [assertValidTransition, if_pos hvalid, pure_eq, wp_handle, wp_ret, tryCatch_eq] at hwp
  replace hwp := (wp_transaction ..).1 hwp
  rw [wp_handle] at hwp
  -- The application has been ACCEPTED already, or the decision is not an acceptance.
  have hcapacity : checkCapacity row dto.status = pure () := by
    unfold checkCapacity
    split
    · exact if_neg fun hboth => hboth.2 (hsame.symm.trans hboth.1)
    · rfl
  rw [hcapacity, pure_eq, wp_ret] at hwp
  simp only [applyStatusTransaction, hseat, hfrees, if_true, Bool.false_eq_true, if_false, bind_eq,
    pure_eq, wp_handle, wp_send, wp_fail] at hwp
  replace hwp := hwp.2 (.nat 0) s.clock rfl
  replace hwp := hwp.2 (.nat 0) _ (congrArg (Option.map _) hfound.file)
  replace hwp := hwp.2 (.nat 0) () rfl
  obtain ⟨t, entry, hwp⟩ := of_enrollAccepted_wp hwp
    ⟨henrols.linked, henrols.program, henrols.academicYear⟩
  simp only [wp_handle, wp_ret] at hwp
  have hend := of_announce_wp hwp.2
  exact h.mem_put_iff.1 hend

/-- In one of its runs, the transaction that confirms the only payment of an application with a seat
    writes the enrolment, and asks for no refund. -/
theorem of_settlePayment_wp {row : ApplicationWithOffer} {ref : Id} {pay : Payment}
    {expectedAmount : Option Rat} {txId : Option String} {program : SchoolProgram}
    {academicYear : SchoolAcademicYear} {Q : Payment × Bool → Option World → World → Prop}
    (h : (settlePayment pay ref .COMPLETED txId).wp model Q E saved s)
    (hfor : DeliveryFor s ref pay row.id) (hcan : CanConfirm s ref expectedAmount pay row.id)
    (hfound : Loaded s row.id row) (hseat : row.status.occupies = true)
    (henrols : Enrols s row.offer program academicYear) :
    ∃ r s', Q (r, false) saved s' ∧ s'.enrollments =
      s.enrollments.put (enrollmentOf row.studentId row.offer program academicYear) := by
  have hpay : s.payments.find? pay.id = some pay :=
    Table.find?_key (List.mem_of_find?_eq_some hfor.1)
  let data : PaymentData :=
    { status := .COMPLETED, paidAt := some s.clock, providerRef := some ref }
  simp only [settlePayment, paidAt, if_true, map_eq, bind_eq, pure_eq, wp_handle, wp_send, wp_fail,
    wp_ret, wp_ite] at h
  replace h := h.2 (.nat 0) s.clock rfl
  -- The claim succeeds.
  have hclaim : exec (.paymentUpdateManyNotCompleted pay.id data) (.nat 0) s = some 1 := by
    simp only [exec, hpay, if_neg hcan.opened, hcan.ownRef, if_true, data]
  have hview : (World.apply (.payment pay.id data) s).payments.find? pay.id = some (data.set pay) :=
    (Table.find?_modify_self _ _ _ data.key_set).trans (by rw [hpay]; rfl)
  replace h := h.2 (.nat 0) 1 hclaim
  replace h := (h.2 (.nat 0) _ hview).2 (by simp)
  simp only [settleConfirmed, hfor.2, bind_eq, pure_eq, wp_handle, settleApplication, wp_send] at h
  -- No other payment is found, and the application is.
  have hnone : exec (.paymentFindFirst row.id [.COMPLETED] (some pay.id)) (.nat 0)
      (World.apply (.payment pay.id data) s) = some none :=
    congrArg some (by rw [paymentsIn_claimed hcan.only, pick_eq_none.2 rfl])
  replace h := h.2 (.nat 0) none hnone
  simp only [wp_handle, wp_send] at h
  replace h := h.2 (.nat 0) (some row) (loaded_iff.2 ⟨hfound.file, hfound.offer, hfound.student⟩)
  simp only [hseat, if_true, wp_handle] at h
  obtain ⟨t, entry, h⟩ := of_enrollPaid_wp h
    ⟨henrols.linked, henrols.program, henrols.academicYear⟩ hfound.file
  simp only [wp_ret, recordTransaction, bind_eq, wp_handle, wp_send] at h
  have hbook : (if s.transactions.contains pay.id then none else some ()) = some () := by
    rw [hcan.unrecorded]
    rfl
  replace h := (h.2 (.nat 0) s.clock rfl).2 (.nat 0) () hbook
  exact ⟨_, _, h, rfl⟩

/-- In one of its runs, a delivery that can confirm a payment writes the enrolment. -/
theorem asEnrolled_of_reconcilePayment (h : EnrolledFile s app offer e) {ref : Id} {pay : Payment}
    {expectedAmount : Option Rat} (hfor : DeliveryFor s ref pay app.id)
    (hwp : (reconcilePayment ref expectedAmount).wp model (fun _ _ s' => e ∈ s'.enrollments)
      (fun _ _ s' => e ∈ s'.enrollments) none s)
    (hcan : CanConfirm s ref expectedAmount pay app.id) : AsEnrolled s app offer e := by
  intro program academicYear henrols
  obtain ⟨row, hfound⟩ := hcan.loaded
  obtain rfl : app = row.toApplication := Option.some.inj (h.file.symm.trans hfound.file)
  obtain rfl := Option.some.inj (h.offered.symm.trans hfound.offer)
  simp only [reconcilePayment, bind_eq, pure_eq, throw_eq, wp_handle, wp_send, wp_fail] at hwp
  replace hwp := hwp.2 (.nat 0) (some pay) (congrArg some hfor.1)
  simp only [if_neg hcan.opened, hcan.amount, Bool.false_eq_true, if_false, wp_handle, wp_send,
    wp_fail] at hwp
  replace hwp := hwp.2 (.confirmation ⟨.COMPLETED, none⟩) ⟨.COMPLETED, none⟩ rfl
  simp only [reduceCtorEq, if_false, if_true, wp_handle] at hwp
  obtain ⟨r, s', hend, henr⟩ := of_settlePayment_wp ((wp_transaction ..).1 hwp) hfor hcan hfound
    h.seat henrols
  have hmem : e ∈ s'.enrollments := hend.2
  rw [henr] at hmem
  exact h.mem_put_iff.1 hmem

end Replay

/-- **A decision or a payment that comes again.** In every state in which an application has a seat and
    its student an enrolment in the school, a decision for the status that the application has leaves
    the enrolment as it is, if and only if it is what the offer enrols in now, or the caller may not
    decide. The same holds of the confirmation of a payment of an application that is ENROLLED. -/
theorem replay_keeps_enrollment_iff {s : World} {app : Application} {offer : Offer}
    {e : StudentEnrollment} (h : EnrolledFile s app offer e) :
    (∀ (userId : Id) (dto : UpdateApplicationStatusDto), dto.status = app.status →
      ((updateStatus app.id dto userId).wp model (fun _ _ s' => e ∈ s'.enrollments)
          (fun _ _ s' => e ∈ s'.enrollments) none s ↔
        (MayDecide s app.id userId → AsEnrolled s app offer e))) ∧
    (app.status = .ENROLLED → ∀ (ref : Id) (expectedAmount : Option Rat) (pay : Payment),
      DeliveryFor s ref pay app.id →
      ((reconcilePayment ref expectedAmount).wp model (fun _ _ s' => e ∈ s'.enrollments)
          (fun _ _ s' => e ∈ s'.enrollments) none s ↔
        (CanConfirm s ref expectedAmount pay app.id → AsEnrolled s app offer e))) :=
  ⟨fun _ _ hsame => ⟨asEnrolled_of_updateStatus h hsame, keeps_of_updateStatus h⟩,
    fun _ _ _ _ hfor => ⟨asEnrolled_of_reconcilePayment h hfor, keeps_of_reconcilePayment h hfor⟩⟩

/-- Application 1 is enrolled, its student has the enrolment `e`, and payment 1 is being processed. -/
def paidFile (e : StudentEnrollment) : World :=
  { enrollableFile with
    applications := .ofList [⟨1, 11, 5, .ENROLLED, none, none, none, none, none, none, 0⟩]
    enrollments := .ofList [e]
    payments := .ofList
      [⟨1, some 1, 11, 100, "MGA", .CARD, .PROCESSING, ⟨0, 1⟩, some 70, 5, none, none⟩] }

/-- The first year of programme 8. -/
def firstYear : StudentEnrollment := ⟨11, 7, 8, 1, 3, "Année 1 · Droit · 2024-2025", .ACTIVE⟩

theorem enrolledFile_paidFile (e : StudentEnrollment) (h : Keyed.key e = (11, 7)) :
    EnrolledFile (paidFile e) ⟨1, 11, 5, .ENROLLED, none, none, none, none, none, none, 0⟩
      ⟨5, 7, some 8, 100, none, none, true, none⟩ e := by
  refine ⟨rfl, rfl, rfl, ?_⟩
  have hmem : e ∈ (paidFile e).enrollments := List.mem_singleton.2 rfl
  exact h ▸ Table.find?_key hmem

/-- The offer has one programme, of one year. -/
theorem asEnrolled_firstYear :
    AsEnrolled (paidFile firstYear) ⟨1, 11, 5, .ENROLLED, none, none, none, none, none, none, 0⟩
      ⟨5, 7, some 8, 100, none, none, true, none⟩ firstYear := by
  intro program academicYear henrols
  obtain rfl := List.mem_singleton.1 henrols.program.1
  obtain rfl := List.mem_singleton.1 henrols.academicYear.1
  decide +kernel

/-- A first-year enrolment is kept when the application is enrolled once more, and paid for. -/
theorem replay_keeps_enrollment_iff_firstYear :
    (updateStatus 1 { status := .ENROLLED } 9).wp model
        (fun _ _ s' => firstYear ∈ s'.enrollments) (fun _ _ s' => firstYear ∈ s'.enrollments) none
        (paidFile firstYear) ∧
      (reconcilePayment 70 none).wp model
        (fun _ _ s' => firstYear ∈ s'.enrollments) (fun _ _ s' => firstYear ∈ s'.enrollments) none
        (paidFile firstYear) := by
  have h := replay_keeps_enrollment_iff (enrolledFile_paidFile firstYear rfl)
  exact ⟨(h.1 9 { status := .ENROLLED } rfl).2 fun _ => asEnrolled_firstYear,
    (h.2 rfl 70 none _ ⟨rfl, rfl⟩).2 fun _ => asEnrolled_firstYear⟩

/-- A third-year enrolment is set back to the first year. -/
theorem not_replay_keeps_enrollment :
    ¬ ∀ (s : World) (app : Application) (offer : Offer) (e : StudentEnrollment),
      EnrolledFile s app offer e →
      (∀ (userId : Id) (dto : UpdateApplicationStatusDto), dto.status = app.status →
        (updateStatus app.id dto userId).wp model (fun _ _ s' => e ∈ s'.enrollments)
          (fun _ _ s' => e ∈ s'.enrollments) none s) ∧
      (app.status = .ENROLLED → ∀ (ref : Id) (expectedAmount : Option Rat) (pay : Payment),
        DeliveryFor s ref pay app.id →
        (reconcilePayment ref expectedAmount).wp model (fun _ _ s' => e ∈ s'.enrollments)
          (fun _ _ s' => e ∈ s'.enrollments) none s) := by
  intro hall
  let e : StudentEnrollment := ⟨11, 7, 8, 3, 3, "Année 3 · Droit · 2024-2025", .ACTIVE⟩
  have h := enrolledFile_paidFile e rfl
  have has := asEnrolled_of_updateStatus h rfl ((hall _ _ _ _ h).1 9 { status := .ENROLLED } rfl)
    ⟨⟨⟨1, 11, 5, .ENROLLED, none, none, none, none, none, none, 0⟩,
      ⟨5, 7, some 8, 100, none, none, true, none⟩, ⟨11, 21⟩⟩, ⟨rfl, rfl, rfl⟩, .inl rfl⟩
  have heq := has ⟨8, 7, "Droit", true⟩ ⟨3, 7, "2024-2025", true⟩
    ⟨rfl, ⟨Table.mem_of_find? (k := 8) rfl, rfl, rfl⟩, Table.mem_of_find? (k := 3) rfl, rfl, rfl⟩
  exact absurd (congrArg StudentEnrollment.programLevel heq) (by decide)

end GetPlatform.Admission
