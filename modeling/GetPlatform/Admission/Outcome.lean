import GetPlatform.Admission.Enrolment

set_option autoImplicit false

/-! # What a confirmed payment leads to

A delivery that completes a payment of an application does one of four things, and says so in the
timeline: it enrols the student, refunds the payment of a closed file, reports a second collection,
or reports that there is no programme or year to enrol in. Only the first touches the application
and the enrolments. -/

namespace GetPlatform.Admission

open Pool Prog

/-! ## The four outcomes -/

inductive Outcome where
  | enrolled
  | refunded
  | duplicate
  | notEnrolled
  deriving DecidableEq

/-- The notes that ask a human to look at the file. -/
def Note.alert : Note → Bool
  | .lateWebhook _ => true
  | .confirmedAfterCancellation _ => true
  | .paidNotEnrolled _ => true
  | .notEnrolled _ => true
  | _ => false

/-- From `s` to `s'` the timeline gained `entry`. -/
def Gains (s s' : World) (entry : TimelineEntry) : Prop := s'.timeline = s.timeline ++ [entry]

/-- From `s` to `s'` no application and no enrolment has changed, and the timeline of application `a`
    gained an alert. -/
structure OnlyAlerted (s s' : World) (a : Id) : Prop where
  applications : s'.applications = s.applications
  enrollments : s'.enrollments = s.enrollments
  alert : ∃ entry, Gains s s' entry ∧ entry.applicationId = a ∧ entry.note.alert = true

/-- The amount of the refund of a payment, if it has one. -/
def World.refundOf (s : World) (paymentId : Id) : Option Rat :=
  (s.refunds.find? paymentId).map (·.amount)

/-- Payment `pay` of application `app`, to an offer, was completed from `s` to `s'` with this
    outcome. -/
def Outcome.Holds (s s' : World) (pay : Payment) (app : Application) (offer : Offer) :
    Outcome → Prop
  | .enrolled => ∃ program academicYear, Enrols s offer program academicYear ∧
      (s'.applications.find? app.id).map (·.status) = some .ENROLLED ∧
      s'.enrollments.find? (app.studentId, offer.schoolId) =
        some (enrollmentOf app.studentId offer program academicYear) ∧
      Gains s s' ⟨app.id, .ENROLLED, .enrolled (enrolledYear program academicYear), none⟩
  | .refunded => s'.refundOf pay.id = some pay.amount ∧ OnlyAlerted s s' app.id
  | .duplicate => ¬ NoOther s app.id pay.id ∧ OnlyAlerted s s' app.id
  | .notEnrolled =>
      (NoOther s app.id pay.id ∧ app.status.occupies = true ∧ ¬ Enrollable s offer) ∧
        OnlyAlerted s s' app.id

/-- What the code has checked where it takes each outcome. -/
def Outcome.Taken (s s' : World) (pay : Payment) (app : Application) (offer : Offer) :
    Outcome → Prop
  | .refunded => NoOther s app.id pay.id ∧ app.status.occupies = false
  | .duplicate => s'.refundOf pay.id = s.refundOf pay.id
  | .notEnrolled => s'.refundOf pay.id = s.refundOf pay.id
  | .enrolled => Enrollable s offer

theorem Gains.unique {s s' : World} {entry entry' : TimelineEntry} (h : Gains s s' entry)
    (h' : Gains s s' entry') : entry = entry' :=
  List.singleton_inj.1 (List.append_cancel_left (h.symm.trans h'))

/-- An enrolment is no alert. -/
theorem not_enrolled_of_alerted {s s' : World} {pay : Payment} {app : Application} {offer : Offer}
    (h : OnlyAlerted s s' app.id) : ¬ Outcome.enrolled.Holds s s' pay app offer := by
  rintro ⟨program, academicYear, -, -, -, hgains⟩
  obtain ⟨entry, hentry, -, halert⟩ := h.alert
  rw [hentry.unique hgains] at halert
  cases halert

/-- A payment that had no refund has one outcome only. -/
theorem Outcome.unique {s s' : World} {pay : Payment} {app : Application} {offer : Offer}
    (hnone : s.refundOf pay.id = none) {k : Outcome} (htaken : k.Taken s s' pay app offer)
    (h : k.Holds s s' pay app offer) : ∃! k : Outcome, k.Holds s s' pay app offer := by
  refine ⟨k, h, fun k' h' => ?_⟩
  cases k with
  | enrolled =>
      cases k' with
      | enrolled => rfl
      | refunded => exact absurd h (not_enrolled_of_alerted h'.2)
      | duplicate => exact absurd h (not_enrolled_of_alerted h'.2)
      | notEnrolled => exact absurd h (not_enrolled_of_alerted h'.2)
  | refunded =>
      obtain ⟨hnoOther, hclosed⟩ := htaken
      cases k' with
      | enrolled => exact absurd h' (not_enrolled_of_alerted h.2)
      | refunded => rfl
      | duplicate => exact absurd hnoOther h'.1
      | notEnrolled => simp [h'.1.2.1] at hclosed
  | duplicate =>
      have hno : s'.refundOf pay.id = none := htaken.trans hnone
      cases k' with
      | enrolled => exact absurd h' (not_enrolled_of_alerted h.2)
      | refunded => exact absurd (hno.symm.trans h'.1) (by simp)
      | duplicate => rfl
      | notEnrolled => exact absurd h'.1.1 h.1
  | notEnrolled =>
      have hno : s'.refundOf pay.id = none := htaken.trans hnone
      cases k' with
      | enrolled => exact absurd h' (not_enrolled_of_alerted h.2)
      | refunded => exact absurd (hno.symm.trans h'.1) (by simp)
      | duplicate => exact absurd h.1.1 h'.1
      | notEnrolled => rfl

/-! ## The transaction -/

section Settlement

variable {α : Type} {E : Err → Option World → World → Prop} {saved : Option World} {s : World}

/-- From `s` to `s'` application `app` of `pay` has one of the outcomes. -/
def Concluded (s s' : World) (pay : Payment) (a : Id) : Prop :=
  ∀ app offer, s.applications.find? a = some app → s.offers.find? app.offerId = some offer →
    ∃ k : Outcome, k.Taken s s' pay app offer ∧ k.Holds s s' pay app offer

/-- An application that `s'` has ENROLLED and `s` has not is enrolled, ACTIVE, in the school of its
    offer. -/
def EnrollsWhenEnrolled (s s' : World) : Prop :=
  ∀ a app app', s.applications.find? a = some app → s'.applications.find? a = some app' →
    app.status ≠ .ENROLLED → app'.status = .ENROLLED →
    ∃ offer e, s.offers.find? app.offerId = some offer ∧
      s'.enrollments.find? (app.studentId, offer.schoolId) = some e ∧ e.status = .ACTIVE

theorem Delivered.enrollsWhenEnrolled {s s' : World} (h : Delivered s s') :
    EnrollsWhenEnrolled s s' := by
  intro a app app' happ happ' hnot hst
  cases h with
  | untouched happs henr =>
      rw [happs, happ] at happ'
      exact absurd (Option.some.inj happ' ▸ hst) hnot
  | @enrolled file offer program academicYear hfile hseat hoffer henrols happs henr hfollows =>
      by_cases hid : a = file.id
      · subst hid
        obtain rfl := Option.some.inj (hfile.symm.trans happ)
        exact ⟨offer, _, hoffer, by rw [henr]; exact (Table.find?_put ..).trans (if_pos rfl), rfl⟩
      · rw [happs, setApplication, Table.find?_modify_ne _ _ _ hid, happ] at happ'
        exact absurd (Option.some.inj happ' ▸ hst) hnot

/-- What `enrollPaid` does for an application it has just read. -/
theorem enrollPaid_wp {application : ApplicationWithOffer} {Q : Unit → Option World → World → Prop}
    (hE : ∀ e s, E e saved s)
    (hyes : ∀ program academicYear t, Enrols s application.offer program academicYear →
      Follows (s.withCourses t) application.studentId application.offer.schoolId program.id 1 →
      Q () saved (World.apply (.timeline ⟨application.id, .ENROLLED,
          .enrolled (enrolledYear program academicYear), none⟩)
        ((World.apply (.application application.id { status := .ENROLLED }) s).enrolled
          (enrollmentOf application.studentId application.offer program academicYear) t)))
    (hno : ¬ Enrollable s application.offer →
      Q () saved (World.apply (.timeline ⟨application.id, application.status,
        .paidNotEnrolled (noEnrollmentReason application.offer), none⟩) s)) :
    (enrollPaid application).wp model Q E saved s := by
  simp only [enrollPaid, bind_eq, wp_handle]
  refine findProgram_wp hE (fun program academicYear h => ?_) fun found hnot hne => ?_
  · simp only [wp_handle, wp_send, wp_fail]
    refine ⟨fun _ => hE _ _, fun _ _ _ => enrollStudent_wp hE fun t ht =>
      ⟨fun _ => hE _ _, fun _ _ _ => hyes program academicYear t h ht⟩⟩
  · split
    · next p y => exact absurd rfl (hne p y)
    · exact ⟨fun _ => hE _ _, fun _ _ _ => hno hnot⟩

theorem find_setApplication_self (s : World) (a : Id) (data : ApplicationData) :
    (World.apply (.application a data) s).applications.find? a =
      (s.applications.find? a).map data.set :=
  Table.find?_modify_self _ _ _ data.key_set

theorem settleApplication_outcome {pay : Payment} {a : Id} {data : PaymentData}
    {Q : Bool → Option World → World → Prop} (hE : ∀ e s, E e saved s)
    (hQ : ∀ b s', s'.payments = (World.apply (.payment pay.id data) s).payments →
      Concluded s s' pay a → Delivered s s' → Q b saved s') :
    (settleApplication pay a).wp model Q E saved (World.apply (.payment pay.id data) s) := by
  simp only [settleApplication, bind_eq, wp_handle, wp_send, wp_fail]
  refine ⟨fun _ => hE _ _, fun c found hfound => ?_⟩
  cases c <;> simp only [exec, reduceCtorEq, Option.some.injEq] at hfound
  cases found with
  | some other =>
      simp only [wp_handle, wp_send, wp_fail, pure_eq, wp_ret]
      refine ⟨fun _ => hE _ _, fun _ _ _ => hQ _ _ rfl (fun app offer happ _ => ?_)
        (.untouched rfl rfl)⟩
      obtain rfl : app.id = a := Table.key_of_find? happ
      refine ⟨.duplicate, rfl, fun hnone => ?_, rfl, rfl, _, rfl, rfl, rfl⟩
      -- The lookup would have found nothing.
      rw [paymentsIn_claimed hnone, pick_eq_none.2 rfl] at hfound
      cases hfound
  | none =>
      have hnone : NoOther s a pay.id := by
        by_contra hother
        obtain ⟨other, hother⟩ := pick_paymentsIn_claimed data hother
        rw [pick_eq_none.1 hfound] at hother
        cases hother
      simp only [wp_handle, wp_send, wp_fail]
      refine ⟨fun _ => hE _ _, fun c found hfound => ?_⟩
      cases found with
      | none =>
          refine hQ _ _ rfl (fun app _ happ _ => ?_) (.untouched rfl rfl)
          exact absurd hfound (applicationFindUnique_ne_none c happ)
      | some application =>
          obtain ⟨hfind, hoffer, rfl⟩ := applicationFindUnique_of_exec c hfound
          have hfind : s.applications.find? application.id = some application.toApplication := hfind
          have hoffer : s.offers.find? application.offerId = some application.offer := hoffer
          simp only [wp_ite, wp_handle, pure_eq]
          refine ⟨fun hseat => enrollPaid_wp hE (fun program academicYear t h ht => hQ _ _ rfl ?_
              (.enrolled hfind hseat hoffer ⟨h.linked, h.program, h.academicYear⟩ rfl rfl ht))
            fun hnot => hQ _ _ rfl (fun app offer happ hoffer' => ?_)
              (.untouched rfl rfl),
            fun hclosed => refundClosed_wp hE fun hfree row hrow hamount => hQ _ _ rfl
              (fun app offer happ _ => ?_) (.untouched rfl rfl)⟩
          · intro app offer happ hoffer'
            obtain rfl := Option.some.inj (hfind.symm.trans happ)
            obtain rfl := Option.some.inj (hoffer.symm.trans hoffer')
            have henrols : Enrols s application.offer program academicYear :=
              ⟨h.linked, h.program, h.academicYear⟩
            refine ⟨.enrolled, ⟨_, _, henrols⟩, program, academicYear, henrols, ?_,
              (Table.find?_put ..).trans (if_pos rfl), rfl⟩
            exact congrArg (Option.map Application.status)
              ((find_setApplication_self s application.id { status := .ENROLLED }).trans
                (congrArg _ hfind))
          · obtain rfl := Option.some.inj (hfind.symm.trans happ)
            obtain rfl := Option.some.inj (hoffer.symm.trans hoffer')
            refine ⟨.notEnrolled, rfl, ⟨hnone, hseat, ?_⟩, rfl, rfl, _, rfl, rfl, rfl⟩
            rintro ⟨program, academicYear, h⟩
            exact hnot ⟨program, academicYear, h.linked, h.program, h.academicYear⟩
          · obtain rfl := Option.some.inj (hfind.symm.trans happ)
            refine ⟨.refunded, ⟨hnone, by simpa using hclosed⟩, ?_, rfl, rfl, _, rfl, rfl, rfl⟩
            have hrefund : (s.refunds.insert row).find? pay.id = some row :=
              (Table.find?_insert (by rw [← hfree, ← hrow]; rfl) _).trans (if_pos hrow.symm)
            exact (congrArg (Option.map Refund.amount) hrefund).trans (congrArg some hamount)

/-- What the transaction of a delivery of `pay` leads to. -/
structure Settled (s s' : World) (pay : Payment) : Prop where
  others : ∀ id, id ≠ pay.id → s'.payments.find? id = s.payments.find? id
  concluded : ∀ a, pay.applicationId = some a → Completed s' pay.id → Concluded s s' pay a
  delivered : Delivered s s'

theorem Concluded.of_same {s s' s'' : World} {pay : Payment} {a : Id} (h : Concluded s s' pay a)
    (happs : s''.applications = s'.applications) (henr : s''.enrollments = s'.enrollments)
    (htime : s''.timeline = s'.timeline) (href : s''.refundOf pay.id = s'.refundOf pay.id) :
    Concluded s s'' pay a := by
  intro app offer happ hoffer
  obtain ⟨k, htaken, hholds⟩ := h app offer happ hoffer
  have halert : ∀ {b}, OnlyAlerted s s' b → OnlyAlerted s s'' b := fun h =>
    ⟨happs.trans h.applications, henr.trans h.enrollments, h.alert.imp fun e he =>
      ⟨htime.trans he.1, he.2⟩⟩
  cases k with
  | enrolled =>
      obtain ⟨program, academicYear, henrols, hst, hrow, hgains⟩ := hholds
      exact ⟨.enrolled, htaken, program, academicYear, henrols, happs ▸ hst, henr ▸ hrow,
        htime.trans hgains⟩
  | refunded => exact ⟨.refunded, htaken, href.trans hholds.1, halert hholds.2⟩
  | duplicate => exact ⟨.duplicate, href.trans htaken, hholds.1, halert hholds.2⟩
  | notEnrolled => exact ⟨.notEnrolled, href.trans htaken, hholds.1, halert hholds.2⟩

/-- What `settleConfirmed` is called for has changed nothing but the payment. -/
theorem settleConfirmed_outcome {pay : Payment} {txId : Option String} {data : PaymentData}
    {Q : Bool → Option World → World → Prop} (hE : ∀ e s, E e saved s)
    (hQ : ∀ b s', Settled s s' pay → Q b saved s') :
    (settleConfirmed pay txId).wp model Q E saved (World.apply (.payment pay.id data) s) := by
  have hothers : ∀ id, id ≠ pay.id →
      (World.apply (.payment pay.id data) s).payments.find? id = s.payments.find? id :=
    fun id hid => Table.find?_modify_ne _ _ data.key_set hid
  unfold settleConfirmed
  split
  · next a happ =>
      simp only [bind_eq, pure_eq, wp_handle]
      refine settleApplication_outcome hE fun b s' hpay hconcluded hdelivered => ?_
      rw [wp_handle]
      refine recordTransaction_wp hE fun _ row => hQ _ _ ⟨fun id hid => ?_, fun a' ha' _ => ?_, ?_⟩
      · exact (congrArg (Table.find? · id) hpay).trans (hothers id hid)
      · obtain rfl := Option.some.inj (happ.symm.trans ha')
        exact hconcluded.of_same rfl rfl rfl rfl
      · exact hdelivered.of_same rfl rfl rfl rfl
  · next hnone =>
      simp only [bind_eq, pure_eq, wp_handle]
      refine recordTransaction_wp hE fun _ row => hQ _ _ ⟨hothers, fun a ha _ => ?_,
        .untouched rfl rfl⟩
      cases hnone.symm.trans ha

theorem paidAt_wp {status : PaymentStatus} {Q : Option Nat → Option World → World → Prop}
    (hE : ∀ e s, E e saved s) (hQ : ∀ t, Q t saved s) : (paidAt status).wp model Q E saved s := by
  unfold paidAt
  split
  · simp only [map_eq, wp_handle, wp_send, wp_fail, wp_ret]
    exact ⟨fun _ => hE _ _, fun _ _ _ => hQ _⟩
  · exact hQ _

theorem not_completed_of_set {s : World} {id : Id} {data : PaymentData}
    (h : data.status ≠ .COMPLETED) : ¬ Completed (World.apply (.payment id data) s) id := by
  have hfind : (World.apply (.payment id data) s).payments.find? id =
      (s.payments.find? id).map data.set := Table.find?_modify_self _ _ _ data.key_set
  rw [Completed, hfind]
  cases s.payments.find? id with
  | none => simp
  | some row => simpa [PaymentData.set] using h

theorem refFree_of_claimed {id ref : Id} {data : PaymentData} {c : Choice} {claimed : Nat}
    (hdata : data.providerRef = some ref)
    (hclaimed : exec (.paymentUpdateManyNotCompleted id data) c s = some claimed)
    (hne : claimed ≠ 0) : s.refFree id (some ref) = true := by
  simp only [exec, hdata] at hclaimed
  split at hclaimed
  · exact absurd (Option.some.inj hclaimed).symm hne
  · split at hclaimed
    · exact absurd (Option.some.inj hclaimed).symm hne
    · split at hclaimed
      · assumption
      · cases hclaimed

/-- The transaction of a delivery claims nothing, or records an answer other than COMPLETED, or claims
    a payment under its reference and settles it. -/
theorem settlePayment_wp {pay : Payment} {ref : Id} {status : PaymentStatus}
    {txId : Option String} {Q : Payment × Bool → Option World → World → Prop}
    (hE : ∀ e s, E e saved s) (hnone : ∀ r, Q (r, false) saved s)
    (hother : status ≠ .COMPLETED → ∀ r data, data.status = status →
      Q (r, false) saved (World.apply (.payment pay.id data) s))
    (hsettle : status = .COMPLETED → s.refFree pay.id (some ref) = true → ∀ r data,
      (settleConfirmed pay txId).wp model (fun b => Q (r, b)) E saved
        (World.apply (.payment pay.id data) s)) :
    (settlePayment pay ref status txId).wp model Q E saved s := by
  simp only [settlePayment, bind_eq, wp_handle]
  refine paidAt_wp hE fun t => ?_
  simp only [wp_handle, wp_send, wp_fail, wp_ite, pure_eq, wp_ret]
  refine ⟨fun _ => hE _ _, fun c claimed hclaimed => ⟨fun _ => hE _ _, fun _ updated _ =>
    ⟨fun hno => ?_, fun hyes => ?_⟩⟩⟩
  · by_cases hzero : claimed = 0
    · subst hzero
      exact hnone _
    · simp only [writes, if_neg hzero]
      exact hother (hno.resolve_left hzero) _ _ rfl
  · have hne : claimed ≠ 0 := fun h => hyes (.inl h)
    have hcompleted : status = .COMPLETED := not_not.1 fun h => hyes (.inr h)
    simp only [writes, if_neg hne]
    exact hsettle hcompleted (refFree_of_claimed rfl hclaimed hne) _ _

theorem settlePayment_outcome {pay : Payment} {ref : Id} {status : PaymentStatus}
    {txId : Option String} {Q : Payment × Bool → Option World → World → Prop}
    (hopen : ¬ Completed s pay.id) (hE : ∀ e s, E e saved s)
    (hQ : ∀ r s', Settled s s' pay → Q r saved s') :
    (settlePayment pay ref status txId).wp model Q E saved s := by
  refine settlePayment_wp hE (fun r => hQ _ _ ?_) (fun hst r data hdata => hQ _ _ ?_)
    fun _ _ r data => settleConfirmed_outcome hE fun b s' hsettled => hQ _ _ hsettled
  · exact ⟨fun _ _ => rfl, fun _ _ hc => absurd hc hopen, .untouched rfl rfl⟩
  · exact ⟨fun id hid => Table.find?_modify_ne _ _ (PaymentData.key_set _) hid,
      fun _ _ hc => absurd hc (not_completed_of_set (hdata ▸ hst)), .untouched rfl rfl⟩

/-! ## The delivery -/

/-- After the transaction only the row of a refund is updated. -/
theorem processRefund_wp {id ref : Id} {Q : Unit → Option World → World → Prop}
    (hQ : Q () saved s)
    (hrefund : ∀ status processedAt,
      Q () saved (World.apply (.refund id status processedAt) s)) :
    (processRefund id ref).wp model Q E saved s := by
  simp only [processRefund, bind_eq, pure_eq, tryCatch_eq, wp_handle, wp_send, wp_fail, wp_ret,
    wp_ite]
  exact ⟨fun _ => hQ, fun _ _ _ => ⟨fun _ => ⟨fun _ => hQ, fun _ _ _ => ⟨fun _ => hQ,
    fun _ _ _ => hrefund _ _⟩⟩, fun _ => ⟨fun _ => hQ, fun _ _ _ => hrefund _ _⟩⟩⟩

theorem Settled.processed {s s' : World} {pay : Payment} (h : Settled s s' pay) (id : Id)
    (status : RefundStatus) (processedAt : Option Nat) :
    Settled s (World.apply (.refund id status processedAt) s') pay := by
  refine ⟨h.others, fun a ha hc => (h.concluded a ha hc).of_same rfl rfl rfl ?_,
    h.delivered.of_same rfl rfl rfl rfl⟩
  have hfind : (World.apply (.refund id status processedAt) s').refunds.find? pay.id =
      if pay.id = id then (s'.refunds.find? id).map (Refund.process status processedAt)
      else s'.refunds.find? pay.id :=
    Table.find?_modify _ _ _ (Refund.key_process status processedAt) _
  rw [World.refundOf, hfind]
  split
  · next hid =>
      rw [Option.map_map, hid]
      rfl
  · rfl

/-- From `s` to `s'`: every payment of an application that is completed has one of the outcomes and no
    other, and whoever is ENROLLED by it has an ACTIVE enrolment. -/
structure Traced (s s' : World) : Prop where
  outcome : ∀ pay app offer, s.payments.find? pay.id = some pay → ¬ Completed s pay.id →
    Completed s' pay.id → pay.applicationId = some app.id →
    s.applications.find? app.id = some app → s.offers.find? app.offerId = some offer →
    ∃! k : Outcome, k.Holds s s' pay app offer
  enrolls : EnrollsWhenEnrolled s s'

theorem traced_refl (s : World) : Traced s s :=
  ⟨fun _ _ _ _ hnot hc => absurd hc hnot,
    (Delivered.untouched rfl rfl).enrollsWhenEnrolled⟩

theorem Settled.traced {s s' : World} {pay : Payment} (h : Settled s s' pay)
    (hpay : s.payments.find? pay.id = some pay) (hnone : s.refundOf pay.id = none) :
    Traced s s' := by
  refine ⟨fun x app offer hx hnot hc happ hfile hoffer => ?_, h.delivered.enrollsWhenEnrolled⟩
  by_cases hid : x.id = pay.id
  · obtain rfl : pay = x := Option.some.inj ((hid ▸ hpay).symm.trans hx)
    obtain ⟨k, htaken, hholds⟩ := h.concluded app.id happ hc app offer hfile hoffer
    exact Outcome.unique hnone htaken hholds
  · rw [Completed, h.others x.id hid] at hc
    exact absurd hc hnot

theorem reconcilePayment_traced {ref : Id} {expectedAmount : Option Rat} (hi : Integrity s) :
    (reconcilePayment ref expectedAmount).wp model (fun _ _ s' => Traced s s')
      (fun _ _ s' => Traced s s') none s := by
  have hrefl := traced_refl s
  simp only [reconcilePayment, bind_eq, pure_eq, throw_eq, wp_handle, wp_send, wp_fail]
  refine ⟨fun _ => hrefl, fun _ found hfound => ?_⟩
  cases found with
  | none => exact hrefl
  | some pay =>
      have hmem : pay ∈ s.payments := List.mem_of_find?_eq_some (Option.some.inj hfound)
      have hpay : s.payments.find? pay.id = some pay := Table.find?_key hmem
      simp only [wp_ite, wp_ret, wp_handle, wp_send, wp_fail]
      refine ⟨fun _ => hrefl, fun hopen => ⟨fun _ => hrefl, fun _ => ⟨fun _ => hrefl,
        fun _ confirmation _ => ⟨fun _ => hrefl, fun _ => ?_⟩⟩⟩⟩
      have hnot : ¬ Completed s pay.id := by simpa [Completed, hpay] using hopen
      have hnone : s.refundOf pay.id = none := by
        cases hr : s.refunds.find? pay.id with
        | none => simp [World.refundOf, hr]
        | some r =>
            obtain ⟨p, hp, hst⟩ := hi.refunded r (Table.mem_of_find? hr)
            rw [show r.paymentId = pay.id from Table.key_of_find? hr] at hp
            exact absurd (by simp [Completed, hp, hst]) hnot
      refine (wp_transaction ..).2 (settlePayment_outcome hnot (fun _ _ => hrefl)
        fun r s' hsettled => ⟨fun _ => hrefl, ?_⟩)
      have htraced := hsettled.traced hpay hnone
      split
      · rw [wp_handle]
        exact processRefund_wp htraced fun st processedAt =>
          (hsettled.processed _ st processedAt).traced hpay hnone
      · exact htraced

end Settlement

/-- **A confirmed payment has a traced outcome.** In every reachable state, a delivery that completes a
    payment of an application leads to exactly one of the four outcomes; and whoever a delivery makes
    ENROLLED has an ACTIVE enrolment in the school. -/
theorem confirmed_payment_traced {s₀ : World} (h₀ : Ledger s₀) (hi : Integrity s₀) {p : Platform}
    (hrun : Run prog anyStep (idle s₀) p) (ref : Id) (expectedAmount : Option Rat) :
    (reconcilePayment ref expectedAmount).wp model (fun _ _ s' => Traced p.db s')
      (fun _ _ s' => Traced p.db s') none p.db :=
  reconcilePayment_traced (integrity_holds h₀ hi hrun)

/-- What a delivery meets that the provider confirms, in the branch that enrols. -/
def confirmedDelivery : List (Except Failure Choice) :=
  .ok (.nat 0) :: .ok (.confirmation ⟨.COMPLETED, none⟩) :: List.replicate 15 (.ok (.nat 0))

/-- Application 1 is paid for, and the payment is confirmed. -/
theorem confirmed_payment_traced_paid : ∃ (p : Platform) (s' : World),
    Run prog anyStep (idle enrollableFile) p ∧ ¬ Completed p.db 1 ∧ Completed s' 1 ∧
      Traced p.db s' := by
  have hplay : ((idle enrollableFile : Platform).play prog anyStep
      (createCommands 0 1 ++ startCommands 0 70)).any (fun p =>
        !((p.db.payments.find? 1).any (·.status = .COMPLETED)) &&
        ((reconcilePayment 70 none).alone none p.db confirmedDelivery).any fun out =>
          (out.2.payments.find? 1).any (·.status = .COMPLETED)) = true := by
    decide +kernel
  obtain ⟨p, hrun, h⟩ := exists_run_of_play hplay
  rw [Bool.and_eq_true] at h
  obtain ⟨⟨r, s'⟩, hout, hcompleted⟩ := (Option.any_eq_true ..).1 h.2
  have htraced := wp_alone (P := fun _ s' => Traced p.db s')
    (@confirmed_payment_traced enrollableFile ⟨?_, ?_, ?_⟩ ⟨?_, ?_⟩ p hrun 70 none) hout
  · exact ⟨p, s', hrun, by simpa [Completed] using h.1, hcompleted, htraced⟩
  all_goals rintro _ ⟨⟩

end GetPlatform.Admission
