import GetPlatform.Admission.Capacity
import GetPlatform.Admission.Outcome

set_option autoImplicit false

/-! # Every path into a seat

An application gets a seat by a decision, by a payment, or by the promotion that follows when another
applicant gives up a seat. The first two enrol the student in the same transaction, and the third
does not. None of them ends an enrolment: it outlives the cancellation of its application. -/

namespace GetPlatform.Admission

open Pool Prog

/-! ## What a decision does -/

section Decision

variable {α : Type} {E : Err → Option World → World → Prop} {saved : Option World} {s : World}

/-- `row` is application `id` as a decision reads it, with its offer and its student. -/
structure Loaded (s : World) (id : Id) (row : ApplicationWithOffer) : Prop where
  file : s.applications.find? id = some row.toApplication
  offer : s.offers.find? row.offerId = some row.offer
  student : s.students.find? row.studentId = some row.student

theorem loaded_iff {id : Id} {c : Choice} {row : ApplicationWithOffer} :
    exec (.applicationFindUnique id) c s = some (some row) ↔ Loaded s id row := by
  constructor
  · intro h
    simp only [exec] at h
    split at h
    · simp at h
    · next a ha =>
        simp only [Option.pure_def, Option.bind_eq_bind, Option.bind_eq_some_iff,
          Option.some.injEq] at h
        obtain ⟨offer, hoffer, student, hstudent, rfl⟩ := h
        exact ⟨ha, hoffer, hstudent⟩
  · intro h
    simp [exec, h.file, h.offer, h.student]

/-- The user may decide on the application. -/
def Manages (s : World) (application : ApplicationWithOffer) (userId : Id) : Prop :=
  ((s.users.find? userId).bind (·.role)) = some .ADMIN_GET ∨
    ((s.users.find? userId).bind (·.role)) = some .SCHOOL_ADMIN ∧
      ((s.users.find? userId).bind (·.schoolId)) = some application.offer.schoolId

/-- A direct acceptance found a seat free. -/
def SeatFree (s : World) (app : Application) (status : ApplicationStatus) : Prop :=
  status = .ACCEPTED → app.status ≠ .ACCEPTED → ∀ offer, s.offers.find? app.offerId = some offer →
    ∀ capacity ∈ offer.limit, (occupied s.applications app.offerId : Int) < capacity

/-- What a decision that asks for `status` on application `applicationId` does to the applications and
    their timelines. -/
inductive Ruled (s : World) (applicationId : Id) (status : ApplicationStatus) (s' : World) : Prop
  | untouched : s'.applications = s.applications → s'.timeline = s.timeline →
      Ruled s applicationId status s'
  /-- The application moves, and nobody waits for a seat that it gives up. -/
  | moved {app : Application} {data : ApplicationData} {es : List TimelineEntry} :
      s.applications.find? applicationId = some app → data.status = status →
      ValidTransition app.status status → SeatFree s app status →
      (freesASeat app.status status = true → s.firstWaitlisted app.offerId = []) →
      s'.applications = setApplication s.applications (applicationId, data) →
      s'.timeline = s.timeline ++ es → es ≠ [] →
      (∀ e ∈ es, e.applicationId = applicationId ∧ e.status = status) →
      Ruled s applicationId status s'
  /-- It gives up its seat, and the first waitlisted applicant takes it. -/
  | promoted {app next : Application} {data data' : ApplicationData} {entry entry' : TimelineEntry} :
      s.applications.find? applicationId = some app → data.status = status →
      freesASeat app.status status = true → next ∈ s.firstWaitlisted app.offerId →
      data'.status = .ACCEPTED →
      s'.applications =
        setApplication (setApplication s.applications (applicationId, data)) (next.id, data') →
      s'.timeline = s.timeline ++ [entry] ++ [entry'] →
      entry.applicationId = applicationId ∧ entry.status = status →
      entry'.applicationId = next.id ∧ entry'.status = .ACCEPTED →
      Ruled s applicationId status s'

theorem ensureCanManageApplication_wp {application : ApplicationWithOffer} {userId : Id}
    {Q : Unit → Option World → World → Prop} (hE : ∀ e s', s' = s → E e saved s')
    (hQ : Manages s application userId → Q () saved s) :
    (ensureCanManageApplication application userId).wp model Q E saved s := by
  simp only [ensureCanManageApplication, bind_eq, pure_eq, throw_eq, wp_handle, wp_send, wp_fail,
    wp_ite, wp_ret]
  refine ⟨fun _ => hE _ _ rfl, fun _ user huser => ?_⟩
  obtain rfl := Option.some.inj huser
  exact ⟨fun hadmin => hQ (.inl hadmin), fun _ => ⟨fun hschool => hQ (.inr hschool),
    fun _ => hE _ _ rfl⟩⟩

/-- Notifications change nothing. -/
theorem notifyStatusChange_wp {userId applicationId : Id} {status : ApplicationStatus}
    {Q : Unit → Option World → World → Prop} (hQ : Q () saved s) :
    (notifyStatusChange userId applicationId status).wp model Q E saved s := by
  simp only [notifyStatusChange, tryCatch_eq, pure_eq, wp_handle, wp_send, wp_ret]
  exact ⟨fun _ => hQ, fun _ _ _ => hQ⟩

theorem announce_wp {applicationId userId : Id} {application : ApplicationWithOffer}
    {status : ApplicationStatus} {promoted : Option (Id × Id)}
    {Q : Unit → Option World → World → Prop} (hE : ∀ e, E e saved s) (hQ : Q () saved s) :
    (announce applicationId application status userId promoted).wp model Q E saved s := by
  simp only [announce, bind_eq, wp_handle]
  refine notifyStatusChange_wp ?_
  split
  · simp only [wp_handle]
    exact notifyStatusChange_wp ⟨fun _ => hE _, fun _ _ _ => hQ⟩
  · exact ⟨fun _ => hE _, fun _ _ _ => hQ⟩

theorem checkCapacity_wp {application : ApplicationWithOffer} {status : ApplicationStatus}
    {Q : Unit → Option World → World → Prop} (hE : ∀ e, E e saved s)
    (hQ : (status = .ACCEPTED → application.status ≠ .ACCEPTED →
      ∀ capacity ∈ application.offer.limit,
        (occupied s.applications application.offerId : Int) < capacity) → Q () saved s) :
    (checkCapacity application status).wp model Q E saved s := by
  unfold checkCapacity
  split
  · next capacity hlimit =>
      simp only [bind_eq, pure_eq, throw_eq, wp_handle, wp_send, wp_fail, wp_ite, wp_ret]
      refine ⟨fun _ => ⟨fun _ => hE _, fun c n hn => ⟨fun _ => hE _, fun hfree => hQ ?_⟩⟩,
        fun hno => hQ fun haccepts hnot => absurd ⟨haccepts, hnot⟩ hno⟩
      intro _ _ capacity' hcapacity
      obtain rfl := Option.some.inj (hlimit.symm.trans hcapacity)
      rw [← applicationCount_eq c hn]
      omega
  · next hlimit => exact hQ fun _ _ capacity hcapacity => by simp [hlimit] at hcapacity

theorem enrollAccepted_wp {applicationId userId : Id} {application : ApplicationWithOffer}
    {dto : UpdateApplicationStatusDto} {Q : Unit → Option World → World → Prop}
    (hE : ∀ e s, E e saved s)
    (hyes : ∀ program academicYear t entry,
      entry.applicationId = applicationId ∧ entry.status = dto.status →
      Enrols s application.offer program academicYear →
      Follows (s.withCourses t) application.studentId application.offer.schoolId program.id 1 →
      Q () saved (World.apply (.timeline entry) (s.enrolled
        (enrollmentOf application.studentId application.offer program academicYear) t)))
    (hno : ¬ Enrollable s application.offer →
      ∀ entry, entry.applicationId = applicationId ∧ entry.status = dto.status →
        Q () saved (World.apply (.timeline entry) s)) :
    (enrollAccepted applicationId application dto userId).wp model Q E saved s := by
  simp only [enrollAccepted, bind_eq, wp_handle]
  refine findProgram_wp hE (fun program academicYear h => ?_) fun found hnot hne => ?_
  · rw [wp_handle]
    exact enrollStudent_wp hE fun t ht =>
      ⟨fun _ => hE _ _, fun _ _ _ => hyes program academicYear t _ ⟨rfl, rfl⟩ h ht⟩
  · split
    · next p y => exact absurd rfl (hne p y)
    · exact ⟨fun _ => hE _ _, fun _ _ _ => hno hnot _ ⟨rfl, rfl⟩⟩

/-- A waitlisted applicant is promoted, if there is one, and nobody is enrolled. -/
theorem promoteNext_wp {offerId userId : Id} {Q : Option (Id × Id) → Option World → World → Prop}
    (hE : ∀ e s, E e saved s) (hnone : s.firstWaitlisted offerId = [] → Q none saved s)
    (hQ : ∀ next student data entry r, next ∈ s.firstWaitlisted offerId →
      s.students.find? next.studentId = some student → data.status = .ACCEPTED →
      entry.applicationId = next.id ∧ entry.status = .ACCEPTED →
      Q r saved (World.apply (.timeline entry) (World.apply (.application next.id data) s))) :
    (promoteNext offerId userId).wp model Q E saved s := by
  simp only [promoteNext, bind_eq, pure_eq, wp_handle, wp_send, wp_fail]
  refine ⟨fun _ => hE _ _, fun c found hfound => ?_⟩
  cases found with
  | none =>
      refine hnone ?_
      cases c <;> simp only [exec, reduceCtorEq] at hfound
      split at hfound
      · next hpick => exact pick_eq_none.1 hpick
      · simp [Option.bind_eq_some_iff] at hfound
  | some found =>
      obtain ⟨next, student⟩ := found
      have hnext : next ∈ s.firstWaitlisted offerId ∧
          s.students.find? next.studentId = some student := by
        cases c <;> simp only [exec, reduceCtorEq] at hfound
        split at hfound
        · cases hfound
        · next a hpick =>
            simp only [Option.pure_def, Option.bind_eq_bind, Option.bind_eq_some_iff,
              Option.some.injEq, Prod.mk.injEq] at hfound
            obtain ⟨_, hstudent, rfl, rfl⟩ := hfound
            exact ⟨mem_of_pick hpick, hstudent⟩
      simp only [wp_handle, wp_send, wp_fail, wp_ret]
      exact ⟨fun _ => hE _ _, fun _ t _ => ⟨fun _ => hE _ _, fun _ _ _ => ⟨fun _ => hE _ _,
        fun _ _ _ => hQ next student _ _ _ hnext.1 hnext.2 rfl ⟨rfl, rfl⟩⟩⟩⟩

/-- Moving an application that is not waitlisted to a status other than WAITLISTED leaves the waiting
    list alone. -/
theorem firstWaitlisted_moved {app : Application} {data : ApplicationData}
    (hfile : s.applications.find? app.id = some app) (hold : app.status ≠ .WAITLISTED)
    (hnew : data.status ≠ .WAITLISTED) (offerId : Id) :
    (World.apply (.application app.id data) s).firstWaitlisted offerId =
      s.firstWaitlisted offerId := by
  have hfilter : ((World.apply (.application app.id data) s).applications.rows.filter fun a =>
        a.offerId = offerId ∧ a.status = .WAITLISTED) =
      s.applications.rows.filter fun a => a.offerId = offerId ∧ a.status = .WAITLISTED := by
    refine @Table.filter_rows_modify _ _ _ _ s.applications app.id _ data.key_set _
      fun r hr hid => ?_
    obtain rfl := Option.some.inj ((hid ▸ Table.find?_key hr).symm.trans hfile)
    simp [hold, ApplicationData.set, hnew]
  simp only [World.firstWaitlisted, hfilter]

theorem not_waitlisted_of_freesASeat {st st' : ApplicationStatus} (h : freesASeat st st' = true) :
    st ≠ .WAITLISTED ∧ st' ≠ .WAITLISTED := by
  revert h
  cases st <;> cases st' <;> decide

theorem applyStatusTransaction_wp {applicationId userId : Id} {row : ApplicationWithOffer}
    {dto : UpdateApplicationStatusDto}
    {Q : Application × Option (Id × Id) → Option World → World → Prop}
    (hfound : Loaded s applicationId row) (hvalid : ValidTransition row.status dto.status)
    (hfree : SeatFree s row.toApplication dto.status) (hE : ∀ e s, E e saved s)
    (hQ : ∀ r s', Decided s applicationId dto.status s' → Ruled s applicationId dto.status s' →
      Q r saved s') :
    (applyStatusTransaction applicationId row dto userId (freesASeat row.status dto.status)).wp model
      Q E saved s := by
  have hid : row.id = applicationId := Table.key_of_find? hfound.file
  have hfile := hfound.file
  simp only [applyStatusTransaction, bind_eq, pure_eq, wp_handle, wp_send, wp_fail]
  refine ⟨fun _ => hE _ _, fun _ t _ => ⟨fun _ => hE _ _, fun _ updated _ => ⟨fun _ => hE _ _,
    fun _ _ _ => ?_⟩⟩⟩
  let data : ApplicationData :=
    { status := dto.status, score := dto.score, decisionReason := dto.reason,
      decisionDate := some t }
  by_cases hseat : dto.status.occupies = true
  · -- A decision that gives a seat frees none.
    have hfrees : freesASeat row.status dto.status = false := by
      by_contra h
      rw [Bool.not_eq_false] at h
      simp [(not_occupies_of_freesASeat h).2] at hseat
    simp only [if_pos hseat, hfrees, Bool.false_eq_true, if_false, wp_handle]
    have hruled : ∀ {s' : World} (first entry : TimelineEntry),
        first.applicationId = applicationId ∧ first.status = dto.status →
        entry.applicationId = applicationId ∧ entry.status = dto.status →
        s'.applications = setApplication s.applications (applicationId, data) →
        s'.timeline = s.timeline ++ [first] ++ [entry] → Ruled s applicationId dto.status s' := by
      intro s' first entry hfirst hentry happs htimeline
      refine .moved hfile rfl hvalid hfree (by simp [hfrees]) happs
        (htimeline.trans (List.append_assoc ..)) (by simp) fun e he => ?_
      simp only [List.cons_append, List.nil_append, List.mem_cons, List.not_mem_nil, or_false] at he
      rcases he with rfl | rfl
      · exact hfirst
      · exact hentry
    refine enrollAccepted_wp hE (fun program academicYear t entry hentry h ht => hQ _ _ ?_ ?_)
      fun hno entry hentry => hQ _ _ ?_ ?_
    · exact .enrolled hfile rfl hvalid hseat hfound.offer ⟨h.linked, h.program, h.academicYear⟩ rfl
        rfl ht
    · exact hruled _ entry ⟨rfl, rfl⟩ hentry rfl rfl
    · refine .notEnrolled hfile rfl hvalid hseat hfound.offer ?_ rfl rfl
      rintro ⟨program, academicYear, h⟩
      exact hno ⟨program, academicYear, h.linked, h.program, h.academicYear⟩
    · exact hruled _ entry ⟨rfl, rfl⟩ hentry rfl rfl
  · rw [if_neg hseat]
    rw [Bool.not_eq_true] at hseat
    split
    · next hfrees =>
        obtain ⟨hold, hnew⟩ := not_waitlisted_of_freesASeat hfrees
        rw [wp_handle]
        have hlist : ∀ first, (World.apply (.timeline first)
            (World.apply (.application applicationId data) s)).firstWaitlisted row.offerId =
              s.firstWaitlisted row.offerId := by
          intro first
          rw [← hid] at hfile ⊢
          exact firstWaitlisted_moved hfile hold hnew row.offerId
        refine promoteNext_wp hE (fun hnone => hQ _ _ (.moved hfile rfl hvalid hseat rfl rfl) ?_)
          fun next student data' entry r hnext hstudent hdata' hentry => ?_
        · exact .moved hfile rfl hvalid hfree (fun _ => (hlist _).symm.trans hnone) rfl rfl (by simp)
            (by simp)
        · have hnext : next ∈ s.firstWaitlisted row.offerId := hlist _ ▸ hnext
          exact hQ _ _ (.promoted hfile rfl hvalid hfrees hnext hstudent hdata' rfl rfl rfl rfl)
            (.promoted hfile rfl hfrees hnext hdata' rfl rfl ⟨rfl, rfl⟩ hentry)
    · next hfrees =>
        exact hQ _ _ (.moved hfile rfl hvalid hseat rfl rfl)
          (.moved hfile rfl hvalid hfree (fun h => absurd h hfrees) rfl rfl (by simp) (by simp))

/-- **A decision run alone**: it ends where it started, or the user may decide and it is decided. -/
theorem updateStatus_wp {applicationId userId : Id} {dto : UpdateApplicationStatusDto}
    {P : World → Prop} (hsame : P s)
    (hP : ∀ row s', Loaded s applicationId row → Manages s row userId →
      Decided s applicationId dto.status s' → Ruled s applicationId dto.status s' → P s') :
    (updateStatus applicationId dto userId).wp model (fun _ _ s' => P s') (fun _ _ s' => P s') none
      s := by
  simp only [updateStatus, bind_eq, throw_eq, wp_handle, wp_send, wp_fail]
  refine ⟨fun _ => hsame, fun c found hexec => ?_⟩
  cases found with
  | none => exact hsame
  | some row =>
      have hfound := loaded_iff.1 hexec
      rw [wp_handle]
      refine ensureCanManageApplication_wp (fun _ _ h => h ▸ hsame) fun hmanages => ?_
      simp only [assertValidTransition, pure_eq, throw_eq, wp_handle, wp_ite, wp_ret, wp_fail]
      refine ⟨fun hvalid => ?_, fun _ => hsame⟩
      rw [tryCatch_eq, wp_handle]
      refine (wp_transaction ..).2 ?_
      rw [wp_handle]
      -- Whatever fails in the transaction leaves the state as it was.
      refine checkCapacity_wp (fun e => ?_) fun hcount => applyStatusTransaction_wp hfound hvalid
        (fun haccepts hnot offer hoffer => ?_) (fun e _ => ?_)
        fun r s' hdecided hruled => ⟨fun f => ?_, ?_⟩
      · rw [wp_fail]
        split <;> exact hsame
      · obtain rfl := Option.some.inj (hfound.offer.symm.trans hoffer)
        exact hcount haccepts hnot
      · split <;> exact hsame
      · split <;> exact hsame
      · have hend : P s' := hP row s' hfound hmanages hdecided hruled
        rw [wp_ret, wp_handle]
        exact announce_wp (fun _ => hend) hend

end Decision

/-! ## Whoever is admitted is enrolled -/

section Admitted

variable {s s' : World}

/-- An update changes its own application, and leaves the others alone. -/
theorem of_setApplication {apps : Table Application} {applicationId id : Id}
    {data : ApplicationData} {app' : Application}
    (happ' : (setApplication apps (applicationId, data)).find? id = some app') :
    ∃ app, apps.find? id = some app ∧
      (applicationId = id ∧ app' = data.set app ∨ applicationId ≠ id ∧ app' = app) := by
  rw [setApplication, Table.find?_modify _ _ _ data.key_set] at happ'
  by_cases hid : id = applicationId
  · subst hid
    rw [if_pos rfl] at happ'
    obtain ⟨app, happ, rfl⟩ := Option.map_eq_some_iff.1 happ'
    exact ⟨app, happ, .inl ⟨rfl, rfl⟩⟩
  · rw [if_neg hid] at happ'
    exact ⟨app', happ', .inr ⟨fun h => hid h.symm, rfl⟩⟩

/-- A delivery run alone. -/
theorem reconcilePayment_delivered {ref : Id} {expectedAmount : Option Rat} {P : World → Prop}
    (hP : ∀ s', Delivered s s' → P s') :
    (reconcilePayment ref expectedAmount).wp model (fun _ _ s' => P s') (fun _ _ s' => P s') none
      s := by
  have hsame : P s := hP s (.untouched rfl rfl)
  simp only [reconcilePayment, bind_eq, pure_eq, throw_eq, wp_handle, wp_send, wp_fail]
  refine ⟨fun _ => hsame, fun _ found hfound => ?_⟩
  cases found with
  | none => exact hsame
  | some pay =>
      have hmem : pay ∈ s.payments := List.mem_of_find?_eq_some (Option.some.inj hfound)
      have hpay : s.payments.find? pay.id = some pay := Table.find?_key hmem
      simp only [wp_ite, wp_ret, wp_handle, wp_send, wp_fail]
      refine ⟨fun _ => hsame, fun hopen => ⟨fun _ => hsame, fun _ => ⟨fun _ => hsame,
        fun _ confirmation _ => ⟨fun _ => hsame, fun _ => ?_⟩⟩⟩⟩
      have hnot : ¬ Completed s pay.id := by simpa [Completed, hpay] using hopen
      refine (wp_transaction ..).2 (settlePayment_outcome hnot (fun _ _ => hsame)
        fun r s' hsettled => ⟨fun _ => hsame, ?_⟩)
      have hend := hP s' hsettled.delivered
      split
      · rw [wp_handle]
        exact processRefund_wp hend fun st processedAt =>
          hP _ (hsettled.processed _ st processedAt).delivered
      · exact hend

theorem of_ensureCanManageApplication_wp {application : ApplicationWithOffer} {userId : Id}
    {E : Err → Option World → World → Prop} {saved : Option World}
    {Q : Unit → Option World → World → Prop} (hmanages : Manages s application userId)
    (h : (ensureCanManageApplication application userId).wp model Q E saved s) :
    Q () saved s := by
  simp only [ensureCanManageApplication, bind_eq, pure_eq, throw_eq, wp_handle, wp_send, wp_fail,
    wp_ite, wp_ret] at h
  have h := h.2 (.nat 0) (s.users.find? userId) rfl
  by_cases hadmin : ((s.users.find? userId).bind (·.role)) = some .ADMIN_GET
  · exact h.1 hadmin
  · exact (h.2 hadmin).1 (hmanages.resolve_left hadmin)

theorem of_notifyStatusChange_wp {userId applicationId : Id} {status : ApplicationStatus}
    {E : Err → Option World → World → Prop} {saved : Option World}
    {Q : Unit → Option World → World → Prop}
    (h : (notifyStatusChange userId applicationId status).wp model Q E saved s) :
    Q () saved s := by
  simp only [notifyStatusChange, tryCatch_eq, pure_eq, wp_handle, wp_send, wp_ret] at h
  exact h.1 .other

theorem of_announce_wp {applicationId userId : Id} {application : ApplicationWithOffer}
    {status : ApplicationStatus} {promoted : Option (Id × Id)} {P : World → Prop}
    {saved : Option World}
    (h : (announce applicationId application status userId promoted).wp model
      (fun _ _ s' => P s') (fun _ _ s' => P s') saved s) : P s := by
  simp only [announce, bind_eq, wp_handle] at h
  have h := of_notifyStatusChange_wp h
  split at h
  · simp only [wp_handle] at h
    exact (of_notifyStatusChange_wp h).1 .other
  · exact h.1 .other

end Admitted

end GetPlatform.Admission
