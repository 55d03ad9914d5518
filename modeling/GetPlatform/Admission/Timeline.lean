import GetPlatform.Admission.Intake
import GetPlatform.Admission.Replay
import GetPlatform.Admission.StatusMachine

set_option autoImplicit false

/-! # The timeline of an application

Whoever changes the status of an application adds an entry to its timeline. Decisions, payments and
submissions do both in one transaction. A test, an interview and a score are recorded with two
statements, and the second can fail when the first has been carried out. A payment that is confirmed
although another one was writes an entry with a status of its own. -/

namespace GetPlatform.Admission

open Prog

/-- The most recent entry of an application. -/
def lastEntry (timeline : List TimelineEntry) (applicationId : Id) : Option TimelineEntry :=
  (timeline.filter (·.applicationId = applicationId)).getLast?

/-- Every application has the status that its most recent entry says. -/
def TimelineAgrees (s : World) : Prop :=
  ∀ app ∈ s.applications, (lastEntry s.timeline app.id).map (·.status) = some app.status

/-! ## Adding entries -/

section Entries

variable {s s' : World} {a : Id} {st : ApplicationStatus} {es : List TimelineEntry}

theorem lastEntry_append_ne (timeline : List TimelineEntry) {id : Id}
    (hes : ∀ e ∈ es, e.applicationId ≠ id) :
    lastEntry (timeline ++ es) id = lastEntry timeline id := by
  have hnone : es.filter (·.applicationId = id) = [] :=
    List.filter_eq_nil_iff.2 fun e he => by simpa using hes e he
  rw [lastEntry, List.filter_append, hnone, List.append_nil]
  rfl

theorem lastEntry_append (timeline : List TimelineEntry) (hne : es ≠ [])
    (hes : ∀ e ∈ es, e.applicationId = a ∧ e.status = st) :
    (lastEntry (timeline ++ es) a).map (·.status) = some st := by
  have hall : es.filter (·.applicationId = a) = es :=
    List.filter_eq_self.2 fun e he => by simpa using (hes e he).1
  rw [lastEntry, List.filter_append, hall, List.getLast?_append_of_ne_nil _ hne,
    List.getLast?_eq_some_getLast hne, Option.map_some, (hes _ (List.getLast_mem hne)).2]

/-- Applications that keep their status agree with a timeline that stays as it is. -/
theorem TimelineAgrees.of_statuses (h : TimelineAgrees s) (htimeline : s'.timeline = s.timeline)
    (happs : ∀ app' ∈ s'.applications, ∃ app ∈ s.applications,
      app.id = app'.id ∧ app.status = app'.status) : TimelineAgrees s' := by
  intro app' happ'
  obtain ⟨app, happ, hid, hst⟩ := happs app' happ'
  rw [htimeline, ← hid, ← hst]
  exact h app happ

/-- Entries of one application are added, and this application has the status they say. -/
theorem TimelineAgrees.of_entries (h : TimelineAgrees s) (hne : es ≠ [])
    (hes : ∀ e ∈ es, e.applicationId = a ∧ e.status = st)
    (htimeline : s'.timeline = s.timeline ++ es)
    (hself : ∀ app' ∈ s'.applications, app'.id = a → app'.status = st)
    (hother : ∀ app' ∈ s'.applications, app'.id ≠ a → app' ∈ s.applications) :
    TimelineAgrees s' := by
  intro app' happ'
  rw [htimeline]
  by_cases hid : app'.id = a
  · rw [hid, lastEntry_append _ hne hes, hself app' happ' hid]
  · rw [lastEntry_append_ne _ fun e he heq => hid (heq.symm.trans (hes e he).1)]
    exact h app' (hother app' happ' hid)

/-- The application of the entries is the one that is updated. -/
theorem TimelineAgrees.of_set {data : ApplicationData} (h : TimelineAgrees s) (hne : es ≠ [])
    (hes : ∀ e ∈ es, e.applicationId = a ∧ e.status = data.status)
    (htimeline : s'.timeline = s.timeline ++ es)
    (happs : s'.applications = setApplication s.applications (a, data)) : TimelineAgrees s' := by
  have hfind : ∀ app' ∈ s'.applications, ∃ app, s.applications.find? app'.id = some app ∧
      (a = app'.id ∧ app' = data.set app ∨ a ≠ app'.id ∧ app' = app) := fun app' happ' =>
    of_setApplication (happs ▸ Table.find?_key happ')
  refine h.of_entries hne hes htimeline (fun app' happ' hid => ?_) fun app' happ' hid => ?_
  · obtain ⟨app, -, ⟨-, hset⟩ | ⟨hnot, -⟩⟩ := hfind app' happ'
    · rw [hset]
      rfl
    · exact absurd hid.symm hnot
  · obtain ⟨app, happ, ⟨heq, -⟩ | ⟨-, rfl⟩⟩ := hfind app' happ'
    · exact absurd heq.symm hid
    · exact Table.mem_of_find? happ

/-- An entry is added for an application that has the status it says. -/
theorem TimelineAgrees.of_note (h : TimelineAgrees s) {e : TimelineEntry}
    (htimeline : s'.timeline = s.timeline ++ [e]) (happs : s'.applications = s.applications)
    (hst : ∀ app, s.applications.find? e.applicationId = some app → app.status = e.status) :
    TimelineAgrees s' := by
  have hes : ∀ x ∈ [e], x.applicationId = e.applicationId ∧ x.status = e.status := by simp
  refine h.of_entries (List.cons_ne_nil e []) hes htimeline (fun app' happ' hid => ?_)
    fun app' happ' _ => happs ▸ happ'
  rw [happs] at happ'
  exact hst app' (hid ▸ Table.find?_key happ')

end Entries

/-! ## Decisions -/

section Decisions

variable {s s' : World} {applicationId : Id} {status : ApplicationStatus}

theorem Ruled.timelineAgrees (hruled : Ruled s applicationId status s') (h : TimelineAgrees s) :
    TimelineAgrees s' := by
  cases hruled with
  | untouched happs htimeline =>
      exact h.of_statuses htimeline fun app' happ' => ⟨app', happs ▸ happ', rfl, rfl⟩
  | moved _ hdata _ _ _ happs htimeline hne hes =>
      exact h.of_set hne (hdata ▸ hes) htimeline happs
  | @promoted app next data data' entry entry' _ hdata _ _ hdata' happs htimeline hentry hentry' =>
      -- The decision, and then the promotion.
      let mid : World := { s with
        applications := setApplication s.applications (applicationId, data)
        timeline := s.timeline ++ [entry] }
      have hmid : TimelineAgrees mid :=
        h.of_set (List.cons_ne_nil entry []) (by simpa [hdata] using hentry) rfl rfl
      exact hmid.of_set (List.cons_ne_nil entry' []) (by simpa [hdata'] using hentry') htimeline happs

theorem updateStatus_timeline {userId : Id} {dto : UpdateApplicationStatusDto}
    (h : TimelineAgrees s) :
    (updateStatus applicationId dto userId).wp model (fun _ _ s' => TimelineAgrees s')
      (fun _ _ s' => TimelineAgrees s') none s :=
  updateStatus_wp h fun _ _ _ _ _ hruled => hruled.timelineAgrees h

end Decisions

/-! ## Submissions -/

section Submissions

variable {s : World} {E : Err → Option World → World → Prop} {saved : Option World}

@[simp] theorem wp_file {q : DeskStmt} {Q : DeskAns q → Option World → World → Prop} :
    @Prog.wp deskInterface Err (no_index (DeskAns q)) desk (file q) Q E saved s ↔
      (∀ f, E (.database f) saved s) ∧
        ∀ c a, deskExec q c s = some a →
          Q a saved (desk.applyAll ((deskWrites q a).map .inr) s) := Iff.rfl

@[simp] theorem wp_usual {α : Type} {Q : α → Option World → World → Prop} (p : Call α) :
    @Prog.wp deskInterface Err α desk (usual p) Q E saved s ↔ p.wp model Q E saved s :=
  wp_lift (N := deskStatements) p saved s

theorem isPast_wp {deadline : Option Nat} {Q : Bool → Option World → World → Prop}
    (hE : ∀ e, E e saved s) (hQ : ∀ b, Q b saved s) : (isPast deadline).wp model Q E saved s := by
  cases deadline with
  | none => exact hQ false
  | some deadline =>
      simp only [isPast, bind_eq, pure_eq, wp_handle, wp_send, wp_fail, wp_ret]
      exact ⟨fun _ => hE _, fun _ _ _ => hQ _⟩

/-- An application that is created comes with its first entry. -/
theorem TimelineAgrees.of_created {s' : World} {row : Application} {e : TimelineEntry}
    (h : TimelineAgrees s) (hnew : s.applications.contains row.id = false)
    (hid : e.applicationId = row.id) (hst : e.status = row.status)
    (happs : s'.applications = s.applications.insert row)
    (htimeline : s'.timeline = s.timeline ++ [e]) : TimelineAgrees s' := by
  have hes : ∀ x ∈ [e], x.applicationId = row.id ∧ x.status = row.status := by simp [hid, hst]
  refine h.of_entries (List.cons_ne_nil e []) hes htimeline (fun app' happ' hself => ?_)
    fun app' happ' hother => ?_
  · rw [happs, Table.mem_insert hnew] at happ'
    rcases happ' with hold | rfl
    · exact absurd (Option.isSome_iff_exists.2 ⟨app', hself ▸ Table.find?_key hold⟩)
        (Bool.eq_false_iff.1 hnew)
    · rfl
  · rcases Table.mem_of_mem_insert (happs ▸ happ') with hold | rfl
    · exact hold
    · exact absurd rfl hother

theorem createApplication_timeline {studentId offerId : Id}
    {Q : Application → Option World → World → Prop} (h : TimelineAgrees s)
    (hE : ∀ e s', E e saved s') (hQ : ∀ r s', TimelineAgrees s' → Q r saved s') :
    (createApplication studentId offerId).wp desk Q E saved s := by
  simp only [createApplication, bind_eq, pure_eq, wp_handle, wp_file, wp_usual, wp_send, wp_fail,
    wp_ret]
  refine ⟨fun _ => hE _ _, fun c row hrow => ⟨fun _ => hE _ _, fun _ _ _ => hQ _ _ ?_⟩⟩
  cases c <;> simp only [deskExec, reduceCtorEq] at hrow
  split at hrow
  · cases hrow
  · next id hno =>
      obtain rfl := Option.some.inj hrow
      refine h.of_created (Bool.eq_false_iff.2 fun hold => hno (.inl ?_)) rfl rfl rfl rfl
      obtain ⟨old, hold⟩ := Option.isSome_iff_exists.1 hold
      refine List.any_eq_true.2 ⟨old, Table.mem_of_find? hold, ?_⟩
      exact decide_eq_true (.inl (Table.key_of_find? hold))

/-- A submission for one offer, in which nothing can be left half done. -/
theorem submitTo_timeline {student : Student} {offerId : Id} {results : Submissions}
    {Q : Submissions → Option World → World → Prop} (h : TimelineAgrees s)
    (hE : ∀ e s', TimelineAgrees s' → E e none s')
    (hQ : ∀ r s', TimelineAgrees s' → Q r none s') :
    (submitTo student offerId results).wp desk Q E none s := by
  simp only [submitTo, bind_eq, pure_eq, wp_handle, wp_file, wp_fail]
  refine ⟨fun _ => hE _ _ h, fun _ found _ => ?_⟩
  cases found with
  | none => exact hQ _ _ h
  | some offer =>
      simp only [wp_handle, wp_usual]
      refine isPast_wp (fun _ => hE _ _ h) fun past => ?_
      simp only [wp_ite, wp_ret, wp_handle, wp_file, wp_fail]
      refine ⟨fun _ => hQ _ _ h, fun _ => ⟨fun _ => hE _ _ h, fun _ existing _ =>
        ⟨fun _ => hQ _ _ h, fun _ => (wp_transaction ..).2 ?_⟩⟩⟩
      refine createApplication_timeline h (fun _ _ => hE _ _ h) fun row s' hs' =>
        ⟨fun _ => hE _ _ h, ?_⟩
      simp only [wp_handle, wp_usual]
      exact notifyStatusChange_wp (hQ _ _ hs')

theorem submitToAll_timeline {student : Student} (offerIds : List Id) {results : Submissions}
    {Q : Submissions → Option World → World → Prop} (h : TimelineAgrees s)
    (hE : ∀ e s', TimelineAgrees s' → E e none s')
    (hQ : ∀ r s', TimelineAgrees s' → Q r none s') :
    (submitToAll student offerIds results).wp desk Q E none s := by
  induction offerIds generalizing s results with
  | nil => exact hQ _ _ h
  | cons offerId offerIds ih =>
      simp only [submitToAll, bind_eq, wp_handle]
      exact submitTo_timeline h hE fun _ _ hs' => ih hs'

theorem submitApplications_timeline {studentId : Id} {offerIds : List Id} (h : TimelineAgrees s) :
    (submitApplications studentId offerIds).wp desk (fun _ _ s' => TimelineAgrees s')
      (fun _ _ s' => TimelineAgrees s') none s := by
  simp only [submitApplications, bind_eq, throw_eq, wp_handle, wp_usual, wp_send, wp_fail]
  refine ⟨fun _ => h, fun _ found _ => ?_⟩
  cases found with
  | none => exact h
  | some student => exact submitToAll_timeline offerIds h (fun _ _ hs' => hs') fun _ _ hs' => hs'

/-- An edit of an offer has nothing to do with applications. -/
theorem updateOffer_timeline {id userId : Id} {dto : UpdateOfferDto} (h : TimelineAgrees s) :
    (updateOffer id dto userId).wp desk (fun _ _ s' => TimelineAgrees s')
      (fun _ _ s' => TimelineAgrees s') none s := by
  simp only [updateOffer, findOne, bind_eq, throw_eq, pure_eq, wp_handle, wp_file, wp_fail]
  refine ⟨fun _ => h, fun _ found _ => ?_⟩
  cases found with
  | none => exact h
  | some offer =>
      simp only [wp_ret, wp_usual, ensureCanManageSchool, bind_eq, throw_eq, pure_eq, wp_handle,
        wp_send, wp_fail, wp_ite]
      have hedit : ∀ s', TimelineAgrees s' → ((checkProgram offer.schoolId dto.programId).wp model
          (fun _ saved s' => (∀ f : Failure, TimelineAgrees s') ∧ ∀ c a,
            deskExec (.offerUpdate id dto) c s' = some a →
              TimelineAgrees (desk.applyAll ((deskWrites (.offerUpdate id dto) a).map .inr) s'))
          (fun _ _ s' => TimelineAgrees s') none s') := by
        intro s' hs'
        unfold checkProgram
        split
        · simp only [bind_eq, throw_eq, pure_eq, wp_handle, wp_send, wp_fail]
          refine ⟨fun _ => hs', fun _ found _ => ?_⟩
          cases found with
          | none => exact hs'
          | some program => exact ⟨fun _ => hs', fun _ _ _ => hs'⟩
        · exact ⟨fun _ => hs', fun _ _ _ => hs'⟩
      exact ⟨fun _ => h, fun _ _ _ => ⟨fun _ => hedit _ h, fun _ => ⟨fun _ => hedit _ h,
        fun _ => h⟩⟩⟩

end Submissions

/-! ## Tests, interviews and scores -/

section Moves

variable {s s' : World}

/-- The call wrote the status, and the statement after it failed. -/
def cutAfterUpdate : List (Except Failure Choice) → Bool
  | .ok _ :: .ok _ :: .ok _ :: .error _ :: _ => true
  | _ => false

/-- What a call that moves an application leaves behind. -/
inductive Moved (s : World) (applicationId userId : Id) (status : ApplicationStatus)
    (cs : List (Except Failure Choice)) (s' : World) : Prop
  | untouched : s'.applications = s.applications → s'.timeline = s.timeline →
      Moved s applicationId userId status cs s'
  | entered {data : ApplicationData} {e : TimelineEntry} : data.status = status →
      s'.applications = setApplication s.applications (applicationId, data) →
      s'.timeline = s.timeline ++ [e] → e.applicationId = applicationId ∧ e.status = status →
      Moved s applicationId userId status cs s'
  /-- The status is written, and the entry is not. -/
  | cut {row : ApplicationWithOffer} {data : ApplicationData} : Loaded s applicationId row →
      Manages s row userId → ValidTransition row.status status → data.status = status →
      s'.applications = setApplication s.applications (applicationId, data) →
      s'.timeline = s.timeline → cutAfterUpdate cs = true →
      Moved s applicationId userId status cs s'

theorem alone_ensureCanManageApplication {α : Type} {row : ApplicationWithOffer} {userId : Id}
    {f : Unit → Call α} {g : Err → Call α} {cs : List (Except Failure Choice)} {r : Except Err α}
    (h : ((ensureCanManageApplication row userId).handle f g).alone (M := model) none s cs =
      some (r, s')) :
    (∃ e cs', (g e).alone (M := model) none s cs' = some (r, s')) ∨
      ∃ c cs', cs = .ok c :: cs' ∧ Manages s row userId ∧
        (f ()).alone (M := model) none s cs' = some (r, s') := by
  simp only [ensureCanManageApplication, bind_eq, throw_eq, pure_eq, handle_handle] at h
  obtain ⟨_, cs', rfl, h⟩ | ⟨c, cs', user, rfl, huser, h⟩ := alone_query h
  · exact .inl ⟨_, cs', h⟩
  · obtain rfl := Option.some.inj huser
    split at h
    · next hadmin => exact .inr ⟨c, cs', rfl, .inl hadmin, h⟩
    · split at h
      · next hschool => exact .inr ⟨c, cs', rfl, .inr hschool, h⟩
      · exact .inl ⟨_, cs', h⟩

theorem moveTo_moved {applicationId userId : Id} {status : ApplicationStatus}
    {data : ApplicationWithOffer → ApplicationData} {note : Note}
    {cs : List (Except Failure Choice)} {r : Except Err Application}
    (h : (moveTo applicationId userId status data note).alone (M := model) none s cs =
      some (r, s')) : Moved s applicationId userId status cs s' := by
  have hfail : ∀ {t : World} {e : Err} (cs' : List (Except Failure Choice)),
      (Prog.fail e : Call Application).alone (M := model) none t cs' = some (r, s') → s' = t :=
    fun _ h => (Prod.mk.inj (Option.some.inj h)).2.symm
  have hsame : s' = s → Moved s applicationId userId status cs s' := by
    rintro rfl
    exact .untouched rfl rfl
  simp only [moveTo, bind_eq, throw_eq, pure_eq] at h
  obtain ⟨_, cs₁, rfl, h₁⟩ | ⟨c₁, cs₁, found, rfl, hfound, h₁⟩ := alone_query h
  · exact hsame (hfail cs₁ h₁)
  cases found with
  | none => exact hsame (hfail cs₁ h₁)
  | some row =>
      have hfound := (loaded_iff (c := c₁)).1 hfound
      obtain ⟨_, cs', h₂⟩ | ⟨c₂, cs₂, rfl, hmanages, h₂⟩ :=
        alone_ensureCanManageApplication h₁
      · exact hsame (hfail cs' h₂)
      unfold assertValidTransition at h₂
      split at h₂
      swap
      · exact hsame (hfail cs₂ h₂)
      next hvalid =>
      obtain ⟨_, cs₃, rfl, h₃⟩ | ⟨c₃, cs₃, updated, rfl, hupdated, h₃⟩ := alone_query h₂
      · exact hsame (hfail cs₃ h₃)
      obtain ⟨_, cs₄, rfl, h₄⟩ | ⟨c₄, cs₄, _, rfl, _, h₄⟩ := alone_query h₃
      · obtain rfl := hfail cs₄ h₄
        exact .cut hfound hmanages hvalid rfl rfl rfl rfl
      · refine wp_alone (P := fun _ s' => Moved s applicationId userId status
          (.ok c₁ :: .ok c₂ :: .ok c₃ :: .ok c₄ :: cs₄) s') ?_ h₄
        rw [wp_handle]
        refine notifyStatusChange_wp ?_
        show Moved s applicationId userId status _ _
        exact .entered rfl rfl rfl ⟨rfl, rfl⟩

end Moves

/-! ## Deliveries -/

section Deliveries

variable {s s' : World} {E : Err → Option World → World → Prop} {saved : Option World}

/-- The provider says that the payment is completed. -/
def confirmed : List (Except Failure Choice) → Bool
  | _ :: .ok (.confirmation c) :: _ => c.status = .COMPLETED
  | _ => false

/-- An application whose payment the delivery can complete, although another one was, is ENROLLED. -/
def LateOnlyEnrolled (s : World) (ref : Id) (expectedAmount : Option Rat) : Prop :=
  ∀ pay applicationId app, DeliveryFor s ref pay applicationId → pay.status ≠ .COMPLETED →
    expectedAmount.any (· ≠ pay.amount) = false → s.refFree pay.id (some ref) = true →
    s.transactions.contains pay.id = false → ¬ NoOther s applicationId pay.id →
    s.applications.find? applicationId = some app → app.status = .ENROLLED

/-- The entry of a late payment is right if the application is ENROLLED; every other one is. -/
theorem settleApplication_timeline {pay : Payment} {a : Id} {data : PaymentData}
    {Q : Bool → Option World → World → Prop} (h : TimelineAgrees s)
    (hlate : s.transactions.contains pay.id = false → ¬ NoOther s a pay.id →
      ∀ app, s.applications.find? a = some app → app.status = .ENROLLED)
    (hE : ∀ e s, E e saved s)
    (hQ : ∀ b s', s'.transactions = s.transactions →
      (s.transactions.contains pay.id = false → TimelineAgrees s') → Q b saved s') :
    (settleApplication pay a).wp model Q E saved (World.apply (.payment pay.id data) s) := by
  have hpaid : TimelineAgrees (World.apply (.payment pay.id data) s) := h
  simp only [settleApplication, bind_eq, wp_handle, wp_send, wp_fail]
  refine ⟨fun _ => hE _ _, fun c found hfound => ?_⟩
  cases c <;> simp only [exec, reduceCtorEq, Option.some.injEq] at hfound
  cases found with
  | some other =>
      simp only [wp_handle, wp_send, wp_fail, pure_eq, wp_ret]
      refine ⟨fun _ => hE _ _, fun _ _ _ => hQ _ _ rfl fun hnew => ?_⟩
      refine hpaid.of_note rfl rfl (hlate hnew fun hnone => ?_)
      -- The lookup would have found nothing.
      rw [paymentsIn_claimed hnone, pick_eq_none.2 rfl] at hfound
      cases hfound
  | none =>
      simp only [wp_handle, wp_send, wp_fail]
      refine ⟨fun _ => hE _ _, fun c found hfound => ?_⟩
      cases found with
      | none => exact hQ _ _ rfl fun _ => hpaid
      | some row =>
          have hfile := (applicationFindUnique_of_exec c hfound).1
          obtain rfl : row.id = a := (applicationFindUnique_of_exec c hfound).2.2
          have hsame : ∀ app, s.applications.find? row.id = some app → app.status = row.status :=
            fun app happ => congrArg _ (Option.some.inj (happ.symm.trans hfile))
          simp only [wp_ite, wp_handle, pure_eq]
          refine ⟨fun _ => enrollPaid_wp hE (fun program academicYear t _ _ => hQ _ _ rfl fun _ => ?_)
              fun _ => hQ _ _ rfl fun _ => ?_,
            fun _ => refundClosed_wp hE fun _ _ _ _ => hQ _ _ rfl fun _ => ?_⟩
          · exact hpaid.of_set (List.cons_ne_nil _ []) (by simp) rfl rfl
          · exact hpaid.of_note rfl rfl hsame
          · exact hpaid.of_note rfl rfl hsame

theorem settlePayment_timeline {pay : Payment} {ref : Id} {status : PaymentStatus}
    {txId : Option String} {Q : Payment × Bool → Option World → World → Prop}
    (h : TimelineAgrees s)
    (hlate : status = .COMPLETED → ∀ a, pay.applicationId = some a →
      s.refFree pay.id (some ref) = true → s.transactions.contains pay.id = false →
      ¬ NoOther s a pay.id → ∀ app, s.applications.find? a = some app → app.status = .ENROLLED)
    (hE : ∀ e s, E e saved s) (hQ : ∀ r s', TimelineAgrees s' → Q r saved s') :
    (settlePayment pay ref status txId).wp model Q E saved s := by
  refine settlePayment_wp hE (fun r => hQ _ _ h) (fun _ r data _ => hQ _ _ h)
    fun hcompleted hown r data => ?_
  unfold settleConfirmed
  split
  · next a happ =>
      simp only [bind_eq, pure_eq, wp_handle]
      refine settleApplication_timeline h (hlate hcompleted a happ hown) hE
        fun b s' htxs hend => ?_
      rw [wp_handle]
      exact recordTransaction_wp hE fun hnew _ => hQ _ _ (hend (htxs ▸ hnew))
  · simp only [bind_eq, pure_eq, wp_handle]
    exact recordTransaction_wp hE fun _ _ => hQ _ _ h

theorem reconcilePayment_timeline {ref : Id} {expectedAmount : Option Rat}
    {cs : List (Except Failure Choice)} {r : Except Err Payment} (h : TimelineAgrees s)
    (hlate : confirmed cs = true → LateOnlyEnrolled s ref expectedAmount)
    (halone : (reconcilePayment ref expectedAmount).alone (M := model) none s cs = some (r, s')) :
    TimelineAgrees s' := by
  have hend : ∀ {cs' : List (Except Failure Choice)} {p : Call Payment},
      p.alone (M := model) none s cs' = some (r, s') →
      p.wp model (fun _ _ s' => TimelineAgrees s') (fun _ _ s' => TimelineAgrees s') none s →
      TimelineAgrees s' := fun hout hwp => wp_alone (P := fun _ s' => TimelineAgrees s') hwp hout
  simp only [reconcilePayment, bind_eq, throw_eq, pure_eq] at halone
  obtain ⟨_, cs₁, rfl, h₁⟩ | ⟨c₁, cs₁, found, rfl, hfound, h₁⟩ := alone_query halone
  · exact hend h₁ h
  cases found with
  | none => exact hend h₁ h
  | some pay =>
      have hfound : (s.payments.rows.find? fun p => p.providerRef = some ref) = some pay :=
        Option.some.inj hfound
      by_cases hopen : pay.status = .COMPLETED
      · simp only [if_pos hopen] at h₁
        exact hend h₁ h
      by_cases hamount : expectedAmount.any (· ≠ pay.amount) = true
      · simp only [if_neg hopen, if_pos hamount] at h₁
        exact hend h₁ h
      simp only [if_neg hopen, if_neg hamount] at h₁
      obtain ⟨_, cs₂, rfl, h₂⟩ | ⟨c₂, cs₂, confirmation, rfl, hconfirmation, h₂⟩ := alone_query h₁
      · exact hend h₂ h
      refine hend h₂ ?_
      rw [wp_ite, wp_ret]
      refine ⟨fun _ => h, fun _ => (wp_handle ..).2 ((wp_transaction ..).2 ?_)⟩
      refine settlePayment_timeline h (fun hcompleted a happ hown hnew hother app hfile => ?_)
        (fun _ _ => h) fun r s' hs' => ⟨fun _ => h, ?_⟩
      · refine hlate ?_ pay a app ⟨hfound, happ⟩ hopen (by simpa using hamount) hown hnew hother hfile
        cases c₂ <;> simp only [exec, reduceCtorEq, Option.some.injEq] at hconfirmation
        subst hconfirmation
        by_contra hnot
        rw [if_neg (by simpa [confirmed] using hnot)] at hcompleted
        cases hcompleted
      · rw [wp_ite, wp_ret, wp_handle]
        exact ⟨fun _ => processRefund_wp hs' fun _ _ => hs', fun _ => hs'⟩

theorem createPayment_timeline {studentId a : Id} {amount : Rat} {method : PaymentMethod}
    {reference : Reference} {Q : Payment → Option World → World → Prop} (h : TimelineAgrees s)
    (hE : ∀ e s', E e saved s') (hQ : ∀ r s', TimelineAgrees s' → Q r saved s') :
    (createPayment studentId a amount method reference).wp model Q E saved s := by
  have hswept : ∀ ids : List Id, TimelineAgrees (model.applyAll
      (ids.map (Write.payment · { status := .EXPIRED })) s) := fun ids =>
    @Model.applyAll_keeps _ model TimelineAgrees _ (fun w hw t ht => by
      obtain ⟨id, -, rfl⟩ := List.mem_map.1 hw
      exact ht) s h
  simp only [createPayment, bind_eq, throw_eq, wp_handle, wp_send, wp_fail]
  refine ⟨fun _ => hE _ _, fun _ now _ => ⟨fun _ => hE _ _, fun _ ids _ => ⟨fun _ => hE _ _,
    fun _ found _ => ?_⟩⟩⟩
  cases found with
  | some existing => exact hE _ _
  | none =>
      simp only [wp_handle, wp_send, wp_fail]
      exact ⟨fun _ => hE _ _, fun _ _ _ => ⟨fun _ => hE _ _, fun _ _ _ => hQ _ _ (hswept ids)⟩⟩

/-- A new payment has nothing to do with the status of its application. -/
theorem initiatePayment_timeline {studentId : Id} {dto : InitiatePaymentDto}
    (h : TimelineAgrees s) :
    (initiatePayment studentId dto).wp model (fun _ _ s' => TimelineAgrees s')
      (fun _ _ s' => TimelineAgrees s') none s := by
  simp only [initiatePayment, bind_eq, throw_eq, tryCatch_eq, wp_handle, wp_send, wp_fail]
  refine ⟨fun _ => h, fun _ student _ => ?_⟩
  cases student with
  | none => exact h
  | some student =>
      simp only [wp_handle, wp_send, wp_fail]
      refine ⟨fun _ => h, fun _ found _ => ?_⟩
      cases found with
      | none => exact h
      | some application =>
          simp only [wp_ite, wp_handle, wp_send, wp_fail]
          refine ⟨fun _ => h, fun _ => ⟨fun _ => h, fun _ => ⟨fun _ => h, fun _ => ⟨fun _ => h,
            fun _ now _ => ⟨fun _ => h, fun _ suffix _ => (wp_transaction ..).2 ?_⟩⟩⟩⟩⟩
          refine createPayment_timeline h (fun e _ => ?_) fun payment s' hs' => ⟨fun f => ?_, ?_⟩
          · split <;> exact h
          · split <;> exact h
          · -- The provider is asked, and what it says is written to the payment.
            have hfailed : ∀ (t : World) (e : Err), TimelineAgrees t →
                (markFailed payment.id).wp model
                  (fun _ => (Prog.fail e : Call InitiatedPayment).wp model
                    (fun _ _ s' => TimelineAgrees s') fun _ _ s' => TimelineAgrees s')
                  (fun e => (Prog.fail e : Call InitiatedPayment).wp model
                    (fun _ _ s' => TimelineAgrees s') fun _ _ s' => TimelineAgrees s') none t := by
              intro t e ht
              simp only [markFailed, bind_eq, pure_eq, tryCatch_eq, wp_handle, wp_send, wp_ret]
              exact ⟨fun _ => ht, fun _ _ _ => ht⟩
            simp only [wp_ret, wp_handle, startPayment, bind_eq, pure_eq, wp_send, wp_fail]
            exact ⟨fun f => hfailed _ (.database f) hs', fun _ _ _ =>
              ⟨fun f => hfailed _ (.database f) hs', fun _ _ _ => hs'⟩⟩

end Deliveries

/-! ## Every run -/

/-- The delivery that a call hands on to `reconcilePayment`. -/
def Op.delivery? : Op → Option (Id × Option Rat)
  | .handleWebhook dto .valid => some (dto.providerReference, dto.amount)
  | .handleStripeWebhook delivery =>
      if delivery.stripeActive ∧ delivery.webhookSecret ∧ delivery.rawBody ∧
          delivery.signature = .valid then
        match delivery.event.type with
        | .other _ => none
        | _ => some (delivery.event.sessionId, none)
      else none
  | _ => none

/-- The application, the caller and the status of a call that writes a status outside a transaction. -/
def Op.move? : Op → Option (Id × Id × ApplicationStatus)
  | .scheduleTest applicationId _ userId => some (applicationId, userId, .TEST_SCHEDULED)
  | .scheduleInterview applicationId _ userId => some (applicationId, userId, .INTERVIEW_SCHEDULED)
  | .recordScore applicationId _ _ userId => some (applicationId, userId, .TEST_COMPLETED)
  | _ => none

/-- A call that is cut between the status and its entry finds the status written already. -/
def CutUnmoved (s : World) (applicationId userId : Id) (status : ApplicationStatus) : Prop :=
  ∀ row, Loaded s applicationId row → Manages s row userId → ValidTransition row.status status →
    row.status = status

/-- No call is cut between a new status and its entry, and payments that come late are those of
    applications that are ENROLLED. -/
def entriesWritten : TurnRule desk DeskOp Err DeskReply := fun _ s o cs =>
  match o with
  | .usual o =>
      (∀ m ∈ o.move?, cutAfterUpdate cs = true → CutUnmoved s m.1 m.2.1 m.2.2) ∧
        ∀ d ∈ o.delivery?, confirmed cs = true → LateOnlyEnrolled s d.1 d.2
  | _ => True

section Calls

variable {s s' : World} {cs : List (Except Failure Choice)}

theorem Moved.timelineAgrees {applicationId userId : Id} {status : ApplicationStatus}
    (h : TimelineAgrees s) (hmoved : Moved s applicationId userId status cs s')
    (hcut : cutAfterUpdate cs = true → CutUnmoved s applicationId userId status) :
    TimelineAgrees s' := by
  cases hmoved with
  | untouched happs htimeline =>
      exact h.of_statuses htimeline fun app' happ' => ⟨app', happs ▸ happ', rfl, rfl⟩
  | entered hdata happs htimeline he =>
      exact h.of_set (List.cons_ne_nil _ []) (by simpa [hdata] using he) htimeline happs
  | @cut row data hfound hmanages hvalid hdata happs htimeline hcs =>
      -- The status has been the new one before.
      have hst := hcut hcs row hfound hmanages hvalid
      refine h.of_statuses htimeline fun app' happ' => ?_
      obtain ⟨app, happ, ⟨hid, rfl⟩ | ⟨-, rfl⟩⟩ := of_setApplication (happs ▸ Table.find?_key happ')
      · obtain rfl := Option.some.inj ((hid ▸ hfound.file).symm.trans happ)
        exact ⟨_, Table.mem_of_find? happ, rfl, hst.trans hdata.symm⟩
      · exact ⟨app', Table.mem_of_find? happ, rfl, rfl⟩

/-- A call that hands no delivery on ends where it starts. -/
theorem handleStripeWebhook_timeline {delivery : StripeDelivery} {r : Except Err WebhookReply}
    (h : TimelineAgrees s)
    (hlate : ∀ d ∈ (Op.handleStripeWebhook delivery).delivery?, confirmed cs = true →
      LateOnlyEnrolled s d.1 d.2)
    (halone : (handleStripeWebhook delivery).alone (M := model) none s cs = some (r, s')) :
    TimelineAgrees s' := by
  obtain ⟨active, secret, body, signature, event⟩ := delivery
  have hrefused : ∀ e : Err, (Prog.fail e : Call WebhookReply).alone (M := model) none s cs =
      some (r, s') → TimelineAgrees s' := fun _ hout =>
    (Prod.mk.inj (Option.some.inj hout)).2 ▸ h
  cases active
  · exact hrefused _ halone
  cases secret
  · exact hrefused _ halone
  cases body
  · exact hrefused _ halone
  cases signature with
  | missing => exact hrefused _ halone
  | invalid => exact hrefused _ halone
  | valid =>
      obtain ⟨type, sessionId⟩ := event
      cases type with
      | other type => exact (Prod.mk.inj (Option.some.inj halone)).2 ▸ h
      | checkoutSessionCompleted =>
          obtain ⟨_, hout⟩ := alone_of_map halone
          exact reconcilePayment_timeline h (hlate _ rfl) hout
      | checkoutSessionAsyncPaymentSucceeded =>
          obtain ⟨_, hout⟩ := alone_of_map halone
          exact reconcilePayment_timeline h (hlate _ rfl) hout
      | checkoutSessionAsyncPaymentFailed =>
          obtain ⟨_, hout⟩ := alone_of_map halone
          exact reconcilePayment_timeline h (hlate _ rfl) hout
      | checkoutSessionExpired =>
          obtain ⟨_, hout⟩ := alone_of_map halone
          exact reconcilePayment_timeline h (hlate _ rfl) hout

theorem usual_timeline {o : Op} {r : Except Err Reply} (h : TimelineAgrees s)
    (hcut : ∀ m ∈ o.move?, cutAfterUpdate cs = true → CutUnmoved s m.1 m.2.1 m.2.2)
    (hlate : ∀ d ∈ o.delivery?, confirmed cs = true → LateOnlyEnrolled s d.1 d.2)
    (halone : (prog o).alone (M := model) none s cs = some (r, s')) : TimelineAgrees s' := by
  cases o with
  | updateStatus applicationId dto userId =>
      obtain ⟨_, hout⟩ := alone_of_map halone
      exact wp_alone (P := fun _ s' => TimelineAgrees s') (updateStatus_timeline h) hout
  | scheduleTest applicationId dto userId =>
      obtain ⟨_, hout⟩ := alone_of_map halone
      exact (moveTo_moved hout).timelineAgrees h (hcut _ rfl)
  | scheduleInterview applicationId dto userId =>
      obtain ⟨_, hout⟩ := alone_of_map halone
      exact (moveTo_moved hout).timelineAgrees h (hcut _ rfl)
  | recordScore applicationId score comments userId =>
      obtain ⟨_, hout⟩ := alone_of_map halone
      exact (moveTo_moved hout).timelineAgrees h (hcut _ rfl)
  | initiatePayment studentId dto =>
      obtain ⟨_, hout⟩ := alone_of_map halone
      exact wp_alone (P := fun _ s' => TimelineAgrees s') (initiatePayment_timeline h) hout
  | handleWebhook dto signature =>
      obtain ⟨_, hout⟩ := alone_of_map halone
      cases signature with
      | missing => exact (Prod.mk.inj (Option.some.inj hout)).2 ▸ h
      | invalid => exact (Prod.mk.inj (Option.some.inj hout)).2 ▸ h
      | valid => exact reconcilePayment_timeline h (hlate _ rfl) hout
  | handleStripeWebhook delivery =>
      obtain ⟨_, hout⟩ := alone_of_map halone
      exact handleStripeWebhook_timeline h hlate hout

end Calls

/-- **The timeline agrees with the status.** In every run of the desk in which no call is cut between a
    new status and its entry, and payments that come late are those of applications that are ENROLLED,
    every application has the status of its most recent entry. -/
theorem timeline_agrees {s₀ s : World} {h : List (Turn desk DeskOp Err DeskReply)}
    (h₀ : TimelineAgrees s₀) (hrun : DeskRun entriesWritten s₀ h s) : TimelineAgrees s := by
  induction hrun with
  | start => exact h₀
  | env e _ ih => exact ih
  | @turn h s s' r o cs _ hwritten halone ih =>
      cases o with
      | usual o =>
          obtain ⟨reply, hout⟩ := alone_of_usual halone
          exact usual_timeline ih hwritten.1 hwritten.2 hout
      | updateOffer id dto userId =>
          obtain ⟨_, hout⟩ := alone_of_map halone
          exact wp_alone (P := fun _ s' => TimelineAgrees s') (updateOffer_timeline ih) hout
      | submitApplications studentId offerIds =>
          obtain ⟨_, hout⟩ := alone_of_map halone
          exact wp_alone (P := fun _ s' => TimelineAgrees s') (submitApplications_timeline ih) hout

/-- An open offer, and nobody has applied yet. -/
def openOffer : World :=
  { World.empty with
    users := .ofList [⟨9, some .ADMIN_GET, none⟩]
    students := .ofList [⟨11, 21⟩]
    offers := .ofList [⟨5, 7, none, 100, none, none, true, none⟩] }

/-- A student applies, and a test is scheduled for him; `cs` is what the second call meets. -/
def applyThenTest (cs : List (Except Failure Choice)) :
    List (DeskOp × List (Except Failure Choice)) :=
  [(.submitApplications 11 [5], List.replicate 7 (.ok (.nat 1))),
   (.usual (.scheduleTest 1 { date := "2024-02-10T10:00:00Z", type := "QCM" } 9), cs)]

/-- No call is cut between a status and its entry, and the provider confirms nothing. -/
def uncut : TurnRule desk DeskOp Err DeskReply := fun _ _ _ cs =>
  cutAfterUpdate cs = false ∧ confirmed cs = false

instance (h : List (Turn desk DeskOp Err DeskReply)) (s : World) (o : DeskOp)
    (cs : List (Except Failure Choice)) : Decidable (uncut h s o cs) :=
  inferInstanceAs (Decidable (_ ∧ _))

theorem entriesWritten_of_uncut {h : List (Turn desk DeskOp Err DeskReply)} {s : World}
    {o : DeskOp} {cs : List (Except Failure Choice)} (hR : uncut h s o cs) :
    entriesWritten h s o cs := by
  cases o with
  | usual o =>
      refine ⟨fun _ _ hcut => ?_, fun _ _ hconfirmed => ?_⟩
      · rw [hR.1] at hcut
        cases hcut
      · rw [hR.2] at hconfirmed
        cases hconfirmed
  | _ => trivial

theorem timelineAgrees_openOffer : TimelineAgrees openOffer := fun _ happ => by cases happ

theorem timeline_agrees_test : ∃ h s, DeskRun entriesWritten openOffer h s ∧
    statusOf s 1 = some .TEST_SCHEDULED ∧ TimelineAgrees s := by
  have hplay : ((Journal.play (M := desk) deskProgram uncut [] openOffer
      (applyThenTest (List.replicate 5 (.ok (.nat 1))))).any fun out =>
        statusOf out.2 1 = some .TEST_SCHEDULED) = true := by
    decide +kernel
  obtain ⟨h, s, hrun, hscheduled⟩ := Journal.exists_of_play hplay
  have hwritten : DeskRun entriesWritten openOffer h s :=
    hrun.mono fun _ _ _ _ => entriesWritten_of_uncut
  exact ⟨h, s, hwritten, of_decide_eq_true hscheduled,
    timeline_agrees timelineAgrees_openOffer hwritten⟩

/-- If the entry of the test cannot be written, the timeline still says PENDING. -/
theorem not_timeline_agrees :
    ¬ ∀ (s₀ s : World) (h : List (Turn desk DeskOp Err DeskReply)), TimelineAgrees s₀ →
      DeskRun anyTurn s₀ h s → TimelineAgrees s := by
  intro hall
  have hplay : ((Journal.play (M := desk) deskProgram anyTurn [] openOffer
      (applyThenTest [.ok (.nat 1), .ok (.nat 1), .ok (.nat 1), .error .other])).any fun out =>
        statusOf out.2 1 = some .TEST_SCHEDULED ∧
          (lastEntry out.2.timeline 1).map (·.status) = some .PENDING) = true := by
    decide +kernel
  obtain ⟨h, s, hrun, hcut⟩ := Journal.exists_of_play hplay
  obtain ⟨hstatus, hentry⟩ := of_decide_eq_true hcut
  obtain ⟨app, happ, hst⟩ := Option.map_eq_some_iff.1 hstatus
  have hagrees := hall _ _ _ timelineAgrees_openOffer hrun app (Table.mem_of_find? happ)
  rw [show app.id = 1 from Table.key_of_find? happ, hentry, hst] at hagrees
  cases hagrees

end GetPlatform.Admission
