import GetPlatform.Admission.PaymentService

set_option autoImplicit false

/-! # What the services rely on when they write

For every statement that changes a row, what the call has read or written before it sends that
statement, and for every transaction what it holds when it commits. These are facts about the text
of the services; `prog_conforms` proves them for all calls. -/

namespace GetPlatform.Admission

open Prog

abbrev Log := Trace interface Op

abbrev Ev := Event interface

/-! ## What the events of a call say -/

/-- The status an event read application `a` in. -/
def readStatus (a : Id) : Ev → Option ApplicationStatus
  | ⟨.applicationFindUnique id, some row⟩ => if id = a then some row.status else none
  | ⟨.applicationFindFirstWaitlisted _, some (row, _)⟩ =>
      if row.id = a then some row.status else none
  | _ => none

/-- The statuses a call has read application `a` in. -/
def statusesRead (es : List Ev) (a : Id) : List ApplicationStatus := es.filterMap (readStatus a)

theorem mem_statusesRead {es : List Ev} {a : Id} {row : ApplicationWithOffer}
    (h : (⟨.applicationFindUnique a, some row⟩ : Ev) ∈ es) : row.status ∈ statusesRead es a :=
  List.mem_filterMap.2 ⟨_, h, if_pos rfl⟩

theorem mem_statusesRead_waitlisted {es : List Ev} {offerId : Id} {w : Application}
    {student : Student}
    (h : (⟨.applicationFindFirstWaitlisted offerId, some (w, student)⟩ : Ev) ∈ es) :
    w.status ∈ statusesRead es w.id :=
  List.mem_filterMap.2 ⟨_, h, if_pos rfl⟩

/-- The updates of applications among `es`, in order. -/
def updates (es : List Ev) : List (Id × ApplicationData) :=
  es.filterMap fun e => match e.stmt with
    | .applicationUpdate id data => some (id, data)
    | _ => none

/-- `es` looked payment `pay` up by reference `ref`. -/
def Found (es : List Ev) (ref : Id) (pay : Payment) : Prop :=
  (⟨.paymentFindFirstByRef ref, some pay⟩ : Ev) ∈ es

/-- `es` moved payment `id` to a status by the conditional update. -/
def Claims (es : List Ev) (id : Id) (data : PaymentData) : Prop :=
  ∃ count : Nat, count ≠ 0 ∧ (⟨.paymentUpdateManyNotCompleted id data, count⟩ : Ev) ∈ es

/-- `es` moved the payment it looked up to COMPLETED. -/
def Confirmed (es : List Ev) (pay : Payment) : Prop :=
  ∃ ref data, Found es ref pay ∧ data.status = .COMPLETED ∧ Claims es pay.id data

/-- `es` created payment `row`. -/
def Created (es : List Ev) (row : Payment) : Prop :=
  ∃ data, (⟨.paymentCreate data, row⟩ : Ev) ∈ es

/-- What the confirmation of a payment does to the rest of the world, once each. -/
inductive Effect where
  | enrollment
  | refundRow
  | refundCall
  | timeline
  | transaction
  deriving DecidableEq

def effect : Stmt → Option Effect
  | .enrollmentUpsert _ => some .enrollment
  | .refundCreate _ => some .refundRow
  | .refundPayment _ => some .refundCall
  | .timelineCreate _ => some .timeline
  | .transactionCreate _ => some .transaction
  | _ => none

/-- Does the call deliver a webhook? -/
def Op.delivers : Op → Bool
  | .handleWebhook .. => true
  | .handleStripeWebhook _ => true
  | _ => false

/-- Does the call create a payment? -/
def Op.creates : Op → Bool
  | .initiatePayment .. => true
  | _ => false

/-- Does the call write applications only inside its transaction? -/
def Op.brackets : Op → Bool
  | .updateStatus .. => true
  | op => op.delivers

/-! ## The guards -/

/-- An effect of a delivery comes after the payment was confirmed, and only once. -/
def EffectGuard (l : Log) (q : Stmt) : Prop :=
  ∀ k, effect q = some k → l.op.delivers = true →
    (∃ pay, Confirmed l.events pay) ∧ ∀ e ∈ l.events, effect e.stmt ≠ some k

def stmtGuard (l : Log) : Stmt → Prop
  -- The transition written is one from a status the call has read.
  | .applicationUpdate a data =>
      (l.op.brackets = true → l.tx ≠ none) ∧
        ∃ s ∈ statusesRead l.events a, ValidTransition s data.status
  | .paymentUpdateManyExpired .. => l.op.creates = true ∧ l.Exclusive
  | .paymentCreate data =>
      l.op.creates = true ∧ l.Exclusive ∧ data.status = .PENDING ∧ ∀ row, ¬ Created l.events row
  -- Only the call that created a payment updates it by identifier, and only once.
  | .paymentUpdate id data =>
      l.tx = none ∧ (∃ row, Created l.done row ∧ row.id = id) ∧
        (∀ e ∈ l.done, ∀ id' data', e.stmt ≠ .paymentUpdate id' data') ∧
        (data.status = .PROCESSING ∨ data.status = .FAILED)
  | .paymentFindFirstByRef _ => l.op.delivers = true ∧ l.events = []
  | .paymentUpdateManyNotCompleted id data =>
      l.op.delivers = true ∧ (∃ t, l.tx = some t ∧ ∀ e ∈ t.events, e.stmt = .now) ∧
        (∃ ref pay, Found l.done ref pay ∧ id = pay.id ∧ data.providerRef = some ref) ∧
        (data.status = .COMPLETED ∨ data.status = .FAILED)
  | .transactionCreate row =>
      l.tx ≠ none ∧ ∃ ref pay data, Found l.done ref pay ∧ data.status = .COMPLETED ∧
        Claims l.pending pay.id data ∧ row.paymentId = pay.id ∧ row.type = .PAYMENT ∧
        row.amount = pay.amount
  | .refundCreate row =>
      l.tx ≠ none ∧ ∃ ref pay data, Found l.done ref pay ∧ data.status = .COMPLETED ∧
        Claims l.pending pay.id data ∧ row.paymentId = pay.id
  | _ => True

/-- An acceptance on a limited offer starts its transaction with a count that finds a seat. -/
def SeatCounted (row : ApplicationWithOffer) (next : ApplicationStatus) (es : List Ev) : Prop :=
  next = .ACCEPTED → row.status ≠ .ACCEPTED → ∀ capacity, row.offer.limit = some capacity →
    ∃ (n : Nat) (suf : List Ev), (n : Int) < capacity ∧
      es = ⟨.applicationCount row.offerId [.ACCEPTED, .ENROLLED], n⟩ :: suf

/-- The transaction `es` of a decision on application `a` writes the status asked for, and after it
    promotes a waitlisted applicant if the decision frees a seat. -/
def Decides (row : ApplicationWithOffer) (a : Id) (next : ApplicationStatus) (es : List Ev) : Prop :=
  ∃ data, data.status = next ∧
    (updates es = [(a, data)] ∨
      freesASeat row.status next = true ∧ ∃ w student data',
        (⟨.applicationFindFirstWaitlisted row.offerId, some (w, student)⟩ : Ev) ∈ es ∧
        data'.status = .ACCEPTED ∧ updates es = [(a, data), (w.id, data')])

/-- The transaction of `updateStatus` on application `a`. -/
def DecisionCommit (l : Log) (a : Id) (dto : UpdateApplicationStatusDto) : Prop :=
  ∃ row, (⟨.applicationFindUnique a, some row⟩ : Ev) ∈ l.done ∧
    ValidTransition row.status dto.status ∧
    (touchesCapacity row.offer row.status dto.status = true → l.Exclusive) ∧
    SeatCounted row dto.status l.pending ∧ Decides row a dto.status l.pending

/-- The delivery looked for another completed payment and found none, or left an alert. -/
def Alerted (pay : Payment) (applicationId : Id) (es : List Ev) : Prop :=
  (⟨.paymentFindFirst applicationId [.COMPLETED] (some pay.id), none⟩ : Ev) ∈ es ∨
    ∃ entry : TimelineEntry, entry.applicationId = applicationId ∧
      entry.note = .lateWebhook pay.reference ∧ (⟨.timelineCreate entry, ()⟩ : Ev) ∈ es

/-- The ledger row of payment `pay` is among what `es` creates. -/
def Recorded (pay : Payment) (es : List Ev) : Prop :=
  ∃ row : Transaction, row.paymentId = pay.id ∧ (⟨.transactionCreate row, ()⟩ : Ev) ∈ es

/-- The conditional update of payment `pay` was sent, and answered. -/
def Tried (es : List Ev) (pay : Payment) : Prop :=
  ∃ data count, (⟨.paymentUpdateManyNotCompleted pay.id data, count⟩ : Ev) ∈ es

/-- How a delivery ends: the payment had been completed before, or the provider has not concluded, or
    the payment was updated. -/
def Reconciled (es : List Ev) (ref : Id) : Prop :=
  ∃ pay, Found es ref pay ∧ (pay.status = .COMPLETED ∨ Tried es pay ∨
    ∃ confirmation : Confirmation, confirmation.status = .PENDING ∧
      (⟨.confirmPayment ref, confirmation⟩ : Ev) ∈ es)

/-- The transaction of a delivery. A payment that is confirmed has its ledger row, and if it has an
    application, the call either found no other completed payment of it or says so. -/
def SettlementCommit (l : Log) : Prop :=
  (∃ id data, Claims l.pending id data ∧ data.status = .COMPLETED) →
    ∃ ref pay, Found l.done ref pay ∧ Recorded pay l.pending ∧
      ∀ applicationId, pay.applicationId = some applicationId →
        Alerted pay applicationId l.pending

/-- The transaction of `initiatePayment`: the sweep, the query that finds nothing in the way, and the
    new payment. -/
def CreationCommit (l : Log) : Prop :=
  ∃ applicationId t ids t' data row, data.applicationId = some applicationId ∧
    data.status = .PENDING ∧ l.Exclusive ∧
    l.pending =
      [⟨.now, t⟩, ⟨.paymentUpdateManyExpired applicationId t, ids⟩,
       ⟨.paymentFindFirst applicationId [.PENDING, .PROCESSING, .COMPLETED] none, none⟩,
       ⟨.now, t'⟩, ⟨.paymentCreate data, row⟩]

def commitGuard (l : Log) : Prop :=
  match l.op with
  | .initiatePayment .. => CreationCommit l
  | .updateStatus a dto _ => DecisionCommit l a dto
  | .handleWebhook .. => SettlementCommit l
  | .handleStripeWebhook _ => SettlementCommit l
  | _ => True

def guards : Guards interface Op where
  stmt l q := EffectGuard l q ∧ stmtGuard l q
  commit := commitGuard

/-! ## Conformance -/

section Conformance

variable {α : Type} {Q : Log → α → Prop} {E : Log → Err → Prop} {l : Log} {o : Op} {d es : List Ev}
  {iso : Isolation}

@[simp] theorem conforms_send {q : Stmt} {Q : Log → Ans q → Prop} :
    @Conforms interface model Err (no_index (Ans q)) Op guards (send q) Q E l ↔
      guards.stmt l q ∧ (∀ f, E l (.database f)) ∧
        ∀ a, model.Possible q a → Q (l.push ⟨q, a⟩) a := Iff.rfl

@[simp] theorem only_send {P : Stmt → Prop} {q : Stmt} :
    @Only interface Err (no_index (Ans q)) P (send q) ↔ P q := only_query (S := interface) _ _

/-- Statements the guards say nothing about. -/
def Plain : Stmt → Prop
  | .applicationUpdate .. => False
  | .paymentUpdateManyExpired .. => False
  | .paymentCreate _ => False
  | .paymentUpdate .. => False
  | .paymentFindFirstByRef _ => False
  | .paymentUpdateManyNotCompleted .. => False
  | .transactionCreate _ => False
  | .refundCreate _ => False
  | _ => True

theorem effectGuard_of_none {q : Stmt} (h : effect q = none) : EffectGuard l q := by
  intro k hk
  simp [h] at hk

theorem guard_of_plain {q : Stmt} (h : Plain q) (he : l.op.delivers = true → effect q = none) :
    guards.stmt l q := by
  refine ⟨fun k hk hd => ?_, ?_⟩
  · simp [he hd] at hk
  · cases q <;> first | exact trivial | exact h.elim

theorem updates_plain (h : ∀ e ∈ es, Plain e.stmt) : updates es = [] := by
  refine List.filterMap_eq_nil_iff.2 fun e he => ?_
  obtain ⟨q, a⟩ := e
  cases q <;> first | rfl | exact (h _ he).elim

/-- Plain statements that are no effect of a confirmation either. -/
def Silent (q : Stmt) : Prop := Plain q ∧ effect q = none

theorem guard_of_silent {q : Stmt} (h : Silent q) : guards.stmt l q :=
  guard_of_plain h.1 fun _ => h.2

/-! ### Parts that change no application -/

theorem only_syncCourseEnrollments (studentId schoolId programId : Id) (level : Nat) :
    (syncCourseEnrollments studentId schoolId programId level).Only Silent := by
  refine Only.handle ?_ (fun courses => Only.handle ?_ (fun _ => Only.forM _ fun id => ?_) ?_) ?_ <;>
    simp [Silent, Plain, effect]

theorem only_findProgram (offer : Offer) : (findProgram offer).Only Silent := by
  unfold findProgram
  cases offer.programId with
  | none => trivial
  | some programId =>
      refine Only.handle ?_ (fun _ => Only.handle ?_ (fun _ => trivial) ?_) ?_ <;>
        simp [Silent, Plain, effect]

theorem only_ensureCanManageApplication (application : ApplicationWithOffer) (userId : Id) :
    (ensureCanManageApplication application userId).Only Silent := by
  refine Only.handle (by simp [Silent, Plain, effect]) (fun user => ?_) fun _ => trivial
  split
  · trivial
  · split <;> trivial

theorem only_notifyStatusChange (userId applicationId : Id) (status : ApplicationStatus) :
    (notifyStatusChange userId applicationId status).Only Silent :=
  Only.handle (by simp [Silent, Plain, effect]) (fun _ => trivial) fun _ => trivial

theorem only_announce (applicationId userId : Id) (application : ApplicationWithOffer)
    (status : ApplicationStatus) (promoted : Option (Id × Id)) :
    (announce applicationId application status userId promoted).Only Silent := by
  have haudit : (send (.auditLogCreate userId applicationId application.status status)).Only
      Silent := by simp [Silent, Plain, effect]
  refine Only.handle (only_notifyStatusChange ..) (fun _ => ?_) fun _ => trivial
  cases promoted with
  | none => exact haudit
  | some next => exact Only.handle (only_notifyStatusChange ..) (fun _ => haudit) fun _ => trivial

theorem only_enrollStudent (studentId : Id) (offer : Offer) (program : SchoolProgram)
    (academicYear : SchoolAcademicYear) :
    (enrollStudent studentId offer program academicYear).Only Plain :=
  Only.handle (by simp [Plain]) (fun _ => (only_syncCourseEnrollments ..).mono fun _ h => h.1)
    fun _ => trivial

theorem only_enrollAccepted (applicationId userId : Id) (application : ApplicationWithOffer)
    (dto : UpdateApplicationStatusDto) :
    (enrollAccepted applicationId application dto userId).Only Plain := by
  refine Only.handle ((only_findProgram _).mono fun _ h => h.1) (fun found => ?_) fun _ => trivial
  split
  · refine Only.handle (only_enrollStudent ..) (fun _ => ?_) fun _ => trivial
    simp [Plain]
  · simp [Plain]

/-- Inside a transaction of a call that delivers no webhook, plain statements change nothing the
    guards look at. -/
theorem conforms_inside {p : Call α} (hp : p.Only Plain) (ho : o.delivers = false)
    (hQ : ∀ es', (∀ e ∈ es', Plain e.stmt) → ∀ a, Q ⟨o, d, some ⟨iso, es ++ es'⟩⟩ a)
    (hE : ∀ es' e, E ⟨o, d, some ⟨iso, es'⟩⟩ e) :
    p.Conforms model guards Q E ⟨o, d, some ⟨iso, es⟩⟩ :=
  hp.conforms_inside (fun _ _ q hq => guard_of_plain hq (by simp [ho])) hQ fun _ _ => hE _

theorem conforms_outside {p : Call α} (hp : p.Only Silent)
    (hQ : ∀ d' a, Q ⟨o, d ++ d', none⟩ a) (hE : ∀ d' e, E ⟨o, d ++ d', none⟩ e) :
    p.Conforms model guards Q E ⟨o, d, none⟩ :=
  hp.conforms_outside (fun _ _ _ hq => guard_of_silent hq) (fun d' _ => hQ d') fun d' _ => hE d'

/-! ### `updateStatus` -/

theorem checkCapacity_conforms {row : ApplicationWithOffer} {next : ApplicationStatus}
    {Q : Log → Unit → Prop} (hE : ∀ es e, E ⟨o, d, some ⟨iso, es⟩⟩ e)
    (hQ : ∀ es, SeatCounted row next es → (∀ e ∈ es, Plain e.stmt) →
      Q ⟨o, d, some ⟨iso, es⟩⟩ ()) :
    (checkCapacity row next).Conforms model guards Q E ⟨o, d, some ⟨iso, []⟩⟩ := by
  unfold checkCapacity
  cases hlimit : row.offer.limit with
  | none => exact hQ [] (fun _ _ c hc => by simp [hlimit] at hc) (by simp)
  | some capacity =>
      simp only [bind_eq, pure_eq, throw_eq, conforms_ite, conforms_handle, conforms_send,
        conforms_ret, conforms_fail, hE, Trace.push_inside, List.nil_append, implies_true, true_and]
      refine ⟨fun _ => ⟨guard_of_silent ⟨trivial, rfl⟩, fun n _ hn => ?_⟩,
        fun hno => hQ [] (fun h₁ h₂ => absurd ⟨h₁, h₂⟩ hno) (by simp)⟩
      refine hQ _ (fun _ _ c hc => ⟨n, [], ?_, rfl⟩) (by simp [Plain])
      rw [hlimit, Option.some.injEq] at hc
      omega

theorem SeatCounted.append {row : ApplicationWithOffer} {next : ApplicationStatus}
    (h : SeatCounted row next es) (es' : List Ev) : SeatCounted row next (es ++ es') := by
  intro h₁ h₂ c hc
  obtain ⟨n, suf, hn, rfl⟩ := h h₁ h₂ c hc
  exact ⟨n, suf ++ es', hn, rfl⟩

@[simp] theorem updates_append (es es' : List Ev) : updates (es ++ es') = updates es ++ updates es' :=
  List.filterMap_append

@[simp] theorem updates_update (a : Id) (data : ApplicationData) (ans : Application) :
    updates [⟨.applicationUpdate a data, ans⟩] = [(a, data)] := rfl

theorem promoteNext_conforms {offerId userId : Id} {Q : Log → Option (Id × Id) → Prop}
    (ho : o.delivers = false) (hE : ∀ es e, E ⟨o, d, some ⟨iso, es⟩⟩ e)
    (hQ : ∀ es' a, updates es' = [] ∨ (∃ w student data,
        (⟨.applicationFindFirstWaitlisted offerId, some (w, student)⟩ : Ev) ∈ es' ∧
        data.status = .ACCEPTED ∧ updates es' = [(w.id, data)]) →
      Q ⟨o, d, some ⟨iso, es ++ es'⟩⟩ a) :
    (promoteNext offerId userId).Conforms model guards Q E ⟨o, d, some ⟨iso, es⟩⟩ := by
  simp only [promoteNext, bind_eq, conforms_handle, conforms_send, conforms_fail, hE,
    Trace.push_inside, implies_true, true_and]
  refine ⟨guard_of_silent ⟨trivial, rfl⟩, fun found hfound => ?_⟩
  cases found with
  | none => exact hQ _ _ (.inl rfl)
  | some next =>
      obtain ⟨w, student⟩ := next
      obtain ⟨c, s, hexec⟩ := hfound
      have hw := (firstWaitlisted_of_exec hexec).2.2
      simp only [pure_eq, conforms_handle, conforms_send, conforms_fail, conforms_ret, hE,
        Trace.push_inside, implies_true, true_and, List.append_assoc]
      refine ⟨guard_of_silent ⟨trivial, rfl⟩, fun now _ =>
        ⟨⟨effectGuard_of_none rfl, by simp, w.status, mem_statusesRead_waitlisted
          (Trace.mem_events.2 (.inr (List.mem_append_right _ (.head _)))), ?_⟩,
          fun a _ => ⟨guard_of_plain trivial (by simp [ho]), fun _ _ => ?_⟩⟩⟩
      · simp [hw, ValidTransition, ApplicationStatus.transitions]
      · refine hQ _ _ (.inr ⟨w, student, _, by simp, ?_, rfl⟩)
        rfl

theorem applyStatusTransaction_conforms {a userId : Id} {row : ApplicationWithOffer}
    {dto : UpdateApplicationStatusDto} {Q : Log → Application × Option (Id × Id) → Prop}
    (ho : o.delivers = false) (hread : (⟨.applicationFindUnique a, some row⟩ : Ev) ∈ d)
    (hvalid : ValidTransition row.status dto.status) (hes : updates es = [])
    (hE : ∀ es e, E ⟨o, d, some ⟨iso, es⟩⟩ e)
    (hQ : ∀ es' r, Decides row a dto.status (es ++ es') →
      Q ⟨o, d, some ⟨iso, es ++ es'⟩⟩ r) :
    (applyStatusTransaction a row dto userId (freesASeat row.status dto.status)).Conforms model guards
      Q E ⟨o, d, some ⟨iso, es⟩⟩ := by
  simp only [applyStatusTransaction, bind_eq, pure_eq, conforms_handle, conforms_send,
    conforms_fail, hE, Trace.push_inside, implies_true, true_and, List.append_assoc,
    List.singleton_append]
  refine ⟨guard_of_silent ⟨trivial, rfl⟩, fun now _ =>
    ⟨⟨effectGuard_of_none rfl, by simp, row.status,
        mem_statusesRead (Trace.mem_events.2 (.inl hread)), hvalid⟩,
      fun updated _ => ⟨guard_of_plain trivial (by simp [ho]), fun _ _ => ?_⟩⟩⟩
  have htail : ∀ es' data, data.status = dto.status → updates es' = [(a, data)] →
      Conforms model guards
        (if freesASeat row.status dto.status = true then
          handle (promoteNext row.offerId userId) (fun promoted => ret (updated, promoted)) fail
        else (ret none).handle (fun promoted => ret (updated, promoted)) fail)
        Q E ⟨o, d, some ⟨iso, es ++ es'⟩⟩ := by
    intro es' data hdata hes'
    by_cases hfree : freesASeat row.status dto.status = true
    · rw [if_pos hfree, conforms_handle]
      refine promoteNext_conforms ho hE fun es'' r hes'' => ?_
      rw [List.append_assoc]
      refine hQ _ _ ⟨data, hdata, ?_⟩
      rcases hes'' with hnone | ⟨w, student, data', hw, hdata', hes''⟩
      · exact .inl (by simp [hes, hes', hnone])
      · exact .inr ⟨hfree, w, student, data', by simp [hw], hdata', by simp [hes, hes', hes'']⟩
    · rw [if_neg hfree]
      exact hQ _ _ ⟨data, hdata, .inl (by simp [hes, hes'])⟩
  have htail := fun es' => htail es'
    { status := dto.status, score := dto.score, decisionReason := dto.reason,
      decisionDate := some now } rfl
  refine (conforms_ite ..).2 ⟨fun _ => ?_, fun _ => htail _ rfl⟩
  rw [conforms_handle]
  refine conforms_inside (only_enrollAccepted ..) ho (fun es' hplain _ => ?_) fun _ _ => hE _ _
  rw [List.append_assoc]
  refine htail _ ?_
  rw [updates_append, updates_plain hplain, List.append_nil]
  rfl

theorem assertValidTransition_conforms {s s' : ApplicationStatus} {Q : Log → Unit → Prop}
    (hE : ∀ e, E l e) (hQ : ValidTransition s s' → Q l ()) :
    (assertValidTransition s s').Conforms model guards Q E l :=
  (conforms_ite ..).2 ⟨hQ, fun _ => hE _⟩

theorem updateStatus_conforms (a userId : Id) (dto : UpdateApplicationStatusDto) :
    (updateStatus a dto userId).Conforms model guards (fun _ _ => True) (fun _ _ => True)
      (.start (.updateStatus a dto userId)) := by
  simp only [updateStatus, bind_eq, throw_eq, tryCatch_eq, conforms_handle, conforms_send,
    conforms_fail, Trace.start_eq, Trace.push_outside, List.nil_append, implies_true, true_and]
  refine ⟨guard_of_silent ⟨trivial, rfl⟩, fun found _ => ?_⟩
  cases found with
  | none => trivial
  | some row =>
      simp only [conforms_handle]
      refine conforms_outside (only_ensureCanManageApplication ..) (fun d' _ => ?_) (by simp)
      refine assertValidTransition_conforms (by simp) fun hvalid => (conforms_transaction ..).2
        ⟨rfl, ?_⟩
      rw [conforms_handle]
      refine checkCapacity_conforms (fun es e => ?_) fun es hcounted hes => ?_
      · simp only [conforms_fail, Trace.drop_mk]
        split <;> trivial
      refine applyStatusTransaction_conforms rfl (by simp) hvalid (updates_plain hes)
        (fun es e => ?_) fun es' r hdecides => ⟨by simp, ?_, ?_, ?_⟩
      · simp only [Trace.drop_mk]
        split <;> trivial
      · refine ⟨row, by simp, hvalid, fun htouches => ⟨_, rfl, ?_⟩, hcounted.append es', hdecides⟩
        simp [htouches]
      · intro f
        simp only [Trace.drop_mk]
        split <;> trivial
      · simp only [Trace.commit_mk, conforms_ret, conforms_fail]
        exact conforms_outside (only_announce ..) (by simp) (by simp)

/-! ### `scheduleTest`, `scheduleInterview`, `recordScore` -/

theorem moveTo_conforms (ho : o.delivers = false) (hb : o.brackets = false) (a userId : Id) (next : ApplicationStatus)
    (data : ApplicationWithOffer → ApplicationData) (note : Note) :
    (moveTo a userId next data note).Conforms model guards (fun _ _ => True) (fun _ _ => True)
      (.start o) := by
  simp only [moveTo, bind_eq, throw_eq, conforms_handle, conforms_send, conforms_fail,
    Trace.start_eq, Trace.push_outside, List.nil_append, implies_true, true_and]
  refine ⟨guard_of_silent ⟨trivial, rfl⟩, fun found _ => ?_⟩
  cases found with
  | none => trivial
  | some row =>
      simp only [conforms_handle]
      refine conforms_outside (only_ensureCanManageApplication ..) (fun d' _ => ?_) (by simp)
      refine assertValidTransition_conforms (by simp) fun hvalid => ?_
      simp only [conforms_send, conforms_fail, pure_eq, Trace.push_outside,
        List.append_assoc, implies_true, true_and]
      exact ⟨⟨effectGuard_of_none rfl, by simp [hb], row.status,
          mem_statusesRead (Trace.mem_events.2 (.inl (.head _))), hvalid⟩, fun updated _ =>
        ⟨guard_of_plain trivial (by simp [ho]), fun _ _ =>
          conforms_outside (only_notifyStatusChange ..) (by simp) (by simp)⟩⟩

/-! ### `initiatePayment` -/

theorem createPayment_conforms {studentId applicationId : Id} {amount : Rat}
    {method : PaymentMethod} {reference : Reference} {Q : Log → Payment → Prop}
    (ho : o.creates = true) (hd : ∀ row, ¬ Created d row) (hE : ∀ es e, E ⟨o, d, some ⟨.serializable, es⟩⟩ e)
    (hQ : ∀ es payment, Created es payment → (∀ e ∈ es, ∀ id data, e.stmt ≠ .paymentUpdate id data) →
      CreationCommit ⟨o, d, some ⟨.serializable, es⟩⟩ →
      Q ⟨o, d, some ⟨.serializable, es⟩⟩ payment) :
    (createPayment studentId applicationId amount method reference).Conforms model guards Q E
      ⟨o, d, some ⟨.serializable, []⟩⟩ := by
  simp only [createPayment, bind_eq, throw_eq, conforms_handle, conforms_send, conforms_fail, hE,
    Trace.push_inside, List.nil_append, List.cons_append, implies_true, true_and]
  refine ⟨guard_of_silent ⟨trivial, rfl⟩, fun t _ =>
    ⟨⟨effectGuard_of_none rfl, ho, ⟨_, rfl, rfl⟩⟩, fun ids _ =>
      ⟨guard_of_silent ⟨trivial, rfl⟩, fun existing _ => ?_⟩⟩⟩
  cases existing with
  | some payment => exact hE _ _
  | none =>
      simp only [conforms_handle, conforms_send, conforms_fail, hE, Trace.push_inside,
        List.cons_append, List.nil_append, implies_true, true_and]
      refine ⟨guard_of_silent ⟨trivial, rfl⟩, fun t' _ => ⟨⟨effectGuard_of_none rfl, ho,
        ⟨_, rfl, rfl⟩, rfl, fun row => ?_⟩, fun payment _ =>
          hQ _ _ ⟨_, .tail _ (.tail _ (.tail _ (.tail _ (.head _))))⟩ (by simp)
            ⟨applicationId, t, ids, t', _, payment, rfl, rfl, ⟨_, rfl, rfl⟩, rfl⟩⟩⟩
      rintro ⟨data, hmem⟩
      simp only [Trace.mem_events, Trace.pending_mk, List.mem_cons, Event.mk.injEq,
        reduceCtorEq, false_and, List.not_mem_nil, or_self, or_false] at hmem
      exact hd row ⟨data, hmem⟩

/-- The call to the provider and the one update that follows it. -/
theorem startPayment_conforms {studentId : Id} {amount : Rat} {reference : Reference}
    {payment : Payment} (hcreated : Created d payment)
    (hd : ∀ e ∈ d, ∀ id data, e.stmt ≠ .paymentUpdate id data) :
    (tryCatch (startPayment studentId amount reference payment) fun err => do
        markFailed payment.id
        throw err).Conforms model guards (fun _ _ => True) (fun _ _ => True) ⟨o, d, none⟩ := by
  have hfailed : ∀ d', (∀ e ∈ d', ∀ id data, e.stmt ≠ .paymentUpdate id data) →
      (markFailed payment.id).Conforms model guards (fun _ _ => True) (fun _ _ => True)
        ⟨o, d ++ d', none⟩ := by
    intro d' hd'
    simp only [markFailed, bind_eq, tryCatch_eq, pure_eq, conforms_handle, conforms_send,
      conforms_ret, conforms_fail, implies_true, and_true]
    refine ⟨effectGuard_of_none rfl, rfl, ⟨payment, ?_, rfl⟩, fun e he => ?_, .inr rfl⟩
    · obtain ⟨data, hmem⟩ := hcreated
      exact ⟨data, List.mem_append_left _ hmem⟩
    · rcases List.mem_append.1 he with he | he
      · exact hd e he
      · exact hd' e he
  simp only [startPayment, bind_eq, tryCatch_eq, pure_eq, throw_eq, conforms_handle, conforms_send,
    conforms_ret, conforms_fail, Trace.push_outside, implies_true, and_true]
  refine ⟨guard_of_silent ⟨trivial, rfl⟩, fun _ => by simpa using hfailed [] (by simp),
    fun session _ => ⟨⟨effectGuard_of_none rfl, rfl, ⟨payment, ?_, rfl⟩, ?_, .inl rfl⟩,
      fun _ => hfailed _ (by simp)⟩⟩
  · obtain ⟨data, hmem⟩ := hcreated
    exact ⟨data, List.mem_append_left _ hmem⟩
  · intro e he
    rcases List.mem_append.1 he with he | he
    · exact hd e he
    · obtain rfl := List.mem_singleton.1 he
      simp

theorem initiatePayment_conforms (studentId : Id) (dto : InitiatePaymentDto) :
    (initiatePayment studentId dto).Conforms model guards (fun _ _ => True) (fun _ _ => True)
      (.start (.initiatePayment studentId dto)) := by
  simp only [initiatePayment, bind_eq, throw_eq, conforms_handle, conforms_send, conforms_fail,
    Trace.start_eq, Trace.push_outside, List.nil_append, implies_true, true_and]
  refine ⟨guard_of_silent ⟨trivial, rfl⟩, fun student _ => ?_⟩
  cases student with
  | none => trivial
  | some student =>
      simp only [conforms_handle, conforms_send, conforms_fail, Trace.push_outside,
        List.cons_append, List.nil_append, implies_true, true_and]
      refine ⟨guard_of_silent ⟨trivial, rfl⟩, fun application _ => ?_⟩
      cases application with
      | none => trivial
      | some application =>
          simp only [conforms_ite, conforms_handle, conforms_send, conforms_fail,
            Trace.push_outside, List.cons_append, List.nil_append, implies_true, true_and]
          refine fun _ _ _ => ⟨guard_of_silent ⟨trivial, rfl⟩, fun t _ =>
            ⟨guard_of_silent ⟨trivial, rfl⟩, fun suffix _ => ?_⟩⟩
          rw [tryCatch_eq, conforms_handle]
          refine (conforms_transaction ..).2 ⟨rfl, ?_⟩
          refine createPayment_conforms rfl (by simp [Created]) (fun es e => ?_)
            fun es payment hcreated hes hcommit => ⟨by simp, hcommit, fun f => ?_, ?_⟩
          · simp only [Trace.drop_mk]
            split <;> trivial
          · simp only [Trace.drop_mk]
            split <;> trivial
          · simp only [Trace.commit_mk, conforms_ret]
            refine startPayment_conforms ?_ fun e he => ?_
            · obtain ⟨data, hmem⟩ := hcreated
              exact ⟨data, List.mem_append_right _ hmem⟩
            · rcases List.mem_append.1 he with he | he
              · simp only [List.mem_cons, List.not_mem_nil, or_false] at he
                rcases he with rfl | rfl | rfl | rfl <;> simp
              · exact hes e he

/-! ### Deliveries -/

/-- No event of `es` has effect `k`. -/
def Without (k : Effect) (es : List Ev) : Prop := ∀ e ∈ es, effect e.stmt ≠ some k

@[simp] theorem without_nil (k : Effect) : Without k [] := by simp [Without]

@[simp] theorem without_cons (k : Effect) (e : Ev) (es : List Ev) :
    Without k (e :: es) ↔ effect e.stmt ≠ some k ∧ Without k es := List.forall_mem_cons

@[simp] theorem without_append (k : Effect) (es es' : List Ev) :
    Without k (es ++ es') ↔ Without k es ∧ Without k es' := List.forall_mem_append

theorem without_silent {k : Effect} (h : ∀ e ∈ es, Silent e.stmt) : Without k es :=
  fun e he => by simp [(h e he).2]

theorem effectGuard {q : Stmt} {k : Effect} {pay : Payment} (hk : effect q = some k)
    (hconf : Confirmed l.events pay) (hfresh : Without k l.events) : EffectGuard l q := by
  intro k' hk' _
  obtain rfl : k = k' := Option.some.inj (hk.symm.trans hk')
  exact ⟨⟨pay, hconf⟩, hfresh⟩

theorem Found.mono {ref : Id} {pay : Payment} {es es' : List Ev} (h : Found es ref pay)
    (hsub : ∀ e ∈ es, e ∈ es') : Found es' ref pay := hsub _ h

theorem Claims.mono {id : Id} {data : PaymentData} {es es' : List Ev} (h : Claims es id data)
    (hsub : ∀ e ∈ es, e ∈ es') : Claims es' id data := by
  obtain ⟨count, hcount, hmem⟩ := h
  exact ⟨count, hcount, hsub _ hmem⟩

/-- The delivery has found payment `pay` by `ref` and its transaction has claimed it. -/
structure Settling (d es : List Ev) (ref : Id) (pay : Payment) (data : PaymentData) : Prop where
  found : Found d ref pay
  completed : data.status = .COMPLETED
  claims : Claims es pay.id data
  done : ∀ k, Without k d

theorem Settling.append {ref : Id} {pay : Payment} {data : PaymentData}
    (h : Settling d es ref pay data) (es' : List Ev) : Settling d (es ++ es') ref pay data :=
  ⟨h.found, h.completed, h.claims.mono fun _ => List.mem_append_left _, h.done⟩

theorem Settling.confirmed {ref : Id} {pay : Payment} {data : PaymentData}
    (h : Settling d es ref pay data) : Confirmed (⟨o, d, some ⟨iso, es⟩⟩ : Log).events pay :=
  ⟨ref, data, h.found.mono fun _ => List.mem_append_left _, h.completed,
    h.claims.mono fun _ => List.mem_append_right _⟩

theorem Settling.guard {ref : Id} {pay : Payment} {data : PaymentData} {q : Stmt} {k : Effect}
    (h : Settling d es ref pay data) (hq : effect q = some k) (hk : Without k es) :
    EffectGuard ⟨o, d, some ⟨iso, es⟩⟩ q :=
  effectGuard hq h.confirmed ((without_append ..).2 ⟨h.done k, hk⟩)

theorem conforms_silent {p : Call α} (hp : p.Only Silent)
    (hQ : ∀ es', (∀ e ∈ es', Silent e.stmt) → ∀ a, Q ⟨o, d, some ⟨iso, es ++ es'⟩⟩ a)
    (hE : ∀ es' e, E ⟨o, d, some ⟨iso, es'⟩⟩ e) :
    p.Conforms model guards Q E ⟨o, d, some ⟨iso, es⟩⟩ :=
  hp.conforms_inside (fun _ _ _ hq => guard_of_silent hq) hQ fun _ _ => hE _

variable {ref : Id} {pay : Payment} {data : PaymentData}

theorem enrollStudent_conforms {studentId : Id} {offer : Offer} {program : SchoolProgram}
    {academicYear : SchoolAcademicYear} {Q : Log → Unit → Prop}
    (h : Settling d es ref pay data) (hes : Without .enrollment es)
    (hE : ∀ es e, E ⟨o, d, some ⟨iso, es⟩⟩ e)
    (hQ : ∀ es', (∀ k, k ≠ .enrollment → Without k es') → Q ⟨o, d, some ⟨iso, es ++ es'⟩⟩ ()) :
    (enrollStudent studentId offer program academicYear).Conforms model guards Q E
      ⟨o, d, some ⟨iso, es⟩⟩ := by
  simp only [enrollStudent, bind_eq, conforms_handle, conforms_send, conforms_fail, hE,
    Trace.push_inside, implies_true, true_and]
  refine ⟨⟨h.guard rfl hes, trivial⟩, fun _ _ =>
    conforms_silent (only_syncCourseEnrollments ..) (fun es' hes' _ => ?_) fun _ _ => hE _ _⟩
  rw [List.append_assoc]
  refine hQ _ fun k hk => (without_append ..).2 ⟨?_, without_silent hes'⟩
  simpa [effect] using hk.symm

theorem enrollPaid_conforms {application : ApplicationWithOffer} {Q : Log → Unit → Prop}
    (h : Settling d es ref pay data)
    (hread : (⟨.applicationFindUnique application.id, some application⟩ : Ev) ∈ es)
    (hopen : application.status.occupies = true) (hes : ∀ k, Without k es)
    (hE : ∀ es e, E ⟨o, d, some ⟨iso, es⟩⟩ e)
    (hQ : ∀ es', Without .transaction es' → Without .refundCall es' →
      Q ⟨o, d, some ⟨iso, es ++ es'⟩⟩ ()) :
    (enrollPaid application).Conforms model guards Q E ⟨o, d, some ⟨iso, es⟩⟩ := by
  simp only [enrollPaid, bind_eq, conforms_handle]
  refine conforms_silent (only_findProgram _) (fun es₁ hes₁ found => ?_) fun _ _ => hE _ _
  split
  · next program academicYear =>
      simp only [conforms_handle, conforms_send, conforms_fail, hE, Trace.push_inside,
        implies_true, true_and]
      refine ⟨⟨effectGuard_of_none rfl, by simp, application.status, mem_statusesRead
        (Trace.mem_events.2 (.inr (List.mem_append_left _ hread))), ?_⟩, fun _ _ => ?_⟩
      · revert hopen
        cases application.status <;>
          simp [ApplicationStatus.occupies, ValidTransition, ApplicationStatus.transitions]
      · refine enrollStudent_conforms ((h.append _).append _) ?_ hE fun es₂ hes₂ => ?_
        · simp [hes, without_silent hes₁, effect]
        · simp only [hE, Trace.push_inside, implies_true, true_and]
          refine ⟨⟨(((h.append _).append _).append _).guard rfl ?_, trivial⟩, fun _ _ => ?_⟩
          · simp [hes, without_silent hes₁, effect, hes₂ .timeline]
          · simp only [List.append_assoc]
            refine hQ _ ?_ ?_ <;> simp [without_silent hes₁, effect, hes₂]
  · simp only [conforms_send, hE, Trace.push_inside, implies_true, true_and]
    refine ⟨⟨(h.append _).guard rfl ?_, trivial⟩, fun _ _ => ?_⟩
    · simp [hes, without_silent hes₁]
    · rw [List.append_assoc]
      refine hQ _ ?_ ?_ <;> simp [without_silent hes₁, effect]

theorem refundClosed_conforms {application : ApplicationWithOffer} {Q : Log → Unit → Prop}
    (h : Settling d es ref pay data) (hes : ∀ k, Without k es)
    (hE : ∀ es e, E ⟨o, d, some ⟨iso, es⟩⟩ e)
    (hQ : ∀ es', Without .transaction es' → Without .refundCall es' →
      Q ⟨o, d, some ⟨iso, es ++ es'⟩⟩ ()) :
    (refundClosed pay application).Conforms model guards Q E ⟨o, d, some ⟨iso, es⟩⟩ := by
  simp only [refundClosed, bind_eq, conforms_handle, conforms_send, conforms_fail, hE,
    Trace.push_inside, implies_true, true_and]
  refine ⟨⟨h.guard rfl (hes _), by simp, ref, pay, data, h.found, h.completed, h.claims, rfl⟩,
    fun _ _ => ⟨⟨(h.append _).guard rfl ?_, trivial⟩, fun _ _ => ?_⟩⟩
  · simp [hes, effect]
  · rw [List.append_assoc]
    refine hQ _ ?_ ?_ <;> simp [effect]

theorem settleApplication_conforms {applicationId : Id} {Q : Log → Bool → Prop}
    (h : Settling d es ref pay data) (hes : ∀ k, Without k es)
    (hE : ∀ es e, E ⟨o, d, some ⟨iso, es⟩⟩ e)
    (hQ : ∀ es' r, Without .transaction es' → Without .refundCall es' →
      Alerted pay applicationId es' → Q ⟨o, d, some ⟨iso, es ++ es'⟩⟩ r) :
    (settleApplication pay applicationId).Conforms model guards Q E ⟨o, d, some ⟨iso, es⟩⟩ := by
  simp only [settleApplication, bind_eq, conforms_handle, conforms_send, conforms_fail, hE,
    Trace.push_inside, implies_true, true_and]
  refine ⟨guard_of_silent ⟨trivial, rfl⟩, fun other _ => ?_⟩
  cases other with
  | some other =>
      simp only [pure_eq, conforms_handle, conforms_send, conforms_ret, conforms_fail, hE,
        Trace.push_inside, implies_true, true_and, List.append_assoc]
      refine ⟨⟨(h.append _).guard rfl ?_, trivial⟩, fun _ _ => hQ _ _ ?_ ?_ (.inr ⟨_, rfl, rfl,
        .tail _ (.head _)⟩)⟩ <;> simp [hes, effect]
  | none =>
      simp only [conforms_handle, conforms_send, conforms_fail, hE, Trace.push_inside,
        implies_true, true_and, List.append_assoc]
      refine ⟨guard_of_silent ⟨trivial, rfl⟩, fun found hfound => ?_⟩
      cases found with
      | none => refine hQ _ _ ?_ ?_ (.inl (.head _)) <;> simp [effect]
      | some application =>
          obtain ⟨c, s, hexec⟩ := hfound
          have hid := (applicationFindUnique_of_exec c hexec).2.2
          have hmore := h.append ([⟨.paymentFindFirst applicationId [.COMPLETED] (some pay.id),
            none⟩] ++ [⟨.applicationFindUnique applicationId, some application⟩])
          have hwithout : ∀ k, Without k (es ++ ([⟨.paymentFindFirst applicationId [.COMPLETED]
              (some pay.id), none⟩] ++
              [⟨.applicationFindUnique applicationId, some application⟩])) := by
            simp [hes, effect]
          refine (conforms_ite ..).2 ⟨fun hopen => ?_, fun _ => ?_⟩ <;>
            simp only [pure_eq, conforms_handle, conforms_ret, conforms_fail]
          · refine enrollPaid_conforms hmore ?_ hopen hwithout hE fun es' ht hc => ?_
            · simp [hid]
            · rw [List.append_assoc]
              refine hQ _ _ ?_ ?_ (.inl (.head _)) <;> simp [effect, ht, hc]
          · refine refundClosed_conforms hmore hwithout hE fun es' ht hc => ?_
            rw [List.append_assoc]
            refine hQ _ _ ?_ ?_ (.inl (.head _)) <;> simp [effect, ht, hc]

theorem recordTransaction_conforms {txId : Option String} {Q : Log → Unit → Prop}
    (h : Settling d es ref pay data) (hes : Without .transaction es)
    (hE : ∀ es e, E ⟨o, d, some ⟨iso, es⟩⟩ e)
    (hQ : ∀ es', Without .refundCall es' → Recorded pay es' →
      Q ⟨o, d, some ⟨iso, es ++ es'⟩⟩ ()) :
    (recordTransaction pay txId).Conforms model guards Q E ⟨o, d, some ⟨iso, es⟩⟩ := by
  simp only [recordTransaction, bind_eq, conforms_handle, conforms_send, conforms_fail, hE,
    Trace.push_inside, implies_true, true_and, List.append_assoc]
  refine ⟨guard_of_silent ⟨trivial, rfl⟩, fun t _ => ⟨⟨(h.append _).guard rfl ?_, by simp, ref, pay,
    data, h.found, h.completed, (h.append _).claims, rfl, rfl, rfl⟩, fun _ _ =>
      hQ _ ?_ ⟨_, rfl, .tail _ (.head _)⟩⟩⟩
  · simp [hes, effect]
  · simp [effect]

theorem settleConfirmed_conforms {txId : Option String} {Q : Log → Bool → Prop}
    (h : Settling d es ref pay data) (hes : ∀ k, Without k es)
    (hE : ∀ es e, E ⟨o, d, some ⟨iso, es⟩⟩ e)
    (hQ : ∀ es' r, Without .refundCall es' → Recorded pay es' →
      (∀ applicationId, pay.applicationId = some applicationId → Alerted pay applicationId es') →
      Q ⟨o, d, some ⟨iso, es ++ es'⟩⟩ r) :
    (settleConfirmed pay txId).Conforms model guards Q E ⟨o, d, some ⟨iso, es⟩⟩ := by
  unfold settleConfirmed
  cases happ : pay.applicationId with
  | none =>
      simp only [bind_eq, pure_eq, conforms_handle, conforms_ret, conforms_fail]
      exact recordTransaction_conforms h (hes _) hE fun es' hcall hrec =>
        hQ _ _ hcall hrec (by simp [happ])
  | some applicationId =>
      simp only [bind_eq, pure_eq, conforms_handle, conforms_ret, conforms_fail]
      refine settleApplication_conforms h hes hE fun es₁ r ht hcall halert => ?_
      refine recordTransaction_conforms (h.append _) ((without_append ..).2 ⟨hes _, ht⟩) hE
        fun es₂ hcall₂ hrec => ?_
      rw [List.append_assoc]
      refine hQ _ _ ((without_append ..).2 ⟨hcall, hcall₂⟩) ?_ fun a ha => ?_
      · obtain ⟨row, hid, hrow⟩ := hrec
        exact ⟨row, hid, List.mem_append_right _ hrow⟩
      · obtain rfl := Option.some.inj (happ.symm.trans ha)
        rcases halert with hnone | ⟨entry, h₁, h₂, h₃⟩
        · exact .inl (List.mem_append_left _ hnone)
        · exact .inr ⟨entry, h₁, h₂, List.mem_append_left _ h₃⟩

theorem settlePayment_conforms {txId : Option String} {Q : Log → Payment × Bool → Prop}
    {status : PaymentStatus} (ho : o.delivers = true) (hfound : Found d ref pay)
    (hd : ∀ k, Without k d) (hstatus : status = .COMPLETED ∨ status = .FAILED)
    (hE : ∀ es e, E ⟨o, d, some ⟨iso, es⟩⟩ e)
    (hQ : ∀ es updated r, Without .refundCall es → SettlementCommit ⟨o, d, some ⟨iso, es⟩⟩ →
      (r = true → ∃ data, Settling d es ref pay data) → Tried es pay →
      Q ⟨o, d, some ⟨iso, es⟩⟩ (updated, r)) :
    (settlePayment pay ref status txId).Conforms model guards Q E ⟨o, d, some ⟨iso, []⟩⟩ := by
  simp only [settlePayment, bind_eq, pure_eq, conforms_handle]
  -- From the claim on, whatever instant was read before it.
  have hclaim : ∀ (es : List Ev) (paidAt : Option Nat), (∀ e ∈ es, e.stmt = .now) →
      (send (.paymentUpdateManyNotCompleted pay.id
        { status, paidAt, providerRef := some ref })).Conforms model guards
        (fun l (claimed : Nat) => (send (.paymentFindUniqueOrThrow pay.id)).Conforms model guards
          (fun l (updated : Payment) => (if claimed = 0 ∨ status ≠ .COMPLETED then ret (updated, false)
            else handle (settleConfirmed pay txId) (fun r => ret (updated, r)) fail).Conforms model
              guards Q E l) (fun l e => E l e) l) (fun l e => E l e) ⟨o, d, some ⟨iso, es⟩⟩ := by
    intro es paidAt hes
    have hnow : ∀ k, Without k es := fun k e he => by simp [hes e he, effect]
    simp only [conforms_send, hE, Trace.push_inside, implies_true, true_and, conforms_ite,
      conforms_ret, conforms_handle, conforms_fail, List.append_assoc]
    refine ⟨⟨effectGuard_of_none rfl, ⟨ho, ⟨_, rfl, hes⟩, ⟨ref, pay, hfound, rfl, rfl⟩, hstatus⟩⟩,
      fun claimed _ => ⟨guard_of_silent ⟨trivial, rfl⟩, fun updated _ => ⟨fun hno => ?_, fun hyes => ?_⟩⟩⟩
    · refine hQ _ _ _ (by simp [hnow, effect]) ?_ (by simp) ⟨{ status, paidAt, providerRef := some ref }, claimed, by simp⟩
      rintro ⟨id, data, ⟨count, hcount, hmem⟩, hcompleted⟩
      simp only [Trace.pending_mk, List.mem_append, List.mem_singleton, Event.mk.injEq,
        reduceCtorEq, false_and, or_false] at hmem
      rcases hmem with hmem | ⟨heq, hans⟩
      · exact absurd (hes _ hmem) (by simp)
      · obtain ⟨rfl, rfl⟩ := Stmt.paymentUpdateManyNotCompleted.inj heq
        rcases hno with h0 | hne
        · exact absurd ((eq_of_heq hans).trans h0) hcount
        · exact absurd hcompleted hne
    · obtain ⟨hne, hcompleted⟩ := not_or.1 hyes
      have hsettling : Settling d (es ++ ([⟨.paymentUpdateManyNotCompleted pay.id
          { status, paidAt, providerRef := some ref }, claimed⟩] ++
          [⟨.paymentFindUniqueOrThrow pay.id, updated⟩])) ref pay
          { status, paidAt, providerRef := some ref } :=
        ⟨hfound, not_not.1 hcompleted, ⟨claimed, hne, by simp⟩, hd⟩
      refine settleConfirmed_conforms hsettling (by simp [hnow, effect]) hE
        fun es' r hcall hrec halert => hQ _ _ _ ?_ (fun _ => ⟨ref, pay, hfound, ?_, fun a ha => ?_⟩)
          (fun _ => ⟨_, hsettling.append es'⟩) ⟨{ status, paidAt, providerRef := some ref }, claimed, by simp⟩
      · simp [hnow, effect, hcall]
      · obtain ⟨row, hid, hrow⟩ := hrec
        exact ⟨row, hid, List.mem_append_right _ hrow⟩
      · rcases halert a ha with hnone | ⟨entry, h₁, h₂, h₃⟩
        · exact .inl (List.mem_append_right _ hnone)
        · exact .inr ⟨entry, h₁, h₂, List.mem_append_right _ h₃⟩
  unfold paidAt
  refine (conforms_ite ..).2 ⟨fun _ => ?_, fun _ => hclaim [] none (by simp)⟩
  rw [map_eq, conforms_handle, conforms_send]
  exact ⟨guard_of_silent ⟨trivial, rfl⟩, fun _ => hE _ _, fun t _ =>
    hclaim [⟨.now, t⟩] (some t) (by simp)⟩

theorem processRefund_conforms {Q : Log → Unit → Prop} (hconf : Confirmed d pay)
    (hd : Without .refundCall d) (hQ : ∀ d', Q ⟨o, d ++ d', none⟩ ()) :
    (processRefund pay.id ref).Conforms model guards Q E ⟨o, d, none⟩ := by
  have hrest : ∀ success : Bool, Only Silent (do
      if success then
        let processedAt ← send .now
        send (.refundUpdate pay.id .COMPLETED (some processedAt))
      else
        send (.refundUpdate pay.id .FAILED none) : Call Unit) := by
    intro success
    cases success with
    | false => simp [Silent, Plain, effect]
    | true =>
        exact Only.handle (by simp [Silent, Plain, effect])
          (fun _ => by simp [Silent, Plain, effect]) fun _ => trivial
  rw [processRefund, tryCatch_eq, conforms_handle, bind_eq, conforms_handle, conforms_send]
  refine ⟨⟨effectGuard (k := .refundCall) rfl (by simpa [Trace.events] using hconf)
    (by simpa [Trace.events] using hd), trivial⟩, fun _ => by simpa using hQ [], fun success _ => ?_⟩
  refine conforms_outside (hrest success) (fun d' _ => ?_) fun d' _ => ?_ <;>
    simpa using hQ _

theorem reconcilePayment_conforms {expectedAmount : Option Rat} (ho : o.delivers = true) :
    (reconcilePayment ref expectedAmount).Conforms model guards (fun l _ => Reconciled l.done ref)
      (fun _ _ => True) (.start o) := by
  simp only [reconcilePayment, bind_eq, pure_eq, throw_eq, conforms_handle, conforms_send,
    conforms_fail, Trace.start_eq, Trace.push_outside, List.nil_append, implies_true, true_and]
  refine ⟨⟨effectGuard_of_none rfl, ho, rfl⟩, fun found _ => ?_⟩
  cases found with
  | none => trivial
  | some pay =>
      simp only [conforms_ite, conforms_handle, conforms_send, conforms_ret, conforms_fail,
        Trace.push_outside, List.cons_append, List.nil_append, implies_true, true_and]
      refine ⟨fun hst => ⟨pay, .head _, .inl hst⟩, fun _ _ =>
        ⟨guard_of_silent ⟨trivial, rfl⟩, fun confirmation _ => ⟨fun hpending => ?_, fun _ => ?_⟩⟩⟩
      · exact ⟨pay, .head _, .inr (.inr ⟨confirmation, hpending, .tail _ (.head _)⟩)⟩
      refine (conforms_transaction ..).2 ⟨rfl, settlePayment_conforms ho (.head _)
        (by simp [effect]) ?_ (by simp) fun es updated r hcall hcommit hrefund htried =>
          ⟨by simp, ?_, by simp, ?_⟩⟩
      · split <;> simp
      · cases o <;> first | exact hcommit | simp [Op.delivers] at ho
      · obtain ⟨data', count, hmem⟩ := htried
        refine ⟨fun hr => ?_, fun _ => ⟨pay, .head _, .inr (.inl ⟨data', count, by simp [hmem]⟩)⟩⟩
        obtain ⟨data, hsettling⟩ := hrefund hr
        refine processRefund_conforms hsettling.confirmed (by simp [effect, hcall]) fun _ => ?_
        exact ⟨pay, .head _, .inr (.inl ⟨data', count, by simp [hmem]⟩)⟩

theorem handleStripeWebhook_conforms (delivery : StripeDelivery) :
    (handleStripeWebhook delivery).Conforms model guards
      (fun l _ => (∀ type, delivery.event.type ≠ .other type) →
        Reconciled l.done delivery.event.sessionId)
      (fun _ _ => True) (.start (.handleStripeWebhook delivery)) := by
  simp only [handleStripeWebhook, throw_eq, bind_eq, pure_eq, conforms_handle, conforms_ite,
    conforms_fail]
  refine ⟨fun _ => trivial, fun _ => ⟨fun _ => trivial, fun _ => ⟨fun _ => trivial, fun _ => ?_⟩⟩⟩
  split
  · trivial
  · trivial
  · split
    · next htype => exact fun hno => absurd htype (hno _)
    · rw [conforms_handle]
      exact conforms_mono (fun _ _ h _ => h) (fun _ _ h => h) (reconcilePayment_conforms rfl)

/-! ### All calls -/

/-- **Every call keeps to the guards.** -/
theorem prog_conforms (o : Op) :
    (prog o).Conforms model guards (fun _ _ => True) (fun _ _ => True) (.start o) := by
  cases o with
  | updateStatus a dto userId =>
      simpa [prog] using updateStatus_conforms a userId dto
  | scheduleTest a dto userId => simpa [prog, scheduleTest] using moveTo_conforms rfl rfl a userId _ _ _
  | scheduleInterview a dto userId => simpa [prog, scheduleInterview] using moveTo_conforms rfl rfl a userId _ _ _
  | recordScore a score comments userId => simpa [prog, recordScore] using moveTo_conforms rfl rfl a userId _ _ _
  | initiatePayment studentId dto => simpa [prog] using initiatePayment_conforms studentId dto
  | handleWebhook dto signature =>
      cases signature with
      | valid =>
          simpa [prog, handleWebhook] using
            conforms_mono (fun _ _ _ => trivial) (fun _ _ h => h) (reconcilePayment_conforms rfl)
      | missing => trivial
      | invalid => trivial
  | handleStripeWebhook delivery =>
      rw [prog, map_eq, conforms_handle]
      exact conforms_mono (fun _ _ _ => trivial) (fun _ _ h => h) (handleStripeWebhook_conforms delivery)

end Conformance

end GetPlatform.Admission
