import GetPlatform.Admission.Types
import GetPlatform.Store.Invariant

set_option autoImplicit false

/-! # The database of the admission side, and the statements sent to it

`World` is the content of the tables, together with what the payment provider has handed out and the
clock. `Stmt` has one constructor for each query the services send through Prisma, and for each call
to a remote party; `exec` answers it and `writes` lists the rows it changes. A query without an order
may return any matching row: `pick` chooses. -/

namespace GetPlatform.Admission

structure World where
  users : Table User
  students : Table Student
  offers : Table Offer
  programs : Table SchoolProgram
  academicYears : Table SchoolAcademicYear
  courses : Table Course
  applications : Table Application
  timeline : List TimelineEntry
  enrollments : Table StudentEnrollment
  courseEnrollments : Table CourseEnrollment
  payments : Table Payment
  transactions : Table Transaction
  refunds : Table Refund
  /-- The references the payment provider has given. -/
  given : List Id
  clock : Nat

/-- A database without a row. -/
def World.empty : World where
  users := .empty
  students := .empty
  offers := .empty
  programs := .empty
  academicYears := .empty
  courses := .empty
  applications := .empty
  timeline := []
  enrollments := .empty
  courseEnrollments := .empty
  payments := .empty
  transactions := .empty
  refunds := .empty
  given := []
  clock := 0

/-! ## Statements -/

inductive Stmt where
  | now
  | uuid
  | studentFindUnique (id : Id)
  | userFindUnique (id : Id)
  | applicationFindUnique (id : Id)
  | applicationCount (offerId : Id) (statuses : List ApplicationStatus)
  | applicationFindFirstWaitlisted (offerId : Id)
  | applicationUpdate (id : Id) (data : ApplicationData)
  | timelineCreate (entry : TimelineEntry)
  | schoolProgramFindFirst (id schoolId : Id)
  | schoolAcademicYearFindFirst (schoolId : Id)
  | enrollmentUpsert (row : StudentEnrollment)
  | courseFindMany (schoolId programId : Id) (programLevel : Nat)
  | courseEnrollmentDeleteMany (studentId schoolId : Id) (notIn : List Id)
  | courseEnrollmentUpsert (row : CourseEnrollment)
  | sendApplicationStatusUpdate (userId applicationId : Id) (status : ApplicationStatus)
  | auditLogCreate (userId resourceId : Id) (before after : ApplicationStatus)
  | paymentUpdateManyExpired (applicationId : Id) (now : Nat)
  | paymentFindFirst (applicationId : Id) (statuses : List PaymentStatus) (notId : Option Id)
  | paymentCreate (data : PaymentCreate)
  | paymentUpdate (id : Id) (data : PaymentData)
  | paymentFindFirstByRef (providerRef : Id)
  | paymentUpdateManyNotCompleted (id : Id) (data : PaymentData)
  | paymentFindUniqueOrThrow (id : Id)
  | transactionCreate (row : Transaction)
  | refundCreate (row : Refund)
  | refundUpdate (paymentId : Id) (status : RefundStatus) (processedAt : Option Nat)
  | initiatePayment (amount : Rat) (currency : String) (studentId : Id) (reference : Reference)
  | confirmPayment (providerReference : Id)
  | refundPayment (providerReference : Id)

/-- What each statement is answered with. -/
abbrev Ans : Stmt → Type
  | .now => Nat
  | .uuid => Nat
  | .studentFindUnique _ => Option Student
  | .userFindUnique _ => Option User
  | .applicationFindUnique _ => Option ApplicationWithOffer
  | .applicationCount .. => Nat
  | .applicationFindFirstWaitlisted _ => Option (Application × Student)
  | .applicationUpdate .. => Application
  | .timelineCreate _ => Unit
  | .schoolProgramFindFirst .. => Option SchoolProgram
  | .schoolAcademicYearFindFirst _ => Option SchoolAcademicYear
  | .enrollmentUpsert _ => Unit
  | .courseFindMany .. => List Id
  | .courseEnrollmentDeleteMany .. => List (Id × Id)
  | .courseEnrollmentUpsert _ => Unit
  | .sendApplicationStatusUpdate .. => Unit
  | .auditLogCreate .. => Unit
  | .paymentUpdateManyExpired .. => List Id
  | .paymentFindFirst .. => Option Payment
  | .paymentCreate _ => Payment
  | .paymentUpdate .. => Payment
  | .paymentFindFirstByRef _ => Option Payment
  | .paymentUpdateManyNotCompleted .. => Nat
  | .paymentFindUniqueOrThrow _ => Payment
  | .transactionCreate _ => Unit
  | .refundCreate _ => Unit
  | .refundUpdate .. => Unit
  | .initiatePayment .. => ProviderSession
  | .confirmPayment _ => Confirmation
  | .refundPayment _ => Bool

/-- How a statement can fail: the write conflict Prisma reports as `P2034`, or anything else. -/
inductive Failure where
  | P2034
  | other
  deriving DecidableEq

abbrev interface : Interface := ⟨Stmt, Ans, Failure⟩

/-! ## Answers -/

/-- What the state does not determine. -/
inductive Choice where
  /-- Which of the matching rows an unordered query returns; an identifier the database draws. -/
  | nat (n : Nat)
  | session (s : ProviderSession)
  | confirmation (c : Confirmation)
  | success (b : Bool)

/-- Any row of a list. -/
def pick {ρ : Type} (rows : List ρ) (n : Nat) : Option ρ := rows[n % rows.length]?

theorem mem_of_pick {ρ : Type} {rows : List ρ} {n : Nat} {r : ρ} (h : pick rows n = some r) :
    r ∈ rows :=
  List.mem_of_getElem? h

theorem pick_eq_none {ρ : Type} {rows : List ρ} {n : Nat} : pick rows n = none ↔ rows = [] := by
  rw [pick, List.getElem?_eq_none_iff]
  constructor
  · intro h
    by_contra hne
    exact absurd (Nat.mod_lt n (List.length_pos_iff.2 hne)) (Nat.not_lt.2 h)
  · rintro rfl
    simp

/-- The columns of `d` that are set replace those of `a`. -/
def ApplicationData.set (d : ApplicationData) (a : Application) : Application :=
  { a with
    status := d.status
    score := d.score <|> a.score
    testResults := d.testResults <|> a.testResults
    interviewDate := d.interviewDate <|> a.interviewDate
    interviewLink := d.interviewLink <|> a.interviewLink
    decisionDate := d.decisionDate <|> a.decisionDate
    decisionReason := d.decisionReason <|> a.decisionReason }

theorem ApplicationData.key_set (d : ApplicationData) (a : Application) :
    Keyed.key (d.set a) = Keyed.key a := rfl

def PaymentData.set (d : PaymentData) (p : Payment) : Payment :=
  { p with
    status := d.status
    providerRef := d.providerRef <|> p.providerRef
    paidAt := d.paidAt <|> p.paidAt }

theorem PaymentData.key_set (d : PaymentData) (p : Payment) :
    Keyed.key (d.set p) = Keyed.key p := rfl

/-- The columns a refund is updated with when the provider has answered. -/
def Refund.process (status : RefundStatus) (processedAt : Option Nat) (r : Refund) : Refund :=
  { r with status, processedAt := processedAt <|> r.processedAt }

theorem Refund.key_process (status : RefundStatus) (processedAt : Option Nat) (r : Refund) :
    Keyed.key (r.process status processedAt) = Keyed.key r := rfl

def PaymentCreate.row (d : PaymentCreate) (id : Id) : Payment :=
  { id, applicationId := d.applicationId, studentId := d.studentId, amount := d.amount,
    currency := d.currency, method := d.method, status := d.status, reference := d.reference,
    providerRef := none, commission := d.commission, paidAt := none, expiresAt := d.expiresAt }

namespace World

/-- The waitlisted applications of an offer that were submitted first. -/
def firstWaitlisted (s : World) (offerId : Id) : List Application :=
  let rows := s.applications.rows.filter fun a => a.offerId = offerId ∧ a.status = .WAITLISTED
  rows.filter fun a => rows.all fun b => a.submittedAt ≤ b.submittedAt

/-- The payments of an application whose delay ran out before they were concluded. -/
def expired (s : World) (applicationId : Id) (now : Nat) : List Payment :=
  s.payments.rows.filter fun p =>
    p.applicationId = some applicationId ∧ p.status.live ∧ p.expiresAt.any (· < now)

/-- The payments of an application in one of `statuses`, other than `notId`. -/
def paymentsIn (s : World) (applicationId : Id) (statuses : List PaymentStatus)
    (notId : Option Id) : List Payment :=
  s.payments.rows.filter fun p =>
    p.applicationId = some applicationId ∧ p.status ∈ statuses ∧ notId ≠ some p.id

/-- May the row of payment `id` take provider reference `ref`? The column is unique. -/
def refFree (s : World) (id : Id) (ref : Option Id) : Bool :=
  ref.all fun r => s.payments.rows.all fun p => p.providerRef ≠ some r ∨ p.id = id

end World

/-- Answer a statement; `none` where it cannot succeed. -/
def exec : (q : Stmt) → Choice → World → Option (Ans q)
  | .now, _, s => some s.clock
  | .uuid, .nat n, _ => some n
  | .studentFindUnique id, _, s => some (s.students.find? id)
  | .userFindUnique id, _, s => some (s.users.find? id)
  | .applicationFindUnique id, _, s =>
      match s.applications.find? id with
      | none => some none
      | some a => do
          let offer ← s.offers.find? a.offerId
          let student ← s.students.find? a.studentId
          return some { a with offer, student }
  | .applicationCount offerId statuses, _, s =>
      some (s.applications.count fun a => a.offerId = offerId ∧ a.status ∈ statuses)
  | .applicationFindFirstWaitlisted offerId, .nat n, s =>
      match pick (s.firstWaitlisted offerId) n with
      | none => some none
      | some a => do
          let student ← s.students.find? a.studentId
          return some (a, student)
  | .applicationUpdate id data, _, s => (s.applications.find? id).map data.set
  | .timelineCreate _, _, _ => some ()
  | .schoolProgramFindFirst id schoolId, _, s =>
      some ((s.programs.find? id).filter fun p => p.schoolId = schoolId ∧ p.isActive)
  | .schoolAcademicYearFindFirst schoolId, .nat n, s =>
      some (pick (s.academicYears.rows.filter fun y => y.schoolId = schoolId ∧ y.isCurrent) n)
  | .enrollmentUpsert _, _, _ => some ()
  | .courseFindMany schoolId programId programLevel, _, s =>
      some ((s.courses.rows.filter fun c =>
        c.schoolId = schoolId ∧ c.programId = some programId ∧ c.programLevel = some programLevel ∧
          c.isPublished).map (·.id))
  | .courseEnrollmentDeleteMany studentId schoolId notIn, _, s =>
      some ((s.courseEnrollments.rows.filter fun e =>
        e.studentId = studentId ∧ e.courseId ∉ notIn ∧
          (s.courses.find? e.courseId).any (·.schoolId = schoolId)).map Keyed.key)
  | .courseEnrollmentUpsert _, _, _ => some ()
  | .sendApplicationStatusUpdate .., _, _ => some ()
  | .auditLogCreate .., _, _ => some ()
  | .paymentUpdateManyExpired applicationId now, _, s =>
      some ((s.expired applicationId now).map (·.id))
  | .paymentFindFirst applicationId statuses notId, .nat n, s =>
      some (pick (s.paymentsIn applicationId statuses notId) n)
  | .paymentCreate data, .nat id, s =>
      if s.payments.rows.any (fun p => p.id = id ∨ p.reference = data.reference) then none
      else some (data.row id)
  | .paymentUpdate id data, _, s =>
      if s.refFree id data.providerRef then (s.payments.find? id).map data.set else none
  | .paymentFindFirstByRef providerRef, _, s =>
      some (s.payments.rows.find? fun p => p.providerRef = some providerRef)
  | .paymentUpdateManyNotCompleted id data, _, s =>
      match s.payments.find? id with
      | none => some 0
      | some p =>
          if p.status = .COMPLETED then some 0
          else if s.refFree id data.providerRef then some 1
          else none
  | .paymentFindUniqueOrThrow id, _, s => s.payments.find? id
  | .transactionCreate row, _, s =>
      if s.transactions.contains row.paymentId then none else some ()
  | .refundCreate row, _, s => if s.refunds.contains row.paymentId then none else some ()
  | .refundUpdate paymentId .., _, s =>
      if s.refunds.contains paymentId then some () else none
  | .initiatePayment .., .session p, s =>
      if p.providerReference ∈ s.given then none else some p
  | .confirmPayment _, .confirmation c, _ => some c
  | .refundPayment _, .success b, _ => some b
  | _, _, _ => none

theorem applicationFindUnique_of_exec {id : Id} (c : Choice) {s : World}
    {row : ApplicationWithOffer} (h : exec (.applicationFindUnique id) c s = some (some row)) :
    s.applications.find? id = some row.toApplication ∧
      s.offers.find? row.offerId = some row.offer ∧ row.id = id := by
  simp only [exec] at h
  split at h
  · simp at h
  · next a ha =>
      simp only [Option.pure_def, Option.bind_eq_bind, Option.bind_eq_some_iff,
        Option.some.injEq] at h
      obtain ⟨offer, hoffer, student, -, rfl⟩ := h
      exact ⟨ha, hoffer, Table.key_of_find? ha⟩

/-- An application that exists is found. -/
theorem applicationFindUnique_ne_none {id : Id} (c : Choice) {s : World} {a : Application}
    (h : s.applications.find? id = some a) : exec (.applicationFindUnique id) c s ≠ some none := by
  simp [exec, h, Option.bind_eq_some_iff]

theorem firstWaitlisted_of_exec {offerId : Id} {c : Choice} {s : World} {w : Application}
    {student : Student}
    (h : exec (.applicationFindFirstWaitlisted offerId) c s = some (some (w, student))) :
    w ∈ s.applications ∧ w.offerId = offerId ∧ w.status = .WAITLISTED := by
  cases c <;> simp only [exec, reduceCtorEq] at h
  split at h
  · simp at h
  · next a hpick =>
      simp only [Option.pure_def, Option.bind_eq_bind, Option.bind_eq_some_iff, Option.some.injEq,
        Prod.mk.injEq] at h
      obtain ⟨_, -, rfl, -⟩ := h
      have hmem := mem_of_pick hpick
      simp only [World.firstWaitlisted, List.mem_filter, decide_eq_true_eq] at hmem
      exact hmem.1

/-! ## Writes -/

inductive Write where
  | application (id : Id) (data : ApplicationData)
  | timeline (entry : TimelineEntry)
  | enrollment (row : StudentEnrollment)
  | noCourseEnrollment (key : Id × Id)
  | courseEnrollment (row : CourseEnrollment)
  | payment (id : Id) (data : PaymentData)
  | newPayment (row : Payment)
  | newTransaction (row : Transaction)
  | newRefund (row : Refund)
  | refund (paymentId : Id) (status : RefundStatus) (processedAt : Option Nat)
  | give (providerReference : Id)

/-- The rows a statement changes, given its answer. -/
def writes : (q : Stmt) → Ans q → List Write
  | .applicationUpdate id data, _ => [.application id data]
  | .timelineCreate entry, _ => [.timeline entry]
  | .enrollmentUpsert row, _ => [.enrollment row]
  | .courseEnrollmentDeleteMany .., keys => List.map .noCourseEnrollment keys
  | .courseEnrollmentUpsert row, _ => [.courseEnrollment row]
  | .paymentUpdateManyExpired .., ids => List.map (.payment · { status := .EXPIRED }) ids
  | .paymentCreate _, row => [.newPayment row]
  | .paymentUpdate id data, _ => [.payment id data]
  | .paymentUpdateManyNotCompleted id data, count =>
      if count = 0 then [] else [.payment id data]
  | .transactionCreate row, _ => [.newTransaction row]
  | .refundCreate row, _ => [.newRefund row]
  | .refundUpdate paymentId status processedAt, _ => [.refund paymentId status processedAt]
  | .initiatePayment .., p => [.give p.providerReference]
  | _, _ => []

namespace World

def apply : Write → World → World
  | .application id data, s =>
      { s with applications := s.applications.modify id data.set data.key_set }
  | .timeline entry, s => { s with timeline := s.timeline ++ [entry] }
  | .enrollment row, s => { s with enrollments := s.enrollments.put row }
  | .noCourseEnrollment key, s =>
      { s with courseEnrollments := s.courseEnrollments.filter fun e => Keyed.key e ≠ key }
  | .courseEnrollment row, s => { s with courseEnrollments := s.courseEnrollments.put row }
  | .payment id data, s => { s with payments := s.payments.modify id data.set data.key_set }
  | .newPayment row, s => { s with payments := s.payments.insert row }
  | .newTransaction row, s => { s with transactions := s.transactions.insert row }
  | .newRefund row, s => { s with refunds := s.refunds.insert row }
  | .refund paymentId status processedAt, s =>
      { s with
        refunds := s.refunds.modify paymentId (Refund.process status processedAt)
          (Refund.key_process status processedAt) }
  | .give providerReference, s => { s with given := providerReference :: s.given }

end World

/-- The rows that writes lock. A new timeline entry conflicts with nothing. -/
inductive Key where
  | application (id : Id)
  | enrollment (key : Id × Id)
  | courseEnrollment (key : Id × Id)
  | payment (id : Id)
  | transaction (paymentId : Id)
  | refund (paymentId : Id)
  deriving DecidableEq

def Write.key : Write → Option Key
  | .application id _ => some (.application id)
  | .timeline _ => none
  | .enrollment row => some (.enrollment (Keyed.key row))
  | .noCourseEnrollment key => some (.courseEnrollment key)
  | .courseEnrollment row => some (.courseEnrollment (Keyed.key row))
  | .payment id _ => some (.payment id)
  | .newPayment row => some (.payment row.id)
  | .newTransaction row => some (.transaction row.paymentId)
  | .newRefund row => some (.refund row.paymentId)
  | .refund paymentId .. => some (.refund paymentId)
  | .give _ => none

/-- Time passes. -/
def tick (n : Nat) (s : World) : World := { s with clock := s.clock + n }

abbrev model : Model interface where
  State := World
  Choice := Choice
  Write := Write
  Key := Key
  Env := Nat
  exec := exec
  writes := writes
  apply := World.apply
  key := Write.key
  env := tick

end GetPlatform.Admission
