import Mathlib.Data.Rat.Defs
import GetPlatform.Store.Table

set_option autoImplicit false

/-! # Applications and payments: the rows

The tables of the admission side of the platform, with the columns its services read or write.
Identifiers are numbers where the schema has UUIDs, instants are milliseconds, and amounts and
scores are rationals. A text that a service composes is kept by its parts (`Note`, `Reference`) and
spelled out by `text`. -/

namespace GetPlatform.Admission

abbrev Id := Nat

/-! ## Applications -/

inductive ApplicationStatus where
  | PENDING
  | UNDER_REVIEW
  | PRESELECTED
  | TEST_SCHEDULED
  | TEST_COMPLETED
  | INTERVIEW_SCHEDULED
  | INTERVIEW_COMPLETED
  | ACCEPTED
  | REJECTED
  | WAITLISTED
  | ENROLLED
  | CANCELLED
  deriving DecidableEq, Repr

namespace ApplicationStatus

/-- The text a status is stored as. -/
def text : ApplicationStatus → String
  | PENDING => "PENDING"
  | UNDER_REVIEW => "UNDER_REVIEW"
  | PRESELECTED => "PRESELECTED"
  | TEST_SCHEDULED => "TEST_SCHEDULED"
  | TEST_COMPLETED => "TEST_COMPLETED"
  | INTERVIEW_SCHEDULED => "INTERVIEW_SCHEDULED"
  | INTERVIEW_COMPLETED => "INTERVIEW_COMPLETED"
  | ACCEPTED => "ACCEPTED"
  | REJECTED => "REJECTED"
  | WAITLISTED => "WAITLISTED"
  | ENROLLED => "ENROLLED"
  | CANCELLED => "CANCELLED"

/-- `APPLICATION_STATUS_TRANSITIONS`. -/
def transitions : ApplicationStatus → List ApplicationStatus
  | PENDING =>
      [UNDER_REVIEW, PRESELECTED, TEST_SCHEDULED, INTERVIEW_SCHEDULED, ACCEPTED, REJECTED,
        WAITLISTED, CANCELLED]
  | UNDER_REVIEW =>
      [PRESELECTED, TEST_SCHEDULED, INTERVIEW_SCHEDULED, ACCEPTED, REJECTED, WAITLISTED, CANCELLED]
  | PRESELECTED =>
      [TEST_SCHEDULED, INTERVIEW_SCHEDULED, ACCEPTED, REJECTED, WAITLISTED, CANCELLED]
  | TEST_SCHEDULED => [TEST_COMPLETED, CANCELLED]
  | TEST_COMPLETED => [INTERVIEW_SCHEDULED, ACCEPTED, REJECTED, WAITLISTED, CANCELLED]
  | INTERVIEW_SCHEDULED => [INTERVIEW_COMPLETED, CANCELLED]
  | INTERVIEW_COMPLETED => [ACCEPTED, REJECTED, WAITLISTED, CANCELLED]
  | WAITLISTED => [ACCEPTED, REJECTED, CANCELLED]
  | ACCEPTED => [ENROLLED, CANCELLED]
  | ENROLLED => [CANCELLED]
  | REJECTED => []
  | CANCELLED => []

/-- Does an application in this status occupy a seat of its offer? -/
def occupies (s : ApplicationStatus) : Bool := s = ACCEPTED || s = ENROLLED

end ApplicationStatus

/-- What `testResults` holds: the arrangements of a test, and the comments on its score. -/
structure TestResults where
  type : Option String := none
  details : Option String := none
  location : Option String := none
  requiredDocuments : Option (List String) := none
  scheduledAt : Option String := none
  comments : Option String := none
  deriving DecidableEq

structure Application where
  id : Id
  studentId : Id
  offerId : Id
  status : ApplicationStatus
  score : Option Rat
  testResults : Option TestResults
  interviewDate : Option String
  interviewLink : Option String
  decisionDate : Option Nat
  decisionReason : Option String
  submittedAt : Nat
  deriving DecidableEq

/-- The columns an update of an application sets; the others are left as they are. -/
structure ApplicationData where
  status : ApplicationStatus
  score : Option Rat := none
  testResults : Option TestResults := none
  interviewDate : Option String := none
  interviewLink : Option String := none
  decisionDate : Option Nat := none
  decisionReason : Option String := none

structure Offer where
  id : Id
  schoolId : Id
  programId : Option Id
  tuitionFees : Rat
  capacity : Option Int
  applicationDeadline : Option Nat
  isOpen : Bool
  deletedAt : Option Nat
  deriving DecidableEq

structure Student where
  id : Id
  userId : Id
  deriving DecidableEq

/-- An application read with its offer and its student. -/
structure ApplicationWithOffer extends Application where
  offer : Offer
  student : Student

inductive RoleName where
  | ADMIN_GET
  | SCHOOL_ADMIN
  | other
  deriving DecidableEq

/-- A user with its role, and the school it administers if it has one. -/
structure User where
  id : Id
  role : Option RoleName
  schoolId : Option Id
  deriving DecidableEq

/-! ## Enrolments -/

structure SchoolProgram where
  id : Id
  schoolId : Id
  name : String
  isActive : Bool
  deriving DecidableEq

structure SchoolAcademicYear where
  id : Id
  schoolId : Id
  label : String
  isCurrent : Bool
  deriving DecidableEq

inductive EnrollmentStatus where
  | ACTIVE
  | WITHDRAWN
  | GRADUATED
  deriving DecidableEq

structure StudentEnrollment where
  studentId : Id
  schoolId : Id
  programId : Id
  programLevel : Nat
  academicYearId : Id
  enrolledYear : String
  status : EnrollmentStatus
  deriving DecidableEq

structure Course where
  id : Id
  schoolId : Id
  programId : Option Id
  programLevel : Option Nat
  isPublished : Bool
  deriving DecidableEq

structure CourseEnrollment where
  courseId : Id
  studentId : Id
  deriving DecidableEq

/-! ## Payments -/

inductive PaymentStatus where
  | PENDING
  | PROCESSING
  | COMPLETED
  | FAILED
  | EXPIRED
  deriving DecidableEq, Repr

/-- Is a payment in this status still under way? -/
def PaymentStatus.live (s : PaymentStatus) : Bool := s = PENDING || s = PROCESSING

inductive PaymentMethod where
  | ORANGE_MONEY
  | MVOLA
  | CARD
  | BANK_TRANSFER
  deriving DecidableEq

/-- A payment reference: the instant it was made and the first six hexadecimal digits of a UUID. -/
structure Reference where
  now : Nat
  suffix : Nat
  deriving DecidableEq

def Reference.text (r : Reference) : String :=
  s!"PAY-{r.now}-{String.ofList (Nat.toDigits 16 r.suffix)}"

structure Payment where
  id : Id
  applicationId : Option Id
  studentId : Id
  amount : Rat
  currency : String
  method : PaymentMethod
  status : PaymentStatus
  reference : Reference
  providerRef : Option Id
  commission : Rat
  paidAt : Option Nat
  expiresAt : Option Nat
  deriving DecidableEq

/-- What a new payment is created with; it has no provider reference and is not paid. -/
structure PaymentCreate where
  applicationId : Option Id
  studentId : Id
  amount : Rat
  currency : String
  method : PaymentMethod
  status : PaymentStatus
  reference : Reference
  commission : Rat
  expiresAt : Option Nat

/-- The columns an update of a payment sets. -/
structure PaymentData where
  status : PaymentStatus
  providerRef : Option Id := none
  paidAt : Option Nat := none

inductive TransactionType where
  | PAYMENT
  | REFUND
  deriving DecidableEq

/-- A row of the ledger. -/
structure Transaction where
  paymentId : Id
  type : TransactionType
  amount : Rat
  provider : PaymentMethod
  providerTransactionId : Option String
  status : String
  completedAt : Nat
  deriving DecidableEq

inductive RefundStatus where
  | PENDING
  | COMPLETED
  | FAILED
  deriving DecidableEq

/-- Why a refund is due: the status its application was in when the payment was confirmed. -/
structure RefundReason where
  status : ApplicationStatus
  deriving DecidableEq

def RefundReason.text (r : RefundReason) : String :=
  s!"Webhook de paiement confirmé après passage de la candidature à {r.status.text} — remboursement automatique requis"

structure Refund where
  paymentId : Id
  amount : Rat
  reason : RefundReason
  status : RefundStatus
  processedAt : Option Nat
  deriving DecidableEq

/-- What the provider says of a payment. -/
inductive ConfirmationStatus where
  | COMPLETED
  | FAILED
  | PENDING
  deriving DecidableEq

structure Confirmation where
  status : ConfirmationStatus
  providerTransactionId : Option String
  deriving DecidableEq

structure ProviderSession where
  providerReference : Id
  redirectUrl : Option String
  deriving DecidableEq

/-! ## The timeline of an application -/

/-- Why an accepted applicant could not be enrolled. -/
inductive NoEnrollment where
  | noProgram
  | noActiveProgram
  deriving DecidableEq

def NoEnrollment.text : NoEnrollment → String
  | noProgram => "l'offre n'est liée à aucun programme"
  | noActiveProgram => "aucun programme actif ou année académique en cours pour cette école"

/-- The note of a timeline entry. -/
inductive Note where
  | submitted
  | reason (text : String)
  | statusChanged (status : ApplicationStatus)
  | enrolled (enrolledYear : String)
  | notEnrolled (why : NoEnrollment)
  | promoted
  | testScheduled (type date : String) (location : Option String)
  | interviewScheduled (date : String) (link : Option String)
  | scoreRecorded (score : Rat) (comments : Option String)
  | lateWebhook (reference : Reference)
  | confirmedAfterCancellation (reference : Reference)
  | paidNotEnrolled (why : NoEnrollment)
  deriving DecidableEq

/-- An absent or an empty text adds nothing. -/
def suffixed (text : Option String) (f : String → String) : String :=
  match text with
  | none => ""
  | some t => if t = "" then "" else f t

def Note.text : Note → String
  | submitted => "Application submitted"
  | reason text => text
  | statusChanged status => s!"Status changed to {status.text}"
  | enrolled enrolledYear => s!"Étudiant inscrit automatiquement : {enrolledYear}"
  | notEnrolled why =>
      s!"⚠️ Statut mis à jour mais inscription automatique impossible ({why.text}) — intervention manuelle requise."
  | promoted =>
      "Promu automatiquement depuis la liste d’attente suite à une place libérée."
  | testScheduled type date location =>
      s!"Test scheduled: {type} on {date}" ++ suffixed location fun l => s!" (lieu : {l})"
  | interviewScheduled date link =>
      s!"Interview scheduled on {date}" ++ suffixed link fun l => s!" (link: {l})"
  | scoreRecorded score comments =>
      s!"Score recorded: {score}" ++ suffixed comments fun c => s!" ({c})"
  | lateWebhook reference =>
      s!"⚠️ Webhook tardif : paiement {reference.text} confirmé alors qu'un autre paiement est déjà complété pour cette candidature — vérification manuelle requise (remboursement ?)."
  | confirmedAfterCancellation reference =>
      s!"⚠️ Paiement {reference.text} confirmé après annulation de la candidature — mis en réconciliation, remboursement en cours."
  | paidNotEnrolled why =>
      s!"⚠️ Paiement confirmé mais inscription automatique impossible ({why.text}) — intervention manuelle requise."

structure TimelineEntry where
  applicationId : Id
  status : ApplicationStatus
  note : Note
  createdBy : Option Id
  deriving DecidableEq

/-! ## Keys -/

instance : Keyed Application Id := ⟨(·.id)⟩
instance : Keyed Offer Id := ⟨(·.id)⟩
instance : Keyed Student Id := ⟨(·.id)⟩
instance : Keyed User Id := ⟨(·.id)⟩
instance : Keyed SchoolProgram Id := ⟨(·.id)⟩
instance : Keyed SchoolAcademicYear Id := ⟨(·.id)⟩
instance : Keyed Course Id := ⟨(·.id)⟩
instance : Keyed StudentEnrollment (Id × Id) := ⟨fun e => (e.studentId, e.schoolId)⟩
instance : Keyed CourseEnrollment (Id × Id) := ⟨fun e => (e.courseId, e.studentId)⟩
instance : Keyed Payment Id := ⟨(·.id)⟩
instance : Keyed Transaction Id := ⟨(·.paymentId)⟩
instance : Keyed Refund Id := ⟨(·.paymentId)⟩

end GetPlatform.Admission
