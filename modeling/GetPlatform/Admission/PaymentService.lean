import GetPlatform.Admission.ApplicationService

set_option autoImplicit false

/-! # `PaymentService`, and the calls of the admission side

A payment is created in a serializable transaction, sent to the provider, and concluded by the
webhooks the provider delivers, any number of times and in any order. -/

namespace GetPlatform.Admission

structure InitiatePaymentDto where
  applicationId : Id
  method : PaymentMethod

structure InitiatedPayment where
  paymentId : Id
  reference : Reference
  redirectUrl : Option String
  amount : Rat
  status : PaymentStatus

def alreadyInProgressMessage (status : PaymentStatus) : String :=
  if status = .COMPLETED then "Cette candidature a déjà été payée"
  else "Un paiement est déjà en cours pour cette candidature"

/-- The transaction of `initiatePayment`: expire what ran out, refuse when a payment is under way or
    done, create the new one. -/
def createPayment (studentId applicationId : Id) (amount : Rat) (method : PaymentMethod)
    (reference : Reference) : Call Payment := do
  let now ← send .now
  let _ ← send (.paymentUpdateManyExpired applicationId now)
  if let some existingPayment ←
      send (.paymentFindFirst applicationId [.PENDING, .PROCESSING, .COMPLETED] none) then
    throw (.BadRequestException (alreadyInProgressMessage existingPayment.status))
  let now ← send .now
  send <| .paymentCreate
    { applicationId := some applicationId, studentId, amount, currency := "MGA", method,
      status := .PENDING, reference, commission := amount * (5 / 100),
      expiresAt := some (now + 15 * 60 * 1000) }

/-- The call to the provider, and the write that follows it. -/
def startPayment (studentId : Id) (amount : Rat) (reference : Reference) (payment : Payment) :
    Call InitiatedPayment := do
  let provider ← send (.initiatePayment amount "MGA" studentId reference)
  let _ ← send <| .paymentUpdate payment.id
    { status := .PROCESSING, providerRef := some provider.providerReference }
  return { paymentId := payment.id, reference, redirectUrl := provider.redirectUrl, amount,
           status := .PROCESSING }

/-- `payment.update({ status: 'FAILED' }).catch(() => undefined)`. -/
def markFailed (paymentId : Id) : Call Unit := do
  try
    let _ ← send (.paymentUpdate paymentId { status := .FAILED })
  catch _ => pure ()

def initiatePayment (studentId : Id) (dto : InitiatePaymentDto) : Call InitiatedPayment := do
  let some _ ← send (.studentFindUnique studentId) | throw (.NotFoundException "Student not found")
  let some application ← send (.applicationFindUnique dto.applicationId)
    | throw (.NotFoundException "Application not found")
  if application.studentId ≠ studentId then
    throw (.ForbiddenException "Cette candidature ne vous appartient pas")
  if application.status ≠ .ACCEPTED then
    throw <| .BadRequestException
      "Cette candidature n'est pas encore acceptée : le paiement n'est possible qu'après une réponse favorable de l'établissement"
  let amount := application.offer.tuitionFees
  if amount ≤ 0 then throw (.BadRequestException "Montant de paiement invalide")
  let now ← send .now
  let suffix ← send .uuid
  let reference : Reference := ⟨now, suffix⟩
  let payment ←
    try
      transaction .serializable
        (createPayment studentId application.id amount dto.method reference)
    catch
      | .database .P2034 => throw (.BadRequestException (alreadyInProgressMessage .PENDING))
      | err => throw err
  try startPayment studentId amount reference payment
  catch err =>
    markFailed payment.id
    throw err

/-! ## Reconciliation -/

/-- `processRefund`; it never fails. -/
def processRefund (paymentId providerReference : Id) : Call Unit := do
  try
    let success ← send (.refundPayment providerReference)
    if success then
      let processedAt ← send .now
      send (.refundUpdate paymentId .COMPLETED (some processedAt))
    else
      send (.refundUpdate paymentId .FAILED none)
  catch _ => pure ()

/-- A confirmed payment of an application that may be enrolled. -/
def enrollPaid (application : ApplicationWithOffer) : Call Unit := do
  match ← findProgram application.offer with
  | (some program, some academicYear) =>
      let _ ← send (.applicationUpdate application.id { status := .ENROLLED })
      enrollStudent application.studentId application.offer program academicYear
      send <| .timelineCreate
        { applicationId := application.id, status := .ENROLLED,
          note := .enrolled (enrolledYear program academicYear), createdBy := none }
  | _ =>
      send <| .timelineCreate
        { applicationId := application.id, status := application.status,
          note := .paidNotEnrolled (noEnrollmentReason application.offer), createdBy := none }

/-- A confirmed payment of an application that is closed. -/
def refundClosed (payment : Payment) (application : ApplicationWithOffer) : Call Unit := do
  send <| .refundCreate
    { paymentId := payment.id, amount := payment.amount, reason := ⟨application.status⟩,
      status := .PENDING, processedAt := none }
  send <| .timelineCreate
    { applicationId := application.id, status := application.status,
      note := .confirmedAfterCancellation payment.reference, createdBy := none }

/-- What a confirmed payment means for its application; is a refund required? -/
def settleApplication (payment : Payment) (applicationId : Id) : Call Bool := do
  match ← send (.paymentFindFirst applicationId [.COMPLETED] (some payment.id)) with
  | some _ =>
      send <| .timelineCreate
        { applicationId, status := .ENROLLED, note := .lateWebhook payment.reference,
          createdBy := none }
      return false
  | none =>
      match ← send (.applicationFindUnique applicationId) with
      | none => return false
      | some application =>
          if application.status.occupies then
            enrollPaid application
            return false
          else
            refundClosed payment application
            return true

/-- `status === 'COMPLETED' ? new Date() : undefined`. -/
def paidAt (status : PaymentStatus) : Call (Option Nat) :=
  if status = .COMPLETED then some <$> send .now else return none

/-- The ledger row of a confirmed payment. -/
def recordTransaction (payment : Payment) (providerTransactionId : Option String) : Call Unit := do
  let completedAt ← send .now
  send <| .transactionCreate
    { paymentId := payment.id, type := .PAYMENT, amount := payment.amount,
      provider := payment.method, providerTransactionId, status := "SUCCESS", completedAt }

/-- What follows a claim that succeeded. -/
def settleConfirmed (payment : Payment) (providerTransactionId : Option String) : Call Bool := do
  match payment.applicationId with
  | some applicationId =>
      let requiresRefund ← settleApplication payment applicationId
      recordTransaction payment providerTransactionId
      return requiresRefund
  | none =>
      recordTransaction payment providerTransactionId
      return false

/-- The transaction of `reconcilePayment`. The update is conditional on the payment not being
    completed yet, and the caller whose update finds no row leaves everything as it is. -/
def settlePayment (payment : Payment) (providerReference : Id) (status : PaymentStatus)
    (providerTransactionId : Option String) : Call (Payment × Bool) := do
  let paidAt ← paidAt status
  let claimed ← send <| .paymentUpdateManyNotCompleted payment.id
    { status, paidAt, providerRef := some providerReference }
  let updatedPayment ← send (.paymentFindUniqueOrThrow payment.id)
  if claimed = 0 ∨ status ≠ .COMPLETED then return (updatedPayment, false)
  let requiresRefund ← settleConfirmed payment providerTransactionId
  return (updatedPayment, requiresRefund)

def reconcilePayment (providerReference : Id) (expectedAmount : Option Rat) : Call Payment := do
  let some payment ← send (.paymentFindFirstByRef providerReference)
    | throw (.NotFoundException "Payment not found for this provider reference")
  if payment.status = .COMPLETED then return payment
  if expectedAmount.any (· ≠ payment.amount) then
    throw (.BadRequestException "Montant de webhook incohérent")
  let confirmation ← send (.confirmPayment providerReference)
  if confirmation.status = .PENDING then return payment
  let status : PaymentStatus :=
    if confirmation.status = .COMPLETED then .COMPLETED else .FAILED
  let (updatedPayment, requiresRefund) ← transaction .readCommitted
    (settlePayment payment providerReference status confirmation.providerTransactionId)
  if requiresRefund then processRefund payment.id providerReference
  return updatedPayment

/-! ## Webhooks -/

/-- What checking the signature of a delivery finds. -/
inductive SignatureCheck where
  | missing
  | invalid
  | valid
  deriving DecidableEq

structure PaymentWebhookDto where
  providerReference : Id
  amount : Option Rat := none

def handleWebhook (dto : PaymentWebhookDto) (signature : SignatureCheck) : Call Payment := do
  match signature with
  | .missing => throw (.ForbiddenException "Signature webhook manquante")
  | .invalid => throw (.ForbiddenException "Signature webhook invalide")
  | .valid => reconcilePayment dto.providerReference dto.amount

inductive StripeEventType where
  | checkoutSessionCompleted
  | checkoutSessionAsyncPaymentSucceeded
  | checkoutSessionAsyncPaymentFailed
  | checkoutSessionExpired
  | other (type : String)
  deriving DecidableEq

structure StripeEvent where
  type : StripeEventType
  sessionId : Id

/-- A delivery to the Stripe endpoint, and how the server is configured to take it. -/
structure StripeDelivery where
  stripeActive : Bool
  webhookSecret : Bool
  rawBody : Bool
  signature : SignatureCheck
  event : StripeEvent

/-- A payment, or the type of an event that is of no interest. -/
inductive WebhookReply where
  | payment (payment : Payment)
  | ignored (type : String)

def handleStripeWebhook (delivery : StripeDelivery) : Call WebhookReply := do
  if ¬ delivery.stripeActive then
    throw (.ForbiddenException "Stripe n’est pas le fournisseur de paiement actif")
  if ¬ delivery.webhookSecret then
    throw (.ForbiddenException "STRIPE_WEBHOOK_SECRET non configuré côté serveur")
  if ¬ delivery.rawBody then throw (.BadRequestException "Corps de requête brut manquant")
  match delivery.signature with
  | .missing => throw (.BadRequestException "Signature webhook Stripe manquante")
  | .invalid => throw (.BadRequestException "Signature webhook Stripe invalide")
  | .valid =>
      match delivery.event.type with
      | .other type => return .ignored type
      | _ => return .payment (← reconcilePayment delivery.event.sessionId none)

/-! ## The calls -/

inductive Op where
  | updateStatus (applicationId : Id) (dto : UpdateApplicationStatusDto) (userId : Id)
  | scheduleTest (applicationId : Id) (dto : ScheduleTestDto) (userId : Id)
  | scheduleInterview (applicationId : Id) (dto : ScheduleInterviewDto) (userId : Id)
  | recordScore (applicationId : Id) (score : Rat) (comments : Option String) (userId : Id)
  | initiatePayment (studentId : Id) (dto : InitiatePaymentDto)
  | handleWebhook (dto : PaymentWebhookDto) (signature : SignatureCheck)
  | handleStripeWebhook (delivery : StripeDelivery)

inductive Reply where
  | application (application : Application)
  | initiated (payment : InitiatedPayment)
  | webhook (reply : WebhookReply)

/-- The program each call runs. -/
def prog : Op → Call Reply
  | .updateStatus applicationId dto userId => .application <$> updateStatus applicationId dto userId
  | .scheduleTest applicationId dto userId => .application <$> scheduleTest applicationId dto userId
  | .scheduleInterview applicationId dto userId =>
      .application <$> scheduleInterview applicationId dto userId
  | .recordScore applicationId score comments userId =>
      .application <$> recordScore applicationId score comments userId
  | .initiatePayment studentId dto => .initiated <$> initiatePayment studentId dto
  | .handleWebhook dto signature => (.webhook <| .payment ·) <$> handleWebhook dto signature
  | .handleStripeWebhook delivery => .webhook <$> handleStripeWebhook delivery

/-- The admission side with its calls in progress. -/
abbrev Platform := Pool model Op Err Reply

/-- `n` commands of the call at place `i`, none of which is given a choice that matters. -/
def commands (i n : Nat) : List (Step model Op) := List.replicate n (.exec i (.nat 0))

/-- Application 1 is accepted, for an offer with a programme of the current year. -/
def enrollableFile : World :=
  { World.empty with
    users := .ofList [⟨9, some .ADMIN_GET, none⟩]
    students := .ofList [⟨11, 21⟩]
    offers := .ofList [⟨5, 7, some 8, 100, none, none, true, none⟩]
    programs := .ofList [⟨8, 7, "Droit", true⟩]
    academicYears := .ofList [⟨3, 7, "2024-2025", true⟩]
    applications := .ofList [⟨1, 11, 5, .ACCEPTED, none, none, none, none, none, none, 0⟩] }

/-- The first eleven commands of a payment of application 1, which create payment `id`. -/
def createCommands (i id : Nat) : List (Step model Op) :=
  .spawn (.initiatePayment 11 ⟨1, .CARD⟩) :: commands i 3 ++
    .exec i (.nat id) :: commands i 5 ++ [.exec i (.nat id), .exec i (.nat 0)]

/-- The provider's answer to the call at place `i`, and the write that follows it. -/
def startCommands (i ref : Nat) : List (Step model Op) :=
  [.exec i (.session ⟨ref, none⟩), .exec i (.nat 0)]

/-- A delivery for provider reference `ref`, which the provider confirms, up to its transaction. -/
def confirmCommands (i ref : Nat) : List (Step model Op) :=
  [.spawn (.handleWebhook { providerReference := ref } .valid), .exec i (.nat 0),
   .exec i (.confirmation ⟨.COMPLETED, none⟩)]

/-- Payment 1 runs out and payment 2 takes its place; the provider knows both. -/
def paidTwice : List (Step model Op) :=
  createCommands 0 1 ++ startCommands 0 70 ++ .env 900001 :: createCommands 1 2 ++
    startCommands 1 71

end GetPlatform.Admission
