import GetPlatform.Notifications.NotificationService
import GetPlatform.Store.Record

set_option autoImplicit false

/-! # Reminders of applications

`IntegrationService.listApplicationsPendingReminder` and `IntegrationService.sendReminder`, and the automation
that calls them: it asks which applications are to be reminded of, and has a reminder sent for each. Instants are
in milliseconds. -/

namespace GetPlatform.Integration

open Notifications (Id NotificationPreference NotificationType NotificationData SendNotificationDto SendResult
  ProviderResult)

/-! ## The database -/

/-- An application, with the user of its student. -/
structure Application where
  id : Id
  userId : Id
  offerId : Id
  status : String
  updatedAt : Int
  lastReminderSentAt : Option Int
  deriving DecidableEq

/-- Who has applied for what: no two applications share it. -/
def Application.subject (a : Application) : Id × Id := (a.userId, a.offerId)

structure Offer where
  id : Id
  schoolId : Id
  applicationDeadline : Option Int
  deriving DecidableEq

structure User where
  id : Id
  email : String
  deriving DecidableEq

instance : Keyed Application Id := ⟨(·.id)⟩
instance : Keyed Offer Id := ⟨(·.id)⟩
instance : Keyed User Id := ⟨(·.id)⟩

structure World where
  now : Int
  applications : Table Application
  offers : Table Offer
  users : Table User
  preferences : Table NotificationPreference
  notifications : Table Notifications.Notification

inductive Failure where
  | database
  deriving DecidableEq, Inhabited

/-! ## Statements -/

/-- What `sendDeadlineReminder` sends, with its `data`. -/
structure ReminderDto extends SendNotificationDto where
  offerId : Id
  deadline : Int
  deriving DecidableEq

def ReminderDto.subject (dto : ReminderDto) : Id × Id := (dto.userId, dto.offerId)

inductive Stmt where
  | now
  | applicationFindMany (staleBefore openAt : Int)
  /-- With the deadline of its offer. -/
  | applicationFindUnique (id : Id)
  | userFindUnique (id : Id)
  /-- With an empty `update`. -/
  | notificationPreferenceUpsert (userId : Id)
  | sendEmail (dto : ReminderDto) (user : User)
  | notificationCreate (data : NotificationData)
  | applicationUpdate (id : Id) (lastReminderSentAt : Int)

/-- A mail that has left, and when. -/
structure Departure where
  sentAt : Int
  result : ProviderResult
  deriving DecidableEq

/-- A mail leaves, or there is a reason why it does not. -/
abbrev Ans : Stmt → Type
  | .now => Int
  | .applicationFindMany .. => List (Application × Offer)
  | .applicationFindUnique _ => Option (Application × Offer)
  | .userFindUnique _ => Option User
  | .notificationPreferenceUpsert _ => NotificationPreference
  | .sendEmail .. => Except String Departure
  | .notificationCreate _ => Notifications.Notification
  | .applicationUpdate .. => Application

abbrev interface : Interface := ⟨Stmt, Ans, Failure⟩

/-- The order of the rows that are listed, the identifier of a new row, or what becomes of a mail. -/
inductive Choice where
  | none
  | rows (l : List Application)
  | id (n : Id)
  | sent (status : String)
  | refused (reason : String)

instance : Inhabited Choice := ⟨.none⟩

/-- The `where` of the list. -/
def Application.pendingReminder (staleBefore openAt : Int) (offers : Table Offer) (a : Application) : Bool :=
  a.status ∈ ["PENDING", "UNDER_REVIEW"] ∧ a.updatedAt < staleBefore ∧
    ((offers.find? a.offerId).any fun offer => offer.applicationDeadline.any (openAt < ·)) ∧
    a.lastReminderSentAt.all (· < staleBefore)

/-- An application with its offer. -/
def World.withOffer (s : World) (a : Application) : Option (Application × Offer) :=
  (s.offers.find? a.offerId).map (a, ·)

def exec : (q : Stmt) → Choice → World → Option (Ans q)
  | .now, _, s => some s.now
  | .applicationFindMany staleBefore openAt, .rows l, s =>
      if l.Perm (s.applications.rows.filter (·.pendingReminder staleBefore openAt s.offers)) ∧
          l.Pairwise (·.updatedAt ≤ ·.updatedAt) then
        some (l.filterMap s.withOffer)
      else none
  | .applicationFindUnique id, _, s => some ((s.applications.find? id).bind s.withOffer)
  | .userFindUnique id, _, s => some (s.users.find? id)
  | .notificationPreferenceUpsert userId, _, s =>
      some ((s.preferences.find? userId).getD (.default userId))
  | .sendEmail .., .sent status, s => some (.ok ⟨s.now, ⟨"EMAIL", status⟩⟩)
  | .sendEmail .., .refused reason, _ => some (.error reason)
  | .notificationCreate data, .id id, s =>
      if s.notifications.contains id = false ∧ s.users.contains data.userId then some (data.row id) else none
  | .applicationUpdate id lastReminderSentAt, _, s =>
      (s.applications.find? id).map fun a =>
        { a with lastReminderSentAt := some lastReminderSentAt, updatedAt := s.now }
  | _, _, _ => none

/-! ## Writes -/

inductive Write where
  | preference (row : NotificationPreference)
  | notification (row : Notifications.Notification)
  | reminded (id : Id) (lastReminderSentAt : Option Int) (updatedAt : Int)

def writes : (q : Stmt) → Ans q → List Write
  | .notificationPreferenceUpsert _, row => [.preference row]
  | .notificationCreate _, row => [.notification row]
  | .applicationUpdate id _, row => [.reminded id row.lastReminderSentAt row.updatedAt]
  | _, _ => []

def World.apply : Write → World → World
  | .preference row, s => { s with preferences := s.preferences.put row }
  | .notification row, s => { s with notifications := s.notifications.insert row }
  | .reminded id lastReminderSentAt updatedAt, s =>
      let set (a : Application) := { a with lastReminderSentAt, updatedAt }
      { s with applications := s.applications.modify id set fun _ => rfl }

/-- What goes on beside the automation. Nothing else writes `lastReminderSentAt`. -/
inductive Elsewhere where
  | time (ms : Nat)
  | application (id userId offerId : Id) (status : String)
  | status (id : Id) (status : String)
  | offer (row : Offer)
  | user (row : User)
  | preference (row : NotificationPreference)

def World.elsewhere : Elsewhere → World → World
  | .time ms, s => { s with now := s.now + ms }
  | .application id userId offerId status, s =>
      if s.applications.rows.any (·.subject = (userId, offerId)) then s
      else { s with applications := s.applications.insert ⟨id, userId, offerId, status, s.now, none⟩ }
  | .status id status, s =>
      let set (a : Application) := { a with status, updatedAt := s.now }
      { s with applications := s.applications.modify id set fun _ => rfl }
  | .offer row, s => { s with offers := s.offers.put row }
  | .user row, s => { s with users := s.users.put row }
  | .preference row, s => { s with preferences := s.preferences.put row }

abbrev model : Model interface where
  State := World
  Choice := Choice
  Write := Write
  Key := Unit
  Env := Elsewhere
  exec := exec
  writes := writes
  apply := World.apply
  key _ := none
  env := World.elsewhere

/-! ## `NotificationService` -/

inductive Err where
  | NotFoundException (message : String)
  | Error (message : String)
  | failure (f : Failure)
  deriving DecidableEq

abbrev Call (α : Type) := Prog interface Err α

def perform (q : Stmt) : Call (Ans q) := @Prog.query interface Err .failure q

/-- `send`, for a mail. -/
def send (dto : ReminderDto) : Call SendResult := do
  let some user ← perform (.userFindUnique dto.userId)
    | throw <| .NotFoundException "User not found"
  let preferences ← perform (.notificationPreferenceUpsert dto.userId)
  if Notifications.isChannelEnabled dto.type preferences then
    match ← perform (.sendEmail dto user) with
    | .error failureReason =>
        let _ ← perform (.notificationCreate (dto.row none "FAILED" (some failureReason)))
        throw <| .Error failureReason
    | .ok departure =>
        let sentAt ← perform .now
        let notification ← perform (.notificationCreate (dto.row (some ⟨sentAt⟩) departure.result.status none))
        return ⟨true, none, some notification.id, some departure.result⟩
  else return ⟨false, some "Channel disabled", none, none⟩

variable (toLocaleDateString : Int → String)

def sendDeadlineReminder (userId offerId : Id) (deadline : Int) : Call SendResult :=
  send
    { userId, type := .EMAIL, title := "⚠️ Deadline Reminder"
      body := s!"Reminder: The deadline for offer {offerId} is on {toLocaleDateString deadline}. " ++
        "Don't forget to submit your application!"
      offerId, deadline }

/-! ## `IntegrationService` -/

structure PendingReminder where
  applicationId : Id
  status : String
  lastUpdatedAt : Int
  lastReminderSentAt : Option Int
  offerId : Id
  schoolId : Id
  deadline : Option Int
  userId : Id
  deriving DecidableEq

/-- `staleDays * 24 * 60 * 60 * 1000` -/
def window (staleDays : Nat) : Int := staleDays * 24 * 60 * 60 * 1000

def listApplicationsPendingReminder (staleDays : Nat) : Call (List PendingReminder) := do
  let now ← perform .now
  let openAt ← perform .now
  let applications ← perform (.applicationFindMany (now - window staleDays) openAt)
  return applications.map fun (application, offer) =>
    { applicationId := application.id, status := application.status, lastUpdatedAt := application.updatedAt
      lastReminderSentAt := application.lastReminderSentAt, offerId := application.offerId
      schoolId := offer.schoolId, deadline := offer.applicationDeadline, userId := application.userId }

/-- `deadline ?? new Date()` -/
def orNow : Option Int → Call Int
  | some deadline => return deadline
  | none => perform .now

def sendReminder (applicationId : Id) : Call SendResult := do
  let some (application, offer) ← perform (.applicationFindUnique applicationId)
    | throw <| .NotFoundException "Candidature introuvable"
  let deadline ← orNow offer.applicationDeadline
  let result ← sendDeadlineReminder toLocaleDateString application.userId application.offerId deadline
  let now ← perform .now
  let _ ← perform (.applicationUpdate applicationId now)
  return result

/-! ## The automation -/

/-- A reminder for each, one after the other. One that fails does not keep the others back. -/
def remindAll : List PendingReminder → Call Unit
  | [] => return
  | pending :: rest => do
      try
        let _ ← sendReminder toLocaleDateString pending.applicationId
      catch _ => pure ()
      remindAll rest

/-- The calls of one run of the automation. -/
def automation (staleDays : Nat) : Call Unit := do
  let listed ← listApplicationsPendingReminder staleDays
  remindAll toLocaleDateString listed

inductive Op where
  | automation

def prog (staleDays : Nat) : Op → Call Unit
  | .automation => automation toLocaleDateString staleDays

abbrev Platform := Pool model Op Err Unit

end GetPlatform.Integration
