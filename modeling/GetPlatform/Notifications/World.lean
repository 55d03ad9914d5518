import GetPlatform.Format.Date
import GetPlatform.Store.Gather
import GetPlatform.Store.Reliable
import GetPlatform.Store.Table

set_option autoImplicit false

/-! # Notifications and announcements: the database

A notification is a row for a user. An announcement has a line for each recipient, which names the
notification that the recipient was sent. -/

namespace GetPlatform.Notifications

abbrev Id := Nat

inductive NotificationType where
  | EMAIL | SMS | PUSH | IN_APP
  deriving DecidableEq

structure User where
  id : Id
  deriving DecidableEq

structure NotificationPreference where
  userId : Id
  emailEnabled : Bool
  smsEnabled : Bool
  pushEnabled : Bool
  inAppEnabled : Bool
  categories : List String
  deriving DecidableEq

structure Notification where
  id : Id
  userId : Id
  type : NotificationType
  title : String
  body : String
  sentAt : Option Date
  status : String
  failureReason : Option String
  deriving DecidableEq

structure Announcement where
  id : Id
  schoolId : Id
  authorId : Id
  courseId : Option Id
  title : String
  body : String
  targetType : String
  targetClasses : List String
  deriving DecidableEq

structure AnnouncementRecipient where
  announcementId : Id
  userId : Id
  notificationId : Id
  deriving DecidableEq

instance : Keyed User Id := ⟨(·.id)⟩
instance : Keyed NotificationPreference Id := ⟨(·.userId)⟩
instance : Keyed Notification Id := ⟨(·.id)⟩
instance : Keyed Announcement Id := ⟨(·.id)⟩
instance : Keyed AnnouncementRecipient (Id × Id) := ⟨fun r => (r.announcementId, r.userId)⟩

structure World where
  users : Table User
  preferences : Table NotificationPreference
  notifications : Table Notification
  announcements : Table Announcement
  announcementRecipients : Table AnnouncementRecipient

inductive Failure where
  | database
  deriving DecidableEq, Inhabited

/-! ## Statements -/

/-- The columns of a new announcement. -/
structure AnnouncementData where
  schoolId : Id
  authorId : Id
  courseId : Option Id
  title : String
  body : String
  targetType : String
  targetClasses : List String
  deriving DecidableEq

/-- The columns of a new notification. A `status` that is not given is the column's default. -/
structure NotificationData where
  userId : Id
  type : NotificationType
  title : String
  body : String
  sentAt : Option Date
  status : Option String
  failureReason : Option String
  deriving DecidableEq

inductive Stmt where
  | now
  /-- `uuidv4()`, so many times. -/
  | uuids (count : Nat)
  | userFindUnique (id : Id)
  /-- With an empty `update`. -/
  | notificationPreferenceUpsert (userId : Id)
  | notificationCreate (data : NotificationData)
  | notificationCreateMany (rows : List (Id × NotificationData))
  | announcementCreate (data : AnnouncementData)
  | announcementRecipientCreateMany (rows : List AnnouncementRecipient)

abbrev Ans : Stmt → Type
  | .now => Date
  | .uuids _ => List Id
  | .userFindUnique _ => Option User
  | .notificationPreferenceUpsert _ => NotificationPreference
  | .notificationCreate _ => Notification
  | .notificationCreateMany _ => List Notification
  | .announcementCreate _ => Announcement
  | .announcementRecipientCreateMany _ => List AnnouncementRecipient

abbrev interface : Interface := ⟨Stmt, Ans, Failure⟩

/-- The time, random ids or the id of a new row. -/
inductive Choice where
  | date (d : Date)
  | ids (l : List Id)
  | id (n : Id)

instance : Inhabited Choice := ⟨.id 0⟩

/-- The defaults of the columns. -/
def NotificationPreference.default (userId : Id) : NotificationPreference :=
  { userId, emailEnabled := true, smsEnabled := true, pushEnabled := true, inAppEnabled := true
    categories := ["APPLICATION_SUBMITTED", "PAYMENT_CONFIRMED", "STATUS_CHANGED", "WELCOME"] }

def NotificationData.row (data : NotificationData) (id : Id) : Notification :=
  { id, userId := data.userId, type := data.type, title := data.title, body := data.body
    sentAt := data.sentAt, status := data.status.getD "SENT", failureReason := data.failureReason }

/-- Rows may be inserted if their keys are free and all different. -/
def insertable {ρ κ : Type} [Keyed ρ κ] [DecidableEq κ] (t : Table ρ) (rows : List ρ) : Bool :=
  (rows.map Keyed.key).Nodup ∧ ∀ r ∈ rows, t.contains (Keyed.key r) = false

/-- No row names this announcement. -/
def World.newAnnouncementId (s : World) (id : Id) : Bool :=
  s.announcements.contains id = false ∧
    ∀ r ∈ s.announcementRecipients.rows, r.announcementId ≠ id

/-- No row names this notification. -/
def World.newNotificationId (s : World) (id : Id) : Bool :=
  s.notifications.contains id = false ∧
    ∀ r ∈ s.announcementRecipients.rows, r.notificationId ≠ id

/-- Answer a statement; `none` where it cannot succeed. Random ids are new ones, all different. -/
def exec : (q : Stmt) → Choice → World → Option (Ans q)
  | .now, .date d, _ => some d
  | .uuids count, .ids l, s =>
      if l.length = count ∧ l.Nodup ∧ ∀ id ∈ l, s.newNotificationId id = true then some l else none
  | .userFindUnique id, _, s => some (s.users.find? id)
  | .notificationPreferenceUpsert userId, _, s =>
      some ((s.preferences.find? userId).getD (.default userId))
  | .notificationCreate data, .id id, s =>
      let row := data.row id
      if s.newNotificationId id ∧ s.users.contains data.userId then some row else none
  | .notificationCreateMany rows, _, s =>
      let rows := rows.map fun (id, data) => data.row id
      if insertable s.notifications rows ∧ ∀ row ∈ rows, s.users.contains row.userId = true then
        some rows
      else none
  | .announcementCreate data, .id id, s =>
      if s.newAnnouncementId id then
        some ⟨id, data.schoolId, data.authorId, data.courseId, data.title, data.body,
          data.targetType, data.targetClasses⟩
      else none
  | .announcementRecipientCreateMany rows, _, s =>
      if insertable s.announcementRecipients rows ∧ (rows.map (·.notificationId)).Nodup ∧
          ∀ row ∈ rows, s.notifications.contains row.notificationId = true ∧
            ∀ r ∈ s.announcementRecipients.rows, r.notificationId ≠ row.notificationId then
        some rows
      else none
  | _, _, _ => none

/-! ## Writes -/

inductive Write where
  | preference (row : NotificationPreference)
  | notification (row : Notification)
  | announcement (row : Announcement)
  | recipient (row : AnnouncementRecipient)

def writes : (q : Stmt) → Ans q → List Write
  | .notificationPreferenceUpsert _, row => [.preference row]
  | .notificationCreate _, row => [.notification row]
  | .notificationCreateMany _, rows => rows.map .notification
  | .announcementCreate _, row => [.announcement row]
  | .announcementRecipientCreateMany _, rows => rows.map .recipient
  | _, _ => []

def World.apply : Write → World → World
  | .preference row, s => { s with preferences := s.preferences.put row }
  | .notification row, s => { s with notifications := s.notifications.insert row }
  | .announcement row, s => { s with announcements := s.announcements.insert row }
  | .recipient row, s => { s with announcementRecipients := s.announcementRecipients.insert row }

abbrev model : Model interface where
  State := World
  Choice := Choice
  Write := Write
  Key := Unit
  Env := Unit
  exec := exec
  writes := writes
  apply := World.apply
  key _ := none
  env _ s := s

end GetPlatform.Notifications
