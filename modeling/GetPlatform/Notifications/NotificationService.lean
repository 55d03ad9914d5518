import GetPlatform.Notifications.World
import GetPlatform.Order.Pages
import GetPlatform.Text

set_option autoImplicit false

/-! # Sending notifications

`NotificationService.send` sends a notification to a user who has enabled its channel;
`NotificationService.sendInAppBatch` and `AnnouncementService.createAndNotify` notify many users. -/

namespace GetPlatform.Notifications

/-- The exceptions a call can end with. -/
inductive Err where
  | NotFoundException (message : String)
  | Error (message : String)
  | failure (f : Failure)
  deriving DecidableEq

abbrev Call (α : Type) := Prog interface Err α

def perform (q : Stmt) : Call (Ans q) := @Prog.query interface Err .failure q

/-! ## `NotificationService` -/

structure SendNotificationDto where
  userId : Id
  type : NotificationType
  title : String
  body : String
  deriving DecidableEq

structure ProviderResult where
  provider : String
  status : String
  deriving DecidableEq

structure SendResult where
  success : Bool
  reason : Option String
  notificationId : Option Id
  providerResult : Option ProviderResult
  deriving DecidableEq

def isChannelEnabled (type : NotificationType) (preferences : NotificationPreference) : Bool :=
  match type with
  | .EMAIL => preferences.emailEnabled
  | .SMS => preferences.smsEnabled
  | .PUSH => preferences.pushEnabled
  | .IN_APP => preferences.inAppEnabled

def getUserPreferences (userId : Id) : Call NotificationPreference :=
  perform (.notificationPreferenceUpsert userId)

def sendInApp : ProviderResult := { provider := "IN_APP", status := "STORED" }

-- How the other channels answer.
variable (dispatch : SendNotificationDto → User → Except String ProviderResult)

/-- The row of an attempt. -/
def SendNotificationDto.row (dto : SendNotificationDto) (sentAt : Option Date) (status : String)
    (failureReason : Option String) : NotificationData :=
  { userId := dto.userId, type := dto.type, title := dto.title, body := dto.body, sentAt
    status := some status, failureReason }

def send (dto : SendNotificationDto) : Call SendResult := do
  let some user ← perform (.userFindUnique dto.userId)
    | throw <| .NotFoundException "User not found"
  let preferences ← getUserPreferences dto.userId
  if isChannelEnabled dto.type preferences then
    match if dto.type = .IN_APP then .ok sendInApp else dispatch dto user with
    | .error failureReason =>
        let _ ← perform (.notificationCreate (dto.row none "FAILED" (some failureReason)))
        throw <| .Error failureReason
    | .ok result =>
        let sentAt ← perform .now
        let notification ← perform (.notificationCreate (dto.row (some sentAt) result.status none))
        return ⟨true, none, some notification.id, some result⟩
  else return ⟨false, some "Channel disabled", none, none⟩

/-- What is sent to many users. -/
structure Content where
  title : String
  body : String
  deriving DecidableEq

/-- One turn of the batch. -/
def sendTo (content : Content) (userId : Id) : Call (Id × SendResult) := do
  let result ← send dispatch ⟨userId, .IN_APP, content.title, content.body⟩
  return (userId, result)

def batchSize : Nat := 25

/-- The slices of the loop. -/
def batches (recipientIds : List Id) : List (List Id) :=
  (List.range ((recipientIds.length + batchSize - 1) / batchSize)).map (page recipientIds batchSize)

/-- The pairs that are pushed for the results of a batch. -/
def recipientsOf (results : List (Id × SendResult)) : List (Id × Id) :=
  results.filterMap fun (userId, result) =>
    if result.success then result.notificationId.map fun notificationId => (userId, notificationId)
    else none

/-- `sendInAppBatch` may return these pairs: the notifications of a batch are awaited together. -/
def SendsInAppBatch (userIds : List Id) (content : Content) (s : World)
    (recipients : List (Id × Id)) (s' : World) : Prop :=
  ∃ results, Prog.GathersAll model
      ((batches userIds.eraseDups).map fun batch => batch.map (sendTo dispatch content)) s results s' ∧
    recipients = results.flatMap recipientsOf

/-! ## `AnnouncementService` -/

structure CreateAnnouncementInput where
  schoolId : Id
  authorId : Id
  title : String
  body : String
  targetType : String
  targetClasses : Option (List String)
  courseId : Option Id

structure Created where
  announcementId : Id
  recipientCount : Nat
  deriving DecidableEq

/-- The notifications of an announcement, and its recipients. -/
def notifyAll (announcement : Announcement) (userIds : List Id) : Call Unit := do
  let ids ← perform (.uuids userIds.length)
  let rows := ids.zip userIds
  let sentAt ← perform .now
  let _ ← perform <| .notificationCreateMany <| rows.map fun (notificationId, userId) =>
    (notificationId, ⟨userId, .IN_APP, announcement.title, announcement.body, some sentAt, none, none⟩)
  let _ ← perform <| .announcementRecipientCreateMany <| rows.map fun (notificationId, userId) =>
    ⟨announcement.id, userId, notificationId⟩

def createAndNotify (input : CreateAnnouncementInput) (recipientUserIds : List Id) : Call Created :=
  let uniqueUserIds := recipientUserIds.eraseDups
  @Prog.transaction interface _ _ .failure .readCommitted do
    let announcement ← perform <| .announcementCreate
      { schoolId := input.schoolId, authorId := input.authorId, courseId := input.courseId
        title := trim input.title, body := trim input.body, targetType := input.targetType
        targetClasses := input.targetClasses.getD [] }
    if uniqueUserIds.length ≠ 0 then notifyAll announcement uniqueUserIds
    return ⟨announcement.id, uniqueUserIds.length⟩

end GetPlatform.Notifications
