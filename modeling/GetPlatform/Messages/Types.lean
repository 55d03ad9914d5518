import GetPlatform.Order.PairKey
import GetPlatform.Store.Table
import GetPlatform.Text

set_option autoImplicit false

/-! # Conversations and messages: the rows

The tables behind the messages, with the columns that sending a message reads or writes. A key is made
of the identifiers of users, so these are texts; other identifiers are numbers where the schema has
UUIDs. -/

namespace GetPlatform.Messages

abbrev Id := Nat

/-- The identifier of a user, a UUID: no colon occurs in it. -/
structure UserId where
  text : CodeUnits
  noColon : colon ∉ text
  deriving DecidableEq

structure User where
  id : UserId
  email : String
  deriving DecidableEq

structure Conversation where
  id : Id
  directKey : CodeUnits
  lastMessageAt : Nat
  createdAt : Nat
  deriving DecidableEq

structure ConversationParticipant where
  conversationId : Id
  userId : UserId
  deriving DecidableEq

structure Message where
  id : Id
  conversationId : Id
  senderId : UserId
  recipientId : UserId
  subject : Option String
  body : String
  isRead : Bool
  createdAt : Nat
  deriving DecidableEq

/-- A file that comes with a message. -/
structure File where
  originalname : String
  mimetype : String
  size : Nat
  deriving DecidableEq

/-- What is known of a file once it is stored. -/
structure SavedFile where
  url : String
  fileName : String
  mimeType : String
  size : Nat
  kind : String
  deriving DecidableEq

structure MessageAttachment extends SavedFile where
  id : Id
  messageId : Id
  deriving DecidableEq

instance : Keyed User UserId := ⟨(·.id)⟩
instance : Keyed Conversation CodeUnits := ⟨(·.directKey)⟩
instance : Keyed ConversationParticipant (Id × UserId) := ⟨fun p => (p.conversationId, p.userId)⟩
instance : Keyed Message Id := ⟨(·.id)⟩
instance : Keyed MessageAttachment Id := ⟨(·.id)⟩

structure SendMessageDto where
  recipientEmail : String
  subject : Option String := none
  body : String

/-- The columns of a new message, but for its identifier. -/
structure MessageCreate where
  conversationId : Id
  senderId : UserId
  recipientId : UserId
  subject : Option String
  body : String
  createdAt : Nat
  deriving DecidableEq

def MessageCreate.row (d : MessageCreate) (id : Id) : Message :=
  { id, conversationId := d.conversationId, senderId := d.senderId, recipientId := d.recipientId,
    subject := d.subject, body := d.body, isRead := false, createdAt := d.createdAt }

/-! ## The key of a pair of users -/

/-- `[firstUserId, secondUserId].sort().join(':')` -/
def getDirectKey (firstUserId secondUserId : CodeUnits) : CodeUnits :=
  pairKey colon firstUserId secondUserId

end GetPlatform.Messages
