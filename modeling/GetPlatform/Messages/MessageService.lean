import GetPlatform.Messages.World

set_option autoImplicit false

/-! # Sending a message

`MessageService.send`: in one transaction the conversation of the two users is opened or found, both
are made its participants, and the message is put in it with its attachments. -/

namespace GetPlatform.Messages

/-- The exceptions a call can end with. -/
inductive Err where
  | BadRequestException (message : String)
  | NotFoundException (message : String)
  /-- A property of an element that is not there. -/
  | TypeError
  | failure (f : Failure)
  deriving DecidableEq

abbrev Call (α : Type) := Prog interface Err α

def perform (q : Stmt) : Call (Ans q) := @Prog.query interface Err .failure q

def MAX_ATTACHMENTS_PER_MESSAGE : Nat := 5

structure SentMessage where
  id : Id
  conversationId : Id
  senderId : UserId
  recipientId : UserId
  subject : Option String
  body : String
  createdAt : Nat
  attachments : List MessageAttachment

/-- A message with what is shown of its sender and its recipient. -/
structure Reply extends SentMessage where
  sender : Option User
  recipient : Option User

def attach (messageId : Id) : List File → Call (List MessageAttachment)
  | [] => return []
  | file :: files => do
      let saved ← perform (.saveMessageAttachment file messageId)
      let attachment ← perform (.messageAttachmentCreate messageId saved)
      return attachment :: (← attach messageId files)

/-- The transaction of `send`. -/
def post (senderId recipientId : UserId) (subject : Option String) (body : String) (now : Nat)
    (files : List File) : Call SentMessage := do
  let directKey := getDirectKey senderId.text recipientId.text
  let _ ← perform (.conversationUpsert directKey now)
  let conversationId :: _ ← perform (.conversationSelect directKey)
    | throw .TypeError
  perform (.participantsInsert conversationId [senderId, recipientId])
  let message ← perform <| .messageInsert
    { conversationId, senderId, recipientId, subject, body, createdAt := now }
  let attachments ← attach message.id files
  return { id := message.id, conversationId, senderId, recipientId, subject, body, createdAt := now,
           attachments }

/-- `toLowerCase` is the one of the source language. -/
def send (toLowerCase : String → String) (senderId : UserId) (dto : SendMessageDto)
    (files : List File) : Call Reply := do
  if files.length > MAX_ATTACHMENTS_PER_MESSAGE then
    throw <| .BadRequestException
      s!"Vous ne pouvez pas joindre plus de {MAX_ATTACHMENTS_PER_MESSAGE} fichiers"
  let some recipientId ← perform (.userFindUniqueByEmail (trim (toLowerCase dto.recipientEmail)))
    | throw <| .NotFoundException "Destinataire introuvable"
  if recipientId = senderId then
    throw <| .BadRequestException "Vous ne pouvez pas vous envoyer un message"
  let subject := (dto.subject.map trim).filter (· ≠ "")
  let now ← perform .now
  let message ← Prog.transaction .failure .readCommitted
    (post senderId recipientId subject (trim dto.body) now files)
  let sender ← perform (.userFindUnique senderId)
  let recipient ← perform (.userFindUnique recipientId)
  return { message with sender, recipient }

structure Op where
  senderId : UserId
  dto : SendMessageDto
  files : List File := []

def program (toLowerCase : String → String) (o : Op) : Call Reply :=
  send toLowerCase o.senderId o.dto o.files

end GetPlatform.Messages
