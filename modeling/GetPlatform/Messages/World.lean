import GetPlatform.Store.History
import GetPlatform.Messages.Types

set_option autoImplicit false

/-! # The database behind the messages

A conversation has an identifier and a key, and both are unique. The statement that opens one inserts
it under its key, or finds the key taken and moves its date. What it leaves is locked until the
transaction ends: the key, and the identifier. -/

namespace GetPlatform.Messages

structure World where
  users : Table User
  conversations : Table Conversation
  participants : Table ConversationParticipant
  messages : Table Message
  attachments : Table MessageAttachment

/-- A platform with these users, on which nothing has been sent. -/
def World.silent (users : Table User) : World :=
  ⟨users, .empty, .empty, .empty, .empty⟩

inductive Failure where
  | database
  | storage
  deriving DecidableEq, Inhabited

/-! ## Statements -/

inductive Stmt where
  | now
  | userFindUniqueByEmail (email : String)
  /-- `INSERT INTO "conversations" … ON CONFLICT ("directKey") DO UPDATE SET "lastMessageAt"` -/
  | conversationUpsert (directKey : CodeUnits) (now : Nat)
  | conversationSelect (directKey : CodeUnits)
  /-- `INSERT INTO "conversation_participants" … ON CONFLICT DO NOTHING` -/
  | participantsInsert (conversationId : Id) (userIds : List UserId)
  | messageInsert (data : MessageCreate)
  | saveMessageAttachment (file : File) (messageId : Id)
  | messageAttachmentCreate (messageId : Id) (saved : SavedFile)
  | userFindUnique (id : UserId)

abbrev Ans : Stmt → Type
  | .now => Nat
  | .userFindUniqueByEmail _ => Option UserId
  | .conversationUpsert .. => Conversation
  | .conversationSelect _ => List Id
  | .participantsInsert .. => Unit
  | .messageInsert _ => Message
  | .saveMessageAttachment .. => SavedFile
  | .messageAttachmentCreate .. => MessageAttachment
  | .userFindUnique _ => Option User

abbrev interface : Interface := ⟨Stmt, Ans, Failure⟩

/-- The time, the identifier of a new row, or where the storage puts a file. -/
inductive Choice where
  | nat (n : Nat)
  | stored (url kind : String)

/-- Answer a statement; `none` where it cannot succeed. The answer to an insertion is the row as it
    stands then. -/
def exec : (q : Stmt) → Choice → World → Option (Ans q)
  | .now, .nat n, _ => some n
  | .userFindUniqueByEmail email, _, s =>
      some ((s.users.rows.find? fun u => u.email = email).map (·.id))
  | .conversationUpsert directKey now, .nat id, s =>
      match s.conversations.find? directKey with
      | some c => some { c with lastMessageAt := now }
      | none =>
          if s.conversations.rows.any fun c => c.id = id then none
          else some ⟨id, directKey, now, now⟩
  | .conversationSelect directKey, _, s =>
      some ((s.conversations.find? directKey).map (·.id)).toList
  | .participantsInsert conversationId userIds, _, s =>
      if (s.conversations.rows.any fun c => c.id = conversationId) ∧
        userIds.all s.users.contains then some () else none
  | .messageInsert data, .nat id, s =>
      if s.messages.contains id ∨ ¬ s.conversations.rows.any fun c => c.id = data.conversationId then
        none
      else some (data.row id)
  | .saveMessageAttachment file _, .stored url kind, _ =>
      some ⟨url, file.originalname, file.mimetype, file.size, kind⟩
  | .messageAttachmentCreate messageId saved, .nat id, s =>
      if s.attachments.contains id ∨ ¬ s.messages.contains messageId then none
      else some { saved with id, messageId }
  | .userFindUnique id, _, s => some (s.users.find? id)
  | _, _, _ => none

/-! ## Writes -/

inductive Write where
  /-- The identifier of a conversation is taken. -/
  | conversationId (id : Id)
  | conversation (row : Conversation)
  | participant (row : ConversationParticipant)
  | message (row : Message)
  | attachment (row : MessageAttachment)

def writes : (q : Stmt) → Ans q → List Write
  | .conversationUpsert .., row => [.conversationId (Conversation.id row), .conversation row]
  | .participantsInsert conversationId userIds, _ =>
      List.map (fun userId => .participant ⟨conversationId, userId⟩) userIds
  | .messageInsert _, row => [.message row]
  | .messageAttachmentCreate .., row => [.attachment row]
  | _, _ => []

def World.apply : Write → World → World
  | .conversationId _, s => s
  | .conversation row, s => { s with conversations := s.conversations.put row }
  | .participant row, s => { s with participants := s.participants.insert row }
  | .message row, s => { s with messages := s.messages.insert row }
  | .attachment row, s => { s with attachments := s.attachments.insert row }

/-- What a write locks. -/
inductive Key where
  | directKey (key : CodeUnits)
  | conversation (id : Id)
  | participant (conversationId : Id) (userId : UserId)
  | message (id : Id)
  | attachment (id : Id)
  deriving DecidableEq

def Write.key : Write → Option Key
  | .conversationId id => some (.conversation id)
  | .conversation row => some (.directKey row.directKey)
  | .participant row => some (.participant row.conversationId row.userId)
  | .message row => some (.message row.id)
  | .attachment row => some (.attachment row.id)

/-- Somebody registers. -/
def World.register (user : User) (s : World) : World := { s with users := s.users.insert user }

abbrev model : Model interface where
  State := World
  Choice := Choice
  Write := Write
  Key := Key
  Env := User
  exec := exec
  writes := writes
  apply := World.apply
  key := Write.key
  env := World.register

end GetPlatform.Messages
