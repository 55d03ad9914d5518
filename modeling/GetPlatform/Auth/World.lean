import GetPlatform.Auth.Types
import GetPlatform.Store.Invariant

set_option autoImplicit false

/-! # The database of the authentication side, and the statements sent to it

`World` is the content of the tables, together with a record of what cannot be read back from them:
the tokens that were signed, the identifiers that were drawn, the `jti`s that were exchanged and the
mails that were sent. A token verifies if it was signed with the secret it is checked against and has
not expired. What the libraries compute from texts (bcrypt, TOTP, encryption) is left to a choice. -/

namespace GetPlatform.Auth

structure World where
  users : Table User
  pendingRegistrations : Table PendingRegistration
  refreshSessions : Table RefreshSession
  roles : List String
  config : Config
  /-- The tokens signed so far. -/
  minted : List Token
  /-- The UUIDs drawn so far; none is drawn twice. -/
  drawn : List Id
  /-- The `jti`s that were exchanged for a new one. -/
  rotated : List Id
  outbox : List Mail
  clock : Nat

/-- A database without a row, with the default configuration. -/
def World.empty : World where
  users := .empty
  pendingRegistrations := .empty
  refreshSessions := .empty
  roles := ["STUDENT"]
  config := ⟨15 * 60, 7 * 24 * 60 * 60⟩
  minted := []
  drawn := []
  rotated := []
  outbox := []
  clock := 0

/-! ## Statements -/

inductive Stmt where
  | now
  | randomUUID
  | generateVerificationCode
  | randomBytes
  | bcryptHash (password : String)
  | bcryptCompare (password : String) (hash : Hash)
  | encrypt (text : String)
  | decrypt (text : String)
  | generateTotpSecret
  | totpVerify (secret code : String)
  | jwtSign (payload : Payload) (expiresIn : Expiration) (secret : Secret)
  | jwtVerify (token : Token) (secret : Secret) (ignoreExpiration : Bool)
  | sendRawEmail (mail : Mail)
  | roleFindUnique (name : String)
  | userFindUnique (id : Id)
  | userFindUniqueByEmail (email : String)
  | userFindFirstByResetToken (resetTokenHash : Digest) (now : Nat)
  | userCreate (data : UserCreate)
  | userUpdate (id : Id) (data : UserData)
  | userUpdateManyByResetToken (resetTokenHash : Digest) (now : Nat) (data : UserData)
  | pendingFindUnique (id : Id)
  | pendingFindUniqueByEmail (email : String)
  | pendingUpsert (data : PendingUpsert)
  | pendingUpdate (id : Id) (data : PendingData)
  | pendingDelete (id : Id)
  | refreshSessionCreate (userId currentJti : Id)
  | refreshSessionUpdateMany (userId : Id) (currentJti : Option Id) (newJti : Id)
  | refreshSessionDeleteMany (userId : Id)

/-- What each statement is answered with. A statement on many rows is answered with their
    identifiers. -/
abbrev Ans : Stmt → Type
  | .now => Nat
  | .randomUUID => Id
  | .generateVerificationCode => String
  | .randomBytes => String
  | .bcryptHash _ => Hash
  | .bcryptCompare .. => Bool
  | .encrypt _ => String
  | .decrypt _ => String
  | .generateTotpSecret => String
  | .totpVerify .. => Bool
  | .jwtSign .. => Token
  | .jwtVerify .. => Option Payload
  | .sendRawEmail _ => Unit
  | .roleFindUnique _ => Option String
  | .userFindUnique _ => Option User
  | .userFindUniqueByEmail _ => Option User
  | .userFindFirstByResetToken .. => Option User
  | .userCreate _ => User
  | .userUpdate .. => User
  | .userUpdateManyByResetToken .. => List Id
  | .pendingFindUnique _ => Option PendingRegistration
  | .pendingFindUniqueByEmail _ => Option PendingRegistration
  | .pendingUpsert _ => PendingRegistration
  | .pendingUpdate .. => PendingRegistration
  | .pendingDelete _ => Unit
  | .refreshSessionCreate .. => RefreshSession
  | .refreshSessionUpdateMany .. => List Id
  | .refreshSessionDeleteMany _ => List Id

/-- A statement fails as the database or the library behind it does. -/
inductive Failure where
  | unavailable
  deriving DecidableEq

abbrev interface : Interface := ⟨Stmt, Ans, Failure⟩

/-! ## Answers -/

/-- What the state does not determine. -/
inductive Choice where
  | nat (n : Nat)
  | text (s : String)
  | flag (b : Bool)

namespace World

/-- Has another user taken this reset token? The column is unique. -/
def resetTokenFree (s : World) (id : Id) (resetTokenHash : Option (Option Digest)) : Bool :=
  match resetTokenHash with
  | some (some h) => s.users.rows.all fun u => u.resetTokenHash ≠ some h ∨ u.id = id
  | _ => true

/-- The users a reset token that is valid at `now` belongs to. -/
def resetting (s : World) (resetTokenHash : Digest) (now : Nat) : List User :=
  s.users.rows.filter fun u =>
    u.resetTokenHash = some resetTokenHash ∧ u.resetTokenExpiresAt.any (now < ·)

/-- The chains of a user that accept `currentJti`. A token without a `jti` matches none. -/
def accepting (s : World) (userId : Id) (currentJti : Option Id) : List RefreshSession :=
  s.refreshSessions.rows.filter fun r =>
    r.userId = userId ∧ some r.currentJti = currentJti ∧ r.revokedAt = none

/-- The chains of a user. -/
def sessionsOf (s : World) (userId : Id) : List RefreshSession :=
  s.refreshSessions.rows.filter fun r => r.userId = userId

/-- Is `jti` the current one of a chain? -/
def jtiTaken (s : World) (jti : Id) : Bool :=
  s.refreshSessions.rows.any fun r => r.currentJti = jti

/-- The present second. -/
def seconds (s : World) : Nat := s.clock / 1000

/-- Does `token` pass verification against `secret`? -/
def verifies (s : World) (token : Token) (secret : Secret) (ignoreExpiration : Bool) : Bool :=
  token ∈ s.minted ∧ token.secret = secret ∧ (ignoreExpiration ∨ s.seconds < token.exp)

end World

/-- Answer a statement; `none` where it cannot succeed. -/
def exec : (q : Stmt) → Choice → World → Option (Ans q)
  | .now, _, s => some s.clock
  | .randomUUID, .nat n, s => if n ∈ s.drawn then none else some n
  | .generateVerificationCode, .nat n, _ =>
      if 100000 ≤ n ∧ n < 1000000 then some (toString n) else none
  | .randomBytes, .text t, _ => some t
  | .bcryptHash _, .text t, _ => some t
  | .bcryptCompare .., .flag b, _ => some b
  | .encrypt _, .text t, _ => some t
  | .decrypt _, .text t, _ => some t
  | .generateTotpSecret, .text t, _ => some t
  | .totpVerify .., .flag b, _ => some b
  | .jwtSign payload expiresIn secret, _, s =>
      some ⟨payload, secret, s.seconds, s.seconds + expiresIn.lifetime s.config⟩
  | .jwtVerify token secret ignoreExpiration, _, s =>
      some (if s.verifies token secret ignoreExpiration then some token.payload else none)
  | .sendRawEmail _, _, _ => some ()
  | .roleFindUnique name, _, s => some (if name ∈ s.roles then some name else none)
  | .userFindUnique id, _, s => some (s.users.find? id)
  | .userFindUniqueByEmail email, _, s => some (s.users.rows.find? fun u => u.email = email)
  | .userFindFirstByResetToken resetTokenHash now, _, s =>
      some (s.resetting resetTokenHash now).head?
  | .userCreate data, .nat id, s =>
      if id ∈ s.drawn ∨ s.users.rows.any (fun u => u.id = id ∨ u.email = data.email) then none
      else some (data.row id)
  | .userUpdate id data, _, s =>
      if s.resetTokenFree id data.resetTokenHash then (s.users.find? id).map data.set else none
  | .userUpdateManyByResetToken resetTokenHash now _, _, s =>
      some ((s.resetting resetTokenHash now).map (·.id))
  | .pendingFindUnique id, _, s => some (s.pendingRegistrations.find? id)
  | .pendingFindUniqueByEmail email, _, s =>
      some (s.pendingRegistrations.rows.find? fun r => r.email = email)
  | .pendingUpsert data, .nat id, s =>
      match s.pendingRegistrations.rows.find? fun r => r.email = data.email with
      | some r => some (data.row r.id)
      | none =>
          if id ∈ s.drawn ∨ s.pendingRegistrations.contains id then none else some (data.row id)
  | .pendingUpdate id data, _, s => (s.pendingRegistrations.find? id).map data.set
  | .pendingDelete id, _, s => if s.pendingRegistrations.contains id then some () else none
  | .refreshSessionCreate userId currentJti, .nat id, s =>
      if id ∈ s.drawn ∨ s.refreshSessions.contains id ∨ s.jtiTaken currentJti then none
      else if s.users.contains userId then some ⟨id, userId, currentJti, none⟩
      else none
  | .refreshSessionUpdateMany userId currentJti newJti, _, s =>
      if (s.accepting userId currentJti).isEmpty then some []
      else if s.jtiTaken newJti then none
      else some ((s.accepting userId currentJti).map (·.id))
  | .refreshSessionDeleteMany userId, _, s => some ((s.sessionsOf userId).map (·.id))
  | _, _, _ => none

/-! ## Writes -/

inductive Write where
  | draw (id : Id)
  | mint (token : Token)
  | mail (mail : Mail)
  | newUser (row : User)
  | user (id : Id) (data : UserData)
  | pending (row : PendingRegistration)
  | pendingData (id : Id) (data : PendingData)
  | noPending (id : Id)
  | newSession (row : RefreshSession)
  | session (id newJti : Id)
  | exchange (jti : Id)
  | noSession (userId id : Id)

/-- The rows a statement changes, given its answer. -/
def writes : (q : Stmt) → Ans q → List Write
  | .randomUUID, id => [.draw id]
  | .jwtSign .., token => [.mint token]
  | .sendRawEmail mail, _ => [.mail mail]
  | .userCreate _, row => [.draw (User.id row), .newUser row]
  | .userUpdate id data, _ => [.user id data]
  | .userUpdateManyByResetToken _ _ data, ids => List.map (.user · data) ids
  | .pendingUpsert _, row => [.draw (PendingRegistration.id row), .pending row]
  | .pendingUpdate id data, _ => [.pendingData id data]
  | .pendingDelete id, _ => [.noPending id]
  | .refreshSessionCreate .., row => [.draw (RefreshSession.id row), .newSession row]
  | .refreshSessionUpdateMany _ (some currentJti) newJti, ids =>
      if List.isEmpty ids then []
      else .exchange currentJti :: List.map (.session · newJti) ids
  | .refreshSessionDeleteMany userId, ids => List.map (.noSession userId) ids
  | _, _ => []

namespace World

def apply : Write → World → World
  | .draw id, s => { s with drawn := id :: s.drawn }
  | .mint token, s => { s with minted := token :: s.minted }
  | .mail m, s => { s with outbox := m :: s.outbox }
  | .newUser row, s => { s with users := s.users.insert row }
  | .user id data, s => { s with users := s.users.modify id data.set data.key_set }
  | .pending row, s => { s with pendingRegistrations := s.pendingRegistrations.put row }
  | .pendingData id data, s =>
      { s with
        pendingRegistrations := s.pendingRegistrations.modify id data.set data.key_set }
  | .noPending id, s =>
      { s with
        pendingRegistrations := s.pendingRegistrations.filter fun r => r.id ≠ id }
  | .newSession row, s => { s with refreshSessions := s.refreshSessions.insert row }
  | .session id newJti, s =>
      { s with
        refreshSessions := s.refreshSessions.modify id (RefreshSession.rotate newJti)
          (RefreshSession.key_rotate newJti) }
  | .exchange jti, s => { s with rotated := jti :: s.rotated }
  | .noSession userId id, s =>
      { s with
        refreshSessions := s.refreshSessions.filter fun r => ¬(r.id = id ∧ r.userId = userId) }

end World

/-- The rows that writes lock. -/
inductive Key where
  | user (id : Id)
  | pending (id : Id)
  | session (id : Id)
  deriving DecidableEq

def Write.key : Write → Option Key
  | .newUser row => some (.user row.id)
  | .user id _ => some (.user id)
  | .pending row => some (.pending row.id)
  | .pendingData id _ => some (.pending id)
  | .noPending id => some (.pending id)
  | .newSession row => some (.session row.id)
  | .session id _ => some (.session id)
  | .noSession _ id => some (.session id)
  | _ => none

/-- Time passes. -/
def tick (n : Nat) (s : World) : World := { s with clock := s.clock + n }

abbrev model : Model interface where
  State := World
  Choice := Choice
  Write := Write
  Key := Key
  Env := Nat
  exec := exec
  writes := writes
  apply := World.apply
  key := Write.key
  env := tick

end GetPlatform.Auth
