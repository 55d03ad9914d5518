import GetPlatform.Store.Table

set_option autoImplicit false

/-! # Accounts, refresh sessions and tokens

The rows of the authentication side, with the columns its services read or write. Identifiers are
numbers where the schema has UUIDs, and instants are milliseconds. A signed token is kept as what was
signed and the secret it was signed with; a SHA-256 hash is kept as the text it was made from, since
no two texts with one hash are known. -/

namespace GetPlatform.Auth

abbrev Id := Nat

/-- A hash made by bcrypt. -/
abbrev Hash := String

/-- A SHA-256 hash. -/
structure Digest where
  value : String
  deriving DecidableEq

def sha256Hex (value : String) : Digest := ⟨value⟩

/-! ## Rows -/

/-- The `Student` row that is created with an account. -/
structure Student where
  firstName : String
  lastName : String
  phone : String
  deriving DecidableEq

structure User where
  id : Id
  email : String
  password : Hash
  role : Option String
  isActive : Bool
  student : Option Student
  schoolAdmin : Bool
  lastLogin : Option Nat
  mfaSecret : Option String
  mfaEnabled : Bool
  failedLoginAttempts : Nat
  lastFailedLoginAt : Option Nat
  sessionVersion : Nat
  resetTokenHash : Option Digest
  resetTokenExpiresAt : Option Nat
  acceptedTermsVersion : Option String
  acceptedTermsAt : Option Nat
  deriving DecidableEq

/-- One rotation chain of refresh tokens; `currentJti` is the only one it accepts. -/
structure RefreshSession where
  id : Id
  userId : Id
  currentJti : Id
  revokedAt : Option Nat
  deriving DecidableEq

structure PendingRegistration where
  id : Id
  email : String
  passwordHash : Hash
  firstName : String
  lastName : String
  phone : String
  codeHash : Digest
  codeAttempts : Nat
  expiresAt : Nat
  acceptedTermsVersion : String
  acceptedTermsAt : Nat
  deriving DecidableEq

instance : Keyed User Id := ⟨User.id⟩
instance : Keyed RefreshSession Id := ⟨RefreshSession.id⟩
instance : Keyed PendingRegistration Id := ⟨PendingRegistration.id⟩

/-! ## What the queries set -/

/-- What an update does to a number. -/
inductive Counter where
  | set (n : Nat)
  | increment

def Counter.apply : Counter → Nat → Nat
  | .set n, _ => n
  | .increment, m => m + 1

/-- The columns an update of a user sets; the others are left as they are. The version of the
    sessions is only ever incremented. -/
structure UserData where
  password : Option Hash := none
  lastLogin : Option Nat := none
  mfaSecret : Option (Option String) := none
  mfaEnabled : Option Bool := none
  failedLoginAttempts : Option Counter := none
  lastFailedLoginAt : Option (Option Nat) := none
  incrementSessionVersion : Bool := false
  resetTokenHash : Option (Option Digest) := none
  resetTokenExpiresAt : Option (Option Nat) := none

def UserData.set (d : UserData) (u : User) : User :=
  { u with
    password := d.password.getD u.password
    lastLogin := d.lastLogin <|> u.lastLogin
    mfaSecret := d.mfaSecret.getD u.mfaSecret
    mfaEnabled := d.mfaEnabled.getD u.mfaEnabled
    failedLoginAttempts := (d.failedLoginAttempts.map (·.apply u.failedLoginAttempts)).getD
      u.failedLoginAttempts
    lastFailedLoginAt := d.lastFailedLoginAt.getD u.lastFailedLoginAt
    sessionVersion := if d.incrementSessionVersion then u.sessionVersion + 1 else u.sessionVersion
    resetTokenHash := d.resetTokenHash.getD u.resetTokenHash
    resetTokenExpiresAt := d.resetTokenExpiresAt.getD u.resetTokenExpiresAt }

theorem UserData.key_set (d : UserData) (u : User) : Keyed.key (d.set u) = Keyed.key u := rfl

@[simp] theorem UserData.set_id (d : UserData) (u : User) : (d.set u).id = u.id := rfl

@[simp] theorem UserData.set_isActive (d : UserData) (u : User) :
    (d.set u).isActive = u.isActive := rfl

/-- The columns of a new account that its creator chooses. -/
structure UserCreate where
  email : String
  password : Hash
  role : String
  acceptedTermsVersion : String
  acceptedTermsAt : Nat
  student : Student
  deriving DecidableEq

def UserCreate.row (d : UserCreate) (id : Id) : User :=
  { id, email := d.email, password := d.password, role := some d.role, isActive := true,
    student := some d.student, schoolAdmin := false, lastLogin := none, mfaSecret := none,
    mfaEnabled := false, failedLoginAttempts := 0, lastFailedLoginAt := none, sessionVersion := 0,
    resetTokenHash := none, resetTokenExpiresAt := none,
    acceptedTermsVersion := some d.acceptedTermsVersion, acceptedTermsAt := some d.acceptedTermsAt }

/-- What a registration puts in a pending row, whether it is new or there already. -/
structure PendingUpsert where
  email : String
  passwordHash : Hash
  firstName : String
  lastName : String
  phone : String
  codeHash : Digest
  expiresAt : Nat
  acceptedTermsVersion : String
  acceptedTermsAt : Nat

def PendingUpsert.row (d : PendingUpsert) (id : Id) : PendingRegistration :=
  { d with id, codeAttempts := 0 }

/-- The columns an update of a pending registration sets. -/
structure PendingData where
  codeHash : Option Digest := none
  codeAttempts : Option Counter := none
  expiresAt : Option Nat := none

def PendingData.set (d : PendingData) (r : PendingRegistration) : PendingRegistration :=
  { r with
    codeHash := d.codeHash.getD r.codeHash
    codeAttempts := (d.codeAttempts.map (·.apply r.codeAttempts)).getD r.codeAttempts
    expiresAt := d.expiresAt.getD r.expiresAt }

theorem PendingData.key_set (d : PendingData) (r : PendingRegistration) :
    Keyed.key (d.set r) = Keyed.key r := rfl

/-- `data: { currentJti: newJti }`. -/
def RefreshSession.rotate (newJti : Id) (r : RefreshSession) : RefreshSession :=
  { r with currentJti := newJti }

theorem RefreshSession.key_rotate (newJti : Id) (r : RefreshSession) :
    Keyed.key (r.rotate newJti) = Keyed.key r := rfl

/-! ## Tokens -/

inductive Secret where
  | JWT_SECRET
  | JWT_REFRESH_SECRET
  deriving DecidableEq

/-- The claims of a token; those it does not carry are `none`. -/
structure Payload where
  sub : Id
  type : Option String := none
  email : Option String := none
  role : Option String := none
  sessionVersion : Option Nat := none
  rememberMe : Option Bool := none
  jti : Option Id := none
  deriving DecidableEq

/-- A signed token. Its instants are seconds. -/
structure Token where
  payload : Payload
  secret : Secret
  iat : Nat
  exp : Nat
  deriving DecidableEq

/-- How long a token is valid: as configured, or a number of seconds. -/
inductive Expiration where
  | JWT_EXPIRATION
  | JWT_REFRESH_EXPIRATION
  | seconds (n : Nat)

/-- The configured lifetimes, in seconds. -/
structure Config where
  jwtExpiration : Nat
  jwtRefreshExpiration : Nat

def Expiration.lifetime (c : Config) : Expiration → Nat
  | .JWT_EXPIRATION => c.jwtExpiration
  | .JWT_REFRESH_EXPIRATION => c.jwtRefreshExpiration
  | .seconds n => n

/-! ## Mails -/

inductive Mail where
  | verification (email firstName : String) (verifyToken : Token) (code : String)
  | passwordReset (email : String) (resetToken : String)
  deriving DecidableEq

end GetPlatform.Auth
