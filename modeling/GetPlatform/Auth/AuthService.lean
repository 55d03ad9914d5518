import GetPlatform.Auth.World

set_option autoImplicit false

/-! # `AuthService`, `MfaService` and the verifiers of tokens

Registration, login, the exchange and the revocation of sessions, and the two places that check an
access token. Every read of a row is a statement of its own, so what was read may be out of date when
the next statement runs. -/

namespace GetPlatform.Auth

/-- The exceptions a call can end with. -/
inductive Err where
  | UnauthorizedException (message : String)
  | BadRequestException (message : String)
  | ConflictException (message : String)
  | NotFoundException (message : String)
  | ForbiddenException (message : String)
  | Error (message : String)
  | TypeError
  | database (f : Failure)
  deriving DecidableEq

abbrev Call (α : Type) := Prog interface Err α

/-- Send a statement. -/
def send (q : Stmt) : Call (Ans q) := @Prog.query interface Err .database q

def MAX_LOGIN_ATTEMPTS : Nat := 5

/-- 15 minutes. -/
def LOCK_TIME : Nat := 15 * 60 * 1000

def MAX_VERIFICATION_CODE_ATTEMPTS : Nat := 8

/-- 24 hours. -/
def EMAIL_VERIFICATION_EXPIRATION_MS : Nat := 24 * 60 * 60 * 1000

/-- 1 hour. -/
def RESET_TOKEN_EXPIRATION_MS : Nat := 60 * 60 * 1000

def CURRENT_TERMS_VERSION : String := "2026-08-11"

def DUMMY_PASSWORD_HASH : Hash := "$2b$10$CwTycUXWue0Thq9StjUM0uJ8g2xnfj/RcM7lz3l0i5U7YQ29OaG3."

/-! ## What the calls return -/

structure UserInfo where
  id : Id
  email : String
  firstName : String
  lastName : String
  role : String

/-- The tokens of a session. -/
structure Tokens where
  accessToken : Token
  refreshToken : Token

structure Session extends Tokens where
  user : UserInfo
  rememberMe : Bool

inductive LoginReply where
  | mfaRequired (challengeToken : Token)
  | session (session : Session)

/-- An empty text counts as absent. -/
def truthy (text : Option String) : Option String := text.filter (· ≠ "")

/-- `user.role?.name || 'STUDENT'`. -/
def roleName (user : User) : String := (truthy user.role).getD "STUDENT"

/-- `email.split('@')[0]`. -/
def localPart (email : String) : String := ((email.splitOn "@").head?).getD ""

def extractUserInfo (user : User) : UserInfo :=
  match user.student with
  | some student => ⟨user.id, user.email, student.firstName, student.lastName, roleName user⟩
  | none =>
      let fallback := if user.schoolAdmin then "School" else "Utilisateur"
      let lastName := if user.schoolAdmin then "Admin" else ""
      ⟨user.id, user.email, (truthy (some (localPart user.email))).getD fallback, lastName,
        roleName user⟩

/-! ## Signing and verifying -/

/-- `jwt.verify`; `none` where it throws. -/
def verify (token : Token) (secret : Secret) (ignoreExpiration : Bool) :
    Call (Option Payload) := do
  try send (.jwtVerify token secret ignoreExpiration)
  catch _ => pure none

/-- What an access token claims. -/
def accessClaims (userId : Id) (email role : String) (sessionVersion : Nat) (rememberMe : Bool) :
    Payload :=
  { sub := userId, email := some email, role := some role, sessionVersion := some sessionVersion,
    rememberMe := some rememberMe }

/-- What a refresh token claims: the same, and its `jti`. -/
def refreshClaims (userId : Id) (email role : String) (sessionVersion : Nat) (rememberMe : Bool)
    (refreshJti : Id) : Payload :=
  { accessClaims userId email role sessionVersion rememberMe with jti := some refreshJti }

def challengeClaims (userId : Id) (rememberMe : Bool) : Payload :=
  { sub := userId, type := some "mfa_challenge", rememberMe := some rememberMe }

def verifyClaims (pendingId : Id) : Payload := { sub := pendingId, type := some "email_verify" }

def generateTokens (userId : Id) (email role : String) (sessionVersion : Nat) (refreshJti : Id)
    (rememberMe : Bool) : Call Tokens := do
  let accessToken ← send <|
    .jwtSign (accessClaims userId email role sessionVersion rememberMe) .JWT_EXPIRATION .JWT_SECRET
  let refreshToken ← send <|
    .jwtSign (refreshClaims userId email role sessionVersion rememberMe refreshJti)
      .JWT_REFRESH_EXPIRATION .JWT_REFRESH_SECRET
  return { accessToken, refreshToken }

/-- `generateTokens` for a user as it was read; `user.role!` is `null` for a user without a role. -/
def tokensFor (user : User) (refreshJti : Id) (rememberMe : Bool) : Call Tokens :=
  match user.role with
  | none => throw .TypeError
  | some role => generateTokens user.id user.email role user.sessionVersion refreshJti rememberMe

def issueTokens (user : User) (rememberMe : Bool) : Call Tokens := do
  let jti ← send .randomUUID
  let _ ← send (.refreshSessionCreate user.id jti)
  tokensFor user jti rememberMe

/-! ## `MfaService` -/

def decryptMfaSecret (secret : String) : Call String := do
  try send (.decrypt secret)
  catch _ => throw (.BadRequestException "Secret MFA illisible, contactez un administrateur")

def verifyCode (userId : Id) (code : String) : Call Bool := do
  let user ← send (.userFindUnique userId)
  match truthy (user.bind (·.mfaSecret)) with
  | none => return false
  | some mfaSecret =>
      let secret ← decryptMfaSecret mfaSecret
      send (.totpVerify secret code)

def generateSecret (userId : Id) (currentCode : Option String) : Call String := do
  let some user ← send (.userFindUnique userId) | throw (.BadRequestException "User not found")
  let verified ←
    if user.mfaEnabled then
      match truthy currentCode with
      | none => pure false
      | some code => verifyCode userId code
    else pure true
  if ¬ verified then
    throw <| .BadRequestException
      "Le MFA est déjà activé : le code TOTP actuel est requis pour le ré-enrôler"
  let secret ← send .generateTotpSecret
  let mfaSecret ← send (.encrypt secret)
  let _ ← send (.userUpdate userId { mfaSecret := some (some mfaSecret), mfaEnabled := some false })
  return secret

def verifyAndEnable (userId : Id) (code : String) : Call Unit := do
  let some user ← send (.userFindUnique userId) | throw (.BadRequestException "User not found")
  let some mfaSecret := truthy user.mfaSecret | throw (.BadRequestException "MFA not configured")
  let secret ← decryptMfaSecret mfaSecret
  let verified ← send (.totpVerify secret code)
  if ¬ verified then throw (.BadRequestException "Invalid MFA code")
  let _ ← send (.userUpdate userId { mfaEnabled := some true })

/-- `MfaService.disable`. -/
def disable (userId : Id) (code : String) : Call Unit := do
  let verified ← verifyCode userId code
  if ¬ verified then throw (.BadRequestException "Invalid MFA code")
  let _ ← send (.userUpdate userId { mfaSecret := some none, mfaEnabled := some false })

/-! ## Registration -/

structure RegisterDto where
  email : String
  password : String
  firstName : String
  lastName : String
  phone : String
  acceptedTermsVersion : String

/-- `delete(…).catch(() => undefined)`. -/
def deletePending (pendingId : Id) : Call Unit := do
  try send (.pendingDelete pendingId)
  catch _ => pure ()

def sendVerificationEmail (pending : PendingRegistration) (code : String) : Call Unit := do
  let verifyToken ← send <|
    .jwtSign (verifyClaims pending.id) (.seconds (24 * 60 * 60)) .JWT_SECRET
  try send (.sendRawEmail (.verification pending.email pending.firstName verifyToken code))
  catch _ =>
    deletePending pending.id
    throw <| .BadRequestException
      "Impossible d'envoyer l'email de vérification, réessaie dans quelques instants."

/-- Put the registration aside until its address is verified, and return the address. -/
def register (dto : RegisterDto) : Call String := do
  if dto.acceptedTermsVersion ≠ CURRENT_TERMS_VERSION then
    throw <| .BadRequestException
      "La version des CGU a changé : merci de recharger la page et de les accepter à nouveau."
  let existing ← send (.userFindUniqueByEmail dto.email)
  if existing.isSome then throw (.ConflictException "Cet email est déjà utilisé")
  let hashedPassword ← send (.bcryptHash dto.password)
  let code ← send .generateVerificationCode
  let now ← send .now
  let encryptedPhone ← send (.encrypt dto.phone)
  let acceptedTermsAt ← send .now
  let pending ← send <| .pendingUpsert
    { email := dto.email, passwordHash := hashedPassword, firstName := dto.firstName,
      lastName := dto.lastName, phone := encryptedPhone, codeHash := sha256Hex code,
      expiresAt := now + EMAIL_VERIFICATION_EXPIRATION_MS,
      acceptedTermsVersion := dto.acceptedTermsVersion, acceptedTermsAt }
  sendVerificationEmail pending code
  return pending.email

/-- The account a pending registration turns into. -/
def PendingRegistration.account (pending : PendingRegistration) (role : String) : UserCreate :=
  { email := pending.email, password := pending.passwordHash, role,
    acceptedTermsVersion := pending.acceptedTermsVersion,
    acceptedTermsAt := pending.acceptedTermsAt,
    student := ⟨pending.firstName, pending.lastName, pending.phone⟩ }

def completeEmailVerification (pendingId : Id) : Call Session := do
  let some pending ← send (.pendingFindUnique pendingId)
    | throw <| .BadRequestException
        "Cette demande de vérification est introuvable ou a déjà été utilisée."
  let now ← send .now
  if pending.expiresAt < now then
    deletePending pendingId
    throw (.BadRequestException "Ce lien a expiré, redemande une vérification.")
  let existingUser ← send (.userFindUniqueByEmail pending.email)
  if existingUser.isSome then
    deletePending pendingId
    throw (.ConflictException "Cet email est déjà vérifié, connecte-toi.")
  let some studentRole ← send (.roleFindUnique "STUDENT")
    | throw (.Error "Rôle STUDENT introuvable. Exécutez d'abord le seed.")
  let user ← send (.userCreate (pending.account studentRole))
  send (.pendingDelete pendingId)
  let tokens ← issueTokens user true
  return { tokens with user := extractUserInfo user, rememberMe := true }

def verifyEmailByToken (token : Token) : Call Session := do
  let some payload ← verify token .JWT_SECRET false
    | throw (.BadRequestException "Lien de vérification invalide ou expiré")
  if payload.type ≠ some "email_verify" then
    throw (.BadRequestException "Lien de vérification invalide")
  completeEmailVerification payload.sub

def verifyEmailByCode (email code : String) : Call Session := do
  let some pending ← send (.pendingFindUniqueByEmail email)
    | throw (.BadRequestException "Aucune inscription en attente pour cet email")
  let now ← send .now
  if pending.expiresAt < now then
    deletePending pending.id
    throw (.BadRequestException "Ce code a expiré, redemande un nouveau code.")
  if MAX_VERIFICATION_CODE_ATTEMPTS ≤ pending.codeAttempts then
    throw (.BadRequestException "Trop de tentatives, redemande un nouveau code.")
  if sha256Hex code ≠ pending.codeHash then
    let _ ← send (.pendingUpdate pending.id { codeAttempts := some .increment })
    throw (.BadRequestException "Code de vérification invalide")
  completeEmailVerification pending.id

def resendVerification (email : String) : Call Unit := do
  match ← send (.pendingFindUniqueByEmail email) with
  | none => return ()
  | some pending =>
      let code ← send .generateVerificationCode
      let now ← send .now
      let updated ← send <| .pendingUpdate pending.id
        { codeHash := some (sha256Hex code), codeAttempts := some (.set 0),
          expiresAt := some (now + EMAIL_VERIFICATION_EXPIRATION_MS) }
      sendVerificationEmail updated code

/-! ## Login -/

structure LoginDto where
  email : String
  password : String
  remember : Option Bool := none

/-- `{ failedLoginAttempts: 0, lastFailedLoginAt: null }`. -/
def noFailedAttempts : UserData :=
  { failedLoginAttempts := some (.set 0), lastFailedLoginAt := some none }

/-- Is an account with these failures locked at `now`? -/
def Locked (user : User) (now : Nat) : Prop :=
  MAX_LOGIN_ATTEMPTS ≤ user.failedLoginAttempts ∧ ∃ t ∈ user.lastFailedLoginAt, now - t < LOCK_TIME

instance (user : User) (now : Nat) : Decidable (Locked user now) :=
  inferInstanceAs (Decidable (_ ∧ ∃ t ∈ user.lastFailedLoginAt, _))

def checkLoginAttempts (userId : Id) : Call Unit := do
  match ← send (.userFindUnique userId) with
  | none => return ()
  | some user =>
      if MAX_LOGIN_ATTEMPTS ≤ user.failedLoginAttempts then
        let now ← send .now
        if Locked user now then
          throw (.UnauthorizedException "Trop de tentatives. Réessayez dans 15 minutes.")
        let _ ← send (.userUpdate userId noFailedAttempts)

def incrementLoginAttempts (userId : Id) : Call Unit := do
  let now ← send .now
  let _ ← send <| .userUpdate userId
    { failedLoginAttempts := some .increment, lastFailedLoginAt := some (some now) }

def resetLoginAttempts (userId : Id) : Call Unit := do
  let _ ← send (.userUpdate userId noFailedAttempts)

/-- A session for a user whose identity was established. -/
def openSession (user : User) (rememberMe : Bool) : Call Session := do
  let now ← send .now
  let _ ← send (.userUpdate user.id { lastLogin := some now })
  let tokens ← issueTokens user rememberMe
  return { tokens with user := extractUserInfo user, rememberMe }

/-- Nobody has this address; a registration may be waiting under it. -/
def rejectUnknown (dto : LoginDto) : Call LoginReply := do
  let pending ← send (.pendingFindUniqueByEmail dto.email)
  let matchesPending ← send <|
    .bcryptCompare dto.password ((pending.map (·.passwordHash)).getD DUMMY_PASSWORD_HASH)
  if pending.isSome ∧ matchesPending then
    throw <| .UnauthorizedException
      "Merci de vérifier ton adresse email avant de te connecter (vérifie ta boîte de réception et tes spams)."
  throw (.UnauthorizedException "Identifiants invalides")

def login (dto : LoginDto) : Call LoginReply := do
  let some user ← send (.userFindUniqueByEmail dto.email) | rejectUnknown dto
  checkLoginAttempts user.id
  let isPasswordValid ← send (.bcryptCompare dto.password user.password)
  if ¬ isPasswordValid then
    incrementLoginAttempts user.id
    throw (.UnauthorizedException "Identifiants invalides")
  resetLoginAttempts user.id
  let rememberMe := dto.remember.getD true
  if user.mfaEnabled then
    return .mfaRequired <| ← send <|
      .jwtSign (challengeClaims user.id rememberMe) (.seconds (5 * 60)) .JWT_SECRET
  else
    return .session (← openSession user rememberMe)

def completeMfaLogin (challengeToken : Token) (code : String) : Call Session := do
  let some payload ← verify challengeToken .JWT_SECRET false
    | throw (.UnauthorizedException "Session MFA expirée, veuillez vous reconnecter")
  if payload.type ≠ some "mfa_challenge" then throw (.UnauthorizedException "Jeton invalide")
  let some user ← send (.userFindUnique payload.sub)
    | throw (.UnauthorizedException "Identifiants invalides")
  if ¬ user.mfaEnabled then throw (.UnauthorizedException "Identifiants invalides")
  let verified ← verifyCode user.id code
  if ¬ verified then throw (.BadRequestException "Code MFA invalide")
  openSession user (payload.rememberMe.getD true)

/-! ## Sessions -/

/-- `$transaction` of a batch; the isolation is the default of the database. -/
def transaction {α : Type} (body : Call α) : Call α :=
  Prog.transaction Err.database .readCommitted body

def revokeSession (userId : Id) : Call Unit :=
  transaction do
    let _ ← send (.userUpdate userId { incrementSessionVersion := true })
    let _ ← send (.refreshSessionDeleteMany userId)

/-- The answer to a token whose session is over. -/
def sessionRevoked : Err :=
  .UnauthorizedException "Session révoquée, veuillez vous reconnecter"

/-- The rotation of `refreshTokens`: exchange the `jti` of a token whose user was found current. A
    `jti` that no chain accepts counts as reused, and revokes every session of the user. -/
def rotate (user : User) (payload : Payload) : Call Session := do
  let rememberMe := payload.rememberMe.getD true
  let newJti ← send .randomUUID
  let count := List.length (← send (.refreshSessionUpdateMany user.id payload.jti newJti))
  if count = 0 then
    revokeSession user.id
    throw sessionRevoked
  else
    let tokens ← tokensFor user newJti rememberMe
    return { tokens with user := extractUserInfo user, rememberMe }

def refreshTokens (refreshToken : Token) : Call Session := do
  let some payload ← verify refreshToken .JWT_REFRESH_SECRET false
    | throw (.UnauthorizedException "Session expirée, veuillez vous reconnecter")
  if (truthy payload.type).isSome then
    throw (.UnauthorizedException "Jeton invalide pour cet usage")
  let some user ← send (.userFindUnique payload.sub)
    | throw (.UnauthorizedException "Utilisateur non trouvé ou inactif")
  if ¬ user.isActive then throw (.UnauthorizedException "Utilisateur non trouvé ou inactif")
  if payload.sessionVersion ≠ some user.sessionVersion then throw sessionRevoked
  rotate user payload

/-- `AuthController.logout`: revoke whatever session the access cookie names. -/
def logout (cookieToken : Option Token) : Call Unit := do
  match cookieToken with
  | none => return ()
  | some token =>
      match ← verify token .JWT_SECRET true with
      | none => return ()
      | some payload =>
          if (truthy payload.type).isSome then return ()
          else
            try revokeSession payload.sub
            catch _ => pure ()

/-! ## Passwords -/

def forgotPassword (email : String) : Call Unit := do
  match ← send (.userFindUniqueByEmail email) with
  | none => return ()
  | some user =>
      let resetToken ← send .randomBytes
      let now ← send .now
      let _ ← send <| .userUpdate user.id
        { resetTokenHash := some (some (sha256Hex resetToken))
          resetTokenExpiresAt := some (some (now + RESET_TOKEN_EXPIRATION_MS)) }
      try send (.sendRawEmail (.passwordReset user.email resetToken))
      catch _ => pure ()

def resetPassword (token newPassword : String) : Call Unit := do
  let resetTokenHash := sha256Hex token
  let hashedPassword ← send (.bcryptHash newPassword)
  let now ← send .now
  let candidate ← send (.userFindFirstByResetToken resetTokenHash now)
  let now' ← send .now
  let count := List.length (← send (.userUpdateManyByResetToken resetTokenHash now'
    { password := some hashedPassword, resetTokenHash := some none,
      resetTokenExpiresAt := some none, incrementSessionVersion := true }))
  if count = 0 then throw (.BadRequestException "Token invalide ou expiré")
  match candidate with
  | none => return ()
  | some user =>
      let _ ← send (.refreshSessionDeleteMany user.id)

/-- The two services differ in the exception for a user that does not exist. -/
def changePassword (missing : Err) (userId : Id) (currentPassword newPassword : String) :
    Call Unit := do
  let some user ← send (.userFindUnique userId) | throw missing
  let isValid ← send (.bcryptCompare currentPassword user.password)
  if ¬ isValid then throw (.BadRequestException "Le mot de passe actuel est incorrect")
  let hashedPassword ← send (.bcryptHash newPassword)
  let _ ← send <| .userUpdate userId
    { password := some hashedPassword, incrementSessionVersion := true }

def StudentService.changePassword : Id → String → String → Call Unit :=
  Auth.changePassword (.NotFoundException "Utilisateur introuvable")

def TeachingService.changePassword : Id → String → String → Call Unit :=
  Auth.changePassword (.ForbiddenException "Utilisateur introuvable")

/-! ## The verifiers of access tokens -/

/-- `JwtStrategy.validate`. -/
def validate (payload : Payload) : Call User := do
  if (truthy payload.type).isSome then
    throw (.UnauthorizedException "Jeton invalide pour cet usage")
  let some user ← send (.userFindUnique payload.sub)
    | throw (.UnauthorizedException "Utilisateur non trouvé ou inactif")
  if ¬ user.isActive then throw (.UnauthorizedException "Utilisateur non trouvé ou inactif")
  if payload.sessionVersion ≠ some user.sessionVersion then throw sessionRevoked
  return { user with role := some (roleName user) }

/-- `JwtStrategy`: Passport verifies the token before it calls `validate`. -/
def authenticate (token : Token) : Call User := do
  let some payload ← verify token .JWT_SECRET false | throw (.UnauthorizedException "Unauthorized")
  validate payload

/-- What `requireUser` does with a token, inside its `try`. A rejection is an answer with status 401
    and its message. -/
def checkToken (token : Token) : Call (Except String User) := do
  let some payload ← verify token .JWT_SECRET false | return .error "Jeton invalide ou expiré"
  let some user ← send (.userFindUnique payload.sub) | return .error "Utilisateur invalide"
  if ¬ user.isActive then return .error "Utilisateur invalide"
  else if payload.sessionVersion ≠ some user.sessionVersion then return .error "Session révoquée"
  else return .ok { user with role := some (roleName user) }

def requireUser (token : Option Token) : Call (Except String User) := do
  match token with
  | none => return .error "Authentification requise"
  | some token =>
      try checkToken token
      catch _ => pure (.error "Jeton invalide ou expiré")

/-! ## The calls -/

inductive Op where
  | register (dto : RegisterDto)
  | resendVerification (email : String)
  | verifyEmailByToken (token : Token)
  | verifyEmailByCode (email code : String)
  | login (dto : LoginDto)
  | completeMfaLogin (challengeToken : Token) (code : String)
  | refreshTokens (refreshToken : Token)
  | revokeSession (userId : Id)
  | logout (cookieToken : Option Token)
  | forgotPassword (email : String)
  | resetPassword (token newPassword : String)
  | studentChangePassword (userId : Id) (currentPassword newPassword : String)
  | teacherChangePassword (userId : Id) (currentPassword newPassword : String)
  | enableMfa (userId : Id) (currentCode : Option String)
  | verifyMfa (userId : Id) (code : String)
  | disableMfa (userId : Id) (code : String)
  | authenticate (token : Token)
  | requireUser (token : Option Token)

inductive Reply where
  | done
  | text (text : String)
  | login (reply : LoginReply)
  | session (session : Session)
  | user (user : User)
  | checked (outcome : Except String User)

/-- The program each call runs. -/
def prog : Op → Call Reply
  | .register dto => .text <$> register dto
  | .resendVerification email => (fun _ => .done) <$> resendVerification email
  | .verifyEmailByToken token => .session <$> verifyEmailByToken token
  | .verifyEmailByCode email code => .session <$> verifyEmailByCode email code
  | .login dto => .login <$> login dto
  | .completeMfaLogin challengeToken code => .session <$> completeMfaLogin challengeToken code
  | .refreshTokens refreshToken => .session <$> refreshTokens refreshToken
  | .revokeSession userId => (fun _ => .done) <$> revokeSession userId
  | .logout cookieToken => (fun _ => .done) <$> logout cookieToken
  | .forgotPassword email => (fun _ => .done) <$> forgotPassword email
  | .resetPassword token newPassword => (fun _ => .done) <$> resetPassword token newPassword
  | .studentChangePassword userId currentPassword newPassword =>
      (fun _ => .done) <$> StudentService.changePassword userId currentPassword newPassword
  | .teacherChangePassword userId currentPassword newPassword =>
      (fun _ => .done) <$> TeachingService.changePassword userId currentPassword newPassword
  | .enableMfa userId currentCode => .text <$> generateSecret userId currentCode
  | .verifyMfa userId code => (fun _ => .done) <$> verifyAndEnable userId code
  | .disableMfa userId code => (fun _ => .done) <$> disable userId code
  | .authenticate token => .user <$> authenticate token
  | .requireUser token => .checked <$> requireUser token

/-- The authentication side with its calls in progress. -/
abbrev Platform := Pool model Op Err Reply

/-! ## An account to try things on -/

/-- `n` commands of the call at place `i`, none of which is given a choice that matters. -/
def commands (i n : Nat) : List (Step model Op) := List.replicate n (.exec i (.nat 0))

/-- A student who has just been given an account. -/
def student : User :=
  UserCreate.row
    { email := "jean@get.mg", password := "hash", role := "STUDENT",
      acceptedTermsVersion := CURRENT_TERMS_VERSION, acceptedTermsAt := 0,
      student := ⟨"Jean", "Rakoto", "034"⟩ } 1

/-- The refresh token of the student's first session. -/
def firstToken : Token :=
  ⟨refreshClaims 1 "jean@get.mg" "STUDENT" 0 true 7, .JWT_REFRESH_SECRET, 0, 604800⟩

/-- The student is signed in: a chain accepts the token. -/
def signedIn : World :=
  { World.empty with
    users := .ofList [student]
    refreshSessions := .ofList [⟨5, 1, 7, none⟩]
    minted := [firstToken]
    drawn := [1, 5, 7] }

/-- The commands of a refresh with `token`, the call at place `i`, up to where it has read the
    user. -/
def refreshStart (i : Nat) (token : Token) : List (Step model Op) :=
  .spawn (.refreshTokens token) :: commands i 2

/-- The rest of a refresh that succeeds and draws `newJti`. -/
def refreshFinish (i newJti : Nat) : List (Step model Op) :=
  .exec i (.nat newJti) :: commands i 3

/-- The student changes the password, in the call at place `i`. -/
def changeCommands (i : Nat) : List (Step model Op) :=
  [.spawn (.studentChangePassword 1 "old" "new"), .exec i (.nat 0), .exec i (.flag true),
    .exec i (.text "hash2"), .exec i (.nat 0)]

end GetPlatform.Auth
