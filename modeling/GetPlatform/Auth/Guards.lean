import GetPlatform.Auth.AuthService
import GetPlatform.Store.History

set_option autoImplicit false

/-! # What the services rely on when they open, exchange and revoke a session

For every statement that touches the sessions or signs a token, what the call has read or written
before it sends that statement; and for every call that is presented with a token, what it has checked
when it returns. `prog_conforms` proves this of the text of all services. -/

namespace GetPlatform.Auth

open Prog

abbrev Log := Trace interface Op

abbrev Ev := Event interface

/-! ## Kinds of tokens -/

inductive Kind where
  | access
  | refresh
  | mfaChallenge
  | emailVerify
  deriving DecidableEq

/-- The secret tokens of a kind are signed with. -/
def Kind.secret : Kind → Secret
  | .refresh => .JWT_REFRESH_SECRET
  | _ => .JWT_SECRET

/-- Is `payload` what the service signs when it makes a token of this kind? -/
def Kind.Claims (payload : Payload) : Kind → Prop
  | .access => ∃ userId email role sessionVersion rememberMe,
      payload = accessClaims userId email role sessionVersion rememberMe
  | .refresh => ∃ userId email role sessionVersion rememberMe jti,
      payload = refreshClaims userId email role sessionVersion rememberMe jti
  | .mfaChallenge => ∃ userId rememberMe, payload = challengeClaims userId rememberMe
  | .emailVerify => ∃ pendingId, payload = verifyClaims pendingId

/-- The token a call is presented with, and the kind of token the call is for. -/
def Op.presents : Op → Option (Token × Kind)
  | .authenticate token => some (token, .access)
  | .requireUser token => token.map (·, .access)
  | .refreshTokens token => some (token, .refresh)
  | .completeMfaLogin token _ => some (token, .mfaChallenge)
  | .verifyEmailByToken token => some (token, .emailVerify)
  | _ => none

/-! ## What the events of a call say -/

/-- The user an event read or created. -/
def known : Ev → Option User
  | ⟨.userFindUnique _, found⟩ => found
  | ⟨.userFindUniqueByEmail _, found⟩ => found
  | ⟨.userCreate _, row⟩ => some row
  | _ => none

/-- `es` read or created user `u`. -/
def Knows (es : List Ev) (u : User) : Prop := ∃ e ∈ es, known e = some u

/-- The `jti` a statement puts in a chain. -/
def placed : Stmt → Option Id
  | .refreshSessionCreate _ jti => some jti
  | .refreshSessionUpdateMany _ _ newJti => some newJti
  | _ => none

/-- The user and the `jti` of a chain that an event opened or moved on. -/
def opened : Ev → Option (Id × Id)
  | ⟨.refreshSessionCreate userId jti, _⟩ => some (userId, jti)
  | ⟨.refreshSessionUpdateMany userId _ newJti, ids⟩ =>
      if List.isEmpty ids then none else some (userId, newJti)
  | _ => none

/-- `es` made `jti` the current one of a chain of the user. -/
def Opens (es : List Ev) (userId jti : Id) : Prop := ∃ e ∈ es, opened e = some (userId, jti)

/-- The `jti` an event exchanged for a new one. -/
def exchanged : Ev → Option Id
  | ⟨.refreshSessionUpdateMany _ jti _, ids⟩ => if List.isEmpty ids then none else jti
  | _ => none

/-- `es` holds an exchange of `jti`. -/
def Exchanges (es : List Ev) (jti : Id) : Prop := ∃ e ∈ es, exchanged e = some jti

/-- `{ sessionVersion: { increment: 1 } }`. -/
def revocation : UserData := { incrementSessionVersion := true }

/-- `es` revoked the sessions of a user: the version moved on, and the chains `ids` are gone. -/
def Revokes (es : List Ev) (userId : Id) (ids : List Id) : Prop :=
  ∃ row, (⟨.userUpdate userId revocation, row⟩ : Ev) ∈ es ∧
    (⟨.refreshSessionDeleteMany userId, ids⟩ : Ev) ∈ es

/-- `es` verified `token` as one of kind `kind`. -/
def Verified (es : List Ev) (token : Token) (kind : Kind) : Prop :=
  (⟨.jwtVerify token kind.secret false, some token.payload⟩ : Ev) ∈ es

/-- `es` found the user a token names active, and in the version the token carries. -/
def Current (es : List Ev) (token : Token) (u : User) : Prop :=
  (⟨.userFindUnique token.payload.sub, some u⟩ : Ev) ∈ es ∧ u.isActive = true ∧
    token.payload.sessionVersion = some u.sessionVersion

/-- What a call has checked of a token it accepts as one of a kind. -/
def Accepted (es : List Ev) (token : Token) (kind : Kind) : Prop :=
  Verified es token kind ∧
    match kind with
    | .access => ∃ u, Current es token u
    | .refresh => ∃ u, Current es token u
    | .mfaChallenge => token.payload.type = some "mfa_challenge"
    | .emailVerify => token.payload.type = some "email_verify"

/-! ## The guards -/

def stmtGuard (l : Log) : Stmt → Prop
  -- Users are read before a chain is written.
  | .userFindUnique _ => l.tx = none ∧ ∀ e ∈ l.done, placed e.stmt = none
  | .userFindUniqueByEmail _ => l.tx = none ∧ ∀ e ∈ l.done, placed e.stmt = none
  | .userCreate _ => l.tx = none ∧ ∀ e ∈ l.done, placed e.stmt = none
  | .refreshSessionCreate _ jti =>
      l.tx = none ∧ (⟨.randomUUID, jti⟩ : Ev) ∈ l.done ∧ ∀ e ∈ l.done, placed e.stmt = none
  | .refreshSessionUpdateMany userId jti newJti =>
      l.tx = none ∧ (⟨.randomUUID, newJti⟩ : Ev) ∈ l.done ∧ (∀ e ∈ l.done, placed e.stmt = none) ∧
        ∃ token u, l.op = .refreshTokens token ∧ Verified l.done token .refresh ∧
          Current l.done token u ∧ u.id = userId ∧ token.payload.jti = jti
  | .jwtSign payload _ secret =>
      l.tx = none ∧ ∃ kind : Kind, kind.secret = secret ∧ kind.Claims payload ∧
        (kind = .refresh → ∃ u jti, Knows l.done u ∧ Opens l.done u.id jti ∧ payload.sub = u.id ∧
          payload.sessionVersion = some u.sessionVersion ∧ payload.jti = some jti)
  -- A revocation increments the version, and then deletes the chains.
  | .userUpdate _ data => l.tx = none ∨ l.pending = [] ∧ data = revocation
  | .refreshSessionDeleteMany userId =>
      (l.tx = none ∧ ∃ token newPassword, l.op = .resetPassword token newPassword) ∨
        ∃ row, l.pending = [⟨.userUpdate userId revocation, row⟩]
  | _ => l.tx = none

/-- The only transaction is a revocation. -/
def commitGuard (l : Log) : Prop :=
  ∃ userId row ids, l.pending =
    [⟨.userUpdate userId revocation, row⟩, ⟨.refreshSessionDeleteMany userId, ids⟩]

def guards : Guards interface Op where
  stmt := stmtGuard
  commit := commitGuard

/-! ## Results -/

/-- Does the call accept what it was asked to check? -/
def Reply.accepts : Reply → Bool
  | .checked (.error _) => false
  | _ => true

/-- The tokens a reply hands out carry version `v`. -/
def Reply.Carries (v : Option Nat) : Reply → Prop
  | .session s => s.accessToken.payload.sessionVersion = v ∧
      s.refreshToken.payload.sessionVersion = v
  | _ => True

/-- `es` exchanged the `jti` of `token`. -/
def Spends (es : List Ev) (token : Token) : Prop :=
  ∃ jti, token.payload.jti = some jti ∧ Exchanges es jti

/-- A call that accepts a token has checked it. One that exchanges it has spent its `jti`, and the
    pair it returns carries the version of the token. -/
def Returns (l : Log) (reply : Reply) : Prop :=
  reply.accepts = true → ∀ token kind, l.op.presents = some (token, kind) →
    Accepted l.done token kind ∧ (kind = .refresh →
      Spends l.done token ∧ reply.Carries token.payload.sessionVersion)

/-- An exchange that was refused after the user was found in the version of the token has exchanged
    the `jti` after all, or has revoked the sessions; unless it was the database that failed. -/
def Fails (l : Log) (e : Err) : Prop :=
  ∀ token u, l.op = .refreshTokens token → Current l.done token u →
    (∃ f, e = .database f) ∨ Spends l.done token ∨ ∃ ids, Revokes l.done token.payload.sub ids

/-! ## Conformance -/

section Conformance

variable {α : Type} {Q : Log → α → Prop} {E : Log → Err → Prop} {l : Log} {o : Op} {d : List Ev}

@[simp] theorem conforms_send {q : Stmt} {Q : Log → Ans q → Prop} :
    @Conforms interface model Err (no_index (Ans q)) Op guards (send q) Q E l ↔
      stmtGuard l q ∧ (∀ f, E l (.database f)) ∧
        ∀ a, model.Possible q a → Q (l.push ⟨q, a⟩) a := Iff.rfl

@[simp] theorem only_send {P : Stmt → Prop} {q : Stmt} :
    @Only interface Err (no_index (Ans q)) P (send q) ↔ P q := only_query (S := interface) _ _

@[simp] theorem only_send_handle {β : Type} {P : Stmt → Prop} {q : Stmt} (f : Ans q → Call β)
    (g : Err → Call β) :
    Only P (@Prog.handle interface Err Err (no_index (Ans q)) β (send q) f g) ↔
      P q ∧ (∀ a, (f a).Only P) ∧ ∀ f', (g (.database f')).Only P :=
  only_query_handle (S := interface) ..

/-- Statements that neither touch a chain nor sign a token. -/
def Plain : Stmt → Prop
  | .refreshSessionCreate .. => False
  | .refreshSessionUpdateMany .. => False
  | .refreshSessionDeleteMany _ => False
  | .jwtSign .. => False
  | _ => True

/-- An update that leaves the counter of failed logins alone. -/
def UserData.Mild (data : UserData) : Prop :=
  data.failedLoginAttempts = none ∧ data.lastFailedLoginAt = none

/-- Statements that leave the counters of failed logins alone. -/
def Mild : Stmt → Prop
  | .userUpdate _ data => data.Mild
  | .userUpdateManyByResetToken _ _ data => data.Mild
  | _ => True

def Routine (q : Stmt) : Prop := Plain q ∧ Mild q

theorem plain_of_routine {p : Call α} (h : p.Only Routine) : p.Only Plain := h.mono fun _ hq => hq.1

theorem Plain.guard {q : Stmt} (h : Plain q) (hd : ∀ e ∈ d, placed e.stmt = none) :
    stmtGuard ⟨o, d, none⟩ q := by
  cases q <;> first | exact ⟨rfl, hd⟩ | exact .inl rfl | exact rfl | exact h.elim

theorem Plain.placed {q : Stmt} (h : Plain q) : placed q = none := by
  cases q <;> first | rfl | exact h.elim

theorem none_placed_append {d' : List Ev} (hd : ∀ e ∈ d, placed e.stmt = none)
    (hd' : ∀ e ∈ d', placed e.stmt = none) : ∀ e ∈ d ++ d', placed e.stmt = none := by
  intro e he
  rcases List.mem_append.1 he with he | he
  · exact hd e he
  · exact hd' e he

/-- A part that only sends plain statements may come anywhere before a chain is written. -/
theorem conforms_plain {p : Call α} (hp : p.Only Plain) (hd : ∀ e ∈ d, placed e.stmt = none)
    (hQ : ∀ d' a, (∀ e ∈ d', Plain e.stmt) → Q ⟨o, d ++ d', none⟩ a)
    (hE : ∀ d' e, (∀ e ∈ d', Plain e.stmt) → E ⟨o, d ++ d', none⟩ e) :
    p.Conforms model guards Q E ⟨o, d, none⟩ := by
  refine hp.conforms_outside (fun d' hd' q hq => hq.guard ?_)
    (fun d' hd' a => hQ d' a hd') (fun d' hd' e => hE d' e hd')
  exact none_placed_append hd fun e he => (hd' e he).placed

theorem payload_of_verify {token : Token} {secret : Secret} {b : Bool} {payload : Payload}
    (h : model.Possible (.jwtVerify token secret b) (some payload)) : payload = token.payload := by
  obtain ⟨c, s, h⟩ := h
  have h := Option.some.inj h
  split at h
  · exact (Option.some.inj h).symm
  · cases h

theorem payload_of_sign {payload : Payload} {expiresIn : Expiration} {secret : Secret}
    {token : Token} (h : model.Possible (.jwtSign payload expiresIn secret) token) :
    token.payload = payload ∧ token.secret = secret := by
  obtain ⟨c, s, h⟩ := h
  obtain rfl := Option.some.inj h
  exact ⟨rfl, rfl⟩

/-- `verify` sends one statement, and its failure counts as a token that does not verify. -/
theorem verify_conforms {token : Token} {secret : Secret} {b : Bool}
    {Q : Log → Option Payload → Prop} (hfail : Q ⟨o, d, none⟩ none)
    (hnone : Q ⟨o, d ++ [⟨.jwtVerify token secret b, none⟩], none⟩ none)
    (hsome : Q ⟨o, d ++ [⟨.jwtVerify token secret b, some token.payload⟩], none⟩
      (some token.payload)) :
    (verify token secret b).Conforms model guards Q E ⟨o, d, none⟩ := by
  simp only [verify, tryCatch_eq, pure_eq, conforms_handle, conforms_send, conforms_ret]
  refine ⟨rfl, fun _ => hfail, fun a ha => ?_⟩
  cases a with
  | none => exact hnone
  | some payload => exact payload_of_verify ha ▸ hsome

theorem only_verify (token : Token) (secret : Secret) (b : Bool) :
    (verify token secret b).Only Routine := by
  simp [verify, Routine, Plain, Mild]

/-! ### Opening a session -/

theorem Knows.append {u : User} (h : Knows d u) (d' : List Ev) : Knows (d ++ d') u := by
  obtain ⟨e, he, hu⟩ := h
  exact ⟨e, List.mem_append_left _ he, hu⟩

theorem Opens.append {userId jti : Id} (h : Opens d userId jti) (d' : List Ev) :
    Opens (d ++ d') userId jti := by
  obtain ⟨e, he, hu⟩ := h
  exact ⟨e, List.mem_append_left _ he, hu⟩

theorem tokensFor_conforms {user : User} {jti : Id} {rememberMe : Bool} {Q : Log → Tokens → Prop}
    (hknow : Knows d user) (hopen : Opens d user.id jti) (hE : ∀ d' e, E ⟨o, d ++ d', none⟩ e)
    (hQ : ∀ d' tokens, tokens.accessToken.payload.sessionVersion = some user.sessionVersion →
      tokens.refreshToken.payload.sessionVersion = some user.sessionVersion →
      Q ⟨o, d ++ d', none⟩ tokens) :
    (tokensFor user jti rememberMe).Conforms model guards Q E ⟨o, d, none⟩ := by
  unfold tokensFor
  cases user.role with
  | none => simpa using hE [] .TypeError
  | some role =>
      simp only [generateTokens, bind_eq, pure_eq, conforms_handle, conforms_send, conforms_fail,
        conforms_ret, Trace.push_outside, List.append_assoc, List.singleton_append]
      refine ⟨⟨rfl, .access, rfl, ⟨_, _, _, _, _, rfl⟩, by simp⟩,
        fun _ => by simpa using hE [] _, fun access haccess =>
        ⟨⟨rfl, .refresh, rfl, ⟨_, _, _, _, _, _, rfl⟩, fun _ => ?_⟩, fun _ => hE _ _,
          fun refresh hrefresh => ?_⟩⟩
      · exact ⟨user, jti, hknow.append _, hopen.append _, rfl, rfl, rfl⟩
      · refine hQ _ _ ?_ ?_
        · rw [(payload_of_sign haccess).1]
          rfl
        · rw [(payload_of_sign hrefresh).1]
          rfl

theorem issueTokens_conforms {user : User} {rememberMe : Bool} {Q : Log → Tokens → Prop}
    (hknow : Knows d user) (hd : ∀ e ∈ d, placed e.stmt = none)
    (hE : ∀ d' e, E ⟨o, d ++ d', none⟩ e) (hQ : ∀ d' tokens, Q ⟨o, d ++ d', none⟩ tokens) :
    (issueTokens user rememberMe).Conforms model guards Q E ⟨o, d, none⟩ := by
  simp only [issueTokens, bind_eq, conforms_handle, conforms_send, conforms_fail,
    Trace.push_outside, List.append_assoc, List.singleton_append]
  refine ⟨rfl, fun _ => by simpa using hE [] _, fun jti _ => ⟨⟨rfl, by simp, ?_⟩,
    fun _ => hE _ _, fun row _ => ?_⟩⟩
  · exact none_placed_append hd (by simp [placed])
  · refine tokensFor_conforms (hknow.append _)
      ⟨⟨.refreshSessionCreate user.id jti, row⟩, by simp, rfl⟩ (fun d' e => ?_)
      fun d' tokens _ _ => ?_
    · rw [List.append_assoc]
      exact hE _ e
    · rw [List.append_assoc]
      exact hQ _ tokens

theorem openSession_conforms {user : User} {rememberMe : Bool} {Q : Log → Session → Prop}
    (hknow : Knows d user) (hd : ∀ e ∈ d, placed e.stmt = none)
    (hE : ∀ d' e, E ⟨o, d ++ d', none⟩ e) (hQ : ∀ d' a, Q ⟨o, d ++ d', none⟩ a) :
    (openSession user rememberMe).Conforms model guards Q E ⟨o, d, none⟩ := by
  simp only [openSession, bind_eq, pure_eq, conforms_handle, conforms_send, conforms_fail,
    conforms_ret, Trace.push_outside, List.append_assoc, List.singleton_append]
  refine ⟨rfl, fun _ => by simpa using hE [] _, fun now _ => ⟨.inl rfl, fun _ => hE _ _,
    fun row _ => ?_⟩⟩
  refine issueTokens_conforms (hknow.append _) (none_placed_append hd (by simp [placed]))
    (fun d' e => ?_) fun d' tokens => ?_
  · rw [List.append_assoc]
    exact hE _ e
  · rw [List.append_assoc]
    exact hQ _ _

/-! ### Revoking a session -/

theorem revokeSession_conforms {userId : Id} {Q : Log → Unit → Prop}
    (hE : ∀ f, E ⟨o, d, none⟩ (.database f))
    (hQ : ∀ row ids, Q ⟨o, d ++ [⟨.userUpdate userId revocation, row⟩,
      ⟨.refreshSessionDeleteMany userId, ids⟩], none⟩ ()) :
    (revokeSession userId).Conforms model guards Q E ⟨o, d, none⟩ := by
  simp only [revokeSession, transaction, bind_eq, pure_eq, conforms_transaction, conforms_handle,
    conforms_send, conforms_fail, conforms_ret, Trace.openTx_mk, Trace.push_inside,
    Trace.drop_mk, Trace.commit_mk, List.nil_append, List.singleton_append]
  refine ⟨trivial, ⟨.inr ⟨rfl, rfl⟩, hE, fun row _ => ⟨.inr ⟨row, rfl⟩, hE, fun ids _ =>
    ⟨by simp, ⟨userId, row, ids, rfl⟩, hE, hQ row ids⟩⟩⟩⟩

theorem rotate_conforms {user : User} {payload : Payload} {token : Token}
    {Q : Log → Session → Prop} (hop : o = .refreshTokens token)
    (hverified : Verified d token .refresh) (hcurrent : Current d token user)
    (hid : user.id = token.payload.sub) (hpayload : payload = token.payload)
    (hd : ∀ e ∈ d, placed e.stmt = none)
    (hE : ∀ d' e, (∃ f, e = .database f) ∨ Spends (d ++ d') token ∨
        (∃ ids, Revokes (d ++ d') token.payload.sub ids) → E ⟨o, d ++ d', none⟩ e)
    (hQ : ∀ d' a, Spends (d ++ d') token →
      a.accessToken.payload.sessionVersion = token.payload.sessionVersion →
      a.refreshToken.payload.sessionVersion = token.payload.sessionVersion →
        Q ⟨o, d ++ d', none⟩ a) :
    (rotate user payload).Conforms model guards Q E ⟨o, d, none⟩ := by
  subst hpayload
  obtain ⟨hread, hactive, hversion⟩ := hcurrent
  simp only [rotate, bind_eq, pure_eq, throw_eq, conforms_handle, conforms_send, conforms_fail,
    conforms_ret, conforms_ite, Trace.push_outside, List.append_assoc, List.singleton_append]
  refine ⟨rfl, fun f => by simpa using hE [] _ (.inl ⟨f, rfl⟩), fun newJti _ => ⟨⟨rfl, by simp,
    none_placed_append hd (by simp [placed]), token, user, hop, List.mem_append_left _ hverified,
    ⟨List.mem_append_left _ hread, hactive, hversion⟩, rfl, rfl⟩,
    fun f => hE _ _ (.inl ⟨f, rfl⟩), fun ids hids => ⟨fun hnil => ?_, fun hne => ?_⟩⟩⟩
  · -- No chain accepts the token: the sessions are revoked.
    refine revokeSession_conforms (fun f => hE _ _ (.inl ⟨f, rfl⟩)) fun row ids => ?_
    rw [List.append_assoc]
    refine hE _ _ (.inr (.inr ⟨ids, row, ?_, ?_⟩)) <;> simp [← hid]
  · have hne' : List.isEmpty ids = false := by
      cases ids with
      | nil => exact absurd rfl hne
      | cons _ _ => rfl
    have hknow : Knows d user := ⟨_, hread, rfl⟩
    obtain ⟨jti, hjti⟩ : ∃ jti, token.payload.jti = some jti := by
      cases hj : token.payload.jti with
      | some jti => exact ⟨jti, rfl⟩
      | none =>
          obtain ⟨c, s, hexec⟩ := hids
          rw [hj] at hexec
          have hempty : (s.accepting user.id none) = [] := by simp [World.accepting]
          simp only [exec, hempty, List.isEmpty_nil, if_true, Option.some.injEq] at hexec
          simp [← hexec] at hne'
    have hspends : ∀ d', Spends (d ++ (⟨.randomUUID, newJti⟩ ::
        ⟨.refreshSessionUpdateMany user.id token.payload.jti newJti, ids⟩ :: d')) token := by
      refine fun d' => ⟨jti, hjti,
        ⟨.refreshSessionUpdateMany user.id token.payload.jti newJti, ids⟩, by simp, ?_⟩
      simp [exchanged, hne', hjti]
    refine tokensFor_conforms (hknow.append _)
      ⟨⟨.refreshSessionUpdateMany user.id token.payload.jti newJti, ids⟩, by simp, ?_⟩
      (fun d' e => ?_) fun d' tokens haccess hrefresh => ?_
    · simp [opened, hne']
    · rw [List.append_assoc]
      exact hE _ _ (.inr (.inl (hspends d')))
    · rw [List.append_assoc]
      exact hQ _ _ (hspends d') (haccess.trans hversion.symm) (hrefresh.trans hversion.symm)

/-! ### Parts that only send plain statements -/

theorem only_decryptMfaSecret (secret : String) : (decryptMfaSecret secret).Only Routine := by
  simp [decryptMfaSecret, Routine, Plain, Mild]

theorem only_verifyCode (userId : Id) (code : String) : (verifyCode userId code).Only Routine := by
  simp only [verifyCode, bind_eq, only_send_handle, only_fail, implies_true, and_true]
  refine ⟨⟨trivial, trivial⟩, fun user => ?_⟩
  split
  · trivial
  · exact (only_decryptMfaSecret _).handle (by simp [Routine, Plain, Mild, UserData.Mild]) (by simp)

theorem only_deletePending (pendingId : Id) : (deletePending pendingId).Only Routine := by
  simp [deletePending, Routine, Plain, Mild]

theorem only_checkLoginAttempts (userId : Id) : (checkLoginAttempts userId).Only Plain := by
  simp only [checkLoginAttempts, bind_eq, only_send_handle, only_fail, implies_true, and_true]
  refine ⟨trivial, fun found => ?_⟩
  cases found <;> simp [Plain]

theorem only_incrementLoginAttempts (userId : Id) : (incrementLoginAttempts userId).Only Plain := by
  simp [incrementLoginAttempts, Plain]

theorem only_resetLoginAttempts (userId : Id) : (resetLoginAttempts userId).Only Plain := by
  simp [resetLoginAttempts, Plain]

theorem only_rejectUnknown (dto : LoginDto) : (rejectUnknown dto).Only Plain := by
  simp [rejectUnknown, Plain]

theorem only_changePassword (missing : Err) (userId : Id) (currentPassword newPassword : String) :
    (changePassword missing userId currentPassword newPassword).Only Routine := by
  simp only [changePassword, bind_eq, only_send_handle, only_fail, implies_true, and_true]
  refine ⟨⟨trivial, trivial⟩, fun found => ?_⟩
  cases found <;> simp [Routine, Plain, Mild, UserData.Mild]

theorem only_generateSecret (userId : Id) (currentCode : Option String) :
    (generateSecret userId currentCode).Only Routine := by
  simp only [generateSecret, bind_eq, only_send_handle, only_fail, implies_true, and_true]
  refine ⟨⟨trivial, trivial⟩, fun found => ?_⟩
  cases found with
  | none => trivial
  | some user =>
      simp only [only_ite]
      refine ⟨fun _ => ?_, fun _ => by simp [Routine, Plain, Mild, UserData.Mild]⟩
      split
      · simp
      · exact (only_verifyCode _ _).handle (by simp [Routine, Plain, Mild, UserData.Mild]) (by simp)

theorem only_verifyAndEnable (userId : Id) (code : String) :
    (verifyAndEnable userId code).Only Routine := by
  simp only [verifyAndEnable, bind_eq, only_send_handle, only_fail, implies_true, and_true]
  refine ⟨⟨trivial, trivial⟩, fun found => ?_⟩
  cases found with
  | none => trivial
  | some user =>
      dsimp only
      split
      · exact (only_decryptMfaSecret _).handle (by simp [Routine, Plain, Mild, UserData.Mild]) (by simp)
      · trivial

theorem only_disable (userId : Id) (code : String) : (disable userId code).Only Routine :=
  (only_verifyCode _ _).handle (by simp [Routine, Plain, Mild, UserData.Mild]) (by simp)

theorem only_forgotPassword (email : String) : (forgotPassword email).Only Routine := by
  simp only [forgotPassword, bind_eq, only_send_handle, only_fail, implies_true, and_true]
  refine ⟨⟨trivial, trivial⟩, fun found => ?_⟩
  cases found <;> simp [Routine, Plain, Mild, UserData.Mild]

/-! ### Registration -/

theorem sendVerificationEmail_conforms {pending : PendingRegistration} {code : String}
    {Q : Log → Unit → Prop} (hd : ∀ e ∈ d, placed e.stmt = none)
    (hE : ∀ d' e, E ⟨o, d ++ d', none⟩ e) (hQ : ∀ d', Q ⟨o, d ++ d', none⟩ ()) :
    (sendVerificationEmail pending code).Conforms model guards Q E ⟨o, d, none⟩ := by
  simp only [sendVerificationEmail, bind_eq, throw_eq, tryCatch_eq, conforms_handle, conforms_send,
    conforms_fail, conforms_ret, Trace.push_outside, List.append_assoc, List.singleton_append]
  refine ⟨⟨rfl, .emailVerify, rfl, ⟨_, rfl⟩, by simp⟩, fun _ => by simpa using hE [] _,
    fun token _ => ⟨rfl, fun _ => ?_, fun _ _ => hQ _⟩⟩
  refine conforms_plain (plain_of_routine (only_deletePending _)) (none_placed_append hd (by simp [placed]))
    (fun d' _ _ => ?_) fun d' e _ => ?_ <;>
  · rw [List.append_assoc]
    exact hE _ _

theorem completeEmailVerification_conforms {pendingId : Id} {Q : Log → Session → Prop}
    (hd : ∀ e ∈ d, placed e.stmt = none) (hE : ∀ d' e, E ⟨o, d ++ d', none⟩ e)
    (hQ : ∀ d' a, Q ⟨o, d ++ d', none⟩ a) :
    (completeEmailVerification pendingId).Conforms model guards Q E ⟨o, d, none⟩ := by
  -- Giving up deletes the pending row first, and sends nothing else.
  have hgiveUp : ∀ d' err, (∀ e ∈ d', placed e.stmt = none) →
      (deletePending pendingId).Conforms model guards (fun l _ => E l err) E
        ⟨o, d ++ d', none⟩ := by
    intro d' err hd'
    refine conforms_plain (plain_of_routine (only_deletePending _)) (none_placed_append hd hd') (fun d'' _ _ => ?_)
      fun d'' e _ => ?_ <;>
    · rw [List.append_assoc]
      exact hE _ _
  simp only [completeEmailVerification, bind_eq, pure_eq, throw_eq, conforms_handle, conforms_send,
    conforms_fail, handle_fail, Trace.push_outside]
  refine ⟨rfl, fun _ => by simpa using hE [] _, fun found _ => ?_⟩
  cases found with
  | none => exact hE _ _
  | some pending =>
      simp only [conforms_handle, conforms_send, conforms_fail, conforms_ite,
        Trace.push_outside, List.append_assoc, List.cons_append, List.nil_append]
      refine ⟨rfl, fun _ => hE _ _, fun now _ => ⟨fun _ => hgiveUp _ _ (by simp [placed]),
        fun _ => ⟨⟨rfl, none_placed_append hd (by simp [placed])⟩, fun _ => hE _ _,
          fun existing _ => ⟨fun _ => hgiveUp _ _ (by simp [placed]),
            fun _ => ⟨rfl, fun _ => hE _ _, fun role _ => ?_⟩⟩⟩⟩⟩
      cases role with
      | none => exact hE _ _
      | some role =>
          simp only [conforms_handle, conforms_send, conforms_fail, conforms_ret,
            Trace.push_outside, List.append_assoc, List.cons_append, List.nil_append]
          refine ⟨⟨rfl, none_placed_append hd (by simp [placed])⟩, fun _ => hE _ _,
            fun user _ => ⟨rfl, fun _ => hE _ _, fun _ _ => ?_⟩⟩
          refine issueTokens_conforms ⟨⟨.userCreate (pending.account role), user⟩, by simp, rfl⟩
            (none_placed_append hd (by simp [placed])) (fun d' e => ?_) fun d' tokens => ?_
          · rw [List.append_assoc]
            exact hE _ _
          · rw [List.append_assoc]
            exact hQ _ _

theorem verifyEmailByToken_conforms {token : Token} {Q : Log → Session → Prop}
    (hE : ∀ d e, E ⟨o, d, none⟩ e)
    (hQ : ∀ d a, Accepted d token .emailVerify → Q ⟨o, d, none⟩ a) :
    (verifyEmailByToken token).Conforms model guards Q E ⟨o, [], none⟩ := by
  simp only [verifyEmailByToken, bind_eq, throw_eq, conforms_handle, handle_fail]
  refine verify_conforms (hE _ _) (hE _ _) ?_
  simp only [conforms_ite, conforms_fail]
  refine ⟨fun _ => hE _ _, fun htype => ?_⟩
  refine completeEmailVerification_conforms (by simp [placed]) (fun _ _ => hE _ _)
    fun d' a => hQ _ _ ⟨by simp [Verified, Kind.secret], Decidable.not_not.1 htype⟩

theorem verifyEmailByCode_conforms {email code : String} {Q : Log → Session → Prop}
    (hE : ∀ d e, E ⟨o, d, none⟩ e) (hQ : ∀ d a, Q ⟨o, d, none⟩ a) :
    (verifyEmailByCode email code).Conforms model guards Q E ⟨o, [], none⟩ := by
  simp only [verifyEmailByCode, bind_eq, throw_eq, conforms_handle, conforms_send, conforms_fail,
    handle_fail, Trace.push_outside, List.nil_append]
  refine ⟨rfl, fun _ => hE _ _, fun found _ => ?_⟩
  cases found with
  | none => exact hE _ _
  | some pending =>
      simp only [conforms_handle, conforms_send, conforms_fail, conforms_ite, Trace.push_outside,
        List.cons_append, List.nil_append]
      refine ⟨rfl, fun _ => hE _ _, fun now _ => ⟨fun _ => ?_, fun _ => ⟨fun _ => hE _ _, fun _ =>
        ⟨fun _ => ⟨rfl, fun _ => hE _ _, fun _ _ => hE _ _⟩, fun _ => ?_⟩⟩⟩⟩
      · exact conforms_plain (plain_of_routine (only_deletePending _)) (by simp [placed]) (fun _ _ _ => hE _ _)
          fun _ _ _ => hE _ _
      · exact completeEmailVerification_conforms (by simp [placed]) (fun _ _ => hE _ _)
          fun _ _ => hQ _ _

theorem register_conforms {dto : RegisterDto} {Q : Log → String → Prop}
    (hE : ∀ d e, E ⟨o, d, none⟩ e) (hQ : ∀ d a, Q ⟨o, d, none⟩ a) :
    (register dto).Conforms model guards Q E ⟨o, [], none⟩ := by
  simp only [register, bind_eq, pure_eq, throw_eq, conforms_ite, conforms_handle, conforms_send,
    conforms_fail, handle_fail, conforms_ret, Trace.push_outside, List.nil_append,
    List.cons_append]
  refine ⟨fun _ => hE _ _, fun _ => ⟨⟨rfl, by simp⟩, fun _ => hE _ _, fun _ _ => ⟨fun _ => hE _ _,
    fun _ => ⟨rfl, fun _ => hE _ _, fun _ _ => ⟨rfl, fun _ => hE _ _, fun _ _ => ⟨rfl,
      fun _ => hE _ _, fun _ _ => ⟨rfl, fun _ => hE _ _, fun _ _ => ⟨rfl, fun _ => hE _ _,
        fun _ _ => ⟨rfl, fun _ => hE _ _, fun _ _ => ?_⟩⟩⟩⟩⟩⟩⟩⟩⟩
  exact sendVerificationEmail_conforms (by simp [placed]) (fun _ _ => hE _ _) fun _ => hQ _ _

theorem resendVerification_conforms {email : String} {Q : Log → Unit → Prop}
    (hE : ∀ d e, E ⟨o, d, none⟩ e) (hQ : ∀ d a, Q ⟨o, d, none⟩ a) :
    (resendVerification email).Conforms model guards Q E ⟨o, [], none⟩ := by
  simp only [resendVerification, bind_eq, pure_eq, conforms_handle, conforms_send, conforms_fail,
    Trace.push_outside, List.nil_append]
  refine ⟨rfl, fun _ => hE _ _, fun found _ => ?_⟩
  cases found with
  | none => exact hQ _ _
  | some pending =>
      simp only [conforms_handle, conforms_send, conforms_fail, Trace.push_outside,
        List.cons_append, List.nil_append]
      refine ⟨rfl, fun _ => hE _ _, fun _ _ => ⟨rfl, fun _ => hE _ _, fun _ _ => ⟨rfl,
        fun _ => hE _ _, fun _ _ => ?_⟩⟩⟩
      exact sendVerificationEmail_conforms (by simp [placed]) (fun _ _ => hE _ _) fun _ => hQ _ _

/-! ### Login -/

theorem login_conforms {dto : LoginDto} {Q : Log → LoginReply → Prop}
    (hE : ∀ d e, E ⟨o, d, none⟩ e) (hQ : ∀ d a, Q ⟨o, d, none⟩ a) :
    (login dto).Conforms model guards Q E ⟨o, [], none⟩ := by
  simp only [login, bind_eq, pure_eq, throw_eq, conforms_handle, conforms_send, conforms_fail,
    handle_fail, Trace.push_outside, List.nil_append]
  refine ⟨⟨rfl, by simp⟩, fun _ => hE _ _, fun found _ => ?_⟩
  cases found with
  | none =>
      exact conforms_plain (only_rejectUnknown _) (by simp [placed]) (fun _ _ _ => hQ _ _)
        fun _ _ _ => hE _ _
  | some user =>
      simp only [conforms_handle]
      refine conforms_plain (only_checkLoginAttempts _) (by simp [placed]) (fun d₁ _ h₁ => ?_)
        fun _ _ _ => hE _ _
      have hd₁ : ∀ e ∈ [⟨.userFindUniqueByEmail dto.email, some user⟩] ++ d₁,
          placed (Event.stmt (S := interface) e) = none :=
        none_placed_append (by simp [placed]) fun e he => (h₁ e he).placed
      simp only [conforms_send, conforms_ite, conforms_handle, conforms_fail, Trace.push_outside]
      refine ⟨rfl, fun _ => hE _ _, fun isPasswordValid _ => ⟨fun _ => ?_, fun _ => ?_⟩⟩
      · exact conforms_plain (only_incrementLoginAttempts _)
          (none_placed_append hd₁ (by simp [placed])) (fun _ _ _ => hE _ _) fun _ _ _ => hE _ _
      · refine conforms_plain (only_resetLoginAttempts _)
          (none_placed_append hd₁ (by simp [placed])) (fun d₂ _ h₂ => ?_) fun _ _ _ => hE _ _
        refine ⟨fun _ => ⟨⟨rfl, .mfaChallenge, rfl, ⟨_, _, rfl⟩, by simp⟩, fun _ => hE _ _,
          fun _ _ => hQ _ _⟩, fun _ => ?_⟩
        refine openSession_conforms ⟨⟨.userFindUniqueByEmail dto.email, some user⟩, by simp, rfl⟩ ?_
          (fun _ _ => hE _ _) fun _ _ => hQ _ _
        exact none_placed_append (none_placed_append hd₁ (by simp [placed]))
          fun e he => (h₂ e he).placed

theorem completeMfaLogin_conforms {token : Token} {code : String} {Q : Log → Session → Prop}
    (hE : ∀ d e, E ⟨o, d, none⟩ e)
    (hQ : ∀ d a, Accepted d token .mfaChallenge → Q ⟨o, d, none⟩ a) :
    (completeMfaLogin token code).Conforms model guards Q E ⟨o, [], none⟩ := by
  simp only [completeMfaLogin, bind_eq, throw_eq, conforms_handle, handle_fail]
  refine verify_conforms (hE _ _) (hE _ _) ?_
  simp only [conforms_ite, conforms_fail, conforms_handle, conforms_send, Trace.push_outside,
    List.nil_append]
  refine ⟨fun _ => hE _ _, fun htype => ⟨⟨rfl, by simp [placed]⟩, fun _ => hE _ _,
    fun found _ => ?_⟩⟩
  cases found with
  | none => exact hE _ _
  | some user =>
      simp only [conforms_ite, conforms_fail, conforms_handle]
      refine ⟨fun _ => hE _ _, fun _ => conforms_plain (plain_of_routine (only_verifyCode _ _)) (by simp [placed])
        (fun d₁ _ h₁ => ⟨fun _ => hE _ _, fun _ => ?_⟩) fun _ _ _ => hE _ _⟩
      refine openSession_conforms ⟨⟨.userFindUnique token.payload.sub, some user⟩, by simp, rfl⟩
        (none_placed_append (by simp [placed]) fun e he => (h₁ e he).placed) (fun _ _ => hE _ _)
        fun d' a => hQ _ _ ⟨by simp [Verified, Kind.secret], Decidable.not_not.1 htype⟩

/-! ### Sessions and passwords -/

theorem logout_conforms {cookieToken : Option Token} {Q : Log → Unit → Prop}
    (hQ : ∀ d a, Q ⟨o, d, none⟩ a) :
    (logout cookieToken).Conforms model guards Q E ⟨o, [], none⟩ := by
  cases cookieToken with
  | none => exact hQ _ _
  | some token =>
      simp only [logout, bind_eq, pure_eq, tryCatch_eq, conforms_handle]
      refine verify_conforms (hQ _ _) (hQ _ _) ?_
      simp only [conforms_ite, conforms_ret, conforms_handle]
      exact ⟨fun _ => hQ _ _, fun _ => revokeSession_conforms (fun _ => hQ _ _) fun _ _ => hQ _ _⟩

theorem resetPassword_conforms {token newPassword : String} {Q : Log → Unit → Prop}
    (ho : o = .resetPassword token newPassword) (hE : ∀ d e, E ⟨o, d, none⟩ e) (hQ : ∀ d a, Q ⟨o, d, none⟩ a) :
    (resetPassword token newPassword).Conforms model guards Q E ⟨o, [], none⟩ := by
  simp only [resetPassword, bind_eq, pure_eq, throw_eq, conforms_handle, conforms_send,
    conforms_fail, conforms_ite, handle_fail, Trace.push_outside, List.nil_append,
    List.cons_append]
  refine ⟨rfl, fun _ => hE _ _, fun _ _ => ⟨rfl, fun _ => hE _ _, fun _ _ => ⟨rfl, fun _ => hE _ _,
    fun candidate _ => ⟨rfl, fun _ => hE _ _, fun _ _ => ⟨rfl, fun _ => hE _ _,
      fun _ _ => ⟨fun _ => hE _ _, fun _ => ?_⟩⟩⟩⟩⟩⟩
  cases candidate with
  | none => exact hQ _ _
  | some user =>
      simp only [conforms_handle, conforms_send, conforms_fail, conforms_ret, Trace.push_outside]
      exact ⟨.inl ⟨rfl, _, _, ho⟩, fun _ => hE _ _, fun _ _ => hQ _ _⟩

/-- What `refreshTokens` may end with in error, record `d`. -/
theorem refreshTokens_conforms {token : Token} {Q : Log → Session → Prop}
    (hE : ∀ d e, Fails ⟨.refreshTokens token, d, none⟩ e → E ⟨.refreshTokens token, d, none⟩ e)
    (hQ : ∀ d a, Accepted d token .refresh → Spends d token →
      a.accessToken.payload.sessionVersion = token.payload.sessionVersion →
      a.refreshToken.payload.sessionVersion = token.payload.sessionVersion →
        Q ⟨.refreshTokens token, d, none⟩ a) :
    (refreshTokens token).Conforms model guards Q E ⟨.refreshTokens token, [], none⟩ := by
  -- Before the user is read, and after it was read otherwise than active in the version of the
  -- token, a failure has nothing to show for.
  have hearly : ∀ d e, (∀ u, ¬ Current d token u) → E ⟨.refreshTokens token, d, none⟩ e := by
    intro d e hnot
    refine hE _ _ fun token' u hop hcurrent => ?_
    obtain rfl : token = token' := by simpa using hop
    exact absurd hcurrent (hnot u)
  have hdatabase : ∀ d f, E ⟨.refreshTokens token, d, none⟩ (.database f) :=
    fun d f => hE _ _ fun _ _ _ _ => .inl ⟨f, rfl⟩
  simp only [refreshTokens, bind_eq, throw_eq, conforms_handle, handle_fail]
  refine verify_conforms (hearly _ _ (by simp [Current])) (hearly _ _ (by simp [Current])) ?_
  simp only [conforms_ite, conforms_fail, conforms_handle, conforms_send, Trace.push_outside,
    List.nil_append, List.cons_append]
  refine ⟨fun _ => hearly _ _ (by simp [Current]), fun _ => ⟨⟨rfl, by simp [placed]⟩,
    fun f => hdatabase _ f, fun found hfound => ?_⟩⟩
  cases found with
  | none => exact hearly _ _ (by simp [Current])
  | some user =>
      obtain ⟨c, s, hexec⟩ := hfound
      have hid : user.id = token.payload.sub := Table.key_of_find? (Option.some.inj hexec)
      simp only [conforms_ite, conforms_fail]
      refine ⟨fun hinactive => hearly _ _ ?_, fun hactive => ⟨fun hversion => hearly _ _ ?_,
        fun hversion => ?_⟩⟩
      · rintro u ⟨hu, hu', -⟩
        simp only [List.mem_cons, Event.mk.injEq, reduceCtorEq, false_and, false_or,
          List.not_mem_nil, or_false] at hu
        simp_all
      · rintro u ⟨hu, -, hu'⟩
        simp only [List.mem_cons, Event.mk.injEq, reduceCtorEq, false_and, false_or,
          List.not_mem_nil, or_false] at hu
        simp_all
      · have hverified : Verified [⟨.jwtVerify token .JWT_REFRESH_SECRET false,
            some token.payload⟩, ⟨.userFindUnique token.payload.sub, some user⟩] token .refresh := by
          simp [Verified, Kind.secret]
        have hcurrent : Current [⟨.jwtVerify token .JWT_REFRESH_SECRET false,
            some token.payload⟩, ⟨.userFindUnique token.payload.sub, some user⟩] token user :=
          ⟨by simp, by simpa using hactive, Decidable.not_not.1 hversion⟩
        refine rotate_conforms rfl hverified hcurrent hid rfl (by simp [placed])
          (fun d' e h => hE _ _ fun token' u hop _ => ?_)
          fun d' a hspends haccess hrefresh => hQ _ _ ⟨List.mem_append_left _ hverified, user,
            List.mem_append_left _ hcurrent.1, hcurrent.2⟩ hspends haccess hrefresh
        obtain rfl : token = token' := by simpa using hop
        exact h

/-! ### The verifiers of access tokens -/

theorem authenticate_conforms {token : Token} {Q : Log → User → Prop}
    (hE : ∀ d e, E ⟨o, d, none⟩ e)
    (hQ : ∀ d a, Accepted d token .access → Q ⟨o, d, none⟩ a) :
    (authenticate token).Conforms model guards Q E ⟨o, [], none⟩ := by
  simp only [authenticate, bind_eq, throw_eq, conforms_handle]
  refine verify_conforms (hE _ _) (hE _ _) ?_
  simp only [validate, bind_eq, pure_eq, throw_eq, conforms_ite, conforms_fail, handle_fail,
    conforms_handle, conforms_send, Trace.push_outside, List.nil_append, List.cons_append]
  refine ⟨fun _ => hE _ _, fun _ => ⟨⟨rfl, by simp [placed]⟩, fun _ => hE _ _, fun found _ => ?_⟩⟩
  cases found with
  | none => exact hE _ _
  | some user =>
      simp only [conforms_ite, conforms_fail, conforms_ret]
      exact ⟨fun _ => hE _ _, fun hactive => ⟨fun _ => hE _ _, fun hversion => hQ _ _
        ⟨by simp [Verified, Kind.secret], user, by simp, by simpa using hactive,
          Decidable.not_not.1 hversion⟩⟩⟩

theorem requireUser_conforms {token : Option Token} {Q : Log → Except String User → Prop}
    (hreject : ∀ d m, Q ⟨o, d, none⟩ (.error m))
    (hQ : ∀ d tok u, token = some tok → Accepted d tok .access → Q ⟨o, d, none⟩ (.ok u)) :
    (requireUser token).Conforms model guards Q E ⟨o, [], none⟩ := by
  cases token with
  | none => exact hreject _ _
  | some tok =>
      simp only [requireUser, checkToken, bind_eq, pure_eq, tryCatch_eq, conforms_handle,
        conforms_ret]
      refine verify_conforms (hreject _ _) (hreject _ _) ?_
      simp only [conforms_handle, conforms_send, Trace.push_outside, List.nil_append,
        List.cons_append]
      refine ⟨⟨rfl, by simp [placed]⟩, fun _ => hreject _ _, fun found _ => ?_⟩
      cases found with
      | none => exact hreject _ _
      | some user =>
          simp only [conforms_ite, conforms_ret]
          exact ⟨fun _ => hreject _ _, fun hactive => ⟨fun _ => hreject _ _, fun hversion =>
            hQ _ _ _ rfl ⟨by simp [Verified, Kind.secret], user, by simp, by simpa using hactive,
              Decidable.not_not.1 hversion⟩⟩⟩

/-! ### Every call -/

theorem returns_of_none {reply : Reply} (h : l.op.presents = none) : Returns l reply := by
  intro _ token kind hpresents
  simp [h] at hpresents

theorem fails_of_ne {e : Err} (h : ∀ token, l.op ≠ .refreshTokens token) : Fails l e :=
  fun token _ hop => absurd hop (h token)

theorem returns_of_accepted {reply : Reply} {token : Token} {kind : Kind}
    (hop : l.op.presents = some (token, kind)) (h : Accepted l.done token kind)
    (hrefresh : kind = .refresh →
      Spends l.done token ∧ reply.Carries token.payload.sessionVersion) : Returns l reply := by
  intro _ token' kind' hpresents
  obtain ⟨rfl, rfl⟩ : token = token' ∧ kind = kind' := by simpa [hop] using hpresents
  exact ⟨h, hrefresh⟩

/-- A call that is presented with no token, and sends plain statements only. -/
theorem conforms_of_only {p : Call α} {f : α → Reply} (hp : p.Only Routine)
    (hpresents : o.presents = none) :
    (f <$> p).Conforms model guards Returns Fails (.start o) := by
  have hne : ∀ token, o ≠ .refreshTokens token := by
    rintro token rfl
    cases hpresents
  rw [map_eq, conforms_handle]
  exact conforms_plain (plain_of_routine hp) (by simp) (fun _ _ _ => returns_of_none hpresents)
    fun _ _ _ => fails_of_ne hne

/-- **Every call keeps to the guards**, and ends as `Returns` and `Fails` say. -/
theorem prog_conforms (o : Op) :
    (prog o).Conforms model guards Returns Fails (.start o) := by
  cases o with
  | register dto =>
      exact (conforms_handle ..).2 <| register_conforms (fun _ _ => fails_of_ne (by simp))
        fun _ _ => returns_of_none rfl
  | resendVerification email =>
      exact (conforms_handle ..).2 <| resendVerification_conforms
        (fun _ _ => fails_of_ne (by simp)) fun _ _ => returns_of_none rfl
  | verifyEmailByToken token =>
      exact (conforms_handle ..).2 <| verifyEmailByToken_conforms
        (fun _ _ => fails_of_ne (by simp)) fun _ _ h => returns_of_accepted rfl h (by simp)
  | verifyEmailByCode email code =>
      exact (conforms_handle ..).2 <| verifyEmailByCode_conforms
        (fun _ _ => fails_of_ne (by simp)) fun _ _ => returns_of_none rfl
  | login dto =>
      exact (conforms_handle ..).2 <| login_conforms (fun _ _ => fails_of_ne (by simp))
        fun _ _ => returns_of_none rfl
  | completeMfaLogin token code =>
      exact (conforms_handle ..).2 <| completeMfaLogin_conforms
        (fun _ _ => fails_of_ne (by simp)) fun _ _ h => returns_of_accepted rfl h (by simp)
  | refreshTokens token =>
      exact (conforms_handle ..).2 <| refreshTokens_conforms (fun _ _ h => h)
        fun _ _ h h₁ h₂ h₃ => returns_of_accepted rfl h fun _ => ⟨h₁, h₂, h₃⟩
  | revokeSession userId =>
      exact (conforms_handle ..).2 <| revokeSession_conforms (fun _ => fails_of_ne (by simp))
        fun _ _ => returns_of_none rfl
  | logout cookieToken =>
      exact (conforms_handle ..).2 <| logout_conforms fun _ _ => returns_of_none rfl
  | forgotPassword email => exact conforms_of_only (only_forgotPassword _) rfl
  | resetPassword token newPassword =>
      exact (conforms_handle ..).2 <| resetPassword_conforms rfl (fun _ _ => fails_of_ne (by simp))
        fun _ _ => returns_of_none rfl
  | studentChangePassword userId currentPassword newPassword =>
      exact conforms_of_only (only_changePassword ..) rfl
  | teacherChangePassword userId currentPassword newPassword =>
      exact conforms_of_only (only_changePassword ..) rfl
  | enableMfa userId currentCode => exact conforms_of_only (only_generateSecret ..) rfl
  | verifyMfa userId code => exact conforms_of_only (only_verifyAndEnable ..) rfl
  | disableMfa userId code => exact conforms_of_only (only_disable ..) rfl
  | authenticate token =>
      exact (conforms_handle ..).2 <| authenticate_conforms (fun _ _ => fails_of_ne (by simp))
        fun _ _ h => returns_of_accepted rfl h (by simp)
  | requireUser token =>
      refine (conforms_handle ..).2 <| requireUser_conforms (fun _ _ => ?_) fun _ _ _ htoken h => ?_
      · intro h
        cases h
      · exact returns_of_accepted (by simp [Op.presents, htoken]) h (by simp)

theorem prog_sound (o : Op) :
    (prog o).Conforms model guards (fun _ _ => True) (fun _ _ => True) (.start o) :=
  conforms_mono (fun _ _ _ => trivial) (fun _ _ _ => trivial) (prog_conforms o)

end Conformance

end GetPlatform.Auth
