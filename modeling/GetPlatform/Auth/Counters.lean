import GetPlatform.Auth.Guards
import GetPlatform.Store.Record

set_option autoImplicit false

/-! # Who writes the counter of failed logins, and who deletes a chain

Only `login` writes the counter: every other call leaves the number of failed attempts of a user and
the instant of the last one as they are. And only the calls that end sessions delete a chain. -/

namespace GetPlatform.Auth

open Prog

@[simp] theorem sends_send {P : Stmt → Prop} {q : Stmt} :
    @Sends interface Err (no_index (Ans q)) P (send q) ↔ P q := sends_query (S := interface) _ _

@[simp] theorem sends_send_handle {β : Type} {P : Stmt → Prop} {q : Stmt} (f : Ans q → Call β)
    (g : Err → Call β) :
    Sends P (@Prog.handle interface Err Err (no_index (Ans q)) β (send q) f g) ↔
      P q ∧ (∀ a, (f a).Sends P) ∧ ∀ f', (g (.database f')).Sends P :=
  sends_query_handle (S := interface) ..

/-- Statements that leave the counters alone, and every chain where it is. -/
def Gentle : Stmt → Prop
  | .refreshSessionDeleteMany _ => False
  | .userUpdate _ data => data.Mild
  | .userUpdateManyByResetToken _ _ data => data.Mild
  | _ => True

theorem Gentle.mild {q : Stmt} (h : Gentle q) : Mild q := by
  cases q <;> first | exact h | exact trivial

/-- Statements that leave the counters alone, of failed logins and of wrong codes. -/
def Tame : Stmt → Prop
  | .pendingUpdate .. => False
  | .userUpdate _ data => data.Mild
  | .userUpdateManyByResetToken _ _ data => data.Mild
  | _ => True

/-- The same, and every chain where it is. -/
def Calm : Stmt → Prop
  | .refreshSessionDeleteMany _ => False
  | q => Tame q

theorem Tame.mild {q : Stmt} (h : Tame q) : Mild q := by
  cases q <;> first | exact h | exact trivial

theorem Calm.tame {q : Stmt} (h : Calm q) : Tame q := by
  cases q <;> first | exact h | exact trivial

theorem Calm.gentle {q : Stmt} (h : Calm q) : Gentle q := by
  cases q <;> first | exact h | exact trivial

/-! ## Parts of calls -/

theorem calm_verify (token : Token) (secret : Secret) (b : Bool) :
    (verify token secret b).Sends Calm := by
  simp [verify, Calm, Tame]

theorem calm_deletePending (pendingId : Id) : (deletePending pendingId).Sends Calm := by
  simp [deletePending, Calm, Tame]

theorem calm_decryptMfaSecret (secret : String) : (decryptMfaSecret secret).Sends Calm := by
  simp [decryptMfaSecret, Calm, Tame]

theorem calm_verifyCode (userId : Id) (code : String) : (verifyCode userId code).Sends Calm := by
  simp only [verifyCode, bind_eq, sends_send_handle, sends_fail, implies_true, and_true]
  refine ⟨trivial, fun user => ?_⟩
  split
  · trivial
  · exact (calm_decryptMfaSecret _).handle (by simp [Calm, Tame]) (by simp)

/-! ## Sessions -/

theorem calm_tokensFor (user : User) (jti : Id) (rememberMe : Bool) :
    (tokensFor user jti rememberMe).Sends Calm := by
  unfold tokensFor
  cases user.role <;> simp [generateTokens, Calm, Tame]

theorem calm_issueTokens (user : User) (rememberMe : Bool) :
    (issueTokens user rememberMe).Sends Calm := by
  simp [issueTokens, calm_tokensFor, Calm, Tame]

theorem calm_openSession (user : User) (rememberMe : Bool) :
    (openSession user rememberMe).Sends Calm := by
  simp only [openSession, bind_eq, pure_eq, sends_send_handle, sends_fail, implies_true, and_true]
  exact ⟨trivial, fun now => ⟨⟨rfl, rfl⟩, fun _ =>
    (calm_issueTokens ..).handle (fun _ => trivial) fun _ => trivial⟩⟩

theorem tame_revokeSession (userId : Id) : (revokeSession userId).Sends Tame := by
  refine Sends.transaction ?_
  simp [Tame, UserData.Mild]

theorem tame_rotate (user : User) (payload : Payload) : (rotate user payload).Sends Tame := by
  simp only [rotate, bind_eq, pure_eq, throw_eq, sends_send_handle, sends_fail, sends_ite,
    implies_true, and_true]
  refine ⟨trivial, fun newJti => ⟨trivial, fun ids => ⟨fun _ => ?_, fun _ => ?_⟩⟩⟩
  · exact (tame_revokeSession _).handle (fun _ => trivial) fun _ => trivial
  · exact ((calm_tokensFor ..).mono fun _ => Calm.tame).handle
      (fun _ => trivial) fun _ => trivial

theorem tame_refreshTokens (token : Token) : (refreshTokens token).Sends Tame := by
  refine ((calm_verify ..).mono fun _ => Calm.tame).handle (fun payload => ?_) fun _ => trivial
  cases payload with
  | none => trivial
  | some payload =>
      simp only [bind_eq, throw_eq, handle_fail, sends_ite, sends_fail, sends_send_handle,
        implies_true, and_true, true_and]
      refine fun _ => ⟨trivial, fun found => ?_⟩
      cases found <;> simp [tame_rotate]

theorem tame_logout (cookieToken : Option Token) : (logout cookieToken).Sends Tame := by
  unfold logout
  cases cookieToken with
  | none => trivial
  | some token =>
      refine ((calm_verify ..).mono fun _ => Calm.tame).handle (fun payload => ?_) fun _ => trivial
      cases payload with
      | none => trivial
      | some payload =>
          simp only [pure_eq, tryCatch_eq, sends_ite, sends_ret, implies_true, true_and]
          exact fun _ => (tame_revokeSession _).handle (fun _ => trivial) fun _ => trivial

theorem calm_authenticate (token : Token) : (authenticate token).Sends Calm := by
  refine (calm_verify ..).handle (fun payload => ?_) fun _ => trivial
  cases payload with
  | none => trivial
  | some payload =>
      simp only [validate, bind_eq, throw_eq, handle_fail, sends_ite, sends_fail,
        sends_send_handle, implies_true, and_true, true_and]
      refine fun _ => ⟨trivial, fun found => ?_⟩
      cases found <;> simp

theorem calm_checkToken (token : Token) : (checkToken token).Sends Calm := by
  refine (calm_verify ..).handle (fun payload => ?_) fun _ => trivial
  cases payload with
  | none => trivial
  | some payload =>
      simp only [bind_eq, sends_send_handle, sends_fail, implies_true, and_true]
      refine ⟨trivial, fun found => ?_⟩
      cases found <;> simp

theorem calm_requireUser (token : Option Token) : (requireUser token).Sends Calm := by
  unfold requireUser
  cases token with
  | none => trivial
  | some token => exact (calm_checkToken _).handle (fun _ => trivial) fun _ => trivial

/-! ## Registration -/

theorem calm_sendVerificationEmail (pending : PendingRegistration) (code : String) :
    (sendVerificationEmail pending code).Sends Calm := by
  simp only [sendVerificationEmail, bind_eq, throw_eq, tryCatch_eq, sends_send_handle, sends_fail,
    sends_ret, implies_true, and_true, true_and]
  exact ⟨trivial, fun _ => ⟨trivial, fun _ =>
    (calm_deletePending _).handle (fun _ => trivial) fun _ => trivial⟩⟩

theorem calm_register (dto : RegisterDto) : (register dto).Sends Calm := by
  simp only [register, bind_eq, pure_eq, throw_eq, sends_ite, sends_fail, handle_fail,
    sends_send_handle, implies_true, and_true, true_and]
  exact fun _ => ⟨trivial, fun _ _ => ⟨trivial, fun _ => ⟨trivial, fun _ => ⟨trivial, fun _ =>
    ⟨trivial, fun _ => ⟨trivial, fun _ => ⟨trivial, fun _ =>
      (calm_sendVerificationEmail ..).handle (fun _ => trivial) fun _ => trivial⟩⟩⟩⟩⟩⟩⟩

theorem gentle_resendVerification (email : String) : (resendVerification email).Sends Gentle := by
  simp only [resendVerification, bind_eq, sends_send_handle, sends_fail, implies_true, and_true]
  refine ⟨trivial, fun found => ?_⟩
  cases found with
  | none => trivial
  | some pending =>
      simp only [sends_send_handle, sends_fail, implies_true, and_true]
      exact ⟨trivial, fun _ => ⟨trivial, fun _ => ⟨trivial, fun _ =>
        (calm_sendVerificationEmail ..).mono fun _ => Calm.gentle⟩⟩⟩

theorem calm_completeEmailVerification (pendingId : Id) :
    (completeEmailVerification pendingId).Sends Calm := by
  have hgiveUp : ∀ e : Err, ((deletePending pendingId).handle (fun _ => .fail e) .fail :
      Call Session).Sends Calm := fun _ =>
    (calm_deletePending _).handle (fun _ => trivial) fun _ => trivial
  simp only [completeEmailVerification, bind_eq, pure_eq, throw_eq, sends_send_handle, sends_fail,
    implies_true, and_true]
  refine ⟨trivial, fun found => ?_⟩
  cases found with
  | none => trivial
  | some pending =>
      simp only [handle_fail, sends_send_handle, sends_fail, sends_ite, implies_true, and_true]
      refine ⟨trivial, fun now => ⟨fun _ => hgiveUp _, fun _ => ⟨trivial, fun existing =>
        ⟨fun _ => hgiveUp _, fun _ => ⟨trivial, fun role => ?_⟩⟩⟩⟩⟩
      cases role with
      | none => trivial
      | some role =>
          simp only [sends_send_handle, sends_fail, implies_true, and_true]
          exact ⟨trivial, fun user => ⟨trivial, fun _ =>
            (calm_issueTokens ..).handle (fun _ => trivial) fun _ => trivial⟩⟩

theorem calm_verifyEmailByToken (token : Token) : (verifyEmailByToken token).Sends Calm := by
  refine (calm_verify ..).handle (fun payload => ?_) fun _ => trivial
  cases payload <;> simp [calm_completeEmailVerification]

theorem gentle_verifyEmailByCode (email code : String) :
    (verifyEmailByCode email code).Sends Gentle := by
  simp only [verifyEmailByCode, bind_eq, throw_eq, sends_send_handle, sends_fail, implies_true,
    and_true]
  refine ⟨trivial, fun found => ?_⟩
  cases found with
  | none => trivial
  | some pending =>
      simp only [handle_fail, sends_send_handle, sends_fail, sends_ite, implies_true, and_true,
        true_and]
      refine ⟨trivial, fun now => ⟨fun _ => ?_, fun _ _ => ⟨fun _ => trivial, fun _ =>
        (calm_completeEmailVerification _).mono fun _ => Calm.gentle⟩⟩⟩
      exact ((calm_deletePending _).mono fun _ => Calm.gentle).handle (fun _ => trivial)
        fun _ => trivial

/-! ## The second step of a login, and passwords -/

theorem calm_completeMfaLogin (token : Token) (code : String) :
    (completeMfaLogin token code).Sends Calm := by
  refine (calm_verify ..).handle (fun payload => ?_) fun _ => trivial
  cases payload with
  | none => trivial
  | some payload =>
      simp only [bind_eq, throw_eq, handle_fail, sends_ite, sends_fail, sends_send_handle,
        implies_true, and_true, true_and]
      refine fun _ => ⟨trivial, fun found => ?_⟩
      cases found with
      | none => trivial
      | some user =>
          simp only [sends_ite, sends_fail, implies_true, true_and]
          refine fun _ => (calm_verifyCode ..).handle (fun verified => ?_)
            fun _ => trivial
          simp [calm_openSession]

theorem tame_resetPassword (token newPassword : String) :
    (resetPassword token newPassword).Sends Tame := by
  simp only [resetPassword, bind_eq, pure_eq, throw_eq, sends_send_handle, sends_fail, sends_ite,
    handle_fail, implies_true, and_true, true_and]
  refine ⟨trivial, fun _ => ⟨trivial, fun _ => ⟨trivial, fun candidate => ⟨trivial, fun _ =>
    ⟨⟨rfl, rfl⟩, fun _ _ => ?_⟩⟩⟩⟩⟩
  cases candidate <;> simp [Tame]

theorem calm_forgotPassword (email : String) : (forgotPassword email).Sends Calm := by
  simp [forgotPassword, Option.forall, Calm, Tame, UserData.Mild]

theorem calm_changePassword (missing : Err) (userId : Id) (currentPassword newPassword : String) :
    (changePassword missing userId currentPassword newPassword).Sends Calm := by
  simp [changePassword, Option.forall, Calm, Tame, UserData.Mild]

/-! ## `MfaService` -/

theorem calm_generateSecret (userId : Id) (currentCode : Option String) :
    (generateSecret userId currentCode).Sends Calm := by
  simp only [generateSecret, bind_eq, sends_send_handle, sends_fail, implies_true, and_true]
  refine ⟨trivial, fun found => ?_⟩
  cases found with
  | none => trivial
  | some user =>
      simp only [sends_ite]
      refine ⟨fun _ => ?_, fun _ => by simp [Calm, Tame, UserData.Mild]⟩
      split
      · simp
      · exact (calm_verifyCode _ _).handle (by simp [Calm, Tame, UserData.Mild]) (by simp)

theorem calm_verifyAndEnable (userId : Id) (code : String) :
    (verifyAndEnable userId code).Sends Calm := by
  simp only [verifyAndEnable, bind_eq, sends_send_handle, sends_fail, implies_true, and_true]
  refine ⟨trivial, fun found => ?_⟩
  cases found with
  | none => trivial
  | some user =>
      dsimp only
      split
      · exact (calm_decryptMfaSecret _).handle (by simp [Calm, Tame, UserData.Mild]) (by simp)
      · trivial

theorem calm_disable (userId : Id) (code : String) : (disable userId code).Sends Calm :=
  (calm_verifyCode _ _).handle (by simp [Calm, Tame, UserData.Mild]) (by simp)

/-! ## All calls -/

/-- The calls that may delete chains. -/
def Op.closes : Op → Bool
  | .refreshTokens _ => true
  | .revokeSession _ => true
  | .logout _ => true
  | .resetPassword .. => true
  | _ => false

theorem sends_map {α : Type} {P : Stmt → Prop} {p : Call α} (hp : p.Sends P) (f : α → Reply) :
    (f <$> p).Sends P :=
  hp.handle (fun _ => trivial) fun _ => trivial

/-- The calls that may update a pending registration. -/
def Op.updatesPending : Op → Bool
  | .resendVerification _ => true
  | .verifyEmailByCode .. => true
  | _ => false

theorem calm_prog {o : Op} (ho : ∀ dto, o ≠ .login dto) (hcloses : o.closes = false)
    (hupdates : o.updatesPending = false) : (prog o).Sends Calm := by
  cases o with
  | login dto => exact absurd rfl (ho dto)
  | register dto => exact sends_map (calm_register _) _
  | verifyEmailByToken token => exact sends_map (calm_verifyEmailByToken _) _
  | completeMfaLogin token code => exact sends_map (calm_completeMfaLogin ..) _
  | forgotPassword email => exact sends_map (calm_forgotPassword _) _
  | studentChangePassword userId currentPassword newPassword =>
      exact sends_map (calm_changePassword ..) _
  | teacherChangePassword userId currentPassword newPassword =>
      exact sends_map (calm_changePassword ..) _
  | enableMfa userId currentCode => exact sends_map (calm_generateSecret ..) _
  | verifyMfa userId code => exact sends_map (calm_verifyAndEnable ..) _
  | disableMfa userId code => exact sends_map (calm_disable ..) _
  | authenticate token => exact sends_map (calm_authenticate _) _
  | requireUser token => exact sends_map (calm_requireUser _) _
  | resendVerification email => cases hupdates
  | verifyEmailByCode email code => cases hupdates
  | _ => cases hcloses

theorem gentle_prog {o : Op} (ho : ∀ dto, o ≠ .login dto) (hcloses : o.closes = false) :
    (prog o).Sends Gentle := by
  cases hupdates : o.updatesPending with
  | false => exact (calm_prog ho hcloses hupdates).mono fun _ => Calm.gentle
  | true =>
      cases o with
      | resendVerification email => exact sends_map (gentle_resendVerification _) _
      | verifyEmailByCode email code => exact sends_map (gentle_verifyEmailByCode ..) _
      | _ => cases hupdates

/-- **No call but a login writes the counter of failed logins**, and no other call but those that
    resend and compare codes updates a pending registration. -/
theorem tame_prog {o : Op} (ho : ∀ dto, o ≠ .login dto) (hupdates : o.updatesPending = false) :
    (prog o).Sends Tame := by
  cases hcloses : o.closes with
  | false => exact (calm_prog ho hcloses hupdates).mono fun _ => Calm.tame
  | true =>
      cases o with
      | refreshTokens token => exact sends_map (tame_refreshTokens _) _
      | revokeSession userId => exact sends_map (tame_revokeSession _) _
      | logout cookieToken => exact sends_map (tame_logout _) _
      | resetPassword token newPassword => exact sends_map (tame_resetPassword ..) _
      | _ => cases hcloses

theorem mild_prog {o : Op} (ho : ∀ dto, o ≠ .login dto) : (prog o).Sends Mild := by
  cases hupdates : o.updatesPending with
  | false => exact (tame_prog ho hupdates).mono fun _ => Tame.mild
  | true =>
      cases o with
      | resendVerification email =>
          exact (sends_map (gentle_resendVerification _) _).mono fun _ => Gentle.mild
      | verifyEmailByCode email code =>
          exact (sends_map (gentle_verifyEmailByCode ..) _).mono fun _ => Gentle.mild
      | _ => cases hupdates

/-! ## The counter of an account -/

/-- The number of failed attempts in a row, and the instant of the last one. -/
def counterOf : Option User → Nat × Option Nat
  | some u => (u.failedLoginAttempts, u.lastFailedLoginAt)
  | none => (0, none)

def counter (s : World) (id : Id) : Nat × Option Nat := counterOf (s.users.find? id)

/-- Whether an account is locked depends on its counter only. -/
theorem locked_of_counter {u u' : User} {n : Nat} (h : counterOf (some u) = counterOf (some u'))
    (hlocked : Locked u n) : Locked u' n := by
  obtain ⟨hcount, hlast⟩ := Prod.mk.inj h
  exact ⟨hcount ▸ hlocked.1, hlast ▸ hlocked.2⟩

theorem counterOf_set {data : UserData} (h : data.Mild) (found : Option User) :
    counterOf (found.map data.set) = counterOf found := by
  obtain ⟨hcount, hlast⟩ := h
  cases found <;> simp [counterOf, UserData.set, hcount, hlast]

theorem counter_update (id id' : Id) (data : UserData) (s : World) :
    counter (World.apply (.user id' data) s) id =
      if id = id' then counterOf ((s.users.find? id).map data.set) else counter s id := by
  unfold counter
  simp only [World.apply, Table.find?_modify]
  split <;> simp_all

/-- Writes that leave the counters alone. -/
def Write.Mild : Write → Prop
  | .newUser _ => False
  | .user _ data => data.Mild
  | _ => True

theorem counter_applyAll {ws : List Write} (h : ∀ w ∈ ws, w.Mild) (s : World) (id : Id) :
    counter (model.applyAll ws s) id = counter s id := by
  refine @Model.applyAll_keeps _ model (fun t => counter t id = counter s id) ws
    (fun w hw t ht => ?_) s rfl
  cases w with
  | user id' data =>
      rw [counter_update, counterOf_set (h _ hw)]
      split <;> exact ht
  | newUser row => exact (h _ hw).elim
  | _ => exact ht

/-- A new account starts with the counter that an account that does not exist has. -/
theorem counter_newUser {s : World} {data : UserCreate} {id : Id}
    (h : s.users.find? id = none) (id' : Id) :
    counter (World.apply (.newUser (data.row id)) s) id' = counter s id' := by
  unfold counter
  have hcontains : s.users.contains (Keyed.key (data.row id)) = false := by
    rw [Table.contains, show Keyed.key (data.row id) = id from rfl, h]
    rfl
  simp only [World.apply, Table.find?_insert hcontains]
  split
  · next heq => rw [show id' = id from heq, h]; rfl
  · rfl

/-- **A mild statement leaves the counters alone.** -/
theorem counter_exec {q : Stmt} {c : Choice} {s : World} {a : Ans q} (h : exec q c s = some a)
    (hq : Mild q) (id : Id) : counter (model.applyAll (writes q a) s) id = counter s id := by
  cases q with
  | userCreate data =>
      cases c <;> simp only [exec, reduceCtorEq] at h
      split at h
      · cases h
      · next hfree =>
          obtain rfl := Option.some.inj h
          refine counter_newUser (s := World.apply (.draw _) s) (Table.find?_eq_none.2 ?_) id
          intro u hu heq
          exact hfree (.inr (List.any_eq_true.2 ⟨u, hu, by simpa using .inl heq⟩))
  | userUpdate id' data =>
      refine counter_applyAll (fun w hw => ?_) s id
      exact List.mem_singleton.1 hw ▸ hq
  | userUpdateManyByResetToken hash now data =>
      refine counter_applyAll (fun w hw => ?_) s id
      obtain ⟨id', -, rfl⟩ := List.mem_map.1 hw
      exact hq
  | refreshSessionUpdateMany userId jti newJti =>
      refine counter_applyAll (fun w hw => ?_) s id
      cases jti with
      | none => cases hw
      | some jti =>
          simp only [writes] at hw
          split at hw
          · cases hw
          · cases w <;> first | trivial | simp at hw
  | _ =>
      refine counter_applyAll (fun w hw => ?_) s id
      cases w <;> first | trivial | simp [writes] at hw

@[simp] theorem clock_applyAll (ws : List Write) (s : World) :
    (model.applyAll ws s).clock = s.clock :=
  @Model.applyAll_keeps _ model (fun t => t.clock = s.clock) ws
    (fun w _ t ht => by cases w <;> exact ht) s rfl

end GetPlatform.Auth
