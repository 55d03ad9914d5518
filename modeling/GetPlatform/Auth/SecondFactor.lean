import GetPlatform.Auth.PasswordReset

set_option autoImplicit false

/-! # The second factor is on for a secret that was verified

Enrolling, confirming and disabling all read the user first and write later. What was read may have
changed when the write runs: then the second factor is turned on for a secret that nobody has verified,
or off without a code. As long as no call writes on what has changed since, neither happens. -/

namespace GetPlatform.Auth

open Pool Prog

/-! ## The calls, and what they have verified -/

inductive MfaOp where
  | generateSecret (userId : Id) (currentCode : Option String)
  | verifyAndEnable (userId : Id) (code : String)
  | disable (userId : Id) (code : String)

def mfaProg : MfaOp → Call Unit
  | .generateSecret userId currentCode => (fun _ => ()) <$> generateSecret userId currentCode
  | .verifyAndEnable userId code => verifyAndEnable userId code
  | .disable userId code => disable userId code

abbrev MfaPlatform := Pool model MfaOp Err Unit

abbrev MfaLog := Trace interface MfaOp

/-- The code a call is given. -/
def MfaOp.code : MfaOp → Option String
  | .generateSecret _ currentCode => currentCode
  | .verifyAndEnable _ code => some code
  | .disable _ code => some code

/-- `es` verified a code against the stored secret `mfaSecret`. -/
def VerifiedCode (es : List Ev) (mfaSecret code : String) : Prop :=
  ∃ secret, (⟨.decrypt mfaSecret, secret⟩ : Ev) ∈ es ∧ (⟨.totpVerify secret code, true⟩ : Ev) ∈ es

/-- Some call has verified a code against the stored secret. -/
def SecretVerified (h : History interface) (mfaSecret : String) : Prop :=
  ∃ i code secret, (i, (⟨.decrypt mfaSecret, secret⟩ : Ev)) ∈ h ∧
    (i, (⟨.totpVerify secret code, true⟩ : Ev)) ∈ h

/-- The user an event has read. -/
def readUser : Ev → Option User
  | ⟨.userFindUnique _, found⟩ => found
  | _ => none

/-- The user as the call has read it first. -/
def firstRead (l : MfaLog) : Option User := l.done.findSome? readUser

/-- The user as the call has read it last. -/
def lastRead (l : MfaLog) : Option User := l.done.reverse.findSome? readUser

/-- The call is about to turn the second factor of a user on or off. -/
def switching (t : Thread interface MfaOp Err Unit) : Option (Id × Bool) :=
  match t.next? with
  | some (.userUpdate userId data) => data.mfaEnabled.map (userId, ·)
  | _ => none

/-- Has a call that replaces the secret found the second factor on when it first read the user? -/
def FoundOn (l : MfaLog) : Prop :=
  match l.op with
  | .generateSecret .. => ∃ u ∈ firstRead l, u.mfaEnabled = true
  | _ => True

instance (l : MfaLog) : Decidable (FoundOn l) := by
  unfold FoundOn
  split <;> infer_instance

/-- Whoever changes whether the second factor of a user is on writes on the secret that it has read;
    and whoever turns it off by replacing the secret has found it on. -/
def Timely (_ : History interface) (p : MfaPlatform) : Step model MfaOp → Prop
  | .exec i _ => ∀ t ∈ p.threads[i]?, ∀ x ∈ switching t, ∀ u ∈ p.db.users.find? x.1,
      u.mfaEnabled ≠ x.2 →
        (∃ r ∈ lastRead t.trace, r.mfaSecret = u.mfaSecret) ∧ (x.2 = false → FoundOn t.trace)
  | _ => True

instance (h : History interface) (p : MfaPlatform) (a : Step model MfaOp) :
    Decidable (Timely h p a) := by
  cases a <;> unfold Timely <;> infer_instance

/-! ## What a call has done before it writes -/

/-- The record of a call that has verified a code against the secret it has read. -/
def confirming (userId : Id) (user : User) (mfaSecret secret code : String) : List Ev :=
  [⟨.userFindUnique userId, some user⟩, ⟨.decrypt mfaSecret, secret⟩,
    ⟨.totpVerify secret code, true⟩]

/-- What each call writes, and on what. -/
inductive Ready : MfaLog → Id → UserData → Prop
  | enroll {userId : Id} {currentCode : Option String} {user : User} {secret mfaSecret : String}
      {l : MfaLog} : l.op = .generateSecret userId currentCode → user.mfaEnabled = false →
      l.done = [⟨.userFindUnique userId, some user⟩, ⟨.generateTotpSecret, secret⟩,
        ⟨.encrypt secret, mfaSecret⟩] →
      Ready l userId { mfaSecret := some (some mfaSecret), mfaEnabled := some false }
  | reenroll {userId : Id} {code : String} {user user' : User}
      {old oldSecret secret mfaSecret : String} {l : MfaLog} :
      l.op = .generateSecret userId (some code) → user.mfaEnabled = true →
      user'.mfaSecret = some old →
      l.done = ⟨.userFindUnique userId, some user⟩ :: confirming userId user' old oldSecret code ++
        [⟨.generateTotpSecret, secret⟩, ⟨.encrypt secret, mfaSecret⟩] →
      Ready l userId { mfaSecret := some (some mfaSecret), mfaEnabled := some false }
  | enable {userId : Id} {code : String} {user : User} {mfaSecret secret : String} {l : MfaLog} :
      l.op = .verifyAndEnable userId code → user.mfaSecret = some mfaSecret →
      l.done = confirming userId user mfaSecret secret code →
      Ready l userId { mfaEnabled := some true }
  | disable {userId : Id} {code : String} {user : User} {mfaSecret secret : String} {l : MfaLog} :
      l.op = .disable userId code → user.mfaSecret = some mfaSecret →
      l.done = confirming userId user mfaSecret secret code →
      Ready l userId { mfaSecret := some none, mfaEnabled := some false }

def mfaGuard (l : MfaLog) : Stmt → Prop
  | .userFindUnique _ => True
  | .decrypt _ => True
  | .totpVerify .. => True
  | .generateTotpSecret => True
  | .encrypt _ => True
  | .userUpdate userId data => Ready l userId data
  | _ => False

def mfaGuards : Guards interface MfaOp where
  stmt l q := l.tx = none ∧ mfaGuard l q
  commit _ := False

@[simp] theorem mfa_send {q : Stmt} {Q : MfaLog → Ans q → Prop} {E : MfaLog → Err → Prop}
    {l : MfaLog} :
    @Conforms interface model Err (no_index (Ans q)) MfaOp mfaGuards (send q) Q E l ↔
      (l.tx = none ∧ mfaGuard l q) ∧ (∀ f, E l (.database f)) ∧
        ∀ a, model.Possible q a → Q (l.push ⟨q, a⟩) a := Iff.rfl

abbrev anyEnd {α : Type} (_ : MfaLog) (_ : α) : Prop := True

theorem truthy_eq_some {text : Option String} {x : String} (h : truthy text = some x) :
    text = some x :=
  (Option.filter_eq_some_iff.1 h).1

theorem decryptMfaSecret_conforms {o : MfaOp} {d : List Ev} {mfaSecret : String}
    {Q : MfaLog → String → Prop}
    (hQ : ∀ secret, Q ⟨o, d ++ [⟨.decrypt mfaSecret, secret⟩], none⟩ secret) :
    (decryptMfaSecret mfaSecret).Conforms model mfaGuards Q anyEnd ⟨o, d, none⟩ := by
  simp only [decryptMfaSecret, tryCatch_eq, throw_eq, conforms_handle, mfa_send, conforms_ret,
    conforms_fail, Trace.push_outside]
  exact ⟨⟨trivial, trivial⟩, fun _ => trivial, fun secret _ => hQ secret⟩

theorem verifyCode_conforms {o : MfaOp} {d : List Ev} {userId : Id} {code : String}
    {Q : MfaLog → Bool → Prop} (hno : ∀ d', Q ⟨o, d', none⟩ false)
    (hyes : ∀ user mfaSecret secret, user.mfaSecret = some mfaSecret →
      Q ⟨o, d ++ confirming userId user mfaSecret secret code, none⟩ true) :
    (verifyCode userId code).Conforms model mfaGuards Q anyEnd ⟨o, d, none⟩ := by
  simp only [verifyCode, bind_eq, conforms_handle, mfa_send, conforms_fail, Trace.push_outside]
  refine ⟨⟨trivial, trivial⟩, fun _ => trivial, fun found _ => ?_⟩
  split
  · exact hno _
  · next mfaSecret hsecret =>
      obtain ⟨user, rfl, huser⟩ := Option.bind_eq_some_iff.1 (truthy_eq_some hsecret)
      rw [conforms_handle]
      refine decryptMfaSecret_conforms fun secret => ?_
      simp only [mfa_send, Trace.push_outside, List.append_assoc, List.cons_append, List.nil_append]
      refine ⟨⟨trivial, trivial⟩, fun _ => trivial, fun verified _ => ?_⟩
      cases verified with
      | false => exact hno _
      | true => exact hyes user mfaSecret secret huser

theorem mfaProg_conforms (o : MfaOp) :
    (mfaProg o).Conforms model mfaGuards anyEnd anyEnd (.start o) := by
  cases o with
  | generateSecret userId currentCode =>
      simp only [mfaProg, generateSecret, map_eq, bind_eq, pure_eq, throw_eq, conforms_handle,
        mfa_send, conforms_fail, conforms_ret, handle_fail, Trace.start_eq, Trace.push_outside,
        List.nil_append]
      refine ⟨⟨trivial, trivial⟩, fun _ => trivial, fun found _ => ?_⟩
      cases found with
      | none => trivial
      | some user =>
          simp only [conforms_handle, conforms_ite, conforms_fail, conforms_ret, mfa_send,
            Trace.push_outside]
          refine ⟨fun hon => ?_, fun hoff => ⟨fun _ => trivial, fun _ => ⟨⟨trivial, trivial⟩,
            fun _ => trivial, fun secret _ => ⟨⟨trivial, trivial⟩, fun _ => trivial,
              fun mfaSecret _ => ⟨⟨trivial, ?_⟩, fun _ => trivial, fun _ _ => trivial⟩⟩⟩⟩⟩
          · split
            · simp [anyEnd]
            · next code hcode =>
                simp only [conforms_handle, conforms_ite, conforms_fail, mfa_send, conforms_ret]
                refine verifyCode_conforms (fun _ => by simp [anyEnd]) fun user' old oldSecret hold => ?_
                simp only [not_true, false_implies, not_false_eq_true, true_implies, true_and]
                refine ⟨trivial, fun _ => trivial, fun secret _ => ⟨⟨rfl, trivial⟩,
                  fun _ => trivial, fun mfaSecret _ => ⟨⟨rfl, ?_⟩, fun _ => trivial,
                    fun _ _ => trivial⟩⟩⟩
                exact .reenroll (congrArg _ (truthy_eq_some hcode)) hon hold rfl
          · exact .enroll rfl (by simpa using hoff) rfl
  | verifyAndEnable userId code =>
      simp only [mfaProg, verifyAndEnable, bind_eq, throw_eq, conforms_handle, mfa_send,
        conforms_fail, handle_fail, Trace.start_eq, Trace.push_outside, List.nil_append]
      refine ⟨⟨trivial, trivial⟩, fun _ => trivial, fun found _ => ?_⟩
      cases found with
      | none => trivial
      | some user =>
          dsimp only
          split
          · next mfaSecret hsecret =>
              rw [conforms_handle]
              refine decryptMfaSecret_conforms fun secret => ?_
              simp only [conforms_handle, conforms_ite, mfa_send, conforms_fail, Trace.push_outside,
                List.cons_append, List.nil_append]
              refine ⟨⟨trivial, trivial⟩, fun _ => trivial, fun verified _ => ⟨fun _ => trivial,
                fun hverified => ⟨⟨trivial, ?_⟩, fun _ => trivial, fun _ _ => trivial⟩⟩⟩
              obtain rfl : verified = true := Decidable.not_not.1 hverified
              exact .enable rfl (truthy_eq_some hsecret) rfl
          · trivial
  | disable userId code =>
      simp only [mfaProg, disable, bind_eq, throw_eq, conforms_handle, conforms_ite, conforms_fail,
        mfa_send, Trace.start_eq]
      refine verifyCode_conforms (fun _ => by simp [anyEnd]) fun user mfaSecret secret hsecret => ?_
      simp only [not_true, false_implies, not_false_eq_true, true_implies, true_and]
      exact ⟨.disable rfl hsecret rfl, fun _ => trivial, fun _ _ => trivial⟩

/-! ## What a write finds -/

variable {s₀ : World} {h : History interface} {p p' : MfaPlatform} {a : Step model MfaOp}

/-- A secret is backed if a code was verified against it, or if it was the one the second factor was on
    for at the start. -/
def Backed (s₀ : World) (h : History interface) (u : User) : Prop :=
  (∃ mfaSecret, u.mfaSecret = some mfaSecret ∧ SecretVerified h mfaSecret) ∨
    ∃ u₀ ∈ s₀.users, u₀.id = u.id ∧ u₀.mfaEnabled = true ∧ u₀.mfaSecret = u.mfaSecret

theorem Backed.append {u : User} (hbacked : Backed s₀ h u) (h' : History interface) :
    Backed s₀ (h' ++ h) u := by
  rcases hbacked with ⟨mfaSecret, hsecret, i, code, secret, hdecrypt, hverify⟩ | hstart
  · exact .inl ⟨mfaSecret, hsecret, i, code, secret, List.mem_append_right _ hdecrypt,
      List.mem_append_right _ hverify⟩
  · exact .inr hstart

/-- A call that writes has verified a code against the secret it has read last; except that one that
    replaces the secret may have found the second factor off. -/
theorem Ready.verified {l : MfaLog} {userId : Id} {data : UserData} (hready : Ready l userId data)
    (hon : FoundOn l ∨ data.mfaEnabled = some true) :
    ∃ user mfaSecret code, lastRead l = some user ∧ user.mfaSecret = some mfaSecret ∧
      l.op.code = some code ∧ VerifiedCode l.done mfaSecret code := by
  cases hready with
  | @enroll _ currentCode user secret mfaSecret _ hop hoff hdone =>
      rcases hon with hon | hon
      · rw [FoundOn, hop] at hon
        obtain ⟨u, hu, hfound⟩ := hon
        rw [firstRead, hdone] at hu
        obtain rfl := Option.some.inj hu
        rw [hoff] at hfound
        cases hfound
      · cases hon
  | @reenroll _ code user user' old oldSecret secret mfaSecret _ hop hfound hold hdone =>
      refine ⟨user', old, code, by rw [lastRead, hdone]; rfl, hold, by rw [hop]; rfl, oldSecret, ?_⟩
      simp [hdone, confirming]
  | @enable _ code user mfaSecret secret _ hop hsecret hdone =>
      refine ⟨user, mfaSecret, code, by rw [lastRead, hdone]; rfl, hsecret, by rw [hop]; rfl, secret, ?_⟩
      simp [hdone, confirming]
  | @disable _ code user mfaSecret secret _ hop hsecret hdone =>
      refine ⟨user, mfaSecret, code, by rw [lastRead, hdone]; rfl, hsecret, by rw [hop]; rfl, secret, ?_⟩
      simp [hdone, confirming]

theorem Ready.switches {l : MfaLog} {userId : Id} {data : UserData} (hready : Ready l userId data) :
    data.mfaEnabled = some true ∧ data.mfaSecret = none ∨ data.mfaEnabled = some false := by
  cases hready with
  | enable => exact .inl ⟨rfl, rfl⟩
  | _ => exact .inr rfl

/-- A step of a run changes no user, or is a call's write. -/
theorem users_of_step {R : History interface → MfaPlatform → Step model MfaOp → Prop}
    (hrec : Recorded mfaProg R (idle s₀) h p) (hs : p.step mfaProg a = some p') :
    p'.db.users = p.db.users ∨ ∃ i c t userId data, a = .exec i c ∧ p.threads[i]? = some t ∧
      switching t = data.mfaEnabled.map (userId, ·) ∧ Ready t.trace userId data ∧
      p'.db.users = (World.apply (.user userId data) p.db).users := by
  have hsound := hrec.run.sound mfaProg_conforms
  cases taken_of_step hs with
  | spawn o => exact .inl rfl
  | env n => exact .inl rfl
  | turn => exact .inl rfl
  | @commit i t k c ht hk => exact (hsound.conforms i t ht _ hk).2.1.elim
  | @callTx i t q k c x ht hk htx hx => exact absurd (hsound.conforms i t ht _ hk).1.1 htx
  | @call i t q k c x ht hk htx hx =>
      have hguard := (hsound.conforms i t ht _ hk).1.2
      cases q with
      | userUpdate userId data =>
          refine .inr ⟨i, c, t, userId, data, rfl, ht, ?_, hguard, rfl⟩
          rw [switching, next_of_call hk]
      | userFindUnique id => exact .inl rfl
      | decrypt text => exact .inl rfl
      | totpVerify secret code => exact .inl rfl
      | generateTotpSecret => exact .inl rfl
      | encrypt text => exact .inl rfl
      | _ => exact hguard.elim

/-- What one step makes of a user. -/
theorem user_of_step {R : History interface → MfaPlatform → Step model MfaOp → Prop}
    (hrec : Recorded mfaProg R (idle s₀) h p) (hs : p.step mfaProg a = some p') {u' : User}
    (hu' : u' ∈ p'.db.users) :
    u' ∈ p.db.users ∨ ∃ u ∈ p.db.users, ∃ i c t data, a = .exec i c ∧ p.threads[i]? = some t ∧
      switching t = data.mfaEnabled.map (u.id, ·) ∧ Ready t.trace u.id data ∧ u' = data.set u := by
  rcases users_of_step hrec hs with hsame | ⟨i, c, t, userId, data, rfl, ht, hswitch, hready, husers⟩
  · exact .inl (hsame ▸ hu')
  · rw [husers] at hu'
    obtain ⟨u, hu, rfl⟩ := mem_apply_user.1 hu'
    by_cases hid : u.id = userId
    · subst hid
      rw [if_pos rfl]
      exact .inr ⟨u, hu, i, c, t, data, rfl, ht, hswitch, hready, rfl⟩
    · rw [if_neg hid]
      exact .inl hu

/-- The call that takes the step was given a code that is valid for the secret of the user. -/
def Authorized (p : MfaPlatform) (a : Step model MfaOp) (u : User) : Prop :=
  ∃ i c t mfaSecret code, a = .exec i c ∧ p.threads[i]? = some t ∧ t.trace.op.code = some code ∧
    u.mfaSecret = some mfaSecret ∧ VerifiedCode t.trace.done mfaSecret code

/-- Whoever switches the second factor of a user was given a valid code, if the step is timely. -/
theorem authorized_of_switch (hR : Timely h p a) {u : User} (hu : u ∈ p.db.users) {i : Nat}
    {c : Choice} {t : Thread interface MfaOp Err Unit} {data : UserData} (ha : a = .exec i c)
    (ht : p.threads[i]? = some t) (hswitch : switching t = data.mfaEnabled.map (u.id, ·))
    (hready : Ready t.trace u.id data) (hne : (data.set u).mfaEnabled ≠ u.mfaEnabled) :
    Authorized p a u := by
  subst ha
  have hfind : p.db.users.find? u.id = some u := Table.find?_key hu
  obtain ⟨b, hb⟩ : ∃ b, data.mfaEnabled = some b := by
    rcases hready.switches with ⟨hb, -⟩ | hb <;> exact ⟨_, hb⟩
  have hset : (data.set u).mfaEnabled = b := by simp [UserData.set, hb]
  rw [hset] at hne
  obtain ⟨⟨r, hr, hsecret⟩, hfound⟩ := hR t ht (u.id, b) (by simp [hswitch, hb]) u hfind hne.symm
  have hon : FoundOn t.trace ∨ data.mfaEnabled = some true := by
    cases b with
    | true => exact .inr hb
    | false => exact .inl (hfound rfl)
  obtain ⟨user, mfaSecret, code, hlast, huser, hcode, hverified⟩ := hready.verified hon
  obtain rfl : r = user := Option.some.inj (hr.symm.trans hlast)
  exact ⟨i, c, t, mfaSecret, code, rfl, ht, hcode, hsecret.symm.trans huser, hverified⟩

/-! ## Every run -/

theorem backed_of_run (hrec : Recorded mfaProg Timely (idle s₀) h p) :
    ∀ u ∈ p.db.users, u.mfaEnabled = true → Backed s₀ h u := by
  induction hrec with
  | refl => exact fun u hu hon => .inr ⟨u, hu, rfl, hon, rfl⟩
  | @step h p p' a hrec hR hs ih =>
      intro u' hu' hon'
      rcases user_of_step hrec hs hu' with hu | ⟨u, hu, i, c, t, data, ha, ht, hswitch, hready, rfl⟩
      · exact (ih u' hu hon').append _
      · have hsecret : (data.set u).mfaSecret = u.mfaSecret := by
          rcases hready.switches with ⟨-, hnone⟩ | hoff
          · simp [UserData.set, hnone]
          · simp [UserData.set, hoff] at hon'
        by_cases hon : u.mfaEnabled = true
        · -- It was on already, for the same secret.
          have hbacked := (ih u hu hon).append (p.answering a).toList
          rw [Backed, hsecret]
          exact hbacked
        · obtain ⟨i', c', t', mfaSecret, code, ha', ht', -, hu'', secret, hdecrypt, hverify⟩ :=
            authorized_of_switch hR hu ha ht hswitch hready fun heq => hon (heq ▸ hon')
          have hin := fun {e} (he : e ∈ t'.trace.done) =>
            hrec.mem_history mfaProg_conforms (fun _ hfalse => hfalse) ht' he
          exact .inl ⟨mfaSecret, hsecret.trans hu'', i', code, secret,
            List.mem_append_right _ (hin hdecrypt), List.mem_append_right _ (hin hverify)⟩

/-- **The second factor belongs to whoever holds its secret.** In every run whose steps are timely, the
    second factor is on only for a secret against which a code was verified, or for which it was on at
    the start; and a step that turns it off, or replaces its secret, belongs to a call that was given
    a code valid for the secret in force. -/
theorem second_factor_guarded (hrec : Recorded mfaProg Timely (idle s₀) h p) :
    (∀ u ∈ p.db.users, u.mfaEnabled = true → Backed s₀ h u) ∧
    ∀ a p', Timely h p a → p.step mfaProg a = some p' → ∀ u ∈ p.db.users, ∀ u' ∈ p'.db.users,
      u'.id = u.id → u.mfaEnabled = true → u'.mfaEnabled = false ∨ u'.mfaSecret ≠ u.mfaSecret →
        Authorized p a u := by
  refine ⟨backed_of_run hrec, fun a p' hR hs u hu u' hu' hid hon hchanged => ?_⟩
  rcases user_of_step hrec hs hu' with hu'' | ⟨v, hv, i, c, t, data, ha, ht, hswitch, hready, rfl⟩
  · obtain rfl := Table.eq_of_key_eq hu'' hu hid
    rw [hon] at hchanged
    simp at hchanged
  · obtain rfl := Table.eq_of_key_eq hv hu hid
    refine authorized_of_switch hR hu ha ht hswitch hready fun heq => ?_
    rcases hchanged with hoff | hsecret
    · rw [heq, hon] at hoff
      cases hoff
    · rcases hready.switches with ⟨-, hnone⟩ | hoff
      · exact hsecret (by simp [UserData.set, hnone])
      · rw [hon] at heq
        simp [UserData.set, hoff] at heq

/-! ### On an account -/

/-- The call at place `i` starts to replace the student's secret, up to its write. -/
def replaceStart (i : Nat) (mfaSecret : String) : List (Step model MfaOp) :=
  [.spawn (.generateSecret 1 none), .exec i (.nat 0), .exec i (.text "secret"),
    .exec i (.text mfaSecret)]

/-- The call at place `i` reads the student's secret and verifies a code against it. -/
def confirmStart (i : Nat) (o : MfaOp) : List (Step model MfaOp) :=
  [.spawn o, .exec i (.nat 0), .exec i (.text "secret"), .exec i (.flag true)]

/-- The last statement of the call at place `i`. -/
def write (i : Nat) : Step model MfaOp := .exec i (.nat 0)

/-- The second factor of the student is on, for the secret stored as `mfaSecret`. -/
def onFor (p : MfaPlatform) (mfaSecret : String) : Bool :=
  (p.db.users.find? 1).any fun u => u.mfaEnabled && decide (u.mfaSecret = some mfaSecret)

theorem find_of_onFor {p : MfaPlatform} {mfaSecret : String} (hon : onFor p mfaSecret = true) :
    ∃ u ∈ p.db.users, u.id = 1 ∧ u.mfaEnabled = true ∧ u.mfaSecret = some mfaSecret := by
  obtain ⟨u, hu, hon⟩ := (Option.any_eq_true ..).1 hon
  simp only [Bool.and_eq_true, decide_eq_true_eq] at hon
  exact ⟨u, Table.mem_of_find? hu, Table.key_of_find? hu, hon⟩

/-- The student enrols, turns the second factor on, and off again. -/
theorem second_factor_guarded_student :
    ∃ (h : History interface) (p p' : MfaPlatform) (u : User),
      Recorded mfaProg Timely (idle registered) h p ∧ u ∈ p.db.users ∧ u.mfaEnabled = true ∧
      Backed registered h u ∧ p.step mfaProg (write 2) = some p' ∧ Authorized p (write 2) u := by
  have hplay : (playOn mfaProg Timely ([], (idle registered : MfaPlatform))
      (replaceStart 0 "stored" ++ write 0 :: confirmStart 1 (.verifyAndEnable 1 "123456") ++
        write 1 :: confirmStart 2 (.disable 1 "123456"))).any (fun hp => onFor hp.2 "stored" &&
          decide (Timely hp.1 hp.2 (write 2)) && (hp.2.step mfaProg (write 2)).any fun p' =>
            (p'.db.users.find? 1).any fun u => !u.mfaEnabled) = true := by
    decide +kernel
  obtain ⟨⟨h, p⟩, hplay, hend⟩ := (Option.any_eq_true ..).1 hplay
  simp only [Bool.and_eq_true, decide_eq_true_eq] at hend
  obtain ⟨⟨hon, htimely⟩, hstep⟩ := hend
  obtain ⟨p', hp', hoff⟩ := (Option.any_eq_true ..).1 hstep
  obtain ⟨u', hu', hoff⟩ := (Option.any_eq_true ..).1 hoff
  obtain ⟨u, hu, hid, hon, -⟩ := find_of_onFor hon
  have hstart : Recorded mfaProg Timely (idle registered : MfaPlatform) [] (idle registered) := .refl
  have hguarded := second_factor_guarded (hstart.onward (Onward.of_playOn hplay))
  refine ⟨h, p, p', u, hstart.onward (Onward.of_playOn hplay), hu, hon, hguarded.1 u hu hon, hp', ?_⟩
  exact hguarded.2 _ p' htimely hp' u hu u' (Table.mem_of_find? hu')
    ((Table.key_of_find? hu').trans hid.symm) hon (.inl (by simpa using hoff))

/-- Does an event decrypt the stored secret? -/
def decrypts (mfaSecret : String) : Ev → Bool
  | ⟨.decrypt text, _⟩ => text = mfaSecret
  | _ => false

/-- The secret is replaced between a verification and its write: the second factor is on for a secret
    that nobody has verified. And a call that has found it off replaces the secret after it was turned
    on: it is off without a code. -/
theorem not_second_factor_guarded :
    (¬ ∀ (s₀ : World) (h : History interface) (p : MfaPlatform),
        Recorded mfaProg (fun _ _ _ => True) (idle s₀) h p →
          ∀ u ∈ p.db.users, u.mfaEnabled = true → Backed s₀ h u) ∧
    ¬ ∀ (s₀ : World) (h : History interface) (p p' : MfaPlatform) (a : Step model MfaOp),
        Recorded mfaProg (fun _ _ _ => True) (idle s₀) h p → p.step mfaProg a = some p' →
          ∀ u ∈ p.db.users, ∀ u' ∈ p'.db.users, u'.id = u.id → u.mfaEnabled = true →
            u'.mfaEnabled = false → Authorized p a u := by
  have hstart : Recorded mfaProg (fun _ _ _ => True) (idle registered : MfaPlatform) []
    (idle registered) := .refl
  constructor
  · intro hall
    have hplay : (playOn mfaProg (fun _ _ _ => True) ([], (idle registered : MfaPlatform))
        (replaceStart 0 "stored" ++ write 0 :: confirmStart 1 (.verifyAndEnable 1 "123456") ++
          replaceStart 2 "other" ++ [write 2, write 1])).any (fun hp => onFor hp.2 "other" &&
            hp.1.all fun x => !decrypts "other" x.2) = true := by
      decide +kernel
    obtain ⟨⟨h, p⟩, hplay, hend⟩ := (Option.any_eq_true ..).1 hplay
    simp only [Bool.and_eq_true] at hend
    obtain ⟨hon, hnone⟩ := hend
    obtain ⟨u, hu, -, hon, hsecret⟩ := find_of_onFor hon
    rcases hall registered h p (hstart.onward (Onward.of_playOn hplay)) u hu hon with
      ⟨mfaSecret, hsecret', i, code, secret, hdecrypt, -⟩ | ⟨u₀, hu₀, -, hon₀, -⟩
    · obtain rfl := Option.some.inj (hsecret.symm.trans hsecret')
      have := List.all_eq_true.1 hnone _ hdecrypt
      simp [decrypts] at this
    · obtain rfl := List.mem_singleton.1 hu₀
      cases hon₀
  · intro hall
    have hplay : (playOn mfaProg (fun _ _ _ => True) ([], (idle registered : MfaPlatform))
        (replaceStart 0 "stored" ++ write 0 :: replaceStart 1 "other" ++
          confirmStart 2 (.verifyAndEnable 1 "123456") ++ [write 2])).any (fun hp =>
            onFor hp.2 "stored" && (hp.2.step mfaProg (write 1)).any (fun p' =>
              (p'.db.users.find? 1).any fun u => !u.mfaEnabled) &&
                (hp.2.threads[1]?).any fun t => t.trace.op.code.isNone) = true := by
      decide +kernel
    obtain ⟨⟨h, p⟩, hplay, hend⟩ := (Option.any_eq_true ..).1 hplay
    simp only [Bool.and_eq_true] at hend
    obtain ⟨⟨hon, hstep⟩, hnone⟩ := hend
    obtain ⟨p', hp', hoff⟩ := (Option.any_eq_true ..).1 hstep
    obtain ⟨u', hu', hoff⟩ := (Option.any_eq_true ..).1 hoff
    obtain ⟨u, hu, hid, hon, -⟩ := find_of_onFor hon
    obtain ⟨t, ht, hnone⟩ := (Option.any_eq_true ..).1 hnone
    obtain ⟨i, c, t', mfaSecret, code, ha, ht', hcode, -⟩ := hall registered h p p' (write 1)
      (hstart.onward (Onward.of_playOn hplay)) hp' u hu u' (Table.mem_of_find? hu')
      ((Table.key_of_find? hu').trans hid.symm) hon (by simpa using hoff)
    cases ha
    obtain rfl := Option.some.inj (ht.symm.trans ht')
    rw [hcode] at hnone
    cases hnone

end GetPlatform.Auth
