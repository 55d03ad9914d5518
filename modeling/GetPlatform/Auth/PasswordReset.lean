import GetPlatform.Auth.Chains
import GetPlatform.Store.Record
import GetPlatform.Store.Firm

set_option autoImplicit false

/-! # Password-reset tokens are used once

The calls here are `forgotPassword` and `resetPassword`, any number of them at once. A token is issued
when its hash is stored, and used when an update finds it; which tokens were issued to whom, and which
were used, is read off the history. The tokens drawn are assumed distinct, also from those that were
stored before. -/

namespace GetPlatform.Auth

open Pool Prog

/-! ## The calls, and what the history says of tokens -/

inductive ResetOp where
  | forgotPassword (email : String)
  | resetPassword (token newPassword : String)

def resetProg : ResetOp → Call Unit
  | .forgotPassword email => forgotPassword email
  | .resetPassword token newPassword => resetPassword token newPassword

abbrev ResetPlatform := Pool model ResetOp Err Unit

/-- What `forgotPassword` stores. -/
def stored (resetToken : String) (now : Nat) : UserData :=
  { resetTokenHash := some (some (sha256Hex resetToken))
    resetTokenExpiresAt := some (some (now + RESET_TOKEN_EXPIRATION_MS)) }

/-- What the update of `resetPassword` sets. -/
def consumption (hashedPassword : Hash) : UserData :=
  { password := some hashedPassword, resetTokenHash := some none, resetTokenExpiresAt := some none,
    incrementSessionVersion := true }

/-- The token an event has issued: to whom, and until when it is valid. -/
def issued : Ev → Option (Id × Digest × Nat)
  | ⟨.userUpdate id data, _⟩ =>
      match data.resetTokenHash, data.resetTokenExpiresAt with
      | some (some d), some (some expiry) => some (id, d, expiry)
      | _, _ => none
  | _ => none

/-- The token an event has changed a password with. -/
def used : Ev → Option Digest
  | ⟨.userUpdateManyByResetToken d _ _, ids⟩ => if List.isEmpty ids then none else some d
  | _ => none

/-- The token an event has issued to the user. -/
def issuedTo (userId : Id) (e : Ev) : Option (Digest × Nat) :=
  (issued e).bind fun (id, d, expiry) => if id = userId then some (d, expiry) else none

/-- The token that was stored for the user at the start. -/
def storedFor (s₀ : World) (userId : Id) : Option (Digest × Nat) :=
  (s₀.users.find? userId).bind fun u => u.resetTokenHash.bind fun d =>
    u.resetTokenExpiresAt.map fun expiry => (d, expiry)

/-- The newest token of a user. -/
def newest (s₀ : World) (h : History interface) (userId : Id) : Option (Digest × Nat) :=
  (h.findSome? fun e => issuedTo userId e.2).or (storedFor s₀ userId)

/-- The token an event has drawn. -/
def drawn : Ev → Option String
  | ⟨.randomBytes, resetToken⟩ => some resetToken
  | _ => none

/-- A token that is drawn was not drawn before, and was not stored at the start. -/
def Distinct (s₀ : World) (h : History interface) (p : ResetPlatform) (a : Step model ResetOp) :
    Prop :=
  ∀ x ∈ p.answering a, ∀ t ∈ drawn x.2, (∀ e ∈ h, drawn e.2 ≠ some t) ∧
    ∀ u ∈ s₀.users.rows, u.resetTokenHash ≠ some (sha256Hex t)

instance (s₀ : World) (h : History interface) (p : ResetPlatform) (a : Step model ResetOp) :
    Decidable (Distinct s₀ h p a) :=
  inferInstanceAs (Decidable (∀ x ∈ p.answering a, ∀ t ∈ drawn x.2, _))

/-- No two users have the same token. The column is unique. -/
def TokensUnique (s : World) : Prop :=
  ∀ u ∈ s.users, ∀ u' ∈ s.users, ∀ d, u.resetTokenHash = some d → u'.resetTokenHash = some d → u = u'

/-! ## What a call has done -/

abbrev ResetLog := Trace interface ResetOp

/-- The record of a `forgotPassword` that has drawn a token and read the clock. -/
def drawing (email : String) (user : User) (resetToken : String) (now : Nat) : List Ev :=
  [⟨.userFindUniqueByEmail email, some user⟩, ⟨.randomBytes, resetToken⟩, ⟨.now, now⟩]

/-- The record of a `resetPassword` that is about to use its token. -/
def redeeming (token newPassword : String) (hashedPassword : Hash) (looked : Nat)
    (candidate : Option User) (now : Nat) : List Ev :=
  [⟨.bcryptHash newPassword, hashedPassword⟩, ⟨.now, looked⟩,
    ⟨.userFindFirstByResetToken (sha256Hex token) looked, candidate⟩, ⟨.now, now⟩]

/-- The record of a `resetPassword` that has used its token, but for the removal of the sessions. -/
def Completed (token newPassword : String) (es : List Ev) : Prop :=
  ∃ hashedPassword looked candidate now ids, List.isEmpty ids = false ∧
    es = redeeming token newPassword hashedPassword looked candidate now ++
      [⟨.userUpdateManyByResetToken (sha256Hex token) now (consumption hashedPassword), ids⟩]

/-- The call has written nothing. -/
def WroteNothing (es : List Ev) : Prop := ∀ e ∈ es, writes e.stmt e.ans = []

def resetGuard (l : ResetLog) : Stmt → Prop
  | .now => True
  | .bcryptHash _ => True
  | .userFindUniqueByEmail _ => True
  | .userFindFirstByResetToken .. => True
  | .sendRawEmail _ => True
  | .refreshSessionDeleteMany _ => True
  | .randomBytes => ∃ email found, l.done = [⟨.userFindUniqueByEmail email, found⟩]
  | .userUpdate id data => ∃ email user resetToken now,
      l.done = drawing email user resetToken now ∧ id = user.id ∧ data = stored resetToken now
  | .userUpdateManyByResetToken d now data =>
      ∃ token newPassword hashedPassword looked candidate,
        l.op = .resetPassword token newPassword ∧ d = sha256Hex token ∧
          data = consumption hashedPassword ∧
            l.done = redeeming token newPassword hashedPassword looked candidate now
  | _ => False

def resetGuards : Guards interface ResetOp where
  stmt l q := l.tx = none ∧ resetGuard l q
  commit _ := False

@[simp] theorem reset_send {q : Stmt} {Q : ResetLog → Ans q → Prop} {E : ResetLog → Err → Prop}
    {l : ResetLog} :
    @Conforms interface model Err (no_index (Ans q)) ResetOp resetGuards (send q) Q E l ↔
      (l.tx = none ∧ resetGuard l q) ∧ (∀ f, E l (.database f)) ∧
        ∀ a, model.Possible q a → Q (l.push ⟨q, a⟩) a := Iff.rfl

/-- What a `resetPassword` that has returned, or failed, leaves on its record. -/
def Settles (l : ResetLog) : Prop :=
  ∀ token newPassword, l.op = .resetPassword token newPassword →
    ∃ es userId ids, Completed token newPassword es ∧
      (l.done = es ∨ l.done = es ++ [⟨.refreshSessionDeleteMany userId, ids⟩])

def Abandons (l : ResetLog) (e : Err) : Prop :=
  ∀ token newPassword, l.op = .resetPassword token newPassword →
    WroteNothing l.done ∨ (∃ f, e = .database f) ∧ Completed token newPassword l.done

theorem resetProg_conforms (o : ResetOp) :
    (resetProg o).Conforms model resetGuards (fun l _ => Settles l) Abandons (.start o) := by
  cases o with
  | forgotPassword email =>
      have hsettles : ∀ d, Settles ⟨.forgotPassword email, d, none⟩ := fun _ _ _ hop => by cases hop
      have habandons : ∀ d e, Abandons ⟨.forgotPassword email, d, none⟩ e :=
        fun _ _ _ _ hop => by cases hop
      simp only [resetProg, forgotPassword, bind_eq, pure_eq, tryCatch_eq, conforms_handle,
        reset_send, conforms_fail, Trace.start_eq, Trace.push_outside, List.nil_append]
      refine ⟨⟨trivial, trivial⟩, fun _ => habandons _ _, fun found _ => ?_⟩
      cases found with
      | none => exact hsettles _
      | some user =>
          simp only [conforms_handle, reset_send, conforms_fail, conforms_ret, Trace.push_outside,
            List.cons_append, List.nil_append]
          exact ⟨⟨trivial, email, some user, rfl⟩, fun _ => habandons _ _, fun t _ => ⟨⟨trivial, trivial⟩,
            fun _ => habandons _ _, fun now _ => ⟨⟨trivial, email, user, t, now, rfl, rfl, rfl⟩,
              fun _ => habandons _ _, fun _ _ => ⟨⟨trivial, trivial⟩, fun _ => hsettles _,
                fun _ _ => hsettles _⟩⟩⟩⟩
  | resetPassword token newPassword =>
      simp only [resetProg, resetPassword, bind_eq, pure_eq, throw_eq, conforms_handle,
        reset_send, conforms_fail, conforms_ite, handle_fail, Trace.start_eq, Trace.push_outside,
        List.nil_append, List.cons_append]
      have hnothing : ∀ d e, WroteNothing d →
          Abandons ⟨.resetPassword token newPassword, d, none⟩ e := fun _ _ h _ _ _ => .inl h
      have habandons : ∀ d f, Completed token newPassword d →
          Abandons ⟨.resetPassword token newPassword, d, none⟩ (.database f) := by
        intro d f h token' newPassword' hop
        cases hop
        exact .inr ⟨⟨f, rfl⟩, h⟩
      have hsettles : ∀ d, (∃ es userId ids, Completed token newPassword es ∧
          (d = es ∨ d = es ++ [⟨.refreshSessionDeleteMany userId, ids⟩])) →
            Settles ⟨.resetPassword token newPassword, d, none⟩ := by
        intro d h token' newPassword' hop
        cases hop
        exact h
      refine ⟨⟨trivial, trivial⟩, fun _ => hnothing _ _ (by simp [WroteNothing]), fun hashed _ =>
        ⟨⟨trivial, trivial⟩, fun _ => hnothing _ _ (by simp [WroteNothing, writes]), fun looked _ =>
          ⟨⟨trivial, trivial⟩, fun _ => hnothing _ _ (by simp [WroteNothing, writes]),
            fun candidate _ => ⟨⟨trivial, trivial⟩,
              fun _ => hnothing _ _ (by simp [WroteNothing, writes]), fun now _ => ⟨⟨trivial, ?_⟩,
                fun _ => hnothing _ _ (by simp [WroteNothing, writes]), fun ids _ => ?_⟩⟩⟩⟩⟩
      · exact ⟨token, newPassword, hashed, looked, candidate, rfl, rfl, rfl, rfl⟩
      · refine ⟨fun hcount => hnothing _ _ ?_, fun hcount => ?_⟩
        · obtain rfl := List.length_eq_zero_iff.1 hcount
          simp [WroteNothing, writes]
        · have hcompleted : Completed token newPassword
              (redeeming token newPassword hashed looked candidate now ++
                [⟨.userUpdateManyByResetToken (sha256Hex token) now (consumption hashed), ids⟩]) := by
            refine ⟨hashed, looked, candidate, now, ids, ?_, rfl⟩
            cases ids with
            | nil => exact absurd rfl hcount
            | cons _ _ => rfl
          cases candidate with
          | none => exact hsettles _ ⟨_, 0, [], hcompleted, .inl rfl⟩
          | some user =>
              simp only [conforms_handle, reset_send, conforms_fail, conforms_ret, Trace.push_outside]
              refine ⟨⟨trivial, trivial⟩, fun f => habandons _ f hcompleted, fun ids' _ => ?_⟩
              exact hsettles _ ⟨_, user.id, ids', hcompleted, .inr rfl⟩

theorem mem_apply_user {userId : Id} {data : UserData} {s : World} {u : User} :
    u ∈ (World.apply (.user userId data) s).users ↔
      ∃ u₀ ∈ s.users, u = if u₀.id = userId then data.set u₀ else u₀ :=
  @Table.mem_modify _ _ _ _ s.users userId _ data.key_set u

/-! ## The invariant -/

/-- The token was stored at the start, or issued since. -/
def Known (s₀ : World) (h : History interface) (d : Digest) : Prop :=
  (∃ u ∈ s₀.users.rows, u.resetTokenHash = some d) ∨
    ∃ x ∈ h, ∃ userId expiry, issued x.2 = some (userId, d, expiry)

/-- Each token is drawn by one call, and issued by the call that drew it. A user who has a token has
    the newest one, and it was not used. -/
structure Tidy (s₀ : World) (h : History interface) (s : World) : Prop where
  drawn : ∀ x ∈ h, ∀ t, drawn x.2 = some t →
    (∀ u ∈ s₀.users.rows, u.resetTokenHash ≠ some (sha256Hex t)) ∧
      ∀ y ∈ h, Auth.drawn y.2 = some t → y.1 = x.1
  issued : ∀ x ∈ h, ∀ userId d expiry, issued x.2 = some (userId, d, expiry) →
    ∃ t, d = sha256Hex t ∧ ∃ y ∈ h, y.1 = x.1 ∧ Auth.drawn y.2 = some t
  used : ∀ x ∈ h, ∀ d, used x.2 = some d → Known s₀ h d
  rows : ∀ u ∈ s.users, ∀ d, u.resetTokenHash = some d → Known s₀ h d ∧
    (∀ x ∈ h, Auth.used x.2 ≠ some d) ∧
      ∀ expiry, u.resetTokenExpiresAt = some expiry → newest s₀ h u.id = some (d, expiry)
  unique : TokensUnique s

variable {s₀ s s' : World} {h : History interface} {d : Digest}

theorem Known.cons (hknown : Known s₀ h d) (x : Nat × Ev) : Known s₀ (x :: h) d := by
  rcases hknown with hstart | ⟨y, hy, hissued⟩
  · exact .inl hstart
  · exact .inr ⟨y, .tail _ hy, hissued⟩

theorem newest_cons (s₀ : World) (x : Nat × Ev) (h : History interface) (userId : Id) :
    newest s₀ (x :: h) userId = (issuedTo userId x.2).or (newest s₀ h userId) := by
  unfold newest
  rw [List.findSome?_cons]
  cases issuedTo userId x.2 <;> simp

theorem newest_cons_of_none {x : Nat × Ev} (hx : issued x.2 = none) (userId : Id) :
    newest s₀ (x :: h) userId = newest s₀ h userId := by
  rw [newest_cons, issuedTo, hx]
  rfl

theorem tidy_start (hunique : TokensUnique s₀) : Tidy s₀ [] s₀ where
  drawn := by simp
  issued := by simp
  used := by simp
  rows := by
    intro u hu d hd
    refine ⟨.inl ⟨u, hu, hd⟩, by simp, fun expiry hexpiry => ?_⟩
    have hfind : s₀.users.find? u.id = some u := Table.find?_key hu
    simp [newest, storedFor, hfind, hd, hexpiry]
  unique := hunique

/-- One event more, if what it says of tokens agrees with what was said before. -/
theorem Tidy.cons (htidy : Tidy s₀ h s) {x : Nat × Ev}
    (hdrawn : ∀ t, Auth.drawn x.2 = some t → (∀ e ∈ h, Auth.drawn e.2 ≠ some t) ∧
      ∀ u ∈ s₀.users.rows, u.resetTokenHash ≠ some (sha256Hex t))
    (hissued : ∀ userId d expiry, Auth.issued x.2 = some (userId, d, expiry) →
      ∃ t, d = sha256Hex t ∧ ∃ y ∈ h, y.1 = x.1 ∧ Auth.drawn y.2 = some t)
    (hused : ∀ d, Auth.used x.2 = some d → Known s₀ h d)
    (hrows : ∀ u ∈ s'.users, ∀ d, u.resetTokenHash = some d → Known s₀ (x :: h) d ∧
      (∀ y ∈ x :: h, Auth.used y.2 ≠ some d) ∧
        ∀ expiry, u.resetTokenExpiresAt = some expiry → newest s₀ (x :: h) u.id = some (d, expiry))
    (hunique : TokensUnique s') : Tidy s₀ (x :: h) s' where
  drawn := by
    intro y hy t ht
    rcases List.mem_cons.1 hy with rfl | hold
    · obtain ⟨hnew, hstart⟩ := hdrawn t ht
      refine ⟨hstart, fun z hz hzt => ?_⟩
      rcases List.mem_cons.1 hz with rfl | hz
      · rfl
      · exact absurd hzt (hnew z hz)
    · obtain ⟨hstart, hone⟩ := htidy.drawn y hold t ht
      refine ⟨hstart, fun z hz hzt => ?_⟩
      rcases List.mem_cons.1 hz with rfl | hz
      · exact absurd ht ((hdrawn t hzt).1 y hold)
      · exact hone z hz hzt
  issued := by
    intro y hy userId d expiry hyd
    have hearlier : ∃ t, d = sha256Hex t ∧ ∃ z ∈ h, z.1 = y.1 ∧ Auth.drawn z.2 = some t := by
      rcases List.mem_cons.1 hy with rfl | hy
      · exact hissued userId d expiry hyd
      · exact htidy.issued y hy userId d expiry hyd
    obtain ⟨t, hd, z, hz, hsame⟩ := hearlier
    exact ⟨t, hd, z, .tail _ hz, hsame⟩
  used := by
    intro y hy d hyd
    rcases List.mem_cons.1 hy with rfl | hy
    · exact (hused d hyd).cons _
    · exact (htidy.used y hy d hyd).cons x
  rows := hrows
  unique := hunique

/-- An event that issues and uses no token, and changes no user. -/
theorem Tidy.quiet (htidy : Tidy s₀ h s) {x : Nat × Ev}
    (hdrawn : ∀ t, Auth.drawn x.2 = some t → (∀ e ∈ h, Auth.drawn e.2 ≠ some t) ∧
      ∀ u ∈ s₀.users.rows, u.resetTokenHash ≠ some (sha256Hex t))
    (hissued : Auth.issued x.2 = none) (hused : Auth.used x.2 = none) (husers : s'.users = s.users) :
    Tidy s₀ (x :: h) s' := by
  refine htidy.cons hdrawn (by simp [hissued]) (by simp [hused]) ?_ ?_
  · intro u hu d hd
    rw [husers] at hu
    obtain ⟨hknown, hunused, hnewest⟩ := htidy.rows u hu d hd
    refine ⟨hknown.cons x, fun y hy => ?_, fun expiry hexpiry => ?_⟩
    · rcases List.mem_cons.1 hy with rfl | hy
      · rw [hused]
        simp
      · exact hunused y hy
    · rw [newest_cons_of_none hissued]
      exact hnewest expiry hexpiry
  · intro u hu u' hu'
    rw [husers] at hu hu'
    exact htidy.unique u hu u' hu'

/-- A token that was drawn, and not issued, is in nobody's hands. -/
theorem Tidy.not_known (htidy : Tidy s₀ h s) {i : Nat} {e : Ev} {t : String} (hmem : (i, e) ∈ h)
    (hdrawn : Auth.drawn e = some t) (hpending : ∀ e', (i, e') ∈ h → Auth.issued e' = none) :
    ¬ Known s₀ h (sha256Hex t) := by
  obtain ⟨hstart, hone⟩ := htidy.drawn _ hmem t hdrawn
  rintro (⟨u, hu, hd⟩ | ⟨y, hy, userId, expiry, hy'⟩)
  · exact hstart u hu hd
  · obtain ⟨t', ht', z, hz, hsame, hzt⟩ := htidy.issued y hy userId _ expiry hy'
    obtain rfl : t = t' := congrArg Digest.value ht'
    have hplace : y.1 = i := hsame.symm.trans (hone z hz hzt)
    have hnone := hpending y.2 (hplace ▸ hy)
    rw [hy'] at hnone
    cases hnone

theorem Tidy.issue (htidy : Tidy s₀ h s) {i : Nat} {e : Ev} {t : String} {now : Nat} {userId : Id}
    {row : User} (hmem : (i, e) ∈ h) (hdrawn : Auth.drawn e = some t)
    (hpending : ∀ e', (i, e') ∈ h → Auth.issued e' = none) :
    Tidy s₀ ((i, ⟨.userUpdate userId (stored t now), row⟩) :: h)
      (World.apply (.user userId (stored t now)) s) := by
  have hunknown := htidy.not_known hmem hdrawn hpending
  have hissued : Auth.issued ⟨.userUpdate userId (stored t now), row⟩ =
      some (userId, sha256Hex t, now + RESET_TOKEN_EXPIRATION_MS) := rfl
  -- A user has the new token, or is as before.
  have hcases : ∀ u ∈ (World.apply (.user userId (stored t now)) s).users,
      (u.id = userId ∧ u.resetTokenHash = some (sha256Hex t) ∧
        u.resetTokenExpiresAt = some (now + RESET_TOKEN_EXPIRATION_MS)) ∨
        u ∈ s.users ∧ u.id ≠ userId := by
    intro u hu
    obtain ⟨u₀, hu₀, rfl⟩ := mem_apply_user.1 hu
    by_cases hid : u₀.id = userId
    · rw [if_pos hid]
      exact .inl ⟨hid, rfl, rfl⟩
    · rw [if_neg hid]
      exact .inr ⟨hu₀, hid⟩
  have hfree : ∀ u ∈ s.users, u.resetTokenHash ≠ some (sha256Hex t) :=
    fun u hu hd => hunknown (htidy.rows u hu _ hd).1
  refine htidy.cons (by simp [Auth.drawn]) ?_ (by simp [Auth.used]) ?_ ?_
  · intro userId' d expiry heq
    rw [hissued] at heq
    cases heq
    exact ⟨t, rfl, (i, e), hmem, rfl, hdrawn⟩
  · intro u hu d hd
    rcases hcases u hu with ⟨hid, hhash, hexp⟩ | ⟨hu, hne⟩
    · obtain rfl := Option.some.inj (hhash.symm.trans hd)
      refine ⟨.inr ⟨_, .head _, _, _, hissued⟩, fun y hy => ?_, fun expiry hexpiry => ?_⟩
      · rcases List.mem_cons.1 hy with rfl | hy
        · simp [Auth.used]
        · exact fun hyd => hunknown (htidy.used y hy _ hyd)
      · obtain rfl := Option.some.inj (hexp.symm.trans hexpiry)
        rw [newest_cons, issuedTo, hissued]
        simp [hid]
    · obtain ⟨hknown, hunused, hnewest⟩ := htidy.rows u hu d hd
      refine ⟨hknown.cons _, fun y hy => ?_, fun expiry hexpiry => ?_⟩
      · rcases List.mem_cons.1 hy with rfl | hy
        · simp [Auth.used]
        · exact hunused y hy
      · rw [newest_cons, issuedTo, hissued]
        simpa [Ne.symm hne] using hnewest expiry hexpiry
  · intro u hu u' hu' d hd hd'
    rcases hcases u hu with ⟨hid, hhash, hexp⟩ | ⟨hu₀, hne⟩
    · obtain rfl := Option.some.inj (hhash.symm.trans hd)
      rcases hcases u' hu' with ⟨hid', -, -⟩ | ⟨hu'₀, -⟩
      · exact Table.eq_of_key_eq hu hu' (hid.trans hid'.symm)
      · exact absurd hd' (hfree u' hu'₀)
    · rcases hcases u' hu' with ⟨-, hhash', -⟩ | ⟨hu'₀, -⟩
      · obtain rfl := Option.some.inj (hhash'.symm.trans hd')
        exact absurd hd (hfree u hu₀)
      · exact htidy.unique u hu₀ u' hu'₀ d hd hd'

/-- An update finds the one user whose token it is, if the token is still valid. -/
theorem resetting_cases (hunique : TokensUnique s) (d : Digest) (now : Nat) :
    s.resetting d now = [] ∨ ∃ u ∈ s.users, s.resetting d now = [u] ∧ u.resetTokenHash = some d ∧
      ∃ expiry, u.resetTokenExpiresAt = some expiry ∧ now < expiry := by
  have hmem : ∀ u ∈ s.resetting d now, u ∈ s.users ∧ u.resetTokenHash = some d ∧
      ∃ expiry, u.resetTokenExpiresAt = some expiry ∧ now < expiry := by
    intro u hu
    obtain ⟨hu, hmatch⟩ := List.mem_filter.1 hu
    obtain ⟨hd, hexpiry⟩ := of_decide_eq_true hmatch
    obtain ⟨expiry, hexp, hlt⟩ := (Option.any_eq_true ..).1 hexpiry
    exact ⟨hu, hd, expiry, hexp, of_decide_eq_true hlt⟩
  have hnodup : (s.resetting d now).Nodup := (List.Nodup.of_map _ s.users.nodup).filter _
  cases hlist : s.resetting d now with
  | nil => exact .inl rfl
  | cons u us =>
      obtain ⟨hu, hd, hexpiry⟩ := hmem u (hlist ▸ .head _)
      refine .inr ⟨u, hu, ?_, hd, hexpiry⟩
      cases us with
      | nil => rfl
      | cons u' us =>
          obtain ⟨hu', hd', -⟩ := hmem u' (hlist ▸ .tail _ (.head _))
          rw [hlist, hunique u hu u' hu' d hd hd'] at hnodup
          simp at hnodup

theorem Tidy.use (htidy : Tidy s₀ h s) {i : Nat} {now : Nat} {hashedPassword : Hash} {ids : List Id}
    (hids : ids = (s.resetting d now).map (·.id)) :
    Tidy s₀ ((i, ⟨.userUpdateManyByResetToken d now (consumption hashedPassword), ids⟩) :: h)
      (model.applyAll (ids.map (Write.user · (consumption hashedPassword))) s) := by
  rcases resetting_cases htidy.unique d now with hnone | ⟨u, hu, hone, hd, -⟩
  · rw [hnone] at hids
    subst hids
    exact htidy.quiet (by simp [Auth.drawn]) rfl rfl rfl
  · rw [hone] at hids
    subst hids
    show Tidy s₀ _ (World.apply (.user u.id (consumption hashedPassword)) s)
    -- Whoever has a token has had it before, and it is another one.
    have hcases : ∀ u' ∈ (World.apply (.user u.id (consumption hashedPassword)) s).users, ∀ d',
        u'.resetTokenHash = some d' → u' ∈ s.users ∧ d' ≠ d := by
      intro u' hu' d' hd'
      obtain ⟨u₀, hu₀, rfl⟩ := mem_apply_user.1 hu'
      by_cases hid : u₀.id = u.id
      · rw [if_pos hid] at hd'
        cases hd'
      · rw [if_neg hid] at hd' ⊢
        refine ⟨hu₀, fun heq => hid ?_⟩
        subst heq
        rw [htidy.unique u₀ hu₀ u hu d' hd' hd]
    refine htidy.cons (by simp [Auth.drawn]) (by simp [Auth.issued]) ?_ ?_ ?_
    · intro d' hd'
      obtain rfl : d = d' := Option.some.inj hd'
      exact (htidy.rows u hu d hd).1
    · intro u' hu' d' hd'
      obtain ⟨hu₀, hne⟩ := hcases u' hu' d' hd'
      obtain ⟨hknown, hunused, hnewest⟩ := htidy.rows u' hu₀ d' hd'
      refine ⟨hknown.cons _, fun y hy => ?_, fun expiry hexpiry => ?_⟩
      · rcases List.mem_cons.1 hy with rfl | hy
        · exact fun heq => hne (Option.some.inj heq).symm
        · exact hunused y hy
      · rw [newest_cons_of_none rfl]
        exact hnewest expiry hexpiry
    · intro u' hu' u'' hu'' d' hd' hd''
      exact htidy.unique u' (hcases u' hu' d' hd').1 u'' (hcases u'' hu'' d' hd'').1 d' hd' hd''

/-! ## Every run -/

variable {p p' : ResetPlatform} {a : Step model ResetOp}

theorem resetProg_sound (o : ResetOp) :
    (resetProg o).Conforms model resetGuards (fun _ _ => True) (fun _ _ => True) (.start o) :=
  conforms_mono (fun _ _ _ => trivial) (fun _ _ _ => trivial) (resetProg_conforms o)

/-- A call that is about to issue a token has drawn it, and has issued none. -/
theorem pending_of_drawing {R : History interface → ResetPlatform → Step model ResetOp → Prop}
    (hrec : Recorded resetProg R (idle s₀) h p) {i : Nat} {t : Thread interface ResetOp Err Unit}
    (ht : p.threads[i]? = some t) {email : String} {user : User} {resetToken : String} {now : Nat}
    (hdone : t.trace.done = drawing email user resetToken now) :
    (i, (⟨.randomBytes, resetToken⟩ : Ev)) ∈ h ∧ ∀ e, (i, e) ∈ h → issued e = none := by
  constructor
  · refine hrec.mem_history resetProg_sound (fun _ hfalse => hfalse) ht ?_
    simp [hdone, drawing]
  · intro e he
    by_contra hissued
    obtain ⟨t', ht', hmem⟩ := hrec.mem_done resetProg_sound (F := fun e => issued e ≠ none)
      (fun _ _ hguard _ => hguard.1) he hissued
    obtain rfl := Option.some.inj (ht.symm.trans ht')
    simp only [hdone, drawing, List.mem_cons, List.not_mem_nil, or_false] at hmem
    rcases hmem with rfl | rfl | rfl <;> exact hissued rfl

theorem tidy_of_run (hunique : TokensUnique s₀)
    (hrec : Recorded resetProg (Distinct s₀) (idle s₀) h p) : Tidy s₀ h p.db := by
  induction hrec with
  | refl => exact tidy_start hunique
  | @step h p p' a hrec hR hs ih =>
      have hsound := hrec.run.sound resetProg_sound
      cases taken_of_step hs with
      | spawn o => exact ih
      | env n => exact ⟨ih.drawn, ih.issued, ih.used, ih.rows, ih.unique⟩
      | turn hans =>
          rw [hans]
          exact ih
      | @commit i t k c ht hk => exact (hsound.conforms i t ht _ hk).2.1.elim
      | @callTx i t q k c x ht hk htx hx => exact absurd (hsound.conforms i t ht _ hk).1.1 htx
      | @call i t q k c x ht hk htx hx =>
          have hanswer := answering_exec ht hk (by rwa [Trace.view_of_none htx])
          have hguard := (hsound.conforms i t ht _ hk).1.2
          have hdistinct := hR _ hanswer
          rw [hanswer]
          show Tidy s₀ ((i, ⟨q, x⟩) :: h) (model.applyAll (writes q x) p.db)
          cases q with
          | randomBytes => exact ih.quiet (fun t' ht' => hdistinct t' ht') rfl rfl rfl
          | userUpdate userId data =>
              obtain ⟨email, user, resetToken, now, hdone, -, rfl⟩ := hguard
              obtain ⟨hmem, hpending⟩ := pending_of_drawing hrec ht hdone
              exact ih.issue hmem rfl hpending
          | userUpdateManyByResetToken d now data =>
              obtain ⟨token, newPassword, hashed, looked, candidate, -, rfl, rfl, -⟩ := hguard
              exact ih.use (Option.some.inj hx).symm
          | refreshSessionDeleteMany userId =>
              exact ih.quiet (by simp [Auth.drawn]) rfl rfl (applyAll_noSession ..).2.2
          | now => exact ih.quiet (by simp [Auth.drawn]) rfl rfl rfl
          | bcryptHash password => exact ih.quiet (by simp [Auth.drawn]) rfl rfl rfl
          | userFindUniqueByEmail email => exact ih.quiet (by simp [Auth.drawn]) rfl rfl rfl
          | userFindFirstByResetToken d now => exact ih.quiet (by simp [Auth.drawn]) rfl rfl rfl
          | sendRawEmail mail => exact ih.quiet (by simp [Auth.drawn]) rfl rfl rfl
          | _ => exact hguard.elim

/-! ## What a call that uses a token does -/

/-- The call at place `i` uses token `d`: it is the newest token of the one user who has it, it was not
    used before, and the clock, as the call has just read it, had not reached its expiry. What is
    written is the new password of that user, no token, and the next version of the sessions. -/
structure Uses (s₀ : World) (h : History interface) (p p' : ResetPlatform) (i : Nat) (d : Digest) :
    Prop where
  unused : ∀ x ∈ h, used x.2 ≠ some d
  user : ∃ t u expiry now token newPassword hashedPassword,
    p.threads[i]? = some t ∧ t.trace.op = .resetPassword token newPassword ∧ d = sha256Hex token ∧
    t.trace.done.getLast? = some ⟨.now, now⟩ ∧
    (⟨.bcryptHash newPassword, hashedPassword⟩ : Ev) ∈ t.trace.done ∧
    p.db.users.find? u.id = some u ∧ newest s₀ h u.id = some (d, expiry) ∧ now < expiry ∧
    p'.db = World.apply (.user u.id (consumption hashedPassword)) p.db

theorem of_used {e : Ev} (h : used e = some d) : ∃ now data ids,
    e = ⟨.userUpdateManyByResetToken d now data, ids⟩ ∧ List.isEmpty ids = false := by
  obtain ⟨q, ids⟩ := e
  cases q with
  | userUpdateManyByResetToken d' now data =>
      simp only [used] at h
      split at h
      · cases h
      · next hne =>
          obtain rfl := Option.some.inj h
          exact ⟨now, data, ids, rfl, by simpa using hne⟩
  | _ => cases h

theorem uses_of_step (hunique : TokensUnique s₀)
    (hrec : Recorded resetProg (Distinct s₀) (idle s₀) h p) (hs : p.step resetProg a = some p')
    {i : Nat} {e : Ev} (hanswer : p.answering a = some (i, e)) (hused : used e = some d) :
    Uses s₀ h p p' i d := by
  have htidy := tidy_of_run hunique hrec
  have hsound := hrec.run.sound resetProg_sound
  obtain ⟨c, t, k, rfl, ht, hk, hx⟩ := of_answering hanswer
  obtain ⟨htx, hguard⟩ := (hsound.conforms i t ht _ hk).1
  rw [Trace.view_of_none htx] at hx
  obtain ⟨now, data, ids, rfl, hids⟩ := of_used hused
  obtain ⟨token, newPassword, hashed, looked, candidate, hop, rfl, rfl, hdone⟩ := hguard
  obtain rfl : (p.db.resetting (sha256Hex token) now).map (·.id) = ids := Option.some.inj hx
  rcases resetting_cases htidy.unique (sha256Hex token) now with hnone | ⟨u, hu, hone, hd, hexpiry⟩
  · rw [hnone] at hids
    cases hids
  · obtain ⟨expiry, hexp, hlt⟩ := hexpiry
    obtain ⟨-, hunused, hnewest⟩ := htidy.rows u hu _ hd
    refine ⟨hunused, t, u, expiry, now, token, newPassword, hashed, ht, hop, rfl, ?_, ?_,
      Table.find?_key hu, hnewest expiry hexp, hlt, ?_⟩
    · rw [hdone]
      rfl
    · simp [hdone, redeeming]
    · rw [(step_of_answering hs hanswer ht htx).1]
      show model.applyAll (((p.db.resetting (sha256Hex token) now).map (·.id)).map
        (Write.user · (consumption hashed))) p.db = _
      rw [hone]
      rfl

/-- A step that uses no token changes no password. -/
theorem password_of_step {R : History interface → ResetPlatform → Step model ResetOp → Prop}
    (hrec : Recorded resetProg R (idle s₀) h p) (hs : p.step resetProg a = some p')
    (hnone : ∀ i e, p.answering a = some (i, e) → used e = none) {u' : User}
    (hu' : u' ∈ p'.db.users) : ∃ u ∈ p.db.users, u.id = u'.id ∧ u.password = u'.password := by
  have hsame : p'.db.users = p.db.users → ∃ u ∈ p.db.users, u.id = u'.id ∧
      u.password = u'.password := fun h => ⟨u', h ▸ hu', rfl, rfl⟩
  have hsound := hrec.run.sound resetProg_sound
  cases taken_of_step hs with
  | spawn o => exact hsame rfl
  | env n => exact hsame rfl
  | turn => exact hsame rfl
  | @commit i t k c ht hk => exact (hsound.conforms i t ht _ hk).2.1.elim
  | @callTx i t q k c x ht hk htx hx => exact absurd (hsound.conforms i t ht _ hk).1.1 htx
  | @call i t q k c x ht hk htx hx =>
      have hunused := hnone i _ (answering_exec ht hk (by rwa [Trace.view_of_none htx]))
      have hguard := (hsound.conforms i t ht _ hk).1.2
      cases q with
      | userUpdate userId data =>
          obtain ⟨email, user, resetToken, now, -, -, rfl⟩ := hguard
          obtain ⟨u, hu, rfl⟩ := mem_apply_user.1 hu'
          refine ⟨u, hu, ?_⟩
          split <;> exact ⟨rfl, rfl⟩
      | userUpdateManyByResetToken d now data =>
          cases x with
          | nil => exact hsame rfl
          | cons id ids => cases hunused
      | refreshSessionDeleteMany userId => exact hsame (applyAll_noSession ..).2.2
      | now => exact hsame rfl
      | randomBytes => exact hsame rfl
      | bcryptHash password => exact hsame rfl
      | userFindUniqueByEmail email => exact hsame rfl
      | userFindFirstByResetToken d now => exact hsame rfl
      | sendRawEmail mail => exact hsame rfl
      | _ => exact hguard.elim

/-- **Password-reset tokens are used once.** In every run: a step that uses a token does so as `Uses`
    says, and no other step changes a password. A `resetPassword` that has returned has used its token,
    and one that has failed, the database not having failed it, has written nothing. -/
theorem reset_tokens_single_use (hunique : TokensUnique s₀)
    (hrec : Recorded resetProg (Distinct s₀) (idle s₀) h p) :
    (∀ a p', p.step resetProg a = some p' →
      (∀ i e d, p.answering a = some (i, e) → used e = some d → Uses s₀ h p p' i d) ∧
      ((∀ i e, p.answering a = some (i, e) → used e = none) → ∀ u' ∈ p'.db.users,
        ∃ u ∈ p.db.users, u.id = u'.id ∧ u.password = u'.password)) ∧
    ∀ (i : Nat) (t : Thread interface ResetOp Err Unit), p.threads[i]? = some t →
      ∀ token newPassword, t.trace.op = .resetPassword token newPassword →
        (∀ reply, t.rest = some (.ret reply) → ∃ es userId ids, Completed token newPassword es ∧
          (t.trace.done = es ∨ t.trace.done = es ++ [⟨.refreshSessionDeleteMany userId, ids⟩])) ∧
        ∀ e, t.rest = some (.fail e) → (∀ f, e ≠ .database f) → WroteNothing t.trace.done := by
  refine ⟨fun a p' hs => ⟨fun i e d => uses_of_step hunique hrec hs, fun hnone u' =>
    password_of_step hrec hs hnone⟩, fun i t ht token newPassword hop => ?_⟩
  have hconforms := hrec.run.conforms resetProg_conforms i t ht
  constructor
  · intro reply hrest
    exact hconforms _ hrest token newPassword hop
  · intro e hrest hne
    rcases hconforms _ hrest token newPassword hop with hnothing | ⟨⟨f, hf⟩, -⟩
    · exact hnothing
    · exact absurd hf (hne f)

/-! ### On an account -/

/-- The student asks for a reset and is mailed `secret`; then a reset with it is about to write. -/
def aboutToReset : List (Step model ResetOp) :=
  [.spawn (.forgotPassword "jean@get.mg"), .exec 0 (.nat 0), .exec 0 (.text "secret"),
    .exec 0 (.nat 0), .exec 0 (.nat 0), .exec 0 (.nat 0),
    .spawn (.resetPassword "secret" "new"), .exec 1 (.text "hash2"), .exec 1 (.nat 0),
    .exec 1 (.nat 0), .exec 1 (.nat 0)]

def registered : World := { World.empty with users := .ofList [student] }

theorem tokensUnique_registered : TokensUnique registered := by
  intro u hu u' hu' d hd
  obtain rfl := List.mem_singleton.1 hu
  cases hd

/-- The token that a step uses. -/
def usesAt (p : ResetPlatform) (a : Step model ResetOp) : Option Digest :=
  (p.answering a).bind fun x => used x.2

/-- The reset changes the student's password. -/
theorem reset_tokens_single_use_secret :
    ∃ (h : History interface) (p p' : ResetPlatform),
      Recorded resetProg (Distinct registered) (idle registered) h p ∧
      p.step resetProg (.exec 1 (.nat 0)) = some p' ∧
      Uses registered h p p' 1 (sha256Hex "secret") := by
  have hplay : (playOn resetProg (Distinct registered) ([], (idle registered : ResetPlatform))
      aboutToReset).any (fun hp => (hp.2.step resetProg (.exec 1 (.nat 0))).isSome &&
        (hp.2.answering (.exec 1 (.nat 0))).any fun x =>
          x.1 = 1 ∧ used x.2 = some (sha256Hex "secret")) = true := by
    decide +kernel
  obtain ⟨⟨h, p⟩, hplay, hstep⟩ := (Option.any_eq_true ..).1 hplay
  simp only [Bool.and_eq_true] at hstep
  obtain ⟨hstep, hanswer⟩ := hstep
  obtain ⟨p', hp'⟩ := Option.isSome_iff_exists.1 hstep
  obtain ⟨⟨i, e⟩, hans, heq⟩ := (Option.any_eq_true ..).1 hanswer
  obtain ⟨rfl, hused⟩ := of_decide_eq_true heq
  have hstart : Recorded resetProg (Distinct registered) (idle registered : ResetPlatform) []
    (idle registered) := .refl
  have hrec := hstart.onward (Onward.of_playOn hplay)
  exact ⟨h, p, p', hrec, hp',
    ((reset_tokens_single_use tokensUnique_registered hrec).1 _ p' hp').1 1 e _ hans hused⟩

/-- Two hours pass between the clock reading and the update; and the removal of the sessions fails
    after the password was changed. -/
theorem not_reset_tokens_single_use :
    (¬ ∀ (s₀ : World) (h : History interface) (p p' : ResetPlatform) (a : Step model ResetOp)
        (d : Digest) (userId : Id) (expiry : Nat), TokensUnique s₀ →
      Recorded resetProg (Distinct s₀) (idle s₀) h p → p.step resetProg a = some p' →
        usesAt p a = some d → newest s₀ h userId = some (d, expiry) → p.db.clock < expiry) ∧
    ¬ ∀ (s₀ : World) (h : History interface) (p : ResetPlatform) (i : Nat)
        (t : Thread interface ResetOp Err Unit) (e : Err), TokensUnique s₀ →
      Recorded resetProg (Distinct s₀) (idle s₀) h p → p.threads[i]? = some t →
        t.rest = some (.fail e) → WroteNothing t.trace.done := by
  have hstart : Recorded resetProg (Distinct registered) (idle registered : ResetPlatform) []
    (idle registered) := .refl
  constructor
  · intro hall
    have hplay : (playOn resetProg (Distinct registered) ([], (idle registered : ResetPlatform))
        (aboutToReset ++ [.env 7200000])).any (fun hp =>
          (hp.2.step resetProg (.exec 1 (.nat 0))).isSome &&
            decide (usesAt hp.2 (.exec 1 (.nat 0)) = some (sha256Hex "secret")) &&
              decide (newest registered hp.1 1 = some (sha256Hex "secret", 3600000)) &&
                decide (hp.2.db.clock = 7200000)) = true := by
      decide +kernel
    obtain ⟨⟨h, p⟩, hplay, hstep⟩ := (Option.any_eq_true ..).1 hplay
    simp only [Bool.and_eq_true, decide_eq_true_eq] at hstep
    obtain ⟨⟨⟨hstep, hused⟩, hnewest⟩, hclock⟩ := hstep
    obtain ⟨p', hp'⟩ := Option.isSome_iff_exists.1 hstep
    have hlt := hall registered h p p' _ _ 1 3600000 tokensUnique_registered
      (hstart.onward (Onward.of_playOn hplay)) hp' hused hnewest
    omega
  · intro hall
    have hplay : (playOn resetProg (Distinct registered) ([], (idle registered : ResetPlatform))
        (aboutToReset ++ [.exec 1 (.nat 0), .fault 1 .unavailable])).any (fun hp =>
          (hp.2.threads[1]?).any fun t => t.failed && t.trace.done.any fun e => (used e).isSome) =
            true := by
      decide +kernel
    obtain ⟨⟨h, p⟩, hplay, hend⟩ := (Option.any_eq_true ..).1 hplay
    obtain ⟨t, ht, hend⟩ := (Option.any_eq_true ..).1 hend
    simp only [Bool.and_eq_true] at hend
    obtain ⟨hfailed, hused⟩ := hend
    obtain ⟨e, hrest⟩ := Thread.failed_iff.1 hfailed
    obtain ⟨x, hx, hd⟩ := List.any_eq_true.1 hused
    obtain ⟨d, hd⟩ := Option.isSome_iff_exists.1 hd
    obtain ⟨now, data, ids, rfl, hids⟩ := of_used hd
    have hnothing := hall registered h p 1 t e tokensUnique_registered
      (hstart.onward (Onward.of_playOn hplay)) ht hrest _ hx
    obtain rfl : ids = [] := List.map_eq_nil_iff.1 hnothing
    cases hids

end GetPlatform.Auth
