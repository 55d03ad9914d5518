import GetPlatform.Auth.Kinds
import GetPlatform.Store.Record

set_option autoImplicit false

/-! # Where a refresh token comes from

A call signs one refresh token at most, for the user it has read and under the `jti` it has drawn; and
a `jti` that was exchanged was presented. So a refresh token is told by its `jti`, and one that nobody
has presented is still to be exchanged. -/

namespace GetPlatform.Auth

open Pool Prog

/-! ## The calls that open and close sessions -/

def Op.ofSessions : Op → Bool
  | .login _ => true
  | .completeMfaLogin .. => true
  | .refreshTokens _ => true
  | .revokeSession _ => true
  | .resetPassword .. => true
  | .studentChangePassword .. => true
  | .teacherChangePassword .. => true
  | _ => false

/-- The user a statement signs a refresh token for. -/
def signsFor : Stmt → Option Id
  | .jwtSign payload _ .JWT_REFRESH_SECRET => some payload.sub
  | _ => none

def Unsigned (q : Stmt) : Prop := signsFor q = none

/-- A refresh token is signed once, for a user who was read with a role. -/
def issueGuards : Guards interface Op where
  stmt l q := l.op.ofSessions = true → ∀ id, signsFor q = some id →
    (∀ e ∈ l.done, Unsigned e.stmt) ∧ ∃ u, Knows l.done u ∧ u.id = id ∧ u.role.isSome = true
  commit _ := True

section Conformance

variable {α : Type} {o : Op} {d : List Ev} {Q : Log → α → Prop}

@[simp] theorem issue_send {q : Stmt} {Q : Log → Ans q → Prop} {E : Log → Err → Prop} {l : Log} :
    @Conforms interface model Err (no_index (Ans q)) Op issueGuards (send q) Q E l ↔
      issueGuards.stmt l q ∧ (∀ f, E l (.database f)) ∧
        ∀ a, model.Possible q a → Q (l.push ⟨q, a⟩) a := Iff.rfl

theorem guard_of_unsigned {q : Stmt} {l : Log} (hq : signsFor q = none) : issueGuards.stmt l q := by
  intro _ id hid
  rw [hq] at hid
  cases hid

theorem Plain.unsigned {q : Stmt} (hq : Plain q) : Unsigned q := by
  cases q <;> first | rfl | exact hq.elim

theorem unsigned_append {d' : List Ev} (hd : ∀ e ∈ d, Unsigned e.stmt)
    (hd' : ∀ e ∈ d', Unsigned e.stmt) : ∀ e ∈ d ++ d', Unsigned e.stmt := by
  intro e he
  rcases List.mem_append.1 he with he | he
  · exact hd e he
  · exact hd' e he

theorem conforms_unsigned {p : Call α} (hp : p.Only Plain)
    (hQ : ∀ d' a, (∀ e ∈ d', Unsigned e.stmt) → Q ⟨o, d ++ d', none⟩ a) :
    p.Conforms model issueGuards Q (fun _ _ => True) ⟨o, d, none⟩ :=
  (hp.mono fun _ hq => Plain.unsigned hq).conforms_outside (fun _ _ _ hq => guard_of_unsigned hq)
    (fun d' hd' a => hQ d' a hd') fun _ _ _ => trivial

theorem tokensFor_issues {user : User} {jti : Id} {rememberMe : Bool}
    (hd : ∀ e ∈ d, Unsigned e.stmt) (hknow : Knows d user) :
    (tokensFor user jti rememberMe).Conforms model issueGuards (fun _ _ => True) (fun _ _ => True)
      ⟨o, d, none⟩ := by
  unfold tokensFor
  split
  · trivial
  · next role hrole =>
      simp only [generateTokens, bind_eq, pure_eq, conforms_handle, issue_send, conforms_fail,
        conforms_ret, Trace.push_outside, implies_true, true_and, and_true]
      refine ⟨guard_of_unsigned rfl, fun access _ => ?_⟩
      intro _ id hid
      obtain rfl := Option.some.inj hid
      refine ⟨unsigned_append hd ?_, user, hknow.append _, rfl, by simp [hrole]⟩
      simp [Unsigned, signsFor]

theorem issueTokens_issues {user : User} {rememberMe : Bool} (hd : ∀ e ∈ d, Unsigned e.stmt)
    (hknow : Knows d user) :
    (issueTokens user rememberMe).Conforms model issueGuards (fun _ _ => True) (fun _ _ => True)
      ⟨o, d, none⟩ := by
  simp only [issueTokens, bind_eq, conforms_handle, issue_send, conforms_fail, Trace.push_outside,
    List.append_assoc, implies_true, true_and]
  refine ⟨guard_of_unsigned rfl, fun jti _ => ⟨guard_of_unsigned rfl, fun row _ => ?_⟩⟩
  exact tokensFor_issues (unsigned_append hd (by simp [Unsigned, signsFor])) (hknow.append _)

theorem openSession_issues {user : User} {rememberMe : Bool} (hd : ∀ e ∈ d, Unsigned e.stmt)
    (hknow : Knows d user) :
    (openSession user rememberMe).Conforms model issueGuards (fun _ _ => True) (fun _ _ => True)
      ⟨o, d, none⟩ := by
  simp only [openSession, bind_eq, pure_eq, conforms_handle, issue_send, conforms_fail, conforms_ret,
    Trace.push_outside, List.append_assoc, implies_true, true_and]
  refine ⟨guard_of_unsigned rfl, fun now _ => ⟨guard_of_unsigned rfl, fun row _ => ?_⟩⟩
  exact issueTokens_issues (unsigned_append hd (by simp [Unsigned, signsFor])) (hknow.append _)

theorem login_issues (dto : LoginDto) :
    (login dto).Conforms model issueGuards (fun _ _ => True) (fun _ _ => True)
      (.start (.login dto)) := by
  simp only [login, bind_eq, pure_eq, throw_eq, conforms_handle, issue_send, conforms_fail,
    Trace.start_eq, Trace.push_outside, List.nil_append, implies_true, true_and]
  refine ⟨guard_of_unsigned rfl, fun found _ => ?_⟩
  cases found with
  | none => exact conforms_unsigned (only_rejectUnknown dto) fun _ _ _ => trivial
  | some user =>
      have hknow : ∀ d', Knows (⟨.userFindUniqueByEmail dto.email, some user⟩ :: d') user :=
        fun d' => ⟨_, List.mem_cons_self, rfl⟩
      simp only [conforms_handle]
      refine conforms_unsigned (only_checkLoginAttempts _) fun d₁ _ hd₁ => ?_
      simp only [conforms_handle, issue_send, conforms_fail, conforms_ite, Trace.push_outside,
        List.append_assoc, implies_true, true_and]
      refine ⟨guard_of_unsigned rfl, fun valid _ => ⟨fun _ =>
        conforms_unsigned (only_incrementLoginAttempts _) fun _ _ _ => trivial, fun _ => ?_⟩⟩
      refine conforms_unsigned (only_resetLoginAttempts _) fun d₂ _ hd₂ => ?_
      simp only [conforms_ret, List.append_assoc, List.cons_append, List.nil_append, implies_true,
        and_true]
      refine ⟨fun _ => guard_of_unsigned rfl, fun _ => openSession_issues ?_ (hknow _)⟩
      intro e he
      simp only [List.mem_cons, List.mem_append] at he
      rcases he with rfl | he | rfl | he
      · rfl
      · exact hd₁ e he
      · rfl
      · exact hd₂ e he

theorem completeMfaLogin_issues (token : Token) (code : String) :
    (completeMfaLogin token code).Conforms model issueGuards (fun _ _ => True) (fun _ _ => True)
      (.start (.completeMfaLogin token code)) := by
  simp only [completeMfaLogin, bind_eq, throw_eq, conforms_handle, Trace.start_eq]
  refine conforms_unsigned (plain_of_routine (only_verify ..)) fun d₀ payload hd₀ => ?_
  cases payload with
  | none => trivial
  | some payload =>
      simp only [conforms_ite, conforms_fail, conforms_handle, issue_send, Trace.push_outside,
        implies_true, true_and, List.nil_append]
      refine fun _ => ⟨guard_of_unsigned rfl, fun found _ => ?_⟩
      cases found with
      | none => trivial
      | some user =>
          simp only [conforms_ite, conforms_fail, conforms_handle, implies_true, true_and]
          refine fun _ => conforms_unsigned (plain_of_routine (only_verifyCode ..)) fun d₁ _ hd₁ =>
            fun _ => openSession_issues ?_ ?_
          · exact unsigned_append (unsigned_append hd₀ (by simp [Unsigned, signsFor])) hd₁
          · exact Knows.append ⟨⟨.userFindUnique payload.sub, some user⟩, by simp, rfl⟩ _

theorem revokeSession_issues {userId : Id} :
    (revokeSession userId).Conforms model issueGuards (fun _ _ => True) (fun _ _ => True)
      ⟨o, d, none⟩ := by
  simp only [revokeSession, transaction, bind_eq, pure_eq, conforms_transaction, conforms_handle,
    issue_send, conforms_fail, conforms_ret, Trace.openTx_mk, Trace.push_inside, implies_true,
    true_and, and_true]
  exact ⟨guard_of_unsigned rfl, fun row _ => ⟨guard_of_unsigned rfl, fun ids _ => ⟨by simp, trivial⟩⟩⟩

theorem refreshTokens_issues (token : Token) :
    (refreshTokens token).Conforms model issueGuards (fun _ _ => True) (fun _ _ => True)
      (.start (.refreshTokens token)) := by
  simp only [refreshTokens, bind_eq, throw_eq, conforms_handle, Trace.start_eq]
  refine conforms_unsigned (plain_of_routine (only_verify ..)) fun d₀ payload hd₀ => ?_
  cases payload with
  | none => trivial
  | some payload =>
      simp only [conforms_ite, conforms_fail, conforms_handle, issue_send, Trace.push_outside,
        implies_true, true_and, List.nil_append]
      refine fun _ => ⟨guard_of_unsigned rfl, fun found _ => ?_⟩
      cases found with
      | none => trivial
      | some user =>
          simp only [rotate, bind_eq, pure_eq, throw_eq, conforms_ite, conforms_fail, conforms_handle,
            conforms_ret, issue_send, Trace.push_outside, List.append_assoc, implies_true, true_and]
          refine fun _ _ => ⟨guard_of_unsigned rfl, fun newJti _ => ⟨guard_of_unsigned rfl,
            fun ids _ => ⟨fun _ => revokeSession_issues, fun _ => tokensFor_issues ?_ ?_⟩⟩⟩
          · exact unsigned_append hd₀ (by simp [Unsigned, signsFor])
          · exact ⟨⟨.userFindUnique payload.sub, some user⟩, by simp, rfl⟩

theorem resetPassword_issues (token newPassword : String) :
    (resetPassword token newPassword).Conforms model issueGuards (fun _ _ => True) (fun _ _ => True)
      (.start (.resetPassword token newPassword)) := by
  simp only [resetPassword, bind_eq, pure_eq, throw_eq, conforms_handle, issue_send, conforms_fail,
    conforms_ite, handle_fail, implies_true, true_and]
  refine ⟨guard_of_unsigned rfl, fun _ _ => ⟨guard_of_unsigned rfl, fun _ _ => ⟨guard_of_unsigned rfl,
    fun candidate _ => ⟨guard_of_unsigned rfl, fun _ _ => ⟨guard_of_unsigned rfl, fun _ _ _ => ?_⟩⟩⟩⟩⟩
  cases candidate with
  | none => trivial
  | some user =>
      simp only [conforms_handle, issue_send, conforms_fail, conforms_ret, implies_true, and_true]
      exact guard_of_unsigned rfl

/-- **The calls of the sessions sign one refresh token at most.** -/
theorem prog_issues (o : Op) :
    (prog o).Conforms model issueGuards (fun _ _ => True) (fun _ _ => True) (.start o) := by
  have hmap : ∀ {α : Type} {p : Call α} (f : α → Reply),
      p.Conforms model issueGuards (fun _ _ => True) (fun _ _ => True) (.start o) →
        (f <$> p).Conforms model issueGuards (fun _ _ => True) (fun _ _ => True) (.start o) :=
    fun f hp => (conforms_handle ..).2 hp
  cases o with
  | login dto => exact hmap _ (login_issues dto)
  | completeMfaLogin token code => exact hmap _ (completeMfaLogin_issues token code)
  | refreshTokens token => exact hmap _ (refreshTokens_issues token)
  | revokeSession userId => exact hmap _ revokeSession_issues
  | resetPassword token newPassword => exact hmap _ (resetPassword_issues token newPassword)
  | studentChangePassword userId currentPassword newPassword =>
      exact hmap _ (conforms_unsigned (plain_of_routine (only_changePassword ..)) fun _ _ _ => trivial)
  | teacherChangePassword userId currentPassword newPassword =>
      exact hmap _ (conforms_unsigned (plain_of_routine (only_changePassword ..)) fun _ _ _ => trivial)
  | _ =>
      refine (prog_sound _).retarget (sends_any _) (fun l hl q _ hsession => ?_) fun _ _ => trivial
      rw [hl] at hsession
      cases hsession

end Conformance

/-! ## What stands behind a token and an exchange -/

section Runs

variable {R : Platform → Step model Op → Prop} {s₀ : World} {p p' : Platform}

theorem minted_grows (hrun : Run prog R p p') : p.db.minted ⊆ p'.db.minted :=
  hrun.grows (r := fun s s' => s.minted ⊆ s'.minted) (fun _ => List.Subset.refl _)
    (fun _ _ _ => List.Subset.trans)
    (fun w s => by cases w <;> first | exact List.Subset.refl _ | exact List.subset_cons_self _ _)
    fun _ _ => List.Subset.refl _

theorem drawn_grows (hrun : Run prog R p p') : p.db.drawn ⊆ p'.db.drawn :=
  hrun.grows (r := fun s s' => s.drawn ⊆ s'.drawn) (fun _ => List.Subset.refl _)
    (fun _ _ _ => List.Subset.trans)
    (fun w s => by cases w <;> first | exact List.Subset.refl _ | exact List.subset_cons_self _ _)
    fun _ _ => List.Subset.refl _

/-- The event that signed the token. -/
def Signs (token : Token) (e : Ev) : Prop :=
  ∃ payload expiresIn secret, e = ⟨.jwtSign payload expiresIn secret, token⟩

theorem signer_of_minted (hrun : Run prog R p p') {token : Token} (h : token ∈ p'.db.minted) :
    token ∈ p.db.minted ∨ ∃ (i : Nat) (t : Thread interface Op Err Reply) (e : Ev),
      p'.threads[i]? = some t ∧ e ∈ t.trace.done ∧ Signs token e :=
  hrun.made (K := fun s : World => token ∈ s.minted) (fun _ _ h => mem_minted_applyAll h) (fun _ _ h => h) h

theorem mem_rotated_applyAll {q : Stmt} {a : Ans q} {s : World} {j : Id}
    (h : j ∈ (model.applyAll (writes q a) s).rotated) :
    j ∈ s.rotated ∨ exchanged ⟨q, a⟩ = some j := by
  cases q with
  | refreshSessionUpdateMany userId jti newJti =>
      cases jti with
      | none => exact .inl h
      | some jti =>
          simp only [writes] at h
          split at h
          · exact .inl h
          · next hne =>
              rw [Model.applyAll_cons, (applyAll_session a newJti _).2] at h
              rcases List.mem_cons.1 h with rfl | h
              · exact .inr (by simp [exchanged, hne])
              · exact .inl h
  | refreshSessionCreate userId jti => exact .inl h
  | refreshSessionDeleteMany userId =>
      simp only [writes] at h
      rw [(applyAll_noSession a userId s).2.1] at h
      exact .inl h
  | userUpdateManyByResetToken resetTokenHash now data =>
      refine .inl ((applyAll_aside (fun w hw => ?_) s).2 ▸ h)
      obtain ⟨id, -, rfl⟩ := List.mem_map.1 hw
      rfl
  | _ => exact .inl ((@applyAll_aside (writes _ a) (by simp [writes, Write.aside]) s).2 ▸ h)

theorem minted_of_verified (hrun : Run prog R (idle s₀) p) {i : Nat}
    {t : Thread interface Op Err Reply} (ht : p.threads[i]? = some t) {token : Token} {kind : Kind}
    (h : Verified t.trace.done token kind) : token ∈ p.db.minted ∧ token.secret = kind.secret := by
  rcases hrun.answered ht (Trace.mem_events.2 (.inl h)) with
    ⟨t₀, ht₀, -⟩ | ⟨q, tq, hq, hq', htq, hnext, c, hexec⟩
  · simp [idle] at ht₀
  · have hguard : stmtGuard tq.trace (.jwtVerify token kind.secret false) :=
      (hq.sound prog_sound).guard htq hnext
    rw [Trace.view_of_none hguard] at hexec
    have hexec := Option.some.inj hexec
    split at hexec
    · next hverifies =>
        obtain ⟨hminted, hsecret, -⟩ := of_decide_eq_true hverifies
        exact ⟨minted_grows hq' hminted, hsecret⟩
    · cases hexec

/-- Whoever exchanged a `jti` was presented with a refresh token that carries it. -/
theorem presented_of_rotated (hrun : Run prog R (idle s₀) p) {j : Id} (h : j ∈ p.db.rotated) :
    j ∈ s₀.rotated ∨ ∃ (t : Thread interface Op Err Reply) (token : Token), t ∈ p.threads ∧
      t.trace.op = .refreshTokens token ∧ token.payload.jti = some j ∧ Exchanges t.trace.done j ∧
        token ∈ p.db.minted ∧ token.secret = .JWT_REFRESH_SECRET := by
  refine (hrun.made (K := fun s : World => j ∈ s.rotated) (fun _ _ h => mem_rotated_applyAll h)
    (fun _ _ h => h) h).imp_right ?_
  rintro ⟨i, t, e, ht, he, hex⟩
  have hspent : Exchanges t.trace.done j := ⟨e, he, hex⟩
  obtain ⟨l, hop, hpre, hguard, -⟩ := hrun.guarded prog_sound ht (Trace.mem_events.2 (.inl he))
  obtain ⟨userId, jti, newJti, hq⟩ := updateMany_of_exchanged hex
  obtain ⟨q, a⟩ := e
  obtain rfl : q = _ := hq
  obtain ⟨-, -, -, token, u, htoken, hverified, -, -, hjti⟩ := hguard
  obtain ⟨hminted, hsecret⟩ := minted_of_verified hrun ht (hpre.subset hverified)
  refine ⟨t, token, List.mem_of_getElem? ht, hop.symm.trans htoken, ?_, hspent, hminted, hsecret⟩
  rw [hjti]
  simp only [exchanged] at hex
  split at hex
  · cases hex
  · exact hex

/-- A `jti` that a call has put in a chain was drawn by it. -/
theorem drawn_of_opens (hrun : Run prog R (idle s₀) p) {i : Nat}
    {t : Thread interface Op Err Reply} (ht : p.threads[i]? = some t) {userId j : Id}
    (h : Opens t.trace.done userId j) : (⟨.randomUUID, j⟩ : Ev) ∈ t.trace.done := by
  obtain ⟨⟨q, a⟩, he, hopened⟩ := h
  obtain ⟨l, -, hpre, hguard, -⟩ := hrun.guarded prog_sound ht (Trace.mem_events.2 (.inl he))
  cases q with
  | refreshSessionCreate userId' jti =>
      obtain ⟨-, rfl⟩ := Prod.mk.inj (Option.some.inj hopened)
      exact hpre.subset hguard.2.1
  | refreshSessionUpdateMany userId' jti newJti =>
      simp only [opened] at hopened
      split at hopened
      · cases hopened
      · obtain ⟨-, rfl⟩ := Prod.mk.inj (Option.some.inj hopened)
        exact hpre.subset hguard.2.1
  | _ => cases hopened

/-- What a call has done before it signed a refresh token. -/
structure SignedFor (d : List Ev) (token : Token) (u : User) (jti : Id) : Prop where
  knows : Knows d u
  opens : Opens d u.id jti
  sub : token.payload.sub = u.id
  version : token.payload.sessionVersion = some u.sessionVersion
  jti : token.payload.jti = some jti

theorem signedFor_of_signs (hrun : Run prog R (idle s₀) p) {i : Nat}
    {t : Thread interface Op Err Reply} (ht : p.threads[i]? = some t) {token : Token} {e : Ev}
    (he : e ∈ t.trace.done) (hsigns : Signs token e) (hsecret : token.secret = .JWT_REFRESH_SECRET) :
    ∃ u jti, SignedFor t.trace.done token u jti := by
  obtain ⟨payload, expiresIn, secret, rfl⟩ := hsigns
  obtain ⟨l, -, hpre, hguard, hpossible⟩ :=
    hrun.guarded prog_sound ht (Trace.mem_events.2 (.inl he))
  obtain ⟨hpayload, hsame⟩ := payload_of_sign hpossible
  obtain ⟨-, kind, hkind, -, hrefresh⟩ := hguard
  have hkind : kind = .refresh := by
    have hsame : kind.secret = .JWT_REFRESH_SECRET := hkind.trans (hsame.symm.trans hsecret)
    cases kind <;> first | rfl | cases hsame
  obtain ⟨u, jti, ⟨e, he, hu⟩, ⟨e', he', hj⟩, hclaims⟩ := hrefresh hkind
  rw [← hpayload] at hclaims
  obtain ⟨hsub, hversion, hjti⟩ := hclaims
  exact ⟨u, jti, ⟨e, hpre.subset he, hu⟩, ⟨e', hpre.subset he', hj⟩, hsub, hversion, hjti⟩

/-! ## What a call knows of a user -/

/-- The user is still there, with the same role, and in the same version or a later one. -/
def Still (s : World) (u : User) : Prop :=
  ∃ u', s.users.find? u.id = some u' ∧ u.sessionVersion ≤ u'.sessionVersion ∧ u'.role = u.role

theorem still_of_find {s : World} {id : Id} {u : User} (h : s.users.find? id = some u) : Still s u := by
  have hid : u.id = id := Table.key_of_find? h
  exact ⟨u, hid ▸ h, Nat.le_refl _, rfl⟩

theorem Still.apply {s : World} {u : User} (h : Still s u) (w : Write) : Still (World.apply w s) u := by
  obtain ⟨u', hu', hle, hrole⟩ := h
  cases w with
  | user k data =>
      by_cases hid : u.id = k
      · refine ⟨data.set u', ?_, Nat.le_trans hle (data.version_le_set u'), hrole⟩
        rw [← hid]
        simp [World.apply, hu']
      · exact ⟨u', by simp [World.apply, Table.find?_modify, hid, hu'], hle, hrole⟩
  | newUser row => exact ⟨u', Table.find?_insert_of_find? hu', hle, hrole⟩
  | _ => exact ⟨u', hu', hle, hrole⟩

theorem Still.apply_all {s : World} {u : User} (h : Still s u) (ws : List Write) :
    Still (model.applyAll ws s) u :=
  @Model.applyAll_keeps _ model (fun s => Still s u) ws (fun w _ _ h => h.apply w) s h

theorem Still.run {u : User} (h : Still p.db u) (hrun : Run prog R p p') : Still p'.db u := by
  refine hrun.grows (r := fun s s' : World => Still s u → Still s' u) (fun _ h => h) ?_
    (fun w _ h => h.apply w) (fun _ _ h => h) h
  intro s s' s'' h h' hs
  exact h' (h hs)

/-- The commit guard leaves nothing on the record that reads a user or signs a token. -/
theorem revocation_only {l : Log} (h : commitGuard l) {e : Ev} (he : e ∈ l.pending) :
    known e = none ∧ opened e = none ∧ Unsigned e.stmt := by
  obtain ⟨userId, row, ids, hpending⟩ := h
  rw [hpending] at he
  simp only [List.mem_cons, List.not_mem_nil, or_false] at he
  rcases he with rfl | rfl <;> exact ⟨rfl, rfl, rfl⟩

theorem still_of_known {s : World} {q : Stmt} {c : Choice} {a : Ans q} {u : User}
    (hexec : exec q c s = some a) (hknown : known ⟨q, a⟩ = some u) :
    Still (model.applyAll (writes q a) s) u := by
  cases q with
  | userFindUnique id =>
      obtain rfl : a = some u := hknown
      exact still_of_find (Option.some.inj hexec)
  | userFindUniqueByEmail email =>
      obtain rfl : a = some u := hknown
      have hmem : u ∈ s.users := List.mem_of_find?_eq_some (Option.some.inj hexec)
      exact still_of_find (Table.find?_key hmem)
  | userCreate data =>
      obtain rfl := Option.some.inj hknown
      cases c <;> simp only [exec, reduceCtorEq] at hexec
      split at hexec
      · cases hexec
      · next hfree =>
          obtain rfl := Option.some.inj hexec
          refine still_of_find (Table.find?_key ((Table.mem_insert ?_).2 (.inr rfl)))
          refine Bool.eq_false_iff.2 fun htaken => hfree (.inr ?_)
          obtain ⟨v, hv, hid⟩ := List.mem_map.1 (Table.contains_iff.1 htaken)
          exact List.any_eq_true.2 ⟨v, hv, by simpa using .inl hid⟩
  | _ => cases hknown

/-- What a call knows of a user is out of date at worst. -/
theorem still_of_knows (hrun : Run prog R (idle s₀) p) {i : Nat}
    {t : Thread interface Op Err Reply} (ht : p.threads[i]? = some t) {u : User}
    (h : Knows t.trace.done u) : Still p.db u := by
  obtain ⟨e, he, hknown⟩ := h
  induction hrun generalizing t with
  | refl => simp [idle] at ht
  | @step p p' a hrun hR hs ih =>
      by_cases hold : ∃ t₀, p.threads[i]? = some t₀ ∧ e ∈ t₀.trace.done
      · obtain ⟨t₀, ht₀, he₀⟩ := hold
        exact (ih ht₀ he₀).run (.step .refl hR hs)
      · obtain ⟨t₀, ht₀, ⟨htx, ⟨-, c, hexec⟩, hdb⟩ | ⟨k, hk, he₀, -⟩⟩ :=
          (moves_of_step hs).stands ht he fun t₀ ht₀ he₀ => hold ⟨t₀, ht₀, he₀⟩
        · rw [Trace.view_of_none htx] at hexec
          rw [hdb]
          exact still_of_known hexec hknown
        · have hguard := ((hrun.sound prog_sound).conforms i t₀ ht₀ _ hk).2.1
          rw [(revocation_only hguard he₀).1] at hknown
          cases hknown

/-! ## Refresh tokens are told by their `jti` -/

/-- The token is a refresh token that was signed. -/
def Refreshing (s : World) (token : Token) : Prop :=
  token ∈ s.minted ∧ token.secret = .JWT_REFRESH_SECRET

/-- The refresh tokens that were signed carry a `jti` of their own, and name a user with a role. -/
structure Issued (s : World) : Prop where
  kinds : KindsOnly s
  drawn : ∀ token, Refreshing s token → ∀ j, token.payload.jti = some j → j ∈ s.drawn
  unique : ∀ token token', Refreshing s token → Refreshing s token' →
    token.payload.jti = token'.payload.jti → token = token'
  role : ∀ token, Refreshing s token → ∃ u, u.id = token.payload.sub ∧ Still s u ∧
    u.role.isSome = true

/-- A call signs one refresh token at most. -/
theorem signed_once (hR : ∀ p o, R p (.spawn o) → o.ofSessions = true)
    (hrun : Run prog R (idle s₀) p) {i : Nat} {t : Thread interface Op Err Reply}
    (ht : p.threads[i]? = some t) {e e' : Ev} (he : e ∈ t.trace.done) (he' : e' ∈ t.trace.done)
    (hsigns : ¬ Unsigned e.stmt) (hsigns' : ¬ Unsigned e'.stmt) : e = e' := by
  induction hrun generalizing t with
  | refl => simp [idle] at ht
  | @step p p' a hrun hstep hs ih =>
      obtain ⟨t₀, ht₀, -, -⟩ := (taken_of_step hs).done ht he
      rcases (taken_of_step hs).grows ht₀ ht with hd | ⟨c, q, k, x, -, -, hk, -, hd⟩ | ⟨k, hk, hd⟩
      · rw [hd] at he he'
        exact ih ht₀ he he'
      · have hguard : issueGuards.stmt t₀.trace q :=
          ((hrun.sound prog_issues).conforms i t₀ ht₀ _ hk).1
        have hfirst : ¬ Unsigned q → ∀ e ∈ t₀.trace.done, Unsigned e.stmt := fun hq => by
          obtain ⟨id, hid⟩ := Option.ne_none_iff_exists'.1 hq
          exact (hguard (hrun.ops hR ht₀) id hid).1
        rw [hd, List.mem_append, List.mem_singleton] at he he'
        rcases he with he | rfl
        · rcases he' with he' | rfl
          · exact ih ht₀ he he'
          · exact absurd (hfirst hsigns' e he) hsigns
        · rcases he' with he' | rfl
          · exact absurd (hfirst hsigns e' he') hsigns'
          · rfl
      · have hguard := ((hrun.sound prog_sound).conforms i t₀ ht₀ _ hk).2.1
        rw [hd, List.mem_append] at he he'
        rcases he with he | he
        · rcases he' with he' | he'
          · exact ih ht₀ he he'
          · exact absurd (revocation_only hguard he').2.2 hsigns'
        · exact absurd (revocation_only hguard he).2.2 hsigns

/-- Where a refresh token comes from: it was there at the start, or a call has signed it. -/
theorem origin_of_refreshing (hrun : Run prog R (idle s₀) p) {token : Token}
    (h : Refreshing p.db token) : Refreshing s₀ token ∨
      ∃ (i : Nat) (t : Thread interface Op Err Reply) (e : Ev) (u : User) (jti : Id),
        p.threads[i]? = some t ∧ e ∈ t.trace.done ∧ Signs token e ∧ ¬ Unsigned e.stmt ∧
          SignedFor t.trace.done token u jti := by
  obtain ⟨hminted, hsecret⟩ := h
  rcases signer_of_minted hrun hminted with hold | ⟨i, t, e, ht, he, hsigns⟩
  · exact .inl ⟨hold, hsecret⟩
  · obtain ⟨u, jti, hfor⟩ := signedFor_of_signs hrun ht he hsigns hsecret
    refine .inr ⟨i, t, e, u, jti, ht, he, hsigns, ?_, hfor⟩
    obtain ⟨payload, expiresIn, secret, rfl⟩ := hsigns
    obtain ⟨-, -, -, -, hpossible⟩ := hrun.guarded prog_sound ht (Trace.mem_events.2 (.inl he))
    obtain rfl := (payload_of_sign hpossible).2.symm.trans hsecret
    simp [Unsigned, signsFor]

/-- A `jti` that a call has drawn was not drawn before the run. -/
theorem not_drawn_before (hrun : Run prog R (idle s₀) p) {i : Nat}
    {t : Thread interface Op Err Reply} (ht : p.threads[i]? = some t) {j : Id}
    (h : (⟨.randomUUID, j⟩ : Ev) ∈ t.trace.done) : j ∉ s₀.drawn := by
  rcases hrun.answered ht (Trace.mem_events.2 (.inl h)) with
    ⟨t₀, ht₀, -⟩ | ⟨q, tq, hq, -, htq, hnext, c, hexec⟩
  · simp [idle] at ht₀
  · have hguard : tq.trace.tx = none := ((hq.sound prog_sound).guard htq hnext)
    rw [Trace.view_of_none hguard] at hexec
    exact fun hin => not_drawn_of_draw hexec (drawn_grows hq hin)

/-- **A refresh token is told by its `jti`**, in every run of the calls of sessions. -/
theorem issued_of_run (hs₀ : Issued s₀) (hc : Chains s₀)
    (hR : ∀ p o, R p (.spawn o) → o.ofSessions = true) (hrun : Run prog R (idle s₀) p) :
    Issued p.db := by
  have hany := hrun.mono fun _ _ _ => (trivial : True)
  have hholds := (rotation_holds hc hany).2
  refine ⟨kindsOnly hs₀.kinds hany, fun token htoken j hj => ?_,
    fun token token' htoken htoken' hsame => ?_, fun token htoken => ?_⟩
  · rcases origin_of_refreshing hrun htoken with hold | ⟨i, t, e, u, jti, ht, he, -, -, hfor⟩
    · exact drawn_grows hrun (hs₀.drawn token hold j hj)
    · obtain rfl := Option.some.inj (hfor.jti.symm.trans hj)
      exact ((hholds.thread i t ht).drawn jti (drawn_of_opens hrun ht hfor.opens)).1
  · rcases origin_of_refreshing hrun htoken with hold | ⟨i, t, e, u, jti, ht, he, hsigns, hne, hfor⟩ <;>
      rcases origin_of_refreshing hrun htoken' with
        hold' | ⟨i', t', e', u', jti', ht', he', hsigns', hne', hfor'⟩
    · exact hs₀.unique token token' hold hold' hsame
    · exact absurd (hs₀.drawn token hold _ (hsame.trans hfor'.jti))
        (not_drawn_before hrun ht' (drawn_of_opens hrun ht' hfor'.opens))
    · exact absurd (hs₀.drawn token' hold' _ (hsame.symm.trans hfor.jti))
        (not_drawn_before hrun ht (drawn_of_opens hrun ht hfor.opens))
    · -- Both were signed under the `jti` that one call has drawn, and it signs one.
      obtain rfl : jti = jti' := Option.some.inj (hfor.jti.symm.trans (hsame.trans hfor'.jti))
      have hdrawn := drawn_of_opens hrun ht hfor.opens
      have hdrawn' := drawn_of_opens hrun ht' hfor'.opens
      obtain rfl : i = i' := by
        refine Decidable.by_contra fun hne => ?_
        exact (hholds.pair i i' t t' hne ht ht').drawn jti hdrawn hdrawn'
      obtain rfl := Option.some.inj (ht.symm.trans ht')
      have heq := signed_once hR hrun ht he he' hne hne'
      obtain ⟨payload, expiresIn, secret, rfl⟩ := hsigns
      obtain ⟨payload', expiresIn', secret', rfl⟩ := hsigns'
      simp only [Event.mk.injEq, Stmt.jwtSign.injEq] at heq
      exact eq_of_heq heq.2
  · rcases origin_of_refreshing hrun htoken with hold | ⟨i, t, e, u, jti, ht, he, hsigns, hne, hfor⟩
    · obtain ⟨u, hid, hstill, hrole⟩ := hs₀.role token hold
      exact ⟨u, hid, Still.run (p := idle s₀) hstill hrun, hrole⟩
    · obtain ⟨payload, expiresIn, secret, rfl⟩ := hsigns
      obtain ⟨l, hop, hpre, hguard, hpossible⟩ :=
        hrun.guarded prog_issues ht (Trace.mem_events.2 (.inl he))
      obtain ⟨hpayload, hsecret⟩ := payload_of_sign hpossible
      obtain rfl := hsecret.symm.trans htoken.2
      obtain ⟨-, u', ⟨e', he', hu'⟩, hid, hrole⟩ :=
        hguard (hop ▸ hrun.ops hR ht) payload.sub rfl
      refine ⟨u', hid.trans (congrArg Payload.sub hpayload.symm), ?_, hrole⟩
      exact still_of_knows hrun ht ⟨e', hpre.subset he', hu'⟩

end Runs

end GetPlatform.Auth
