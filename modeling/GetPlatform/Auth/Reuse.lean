import GetPlatform.Auth.Counters
import GetPlatform.Auth.Honoured

set_option autoImplicit false

/-! # When a refresh counts as reuse

A refresh that finds no chain revokes every session of its user. As long as the only calls that may
delete a chain of the user are refreshes, and each of them comes to its exchange with a `jti` that none
has exchanged, every refresh finds its chain, so no chain is ever deleted. -/

namespace GetPlatform.Auth

open Pool Prog

/-- The exchange has found no chain. -/
def refused : Ev → Bool
  | ⟨.refreshSessionUpdateMany .., ids⟩ => List.isEmpty ids
  | _ => false

/-- `es` came to the branch for a token that is reused. -/
def Replays (es : List Ev) : Prop := ∃ e ∈ es, refused e = true

/-- May the call delete a chain of the user? -/
def Op.closesFor (userId : Id) : Op → Bool
  | .refreshTokens token => token.payload.sub = userId
  | .revokeSession id => id = userId
  | .logout cookieToken => cookieToken.any fun token => token.payload.sub = userId
  | .resetPassword .. => true
  | _ => false

theorem not_closesFor {o : Op} (h : o.closes = false) (userId : Id) : o.closesFor userId = false := by
  cases o <;> first | rfl | cases h

/-! ## Who deletes a chain -/

/-- Statements that delete no chain. -/
def Keeping (q : Stmt) : Prop := ∀ userId, q ≠ .refreshSessionDeleteMany userId

theorem Gentle.keeping {q : Stmt} (h : Gentle q) : Keeping q := by
  rintro userId rfl
  exact h

theorem Plain.keeping {q : Stmt} (h : Plain q) : Keeping q := by
  rintro userId rfl
  exact h

/-- Chains are deleted by the calls that may, and by a refresh only if it found none. -/
def closeGuards : Guards interface Op where
  stmt l q := ∀ userId, q = .refreshSessionDeleteMany userId →
    l.op.closesFor userId = true ∧ ∀ token, l.op = .refreshTokens token → Replays l.done
  commit _ := True

/-- What a refresh hands out is a token of the same user, for a chain that it has moved on. -/
def Delivers (l : Log) (reply : Reply) : Prop :=
  ∀ token session, l.op = .refreshTokens token → reply = .session session →
    session.refreshToken.payload.sub = token.payload.sub ∧
      ∃ jti, session.refreshToken.payload.jti = some jti ∧ Opens l.done token.payload.sub jti

section Conformance

variable {o : Op} {d : List Ev}

@[simp] theorem close_send {q : Stmt} {Q : Log → Ans q → Prop} {E : Log → Err → Prop} {l : Log} :
    @Conforms interface model Err (no_index (Ans q)) Op closeGuards (send q) Q E l ↔
      closeGuards.stmt l q ∧ (∀ f, E l (.database f)) ∧
        ∀ a, model.Possible q a → Q (l.push ⟨q, a⟩) a := Iff.rfl

theorem Keeping.guard {l : Log} {q : Stmt} (h : Keeping q) : closeGuards.stmt l q :=
  fun userId heq => absurd heq (h userId)

theorem revokeSession_closes {userId : Id} (ho : o.closesFor userId = true)
    (hreplays : ∀ token, o = .refreshTokens token → Replays d) :
    (revokeSession userId).Conforms model closeGuards (fun _ _ => True) (fun _ _ => True)
      ⟨o, d, none⟩ := by
  simp only [revokeSession, transaction, bind_eq, pure_eq, conforms_transaction, conforms_handle,
    close_send, conforms_fail, conforms_ret, Trace.openTx_mk, Trace.push_inside, implies_true,
    true_and, and_true]
  refine ⟨Keeping.guard (by simp [Keeping]), fun row _ => ⟨fun id heq => ?_, fun ids _ => ⟨by simp, trivial⟩⟩⟩
  obtain rfl := Stmt.refreshSessionDeleteMany.inj heq
  exact ⟨ho, hreplays⟩

theorem logout_closes (cookieToken : Option Token) :
    (logout cookieToken).Conforms model closeGuards (fun _ _ => True) (fun _ _ => True)
      (.start (.logout cookieToken)) := by
  cases cookieToken with
  | none => trivial
  | some token =>
      simp only [logout, verify, bind_eq, pure_eq, tryCatch_eq, conforms_handle, close_send,
        conforms_ret, Trace.start_eq, Trace.push_outside, implies_true, true_and]
      refine ⟨Keeping.guard (by simp [Keeping]), fun payload hpayload => ?_⟩
      cases payload with
      | none => trivial
      | some payload =>
          obtain rfl := payload_of_verify hpayload
          simp only [conforms_ite, conforms_ret, conforms_handle, implies_true, true_and]
          exact fun _ => revokeSession_closes (by simp [Op.closesFor]) (by simp)

theorem resetPassword_closes (token newPassword : String) :
    (resetPassword token newPassword).Conforms model closeGuards (fun _ _ => True) (fun _ _ => True)
      (.start (.resetPassword token newPassword)) := by
  simp only [resetPassword, bind_eq, pure_eq, throw_eq, conforms_handle, close_send, conforms_fail,
    conforms_ite, handle_fail, Trace.start_eq, Trace.push_outside, implies_true, true_and]
  refine ⟨Keeping.guard (by simp [Keeping]), fun _ _ => ⟨Keeping.guard (by simp [Keeping]), fun _ _ =>
    ⟨Keeping.guard (by simp [Keeping]), fun candidate _ => ⟨Keeping.guard (by simp [Keeping]), fun _ _ =>
      ⟨Keeping.guard (by simp [Keeping]), fun _ _ _ => ?_⟩⟩⟩⟩⟩
  cases candidate with
  | none => trivial
  | some user =>
      simp only [conforms_handle, close_send, conforms_fail, conforms_ret, implies_true, and_true]
      exact fun _ _ => ⟨rfl, by simp⟩

theorem tokensFor_delivers {user : User} {token : Token} {jti : Id} {rememberMe : Bool}
    (hid : user.id = token.payload.sub) (hopens : Opens d user.id jti) :
    (tokensFor user jti rememberMe).Conforms model closeGuards
      (fun l tokens => ∀ info rememberMe, Delivers l (.session ⟨tokens, info, rememberMe⟩))
      (fun _ _ => True) ⟨.refreshTokens token, d, none⟩ := by
  unfold tokensFor
  split
  · trivial
  · next role _ =>
      simp only [generateTokens, bind_eq, pure_eq, conforms_handle, close_send, conforms_fail,
        conforms_ret, Trace.push_outside, implies_true, true_and]
      refine ⟨Keeping.guard (by simp [Keeping]), fun access _ => ⟨Keeping.guard (by simp [Keeping]),
        fun refresh hrefresh info rememberMe token' session hop hsession => ?_⟩⟩
      obtain rfl := Op.refreshTokens.inj hop
      obtain rfl := Reply.session.inj hsession
      obtain ⟨hpayload, -⟩ := payload_of_sign hrefresh
      refine ⟨?_, jti, ?_, hid ▸ (hopens.append _).append _⟩
      · show refresh.payload.sub = _
        rw [hpayload]
        exact hid
      · show refresh.payload.jti = _
        rw [hpayload]
        rfl

theorem refreshTokens_delivers (token : Token) :
    (refreshTokens token).Conforms model closeGuards (fun l session => Delivers l (.session session))
      (fun _ _ => True) (.start (.refreshTokens token)) := by
  simp only [refreshTokens, verify, bind_eq, pure_eq, throw_eq, tryCatch_eq, conforms_handle,
    close_send, conforms_ret, handle_fail, conforms_fail, Trace.start_eq, Trace.push_outside,
    List.nil_append, implies_true, true_and]
  refine ⟨Keeping.guard (by simp [Keeping]), fun payload hpayload => ?_⟩
  cases payload with
  | none => trivial
  | some payload =>
      obtain rfl := payload_of_verify hpayload
      simp only [conforms_ite, conforms_fail, conforms_handle, close_send, Trace.push_outside,
        implies_true, true_and]
      refine fun _ => ⟨Keeping.guard (by simp [Keeping]), fun found hfound => ?_⟩
      cases found with
      | none => trivial
      | some user =>
          obtain ⟨c, s, hexec⟩ := hfound
          have hid : user.id = token.payload.sub := Table.key_of_find? (Option.some.inj hexec)
          simp only [rotate, bind_eq, pure_eq, throw_eq, conforms_ite, conforms_fail, conforms_handle,
            conforms_ret, close_send, Trace.push_outside, List.append_assoc, implies_true, true_and]
          refine fun _ _ => ⟨Keeping.guard (by simp [Keeping]), fun newJti _ =>
            ⟨Keeping.guard (by simp [Keeping]), fun ids _ => ⟨fun hcount => ?_, fun hcount => ?_⟩⟩⟩
          · -- No chain was found, and the sessions are revoked.
            refine revokeSession_closes (by simp [Op.closesFor, hid]) fun _ _ => ?_
            exact ⟨⟨.refreshSessionUpdateMany user.id token.payload.jti newJti, ids⟩, by simp,
              List.isEmpty_iff_length_eq_zero.2 hcount⟩
          · have hmoved : List.isEmpty ids = false :=
              List.isEmpty_eq_false_iff.2 fun hnil => hcount (by simp [hnil])
            refine conforms_mono (fun l tokens h => h _ _) (fun _ _ _ => trivial)
              (tokensFor_delivers hid ?_)
            refine ⟨⟨.refreshSessionUpdateMany user.id token.payload.jti newJti, ids⟩, by simp, ?_⟩
            simp [opened, hmoved]

theorem keeping_login (dto : LoginDto) : (login dto).Sends Keeping := by
  have hplain : ∀ {α : Type} {p : Call α}, p.Only Plain → p.Sends Keeping :=
    fun hp => hp.sends fun _ hq => hq.keeping
  simp only [login, bind_eq, pure_eq, throw_eq, sends_send_handle, sends_fail, implies_true, and_true]
  refine ⟨by simp [Keeping], fun found => ?_⟩
  cases found with
  | none => exact hplain (only_rejectUnknown dto)
  | some user =>
      refine (hplain (only_checkLoginAttempts _)).handle (fun _ => ?_) fun _ => trivial
      simp only [sends_send_handle, sends_ite, sends_fail, implies_true, and_true]
      refine ⟨by simp [Keeping], fun valid => ⟨fun _ => ?_, fun _ => ?_⟩⟩
      · exact (hplain (only_incrementLoginAttempts _)).handle (fun _ => trivial) fun _ => trivial
      · refine (hplain (only_resetLoginAttempts _)).handle (fun _ => ?_) fun _ => trivial
        simp only [sends_ite, sends_send_handle, sends_ret, sends_fail, implies_true, and_true]
        refine ⟨fun _ => by simp [Keeping], fun _ => ?_⟩
        exact ((calm_openSession ..).mono fun _ hq => hq.gentle.keeping).handle (fun _ => trivial)
          fun _ => trivial

/-- **Every call keeps to these guards**, and a refresh hands out what `Delivers` says. -/
theorem prog_delivers (o : Op) :
    (prog o).Conforms model closeGuards Delivers (fun _ _ => True) (.start o) := by
  have hother : (∀ token, o ≠ .refreshTokens token) →
      (prog o).Conforms model closeGuards (fun _ _ => True) (fun _ _ => True) (.start o) →
        (prog o).Conforms model closeGuards Delivers (fun _ _ => True) (.start o) := by
    intro hne h
    refine conforms_mono (fun l reply hl token session hop => ?_) (fun _ _ _ => trivial) h.keeps_op
    exact absurd (hl.2.symm.trans hop) (hne token)
  by_cases hcloses : o.closes = true
  · cases o with
    | refreshTokens token => exact (conforms_handle ..).2 (refreshTokens_delivers token)
    | revokeSession userId =>
        refine hother (by simp) ((conforms_handle ..).2 ?_)
        exact revokeSession_closes (by simp [Op.closesFor]) (by simp)
    | logout cookieToken => exact hother (by simp) ((conforms_handle ..).2 (logout_closes cookieToken))
    | resetPassword token newPassword =>
        exact hother (by simp) ((conforms_handle ..).2 (resetPassword_closes token newPassword))
    | _ => cases hcloses
  · have hsends : (prog o).Sends Keeping := by
      by_cases hlogin : ∃ dto, o = .login dto
      · obtain ⟨dto, rfl⟩ := hlogin
        exact sends_map (keeping_login dto) _
      · refine (gentle_prog (fun dto h => hlogin ⟨dto, h⟩) ?_).mono fun _ hq => hq.keeping
        exact Bool.eq_false_iff.2 hcloses
    refine hother ?_ ((prog_sound o).retarget hsends (fun _ _ _ hq => hq.guard) fun _ _ => trivial)
    rintro token rfl
    exact hcloses rfl

theorem prog_closes (o : Op) :
    (prog o).Conforms model closeGuards (fun _ _ => True) (fun _ _ => True) (.start o) :=
  conforms_mono (fun _ _ _ => trivial) (fun _ _ _ => trivial) (prog_delivers o)

end Conformance

/-! ## The condition -/

/-- The `jti` the call is about to exchange. -/
def exchanging (t : Thread interface Op Err Reply) : Option Id :=
  match t.next? with
  | some (.refreshSessionUpdateMany _ jti _) => jti
  | _ => none

/-- Has a call exchanged the `jti`? -/
def spent (p : Platform) (jti : Id) : Bool :=
  p.threads.any fun t => t.trace.done.any fun e => exchanged e = some jti

/-- A call that may delete chains of the user, and is about to exchange a `jti`, is the first to. -/
def Unspent (userId : Id) (p : Platform) : Step model Op → Prop
  | .exec i _ => ∀ t ∈ p.threads[i]?, t.trace.op.closesFor userId = true →
      ∀ jti ∈ exchanging t, spent p jti = false
  | _ => True

instance (userId : Id) (p : Platform) (a : Step model Op) : Decidable (Unspent userId p a) :=
  match a with
  | .exec .. => by dsimp only [Unspent]; infer_instance
  | .spawn _ | .fault .. | .crash _ | .env _ => inferInstanceAs (Decidable True)

theorem spent_iff {p : Platform} {jti : Id} :
    spent p jti = true ↔ ∃ t ∈ p.threads, Exchanges t.trace.done jti := by
  simp [spent, Exchanges]

/-! ## Every refresh finds its chain -/

/-- The token is one of the user, for a `jti` that nobody had exchanged in `s₀`, and that is kept. -/
structure Ours (s₀ : World) (userId : Id) (s : World) (token : Token) : Prop where
  sub : token.payload.sub = userId
  kept : ∃ jti, token.payload.jti = some jti ∧ jti ∉ s₀.rotated ∧ Kept s userId jti

/-- Only refreshes with tokens of the user may delete chains of the user; the chains they opened are
    kept, and none was refused. -/
structure Sheltered (s₀ : World) (userId : Id) (p : Platform) : Prop where
  token : ∀ (i : Nat) (t : Thread interface Op Err Reply), p.threads[i]? = some t →
    t.trace.op.closesFor userId = true →
      ∃ token, t.trace.op = .refreshTokens token ∧ Ours s₀ userId p.db token
  opened : ∀ (i : Nat) (t : Thread interface Op Err Reply), p.threads[i]? = some t →
    ∀ j, Opens t.trace.done userId j → Kept p.db userId j
  found : ∀ (i : Nat) (t : Thread interface Op Err Reply), p.threads[i]? = some t →
    t.trace.op.closesFor userId = true → ¬ Replays t.trace.done

section Runs

variable {R : Platform → Step model Op → Prop} {s₀ : World} {userId : Id} {p p' : Platform}
  {t : Thread interface Op Err Reply}

theorem id_of_current (hrun : Run prog R (idle s₀) p) {i : Nat} (ht : p.threads[i]? = some t)
    {token : Token} {u : User} (h : Current t.trace.done token u) : u.id = token.payload.sub := by
  obtain ⟨-, -, -, -, c, s, hexec⟩ := hrun.guarded prog_sound ht (Trace.mem_events.2 (.inl h.1))
  exact Table.key_of_find? (Option.some.inj hexec)

/-- What a refresh is about to exchange is the `jti` of its token, for the user of its token. -/
theorem exchange_of_next (hrun : Run prog R (idle s₀) p) {i : Nat} (ht : p.threads[i]? = some t)
    {userId' newJti : Id} {jti : Option Id}
    (hnext : t.next? = some (.refreshSessionUpdateMany userId' jti newJti)) :
    t.trace.tx = none ∧ ∃ token, t.trace.op = .refreshTokens token ∧ userId' = token.payload.sub ∧
      jti = token.payload.jti := by
  obtain ⟨htx, -, -, token, u, hop, -, hcurrent, rfl, hjti⟩ : stmtGuard t.trace _ :=
    (hrun.sound prog_sound).guard ht hnext
  exact ⟨htx, token, hop, id_of_current hrun ht hcurrent, hjti.symm⟩

/-- A refresh that comes to its exchange with a `jti` that was not exchanged finds a chain. -/
theorem Sheltered.accepting (h : Sheltered s₀ userId p) (hrun : Run prog R (idle s₀) p) {i : Nat}
    (ht : p.threads[i]? = some t) (hcloses : t.trace.op.closesFor userId = true)
    {userId' newJti : Id} {jti : Option Id}
    (hnext : t.next? = some (.refreshSessionUpdateMany userId' jti newJti))
    (hunspent : ∀ j ∈ jti, spent p j = false) : p.db.accepting userId' jti ≠ [] := by
  obtain ⟨-, token, hop, rfl, rfl⟩ := exchange_of_next hrun ht hnext
  obtain ⟨token', hop', hsub, j, hj, hstart, hkept⟩ := h.token i t ht hcloses
  obtain rfl := Op.refreshTokens.inj (hop.symm.trans hop')
  have hlive : Live p.db userId j := by
    refine hkept.resolve_left fun hrotated => ?_
    rcases presented_of_rotated hrun hrotated with hold | ⟨t', -, ht', -, -, hex, -⟩
    · exact hstart hold
    · exact Bool.eq_false_iff.1 (hunspent j hj) (spent_iff.2 ⟨t', ht', hex⟩)
  obtain ⟨r, hr, huser, hcurrent, hrev⟩ := hlive
  refine List.ne_nil_of_mem (mem_accepting.2 ⟨hr, huser.trans hsub.symm, ?_, hrev⟩)
  rw [hj, hcurrent]

/-- No statement deletes a chain of the user, for only those that were refused would. -/
theorem Sheltered.keeping (h : Sheltered s₀ userId p) {i : Nat} (ht : p.threads[i]? = some t)
    {l : Log} (hop : l.op = t.trace.op) (hdone : l.done <+: t.trace.done)
    (hguard : closeGuards.stmt l (.refreshSessionDeleteMany userId)) : False := by
  obtain ⟨hcloses, hreplays⟩ := hguard userId rfl
  rw [hop] at hcloses
  obtain ⟨token, htoken, -⟩ := h.token i t ht hcloses
  obtain ⟨e, he, hrefused⟩ := hreplays token (hop.trans htoken)
  exact h.found i t ht hcloses ⟨e, hdone.subset he, hrefused⟩

/-- **A step keeps the `jti`s of the user.** -/
theorem Sheltered.kept (h : Sheltered s₀ userId p) (hc : Chains p.db)
    (hrun : Run prog R (idle s₀) p) {a : Step model Op} (hs : p.step prog a = some p') {j : Id}
    (hkept : Kept p.db userId j) : Kept p'.db userId j := by
  cases taken_of_step hs with
  | spawn o => exact hkept
  | env n => exact hkept
  | @call i t q k c x ht hk htx hx =>
      refine hkept.effect hc (effect_of_exec hx) fun hq => ?_
      obtain rfl : q = _ := hq
      have hguard := (hrun.sound prog_closes).guard ht (next_of_call hk)
      exact (h.keeping ht rfl List.prefix_rfl hguard).elim
  | callTx ht hk htx hx => exact hkept
  | @commit i t k c ht hk =>
      obtain ⟨userId', row, ids, hpending⟩ : commitGuard t.trace :=
        ((hrun.sound prog_sound).conforms i t ht _ hk).2.1
      refine hkept.view hpending ?_
      rintro rfl
      obtain ⟨l, hop, hdone, hguard, -⟩ := hrun.guarded prog_closes ht
        (e := ⟨.refreshSessionDeleteMany userId, ids⟩) (Trace.mem_events.2 (.inr (by simp [hpending])))
      exact h.keeping ht hop hdone hguard
  | turn _ _ _ _ _ => exact hkept

/-- A chain that a step has opened for the user is kept. -/
theorem Sheltered.opened_step (h : Sheltered s₀ userId p) (hc : Chains p.db)
    (hrun : Run prog R (idle s₀) p) {a : Step model Op} (hs : p.step prog a = some p') {i : Nat}
    (ht : p'.threads[i]? = some t) {j : Id} (hopens : Opens t.trace.done userId j) :
    Kept p'.db userId j := by
  obtain ⟨e, he, hopened⟩ := hopens
  by_cases hold : ∃ t₀, p.threads[i]? = some t₀ ∧ e ∈ t₀.trace.done
  · obtain ⟨t₀, ht₀, he₀⟩ := hold
    exact h.kept hc hrun hs (h.opened i t₀ ht₀ j ⟨e, he₀, hopened⟩)
  · obtain ⟨t₀, ht₀, ⟨htx, ⟨-, c, hexec⟩, hdb⟩ | ⟨k, hk, he₀, -⟩⟩ :=
      (moves_of_step hs).stands ht he fun t₀ ht₀ he₀ => hold ⟨t₀, ht₀, he₀⟩
    · rw [Trace.view_of_none htx] at hexec
      rw [hdb]
      exact .inr (live_of_opened hc (effect_of_exec hexec) hopened)
    · have hguard := ((hrun.sound prog_sound).conforms i t₀ ht₀ _ hk).2.1
      rw [(revocation_only hguard he₀).2.1] at hopened
      cases hopened

/-- **No refresh of the user is refused**, by a step that meets the condition. -/
theorem Sheltered.step (h : Sheltered s₀ userId p) (hc : Chains p.db)
    (hrun : Run prog R (idle s₀) p) {a : Step model Op}
    (hspawn : ∀ o, a = .spawn o → o.closesFor userId = true →
      ∃ token, o = .refreshTokens token ∧ Ours s₀ userId p.db token)
    (hunspent : Unspent userId p a) (hs : p.step prog a = some p') : Sheltered s₀ userId p' := by
  refine ⟨fun i t ht hcloses => ?_, fun i t ht j hopens => h.opened_step hc hrun hs ht hopens,
    fun i t ht hcloses hreplays => ?_⟩
  · have hours : ∃ token, t.trace.op = .refreshTokens token ∧ Ours s₀ userId p.db token := by
      rcases (taken_of_step hs).origin ht with ⟨t₀, ht₀, hop⟩ | ⟨o, rfl, rfl⟩
      · rw [← hop] at hcloses ⊢
        exact h.token i t₀ ht₀ hcloses
      · exact hspawn o rfl hcloses
    obtain ⟨token, hop, hsub, jti, hjti, hstart, hkept⟩ := hours
    exact ⟨token, hop, hsub, jti, hjti, hstart, h.kept hc hrun hs hkept⟩
  · obtain ⟨e, he, hrefused⟩ := hreplays
    obtain ⟨t₀, ht₀, hop, hold | ⟨c, rfl, htx, hnext, hexec⟩ | ⟨k, hk, he₀⟩⟩ :=
      (taken_of_step hs).done ht he
    · exact h.found i t₀ ht₀ (hop ▸ hcloses) ⟨e, hold, hrefused⟩
    · -- An exchange has just been refused, but it would have found its chain.
      obtain ⟨q, x⟩ := e
      cases q <;> try cases hrefused
      next userId' jti newJti =>
        have hexchanging : exchanging t₀ = jti := by simp [exchanging, hnext]
        refine exchange_ne_nil (c := c) (h.accepting hrun ht₀ (hop ▸ hcloses) hnext ?_) hexec
          (List.isEmpty_iff.1 hrefused)
        exact hexchanging ▸ hunspent t₀ ht₀ (hop ▸ hcloses)
    · have hguard := ((hrun.sound prog_sound).conforms i t₀ ht₀ _ hk).2.1
      obtain ⟨userId', row, ids, hpending⟩ := hguard
      rw [hpending] at he₀
      simp only [List.mem_cons, List.not_mem_nil, or_false] at he₀
      rcases he₀ with rfl | rfl <;> cases hrefused

/-- A refresh that comes to its exchange with a `jti` that was exchanged is refused. -/
theorem refused_of_spent (hc : Chains p.db) (hrot : ∀ j, spent p j = true → j ∈ p.db.rotated)
    {userId' newJti jti : Id} {c : Choice} {ids : List Id} (hspent : spent p jti = true)
    (hexec : exec (.refreshSessionUpdateMany userId' (some jti) newJti) c p.db = some ids) :
    ids = [] := by
  have hnone : p.db.accepting userId' (some jti) = [] := by
    refine List.eq_nil_iff_forall_not_mem.2 fun r hr => ?_
    obtain ⟨hmem, -, hjti, -⟩ := mem_accepting.1 hr
    exact (hc.rotated jti (hrot jti hspent)).2 r hmem (Option.some.inj hjti)
  simpa [exec, hnone, eq_comm] using hexec

end Runs

end GetPlatform.Auth
