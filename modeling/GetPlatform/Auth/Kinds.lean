import GetPlatform.Auth.Rotation

set_option autoImplicit false

/-! # Kinds of tokens are kept apart

The service signs four kinds of tokens, told apart by the secret, the `type` and the version they
carry. Every token that was signed is of one kind only, and a call that accepts a token accepts it as
the kind the call is for. -/

namespace GetPlatform.Auth

open Pool

/-- `token` was signed as the service signs a token of this kind. -/
def Token.OfKind (token : Token) (kind : Kind) : Prop :=
  token.secret = kind.secret ∧ kind.Claims token.payload

/-- Every token that was signed is of a kind. -/
def KindsOnly (s : World) : Prop := ∀ token ∈ s.minted, ∃ kind, token.OfKind kind

/-! ## What each kind claims -/

theorem Kind.Claims.type {kind : Kind} {payload : Payload} (h : kind.Claims payload) :
    payload.type = match kind with
      | .access => none
      | .refresh => none
      | .mfaChallenge => some "mfa_challenge"
      | .emailVerify => some "email_verify" := by
  cases kind with
  | access => obtain ⟨_, _, _, _, _, rfl⟩ := h; rfl
  | refresh => obtain ⟨_, _, _, _, _, _, rfl⟩ := h; rfl
  | mfaChallenge => obtain ⟨_, _, rfl⟩ := h; rfl
  | emailVerify => obtain ⟨_, rfl⟩ := h; rfl

theorem Kind.Claims.versioned {kind : Kind} {payload : Payload} (h : kind.Claims payload) {v : Nat}
    (hv : payload.sessionVersion = some v) : kind.Versioned := by
  cases kind with
  | access => exact .inl rfl
  | refresh => exact .inr rfl
  | mfaChallenge => obtain ⟨_, _, rfl⟩ := h; cases hv
  | emailVerify => obtain ⟨_, rfl⟩ := h; cases hv

/-- A token is of one kind only. -/
theorem Token.OfKind.unique {token : Token} {kind kind' : Kind} (h : token.OfKind kind)
    (h' : token.OfKind kind') : kind = kind' := by
  obtain ⟨hsecret, hclaims⟩ := h
  obtain ⟨hsecret', hclaims'⟩ := h'
  have hsame := hsecret.symm.trans hsecret'
  have htype := hclaims.type.symm.trans hclaims'.type
  cases kind <;> cases kind' <;> simp_all [Kind.secret]

/-- What a call has checked of a token leaves one kind for it. -/
theorem Accepted.kind_eq {es : List Ev} {token : Token} {kind kind' : Kind}
    (h : Accepted es token kind) (hof : token.OfKind kind') (hsecret : token.secret = kind.secret) :
    kind' = kind := by
  have hsame : kind'.secret = kind.secret := hof.1.symm.trans hsecret
  obtain ⟨-, h⟩ := h
  cases kind with
  | access =>
      obtain ⟨u, -, -, hv⟩ := h
      rcases hof.2.versioned hv with rfl | rfl
      · rfl
      · cases hsame
  | refresh => cases kind' <;> first | rfl | cases hsame
  | mfaChallenge =>
      have htype := hof.2.type.symm.trans h
      cases kind' <;> simp_all
  | emailVerify =>
      have htype := hof.2.type.symm.trans h
      cases kind' <;> simp_all

/-! ## What is signed -/

/-- A token that a statement adds to those signed is its answer. -/
theorem mem_minted_applyAll {q : Stmt} {a : Ans q} {s : World} {token : Token}
    (h : token ∈ (model.applyAll (writes q a) s).minted) :
    token ∈ s.minted ∨ ∃ payload expiresIn secret,
      (⟨q, a⟩ : Ev) = ⟨.jwtSign payload expiresIn secret, token⟩ := by
  -- Only `jwtSign` writes a token.
  have hkeep : (∀ w ∈ writes q a, ∀ token, w ≠ .mint token) → token ∈ s.minted := by
    intro hno
    have hsame := @Model.applyAll_keeps _ model (fun t => t.minted = s.minted) (writes q a)
      (fun w hw t ht => by
        cases w with
        | mint token => exact absurd rfl (hno _ hw token)
        | _ => exact ht) s rfl
    exact hsame ▸ h
  cases q with
  | jwtSign payload expiresIn secret =>
      rcases List.mem_cons.1 h with rfl | h
      · exact .inr ⟨payload, expiresIn, secret, rfl⟩
      · exact .inl h
  | userUpdateManyByResetToken resetTokenHash now data =>
      refine .inl (hkeep fun w hw token => ?_)
      obtain ⟨id, -, rfl⟩ := List.mem_map.1 hw
      simp
  | refreshSessionUpdateMany userId jti newJti =>
      refine .inl (hkeep fun w hw token => ?_)
      cases jti with
      | none => cases hw
      | some jti =>
          simp only [writes] at hw
          split at hw
          · cases hw
          · rcases List.mem_cons.1 hw with rfl | hw
            · simp
            · obtain ⟨id, -, rfl⟩ := List.mem_map.1 hw
              simp
  | refreshSessionDeleteMany userId =>
      refine .inl (hkeep fun w hw token => ?_)
      obtain ⟨id, -, rfl⟩ := List.mem_map.1 hw
      simp
  | _ => exact .inl (hkeep (by simp [writes]))

theorem minted_view {l : Log} {userId : Id} {row : User} {ids : List Id}
    (hpending : l.pending = revocationOf userId row ids) (s : World) :
    (l.view model s).minted = s.minted := by
  rw [view_revocation hpending, replay_revocation]
  refine @Model.applyAll_keeps _ model (fun t => t.minted = s.minted) _ (fun w hw t ht => ?_) _ rfl
  obtain ⟨id, -, rfl⟩ := List.mem_map.1 hw
  exact ht

theorem kinds_rules : Rules (M := model) (ε := Err) (α := Reply) guards anyStep KindsOnly
    (fun _ _ => True) (fun _ _ => True) where
  symm _ _ _ := trivial
  start _ _ _ _ := trivial
  start_pair _ _ _ _ _ := trivial
  env _ _ _ h := ⟨h, fun _ _ => trivial⟩
  drop _ _ _ := trivial
  drop_pair _ _ _ := trivial
  openTx _ _ _ _ _ := trivial
  openTx_pair _ _ _ _ _ := trivial
  call p i c t q a h hcall htx := by
    refine ⟨fun token htoken => ?_, trivial, fun _ _ => ⟨trivial, trivial⟩⟩
    rcases mem_minted_applyAll htoken with hold | ⟨payload, expiresIn, secret, heq⟩
    · exact h.db token hold
    · obtain ⟨rfl, heq⟩ := Event.mk.inj heq
      obtain rfl := eq_of_heq heq
      obtain ⟨hpayload, hsecret⟩ := payload_of_sign ⟨c, _, hcall.exec⟩
      obtain ⟨-, kind, hkind, hclaims, -⟩ : stmtGuard t.trace (.jwtSign payload expiresIn secret) :=
        hcall.guard
      exact ⟨kind, hsecret.trans hkind.symm, hpayload ▸ hclaims⟩
  callTx _ _ _ _ _ _ _ _ _ _ := ⟨trivial, fun _ _ => trivial⟩
  commit p i c t x h hcommit := by
    obtain ⟨userId, row, ids, hpending⟩ := hcommit.guard
    refine ⟨fun token htoken => h.db token ?_, trivial, fun _ _ => ⟨trivial, trivial⟩⟩
    rwa [minted_view hpending] at htoken

theorem kindsOnly {s₀ : World} (hs₀ : KindsOnly s₀) {p : Platform}
    (hrun : Run prog anyStep (idle s₀) p) : KindsOnly p.db :=
  (kinds_rules.holds (fun _ o _ => prog_sound o) hs₀ hrun).2.db

/-! ## What is accepted -/

/-- A token that a call has verified was signed, and with the secret of the kind the call is for. -/
theorem ofKind_of_verified {s₀ : World} (hs₀ : KindsOnly s₀) {p : Platform}
    (hrun : Run prog anyStep (idle s₀) p) {i : Nat} {t : Thread interface Op Err Reply}
    (ht : p.threads[i]? = some t) {token : Token} {kind : Kind}
    (h : Verified t.trace.done token kind) :
    token.secret = kind.secret ∧ ∃ kind', token.OfKind kind' := by
  rcases hrun.answered ht (Trace.mem_events.2 (.inl h)) with
    ⟨t₀, ht₀, -⟩ | ⟨q, tq, hq, -, htq, hnext, c, hexec⟩
  · simp [idle] at ht₀
  · obtain ⟨hsound, hholds⟩ := kinds_rules.holds (fun _ o _ => prog_sound o) hs₀ hq
    have hguard : stmtGuard tq.trace (.jwtVerify token kind.secret false) :=
      hsound.guard htq hnext
    rw [Trace.view_of_none hguard] at hexec
    have hexec := Option.some.inj hexec
    split at hexec
    · next hverifies =>
        obtain ⟨hminted, hsecret, -⟩ := of_decide_eq_true hverifies
        exact ⟨hsecret, hholds.db token hminted⟩
    · cases hexec

/-- **Kinds of tokens are kept apart.** In every reachable state, each token that was signed is of one
    kind and of no other; and whichever call has accepted a token, the token is of the kind that the
    call is for. -/
theorem token_kinds_separated {s₀ : World} (hs₀ : KindsOnly s₀) {p : Platform}
    (hrun : Run prog anyStep (idle s₀) p) :
    (∀ token ∈ p.db.minted, ∃ kind, token.OfKind kind ∧
      ∀ kind', token.OfKind kind' → kind' = kind) ∧
    ∀ i reply token kind, Accepts p i reply token kind →
      token.OfKind kind ∧ ∀ kind', token.OfKind kind' → kind' = kind := by
  constructor
  · intro token htoken
    obtain ⟨kind, hkind⟩ := kindsOnly hs₀ hrun token htoken
    exact ⟨kind, hkind, fun kind' h' => h'.unique hkind⟩
  · rintro i reply token kind ⟨t, ht, hrest, haccepts, hpresents⟩
    have hreturns : Returns t.trace reply := hrun.conforms prog_conforms i t ht _ hrest
    obtain ⟨haccepted, -⟩ := hreturns haccepts token kind hpresents
    obtain ⟨hsecret, kind', hkind'⟩ := ofKind_of_verified hs₀ hrun ht haccepted.1
    obtain rfl := haccepted.kind_eq hkind' hsecret
    exact ⟨hkind', fun kind'' h' => h'.unique hkind'⟩

theorem kindsOnly_signedIn : KindsOnly signedIn := by
  intro token htoken
  obtain rfl : token = firstToken := List.mem_singleton.1 htoken
  exact ⟨.refresh, rfl, 1, "jean@get.mg", "STUDENT", 0, true, 7, rfl⟩

/-- The token the student exchanges is a refresh token, and of no other kind. -/
theorem token_kinds_separated_exchange : ∃ (p : Platform) (reply : Reply),
    Run prog anyStep (idle signedIn) p ∧ Accepts p 0 reply firstToken .refresh ∧
      firstToken.OfKind .refresh ∧ ¬ firstToken.OfKind .access := by
  have hplay : ((idle signedIn : Platform).play prog anyStep
      (refreshStart 0 firstToken ++ refreshFinish 0 8)).any (exchangedAt · 0 firstToken) = true := by
    decide +kernel
  obtain ⟨p, hrun, hexchanged⟩ := exists_run_of_play hplay
  obtain ⟨reply, hreply⟩ := accepts_of_exchangedAt hexchanged
  obtain ⟨hkind, honly⟩ := (token_kinds_separated kindsOnly_signedIn hrun).2 0 reply firstToken
    .refresh hreply
  refine ⟨p, reply, hrun, hreply, hkind, fun haccess => ?_⟩
  cases honly .access haccess

end GetPlatform.Auth
