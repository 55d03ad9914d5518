import GetPlatform.Auth.Logout

set_option autoImplicit false

/-! # What a token can still do after a revocation

Each endpoint that reads a session token decides by itself whether to compare versions before it acts.
`Endpoint.serve` is what each does with a token, and an endpoint is inert for a token when it leaves
the database as it is, however its statements go. -/

namespace GetPlatform.Auth

open Prog

/-- The endpoints that read a session token. A route behind `JwtStrategy`, and the router of the
    protected uploads, go on with the user that they have found. -/
inductive Endpoint where
  | route (handler : User → Call Unit)
  | refresh
  | logout
  | upload (handler : User → Call Unit)

def Endpoint.serve (token : Token) : Endpoint → Call Unit
  | .route handler => do handler (← authenticate token)
  | .refresh => do let _ ← refreshTokens token
  | .logout => Auth.logout (some token)
  | .upload handler => do
      match ← requireUser (some token) with
      | .error _ => return ()
      | .ok user => handler user

/-- The token carries an older version than its user has. -/
structure Stale (s : World) (token : Token) (u : User) : Prop where
  found : s.users.find? token.payload.sub = some u
  older : ∃ v, token.payload.sessionVersion = some v ∧ v < u.sessionVersion

/-- Whatever happens to its statements, the endpoint leaves the database as it was. -/
def Endpoint.Inert (e : Endpoint) (s : World) (token : Token) : Prop :=
  ∀ (cs : List (Except Failure Choice)) (r : Except Err Unit) (s' : World),
    (e.serve token).alone (M := model) none s cs = some (r, s') → s' = s

/-! ## The endpoints that compare versions -/

section Inert

variable {s : World} {token : Token} {u : User}

theorem Stale.version_ne (h : Stale s token u) :
    token.payload.sessionVersion ≠ some u.sessionVersion := by
  obtain ⟨v, hv, hlt⟩ := h.older
  rw [hv]
  intro heq
  have := Option.some.inj heq
  omega

theorem wp_verify {secret : Secret} {b : Bool} {Q : Option Payload → Option World → World → Prop}
    {E : Err → Option World → World → Prop} (hnone : Q none none s)
    (hsome : Q (some token.payload) none s) : (verify token secret b).wp model Q E none s := by
  refine ⟨fun _ => hnone, fun c payload hpayload => ?_⟩
  obtain rfl := Option.some.inj hpayload
  show Q (if _ then _ else _) none s
  split
  · exact hsome
  · exact hnone

/-- Reading the user of a stale token finds it in a later version. -/
theorem wp_findUser (h : Stale s token u) {Q : Option User → Option World → World → Prop}
    {E : Err → Option World → World → Prop} (hfail : ∀ f, E (.database f) none s)
    (hfound : Q (some u) none s) :
    (send (.userFindUnique token.payload.sub)).wp model Q E none s := by
  refine ⟨hfail, fun c found hexec => ?_⟩
  obtain rfl := Option.some.inj hexec
  show Q (s.users.find? token.payload.sub) none s
  rw [h.found]
  exact hfound

theorem authenticate_rejects (h : Stale s token u) :
    (authenticate token).wp model (fun _ _ _ => False) (fun _ _ s' => s' = s) none s := by
  rw [authenticate, bind_eq, wp_handle]
  refine wp_verify rfl ?_
  simp only [validate, bind_eq, throw_eq, pure_eq]
  rw [wp_ite]
  refine ⟨fun _ => rfl, fun _ => ?_⟩
  rw [wp_handle]
  refine wp_findUser h (fun _ => rfl) ?_
  simp [h.version_ne]

theorem refreshTokens_rejects (h : Stale s token u) :
    (refreshTokens token).wp model (fun _ _ _ => False) (fun _ _ s' => s' = s) none s := by
  rw [refreshTokens, bind_eq, wp_handle]
  refine wp_verify rfl ?_
  simp only [bind_eq, throw_eq]
  rw [wp_ite]
  refine ⟨fun _ => rfl, fun _ => ?_⟩
  rw [wp_handle]
  refine wp_findUser h (fun _ => rfl) ?_
  simp [h.version_ne]

theorem requireUser_rejects (h : Stale s token u) :
    (requireUser (some token)).wp model (fun found _ s' => (∃ m, found = .error m) ∧ s' = s)
      (fun _ _ _ => False) none s := by
  simp only [requireUser, checkToken, bind_eq, tryCatch_eq, pure_eq, wp_handle]
  refine wp_verify ⟨⟨_, rfl⟩, rfl⟩ ?_
  simp only [wp_handle]
  refine wp_findUser h (fun _ => ⟨⟨_, rfl⟩, rfl⟩) ?_
  simp [h.version_ne]

end Inert

/-! ## The endpoint that does not -/

theorem canEnd_logout {s : World} {token : Token} {u : User} (h : Stale s token u)
    (hverified : s.verifies token .JWT_SECRET true = true)
    (htype : truthy token.payload.type = none) :
    (Auth.logout (some token)).CanEnd (M := model) none s
      fun _ s' => s' = revoked s token.payload.sub := by
  simp only [Auth.logout, verify, bind_eq, tryCatch_eq, pure_eq, handle_handle, handle_ret]
  refine CanEnd.answered (M := model) (.nat 0) (a := some token.payload) ?_ ?_
  · simp [exec, hverified]
  simp only [htype, Option.isSome_none, Bool.false_eq_true, if_false, revokeSession, transaction,
    Prog.transaction, bind_eq, pure_eq, handle_handle]
  refine CanEnd.begun (M := model) ?_
  simp only [handle_handle]
  refine CanEnd.answered (M := model) (.nat 0) (a := UserData.set revocation u) ?_ ?_
  · exact congrArg (Option.map revocation.set) h.found
  refine CanEnd.answered (M := model) (.nat 0) rfl ?_
  exact CanEnd.committed (M := model) (.nat 0) (CanEnd.ret rfl)

/-- **When a stale token changes nothing.** Whatever happens to its statements, an endpoint that is
    presented with a token of an older version leaves the database as it was; unless it is the logout,
    and the token was signed as one for access. -/
theorem stale_token_inert_iff {s : World} {token : Token} {u : User} (h : Stale s token u)
    (e : Endpoint) : e.Inert s token ↔ ¬ (e = .logout ∧ Names s (some token) token.payload.sub) := by
  constructor
  · rintro hinert ⟨rfl, token', htoken, hverified, htype, -⟩
    obtain rfl := Option.some.inj htoken
    obtain ⟨cs, r, s', hrun, rfl⟩ := canEnd_logout h hverified htype
    have hsame : (revoked s token.payload.sub).users.find? token.payload.sub =
        s.users.find? token.payload.sub := by rw [hinert cs r _ hrun]
    rw [users_revoked, if_pos rfl, h.found] at hsame
    have := congrArg User.sessionVersion (Option.some.inj hsame)
    exact absurd this (Nat.succ_ne_self _)
  · intro hnot cs r s' hrun
    cases e with
    | route handler =>
        refine wp_alone (P := fun _ s' => s' = s) ?_ hrun
        rw [Endpoint.serve, bind_eq, wp_handle]
        exact wp_mono (fun _ _ _ hfalse => hfalse.elim) (fun _ _ _ hsame => hsame)
          (authenticate_rejects h)
    | refresh =>
        refine wp_alone (P := fun _ s' => s' = s) ?_ hrun
        rw [Endpoint.serve, bind_eq, wp_handle]
        exact wp_mono (fun _ _ _ hfalse => hfalse.elim) (fun _ _ _ hsame => hsame)
          (refreshTokens_rejects h)
    | upload handler =>
        refine wp_alone (P := fun _ s' => s' = s) ?_ hrun
        rw [Endpoint.serve, bind_eq, wp_handle]
        refine wp_mono ?_ (fun _ _ _ hfalse => hfalse.elim) (requireUser_rejects h)
        rintro _ _ _ ⟨⟨m, rfl⟩, hsame⟩
        exact hsame
    | logout =>
        have hleft : LoggedOut s (some token) _ s' := loggedOut_of_alone hrun
        rcases hleft with ⟨hsame, -⟩ | ⟨-, userId, hnames, -⟩
        · exact hsame
        · refine absurd ⟨rfl, ?_⟩ hnot
          obtain ⟨token', htoken, hverified, htype, -⟩ := hnames
          obtain rfl := Option.some.inj htoken
          exact ⟨token, rfl, hverified, htype, rfl⟩

/-- The student has been logged out everywhere, and has signed in again. -/
def signedInSince : World :=
  { signedInTwice with
    users := .ofList [{ student with sessionVersion := 1 }]
    refreshSessions := .ofList [⟨6, 1, 8, none⟩]
    drawn := [1, 5, 6, 7, 8] }

theorem stale_signedInSince {token : Token} (h : token = firstAccess ∨ token = firstToken) :
    Stale signedInSince token { student with sessionVersion := 1 } := by
  rcases h with rfl | rfl <;> exact ⟨by decide, 0, rfl, by decide⟩

/-- A refresh with the old refresh token changes nothing. -/
theorem stale_token_inert_refresh : Endpoint.refresh.Inert signedInSince firstToken :=
  (stale_token_inert_iff (stale_signedInSince (.inr rfl)) .refresh).2 (by simp)

/-- A logout with the old access token ends the new session. -/
theorem stale_logout_revokes :
    ¬ ∀ (s : World) (token : Token) (u : User), Stale s token u → ∀ e : Endpoint, e.Inert s token := by
  intro h
  have hend : ((Endpoint.logout.serve firstAccess).alone (M := model) none signedInSince
      (List.replicate 4 (.ok (.nat 0)))).any (fun out =>
        versionIs out.2 1 2 && out.2.refreshSessions.rows.isEmpty) = true := by decide +kernel
  obtain ⟨⟨r, s'⟩, hrun, hchanged⟩ := (Option.any_eq_true ..).1 hend
  obtain rfl := h _ _ _ (stale_signedInSince (.inl rfl)) .logout _ _ _ hrun
  exact absurd hchanged (show ¬ (versionIs signedInSince 1 2 &&
    signedInSince.refreshSessions.rows.isEmpty) = true by decide)

end GetPlatform.Auth
