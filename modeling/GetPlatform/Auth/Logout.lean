import GetPlatform.Auth.Chains
import GetPlatform.Auth.Revocation
import GetPlatform.Store.Solo
import GetPlatform.Store.Watch

set_option autoImplicit false

/-! # What a logout leaves alive

The controller looks up whom to log out in the access cookie, and does not read the refresh cookie. -/

namespace GetPlatform.Auth

open Pool Prog

instance : Inhabited Choice := ⟨.nat 0⟩

/-! ## A session that is alive -/

/-- The refresh token would be exchanged now. -/
structure LiveSession (s : World) (token : Token) (u : User) : Prop where
  verified : s.verifies token .JWT_REFRESH_SECRET false = true
  type : truthy token.payload.type = none
  found : s.users.find? token.payload.sub = some u
  active : u.isActive = true
  version : token.payload.sessionVersion = some u.sessionVersion
  role : u.role.isSome = true
  accepted : s.accepting u.id token.payload.jti ≠ []

/-- Some call exchanges the token for a session, now or later, whatever happens meanwhile. -/
def Exchangeable (s : World) (token : Token) : Prop :=
  ∃ (p : Platform) (i : Nat) (reply : Reply), Run prog anyStep (idle s) p ∧
    Accepts p i reply token .refresh

/-- A refresh that is left alone, and is never failed, exchanges the token. -/
theorem LiveSession.exchanged {s : World} {token : Token} {u : User} (h : LiveSession s token u) :
    (prog (.refreshTokens token)).CanEnd (M := model) none s fun r _ =>
      ∃ session, r = .ok (.session session) := by
  obtain ⟨n, hn⟩ := Infinite.exists_notMem_finset
    (s.drawn ++ s.refreshSessions.rows.map (·.currentJti)).toFinset
  rw [List.mem_toFinset, List.mem_append, not_or] at hn
  obtain ⟨hdrawn, hused⟩ := hn
  obtain ⟨role, hrole⟩ := Option.isSome_iff_exists.1 h.role
  have htaken : (World.apply (.draw n) s).jtiTaken n = false := by
    rw [jtiTaken_eq_false]
    intro r hr heq
    exact hused (List.mem_map.2 ⟨r, hr, heq⟩)
  have hempty : ((World.apply (.draw n) s).accepting u.id token.payload.jti).isEmpty = false :=
    List.isEmpty_eq_false_iff.2 h.accepted
  have hupdated : exec (.refreshSessionUpdateMany u.id token.payload.jti n) (.nat 0)
      (World.apply (.draw n) s) = some ((s.accepting u.id token.payload.jti).map (·.id)) := by
    simp only [exec, hempty, htaken, Bool.false_eq_true, if_false]
    rfl
  have hcount : ((s.accepting u.id token.payload.jti).map (·.id)).length ≠ 0 := by
    simpa using h.accepted
  rw [prog, map_eq, refreshTokens, verify]
  simp only [bind_eq, tryCatch_eq, pure_eq, throw_eq, handle_handle, handle_ret]
  refine CanEnd.answered (M := model) (.nat 0) (a := some token.payload) ?_ ?_
  · simp [exec, h.verified]
  simp only [h.type, Option.isSome_none, Bool.false_eq_true, if_false, handle_handle]
  refine CanEnd.answered (M := model) (.nat 0) (a := some u) (congrArg some h.found) ?_
  simp only [h.active, h.version, not_true, if_false, ne_eq, rotate, bind_eq, pure_eq, throw_eq,
    handle_handle]
  refine CanEnd.answered (M := model) (.nat n) (a := n) (if_neg hdrawn) ?_
  refine CanEnd.answered (M := model) (.nat 0) hupdated ?_
  simp only [hcount, if_false, tokensFor, hrole, generateTokens, bind_eq, pure_eq, handle_handle,
    handle_ret]
  refine CanEnd.answered (M := model) (.nat 0) rfl ?_
  refine CanEnd.answered (M := model) (.nat 0) rfl ?_
  exact CanEnd.ret ⟨_, rfl⟩

/-! ## What a logout does -/

/-- What a revocation leaves of the database. -/
def revoked (s : World) (userId : Id) : World :=
  model.applyAll (((s.sessionsOf userId).map (·.id)).map (Write.noSession userId))
    (World.apply (.user userId revocation) s)

/-- The access cookie names the user: it holds a token that was signed as one for access, expired or
    not. -/
def Names (s : World) (cookieToken : Option Token) (userId : Id) : Prop :=
  ∃ token, cookieToken = some token ∧ s.verifies token .JWT_SECRET true = true ∧
    truthy token.payload.type = none ∧ token.payload.sub = userId

/-- Every statement is watched. -/
abbrev everyStmt (_ : Stmt) : Bool := true

theorem watched_revokeSession {userId : Id} {s : World} {b : Bool}
    {Q : Unit → Bool → Option World → World → Prop} {E : Err → Bool → Option World → World → Prop}
    (hfail : ∀ f, E (.database f) true none s)
    (hok : (s.users.find? userId).isSome = true → Q () b none (revoked s userId)) :
    (revokeSession userId).watched model everyStmt Q E b none s := by
  rw [revokeSession, transaction, watched_transaction]
  simp only [bind_eq, pure_eq, send, Prog.query, handle_call]
  refine ⟨fun f => ?_, fun c row hrow => ⟨fun f => ?_, fun c ids hids => ⟨fun f => hfail f, ?_⟩⟩⟩
  · simpa using hfail f
  · simpa using hfail f
  · have hexists : (s.users.find? userId).isSome = true := by
      simp only [exec] at hrow
      split at hrow
      · obtain ⟨u, hu, -⟩ := Option.map_eq_some_iff.1 hrow
        simp [hu]
      · cases hrow
    obtain rfl := Option.some.inj hids
    exact hok hexists

/-- What a logout leaves: the sessions of the user that the access cookie names are revoked, or nothing
    has changed. `failed` says whether a statement failed. -/
def LoggedOut (s : World) (cookieToken : Option Token) (failed : Bool) (s' : World) : Prop :=
  s' = s ∧ (failed = true ∨ ∀ userId, ¬ Names s cookieToken userId) ∨
    failed = false ∧ ∃ userId, Names s cookieToken userId ∧
      (s.users.find? userId).isSome = true ∧ s' = revoked s userId

theorem watched_logout (s : World) (cookieToken : Option Token) :
    (logout cookieToken).watched model everyStmt (fun _ b _ => LoggedOut s cookieToken b)
      (fun _ b _ => LoggedOut s cookieToken b) false none s := by
  cases cookieToken with
  | none =>
      refine .inl ⟨rfl, .inr fun userId h => ?_⟩
      obtain ⟨token, htoken, -⟩ := h
      cases htoken
  | some token =>
      simp only [logout, verify, bind_eq, pure_eq, tryCatch_eq, send, Prog.query, handle_call]
      refine ⟨fun f => .inl ⟨rfl, .inl rfl⟩, fun c payload hpayload => ?_⟩
      obtain rfl := Option.some.inj hpayload
      show watched model everyStmt _ _ _ _ _ s
      by_cases hverified : s.verifies token .JWT_SECRET true = true
      · rw [if_pos hverified]
        show watched model everyStmt (if _ then _ else _) _ _ _ _ _
        rw [watched_ite]
        refine ⟨fun htype => ?_, fun htype => ?_⟩
        · refine .inl ⟨rfl, .inr fun userId h => ?_⟩
          obtain ⟨token', htoken, -, htype', -⟩ := h
          obtain rfl := Option.some.inj htoken
          simp [htype'] at htype
        · rw [watched_handle]
          refine watched_revokeSession (fun f => .inl ⟨rfl, .inl rfl⟩) fun hexists => .inr ⟨rfl, ?_⟩
          exact ⟨_, ⟨token, rfl, hverified, by simpa using htype, rfl⟩, hexists, rfl⟩
      · rw [if_neg hverified]
        refine .inl ⟨rfl, .inr fun userId h => ?_⟩
        obtain ⟨token', htoken, hverified', -⟩ := h
        obtain rfl := Option.some.inj htoken
        exact hverified hverified'

theorem loggedOut_of_alone {s : World} {cookieToken : Option Token}
    {cs : List (Except Failure Choice)} {r : Except Err Unit} {s' : World}
    (hrun : (logout cookieToken).alone (M := model) none s cs = some (r, s')) :
    LoggedOut s cookieToken ((logout cookieToken).failing model everyStmt none s cs) s' := by
  have hends := watched_alone (P := fun _ b => LoggedOut s cookieToken b)
    (watched_logout s cookieToken) hrun
  rwa [Bool.false_or] at hends

/-! ## The session afterwards -/

theorem users_revoked (s : World) (userId id : Id) : (revoked s userId).users.find? id =
    if id = userId then (s.users.find? userId).map revocation.set else s.users.find? id := by
  obtain ⟨-, -, husers⟩ := applyAll_noSession ((s.sessionsOf userId).map (·.id)) userId
    (World.apply (.user userId revocation) s)
  rw [revoked, husers]
  exact Table.find?_modify s.users userId revocation.set revocation.key_set id

theorem mem_sessions_revoked {s : World} {userId : Id} {r : RefreshSession} :
    r ∈ (revoked s userId).refreshSessions ↔ r ∈ s.refreshSessions ∧ r.userId ≠ userId := by
  obtain ⟨hmem, -, -⟩ := applyAll_noSession ((s.sessionsOf userId).map (·.id)) userId
    (World.apply (.user userId revocation) s)
  rw [revoked, hmem]
  refine and_congr_right fun hr => not_congr (and_iff_right_of_imp fun huser => ?_)
  exact List.mem_map.2 ⟨r, List.mem_filter.2 ⟨hr, decide_eq_true huser⟩, rfl⟩

theorem same_tokens_revoked (s : World) (userId : Id) :
    (revoked s userId).minted = s.minted ∧ (revoked s userId).clock = s.clock := by
  refine @Model.applyAll_keeps _ model (fun t => t.minted = s.minted ∧ t.clock = s.clock) _
    (fun w hw t ht => ?_) _ ⟨rfl, rfl⟩
  obtain ⟨id, -, rfl⟩ := List.mem_map.1 hw
  exact ht

/-- A revocation of another user does nothing to a session. -/
theorem LiveSession.revoked_of_ne {s : World} {token : Token} {u : User} {userId : Id}
    (h : LiveSession s token u) (hne : token.payload.sub ≠ userId) :
    LiveSession (revoked s userId) token u := by
  have hid : u.id = token.payload.sub := Table.key_of_find? h.found
  refine { h with verified := ?_, found := ?_, accepted := ?_ }
  · obtain ⟨hminted, hclock⟩ := same_tokens_revoked s userId
    rw [← h.verified, World.verifies, World.verifies, World.seconds, World.seconds, hminted, hclock]
  · rw [users_revoked, if_neg hne, h.found]
  · obtain ⟨r, hr⟩ := List.exists_mem_of_ne_nil _ h.accepted
    obtain ⟨hmem, huser, hjti⟩ := mem_accepting.1 hr
    refine List.ne_nil_of_mem (mem_accepting.2 ⟨mem_sessions_revoked.2 ⟨hmem, ?_⟩, huser, hjti⟩)
    rw [huser, hid]
    exact hne

theorem LiveSession.exchangeable {s : World} {token : Token} {u : User}
    (h : LiveSession s token u) : Exchangeable s token := by
  obtain ⟨cs, r, s', hrun, session, rfl⟩ := h.exchanged
  obtain ⟨db, l, hop, hpool⟩ := exists_run_of_alone hrun
  exact ⟨_, 0, .session session, hpool, ⟨l, some (.ret (.session session))⟩, rfl, rfl, rfl,
    congrArg Op.presents hop⟩

/-- After a revocation of its user no call exchanges the token, for none had read the user before. -/
theorem not_exchangeable_revoked {s : World} {token : Token} {u : User}
    (h : LiveSession s token u) : ¬ Exchangeable (revoked s token.payload.sub) token := by
  rintro ⟨p, i, reply, hrun, haccepts⟩
  have hfound : (revoked s token.payload.sub).users.find? token.payload.sub =
      some (revocation.set u) := by
    rw [users_revoked, if_pos rfl, h.found, Option.map_some]
  obtain ⟨⟨t, u', ht, -⟩, -⟩ := (revoked_version_rejected .refl hrun).2 i reply token .refresh
    haccepts (.inr rfl) (revocation.set u) u.sessionVersion hfound h.version (Nat.lt_succ_self _)
  simp [idle] at ht

/-- **When a logout kills the session.** Take a live session, and a logout that runs to its end. From
    then on no call exchanges the refresh token of the session, if and only if the access cookie was
    there, named the user of the session, and no statement failed. -/
theorem logout_kills_session_iff {s : World} {refreshToken : Token} {u : User}
    (hlive : LiveSession s refreshToken u) {cookieToken : Option Token}
    {cs : List (Except Failure Choice)} {r : Except Err Unit} {s' : World}
    (hrun : (logout cookieToken).alone (M := model) none s cs = some (r, s')) :
    ¬ Exchangeable s' refreshToken ↔ Names s cookieToken refreshToken.payload.sub ∧
      (logout cookieToken).failing model everyStmt none s cs = false := by
  rcases loggedOut_of_alone hrun with ⟨rfl, hnot⟩ | ⟨hok, userId, hnames, -, rfl⟩
  · refine iff_of_false (not_not_intro hlive.exchangeable) fun ⟨hnames, hok⟩ => ?_
    rcases hnot with hfailed | hnobody
    · rw [hok] at hfailed
      cases hfailed
    · exact hnobody _ hnames
  · by_cases hsame : refreshToken.payload.sub = userId
    · subst hsame
      exact iff_of_true (not_exchangeable_revoked hlive) ⟨hnames, hok⟩
    · refine iff_of_false (not_not_intro (hlive.revoked_of_ne hsame).exchangeable) fun h => hsame ?_
      obtain ⟨token, htoken, -, -, hsub⟩ := h.1
      obtain ⟨token', htoken', -, -, hsub'⟩ := hnames
      obtain rfl := Option.some.inj (htoken.symm.trans htoken')
      exact hsub.symm.trans hsub'

/-- The access token that came with the first refresh token. -/
def firstAccess : Token :=
  ⟨accessClaims 1 "jean@get.mg" "STUDENT" 0 true, .JWT_SECRET, 0, 900⟩

/-- The student is signed in, and the access token has expired. -/
def signedInTwice : World := { signedIn with minted := [firstAccess, firstToken], clock := 1000000 }

theorem liveSession_signedInTwice : LiveSession signedInTwice firstToken student where
  verified := by decide
  type := by decide
  found := by decide
  active := by decide
  version := by decide
  role := by decide
  accepted := by decide

/-- A logout with an access token that has expired kills the session. -/
theorem logout_kills_session_expired : ∃ r s',
    (logout (some firstAccess)).alone (M := model) none signedInTwice
        (List.replicate 4 (.ok (.nat 0))) = some (r, s') ∧ ¬ Exchangeable s' firstToken := by
  have hend : ((logout (some firstAccess)).alone (M := model) none signedInTwice
      (List.replicate 4 (.ok (.nat 0)))).isSome = true := by decide +kernel
  obtain ⟨⟨r, s'⟩, hrun⟩ := Option.isSome_iff_exists.1 hend
  refine ⟨r, s', hrun, (logout_kills_session_iff liveSession_signedInTwice hrun).2 ⟨?_, ?_⟩⟩
  · exact ⟨firstAccess, rfl, by decide, by decide, rfl⟩
  · decide +kernel

/-- A logout without the access cookie leaves the session alive. -/
theorem logout_without_access_cookie :
    ¬ ∀ (s : World) (refreshToken : Token) (u : User), LiveSession s refreshToken u →
      ∀ (cookieToken : Option Token) (cs : List (Except Failure Choice)) (r : Except Err Unit)
        (s' : World), (logout cookieToken).alone (M := model) none s cs = some (r, s') →
          ¬ Exchangeable s' refreshToken := by
  intro h
  exact h _ _ _ liveSession_signedInTwice none [] (.ok ()) signedInTwice rfl
    liveSession_signedInTwice.exchangeable

end GetPlatform.Auth
