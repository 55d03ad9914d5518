import GetPlatform.Auth.Issuing
import GetPlatform.Auth.Lockout
import GetPlatform.Auth.Logout

set_option autoImplicit false

/-! # A live refresh token is honoured

A revocation moves the version of the user on and deletes the chains in one transaction, so a token of
the current version has its chain. A reset of the password does the same in two steps: a login between
them opens a chain in the new version, and the second step deletes it. As long as no such chain is
deleted, every token that is in force and was not exchanged is exchanged when it is presented. -/

namespace GetPlatform.Auth

open Pool Prog

/-! ## The condition -/

/-- The user whose chains the call is about to delete outside a transaction. -/
def deleting (t : Thread interface Op Err Reply) : Option Id :=
  match t.trace.tx, t.next? with
  | none, some (.refreshSessionDeleteMany userId) => some userId
  | _, _ => none

/-- The token is a refresh token of the user's current version under `jti`, and has not expired. -/
def inForce (s : World) (u : User) (jti : Id) (token : Token) : Bool :=
  token.secret = .JWT_REFRESH_SECRET ∧ s.seconds < token.exp ∧ token.payload.sub = u.id ∧
    token.payload.sessionVersion = some u.sessionVersion ∧ token.payload.jti = some jti

/-- The call is under way, has read the user in the current version, and has put `jti` in a chain. -/
def openingFor (u : User) (jti : Id) (t : Thread interface Op Err Reply) : Bool :=
  t.running && (t.trace.done.any fun e => opened e = some (u.id, jti)) &&
    t.trace.done.any fun e => (known e).any fun v => v.id = u.id ∧ v.sessionVersion = u.sessionVersion

/-- Only the calls of sessions arrive. And a chain that is deleted outside a transaction is of no use to
    a token in force, nor to a call that is about to sign one. -/
def Spared (p : Platform) : Step model Op → Prop
  | .spawn o => o.ofSessions = true
  | .exec i _ => ∀ t ∈ p.threads[i]?, ∀ userId ∈ deleting t, ∀ u ∈ p.db.users.find? userId,
      ∀ r ∈ p.db.sessionsOf userId, (∀ token ∈ p.db.minted, inForce p.db u r.currentJti token = false) ∧
        ∀ t' ∈ p.threads, openingFor u r.currentJti t' = false
  | _ => True

instance (p : Platform) (a : Step model Op) : Decidable (Spared p a) :=
  match a with
  | .spawn o => inferInstanceAs (Decidable (o.ofSessions = true))
  | .exec .. => by dsimp only [Spared]; infer_instance
  | .fault .. | .crash _ | .env _ => inferInstanceAs (Decidable True)

/-! ## What a token is entitled to -/

/-- If the version is the current one, the `jti` was exchanged, or a chain accepts it. -/
def Served (s : World) (userId : Id) (v : Nat) (jti : Id) : Prop :=
  ∃ u, s.users.find? userId = some u ∧ v ≤ u.sessionVersion ∧
    (v = u.sessionVersion → jti ∈ s.rotated ∨ Live s userId jti)

/-- Every refresh token that has not expired is served, and so will be the one that a call is about to
    sign. -/
structure Honoured (p : Platform) : Prop where
  token : ∀ token, Refreshing p.db token → p.db.seconds < token.exp → ∀ v j,
    token.payload.sessionVersion = some v → token.payload.jti = some j →
      Served p.db token.payload.sub v j
  call : ∀ (i : Nat) (t : Thread interface Op Err Reply), p.threads[i]? = some t → t.running = true →
    ∀ u j, Knows t.trace.done u → Opens t.trace.done u.id j → Served p.db u.id u.sessionVersion j

variable {s s' : World} {userId v jti : Nat}

/-- The `jti` was exchanged, or a chain of the user accepts it. -/
def Kept (s : World) (userId jti : Id) : Prop := jti ∈ s.rotated ∨ Live s userId jti

/-- A statement keeps a `jti`, unless it deletes the chain. -/
theorem Kept.effect {e : Ev} (h : Kept s userId jti) (hc : Chains s) (heffect : Effect s e s')
    (hkept : e.stmt = .refreshSessionDeleteMany userId → ¬ Live s userId jti) :
    Kept s' userId jti := by
  rcases h with hrotated | hchain
  · cases heffect with
    | aside hex hop hdel hrows hrot => exact .inl (hrot ▸ hrotated)
    | create hid htaken hrows hrot hdrawn => exact .inl (hrot ▸ hrotated)
    | rotate hne hids htaken hrows hrot => exact .inl (hrot ▸ .tail _ hrotated)
    | delete hids hrows hrot => exact .inl (hrot ▸ hrotated)
  · obtain ⟨r, hr, huser, hjti, hrev⟩ := hchain
    cases heffect with
    | aside hex hop hdel hrows hrot => exact .inr ⟨r, hrows ▸ hr, huser, hjti, hrev⟩
    | create hid htaken hrows hrot hdrawn =>
        exact .inr ⟨r, (hrows r).2 (.inl hr), huser, hjti, hrev⟩
    | @rotate userId' old newJti ids _ hne hids htaken hrows hrot =>
        obtain ⟨r₁, -, -, -, -, hrows⟩ := mem_rotate_iff hc hne hids hrows
        by_cases heq : r.currentJti = old
        · left
          rw [hrot, ← hjti, heq]
          exact .head _
        · exact .inr ⟨r, (hrows r).2 (.inr ⟨hr, heq⟩), huser, hjti, hrev⟩
    | @delete userId' ids _ hids hrows hrot =>
        have hother : userId' ≠ userId := by
          rintro rfl
          exact hkept rfl ⟨r, hr, huser, hjti, hrev⟩
        refine .inr ⟨r, (hrows r).2 ⟨hr, fun hin => ?_⟩, huser, hjti, hrev⟩
        exact hother (hin.2.symm.trans huser)

/-- A revocation keeps the `jti`s of other users. -/
theorem Kept.view {l : Log} (h : Kept s userId jti) {userId' : Id} {row : User} {ids : List Id}
    (hpending : l.pending = revocationOf userId' row ids) (hother : userId ≠ userId') :
    Kept (l.view model s) userId jti := by
  obtain ⟨hrows, hrot, -⟩ := revocation_effect userId' row ids s
  rw [view_revocation hpending]
  rcases h with hrotated | ⟨r, hr, huser, hjti, hrev⟩
  · exact .inl (hrot ▸ hrotated)
  · refine .inr ⟨r, (hrows r).2 ⟨hr, fun hin => ?_⟩, huser, hjti, hrev⟩
    exact hother (huser.symm.trans hin.2)

/-- A statement leaves what is served as it is, unless it deletes the chain. -/
theorem Served.effect {e : Ev} (h : Served s userId v jti) (hc : Chains s) (heffect : Effect s e s')
    (hlater : Later s s')
    (hkept : ∀ u, s.users.find? userId = some u → u.sessionVersion = v →
      e.stmt = .refreshSessionDeleteMany userId → ¬ Live s userId jti) : Served s' userId v jti := by
  obtain ⟨u, hu, hle, hlive⟩ := h
  obtain ⟨u', hu', hle', -⟩ := hlater userId u hu
  refine ⟨u', hu', Nat.le_trans hle hle', fun heq => ?_⟩
  have hversion : v = u.sessionVersion := by omega
  exact Kept.effect (hlive hversion) hc heffect (hkept u hu hversion.symm)

/-- A revocation makes every token of its user one of an older version. -/
theorem Served.view {l : Log} (h : Served s userId v jti) (hguard : commitGuard l) :
    Served (l.view model s) userId v jti := by
  obtain ⟨userId', row, ids, hpending⟩ := hguard
  obtain ⟨u, hu, hle, hlive⟩ := h
  obtain ⟨u', hu', hle', -⟩ := later_view l s userId u hu
  refine ⟨u', hu', Nat.le_trans hle hle', fun heq => ?_⟩
  have hother : userId ≠ userId' := by
    rintro rfl
    obtain ⟨-, -, husers⟩ := revocation_effect userId row ids s
    rw [view_revocation hpending, husers, hu] at hu'
    have hmoved : u.sessionVersion + 1 = u'.sessionVersion :=
      congrArg User.sessionVersion (Option.some.inj hu')
    omega
  exact Kept.view (hlive (by omega)) hpending hother

/-- What an event opens is accepted. -/
theorem live_of_opened {e : Ev} (hc : Chains s) (heffect : Effect s e s')
    (h : opened e = some (userId, jti)) : Live s' userId jti := by
  cases heffect with
  | aside hex hop hdel hrows hrot =>
      rw [hop] at h
      cases h
  | create hid htaken hrows hrot hdrawn =>
      obtain ⟨rfl, rfl⟩ := Prod.mk.inj (Option.some.inj h)
      exact ⟨_, (hrows _).2 (.inr rfl), rfl, rfl, rfl⟩
  | rotate hne hids htaken hrows hrot =>
      obtain ⟨r₁, -, huser, -, hrev, hrows⟩ := mem_rotate_iff hc hne hids hrows
      have hopened : List.isEmpty _ = false := List.isEmpty_eq_false_iff.2 hne
      simp only [opened, hopened, Bool.false_eq_true, if_false] at h
      obtain ⟨rfl, rfl⟩ := Prod.mk.inj (Option.some.inj h)
      exact ⟨r₁.rotate _, (hrows _).2 (.inl rfl), huser, rfl, hrev⟩
  | delete hids hrows hrot => cases h

/-! ## Every step -/

section Steps

variable {R : Platform → Step model Op → Prop} {s₀ : World} {p p' : Platform}
  {t : Thread interface Op Err Reply} {q : Stmt} {x : Ans q}

theorem placed_of_opened {e : Ev} {userId j : Id} (h : opened e = some (userId, j)) :
    placed e.stmt = some j := by
  obtain ⟨q, x⟩ := e
  cases q with
  | refreshSessionCreate userId' jti =>
      obtain ⟨-, rfl⟩ := Prod.mk.inj (Option.some.inj h)
      rfl
  | refreshSessionUpdateMany userId' jti newJti =>
      simp only [opened] at h
      split at h
      · cases h
      · obtain ⟨-, rfl⟩ := Prod.mk.inj (Option.some.inj h)
        rfl
  | _ => cases h

/-- Whoever knows a user has read it before it opened a chain. -/
theorem knows_opens_push (hrun : Run prog R (idle s₀) p) {i : Nat}
    (ht : p.threads[i]? = some t) (hnext : t.next? = some q) {u : User} {j : Id}
    (hknows : Knows (t.trace.done ++ [⟨q, x⟩]) u) (hopens : Opens (t.trace.done ++ [⟨q, x⟩]) u.id j) :
    Knows t.trace.done u ∧ (Opens t.trace.done u.id j ∨ opened ⟨q, x⟩ = some (u.id, j)) := by
  have hguard : stmtGuard t.trace q := (hrun.sound prog_sound).guard ht hnext
  obtain ⟨e, he, hknown⟩ := hknows
  obtain ⟨e', he', hopened⟩ := hopens
  rw [List.mem_append, List.mem_singleton] at he he'
  rcases he with he | rfl
  · refine ⟨⟨e, he, hknown⟩, ?_⟩
    rcases he' with he' | rfl
    · exact .inl ⟨e', he', hopened⟩
    · exact .inr hopened
  · -- A user is read before any chain is written.
    exfalso
    have hnone : (∀ e ∈ t.trace.done, placed e.stmt = none) ∧ placed q = none := by
      cases q <;> first | exact ⟨hguard.2, rfl⟩ | cases hknown
    have hplaced := placed_of_opened hopened
    rcases he' with he' | rfl
    · rw [hnone.1 e' he'] at hplaced
      cases hplaced
    · rw [hnone.2] at hplaced
      cases hplaced

/-- A token that a step has signed was signed by the call that took the step. -/
theorem served_of_signs (h : Honoured p) (hrun : Run prog R (idle s₀) p) {i : Nat} {c : Choice}
    (ht : p.threads[i]? = some t) (hnext : t.next? = some q) (hexec : exec q c p.db = some x)
    {token : Token} (hsigns : Signs token ⟨q, x⟩) (hsecret : token.secret = .JWT_REFRESH_SECRET)
    {v j : Nat} (hv : token.payload.sessionVersion = some v) (hj : token.payload.jti = some j) :
    Served p.db token.payload.sub v j := by
  obtain ⟨payload, expiresIn, secret, heq⟩ := hsigns
  obtain ⟨rfl, heq⟩ := Event.mk.inj heq
  obtain rfl := eq_of_heq heq
  obtain ⟨-, kind, hkind, -, hrefresh⟩ : stmtGuard t.trace (.jwtSign payload expiresIn secret) :=
    (hrun.sound prog_sound).guard ht hnext
  obtain ⟨hpayload, hsame⟩ := payload_of_sign ⟨c, _, hexec⟩
  have hkind : kind = .refresh := by
    have hsame : kind.secret = .JWT_REFRESH_SECRET := hkind.trans (hsame.symm.trans hsecret)
    cases kind <;> first | rfl | cases hsame
  obtain ⟨u, jti, hknows, hopens, hclaims⟩ := hrefresh hkind
  rw [← hpayload] at hclaims
  obtain ⟨hsub, hversion, hjti⟩ := hclaims
  obtain rfl := Option.some.inj (hversion.symm.trans hv)
  obtain rfl := Option.some.inj (hjti.symm.trans hj)
  rw [hsub]
  exact h.call i t ht (running_of_next hnext) u jti hknows hopens

theorem Honoured.call_step (h : Honoured p) (hc : Chains p.db) (hrun : Run prog R (idle s₀) p)
    {i : Nat} {c : Choice} (hR : Spared p (.exec i c)) {k : Except Failure (Ans q) → Call Reply}
    (ht : p.threads[i]? = some t) (hk : t.rest = some (.call q k)) (htx : t.trace.tx = none)
    (hexec : exec q c p.db = some x) (hrun' : Run prog R (idle s₀) ⟨model.applyAll (writes q x) p.db,
      p.threads.set i ⟨t.trace.push ⟨q, x⟩, some (k (.ok x))⟩⟩) :
    Honoured ⟨model.applyAll (writes q x) p.db,
      p.threads.set i ⟨t.trace.push ⟨q, x⟩, some (k (.ok x))⟩⟩ := by
  have hnext : t.next? = some q := next_of_call hk
  have heffect := effect_of_exec hexec
  have hlater := later_applyAll (writes q x) p.db
  -- A chain that is deleted is of no use to anybody.
  have hspared : ∀ u, p.db.users.find? u.id = some u →
      (⟨q, x⟩ : Ev).stmt = .refreshSessionDeleteMany u.id → ∀ j, Live p.db u.id j →
        (∀ token ∈ p.db.minted, inForce p.db u j token = false) ∧
          ∀ t' ∈ p.threads, openingFor u j t' = false := by
    rintro u hu hq j ⟨r, hr, huser, rfl, -⟩
    refine hR t ht u.id ?_ u hu r (List.mem_filter.2 ⟨hr, by simpa using huser⟩)
    obtain rfl : q = _ := hq
    simp [deleting, htx, hnext]
  constructor
  · intro token htoken hvalid v j hv hj
    have hvalid : p.db.seconds < token.exp := by
      rw [World.seconds, clock_applyAll] at hvalid
      exact hvalid
    rcases mem_minted_applyAll htoken.1 with hold | hsigns
    · refine (h.token token ⟨hold, htoken.2⟩ hvalid v j hv hj).effect hc heffect hlater ?_
      intro u hu hversion hq hlive
      have hid : u.id = token.payload.sub := Table.key_of_find? hu
      rw [← hid] at hu hq hlive
      have hnot := (hspared u hu hq j hlive).1 token hold
      simp [inForce, htoken.2, hvalid, hid, hv, hversion, hj] at hnot
    · have hserved := served_of_signs h hrun ht hnext hexec hsigns htoken.2 hv hj
      refine hserved.effect hc heffect hlater fun u _ _ hq => ?_
      obtain ⟨payload, expiresIn, secret, heq⟩ := hsigns
      obtain ⟨rfl, -⟩ := Event.mk.inj heq
      cases hq
  · intro i' t' ht' hrunning u j hknows hopens
    -- What a call that was under way before the step knew and had opened.
    have hkeep : ∀ {i₀ : Nat} {t₀ : Thread interface Op Err Reply}, p.threads[i₀]? = some t₀ →
        t₀.running = true → Knows t₀.trace.done u → Opens t₀.trace.done u.id j →
          Served (model.applyAll (writes q x) p.db) u.id u.sessionVersion j := by
      intro i₀ t₀ ht₀ hrun₀ hknows hopens
      refine (h.call i₀ t₀ ht₀ hrun₀ u j hknows hopens).effect hc heffect hlater ?_
      intro u' hu' hversion hq hlive
      have hid : u'.id = u.id := Table.key_of_find? hu'
      rw [← hid] at hu' hq hlive
      have hnot := (hspared u' hu' hq j hlive).2 t₀ (List.mem_of_getElem? ht₀)
      obtain ⟨e, he, hknown⟩ := hknows
      obtain ⟨e', he', hopened⟩ := hopens
      refine Bool.eq_false_iff.1 hnot ?_
      simp only [openingFor, hrun₀, Bool.true_and, Bool.and_eq_true, List.any_eq_true]
      exact ⟨⟨e', he', by simp [hopened, hid]⟩, e, he, by simp [hknown, hid, hversion]⟩
    rcases thread_set ht ht' with ⟨rfl, rfl⟩ | ⟨-, hold⟩
    · rw [Trace.push_of_none htx] at hknows hopens
      obtain ⟨hknew, hopens | hnow⟩ := knows_opens_push hrun ht hnext hknows hopens
      · exact hkeep ht (running_of_next hnext) hknew hopens
      · obtain ⟨u', hu', hle, -⟩ := (still_of_knows hrun ht hknew).apply_all (writes q x)
        exact ⟨u', hu', hle, fun _ => .inr (live_of_opened hc heffect hnow)⟩
    · exact hkeep hold hrunning hknows hopens

/-- **What a token is entitled to survives every step** that meets the condition. -/
theorem Honoured.step (h : Honoured p) (hc : Chains p.db) (hrun : Run prog Spared (idle s₀) p)
    {a : Step model Op} (hR : Spared p a) (hs : p.step prog a = some p') : Honoured p' := by
  have hrun' : Run prog Spared (idle s₀) p' := .step hrun hR hs
  -- A call that answers nothing has done what it had done.
  have hset : ∀ {i i' : Nat} {u w t' : Thread interface Op Err Reply}, p.threads[i]? = some u →
      w.trace.done = u.trace.done → (w.running = true → u.running = true) →
        (p.threads.set i w)[i']? = some t' → t'.running = true → ∀ v j, Knows t'.trace.done v →
          Opens t'.trace.done v.id j → Served p.db v.id v.sessionVersion j := by
    intro i i' u w t' hu hdone hback hw hrunning v j hknows hopens
    rcases thread_set hu hw with ⟨rfl, rfl⟩ | ⟨-, hold⟩
    · rw [hdone] at hknows hopens
      exact h.call _ _ hu (hback hrunning) v j hknows hopens
    · exact h.call _ _ hold hrunning v j hknows hopens
  cases taken_of_step hs with
  | spawn o =>
      refine ⟨h.token, fun i t ht hrunning u j hknows hopens => ?_⟩
      rcases thread_append ht with rfl | hold
      · obtain ⟨e, he, -⟩ := hknows
        cases he
      · exact h.call i t hold hrunning u j hknows hopens
  | env n =>
      refine ⟨fun token htoken hvalid => h.token token htoken (Nat.lt_of_le_of_lt ?_ hvalid), h.call⟩
      exact Nat.div_le_div_right (Nat.le_add_right ..)
  | call ht hk htx hx => exact h.call_step hc hrun hR ht hk htx hx hrun'
  | callTx ht hk htx hx =>
      refine ⟨h.token, fun i t hi hrunning => hset ht ?_ (fun _ => ?_) hi hrunning⟩
      · obtain ⟨y, hy⟩ := Option.ne_none_iff_exists'.1 htx
        rw [Trace.push_of_some hy]
      · exact running_of_next (next_of_call hk)
  | @commit i t k c ht hk =>
      have hguard : commitGuard t.trace := ((hrun.sound prog_sound).conforms i t ht _ hk).2.1
      constructor
      · intro token htoken hvalid v j hv hj
        obtain ⟨userId, row, ids, hpending⟩ := hguard
        obtain ⟨hminted, hsecret⟩ := htoken
        rw [minted_view hpending] at hminted
        have hvalid : p.db.seconds < token.exp := by
          rw [World.seconds, Trace.view, Model.replay, clock_applyAll] at hvalid
          exact hvalid
        exact (h.token token ⟨hminted, hsecret⟩ hvalid v j hv hj).view ⟨userId, row, ids, hpending⟩
      · intro i' t' ht' hrunning u j hknows hopens
        refine Served.view ?_ hguard
        rcases thread_set ht ht' with ⟨rfl, rfl⟩ | ⟨-, hold⟩
        · obtain ⟨e, he, hknown⟩ := hknows
          obtain ⟨e', he', hopened⟩ := hopens
          rw [Trace.commit_done, List.mem_append] at he he'
          rcases he with he | he
          · rcases he' with he' | he'
            · exact h.call _ _ ht (by simp [Thread.running, hk]) u j ⟨e, he, hknown⟩ ⟨e', he', hopened⟩
            · rw [(revocation_only hguard he').2.1] at hopened
              cases hopened
          · rw [(revocation_only hguard he).1] at hknown
            cases hknown
        · exact h.call _ _ hold hrunning u j hknows hopens
  | turn _ ht _ hdone hback =>
      exact ⟨h.token, fun i t hi hrunning => hset ht hdone hback hi hrunning⟩

end Steps

/-! ## Presenting a token -/

/-- Presented by itself, the token is exchanged unless a statement fails; and in no case are the
    sessions of the user revoked. -/
def Honours (s : World) (token : Token) : Prop :=
  ∀ (cs : List (Except Failure Choice)) (r : Except Err Session) (s' : World),
    (refreshTokens token).alone (M := model) none s cs = some (r, s') →
      s'.users = s.users ∧ r ≠ .error sessionRevoked ∧
        ((refreshTokens token).failing model everyStmt none s cs = false → ∃ session, r = .ok session)

/-- The exchange finds the chain. -/
theorem exchange_ne_nil {s : World} {userId newJti : Id} {jti : Option Id} {c : Choice} {ids : List Id}
    (h : s.accepting userId jti ≠ [])
    (hexec : exec (.refreshSessionUpdateMany userId jti newJti) c s = some ids) : ids ≠ [] := by
  simp only [exec, List.isEmpty_eq_false_iff.2 h, Bool.false_eq_true, if_false] at hexec
  split at hexec
  · cases hexec
  · rw [← Option.some.inj hexec]
    simpa using h

theorem users_exchange (userId newJti : Id) (jti : Option Id) (ids : List Id) (s : World) :
    (model.applyAll (writes (.refreshSessionUpdateMany userId jti newJti) ids) s).users = s.users := by
  refine @Model.applyAll_keeps _ model (fun s' => s'.users = s.users) _ (fun w hw s' hs' => ?_) s rfl
  cases jti with
  | none => cases hw
  | some jti =>
      simp only [writes] at hw
      split at hw
      · cases hw
      · rcases List.mem_cons.1 hw with rfl | hw
        · exact hs'
        · obtain ⟨id, -, rfl⟩ := List.mem_map.1 hw
          exact hs'

/-- The end of a refresh, and whether a statement has failed on the way. -/
def Ends (s : World) (failed : Bool) (r : Except Err Session) (s' : World) : Prop :=
  s'.users = s.users ∧ r ≠ .error sessionRevoked ∧ (failed = false → ∃ session, r = .ok session)

theorem LiveSession.watched {s : World} {token : Token} {u : User} (h : LiveSession s token u) :
    (refreshTokens token).watched model everyStmt (fun a b _ s' => Ends s b (.ok a) s')
      (fun e b _ s' => Ends s b (.error e) s') false none s := by
  obtain ⟨role, hrole⟩ := Option.isSome_iff_exists.1 h.role
  have hfailed : ∀ {e : Err} {s' : World}, s'.users = s.users → e ≠ sessionRevoked →
      Ends s true (.error e) s' := fun hsame hne => ⟨hsame, by simpa using hne, by simp⟩
  simp only [refreshTokens, verify, bind_eq, pure_eq, throw_eq, tryCatch_eq, send, Prog.query,
    handle_call]
  refine ⟨fun f => hfailed rfl (by simp [sessionRevoked]), fun c payload hpayload => ?_⟩
  obtain rfl := Option.some.inj hpayload
  simp only [h.verified, if_true, handle_ret, h.type, Option.isSome_none, Bool.false_eq_true, if_false]
  refine ⟨fun f => hfailed rfl (by simp [sessionRevoked]), fun c found hfound => ?_⟩
  obtain rfl : some u = found := h.found.symm.trans (Option.some.inj hfound)
  simp only [h.active, h.version, not_true, if_false, ne_eq, rotate, bind_eq, pure_eq, throw_eq, send,
    Prog.query, handle_call, handle_ret]
  refine ⟨fun f => hfailed rfl (by simp [sessionRevoked]), fun c newJti hdraw => ?_⟩
  refine ⟨fun f => hfailed rfl (by simp [sessionRevoked]), fun c ids hids => ?_⟩
  have hne := exchange_ne_nil (s := model.applyAll (writes .randomUUID newJti) s) (c := c) h.accepted
    hids
  have husers := users_exchange u.id newJti token.payload.jti ids
    (model.applyAll (writes .randomUUID newJti) s)
  simp only [List.length_eq_zero_iff, hne, if_false, tokensFor, hrole, generateTokens, bind_eq, pure_eq,
    send, Prog.query, handle_call, handle_ret]
  refine ⟨fun f => hfailed husers (by simp [sessionRevoked]), fun c access _ => ?_⟩
  refine ⟨fun f => hfailed husers (by simp [sessionRevoked]), fun c refresh _ => ?_⟩
  exact ⟨husers, by simp, fun _ => ⟨_, rfl⟩⟩

theorem LiveSession.honours {s : World} {token : Token} {u : User} (h : LiveSession s token u) :
    Honours s token := by
  intro cs r s' hrun
  have hends := watched_alone (P := fun r b s' => Ends s b r s') h.watched hrun
  rwa [Bool.false_or] at hends

/-! ## The law -/

/-- A start in which every refresh token is told by its `jti`, and has what it is entitled to. -/
structure Entitled (s₀ : World) : Prop where
  chains : Chains s₀
  issued : Issued s₀
  served : ∀ token, Refreshing s₀ token → s₀.seconds < token.exp → ∀ v j,
    token.payload.sessionVersion = some v → token.payload.jti = some j →
      Served s₀ token.payload.sub v j

theorem honoured_of_run {s₀ : World} (hs₀ : Entitled s₀) {p : Platform}
    (hrun : Run prog Spared (idle s₀) p) : Honoured p := by
  induction hrun with
  | refl => exact ⟨hs₀.served, by simp [idle]⟩
  | step hrun hR hs ih =>
      have hholds := (rotation_holds hs₀.chains (hrun.mono fun _ _ _ => (trivial : True))).2
      exact ih.step hholds.db hrun hR hs

/-- No call has exchanged the token, before the run or in it; least of all if it was never presented. -/
def NeverExchanged (s₀ : World) (p : Platform) (token : Token) : Prop :=
  ∀ j, token.payload.jti = some j → j ∉ s₀.rotated ∧
    ∀ t ∈ p.threads, t.trace.op = .refreshTokens token → ¬ Exchanges t.trace.done j

/-- **A live refresh token is always honoured**, in a run that deletes no chain of the current version
    outside a transaction. If a token is in force and was never exchanged, a chain accepts it; a call
    that is about to exchange it finds the chain, and one that presents it succeeds. -/
theorem live_token_honoured {s₀ : World} (hs₀ : Entitled s₀) {p : Platform}
    (hrun : Run prog Spared (idle s₀) p) {token : Token} {u : User} (htoken : Refreshing p.db token)
    (hvalid : p.db.seconds < token.exp) (hu : p.db.users.find? token.payload.sub = some u)
    (hactive : u.isActive = true) (hversion : token.payload.sessionVersion = some u.sessionVersion)
    (hnew : NeverExchanged s₀ p token) :
    (∃ jti, token.payload.jti = some jti ∧ Live p.db u.id jti) ∧
    (∀ newJti c ids, exec (.refreshSessionUpdateMany u.id token.payload.jti newJti) c p.db = some ids →
      ids ≠ []) ∧
    Honours p.db token := by
  have hissued := issued_of_run hs₀.issued hs₀.chains (fun _ _ h => h) hrun
  have hid : u.id = token.payload.sub := Table.key_of_find? hu
  obtain ⟨kind, hsecret, hclaims⟩ := hissued.kinds token htoken.1
  obtain ⟨j, hj, htype⟩ : ∃ j, token.payload.jti = some j ∧ token.payload.type = none := by
    have hkind : kind = .refresh := by
      have hsame := hsecret.symm.trans htoken.2
      cases kind <;> first | rfl | cases hsame
    subst hkind
    obtain ⟨_, _, _, _, _, j, hpayload⟩ := hclaims
    exact ⟨j, by rw [hpayload]; rfl, by rw [hpayload]; rfl⟩
  have hlive : Live p.db u.id j := by
    obtain ⟨u', hu', -, hserved⟩ :=
      (honoured_of_run hs₀ hrun).token token htoken hvalid _ j hversion hj
    obtain rfl := Option.some.inj (hu.symm.trans hu')
    rw [hid]
    refine (hserved rfl).resolve_left fun hrotated => ?_
    -- Whoever exchanged the `jti` was presented with this token.
    obtain ⟨hstart, hnone⟩ := hnew j hj
    rcases presented_of_rotated hrun hrotated with hold | ⟨t, token', ht, hop, hj', hspent, htoken'⟩
    · exact hstart hold
    · obtain rfl := hissued.unique token' token htoken' htoken (hj'.trans hj.symm)
      exact hnone t ht hop hspent
  have haccepted : p.db.accepting u.id token.payload.jti ≠ [] := by
    obtain ⟨r, hr, huser, hcurrent, hrev⟩ := hlive
    refine List.ne_nil_of_mem (mem_accepting.2 ⟨hr, huser, ?_, hrev⟩)
    rw [hj, hcurrent]
  refine ⟨⟨j, hj, hlive⟩, fun newJti c ids hexec => exchange_ne_nil haccepted hexec, ?_⟩
  refine LiveSession.honours (u := u) ⟨?_, by rw [htype]; rfl, hu, hactive, hversion, ?_, haccepted⟩
  · exact decide_eq_true ⟨htoken.1, htoken.2, .inr hvalid⟩
  · obtain ⟨v, hv, ⟨u', hu', -, hrole⟩, hsome⟩ := hissued.role token htoken
    obtain rfl := Option.some.inj (hu.symm.trans (hv ▸ hu'))
    rw [hrole]
    exact hsome

/-! ### On an account -/

/-- The student has asked for a new password. -/
def forgetful : World :=
  { World.empty with
    users := .ofList [{ student with
      resetTokenHash := some (sha256Hex "secret"), resetTokenExpiresAt := some 3600000 }]
    drawn := [1] }

theorem entitled_forgetful : Entitled forgetful := by
  have hnone : ∀ token, ¬ Refreshing forgetful token := fun _ h => List.not_mem_nil h.1
  have hchain : ∀ r, r ∉ forgetful.refreshSessions := fun _ => List.not_mem_nil
  refine ⟨⟨fun r hr => absurd hr (hchain r), fun r hr => absurd hr (hchain r), fun j hj => ?_⟩, ⟨?_,
    fun token h => absurd h (hnone token), fun token _ h => absurd h (hnone token),
      fun token h => absurd h (hnone token)⟩, fun token h => absurd h (hnone token)⟩
  · cases hj
  · intro token htoken
    cases htoken

/-- The student resets the password, in the call at place `i`, up to the deletion of the chains. -/
def resetStart (i : Nat) : List (Step model Op) :=
  [.spawn (.resetPassword "secret" "new"), .exec i (.text "hash2")] ++ commands i 4

/-- The student signs in, in the call at place `i`, and is given the `jti` 8. -/
def loginCommands (i : Nat) : List (Step model Op) :=
  [.spawn (.login { email := "jean@get.mg", password := "new" }), .exec i (.nat 0), .exec i (.nat 0),
    .exec i (.flag true), .exec i (.nat 0), .exec i (.nat 0), .exec i (.nat 0), .exec i (.nat 8),
    .exec i (.nat 6), .exec i (.nat 0), .exec i (.nat 0)]

/-- The refresh token of that session. -/
def secondToken : Token :=
  ⟨refreshClaims 1 "jean@get.mg" "STUDENT" 1 true 8, .JWT_REFRESH_SECRET, 0, 604800⟩

/-- The call is presented with a refresh token. -/
def presents (t : Thread interface Op Err Reply) : Bool :=
  match t.trace.op with
  | .refreshTokens _ => true
  | _ => false

/-- The token of the session is in force, and nobody has presented a refresh token. -/
def inUse (p : Platform) : Bool :=
  decide (secondToken ∈ p.db.minted) && decide (p.db.seconds < 604800) &&
    ((p.db.users.find? 1).any fun u => u.isActive && u.sessionVersion = 1) &&
      p.threads.all fun t => !presents t

theorem of_inUse {p : Platform} (h : inUse p = true) : Refreshing p.db secondToken ∧
    p.db.seconds < secondToken.exp ∧ (∃ u, p.db.users.find? secondToken.payload.sub = some u ∧
      u.isActive = true ∧ secondToken.payload.sessionVersion = some u.sessionVersion) ∧
        ∀ t ∈ p.threads, ∀ token, t.trace.op ≠ .refreshTokens token := by
  simp only [inUse, Bool.and_eq_true, decide_eq_true_eq] at h
  obtain ⟨⟨⟨hminted, hvalid⟩, huser⟩, hnone⟩ := h
  obtain ⟨u, hu, huser⟩ := (Option.any_eq_true ..).1 huser
  simp only [Bool.and_eq_true, decide_eq_true_eq] at huser
  refine ⟨⟨hminted, rfl⟩, hvalid, ⟨u, hu, huser.1, by rw [huser.2]; rfl⟩, fun t ht token hop => ?_⟩
  have := List.all_eq_true.1 hnone t ht
  simp [presents, hop] at this

/-- The student resets the password, and signs in: the token of the session is honoured. -/
theorem live_token_honoured_after_reset : ∃ p : Platform, Run prog Spared (idle forgetful) p ∧
    Live p.db 1 8 ∧ Honours p.db secondToken := by
  have hplay : ((idle forgetful : Platform).play prog Spared
      (resetStart 0 ++ commands 0 1 ++ loginCommands 1)).any inUse = true := by decide +kernel
  obtain ⟨p, hrun, huse⟩ := exists_run_of_play hplay
  obtain ⟨hrefreshing, hvalid, ⟨u, hu, hactive, hversion⟩, hnone⟩ := of_inUse huse
  have hnew : NeverExchanged forgetful p secondToken := fun j _ =>
    ⟨List.not_mem_nil, fun t ht hop => absurd hop (hnone t ht _)⟩
  obtain ⟨⟨j, hj, hlive⟩, -, hhonours⟩ := live_token_honoured entitled_forgetful hrun hrefreshing hvalid
    hu hactive hversion hnew
  obtain rfl : 8 = j := Option.some.inj hj
  have hid : u.id = 1 := Table.key_of_find? hu
  exact ⟨p, hrun, hid ▸ hlive, hhonours⟩

/-- The student signs in between the two steps of the reset: the token of the session has lost its
    chain before it was ever presented. -/
theorem not_live_token_honoured :
    ¬ ∀ (s₀ : World) (p : Platform) (token : Token) (u : User), Entitled s₀ →
      Run prog (onlyCalls fun o => o.ofSessions = true) (idle s₀) p → Refreshing p.db token →
        p.db.seconds < token.exp → p.db.users.find? token.payload.sub = some u → u.isActive = true →
          token.payload.sessionVersion = some u.sessionVersion →
            (∀ t ∈ p.threads, ∀ token, t.trace.op ≠ .refreshTokens token) →
              ∃ r ∈ p.db.refreshSessions, token.payload.jti = some r.currentJti := by
  intro hall
  have hplay : ((idle forgetful : Platform).play prog (onlyCalls fun o => o.ofSessions = true)
      (resetStart 0 ++ loginCommands 1 ++ commands 0 1)).any (fun p =>
        inUse p && p.db.refreshSessions.rows.isEmpty) = true := by decide +kernel
  obtain ⟨p, hrun, hend⟩ := exists_run_of_play hplay
  simp only [Bool.and_eq_true] at hend
  obtain ⟨huse, hempty⟩ := hend
  obtain ⟨hrefreshing, hvalid, ⟨u, hu, hactive, hversion⟩, hnone⟩ := of_inUse huse
  obtain ⟨r, hr, -⟩ := hall forgetful p secondToken u entitled_forgetful hrun hrefreshing hvalid hu
    hactive hversion hnone
  rw [Table.mem_def, List.isEmpty_iff.1 hempty] at hr
  cases hr

end GetPlatform.Auth
