import GetPlatform.Auth.Lockout

set_option autoImplicit false

/-! # What a revocation leaves of a pending second factor

The challenge of a first login step is a token without a version, and the second step compares none:
after a logout or a change of the password it still opens a session. Nothing of the kind happens where
no challenge of the user is valid, and none is being completed, when the account changes. -/

namespace GetPlatform.Auth

open Pool Prog

/-! ## The condition -/

/-- Was the token signed as a challenge for the user? -/
def challenges (userId : Id) (token : Token) : Bool :=
  token.payload.type = some "mfa_challenge" ∧ token.payload.sub = userId

/-- The call completes a login of the user, and its challenge was found valid. -/
def completing (userId : Id) (t : Thread interface Op Err Reply) : Bool :=
  match t.trace.op with
  | .completeMfaLogin token _ =>
      token.payload.sub = userId && t.running && !t.trace.events.isEmpty
  | _ => false

/-- Every challenge of the user has expired, and none is being completed. -/
def NonePending (p : Platform) (userId : Id) : Prop :=
  (∀ token ∈ p.db.minted, challenges userId token = true → token.exp ≤ p.db.seconds) ∧
    ∀ t ∈ p.threads, completing userId t = false

instance (p : Platform) (userId : Id) : Decidable (NonePending p userId) :=
  inferInstanceAs (Decidable (_ ∧ _))

/-- The version of the user's sessions is incremented between the two states, or the password is
    changed. -/
def Renewed (s s' : World) (userId : Id) : Prop :=
  ∃ u ∈ s.users.find? userId, ∃ u' ∈ s'.users.find? userId,
    u'.sessionVersion ≠ u.sessionVersion ∨ u'.password ≠ u.password

instance (s s' : World) (userId : Id) : Decidable (Renewed s s' userId) :=
  inferInstanceAs (Decidable (∃ _ ∈ _, ∃ _ ∈ _, _))

/-- An account is only renewed when no challenge of it is pending. -/
def Unchallenged (p : Platform) (a : Step model Op) : Prop :=
  ∀ p' ∈ p.step prog a, ∀ u ∈ p.db.users.rows, Renewed p.db p'.db u.id → NonePending p u.id

instance (p : Platform) (a : Step model Op) : Decidable (Unchallenged p a) :=
  inferInstanceAs (Decidable (∀ _ ∈ _, _))

/-! ## What a completed login relies on -/

/-- The call has verified the challenge it was given, and that it is one. -/
def Challenged (l : Log) (token : Token) : Prop :=
  Verified l.done token .mfaChallenge ∧ token.payload.type = some "mfa_challenge"

/-- A statement that opens a session, or signs a token. -/
def opens : Stmt → Bool
  | .jwtSign .. => true
  | .refreshSessionCreate .. => true
  | _ => false

theorem issues_eq_opens (e : Ev) : issues e = opens e.stmt := by
  obtain ⟨q, x⟩ := e
  cases q <;> rfl

/-- A login is completed on a challenge. -/
def challengeGuards : Guards interface Op where
  stmt l q := opens q = true → ∀ token code, l.op = .completeMfaLogin token code →
    Challenged l token
  commit _ := True

section Conformance

variable {token : Token} {code : String} {d : List Ev}

@[simp] theorem challenge_send {q : Stmt} {Q : Log → Ans q → Prop} {E : Log → Err → Prop}
    {l : Log} :
    @Conforms interface model Err (no_index (Ans q)) Op challengeGuards (send q) Q E l ↔
      challengeGuards.stmt l q ∧ (∀ f, E l (.database f)) ∧
        ∀ a, model.Possible q a → Q (l.push ⟨q, a⟩) a := Iff.rfl

/-- Statements that open nothing are free. -/
theorem challengeGuards_of_plain {l : Log} {q : Stmt} (hq : Plain q) : challengeGuards.stmt l q := by
  intro hopens
  cases q <;> first | exact hq.elim | cases hopens

theorem Challenged.append {o : Op} (h : Challenged ⟨o, d, none⟩ token) (d' : List Ev) :
    Challenged ⟨o, d ++ d', none⟩ token :=
  ⟨List.mem_append_left _ h.1, h.2⟩

/-- Once the challenge was verified, the call may send what it does. -/
theorem conforms_of_challenged {α : Type} {P : Stmt → Prop} {p : Call α} (hp : p.Only P)
    (h : Challenged ⟨.completeMfaLogin token code, d, none⟩ token) {Q : Log → α → Prop}
    (hQ : ∀ d' a, Q ⟨.completeMfaLogin token code, d ++ d', none⟩ a) :
    p.Conforms model challengeGuards Q (fun _ _ => True)
      ⟨.completeMfaLogin token code, d, none⟩ := by
  refine hp.conforms_outside (fun d' _ q _ _ token' code' hop => ?_) (fun d' _ a => hQ d' a)
    fun _ _ _ => trivial
  obtain ⟨rfl, -⟩ := Op.completeMfaLogin.inj hop
  exact h.append d'

theorem completeMfaLogin_challenged (token : Token) (code : String) :
    (completeMfaLogin token code).Conforms model challengeGuards (fun _ _ => True)
      (fun _ _ => True) (.start (.completeMfaLogin token code)) := by
  simp only [completeMfaLogin, verify, bind_eq, pure_eq, throw_eq, tryCatch_eq, conforms_handle,
    challenge_send, conforms_ret, handle_fail, conforms_fail, Trace.start_eq, Trace.push_outside,
    List.nil_append, implies_true, true_and]
  refine ⟨challengeGuards_of_plain trivial, fun payload hpayload => ?_⟩
  cases payload with
  | none => trivial
  | some payload =>
      obtain rfl := payload_of_verify hpayload
      simp only [conforms_ite, conforms_fail, conforms_handle, challenge_send, Trace.push_outside,
        implies_true, true_and]
      refine fun htype => ⟨challengeGuards_of_plain trivial, fun found _ => ?_⟩
      cases found with
      | none => trivial
      | some user =>
          have hchallenged : ∀ d', Challenged ⟨.completeMfaLogin token code,
              ⟨.jwtVerify token .JWT_SECRET false, some token.payload⟩ :: d', none⟩ token :=
            fun d' => ⟨List.mem_cons_self, Decidable.not_not.1 htype⟩
          simp only [conforms_ite, conforms_fail, conforms_handle, implies_true, true_and,
            List.cons_append, List.nil_append]
          refine fun _ => conforms_of_challenged (only_verifyCode ..) (hchallenged _) fun d' _ => ?_
          exact fun _ => conforms_of_challenged (issues_openSession ..) (hchallenged _) fun _ _ =>
            trivial

theorem prog_challenged (o : Op) :
    (prog o).Conforms model challengeGuards (fun _ _ => True) (fun _ _ => True) (.start o) := by
  by_cases ho : ∃ token code, o = .completeMfaLogin token code
  · obtain ⟨token, code, rfl⟩ := ho
    exact (conforms_handle ..).2 (completeMfaLogin_challenged token code)
  · refine (prog_sound o).retarget (sends_any _) (fun l hl q _ _ token code hop => ?_)
      fun _ _ => trivial
    exact absurd ⟨token, code, hl.symm.trans hop⟩ ho

end Conformance

/-! ## The law -/

/-- The step is the next one of a call that completes a login with the challenge, and it opens a
    session or signs a token of one. -/
def IssuesFrom (p : Platform) (a : Step model Op) (token : Token) : Prop :=
  ∃ i e t code, p.answering a = some (i, e) ∧ issues e = true ∧ p.threads[i]? = some t ∧
    t.trace.op = .completeMfaLogin token code

/-- The call at a place that is answered is about to send the statement. -/
theorem next_of_answering {p : Platform} {a : Step model Op} {i : Nat} {e : Ev}
    (h : p.answering a = some (i, e)) {t : Thread interface Op Err Reply}
    (ht : p.threads[i]? = some t) : t.next? = some e.stmt := by
  cases a with
  | exec j c =>
      simp only [answering] at h
      split at h
      · cases h
      · next u hu =>
          split at h
          · next q k hk =>
              obtain ⟨x, hx, heq⟩ := Option.map_eq_some_iff.1 h
              cases heq
              obtain rfl := Option.some.inj (hu.symm.trans ht)
              exact next_of_call hk
          · cases h
  | _ => cases h

/-- **No session is opened on a challenge from before the account was renewed**, in a run that never
    renews an account while a challenge of it is pending. -/
theorem challenges_revoked {s₀ : World} {p₁ p₁' p₂ : Platform} {a : Step model Op} {token : Token}
    (h₁ : Run prog Unchallenged (idle s₀) p₁) (ha : Unchallenged p₁ a)
    (hs : p₁.step prog a = some p₁') (hrenewed : Renewed p₁.db p₁'.db token.payload.sub)
    (htoken : token ∈ p₁.db.minted) (h₂ : Run prog Unchallenged p₁' p₂) :
    ∀ b, ¬ IssuesFrom p₂ b token := by
  rintro b ⟨i, e, t, code, hanswering, hissues, ht, hop⟩
  have hfirst : Run prog Unchallenged p₁ p₁' := .step .refl ha hs
  have hwhole := hfirst.trans h₂
  have hrun := h₁.trans hwhole
  -- Nothing was pending when the account was renewed.
  have hnone : NonePending p₁ token.payload.sub := by
    obtain ⟨u, hu, hlater⟩ := hrenewed
    have hid : u.id = token.payload.sub := Table.key_of_find? hu
    exact hid ▸ ha p₁' hs u (Table.mem_of_find? hu) (hid.symm ▸ ⟨u, hu, hlater⟩)
  -- The call has verified the challenge.
  have hnext := next_of_answering hanswering ht
  obtain ⟨hverified, htype⟩ := (hrun.sound prog_challenged).guard ht hnext
    (issues_eq_opens e ▸ hissues) token code hop
  rcases hwhole.answered ht (Trace.mem_events.2 (.inl hverified)) with
    ⟨t₁, ht₁, hold⟩ | ⟨q, tq, hq, hq', htq, hnextq, c, hexec⟩
  · -- It had done so before the account was renewed, so it was not running then.
    obtain ⟨t', ht', hop', -⟩ := hwhole.keeps ht₁
    obtain rfl := Option.some.inj (ht.symm.trans ht')
    have hended : t₁.running = false := by
      have hnot := hnone.2 t₁ (List.mem_of_getElem? ht₁)
      have hsome : t₁.trace.events.isEmpty = false :=
        List.isEmpty_eq_false_iff.2 (List.ne_nil_of_mem hold)
      simpa [completing, hop'.symm.trans hop, hsome] using hnot
    exact Bool.eq_false_iff.1 (hwhole.not_running ht₁ hended ht) (running_of_next hnext)
  · -- It did so afterwards, when the challenge had expired.
    have hguard : stmtGuard tq.trace (.jwtVerify token .JWT_SECRET false) :=
      ((h₁.trans hq).sound prog_sound).guard htq hnextq
    rw [Trace.view_of_none hguard] at hexec
    have hexec := Option.some.inj hexec
    split at hexec
    · next hverifies =>
        obtain ⟨-, -, hvalid⟩ := of_decide_eq_true hverifies
        have hexpired := hnone.1 token htoken (by simp [challenges, htype])
        have hle := seconds_le_run hq
        simp only [Bool.false_eq_true, false_or] at hvalid
        omega
    · cases hexec


/-! ### On an account -/

/-- The student's account, with the second factor on. -/
def secured : World :=
  { World.empty with
    users := .ofList [{ student with mfaEnabled := true, mfaSecret := some "stored" }] }

/-- The student passes the first step of a login, in the call at place `i`. -/
def challengeCommands (i : Nat) : List (Step model Op) :=
  [.spawn (.login { email := "jean@get.mg", password := "secret" }), .exec i (.nat 0),
    .exec i (.nat 0), .exec i (.flag true), .exec i (.nat 0), .exec i (.nat 0)]

/-- The challenge that is signed in the first second. -/
def firstChallenge : Token := ⟨challengeClaims 1 true, .JWT_SECRET, 0, 300⟩

/-- The student's sessions are revoked, in the call at place `i`, up to the commit. -/
def revokeStart (i : Nat) : List (Step model Op) := .spawn (.revokeSession 1) :: commands i 3

/-- The second step of a login, in the call at place `i`, up to where it opens a session. -/
def completeStart (i : Nat) : List (Step model Op) :=
  [.spawn (.completeMfaLogin firstChallenge "123456"), .exec i (.nat 0), .exec i (.nat 0),
    .exec i (.nat 0), .exec i (.text "secret"), .exec i (.flag true), .exec i (.nat 0),
    .exec i (.nat 0), .exec i (.nat 9)]

def renewedCheck (s s' : World) : Bool :=
  decide (Renewed s s' 1) && decide (firstChallenge ∈ s.minted)

/-- The student is logged out after the challenge has expired. -/
theorem challenges_revoked_expired : ∃ p₁ p₁' : Platform,
    Run prog Unchallenged (idle secured) p₁ ∧ p₁.step prog (.exec 1 (.nat 0)) = some p₁' ∧
      firstChallenge ∈ p₁.db.minted ∧ Renewed p₁.db p₁'.db 1 ∧
        ∀ p₂, Run prog Unchallenged p₁' p₂ → ∀ b, ¬ IssuesFrom p₂ b firstChallenge := by
  have hplay : ((idle secured : Platform).play prog Unchallenged
      (challengeCommands 0 ++ .env 300000 :: revokeStart 1)).any (fun p₁ =>
        decide (Unchallenged p₁ (.exec 1 (.nat 0))) &&
          (p₁.step prog (.exec 1 (.nat 0))).any fun p₁' => renewedCheck p₁.db p₁'.db) = true := by
    decide +kernel
  obtain ⟨p₁, h₁, hend⟩ := exists_run_of_play hplay
  simp only [Bool.and_eq_true, decide_eq_true_eq] at hend
  obtain ⟨ha, hstep⟩ := hend
  obtain ⟨p₁', hs, hcheck⟩ := (Option.any_eq_true ..).1 hstep
  simp only [renewedCheck, Bool.and_eq_true, decide_eq_true_eq] at hcheck
  obtain ⟨hrenewed, hminted⟩ := hcheck
  exact ⟨p₁, p₁', h₁, hs, hminted, hrenewed, fun p₂ h₂ =>
    challenges_revoked h₁ ha hs hrenewed hminted h₂⟩

/-- The student is logged out after the first step of a login, and the second step opens a session. -/
theorem not_challenges_revoked :
    ¬ ∀ (s₀ : World) (p₁ p₁' p₂ : Platform) (a b : Step model Op) (token : Token),
        Run prog anyStep (idle s₀) p₁ → p₁.step prog a = some p₁' →
          Renewed p₁.db p₁'.db token.payload.sub → token ∈ p₁.db.minted →
            Run prog anyStep p₁' p₂ → ¬ IssuesFrom p₂ b token := by
  intro hall
  have hplay : ((idle secured : Platform).play prog anyStep
      (challengeCommands 0 ++ revokeStart 1)).any (fun p₁ =>
        (p₁.step prog (.exec 1 (.nat 0))).any fun p₁' => renewedCheck p₁.db p₁'.db &&
          (p₁'.play prog anyStep (completeStart 2)).any fun p₂ =>
            (p₂.answering (.exec 2 (.nat 10))).any (fun x => x.1 = 2 && issues x.2) &&
              (p₂.threads[2]?).any fun t => match t.trace.op with
                | .completeMfaLogin token _ => token = firstChallenge
                | _ => false) = true := by
    decide +kernel
  obtain ⟨p₁, h₁, hend⟩ := exists_run_of_play hplay
  obtain ⟨p₁', hs, hend⟩ := (Option.any_eq_true ..).1 hend
  simp only [renewedCheck, Bool.and_eq_true, decide_eq_true_eq] at hend
  obtain ⟨⟨hrenewed, hminted⟩, hend⟩ := hend
  obtain ⟨p₂, h₂, hend⟩ := exists_run_of_play hend
  simp only [Bool.and_eq_true] at hend
  obtain ⟨hanswers, hcall⟩ := hend
  obtain ⟨⟨i, e⟩, hanswering, he⟩ := (Option.any_eq_true ..).1 hanswers
  obtain ⟨t, ht, hop⟩ := (Option.any_eq_true ..).1 hcall
  simp only [Bool.and_eq_true, decide_eq_true_eq] at he
  obtain ⟨rfl, hissues⟩ := he
  split at hop
  · next token code heq =>
      obtain rfl := of_decide_eq_true hop
      exact hall secured p₁ p₁' p₂ _ _ firstChallenge h₁ hs hrenewed hminted h₂
        ⟨2, e, t, code, hanswering, hissues, ht, heq⟩
  · cases hop

end GetPlatform.Auth
