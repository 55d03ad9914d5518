import GetPlatform.Auth.Attempts

set_option autoImplicit false

/-! # How many passwords can be tried

One attempt after the other, at most `MAX_LOGIN_ATTEMPTS` wrong passwords are compared within
`LOCK_TIME`, and an attempt on a locked account is refused. Attempts that overlap compare on a counter
that the others have not incremented yet, and there is no bound on their number. -/

namespace GetPlatform.Auth

open Pool Prog

variable {uid : Id} {p p' : Platform}

/-! ## An attempt and the counter it has read -/

/-- What an attempt under way has read of the counter is what the counter is. -/
structure Fits (uid : Id) (s : World) (d : List Ev) : Prop where
  read : ∀ e found, d = [e, ⟨.userFindUnique uid, found⟩] → counter s uid = counterOf found
  late : ∀ e u (n : Nat), d = [e, ⟨.userFindUnique uid, some u⟩, ⟨.now, n⟩] →
    counter s uid = counterOf (some u) ∧ n ≤ s.clock
  free : ∀ dto user, user.id = uid → Checked dto user d → (counter s uid).1 < MAX_LOGIN_ATTEMPTS

/-- At most one attempt is under way, and it knows the counter. -/
structure Orderly (uid : Id) (p : Platform) : Prop where
  one : ∀ i j d e, Attempting uid p i d → Attempting uid p j e → i = j
  fits : ∀ i d, Attempting uid p i d → Fits uid p.db d

theorem snoc_inj {d d' : List Ev} {x y : Ev} (h : d ++ [x] = d' ++ [y]) : d = d' ∧ x = y := by
  obtain ⟨hd, hx⟩ := List.append_inj' h rfl
  exact ⟨hd, List.singleton_inj.1 hx⟩

theorem Attempting.unique {i : Nat} {d d' : List Ev} (h : Attempting uid p i d)
    (h' : Attempting uid p i d') : d = d' := by
  obtain ⟨t, ht, -, rfl⟩ := h
  obtain ⟨t', ht', -, rfl⟩ := h'
  rw [Option.some.inj (ht.symm.trans ht')]

theorem Attempting.id {i : Nat} {dto : LoginDto} {user : User} {d : List Ev}
    (h : Attempting uid p i d) (hchecked : Checked dto user d) : user.id = uid := by
  obtain ⟨⟨⟨o, d₀, tx⟩, k⟩, -, ⟨hat, -⟩, hd⟩ := h
  obtain rfl : d₀ = d := hd
  obtain ⟨d', rfl⟩ := hchecked.head
  obtain ⟨email, user', heq, hid⟩ := head_of_attempted hat
  cases heq
  exact hid

theorem Fits.drifts {s s' : World} {d d' : List Ev} (h : Fits uid s d)
    (hcounter : counter s' uid = counter s uid) (hclock : s.clock ≤ s'.clock)
    (hd : Drifts uid s.clock d d') : Fits uid s' d' := by
  obtain rfl | ⟨x, rfl, ⟨hcompared, hreads, hwrites⟩, hnow⟩ := hd
  · refine ⟨fun e found hd => hcounter.trans (h.read e found hd), fun e u n hd => ?_,
      fun dto user hid hchecked => hcounter ▸ h.free dto user hid hchecked⟩
    obtain ⟨hsame, hle⟩ := h.late e u n hd
    exact ⟨hcounter.trans hsame, Nat.le_trans hle hclock⟩
  · refine ⟨fun e found hd => ?_, fun e u n hd => ?_, fun dto user hid hchecked => ?_⟩
    · obtain ⟨-, rfl⟩ := snoc_inj (show d ++ [x] = [e] ++ [_] from hd)
      simp [readsUser] at hreads
    · obtain ⟨rfl, rfl⟩ := snoc_inj (show d ++ [x] = [e, _] ++ [_] from hd)
      refine ⟨hcounter.trans (h.read e _ rfl), ?_⟩
      rw [hnow n rfl]
      exact hclock
    · -- The event that completes a check reads or writes the counter.
      generalize hd : d ++ [x] = d' at hchecked
      cases hchecked with
      | free found _ =>
          obtain ⟨-, rfl⟩ := snoc_inj (show d ++ [x] = [_] ++ [_] from hd)
          simp [readsUser, hid] at hreads
      | expired u row n _ _ =>
          obtain ⟨-, rfl⟩ := snoc_inj (show d ++ [x] = [_, _, _] ++ [_] from hd)
          cases hwrites

theorem counter_of_find {s : World} {u : User} (h : s.users.find? uid = some u) :
    counter s uid = counterOf (some u) := by
  rw [counter, h]

theorem counter_count {data : UserData} {s : World} {u : User}
    (h : s.users.find? uid = some u) :
    counter (World.apply (.user uid data) s) uid = counterOf (some (data.set u)) := by
  rw [counter_update, if_pos rfl, h]
  rfl

/-- **The counter that an attempt goes by is the counter of the account**, as long as attempts do not
    overlap. -/
theorem Orderly.shift (h : Orderly uid p) (hshift : Shift uid p p') : Orderly uid p' := by
  cases hshift with
  | aside hcounter hclock _ hback _ =>
      refine ⟨fun i j d e hd he => ?_, fun i d' hd' => ?_⟩
      · obtain ⟨d₀, hd₀, -⟩ := hback i d hd
        obtain ⟨e₀, he₀, -⟩ := hback j e he
        exact h.one i j d₀ e₀ hd₀ he₀
      · obtain ⟨d, hd, hdrifts⟩ := hback i d' hd'
        exact (h.fits i d hd).drifts hcounter hclock hdrifts
  | read i e _ hdb _ honly =>
      refine ⟨fun j k d d' hd hd' => (honly j d hd).1.trans (honly k d' hd').1.symm,
        fun j d' hd' => ?_⟩
      obtain ⟨-, rfl⟩ := honly j d' hd'
      refine ⟨fun e' found heq => ?_, fun e' u n heq => by simp at heq,
        fun dto user hid hchecked => ?_⟩
      · simp only [List.cons.injEq, Event.mk.injEq, heq_eq_eq, true_and, and_true] at heq
        rw [counter, hdb, heq.2]
      · -- The check that passes at once found the counter below the limit.
        generalize heq : [e, (⟨.userFindUnique uid, p.db.users.find? uid⟩ : Ev)] = d at hchecked
        cases hchecked with
        | free found hlt =>
            subst hid
            cases heq
            rw [counter, hdb]
            cases hu : p.db.users.find? user.id with
            | none => decide
            | some u => exact hlt u hu
        | expired u row n _ _ => simp at heq
  | compare i dto user d b hchecked _ _ hdb _ honly _ =>
      refine ⟨fun j k e e' he he' => (honly j e he).1.trans (honly k e' he').1.symm,
        fun j d' hd' => ?_⟩
      obtain ⟨-, rfl⟩ := honly j d' hd'
      refine ⟨fun e found heq => ?_, fun e u n heq => ?_, fun dto' user' hid hchecked' => ?_⟩
      · cases (snoc_inj (show d ++ [_] = [e] ++ [_] from heq)).2
      · cases (snoc_inj (show d ++ [_] = [e, _] ++ [_] from heq)).2
      · have := hchecked'.compared _ (List.mem_append_right _ (.head _))
        cases this
  | count i dto d data row hcounts _ _ hdb hfound _ honly =>
      refine ⟨fun j k e e' he he' => (honly j e he).1.trans (honly k e' he').1.symm,
        fun j d' hd' => ?_⟩
      obtain ⟨-, rfl, -⟩ := honly j d' hd'
      refine ⟨fun e found heq => ?_, fun e u n heq => ?_, fun dto' user' hid hchecked' => ?_⟩
      · cases (snoc_inj (show d ++ [_] = [e] ++ [_] from heq)).2
      · cases (snoc_inj (show d ++ [_] = [e, _] ++ [_] from heq)).2
      · -- The check ended with the lock over, and the counter at 0.
        obtain ⟨u, hu⟩ := hfound
        generalize heq : d ++ [(⟨.userUpdate uid data, row⟩ : Ev)] = d' at hchecked'
        cases hchecked' with
        | free found _ => cases (snoc_inj (show d ++ [_] = [_] ++ [_] from heq)).2
        | expired u' row' n _ _ =>
            subst hid
            cases (snoc_inj (show d ++ [_] = [_, _, _] ++ [_] from heq)).2
            rw [hdb, counter_count hu]
            show 0 < MAX_LOGIN_ATTEMPTS
            decide

theorem orderly_of_run {s₀ : World} (hrun : Run prog (OneByOne uid) (idle s₀) p) :
    Orderly uid p := by
  induction hrun with
  | refl =>
      exact ⟨fun i j d e hd => by simp [Attempting, idle] at hd,
        fun i d hd => by simp [Attempting, idle] at hd⟩
  | step hrun hR hs ih => exact ih.shift (shift_of_step hrun hR ih.one hs)

/-! ## The window -/

/-- All but `n` of `k` wrong passwords are on the counter, the last of them since `τ`. -/
structure Noted (τ n k : Nat) (c : Nat × Option Nat) : Prop where
  count : k ≤ n + c.1
  recent : n < k → ∃ m ∈ c.2, τ ≤ m

theorem noted_of_le {τ n k : Nat} {c : Nat × Option Nat} (h : k ≤ n) : Noted τ n k c :=
  ⟨by omega, fun hlt => by omega⟩

/-- An attempt that has compared a wrong password since `τ`, and has yet to write so. -/
structure Pending (uid : Id) (n τ : Nat) (p : Platform) (d : List Ev) : Prop where
  wrong : ∃ e ∈ d, compared e = some false
  noted : Noted τ (n + 1) (comparisons uid false p) (counter p.db uid)
  late : ∀ d₀ (m : Nat), d = d₀ ++ [⟨.now, m⟩] → τ ≤ m

/-- What holds in a window that opens at `τ`, after `n` wrong passwords. -/
structure Window (uid : Id) (n τ : Nat) (p : Platform) : Prop where
  since : τ ≤ p.db.clock
  bound : comparisons uid false p ≤ n + MAX_LOGIN_ATTEMPTS
  compared : ∀ i d, Attempting uid p i d → (∃ e ∈ d, (Auth.compared e).isSome = true) →
    comparisons uid false p ≤ n ∨ Pending uid n τ p d
  tally : Noted τ n (comparisons uid false p) (counter p.db uid) ∨
    ∃ i d, Attempting uid p i d ∧ Pending uid n τ p d

theorem Pending.drifts {n τ : Nat} {d d' : List Ev} (h : Pending uid n τ p d)
    (hsince : τ ≤ p.db.clock) (hcounter : counter p'.db uid = counter p.db uid)
    (hsame : comparisons uid false p' = comparisons uid false p)
    (hd : Drifts uid p.db.clock d d') : Pending uid n τ p' d' := by
  obtain ⟨⟨e, he, hfalse⟩, hnoted, hlate⟩ := h
  rw [← hcounter, ← hsame] at hnoted
  obtain rfl | ⟨x, rfl, -, hnow⟩ := hd
  · exact ⟨⟨e, he, hfalse⟩, hnoted, hlate⟩
  · refine ⟨⟨e, List.mem_append_left _ he, hfalse⟩, hnoted, fun d₀ m heq => ?_⟩
    obtain ⟨-, rfl⟩ := snoc_inj heq
    exact hnow m rfl ▸ hsince

/-- **No step compares one wrong password too many**, in a window without a right one. -/
theorem Window.shift {n τ : Nat} (h : Window uid n τ p) (ho : Orderly uid p)
    (hshift : Shift uid p p') (hclock : p.db.clock ≤ p'.db.clock)
    (hopen : p'.db.clock < τ + LOCK_TIME)
    (hright : comparisons uid true p' = comparisons uid true p) : Window uid n τ p' := by
  have hsince : τ ≤ p'.db.clock := Nat.le_trans h.since hclock
  cases hshift with
  | aside hcounter _ hcomparisons hback hforth =>
      have hsame := hcomparisons false
      refine ⟨hsince, hsame ▸ h.bound, fun i d' hd' hcompared => ?_, ?_⟩
      · obtain ⟨d, hd, hdrifts⟩ := hback i d' hd'
        have hcompared : ∃ e ∈ d, (Auth.compared e).isSome = true := by
          obtain ⟨e, he, hsome⟩ := hcompared
          obtain rfl | ⟨x, rfl, hquiet, -⟩ := hdrifts
          · exact ⟨e, he, hsome⟩
          · rcases List.mem_append.1 he with he | he
            · exact ⟨e, he, hsome⟩
            · rw [List.mem_singleton.1 he, hquiet.1] at hsome
              cases hsome
        rw [hsame]
        exact (h.compared i d hd hcompared).imp_right fun hp =>
          hp.drifts h.since hcounter hsame hdrifts
      · rcases h.tally with hnoted | ⟨i, d, hd, hp⟩
        · rw [← hsame, ← hcounter] at hnoted
          exact .inl hnoted
        · obtain ⟨d', hd', hdrifts⟩ := hforth i d hd hp.wrong
          exact .inr ⟨i, d', hd', hp.drifts h.since hcounter hsame hdrifts⟩
  | read i e hnone hdb hcomparisons honly =>
      have hsame := hcomparisons false
      have hnoted := h.tally.resolve_right (by
        rintro ⟨j, d, hd, -⟩
        exact hnone j d hd)
      refine ⟨hsince, hsame ▸ h.bound, fun j d' hd' hcompared => ?_, .inl ?_⟩
      · -- An attempt that has just read the counter has compared nothing.
        obtain ⟨-, rfl⟩ := honly j d' hd'
        obtain ⟨⟨⟨o, d, tx⟩, k⟩, -, ⟨hat, -⟩, hdone⟩ := hd'
        obtain rfl : d = _ := hdone
        obtain ⟨email, user, rfl, -⟩ := head_of_attempted hat
        obtain ⟨e, he, hsome⟩ := hcompared
        simp only [List.mem_cons, List.not_mem_nil, or_false] at he
        rcases he with rfl | rfl <;> cases hsome
      · rw [hsame, hdb]
        exact hnoted
  | compare i dto user d b hchecked hhere hlone hdb hcomparisons honly hwrong =>
      obtain rfl : b = false := by
        have := hcomparisons true
        cases b
        · rfl
        · simp at this
          omega
      have hsame : comparisons uid false p' = comparisons uid false p + 1 := by
        simpa using hcomparisons false
      -- This attempt is the only one, and has compared nothing before.
      have hnoted := h.tally.resolve_right (by
        rintro ⟨j, d', hd', hp⟩
        obtain rfl := hlone j d' hd'
        obtain ⟨e, he, hfalse⟩ := hp.wrong
        rw [hd'.unique hhere] at he
        rw [hchecked.compared e he] at hfalse
        cases hfalse)
      have hfree : (counter p.db uid).1 < MAX_LOGIN_ATTEMPTS :=
        (ho.fits i d hhere).free dto user (hhere.id hchecked) hchecked
      have hcount := hnoted.count
      have hp : Pending uid n τ p' (d ++ [⟨.bcryptCompare dto.password user.password, false⟩]) := by
        refine ⟨⟨_, List.mem_append_right _ (.head _), rfl⟩, ⟨?_, fun hlt => ?_⟩, fun d₀ m heq => ?_⟩
        · rw [hsame, hdb]
          omega
        · rw [hdb]
          exact hnoted.recent (by omega)
        · cases (snoc_inj heq).2
      refine ⟨hsince, by omega, fun j d' hd' _ => ?_, .inr ⟨i, _, hwrong rfl, hp⟩⟩
      obtain ⟨-, rfl⟩ := honly j d' hd'
      exact .inr hp
  | count i dto d data row hcounts hhere hlone hdb hfound hcomparisons honly =>
      have hsame := hcomparisons false
      obtain ⟨u₀, hu₀⟩ := hfound
      refine ⟨hsince, hsame ▸ h.bound, fun j d' hd' hcompared => ?_, .inl ?_⟩
      · obtain ⟨-, rfl, hnone⟩ := honly j d' hd'
        obtain ⟨e, he, hsome⟩ := hcompared
        rcases List.mem_append.1 he with he | he
        · rw [hnone e he] at hsome
          cases hsome
        · rw [List.mem_singleton.1 he] at hsome
          cases hsome
      · rw [hsame, hdb, counter_count hu₀]
        cases hcounts with
        | expired user u m hid hmax hlocked =>
            -- The lock is over, so there was no wrong password since the window opened.
            subst hid
            obtain ⟨hcounter, hm⟩ := (ho.fits i _ hhere).late _ u m rfl
            refine noted_of_le (Nat.le_of_not_lt fun hlt => hlocked ?_)
            have hnoted := h.tally.resolve_right (by
              rintro ⟨j, d', hd', hp⟩
              obtain rfl := hlone j d' hd'
              obtain ⟨e, he, hfalse⟩ := hp.wrong
              rw [hd'.unique hhere] at he
              simp only [List.mem_cons, List.not_mem_nil, or_false] at he
              rcases he with rfl | rfl | rfl <;> cases hfalse)
            obtain ⟨t, ht, hlast⟩ := hnoted.recent hlt
            rw [hcounter] at ht
            have hpos : 0 < LOCK_TIME := by decide
            exact ⟨hmax, t, ht, by omega⟩
        | right user d hid hchecked =>
            -- The password was right, so none was compared since the window opened.
            have hmem : (⟨.bcryptCompare dto.password user.password, true⟩ : Ev) ∈
                d ++ [⟨.bcryptCompare dto.password user.password, true⟩] :=
              List.mem_append_right _ (.head _)
            rcases h.compared i _ hhere ⟨_, hmem, rfl⟩ with hle | hp
            · exact noted_of_le hle
            · obtain ⟨e, he, hfalse⟩ := hp.wrong
              rcases List.mem_append.1 he with he | he
              · rw [hchecked.compared e he] at hfalse
                cases hfalse
              · rw [List.mem_singleton.1 he] at hfalse
                cases hfalse
        | wrong user d m hid hchecked =>
            rcases h.compared i _ hhere
              ⟨_, List.mem_append_right _ (.head _), rfl⟩ with hle | ⟨-, hnoted, hlate⟩
            · exact noted_of_le hle
            · have hcount := hnoted.count
              rw [counter_of_find hu₀] at hcount
              have hτ : τ ≤ m := hlate (d ++ [_]) m (by rw [List.append_assoc]; rfl)
              refine ⟨?_, fun _ => ⟨m, rfl, hτ⟩⟩
              show _ ≤ n + (u₀.failedLoginAttempts + 1)
              simp only [counterOf] at hcount
              omega

theorem comparisons_le_shift (h : Shift uid p p') (b : Bool) :
    comparisons uid b p ≤ comparisons uid b p' := by
  cases h with
  | aside _ _ hcomparisons => exact Nat.le_of_eq (hcomparisons b).symm
  | read _ _ _ _ hcomparisons => exact Nat.le_of_eq (hcomparisons b).symm
  | compare _ _ _ _ b' _ _ _ _ hcomparisons =>
      have := hcomparisons b
      omega
  | count _ _ _ _ _ _ _ _ _ _ hcomparisons => exact Nat.le_of_eq (hcomparisons b).symm

theorem comparisons_le {s₀ : World} {p₁ p₂ : Platform}
    (h₁ : Run prog (OneByOne uid) (idle s₀) p₁) (h₂ : Run prog (OneByOne uid) p₁ p₂) (b : Bool) :
    comparisons uid b p₁ ≤ comparisons uid b p₂ := by
  induction h₂ with
  | refl => exact Nat.le_refl _
  | step hrun hR hs ih =>
      have hrun := h₁.trans hrun
      exact Nat.le_trans ih
        (comparisons_le_shift (shift_of_step hrun hR (orderly_of_run hrun).one hs) b)

theorem clock_le_step {a : Step model Op} (hs : p.step prog a = some p') :
    p.db.clock ≤ p'.db.clock := by
  have htaken := taken_of_step hs
  cases htaken with
  | env n => exact Nat.le_add_right ..
  | call => exact Nat.le_of_eq (clock_applyAll ..).symm
  | commit => exact Nat.le_of_eq (clock_applyAll ..).symm
  | spawn => exact Nat.le_refl _
  | callTx => exact Nat.le_refl _
  | turn => exact Nat.le_refl _

theorem seconds_le_run {R : Platform → Step model Op → Prop}
    (hrun : Run prog R p p') : p.db.seconds ≤ p'.db.seconds := by
  refine Nat.div_le_div_right ?_
  induction hrun with
  | refl => exact Nat.le_refl _
  | step _ _ hs ih => exact Nat.le_trans ih (clock_le_step hs)

theorem window_of_run {s₀ : World} {p₁ p₂ : Platform}
    (h₁ : Run prog (OneByOne uid) (idle s₀) p₁) (h₂ : Run prog (OneByOne uid) p₁ p₂)
    (hclock : p₂.db.clock < p₁.db.clock + LOCK_TIME)
    (hright : comparisons uid true p₂ = comparisons uid true p₁) :
    Window uid (comparisons uid false p₁) p₁.db.clock p₂ := by
  induction h₂ with
  | refl =>
      exact ⟨Nat.le_refl _, Nat.le_add_right .., fun _ _ _ _ => .inl (Nat.le_refl _),
        .inl (noted_of_le (Nat.le_refl _))⟩
  | step hrun hR hs ih =>
      have hrun' := h₁.trans hrun
      have ho := orderly_of_run hrun'
      have hshift := shift_of_step hrun' hR ho.one hs
      have hle := clock_le_step hs
      have hmono := comparisons_le_shift hshift true
      have hfirst := comparisons_le h₁ hrun true
      exact (ih (by omega) (by omega)).shift ho hshift hle hclock (by omega)

/-! ## Attempts on a locked account -/

/-- Does the event issue a token, an MFA challenge or a session? -/
def issues : Ev → Bool
  | ⟨.jwtSign .., _⟩ => true
  | ⟨.refreshSessionCreate .., _⟩ => true
  | _ => false

/-- What was read of the counter is beyond the limit, and the clock finds the account locked. -/
def Barred (uid : Id) (d : List Ev) : Prop :=
  ∀ e found, [e, ⟨.userFindUnique uid, found⟩] <+: d → ∃ u, found = some u ∧
    MAX_LOGIN_ATTEMPTS ≤ u.failedLoginAttempts ∧
      ∀ n : Nat, [e, ⟨.userFindUnique uid, some u⟩, ⟨.now, n⟩] <+: d → Locked u n

/-- What an attempt does while the account is locked. -/
theorem barred_step {s₀ : World} {a : Step model Op}
    (hrun : Run prog (OneByOne uid) (idle s₀) p) (hlocked : LockedOut uid p.db)
    (hs : p.step prog a = some p') {i : Nat} {t t' : Thread interface Op Err Reply}
    (ht : p.threads[i]? = some t) (ht' : p'.threads[i]? = some t')
    (hat : attempted t'.trace = some uid) (h : Barred uid t.trace.done) :
    Barred uid t'.trace.done := by
  obtain ⟨u₀, hu₀, hlocked⟩ := hlocked
  obtain ⟨t'', ht'', hop, -⟩ := (moves_of_step hs).keeps ht
  obtain rfl := Option.some.inj (ht'.symm.trans ht'')
  rcases (taken_of_step hs).grows ht ht' with hd | ⟨c, q, k, x, -, htx, hk, hx, hd⟩ | ⟨k, hk, -⟩
  · rwa [hd]
  · rw [hd]
    intro e found hpre
    rcases List.prefix_concat_iff.1 hpre with heq | hpre
    · -- The counter is read.
      cases (snoc_inj (show [e] ++ [_] = t.trace.done ++ [_] from heq)).2
      obtain rfl : p.db.users.find? uid = found := by simpa [exec] using hx
      refine ⟨u₀, hu₀, hlocked.1, fun n hlong => ?_⟩
      have hlen := congrArg List.length heq
      have hle := hlong.length_le
      simp only [List.length_append, List.length_cons, List.length_nil] at hlen hle
      omega
    · obtain ⟨u, rfl, hmax, hall⟩ := h e found hpre
      refine ⟨u, rfl, hmax, fun n hlong => ?_⟩
      rcases List.prefix_concat_iff.1 hlong with heq | hlong
      · -- The clock is read, and the counter is still what was read.
        obtain ⟨hdone, hx'⟩ := snoc_inj (show [e, _] ++ [_] = t.trace.done ++ [_] from heq)
        cases hx'
        obtain rfl : p.db.clock = n := by simpa [exec] using hx
        have hat₀ : attempted t.trace = some uid :=
          (attempted_extends hop ⟨_, hd.symm⟩ (by simp [← hdone])).symm.trans hat
        have hrunning : t.running = true := by simp [Thread.running, hk]
        have hhere : Attempting uid p i [e, ⟨.userFindUnique uid, some u⟩] := by
          obtain ⟨⟨o, d, tx⟩, r⟩ := t
          obtain rfl : [e, _] = d := hdone
          obtain ⟨email, user, rfl, -⟩ := head_of_attempted hat₀
          exact ⟨_, ht, ⟨hat₀, ⟨_, .tail _ (.head _), by simp [readsUser]⟩,
            not_settled_of_none (by simp [compared]), .inl hrunning⟩, rfl⟩
        have hcounter := ((orderly_of_run hrun).fits i _ hhere).read e _ rfl
        rw [counter_of_find hu₀] at hcounter
        exact locked_of_counter hcounter hlocked
      · exact hall n hlong
  · obtain ⟨-, hne, -⟩ := (hrun.sound prog_lockout).conforms i t ht _ hk
    obtain ⟨dto, hdto⟩ := login_of_attempted hat
    exact absurd (hop.symm.trans hdto) (hne dto)

/-- An attempt that was barred, and has gone past its check, never passes. -/
theorem not_passed_of_barred {l l' : Log} (hat : attempted l = some uid) (h : Barred uid l.done)
    (hlong : 3 ≤ l.done.length) (hpre : l.done <+: l'.done) {dto : LoginDto}
    (hpassed : Passed dto l'.done) : False := by
  obtain ⟨user, d, hchecked, hd, -⟩ := hpassed
  obtain ⟨o, done, tx⟩ := l
  have hshort : ∀ d' : List Ev, d' <+: l'.done → d'.length ≤ 3 → d' <+: done := fun d' hd' hlen =>
    List.prefix_of_prefix_length_le hd' hpre (Nat.le_trans hlen hlong)
  have hid : user.id = uid := by
    obtain ⟨d', rfl⟩ := hchecked.head
    obtain ⟨rest, hrest⟩ := hshort [_] ((List.prefix_append [_] d').trans hd) (by simp)
    obtain rfl : _ = done := hrest
    obtain ⟨email, user', heq, hid⟩ := head_of_attempted hat
    cases heq
    exact hid
  subst hid
  cases hchecked with
  | free found hlt =>
      obtain ⟨u, rfl, hmax, -⟩ := h _ found (hshort _ hd (by simp))
      exact Nat.lt_irrefl _ (Nat.lt_of_lt_of_le (hlt u rfl) hmax)
  | expired u row n hmax hover =>
      obtain ⟨u', heq, -, hall⟩ := h _ (some u) (hshort _ ((List.prefix_append [_, _] _).trans hd)
        (by simp))
      obtain rfl := Option.some.inj heq
      exact hover (hall n (hshort _ ((List.prefix_append [_, _, _] _).trans hd) (by simp)))

theorem passed_of_issues {s₀ : World} {R : Platform → Step model Op → Prop}
    (hrun : Run prog R (idle s₀) p) {i : Nat} {t : Thread interface Op Err Reply}
    (ht : p.threads[i]? = some t) {dto : LoginDto} (hop : t.trace.op = .login dto) {e : Ev}
    (he : e ∈ t.trace.events) (hissues : issues e = true) :
    Passed dto t.trace.done := by
  obtain ⟨⟨o, d, tx⟩, ho, hpre, hguard, -⟩ := hrun.guarded prog_lockout ht he
  obtain rfl : o = .login dto := ho.trans hop
  obtain ⟨q, x⟩ := e
  have hpassed : Passed dto d := by
    cases q <;> first | exact hguard.2 | cases hissues
  obtain ⟨user, d', hchecked, hd', hmem⟩ := hpassed
  exact ⟨user, d', hchecked, hd'.trans hpre, hpre.subset hmem⟩

theorem barred_of_run {s₀ : World} {p₁ p₂ : Platform} (h₁ : Run prog (OneByOne uid) (idle s₀) p₁)
    (h₂ : Run prog (fun p a => OneByOne uid p a ∧ LockedOut uid p.db) p₁ p₂) {i : Nat}
    (hfresh : ∀ t ∈ p₁.threads[i]?, ∀ e ∈ t.trace.done, readsUser uid e = false)
    {t : Thread interface Op Err Reply} (ht : p₂.threads[i]? = some t)
    (hat : attempted t.trace = some uid) : Barred uid t.trace.done := by
  induction h₂ generalizing t with
  | refl =>
      intro e found hpre
      have := hfresh t ht _ (hpre.subset (.tail _ (.head _)))
      simp [readsUser] at this
  | @step p p' a hrun hR hs ih =>
      have hrun' := h₁.trans (hrun.mono fun _ _ h => h.1)
      intro e found hpre
      -- The call has read the counter, so it was there before the step.
      obtain ⟨u, hu, -⟩ := (taken_of_step hs).done ht (hpre.subset (.head _))
      obtain ⟨t', ht', hop, hdone⟩ := (moves_of_step hs).keeps hu
      obtain rfl := Option.some.inj (ht'.symm.trans ht)
      refine barred_step hrun' hR.2 hs hu ht hat ?_ e found hpre
      by_cases hnil : u.trace.done = []
      · intro e found hpre
        simp [hnil] at hpre
      · exact ih hu ((attempted_extends hop hdone hnil).symm.trans hat)

/-! ## The bound -/

/-- **The lockout holds as long as attempts do not overlap.** In a window shorter than `LOCK_TIME` in
    which no password was right, at most `MAX_LOGIN_ATTEMPTS` wrong ones are compared. And an attempt
    that reads the counter and the clock while the account is locked issues nothing, then or later. -/
theorem lockout_bound {s₀ : World} {p₁ : Platform}
    (h₁ : Run prog (OneByOne uid) (idle s₀) p₁) :
    (∀ p₂, Run prog (OneByOne uid) p₁ p₂ → p₂.db.clock < p₁.db.clock + LOCK_TIME →
      comparisons uid true p₂ = comparisons uid true p₁ →
        comparisons uid false p₂ ≤ comparisons uid false p₁ + MAX_LOGIN_ATTEMPTS) ∧
    ∀ p₂ p₃, Run prog (fun p a => OneByOne uid p a ∧ LockedOut uid p.db) p₁ p₂ →
      Run prog anyStep p₂ p₃ → ∀ (i : Nat) (t₂ t₃ : Thread interface Op Err Reply),
        (∀ t ∈ p₁.threads[i]?, ∀ e ∈ t.trace.done, readsUser uid e = false) →
        p₂.threads[i]? = some t₂ → attempted t₂.trace = some uid → 3 ≤ t₂.trace.done.length →
        p₃.threads[i]? = some t₃ → ∀ e ∈ t₃.trace.events, issues e = false := by
  refine ⟨fun p₂ h₂ hclock hright => (window_of_run h₁ h₂ hclock hright).bound, ?_⟩
  intro p₂ p₃ h₂ h₃ i t₂ t₃ hfresh ht₂ hat hlong ht₃ e he
  have hbarred := barred_of_run h₁ h₂ hfresh ht₂ hat
  obtain ⟨dto, hdto⟩ := login_of_attempted hat
  obtain ⟨t, ht, hop, hpre⟩ := h₃.keeps ht₂
  obtain rfl := Option.some.inj (ht.symm.trans ht₃)
  have hrun : Run prog anyStep (idle s₀) p₃ :=
    ((h₁.mono fun _ _ _ => trivial).trans (h₂.mono fun _ _ _ => trivial)).trans h₃
  cases hissues : issues e with
  | false => rfl
  | true =>
      have hpassed := passed_of_issues hrun ht (hop.trans hdto) he hissues
      exact (not_passed_of_barred hat hbarred hlong hpre hpassed).elim

/-- An attempt on the student's account, the call at place `i`, up to where it has read the
    counter. -/
def attemptStart (i : Nat) : List (Step model Op) :=
  .spawn (.login { email := "jean@get.mg", password := "guess" }) :: commands i 2

/-- The rest of an attempt with a wrong password. -/
def attemptFails (i : Nat) : List (Step model Op) := .exec i (.flag false) :: commands i 2

/-- Five wrong passwords one after the other, and then an attempt that finds the account locked. -/
theorem lockout_bound_locked :
    ∃ (p₁ p₂ : Platform) (t : Thread interface Op Err Reply),
      Run prog (OneByOne 1) (idle signedIn) p₁ ∧ comparisons 1 false p₁ = 5 ∧
        comparisons 1 false p₁ ≤ comparisons 1 false (idle signedIn : Platform) + 5 ∧
          Run prog (fun p a => OneByOne 1 p a ∧ LockedOut 1 p.db) p₁ p₂ ∧
            p₂.threads[5]? = some t ∧ ∀ e ∈ t.trace.events, issues e = false := by
  have hplay : ((idle signedIn : Platform).play prog (OneByOne 1)
      ((List.range 5).flatMap fun i => attemptStart i ++ attemptFails i)).any (fun p₁ =>
        comparisons 1 false p₁ = 5 && comparisons 1 true p₁ = 0 && p₁.db.clock = 0 &&
          (p₁.threads[5]?).isNone &&
            (p₁.play prog (fun p a => OneByOne 1 p a ∧ LockedOut 1 p.db)
              (attemptStart 5 ++ commands 5 1)).any fun p₂ => (p₂.threads[5]?).any fun t =>
                attempted t.trace = some 1 && t.trace.done.length = 3) = true := by
    decide +kernel
  obtain ⟨p₁, h₁, h⟩ := exists_run_of_play hplay
  simp only [Bool.and_eq_true, decide_eq_true_eq, Option.isNone_iff_eq_none] at h
  obtain ⟨⟨⟨⟨hcount, hright⟩, hclock⟩, hnone⟩, h⟩ := h
  obtain ⟨p₂, h₂, h⟩ := exists_run_of_play h
  obtain ⟨t, ht, h⟩ := (Option.any_eq_true ..).1 h
  simp only [Bool.and_eq_true, decide_eq_true_eq] at h
  refine ⟨p₁, p₂, t, h₁, hcount, ?_, h₂, ht, ?_⟩
  · exact (lockout_bound .refl).1 p₁ h₁ (by rw [hclock]; decide) (by rw [hright]; decide)
  · exact (lockout_bound h₁).2 p₂ p₂ h₂ .refl 5 t t (by simp [hnone]) ht h.1 (by omega) ht

/-- Six attempts that all read the counter before the first one has incremented it. -/
theorem not_lockout_bound :
    ¬ ∀ (s₀ : World) (p₁ p₂ : Platform) (uid : Id), Run prog anyStep (idle s₀) p₁ →
      Run prog anyStep p₁ p₂ → p₂.db.clock < p₁.db.clock + LOCK_TIME →
        comparisons uid true p₂ = comparisons uid true p₁ →
          comparisons uid false p₂ ≤ comparisons uid false p₁ + MAX_LOGIN_ATTEMPTS := by
  intro h
  have hplay : ((idle signedIn : Platform).play prog anyStep
      ((List.range 6).flatMap attemptStart ++
        (List.range 6).map fun i => .exec i (.flag false))).any (fun p =>
          comparisons 1 false p = 6 && comparisons 1 true p = 0 && p.db.clock = 0) = true := by
    decide +kernel
  obtain ⟨p, hrun, hp⟩ := exists_run_of_play hplay
  simp only [Bool.and_eq_true, decide_eq_true_eq] at hp
  obtain ⟨⟨hcount, hright⟩, hclock⟩ := hp
  have hle := h signedIn (idle signedIn) p 1 .refl hrun (by rw [hclock]; decide)
    (by rw [hright]; decide)
  rw [hcount] at hle
  exact absurd hle (by decide)

end GetPlatform.Auth
