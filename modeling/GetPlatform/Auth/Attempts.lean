import GetPlatform.Auth.Counters

set_option autoImplicit false

/-! # Attempts to log in

An attempt reads the counter of failed logins, compares the password, and then increments or resets
the counter, each in a statement of its own. `Shift` lists what a step can be to the attempts on one
account, as long as no two of them overlap. -/

namespace GetPlatform.Auth

open Pool Prog

/-! ## Attempts -/

/-- The outcome of a comparison of a password. -/
def compared : Ev → Option Bool
  | ⟨.bcryptCompare .., b⟩ => some b
  | _ => none

@[simp] theorem compared_bcryptCompare (password : String) (hash : Hash) (b : Bool) :
    compared ⟨.bcryptCompare password hash, b⟩ = some b := rfl

@[simp] theorem compared_userFindUnique (id : Id) (found : Option User) :
    compared ⟨.userFindUnique id, found⟩ = none := rfl

@[simp] theorem compared_userUpdate (id : Id) (data : UserData) (row : User) :
    compared ⟨.userUpdate id data, row⟩ = none := rfl

def foundByEmail : Ev → Option User
  | ⟨.userFindUniqueByEmail _, found⟩ => found
  | _ => none

/-- Does the event read the user `uid`, as `checkLoginAttempts` does? -/
def readsUser (uid : Id) : Ev → Bool
  | ⟨.userFindUnique id, _⟩ => id = uid
  | _ => false

/-- Does the event write the counter of failed logins? -/
def writesCounter : Ev → Bool
  | ⟨.userUpdate _ data, _⟩ => data.failedLoginAttempts.isSome
  | _ => false

/-- The account a login is about, once it was found by its address. -/
def attempted (l : Log) : Option Id :=
  match l.op with
  | .login _ => (l.done.head?.bind foundByEmail).map (·.id)
  | _ => none

/-- The call has compared its password, and has written the counter accordingly. -/
def Settled (es : List Ev) : Prop :=
  ∃ e ∈ es.dropWhile fun e => compared e = none, writesCounter e = true

instance (es : List Ev) : Decidable (Settled es) :=
  inferInstanceAs (Decidable (∃ e ∈ es.dropWhile fun e => compared e = none, _))

/-- An attempt on the account `uid` is under way: it has read the counter and has not written it
    after its comparison. One that was cut after comparing a wrong password stays under way. -/
def UnderWay (uid : Id) (t : Thread interface Op Err Reply) : Prop :=
  attempted t.trace = some uid ∧ (∃ e ∈ t.trace.done, readsUser uid e = true) ∧
    ¬ Settled t.trace.done ∧ (t.running = true ∨ ∃ e ∈ t.trace.done, compared e = some false)

instance (uid : Id) (t : Thread interface Op Err Reply) : Decidable (UnderWay uid t) :=
  inferInstanceAs (Decidable (_ ∧ (∃ e ∈ t.trace.done, _) ∧ _ ∧
    (_ ∨ ∃ e ∈ t.trace.done, _)))

/-- Is the call a login that is about to read the counter of `uid`? -/
def readsCounter (uid : Id) (t : Thread interface Op Err Reply) : Bool :=
  match t.trace.op, t.next? with
  | .login _, some (.userFindUnique id) => id = uid
  | _, _ => false

/-- Attempts on the account do not overlap: when one reads the counter, no other one is under way. -/
def OneByOne (uid : Id) (p : Platform) : Step model Op → Prop
  | .exec i _ => ∀ t ∈ p.threads[i]?, readsCounter uid t = true →
      ∀ j < p.threads.length, j ≠ i → ∀ u ∈ p.threads[j]?, ¬ UnderWay uid u
  | _ => True

instance (uid : Id) (p : Platform) (a : Step model Op) : Decidable (OneByOne uid p a) := by
  cases a <;> unfold OneByOne <;> infer_instance

/-- The comparisons with outcome `b` that the call has made in an attempt on `uid`. -/
def tries (uid : Id) (b : Bool) (l : Log) : Nat :=
  if attempted l = some uid then l.done.countP fun e => compared e = some b else 0

/-- The comparisons with outcome `b` in all attempts on `uid` so far. -/
def comparisons (uid : Id) (b : Bool) (p : Platform) : Nat :=
  (p.threads.map fun t => tries uid b t.trace).sum

/-- The account is locked. -/
def LockedOut (uid : Id) (s : World) : Prop := ∃ u ∈ s.users.find? uid, Locked u s.clock

instance (uid : Id) (s : World) : Decidable (LockedOut uid s) :=
  inferInstanceAs (Decidable (∃ u ∈ s.users.find? uid, _))

/-! ## What a login has done before each statement -/

/-- The events of a login whose check has passed: the counter was below the limit, or the lock was
    over and the counter was reset. -/
inductive Checked (dto : LoginDto) (user : User) : List Ev → Prop
  | free (found : Option User) : (∀ u ∈ found, u.failedLoginAttempts < MAX_LOGIN_ATTEMPTS) →
      Checked dto user
        [⟨.userFindUniqueByEmail dto.email, some user⟩, ⟨.userFindUnique user.id, found⟩]
  | expired (u row : User) (n : Nat) : MAX_LOGIN_ATTEMPTS ≤ u.failedLoginAttempts → ¬ Locked u n →
      Checked dto user
        [⟨.userFindUniqueByEmail dto.email, some user⟩, ⟨.userFindUnique user.id, some u⟩,
          ⟨.now, n⟩, ⟨.userUpdate user.id noFailedAttempts, row⟩]

/-- `{ failedLoginAttempts: { increment: 1 }, lastFailedLoginAt: new Date() }`. -/
def oneMoreFailed (n : Nat) : UserData :=
  { failedLoginAttempts := some .increment, lastFailedLoginAt := some (some n) }

/-- When a login, having done `d`, writes the counter of user `id`. -/
inductive Counts (dto : LoginDto) (id : Id) : List Ev → UserData → Prop
  | expired (user u : User) (n : Nat) : id = user.id →
      MAX_LOGIN_ATTEMPTS ≤ u.failedLoginAttempts → ¬ Locked u n →
      Counts dto id [⟨.userFindUniqueByEmail dto.email, some user⟩,
        ⟨.userFindUnique user.id, some u⟩, ⟨.now, n⟩] noFailedAttempts
  | right (user : User) (d : List Ev) : id = user.id → Checked dto user d →
      Counts dto id (d ++ [⟨.bcryptCompare dto.password user.password, true⟩]) noFailedAttempts
  | wrong (user : User) (d : List Ev) (n : Nat) : id = user.id → Checked dto user d →
      Counts dto id (d ++ [⟨.bcryptCompare dto.password user.password, false⟩, ⟨.now, n⟩])
        (oneMoreFailed n)

/-- The check has passed, and the password was right. -/
def Passed (dto : LoginDto) (d : List Ev) : Prop :=
  ∃ user d', Checked dto user d' ∧ d' <+: d ∧
    (⟨.bcryptCompare dto.password user.password, true⟩ : Ev) ∈ d

def loginGuard (dto : LoginDto) (d : List Ev) : Stmt → Prop
  | .userFindUnique id =>
      ∃ user, d = [⟨.userFindUniqueByEmail dto.email, some user⟩] ∧ id = user.id
  | .bcryptCompare password hash =>
      (∃ e, d = [⟨.userFindUniqueByEmail dto.email, none⟩, e]) ∨
        ∃ user, Checked dto user d ∧ password = dto.password ∧ hash = user.password
  | .userUpdate id data => data.Mild ∨ Counts dto id d data
  | .userUpdateManyByResetToken .. => False
  | .jwtSign .. => Passed dto d
  | .refreshSessionCreate .. => Passed dto d
  | _ => True

def lockoutGuard (l : Log) (q : Stmt) : Prop :=
  match l.op with
  | .login dto => l.tx = none ∧ loginGuard dto l.done q
  | _ => Mild q

def lockoutGuards : Guards interface Op where
  stmt := lockoutGuard
  commit l := ∀ dto, l.op ≠ .login dto

section Conformance

@[simp] theorem lockout_send {dto : LoginDto} {d : List Ev} {q : Stmt} {Q : Log → Ans q → Prop}
    {E : Log → Err → Prop} :
    @Conforms interface model Err (no_index (Ans q)) Op lockoutGuards (send q) Q E
        ⟨.login dto, d, none⟩ ↔
      loginGuard dto d q ∧ (∀ f, E ⟨.login dto, d, none⟩ (.database f)) ∧
        ∀ a, model.Possible q a → Q ⟨.login dto, d ++ [⟨q, a⟩], none⟩ a :=
  and_congr_left' (and_iff_right rfl)

variable {dto : LoginDto} {d : List Ev}

/-- A part of a login that only signs, opens a session and notes the login. -/
def Issues : Stmt → Prop
  | .now => True
  | .randomUUID => True
  | .userUpdate _ data => data.Mild
  | .jwtSign .. => True
  | .refreshSessionCreate .. => True
  | _ => False

theorem issues_issueTokens (user : User) (rememberMe : Bool) :
    (issueTokens user rememberMe).Only Issues := by
  simp only [issueTokens, tokensFor, bind_eq, only_send_handle, only_fail, implies_true, and_true]
  refine ⟨trivial, fun jti => ⟨trivial, fun _ => ?_⟩⟩
  cases user.role <;> simp [generateTokens, Issues]

theorem issues_openSession (user : User) (rememberMe : Bool) :
    (openSession user rememberMe).Only Issues := by
  simp only [openSession, bind_eq, pure_eq, only_send_handle, only_fail, implies_true, and_true]
  exact ⟨trivial, fun now => ⟨⟨rfl, rfl⟩, fun _ =>
    (issues_issueTokens ..).handle (fun _ => trivial) fun _ => trivial⟩⟩

/-- Once the password was found right, the rest of a login may send what it does. -/
theorem conforms_of_passed {α : Type} {p : Call α} (hp : p.Only Issues) (hpassed : Passed dto d) :
    p.Conforms model lockoutGuards (fun _ _ => True) (fun _ _ => True)
      ⟨.login dto, d, none⟩ := by
  refine hp.conforms_outside (fun d' _ q hq => ⟨rfl, ?_⟩) (fun _ _ _ => trivial)
    fun _ _ _ => trivial
  obtain ⟨user, d₀, hchecked, hpre, hmem⟩ := hpassed
  have hpassed' : Passed dto (d ++ d') :=
    ⟨user, d₀, hchecked, hpre.trans (List.prefix_append ..), List.mem_append_left _ hmem⟩
  cases q <;> first | exact hq.elim | exact hpassed' | exact .inl hq | trivial

theorem passed_append {user : User} (hchecked : Checked dto user d) (d' : List Ev) :
    Passed dto (d ++ ⟨.bcryptCompare dto.password user.password, true⟩ :: d') :=
  ⟨user, d, hchecked, List.prefix_append .., by simp⟩

/-- What `checkLoginAttempts` leaves is a check that has passed. -/
theorem checkLoginAttempts_lockout {user : User} {Q : Log → Unit → Prop}
    (hQ : ∀ d, Checked dto user d → Q ⟨.login dto, d, none⟩ ()) :
    (checkLoginAttempts user.id).Conforms model lockoutGuards Q (fun _ _ => True)
      ⟨.login dto, [⟨.userFindUniqueByEmail dto.email, some user⟩], none⟩ := by
  simp only [checkLoginAttempts, bind_eq, pure_eq, throw_eq, conforms_handle, lockout_send,
    conforms_fail, List.cons_append, List.nil_append, implies_true, true_and]
  refine ⟨⟨user, rfl, rfl⟩, fun found _ => ?_⟩
  cases found with
  | none => exact hQ _ (.free none (by simp))
  | some u =>
      simp only [conforms_handle, lockout_send, conforms_fail, conforms_ret, conforms_ite,
        List.cons_append, List.nil_append, implies_true, true_and]
      refine ⟨fun hmax => ⟨trivial, fun n _ => fun hlocked => ⟨.inr ?_, fun row _ => ?_⟩⟩,
        fun hfree => hQ _ (.free (some u) ?_)⟩
      · exact .expired user u n rfl hmax hlocked
      · exact hQ _ (.expired u row n hmax hlocked)
      · rintro u' ⟨⟩
        omega

theorem login_lockout (dto : LoginDto) :
    (login dto).Conforms model lockoutGuards (fun _ _ => True) (fun _ _ => True)
      (.start (.login dto)) := by
  simp only [login, bind_eq, pure_eq, throw_eq, conforms_handle, lockout_send, conforms_fail,
    Trace.start_eq, List.nil_append, implies_true, true_and]
  refine ⟨trivial, fun found _ => ?_⟩
  cases found with
  | none =>
      simp only [rejectUnknown, bind_eq, throw_eq, conforms_handle, lockout_send, conforms_fail,
        conforms_ite, List.cons_append, List.nil_append, implies_true, true_and, and_true]
      exact ⟨trivial, fun pending _ => .inl ⟨_, rfl⟩⟩
  | some user =>
      simp only [conforms_handle]
      refine checkLoginAttempts_lockout fun d hchecked => ?_
      simp only [incrementLoginAttempts, resetLoginAttempts, bind_eq, pure_eq, conforms_handle,
        lockout_send, conforms_fail, conforms_ret, conforms_ite, List.append_assoc,
        List.cons_append, List.nil_append, implies_true, true_and, and_true]
      refine ⟨.inr ⟨user, hchecked, rfl, rfl⟩, fun b _ => ⟨fun hwrong => ⟨trivial, fun n _ =>
        .inr ?_⟩, fun hright => ⟨.inr ?_, fun row _ => ⟨fun _ => ?_, fun _ => ?_⟩⟩⟩⟩
      · obtain rfl : b = false := by simpa using hwrong
        exact .wrong user d n rfl hchecked
      · simp only [Bool.not_eq_true, Bool.not_eq_false] at hright
        exact hright ▸ .right user d rfl hchecked
      · simp only [Bool.not_eq_true, Bool.not_eq_false] at hright
        exact hright ▸ passed_append hchecked _
      · simp only [Bool.not_eq_true, Bool.not_eq_false] at hright
        exact conforms_of_passed (issues_openSession ..) (hright ▸ passed_append hchecked _)

theorem prog_lockout (o : Op) :
    (prog o).Conforms model lockoutGuards (fun _ _ => True) (fun _ _ => True) (.start o) := by
  by_cases ho : ∃ dto, o = .login dto
  · obtain ⟨dto, rfl⟩ := ho
    exact (conforms_handle ..).2 <| login_lockout dto
  · have ho' : ∀ dto, o ≠ .login dto := fun dto h => ho ⟨dto, h⟩
    refine (prog_sound o).retarget (mild_prog ho') ?_ fun l hl dto => hl ▸ ho' dto
    rintro ⟨o', d, tx⟩ rfl q hq
    cases o' <;> first | exact hq | exact absurd rfl (ho' _)

end Conformance

/-! ## What a step is to the attempts on an account -/

section Steps

variable {uid : Id} {p p' : Platform}

/-- The call at place `i` is an attempt on `uid` that is under way, and has done `d`. -/
def Attempting (uid : Id) (p : Platform) (i : Nat) (d : List Ev) : Prop :=
  ∃ t, p.threads[i]? = some t ∧ UnderWay uid t ∧ t.trace.done = d

/-- An event that neither compares a password, nor reads or writes a counter. -/
def Quiet (uid : Id) (e : Ev) : Prop :=
  compared e = none ∧ readsUser uid e = false ∧ writesCounter e = false

/-- `d'` is `d`, or one quiet event longer; a clock that was read stood at `n`. -/
def Drifts (uid : Id) (n : Nat) (d d' : List Ev) : Prop :=
  d' = d ∨ ∃ e, d' = d ++ [e] ∧ Quiet uid e ∧ ∀ m : Nat, e = ⟨.now, m⟩ → m = n

/-- The attempt at place `i` is the only one under way. -/
def Lone (uid : Id) (p : Platform) (i : Nat) : Prop := ∀ j d, Attempting uid p j d → j = i

/-- What a step can be to the attempts on `uid`. -/
inductive Shift (uid : Id) (p p' : Platform) : Prop
  | aside : counter p'.db uid = counter p.db uid → p.db.clock ≤ p'.db.clock →
      (∀ b, comparisons uid b p' = comparisons uid b p) →
      (∀ i d', Attempting uid p' i d' →
        ∃ d, Attempting uid p i d ∧ Drifts uid p.db.clock d d') →
      (∀ i d, Attempting uid p i d → (∃ e ∈ d, compared e = some false) →
        ∃ d', Attempting uid p' i d' ∧ Drifts uid p.db.clock d d') → Shift uid p p'
  | read (i : Nat) (e : Ev) : (∀ j d, ¬ Attempting uid p j d) → p'.db = p.db →
      (∀ b, comparisons uid b p' = comparisons uid b p) →
      (∀ j d', Attempting uid p' j d' →
        j = i ∧ d' = [e, ⟨.userFindUnique uid, p.db.users.find? uid⟩]) → Shift uid p p'
  | compare (i : Nat) (dto : LoginDto) (user : User) (d : List Ev) (b : Bool) :
      Checked dto user d → Attempting uid p i d → Lone uid p i → p'.db = p.db →
      (∀ b', comparisons uid b' p' = comparisons uid b' p + if b = b' then 1 else 0) →
      (∀ j d', Attempting uid p' j d' →
        j = i ∧ d' = d ++ [⟨.bcryptCompare dto.password user.password, b⟩]) →
      (b = false →
        Attempting uid p' i (d ++ [⟨.bcryptCompare dto.password user.password, b⟩])) →
      Shift uid p p'
  | count (i : Nat) (dto : LoginDto) (d : List Ev) (data : UserData) (row : User) :
      Counts dto uid d data → Attempting uid p i d → Lone uid p i →
      p'.db = World.apply (.user uid data) p.db → (∃ u, p.db.users.find? uid = some u) →
      (∀ b, comparisons uid b p' = comparisons uid b p) →
      (∀ j d', Attempting uid p' j d' → j = i ∧ d' = d ++ [⟨.userUpdate uid data, row⟩] ∧
        ∀ e ∈ d, compared e = none) → Shift uid p p'

/-! ### One call replaced -/

theorem attempting_set {s : World} {i j : Nat} {t u : Thread interface Op Err Reply}
    {d : List Ev} (ht : p.threads[i]? = some t)
    (h : Attempting uid ⟨s, p.threads.set i u⟩ j d) :
    (j = i ∧ UnderWay uid u ∧ u.trace.done = d) ∨ (j ≠ i ∧ Attempting uid p j d) := by
  obtain ⟨v, hv, hway, hd⟩ := h
  rcases thread_set ht hv with ⟨rfl, rfl⟩ | ⟨hj, hv⟩
  · exact .inl ⟨rfl, hway, hd⟩
  · exact .inr ⟨hj, v, hv, hway, hd⟩

theorem attempting_set_self {s : World} {i : Nat} {t u : Thread interface Op Err Reply}
    (ht : p.threads[i]? = some t) (hu : UnderWay uid u) :
    Attempting uid ⟨s, p.threads.set i u⟩ i u.trace.done :=
  ⟨u, List.getElem?_set_self (List.getElem?_eq_some_iff.1 ht).1, hu, rfl⟩

theorem attempting_set_ne {s : World} {i j : Nat} {u : Thread interface Op Err Reply}
    {d : List Ev} (hj : j ≠ i) (h : Attempting uid p j d) :
    Attempting uid ⟨s, p.threads.set i u⟩ j d := by
  obtain ⟨v, hv, hway, hd⟩ := h
  exact ⟨v, by rwa [List.getElem?_set_ne (Ne.symm hj)], hway, hd⟩

theorem comparisons_set {s : World} {i : Nat} {t u : Thread interface Op Err Reply} {b : Bool}
    (ht : p.threads[i]? = some t) :
    comparisons uid b ⟨s, p.threads.set i u⟩ + tries uid b t.trace =
      comparisons uid b p + tries uid b u.trace :=
  sum_map_set (fun t => tries uid b t.trace) ht

/-- A call is replaced by one that says nothing new of passwords and counters. -/
theorem shift_aside {s : World} {i : Nat} {t u : Thread interface Op Err Reply}
    (ht : p.threads[i]? = some t) (hcounter : counter s uid = counter p.db uid)
    (hclock : p.db.clock ≤ s.clock) (htries : ∀ b, tries uid b u.trace = tries uid b t.trace)
    (hback : UnderWay uid u → UnderWay uid t)
    (hforth : UnderWay uid t → (∃ e ∈ t.trace.done, compared e = some false) → UnderWay uid u)
    (hdone : UnderWay uid t → Drifts uid p.db.clock t.trace.done u.trace.done) :
    Shift uid p ⟨s, p.threads.set i u⟩ := by
  refine .aside hcounter hclock (fun b => ?_) (fun j d' h => ?_) fun j d h hwrong => ?_
  · have : comparisons uid b ⟨s, p.threads.set i u⟩ + _ = _ := comparisons_set ht
    have := htries b
    omega
  · rcases attempting_set ht h with ⟨rfl, hway, rfl⟩ | ⟨-, h⟩
    · exact ⟨_, ⟨t, ht, hback hway, rfl⟩, hdone (hback hway)⟩
    · exact ⟨d', h, .inl rfl⟩
  · by_cases hj : j = i
    · subst hj
      obtain ⟨v, hv, hway, rfl⟩ := h
      obtain rfl := Option.some.inj (ht.symm.trans hv)
      exact ⟨_, attempting_set_self ht (hforth hway hwrong), hdone hway⟩
    · exact ⟨d, attempting_set_ne hj h, .inl rfl⟩

/-! ### Logins by what they have done -/

@[simp] theorem attempted_login {dto : LoginDto} {email : String} {user : User} {d : List Ev}
    {tx : Option (Tx interface)} :
    attempted ⟨.login dto, ⟨.userFindUniqueByEmail email, some user⟩ :: d, tx⟩ = some user.id := rfl

theorem attempted_append {o : Op} {d : List Ev} (hd : d ≠ []) (d' : List Ev)
    (tx tx' : Option (Tx interface)) : attempted ⟨o, d ++ d', tx⟩ = attempted ⟨o, d, tx'⟩ := by
  cases d with
  | nil => exact absurd rfl hd
  | cons e d => rfl

theorem attempted_extends {l l' : Log} (hop : l'.op = l.op) (hdone : l.done <+: l'.done)
    (h : l.done ≠ []) : attempted l' = attempted l := by
  obtain ⟨o, d, tx⟩ := l
  obtain ⟨o', d', tx'⟩ := l'
  obtain rfl : o' = o := hop
  obtain ⟨d'', rfl⟩ : d <+: d' := hdone
  exact attempted_append h d'' tx' tx

theorem attempted_of_ne {l : Log} (h : ∀ dto, l.op ≠ .login dto) : attempted l = none := by
  obtain ⟨o, d, tx⟩ := l
  cases o <;> first | rfl | exact absurd rfl (h _)

theorem login_of_attempted {l : Log} (h : attempted l = some uid) : ∃ dto, l.op = .login dto := by
  by_contra hne
  rw [attempted_of_ne fun dto hdto => hne ⟨dto, hdto⟩] at h
  cases h

/-- The first statement of a login that an attempt is made of. -/
theorem ne_nil_of_attempted {o : Op} {d : List Ev} {tx : Option (Tx interface)}
    (h : attempted ⟨o, d, tx⟩ = some uid) : d ≠ [] := by
  rintro rfl
  cases o <;> simp [attempted] at h

theorem settled_append {d : List Ev} (h : Settled d) (d' : List Ev) : Settled (d ++ d') := by
  obtain ⟨e, he, hwrites⟩ := h
  refine ⟨e, ?_, hwrites⟩
  rw [List.dropWhile_append, if_neg (by simpa using List.ne_nil_of_mem he)]
  exact List.mem_append_left _ he

theorem not_settled_quiet {d : List Ev} {e : Ev} (h : ¬ Settled d) (hcompared : compared e = none)
    (hwrites : writesCounter e = false) : ¬ Settled (d ++ [e]) := by
  rintro ⟨e', he', hwrites'⟩
  rw [List.dropWhile_append] at he'
  split at he'
  · simp [hcompared] at he'
  · rcases List.mem_append.1 he' with he' | he'
    · exact h ⟨e', he', hwrites'⟩
    · rw [List.mem_singleton.1 he', hwrites] at hwrites'
      cases hwrites'

/-- Before the comparison, nothing is settled. -/
theorem dropWhile_compared {d : List Ev} (h : ∀ e ∈ d, compared e = none) (d' : List Ev) :
    (d ++ d').dropWhile (fun e => compared e = none) = d'.dropWhile fun e => compared e = none :=
  List.dropWhile_append_of_pos (by simpa using h)

theorem not_settled_of_none {d : List Ev} (h : ∀ e ∈ d, compared e = none) : ¬ Settled d := by
  rintro ⟨e, he, -⟩
  have hnil := dropWhile_compared h []
  rw [List.append_nil] at hnil
  rw [hnil] at he
  cases he

theorem Checked.head {dto : LoginDto} {user : User} {d : List Ev} (h : Checked dto user d) :
    ∃ d', d = ⟨.userFindUniqueByEmail dto.email, some user⟩ :: d' := by
  cases h <;> exact ⟨_, rfl⟩

theorem Checked.compared {dto : LoginDto} {user : User} {d : List Ev} (h : Checked dto user d) :
    ∀ e ∈ d, compared e = none := by
  cases h <;> simp [Auth.compared]

theorem Checked.reads {dto : LoginDto} {user : User} {d : List Ev} (h : Checked dto user d) :
    ∃ e ∈ d, readsUser user.id e = true := by
  cases h <;> simp [readsUser]

theorem Counts.head {dto : LoginDto} {id : Id} {d : List Ev} {data : UserData}
    (h : Counts dto id d data) :
    ∃ user d', d = ⟨.userFindUniqueByEmail dto.email, some user⟩ :: d' ∧ user.id = id := by
  cases h with
  | expired user u n hid => exact ⟨user, _, rfl, hid.symm⟩
  | right user d hid hchecked =>
      obtain ⟨d', rfl⟩ := hchecked.head
      exact ⟨user, _, rfl, hid.symm⟩
  | wrong user d n hid hchecked =>
      obtain ⟨d', rfl⟩ := hchecked.head
      exact ⟨user, _, rfl, hid.symm⟩

theorem Counts.reads {dto : LoginDto} {id : Id} {d : List Ev} {data : UserData}
    (h : Counts dto id d data) : ∃ e ∈ d, readsUser id e = true := by
  cases h with
  | expired user u n hid => simp [readsUser, hid]
  | right user d hid hchecked =>
      obtain ⟨e, he, hreads⟩ := hchecked.reads
      exact ⟨e, List.mem_append_left _ he, hid ▸ hreads⟩
  | wrong user d n hid hchecked =>
      obtain ⟨e, he, hreads⟩ := hchecked.reads
      exact ⟨e, List.mem_append_left _ he, hid ▸ hreads⟩

theorem Counts.not_settled {dto : LoginDto} {id : Id} {d : List Ev} {data : UserData}
    (h : Counts dto id d data) : ¬ Settled d := by
  cases h with
  | expired user u n hid => exact not_settled_of_none (by simp [compared])
  | right user d hid hchecked =>
      rw [Settled, dropWhile_compared hchecked.compared]
      simp [compared, writesCounter]
  | wrong user d n hid hchecked =>
      rw [Settled, dropWhile_compared hchecked.compared]
      simp [compared, writesCounter]

/-- A write of the counter settles the attempt, unless no password was compared yet. -/
theorem Counts.settles {dto : LoginDto} {id : Id} {d : List Ev} {data : UserData}
    (h : Counts dto id d data) (row : User) :
    Settled (d ++ [⟨.userUpdate id data, row⟩]) ∨ ∀ e ∈ d, compared e = none := by
  cases h with
  | expired user u n hid => exact .inr (by simp [compared])
  | right user d hid hchecked =>
      rw [Settled, List.append_assoc, dropWhile_compared hchecked.compared]
      simp [compared, writesCounter, noFailedAttempts]
  | wrong user d n hid hchecked =>
      rw [Settled, List.append_assoc, dropWhile_compared hchecked.compared]
      simp [compared, writesCounter, oneMoreFailed]

theorem Counts.writes {dto : LoginDto} {id : Id} {d : List Ev} {data : UserData}
    (h : Counts dto id d data) : data.failedLoginAttempts.isSome = true := by
  cases h <;> rfl

/-- What an attempt on `uid` does next. -/
theorem login_next {dto : LoginDto} {d : List Ev} {q : Stmt} {x : Ans q}
    (hguard : loginGuard dto d q) (hat : attempted ⟨.login dto, d, none⟩ = some uid) :
    (Quiet uid ⟨q, x⟩ ∧ Mild q) ∨
    (∃ e, d = [e] ∧ q = .userFindUnique uid) ∨
    (∃ user, Checked dto user d ∧ user.id = uid ∧
      q = .bcryptCompare dto.password user.password) ∨
    ∃ data, Counts dto uid d data ∧ q = .userUpdate uid data := by
  cases q with
  | userFindUnique id =>
      obtain ⟨user, rfl, rfl⟩ := hguard
      obtain rfl := Option.some.inj hat
      exact .inr (.inl ⟨_, rfl, rfl⟩)
  | bcryptCompare password hash =>
      obtain ⟨e, rfl⟩ | ⟨user, hchecked, rfl, rfl⟩ := hguard
      · cases hat
      · obtain ⟨d', rfl⟩ := hchecked.head
        exact .inr (.inr (.inl ⟨user, hchecked, Option.some.inj hat, rfl⟩))
  | userUpdate id data =>
      obtain hmild | hcounts := hguard
      · exact .inl ⟨⟨rfl, rfl, by simp [writesCounter, hmild.1]⟩, hmild⟩
      · obtain ⟨user, d', rfl, rfl⟩ := hcounts.head
        obtain rfl := Option.some.inj hat
        exact .inr (.inr (.inr ⟨data, hcounts, rfl⟩))
  | userUpdateManyByResetToken hash now data => exact hguard.elim
  | _ => exact .inl ⟨⟨rfl, rfl, rfl⟩, trivial⟩

/-! ### The step -/

variable {R : Platform → Step model Op → Prop} {s₀ : World} {a : Step model Op}

theorem not_underWay_of_nil {t : Thread interface Op Err Reply} (h : t.trace.done = []) :
    ¬ UnderWay uid t := by
  rintro ⟨-, ⟨e, he, -⟩, -⟩
  simp [h] at he

/-- A statement of a call that is no attempt on `uid`. -/
theorem shift_elsewhere {i : Nat} {t : Thread interface Op Err Reply} {q : Stmt} {c : Choice}
    {x : Ans q} {k : Option (Call Reply)} (ht : p.threads[i]? = some t)
    (htx : t.trace.tx = none) (hguard : lockoutGuard t.trace q) (hx : exec q c p.db = some x)
    (hat : attempted t.trace ≠ some uid) :
    Shift uid p ⟨model.applyAll (writes q x) p.db,
      p.threads.set i ⟨t.trace.push ⟨q, x⟩, k⟩⟩ := by
  obtain ⟨⟨o, d, tx⟩, r⟩ := t
  obtain rfl : tx = none := htx
  -- If it becomes one now, it has only found the user.
  have hsingle : attempted (Trace.push ⟨o, d, none⟩ ⟨q, x⟩ : Log) = some uid →
      d = [] ∧ (foundByEmail ⟨q, x⟩).isSome = true := by
    intro h
    cases d with
    | nil =>
        cases o <;> simp [attempted] at h
        obtain ⟨u, hu, -⟩ := h
        exact ⟨rfl, by simp [hu]⟩
    | cons e d => exact absurd h hat
  have hquiet : (foundByEmail (⟨q, x⟩ : Ev)).isSome = true → Quiet uid ⟨q, x⟩ := by
    cases q <;> simp [foundByEmail, Quiet, compared, readsUser, writesCounter]
  have hnot : ∀ k' : Option (Call Reply), ¬ UnderWay uid ⟨Trace.push ⟨o, d, none⟩ ⟨q, x⟩, k'⟩ := by
    rintro k' ⟨h, ⟨e, he, hread⟩, -⟩
    obtain ⟨rfl, hfound⟩ := hsingle h
    obtain rfl := List.mem_singleton.1 he
    exact Bool.false_ne_true ((hquiet hfound).2.1.symm.trans hread)
  refine shift_aside ht ?_ ?_ (fun b => ?_) (fun h => (hnot _ h).elim) (fun h => (hat h.1).elim)
    fun h => (hat h.1).elim
  · by_cases hmild : Mild q
    · exact counter_exec hx hmild uid
    · -- Only a login writes a counter, and it writes the one of its own account.
      cases o with
      | login dto =>
          obtain ⟨-, hguard⟩ := hguard
          cases q with
          | userUpdate id data =>
              rcases hguard with hguard | hguard
              · exact absurd hguard hmild
              · obtain ⟨user, d', rfl, rfl⟩ := hguard.head
                have hne : uid ≠ user.id := fun h => hat (h ▸ rfl)
                exact (counter_update ..).trans (if_neg hne)
          | userUpdateManyByResetToken hash now data => exact hguard.elim
          | _ => exact absurd trivial hmild
      | _ => exact absurd hguard hmild
  · exact Nat.le_of_eq (clock_applyAll ..).symm
  · unfold tries
    rw [if_neg hat]
    split
    · next h =>
        obtain ⟨rfl, hfound⟩ := hsingle h
        simp [(hquiet hfound).1]
    · rfl

/-- A step of a call that is no login. -/
theorem shift_never {s : World} {i : Nat} {t u : Thread interface Op Err Reply}
    (ht : p.threads[i]? = some t) (hcounter : counter s uid = counter p.db uid)
    (hclock : p.db.clock ≤ s.clock) (hne : ∀ dto, t.trace.op ≠ .login dto)
    (hop : u.trace.op = t.trace.op) : Shift uid p ⟨s, p.threads.set i u⟩ := by
  have hnot : ∀ l : Log, l.op = t.trace.op → attempted l ≠ some uid := by
    intro l hl
    rw [attempted_of_ne fun dto h => hne dto (hl.symm.trans h)]
    exact (Option.some_ne_none _).symm
  refine shift_aside ht hcounter hclock (fun b => ?_) (fun h => (hnot _ hop h.1).elim)
    (fun h => (hnot _ rfl h.1).elim) fun h => (hnot _ rfl h.1).elim
  unfold tries
  rw [if_neg (hnot _ hop), if_neg (hnot _ rfl)]

theorem comparisons_push {i : Nat} {dto : LoginDto} {d : List Ev} {k k' : Option (Call Reply)}
    {s : World} {b : Bool} (ht : p.threads[i]? = some ⟨⟨.login dto, d, none⟩, k⟩)
    (hat : attempted ⟨.login dto, d, none⟩ = some uid) (e : Ev) :
    comparisons uid b ⟨s, p.threads.set i ⟨Trace.push ⟨.login dto, d, none⟩ e, k'⟩⟩ =
      comparisons uid b p + if compared e = some b then 1 else 0 := by
  have hat' : attempted ⟨.login dto, d ++ [e], none⟩ = some uid :=
    (attempted_append (ne_nil_of_attempted hat) ..).trans hat
  have : comparisons uid b ⟨s, p.threads.set i ⟨Trace.push ⟨.login dto, d, none⟩ e, k'⟩⟩ + _ = _ :=
    comparisons_set ht
  simp only [Trace.push_outside, tries, if_pos hat, if_pos hat', List.countP_append,
    List.countP_singleton, decide_eq_true_eq] at this ⊢
  omega

/-- An attempt on `uid` starts by finding the user. -/
theorem head_of_attempted {o : Op} {e : Ev} {d : List Ev} {tx : Option (Tx interface)}
    (hat : attempted ⟨o, e :: d, tx⟩ = some uid) :
    ∃ email user, e = ⟨.userFindUniqueByEmail email, some user⟩ ∧ user.id = uid := by
  obtain ⟨dto, rfl⟩ : ∃ dto, o = .login dto := login_of_attempted hat
  obtain ⟨q, x⟩ := e
  cases q <;> simp [attempted, foundByEmail] at hat
  obtain ⟨user, rfl, rfl⟩ := hat
  exact ⟨_, user, rfl, rfl⟩

/-- A statement of an attempt on `uid`. -/
theorem shift_attempt {i : Nat} {t : Thread interface Op Err Reply} {q : Stmt} {c : Choice}
    {x : Ans q} {k : Except Failure (Ans q) → Call Reply}
    (hone : ∀ i j d e, Attempting uid p i d → Attempting uid p j e → i = j)
    (hR : OneByOne uid p (.exec i c)) (ht : p.threads[i]? = some t)
    (hk : t.rest = some (.call q k)) (htx : t.trace.tx = none) (hguard : lockoutGuard t.trace q)
    (hx : exec q c p.db = some x) (hat : attempted t.trace = some uid) :
    Shift uid p ⟨model.applyAll (writes q x) p.db,
      p.threads.set i ⟨t.trace.push ⟨q, x⟩, some (k (.ok x))⟩⟩ := by
  obtain ⟨⟨o, d, tx⟩, r⟩ := t
  obtain rfl : tx = none := htx
  obtain rfl : r = some (.call q k) := hk
  obtain ⟨dto, rfl⟩ : ∃ dto, o = .login dto := login_of_attempted hat
  obtain ⟨-, hguard⟩ := hguard
  have hat' : attempted ⟨.login dto, d ++ [⟨q, x⟩], none⟩ = some uid :=
    (attempted_append (ne_nil_of_attempted hat) ..).trans hat
  have hlone : (∃ e ∈ d, readsUser uid e = true) → ¬ Settled d →
      Attempting uid p i d ∧ Lone uid p i := by
    intro hread hsettled
    have hhere : Attempting uid p i d := ⟨_, ht, ⟨hat, hread, hsettled, .inl rfl⟩, rfl⟩
    exact ⟨hhere, fun j e h => hone j i e d h hhere⟩
  -- Afterwards, no other attempt is under way.
  have honly : Lone uid p i → ∀ {s : World} {u : Thread interface Op Err Reply} {j : Nat}
      {d' : List Ev}, Attempting uid ⟨s, p.threads.set i u⟩ j d' →
        j = i ∧ UnderWay uid u ∧ u.trace.done = d' := by
    intro h s u j d' hj
    rcases attempting_set ht hj with hj | ⟨hne, hj⟩
    · exact hj
    · exact absurd (h j d' hj) hne
  obtain ⟨hquiet, hmild⟩ | ⟨e, rfl, rfl⟩ | ⟨user, hchecked, hid, rfl⟩ | ⟨data, hcounts, rfl⟩ :=
    login_next (x := x) hguard hat
  · refine shift_aside ht (counter_exec hx hmild uid) (Nat.le_of_eq (clock_applyAll ..).symm)
      (fun b => ?_) (fun h => ⟨hat, ?_, fun h' => h.2.2.1 (settled_append h' _), .inl rfl⟩)
      (fun h hwrong => ⟨hat', ?_, not_settled_quiet h.2.2.1 hquiet.1 hquiet.2.2, .inr ?_⟩)
      fun _ => .inr ⟨_, rfl, hquiet, ?_⟩
    · simp [tries, hat, hat', hquiet.1]
    · obtain ⟨e, he, hread⟩ := h.2.1
      rcases List.mem_append.1 he with he | he
      · exact ⟨e, he, hread⟩
      · rw [List.mem_singleton.1 he, hquiet.2.1] at hread
        cases hread
    · obtain ⟨e, he, hread⟩ := h.2.1
      exact ⟨e, List.mem_append_left _ he, hread⟩
    · obtain ⟨e, he, hfalse⟩ := hwrong
      exact ⟨e, List.mem_append_left _ he, hfalse⟩
    · intro m heq
      cases heq
      simp only [exec, Option.some.injEq] at hx
      exact hx.symm
  · -- The counter is read: nobody else is under way, and this attempt was not before.
    have hnone : ∀ j d', ¬ Attempting uid p j d' := by
      intro j d' h
      by_cases hj : j = i
      · subst hj
        obtain ⟨v, hv, hway, rfl⟩ := h
        obtain rfl := Option.some.inj (ht.symm.trans hv)
        obtain ⟨e', he', hread⟩ := hway.2.1
        obtain rfl := List.mem_singleton.1 he'
        obtain ⟨email, user, rfl, -⟩ := head_of_attempted hat
        cases hread
      · obtain ⟨v, hv, hway, -⟩ := h
        obtain ⟨hlt, -⟩ := List.getElem?_eq_some_iff.1 hv
        exact hR _ ht (by simp [readsCounter, Thread.next?]) j hlt hj v hv hway
    refine .read i e hnone rfl (fun b => ?_) fun j d' h => ?_
    · simpa using comparisons_push ht hat ⟨.userFindUnique uid, x⟩
    · obtain ⟨rfl, -, rfl⟩ := (attempting_set ht h).resolve_right fun h => hnone j d' h.2
      simp only [exec, Option.some.injEq] at hx
      exact ⟨rfl, hx ▸ rfl⟩
  · -- The password is compared.
    obtain ⟨hhere, hlone⟩ := hlone (hid ▸ hchecked.reads) (not_settled_of_none hchecked.compared)
    refine .compare i dto user d x hchecked hhere hlone rfl (fun b => ?_) (fun j d' h => ?_)
      fun hb => ?_
    · simpa using comparisons_push ht hat ⟨.bcryptCompare dto.password user.password, x⟩
    · obtain ⟨hj, -, hd⟩ := honly hlone h
      exact ⟨hj, hd.symm⟩
    · refine attempting_set_self ht ⟨hat', ?_, ?_, .inr ⟨_, List.mem_append_right _ (.head _), ?_⟩⟩
      · obtain ⟨e, he, hread⟩ := hchecked.reads
        exact ⟨e, List.mem_append_left _ he, hid ▸ hread⟩
      · simp only [Trace.push_outside]
        rw [Settled, dropWhile_compared hchecked.compared]
        simp [compared, writesCounter]
      · exact congrArg some hb
  · -- The counter is written.
    obtain ⟨hhere, hlone⟩ := hlone hcounts.reads hcounts.not_settled
    have hfound : ∃ u, p.db.users.find? uid = some u := by
      simp only [exec] at hx
      split at hx
      · exact (Option.map_eq_some_iff.1 hx).imp fun u h => h.1
      · cases hx
    refine .count i dto d data x hcounts hhere hlone rfl hfound (fun b => ?_) fun j d' h => ?_
    · simpa using comparisons_push ht hat ⟨.userUpdate uid data, x⟩
    obtain ⟨hj, hway, hd⟩ := honly hlone h
    exact ⟨hj, hd.symm, (hcounts.settles x).resolve_left hway.2.2.1⟩

/-- **What a step is to the attempts on an account**, as long as they do not overlap. -/
theorem shift_of_step (hrun : Run prog R (idle s₀) p) (hR : OneByOne uid p a)
    (hone : ∀ i j d e, Attempting uid p i d → Attempting uid p j e → i = j)
    (hs : p.step prog a = some p') : Shift uid p p' := by
  have hsound := hrun.sound prog_lockout
  have htaken := taken_of_step hs
  cases htaken with
  | spawn o =>
      refine .aside rfl (Nat.le_refl _) (fun b => ?_) (fun i d' h => ?_) fun i d h _ => ?_
      · simp [comparisons, tries]
      · obtain ⟨t, ht, hway, rfl⟩ := h
        rcases thread_append ht with rfl | ht
        · exact (not_underWay_of_nil rfl hway).elim
        · exact ⟨_, ⟨t, ht, hway, rfl⟩, .inl rfl⟩
      · obtain ⟨t, ht, hway, rfl⟩ := h
        obtain ⟨hlt, -⟩ := List.getElem?_eq_some_iff.1 ht
        exact ⟨_, ⟨t, by rwa [List.getElem?_append_left hlt], hway, rfl⟩, .inl rfl⟩
  | env n =>
      exact .aside rfl (Nat.le_add_right ..) (fun _ => rfl) (fun i d' h => ⟨d', h, .inl rfl⟩)
        fun i d h _ => ⟨d, h, .inl rfl⟩
  | @callTx i t q k c x ht hk htx hx =>
      -- A login opens no transaction.
      have hne : ∀ dto, t.trace.op ≠ .login dto := by
        intro dto ho
        have hguard := hsound.guard ht (next_of_call hk)
        simp only [lockoutGuards, lockoutGuard, ho] at hguard
        exact htx hguard.1
      exact shift_never ht rfl (Nat.le_refl _) hne (Trace.push_op _ _)
  | @commit i t k c ht hk =>
      obtain ⟨-, hne, -⟩ := hsound.conforms i t ht _ hk
      obtain ⟨-, ⟨userId, row, ids, hpending⟩, -⟩ := (hrun.sound prog_sound).conforms i t ht _ hk
      refine shift_never ht ?_ (Nat.le_of_eq (clock_applyAll ..).symm) hne rfl
      refine counter_applyAll (fun w hw => ?_) p.db uid
      simp only [hpending, Model.writesOf, List.flatMap_cons, List.flatMap_nil, List.append_nil,
        writes, List.mem_append, List.mem_singleton, List.mem_map] at hw
      obtain rfl | ⟨id, -, rfl⟩ := hw
      · exact ⟨rfl, rfl⟩
      · trivial
  | @turn i t u _ hans ht hop hdone hrunning =>
      have hat : attempted u.trace = attempted t.trace := by
        unfold attempted
        rw [hop, hdone]
      refine shift_aside ht rfl (Nat.le_refl _) (fun b => ?_) (fun h => ?_) (fun h hwrong => ?_)
        fun _ => .inl hdone
      · unfold tries
        rw [hat, hdone]
      · exact ⟨hat ▸ h.1, hdone ▸ h.2.1, hdone ▸ h.2.2.1, h.2.2.2.imp hrunning fun h => hdone ▸ h⟩
      · exact ⟨hat ▸ h.1, hdone ▸ h.2.1, hdone ▸ h.2.2.1, .inr (hdone ▸ hwrong)⟩
  | @call i t q k c x ht hk htx hx =>
      have hguard := hsound.guard ht (next_of_call hk)
      by_cases hat : attempted t.trace = some uid
      · exact shift_attempt hone hR ht hk htx hguard hx hat
      · exact shift_elsewhere ht htx hguard hx hat

end Steps

end GetPlatform.Auth
