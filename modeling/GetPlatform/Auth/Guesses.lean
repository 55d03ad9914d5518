import GetPlatform.Auth.Attempts
import GetPlatform.Auth.Registration
import Mathlib.Data.Finset.Card

set_option autoImplicit false

/-! # How many codes can be guessed

A verification by code reads the pending row with its counter, compares the code, and counts a wrong
one in a statement of its own. One guess after the other, at most `MAX_VERIFICATION_CODE_ATTEMPTS`
wrong codes are compared with one issued code. Guesses that overlap go by a counter that the others
have not incremented yet, and there is no bound on their number. The accounts need no such care: the
addresses of users are unique. -/

namespace GetPlatform.Auth

open Pool Prog

/-! ## Codes and guesses -/

/-- Does the event issue a code for the address? -/
def issuesCode (email : String) : Ev → Bool
  | ⟨.pendingUpsert _, row⟩ => row.email = email
  | ⟨.pendingUpdate _ data, row⟩ => data.codeHash.isSome ∧ row.email = email
  | _ => false

/-- How many codes were issued for the address. -/
def codesIssued (email : String) (h : History interface) : Nat :=
  h.countP fun x => issuesCode email x.2

def foundPending : Ev → Option PendingRegistration
  | ⟨.pendingFindUniqueByEmail _, found⟩ => found
  | _ => none

def clockRead : Ev → Option Nat
  | ⟨.now, n⟩ => some n
  | _ => none

/-- The row has attempts left, and another code. -/
def Misses (code : String) (row : PendingRegistration) : Prop :=
  row.codeAttempts < MAX_VERIFICATION_CODE_ATTEMPTS ∧ sha256Hex code ≠ row.codeHash

instance (code : String) (row : PendingRegistration) : Decidable (Misses code row) :=
  inferInstanceAs (Decidable (_ ∧ _))

/-- The call verifies by code, and what it has read lets it compare a wrong code: a row for the
    address that has attempts left and, if the call has read the clock, has not expired. -/
def guesses (email : String) (l : Log) : Bool :=
  match l.op with
  | .verifyEmailByCode _ code =>
      (l.done.head?.bind foundPending).any fun row =>
        row.email = email ∧ Misses code row ∧ ∀ n ∈ l.done[1]?.bind clockRead, n ≤ row.expiresAt
  | _ => false

/-- The call has read the clock too, so it has compared its wrong code. -/
def compares (email : String) (l : Log) : Bool :=
  guesses email l && (l.done[1]?.bind clockRead).isSome

/-- Does the event count a wrong code for the address? -/
def countsGuess (email : String) : Ev → Bool
  | ⟨.pendingUpdate _ ⟨none, some .increment, _⟩, row⟩ => row.email = email
  | _ => false

/-- The code that was the current one when the call at place `i` read the pending row, by its
    number. -/
def codeRead (email : String) (i : Nat) : History interface → Option Nat
  | [] => none
  | (j, e) :: h =>
      if j = i ∧ (foundPending e).any (·.email = email) then some (codesIssued email h)
      else codeRead email i h

/-- The calls that have compared a wrong code with the code of number `k`. -/
def wrongCodes (email : String) (k : Nat) (h : History interface) (p : Platform) : Finset Nat :=
  (Finset.range p.threads.length).filter fun i =>
    codeRead email i h = some k ∧ (p.threads[i]?).any (compares email ·.trace)

/-- The calls that have compared a wrong code with the code of number `k`, or are about to. -/
def guessers (email : String) (k : Nat) (h : History interface) (p : Platform) : Finset Nat :=
  (Finset.range p.threads.length).filter fun i =>
    codeRead email i h = some k ∧ (p.threads[i]?).any (guesses email ·.trace)

/-- The wrong code of the call is counted. -/
def counted (email : String) (p : Platform) (i : Nat) : Bool :=
  (p.threads[i]?).any fun t => t.trace.done.any (countsGuess email)

/-- The call is about to read the pending row of the address, which has attempts left and another
    code. -/
def aboutToGuess (email : String) (s : World) (t : Thread interface Op Err Reply) : Bool :=
  match t.trace.op, t.next? with
  | .verifyEmailByCode _ code, some (.pendingFindUniqueByEmail email') =>
      email' = email && (s.pendingRegistrations.rows.find? fun r => r.email = email).any fun row =>
        Misses code row
  | _, _ => false

/-- When a verification with a wrong code reads the pending row, every other wrong code that was or
    will be compared with the current one is counted. -/
def GuessesCounted (email : String) (h : History interface) (p : Platform) : Step model Op → Prop
  | .exec i _ => ∀ t ∈ p.threads[i]?, aboutToGuess email p.db t = true →
      ∀ j ∈ guessers email (codesIssued email h) h p, counted email p j = true
  | _ => True

instance (email : String) (h : History interface) (p : Platform) (a : Step model Op) :
    Decidable (GuessesCounted email h p a) :=
  match a with
  | .exec .. => by dsimp only [GuessesCounted]; infer_instance
  | .spawn _ | .fault .. | .crash _ | .env _ => inferInstanceAs (Decidable True)

/-- Does the event create a user with the address? -/
def createsUser (email : String) : Ev → Bool
  | ⟨.userCreate _, row⟩ => row.email = email
  | _ => false

/-- How many users were created with the address. -/
def usersCreated (email : String) (h : History interface) : Nat :=
  h.countP fun x => createsUser email x.2

/-- No two pending rows are for one address. The column is unique. -/
def World.OnePending (s : World) : Prop :=
  ∀ r ∈ s.pendingRegistrations, ∀ r' ∈ s.pendingRegistrations, r.email = r'.email → r.id = r'.id

/-! ## What the programs guarantee -/

/-- A verification by code reads the pending row first. An update of a pending registration puts a
    new code in it, or increments the counter of wrong codes. -/
def codeGuard (l : Log) : Stmt → Prop
  | .pendingFindUniqueByEmail _ =>
      (∃ email code, l.op = .verifyEmailByCode email code) → l.done = []
  | .pendingUpdate _ data =>
      data.codeHash.isSome = true ∨ data = { codeAttempts := some .increment }
  | _ => True

def codeGuards : Guards interface Op where
  stmt := codeGuard
  commit _ := True

section Conformance

@[simp] theorem code_send {q : Stmt} {Q : Log → Ans q → Prop} {E : Log → Err → Prop} {l : Log} :
    @Conforms interface model Err (no_index (Ans q)) Op codeGuards (send q) Q E l ↔
      codeGuard l q ∧ (∀ f, E l (.database f)) ∧
        ∀ a, model.Possible q a → Q (l.push ⟨q, a⟩) a := Iff.rfl

/-- Statements that neither read a pending row by its address nor update one. -/
def Unguessing : Stmt → Prop
  | .pendingFindUniqueByEmail _ => False
  | .pendingUpdate .. => False
  | _ => True

theorem Unguessing.guard {l : Log} {q : Stmt} (h : Unguessing q) : codeGuard l q := by
  cases q <;> first | exact h.elim | trivial

theorem unguessing_deletePending (pendingId : Id) : (deletePending pendingId).Only Unguessing := by
  simp [deletePending, Unguessing]

theorem unguessing_completeEmailVerification (pendingId : Id) :
    (completeEmailVerification pendingId).Only Unguessing := by
  have hgiveUp : ∀ e : Err, ((deletePending pendingId).handle (fun _ => .fail e) .fail :
      Call Session).Only Unguessing := fun _ =>
    (unguessing_deletePending _).handle (fun _ => trivial) fun _ => trivial
  simp only [completeEmailVerification, bind_eq, pure_eq, throw_eq, only_send_handle, only_fail,
    implies_true, and_true]
  refine ⟨trivial, fun found => ?_⟩
  cases found with
  | none => trivial
  | some pending =>
      simp only [handle_fail, only_send_handle, only_fail, only_ite, implies_true, and_true]
      refine ⟨trivial, fun now => ⟨fun _ => hgiveUp _, fun _ => ⟨trivial, fun existing =>
        ⟨fun _ => hgiveUp _, fun _ => ⟨trivial, fun role => ?_⟩⟩⟩⟩⟩
      cases role with
      | none => trivial
      | some role =>
          have htokens : ∀ user, (issueTokens user true).Only Unguessing := fun user =>
            (issues_issueTokens user true).mono fun q hq => by cases q <;> trivial
          simp only [only_send_handle, only_fail, implies_true, and_true]
          exact ⟨trivial, fun user => ⟨trivial, fun _ =>
            (htokens user).handle (fun _ => trivial) fun _ => trivial⟩⟩

theorem verifyEmailByCode_code (email code : String) :
    (verifyEmailByCode email code).Conforms model codeGuards (fun _ _ => True) (fun _ _ => True)
      (.start (.verifyEmailByCode email code)) := by
  have hfree : ∀ {α : Type} {p : Call α} (d : List Ev), p.Only Unguessing →
      p.Conforms model codeGuards (fun _ _ => True) (fun _ _ => True)
        ⟨.verifyEmailByCode email code, d, none⟩ := fun d hp =>
    hp.conforms_outside (fun _ _ _ hq => hq.guard) (fun _ _ _ => trivial) fun _ _ _ => trivial
  simp only [verifyEmailByCode, bind_eq, throw_eq, conforms_handle, code_send, conforms_fail,
    handle_fail, Trace.start_eq, Trace.push_outside, List.nil_append, implies_true, true_and]
  refine ⟨fun _ => rfl, fun found _ => ?_⟩
  cases found with
  | none => trivial
  | some pending =>
      simp only [conforms_handle, code_send, conforms_fail, conforms_ite, Trace.push_outside,
        List.cons_append, List.nil_append, implies_true, and_true, true_and]
      refine ⟨trivial, fun now _ => ⟨fun _ => hfree _ (unguessing_deletePending _), fun _ _ =>
        ⟨fun _ => .inr rfl, fun _ => hfree _ (unguessing_completeEmailVerification _)⟩⟩⟩

/-- Statements that update no pending registration but to put a new code in it. -/
def Recodes : Stmt → Prop
  | .pendingUpdate _ data => data.codeHash.isSome = true
  | _ => True

theorem Tame.recodes {q : Stmt} (h : Tame q) : Recodes q := by
  cases q <;> first | exact h.elim | trivial

theorem recodes_login (dto : LoginDto) : (login dto).Sends Recodes := by
  have hsession : ∀ user rememberMe, (openSession user rememberMe).Sends Recodes :=
    fun user rememberMe => (calm_openSession user rememberMe).mono fun _ hq => hq.tame.recodes
  simp only [login, bind_eq, pure_eq, throw_eq, sends_send_handle, sends_fail, implies_true,
    and_true]
  refine ⟨trivial, fun found => ?_⟩
  cases found with
  | none => simp [rejectUnknown, Recodes]
  | some user =>
      refine Sends.handle ?_ (fun _ => ?_) fun _ => trivial
      · simp [checkLoginAttempts, Option.forall, Recodes]
      · simp only [sends_send_handle, sends_ite, sends_fail, implies_true, and_true]
        refine ⟨trivial, fun valid => ⟨fun _ => ?_, fun _ => ?_⟩⟩
        · exact Sends.handle (by simp [incrementLoginAttempts, Recodes]) (fun _ => trivial)
            fun _ => trivial
        · refine Sends.handle (by simp [resetLoginAttempts, Recodes]) (fun _ => ?_) fun _ => trivial
          split
          · simp [Recodes]
          · exact (hsession _ _).handle (fun _ => trivial) fun _ => trivial

theorem recodes_resendVerification (email : String) : (resendVerification email).Sends Recodes := by
  have hmail : ∀ pending code, (sendVerificationEmail pending code).Sends Recodes :=
    fun pending code => (calm_sendVerificationEmail pending code).mono fun _ hq => hq.tame.recodes
  simp [resendVerification, Option.forall, hmail, Recodes]

theorem prog_code (o : Op) :
    (prog o).Conforms model codeGuards (fun _ _ => True) (fun _ _ => True) (.start o) := by
  by_cases ho : ∃ email code, o = .verifyEmailByCode email code
  · obtain ⟨email, code, rfl⟩ := ho
    exact (conforms_handle ..).2 (verifyEmailByCode_code email code)
  · have hrecodes : (prog o).Sends Recodes := by
      cases o with
      | login dto => exact sends_map (recodes_login dto) _
      | resendVerification email => exact sends_map (recodes_resendVerification email) _
      | verifyEmailByCode email code => exact absurd ⟨email, code, rfl⟩ ho
      | _ => exact (tame_prog (by simp) rfl).mono fun _ hq => hq.recodes
    refine (prog_sound o).retarget hrecodes (fun l hl q hq => ?_) fun _ _ => trivial
    cases q with
    | pendingFindUniqueByEmail email =>
        rintro ⟨email, code, hop⟩
        exact absurd ⟨email, code, hl.symm.trans hop⟩ ho
    | pendingUpdate id data => exact .inl hq
    | _ => trivial

end Conformance

/-! ## What a statement does to the pending rows -/

/-- Does the write change a pending row? -/
def Write.onPending : Write → Bool
  | .pending _ => true
  | .pendingData .. => true
  | .noPending _ => true
  | _ => false

theorem pending_applyAll {ws : List Write} (h : ∀ w ∈ ws, w.onPending = false) (s : World) :
    (model.applyAll ws s).pendingRegistrations = s.pendingRegistrations := by
  refine @Model.applyAll_keeps _ model
    (fun t => t.pendingRegistrations = s.pendingRegistrations) ws (fun w hw t ht => ?_) s rfl
  cases w <;> first | exact ht | cases h _ hw

/-- Statements that change no pending row. -/
def OffPending : Stmt → Prop
  | .pendingUpsert _ => False
  | .pendingUpdate .. => False
  | .pendingDelete _ => False
  | _ => True

theorem OffPending.writes {q : Stmt} (h : OffPending q) (a : Ans q) :
    ∀ w ∈ writes q a, w.onPending = false := by
  intro w hw
  cases q with
  | refreshSessionUpdateMany userId jti newJti =>
      cases jti with
      | none => cases hw
      | some jti =>
          simp only [Auth.writes] at hw
          split at hw
          · cases hw
          · cases w <;> first | rfl | simp at hw
  | _ => cases w <;> first | rfl | exact h.elim | simp [Auth.writes] at hw

theorem pending_of_off {q : Stmt} (h : OffPending q) (a : Ans q) (s : World) :
    (model.applyAll (writes q a) s).pendingRegistrations = s.pendingRegistrations :=
  pending_applyAll (h.writes a) s

theorem pending_of_revocation {l : Log} (hcommit : commitGuard l) (s : World) :
    (l.view model s).pendingRegistrations = s.pendingRegistrations := by
  obtain ⟨userId, row, ids, hpending⟩ := hcommit
  refine pending_applyAll (fun w hw => ?_) s
  cases w <;> first | rfl | simp [hpending, Model.writesOf, writes] at hw

/-- Where a pending row comes from that is there after an event. -/
inductive Becomes (e : Ev) (s : World) (r' : PendingRegistration) : Prop
  | kept : r' ∈ s.pendingRegistrations → (∀ row ∈ written e, r'.id ≠ row.id) → Becomes e s r'
  | updated (r : PendingRegistration) (data : PendingData) : r ∈ s.pendingRegistrations →
      e = ⟨.pendingUpdate r.id data, data.set r⟩ → r' = data.set r → Becomes e s r'
  | put (data : PendingUpsert) : e = ⟨.pendingUpsert data, r'⟩ → Becomes e s r'

theorem becomes_of_exec {q : Stmt} {c : Choice} {s : World} {a : Ans q} (h : exec q c s = some a)
    {r' : PendingRegistration}
    (hr' : r' ∈ (model.applyAll (writes q a) s).pendingRegistrations) : Becomes ⟨q, a⟩ s r' := by
  have hoff : OffPending q → Becomes ⟨q, a⟩ s r' := by
    intro hq
    rw [pending_of_off hq] at hr'
    refine .kept hr' fun row hrow => ?_
    cases q <;> first | exact hq.elim | cases hrow
  cases q with
  | pendingUpsert data =>
      rcases Table.mem_put.1 hr' with rfl | ⟨hr, hne⟩
      · exact .put data rfl
      · refine .kept hr fun row hrow => ?_
        obtain rfl := Option.some.inj hrow
        exact hne
  | pendingUpdate id data =>
      obtain ⟨r₀, hr₀, rfl⟩ := Option.map_eq_some_iff.1 h
      have hid : r₀.id = id := Table.key_of_find? hr₀
      have hmem : r' ∈ s.pendingRegistrations.modify id data.set data.key_set := hr'
      obtain ⟨r, hr, rfl⟩ := Table.mem_modify.1 hmem
      split
      · next hkey =>
          obtain rfl := Option.some.inj (hr₀.symm.trans (Table.find?_eq_some.2 ⟨hr, hkey⟩))
          subst hid
          exact .updated r₀ data hr rfl rfl
      · next hkey =>
          refine .kept hr fun row hrow heq => hkey ?_
          obtain rfl := Option.some.inj hrow
          exact heq.trans hid
  | pendingDelete id =>
      exact .kept (Table.mem_filter.1 hr').1 fun row hrow => by cases hrow
  | _ => exact hoff trivial

/-- A registration writes the row that its address has, if it has one. -/
theorem id_of_upsert {s : World} (hone : s.OnePending) {data : PendingUpsert} {c : Choice}
    {row : PendingRegistration} (h : exec (.pendingUpsert data) c s = some row) :
    row.email = data.email ∧
      ∀ r ∈ s.pendingRegistrations, r.email = data.email → r.id = row.id := by
  cases c <;> simp only [exec, reduceCtorEq] at h
  split at h
  · next r₀ hr₀ =>
      obtain rfl := Option.some.inj h
      refine ⟨rfl, fun r hr heq => ?_⟩
      have hemail : r₀.email = data.email := by simpa using List.find?_some hr₀
      exact hone r hr r₀ (List.mem_of_find?_eq_some hr₀) (heq.trans hemail.symm)
  · next hnone =>
      split at h
      · cases h
      · obtain rfl := Option.some.inj h
        exact ⟨rfl, fun r hr heq => absurd heq (by simpa using List.find?_eq_none.1 hnone r hr)⟩

theorem Becomes.origin {e : Ev} {s : World} {r' : PendingRegistration} (h : Becomes e s r') :
    (∃ r ∈ s.pendingRegistrations, r.id = r'.id ∧ r.email = r'.email) ∨
      ∃ data, e = ⟨.pendingUpsert data, r'⟩ := by
  cases h with
  | kept hr _ => exact .inl ⟨r', hr, rfl, rfl⟩
  | updated r data hr _ hset => exact .inl ⟨r, hr, hset ▸ rfl, hset ▸ rfl⟩
  | put data he => exact .inr ⟨data, he⟩

theorem World.OnePending.exec {s : World} (hone : s.OnePending) {q : Stmt} {c : Choice} {a : Ans q}
    (h : exec q c s = some a) : (model.applyAll (writes q a) s).OnePending := by
  intro r hr r' hr' heq
  rcases (becomes_of_exec h hr).origin with ⟨r₀, hr₀, hid, hemail⟩ | ⟨data, he⟩ <;>
    rcases (becomes_of_exec h hr').origin with ⟨r₁, hr₁, hid', hemail'⟩ | ⟨data', he'⟩
  · exact hid.symm.trans <|
      (hone r₀ hr₀ r₁ hr₁ ((hemail.trans heq).trans hemail'.symm)).trans hid'
  · cases he'
    obtain ⟨hdata, hall⟩ := id_of_upsert hone h
    exact hid ▸ hall r₀ hr₀ ((hemail.trans heq).trans hdata)
  · cases he
    obtain ⟨hdata, hall⟩ := id_of_upsert hone h
    exact (hid' ▸ hall r₁ hr₁ ((hemail'.trans heq.symm).trans hdata)).symm
  · cases he
    cases he'
    rfl

theorem email_of_countsGuess {email : String} {id : Id} {data : PendingData}
    {row : PendingRegistration} (h : countsGuess email ⟨.pendingUpdate id data, row⟩ = true) :
    row.email = email := by
  unfold countsGuess at h
  split at h
  · next heq =>
      cases heq
      exact of_decide_eq_true h
  · cases h

/-- **A counted wrong code is on the counter**: an event that issues no code for the address leaves
    the counter of its row where it is, or increments it when it counts a wrong code. -/
theorem attempts_of_exec {s : World} (hone : s.OnePending) {q : Stmt} {c : Choice} {a : Ans q}
    (h : exec q c s = some a) (hdata : ∀ id data, q = .pendingUpdate id data →
      data.codeHash.isSome = true ∨ data = { codeAttempts := some .increment }) {email : String}
    (hissues : issuesCode email ⟨q, a⟩ = false) {r' : PendingRegistration}
    (hr' : r' ∈ (model.applyAll (writes q a) s).pendingRegistrations) (hemail : r'.email = email) :
    ∃ r ∈ s.pendingRegistrations, r.email = email ∧
      r.codeAttempts + (if countsGuess email ⟨q, a⟩ then 1 else 0) ≤ r'.codeAttempts := by
  cases becomes_of_exec h hr' with
  | put data he =>
      rw [he] at hissues
      simp [issuesCode, hemail] at hissues
  | updated r data hr he hset =>
      rcases hdata r.id data (congrArg Event.stmt he) with hcode | rfl
      · rw [he, ← hset] at hissues
        simp [issuesCode, hcode, hemail] at hissues
      · subst hset
        refine ⟨r, hr, hemail, ?_⟩
        show _ ≤ r.codeAttempts + 1
        split <;> omega
  | kept hr hne =>
      refine ⟨r', hr, hemail, ?_⟩
      -- Another row of the address would be this one.
      have hcounts : countsGuess email ⟨q, a⟩ = false := by
        cases q with
        | pendingUpdate id data =>
            obtain ⟨r₀, hr₀, rfl⟩ := Option.map_eq_some_iff.1 h
            refine Bool.eq_false_iff.2 fun hcounts => hne (data.set r₀) rfl ?_
            exact hone r' hr r₀ (Table.mem_of_find? hr₀)
              (hemail.trans (email_of_countsGuess hcounts).symm)
        | _ => rfl
      simp [hcounts]

/-! ## What a step is to the guesses -/

section Steps

variable {email : String} {h : History interface} {p p' : Platform} {a : Step model Op}

theorem mem_guessers {k i : Nat} : i ∈ guessers email k h p ↔
    codeRead email i h = some k ∧ ∃ t, p.threads[i]? = some t ∧ guesses email t.trace = true := by
  simp only [guessers, Finset.mem_filter, Finset.mem_range, Option.any_eq_true]
  refine ⟨fun ⟨_, hread, ht⟩ => ⟨hread, ht⟩, fun ⟨hread, t, ht, hg⟩ => ?_⟩
  exact ⟨(List.getElem?_eq_some_iff.1 ht).1, hread, t, ht, hg⟩

theorem codesIssued_cons (i : Nat) (e : Ev) : codesIssued email ((i, e) :: h) =
    codesIssued email h + if issuesCode email e then 1 else 0 := by
  simp [codesIssued, List.countP_cons]

theorem codeRead_le {i k : Nat} (hread : codeRead email i h = some k) :
    k ≤ codesIssued email h := by
  induction h with
  | nil => cases hread
  | cons x h ih =>
      obtain ⟨j, e⟩ := x
      rw [codesIssued_cons]
      unfold codeRead at hread
      split at hread
      · cases hread
        exact Nat.le_add_right ..
      · exact Nat.le_trans (ih hread) (Nat.le_add_right ..)

/-- Once a call has done something, what it does further does not make it a guess. -/
theorem guesses_of_append {l l' : Log} {d : List Ev} (hop : l'.op = l.op)
    (hdone : l'.done = l.done ++ d) (hne : l.done ≠ []) (hg : guesses email l' = true) :
    guesses email l = true := by
  obtain ⟨o, d₀, tx⟩ := l
  obtain ⟨o', d', tx'⟩ := l'
  obtain rfl : o' = o := hop
  obtain rfl : d' = d₀ ++ d := hdone
  obtain ⟨e, d₁, rfl⟩ := List.exists_cons_of_ne_nil hne
  unfold guesses at hg ⊢
  cases o' with
  | verifyEmailByCode email' code =>
      simp only [List.cons_append, List.head?_cons, List.getElem?_cons_succ] at hg ⊢
      cases d₁ with
      | nil =>
          cases hfound : foundPending e with
          | none => simp [hfound] at hg
          | some row =>
              simp only [Option.bind_some, hfound, Option.any_some, decide_eq_true_eq] at hg ⊢
              exact ⟨hg.1, hg.2.1, by simp⟩
      | cons e' d₂ => exact hg
  | _ => cases hg

/-- What a guess goes by when it has read the row only. -/
theorem guess_cases {l : Log} {e : Ev} (hdone : l.done = [e]) (hg : guesses email l = true) :
    ∃ email' code email'' row, l.op = .verifyEmailByCode email' code ∧
      e = ⟨.pendingFindUniqueByEmail email'', some row⟩ ∧ row.email = email ∧ Misses code row := by
  obtain ⟨o, d, tx⟩ := l
  obtain rfl : d = [e] := hdone
  unfold guesses at hg
  cases o with
  | verifyEmailByCode email' code =>
      obtain ⟨q, x⟩ := e
      cases q with
      | pendingFindUniqueByEmail email'' =>
          cases x with
          | none => simp [foundPending] at hg
          | some row =>
              simp only [List.head?_cons, Option.bind_some, foundPending, Option.any_some,
                decide_eq_true_eq] at hg
              exact ⟨email', code, email'', row, rfl, rfl, hg.1, hg.2.1⟩
      | _ => simp [foundPending] at hg
  | _ => cases hg

/-- The call at place `i` is about to guess, and the step answers it. -/
def Starts (email : String) (p : Platform) (a : Step model Op) (i : Nat) : Prop :=
  ∃ c t, a = .exec i c ∧ p.threads[i]? = some t ∧ aboutToGuess email p.db t = true

theorem starts_of_answered {i : Nat} {c : Choice} {t t' : Thread interface Op Err Reply} {q : Stmt}
    {k : Except Failure (Ans q) → Call Reply} {x : Ans q} (ht : p.threads[i]? = some t)
    (hk : t.rest = some (.call q k)) (hx : exec q c p.db = some x) (hop : t'.trace.op = t.trace.op)
    (hdone : t'.trace.done = [⟨q, x⟩]) (hg : guesses email t'.trace = true) :
    Starts email p (.exec i c) i := by
  obtain ⟨email', code, email'', row, hcode, he, hemail, hmisses⟩ := guess_cases hdone hg
  cases he
  have hfind : p.db.pendingRegistrations.rows.find? (fun r => r.email = email'') = some row :=
    Option.some.inj hx
  have hsame : row.email = email'' := by simpa using List.find?_some hfind
  obtain rfl : email'' = email := hsame.symm.trans hemail
  refine ⟨c, t, rfl, ht, ?_⟩
  unfold aboutToGuess
  rw [hop.symm.trans hcode, next_of_call hk]
  simp [hfind, hmisses]

theorem op_of_guesses {l : Log} (hg : guesses email l = true) :
    ∃ email' code, l.op = .verifyEmailByCode email' code := by
  unfold guesses at hg
  split at hg
  · next heq => exact ⟨_, _, heq⟩
  · cases hg

theorem done_of_guesses {l : Log} (hg : guesses email l = true) : l.done ≠ [] := by
  intro hnil
  unfold guesses at hg
  split at hg
  · simp [hnil] at hg
  · cases hg

/-- The number of the code that a call has read changes when the call reads a pending row only. -/
theorem codeRead_step {i k : Nat}
    (hread : codeRead email i ((p.answering a).toList ++ h) = some k) :
    codeRead email i h = some k ∨ ∃ e, p.answering a = some (i, e) ∧
      (foundPending e).isSome = true ∧ k = codesIssued email h := by
  cases hans : p.answering a with
  | none => exact .inl (by simpa [hans] using hread)
  | some x =>
      obtain ⟨j, e⟩ := x
      simp only [hans, Option.toList_some, List.singleton_append, codeRead] at hread
      split at hread
      · next hfound =>
          obtain ⟨rfl, hfound⟩ := hfound
          obtain ⟨row, hrow, -⟩ := (Option.any_eq_true ..).1 hfound
          exact .inr ⟨e, rfl, by simp [hrow], (Option.some.inj hread).symm⟩
      · exact .inl hread

/-- A pending row is read outside transactions. -/
theorem outside_of_found {s₀ : World} {R : Platform → Step model Op → Prop}
    (hrun : Run prog R (idle s₀) p) {i : Nat} {e : Ev} (hans : p.answering a = some (i, e))
    (hfound : (foundPending e).isSome = true) : ∃ t c k, a = .exec i c ∧ p.threads[i]? = some t ∧
      t.trace.tx = none ∧ t.rest = some (.call e.stmt k) ∧
        (∃ email', e.stmt = .pendingFindUniqueByEmail email') := by
  obtain ⟨c, t, k, rfl, ht, hk, -⟩ := of_answering hans
  have hguard := (hrun.sound prog_sound).guard ht (next_of_call hk)
  obtain ⟨q, x⟩ := e
  cases q with
  | pendingFindUniqueByEmail email' => exact ⟨t, c, k, rfl, ht, hguard, hk, email', rfl⟩
  | _ => cases hfound

theorem guessers_step {s₀ : World} {R : Platform → Step model Op → Prop}
    (hrun : Run prog R (idle s₀) p) (hs : p.step prog a = some p') {k i : Nat}
    (hi : i ∈ guessers email k ((p.answering a).toList ++ h) p') :
    (i ∈ guessers email k h p ∧ (counted email p' i = true → counted email p i = true ∨
        ∃ e, p.answering a = some (i, e) ∧ countsGuess email e = true)) ∨
      Starts email p a i ∧ k = codesIssued email h ∧ counted email p' i = false := by
  obtain ⟨hread, t', ht', hg⟩ := mem_guessers.1 hi
  obtain ⟨t, ht, hop⟩ | ⟨o, -, rfl⟩ := (taken_of_step hs).origin ht'
  · have hcounted : ∀ d, t'.trace.done = t.trace.done ++ d → counted email p' i = true →
        counted email p i = true ∨ d.any (countsGuess email) = true := by
      intro d hdone hcounted
      simpa [counted, ht, ht', hdone] using hcounted
    -- An event that reads a pending row is the only one of its step.
    have hold : ∀ d, t'.trace.done = t.trace.done ++ d → (∀ e ∈ d, foundPending e = none) →
        codeRead email i h = some k := by
      intro d hdone hnone
      rcases codeRead_step hread with hold | ⟨e, hans, hfound, -⟩
      · exact hold
      · obtain ⟨u, c, r, rfl, hu, htx, -⟩ := outside_of_found hrun hans hfound
        obtain rfl := Option.some.inj (ht.symm.trans hu)
        obtain ⟨-, v, hv, hlast⟩ := step_of_answering hs hans ht htx
        obtain rfl := Option.some.inj (ht'.symm.trans hv)
        obtain rfl : d = [e] := List.append_cancel_left (hdone.symm.trans hlast)
        rw [hnone e (.head _)] at hfound
        cases hfound
    have hguess : ∀ d, t'.trace.done = t.trace.done ++ d → t.trace.done ≠ [] →
        codeRead email i h = some k → i ∈ guessers email k h p := fun d hdone hne hread =>
      mem_guessers.2 ⟨hread, t, ht, guesses_of_append hop.symm hdone hne hg⟩
    rcases (taken_of_step hs).grows ht ht' with hdone | ⟨c, q, r, x, rfl, htx, hk, hx, hdone⟩ |
      ⟨r, hk, hdone⟩
    · have hdone : t'.trace.done = t.trace.done ++ [] := by rw [hdone, List.append_nil]
      have hne : t.trace.done ≠ [] := by simpa [hdone] using done_of_guesses hg
      exact .inl ⟨hguess _ hdone hne (hold _ hdone (by simp)), fun hc =>
        .inl ((hcounted _ hdone hc).resolve_right (by simp))⟩
    · have hans : p.answering (.exec i c) = some (i, ⟨q, x⟩) :=
        answering_exec ht hk (by rwa [Trace.view_of_none htx])
      by_cases hnil : t.trace.done = []
      · rw [hnil, List.nil_append] at hdone
        obtain ⟨email', code, email'', row, -, he, hemail, -⟩ := guess_cases hdone hg
        refine .inr ⟨starts_of_answered ht hk hx hop.symm hdone hg, ?_, ?_⟩
        · simp [hans, he, codeRead, foundPending, hemail] at hread
          exact hread.symm
        · simp [counted, ht', hdone, he, countsGuess]
      · have hread : codeRead email i h = some k := by
          rcases codeRead_step hread with hread | ⟨e, hans', hfound, -⟩
          · exact hread
          · -- A verification by code reads the pending row first.
            obtain ⟨u, c', r', -, hu, -, hk', email', hq⟩ := outside_of_found hrun hans' hfound
            obtain rfl := Option.some.inj (ht.symm.trans hu)
            have hguard : codeGuard t.trace e.stmt :=
              (hrun.sound prog_code).guard ht (next_of_call hk')
            rw [hq] at hguard
            obtain ⟨email'', code, hcode⟩ := op_of_guesses hg
            exact absurd (hguard ⟨email'', code, hop.trans hcode⟩) hnil
        refine .inl ⟨hguess _ hdone hnil hread, fun hc => ?_⟩
        exact (hcounted _ hdone hc).imp_right fun hany => ⟨_, hans, by simpa using hany⟩
    · obtain ⟨userId, row, ids, hpending⟩ := ((hrun.sound prog_sound).conforms i t ht _ hk).2.1
      rw [hpending] at hdone
      have hne : t.trace.done ≠ [] := by
        intro hnil
        obtain ⟨email', code, hcode⟩ := op_of_guesses hg
        simp [guesses, hcode, hdone, hnil, foundPending] at hg
      refine .inl ⟨hguess _ hdone hne (hold _ hdone ?_), fun hc => .inl ?_⟩
      · simp [foundPending]
      · exact (hcounted _ hdone hc).resolve_right (by simp [countsGuess])
  · exact absurd rfl (done_of_guesses hg)

theorem onePending_step {s₀ : World} {R : Platform → Step model Op → Prop}
    (hrun : Run prog R (idle s₀) p) (hs : p.step prog a = some p') (hone : p.db.OnePending) :
    p'.db.OnePending := by
  have hstill : p'.db.pendingRegistrations = p.db.pendingRegistrations → p'.db.OnePending := by
    intro hsame
    unfold World.OnePending
    rwa [hsame]
  cases taken_of_step hs with
  | spawn o => exact hone
  | env n => exact hstill rfl
  | turn hans ht hop hdone hrun => exact hone
  | @commit i t k c ht hk =>
      exact hstill
        (pending_of_revocation ((hrun.sound prog_sound).conforms i t ht _ hk).2.1 p.db)
  | callTx ht hk htx hx => exact hone
  | call ht hk htx hx => exact hone.exec hx

/-- What a step that issues no code does to the pending row of an address. -/
theorem attempts_step {s₀ : World} {R : Platform → Step model Op → Prop}
    (hrun : Run prog R (idle s₀) p) (hs : p.step prog a = some p') (hone : p.db.OnePending)
    (hissues : ∀ x ∈ p.answering a, issuesCode email x.2 = false) {r' : PendingRegistration}
    (hr' : r' ∈ p'.db.pendingRegistrations) (hemail : r'.email = email) :
    ∃ r ∈ p.db.pendingRegistrations, r.email = email ∧
      r.codeAttempts + (if (p.answering a).any (countsGuess email ·.2) then 1 else 0) ≤
        r'.codeAttempts := by
  have hsound := hrun.sound prog_sound
  have hstill : p'.db.pendingRegistrations = p.db.pendingRegistrations →
      (p.answering a).any (countsGuess email ·.2) = false →
        ∃ r ∈ p.db.pendingRegistrations, r.email = email ∧
          r.codeAttempts + (if (p.answering a).any (countsGuess email ·.2) then 1 else 0) ≤
            r'.codeAttempts := by
    intro hsame hnone
    exact ⟨r', hsame ▸ hr', hemail, by simp [hnone]⟩
  cases taken_of_step hs with
  | spawn o => exact hstill rfl rfl
  | env n => exact hstill rfl rfl
  | turn hans ht hop hdone hrun => exact hstill rfl (by rw [hans]; rfl)
  | @commit i t k c ht hk =>
      exact hstill (pending_of_revocation (hsound.conforms i t ht _ hk).2.1 p.db)
        (by simp [answering, ht, hk])
  | @callTx i t q k c x ht hk htx hx =>
      -- Inside a transaction no pending registration is updated.
      have hguard := hsound.guard ht (next_of_call hk)
      refine hstill rfl ?_
      rw [answering_exec ht hk hx]
      cases q with
      | pendingUpdate id data => exact absurd hguard htx
      | _ => rfl
  | @call i t q k c x ht hk htx hx =>
      have hguard : codeGuard t.trace q := (hrun.sound prog_code).guard ht (next_of_call hk)
      rw [answering_exec ht hk (by rwa [Trace.view_of_none htx])] at hissues ⊢
      refine attempts_of_exec hone hx ?_ (hissues _ rfl) hr' hemail
      rintro id data rfl
      exact hguard

end Steps

/-! ## The bound -/

/-- The wrong codes that are counted. -/
def tallied (email : String) (k : Nat) (h : History interface) (p : Platform) : Finset Nat :=
  (guessers email k h p).filter fun i => counted email p i

/-- No code has had too many guesses, and those at the current code that are counted are on the
    counter of the row. -/
structure Fair (email : String) (h : History interface) (p : Platform) : Prop where
  one : p.db.OnePending
  bound : ∀ k, (guessers email k h p).card ≤ MAX_VERIFICATION_CODE_ATTEMPTS
  tally : ∀ r ∈ p.db.pendingRegistrations, r.email = email →
    (tallied email (codesIssued email h) h p).card ≤ r.codeAttempts

section Bound

variable {email : String} {h : History interface} {p p' : Platform} {a : Step model Op}

/-- The pending row that a guess is about to read. -/
theorem row_of_starts {i : Nat} (hstarts : Starts email p a i) :
    ∃ row ∈ p.db.pendingRegistrations, row.email = email ∧
      row.codeAttempts < MAX_VERIFICATION_CODE_ATTEMPTS := by
  obtain ⟨c, t, -, -, habout⟩ := hstarts
  unfold aboutToGuess at habout
  split at habout
  · simp only [Bool.and_eq_true, Option.any_eq_true, decide_eq_true_eq] at habout
    obtain ⟨-, row, hfind, hmisses, -⟩ := habout
    exact ⟨row, List.mem_of_find?_eq_some hfind, by simpa using List.find?_some hfind, hmisses⟩
  · cases habout

theorem Starts.unique {i j : Nat} (hi : Starts email p a i) (hj : Starts email p a j) : i = j := by
  obtain ⟨c, -, rfl, -⟩ := hi
  obtain ⟨c', -, heq, -⟩ := hj
  cases heq
  rfl

/-- A guess that starts is one more, and the ones before are all on the counter. -/
theorem Fair.starts (hfair : Fair email h p) (hR : GuessesCounted email h p a) {i : Nat}
    (hstarts : Starts email p a i) :
    (guessers email (codesIssued email h) h p).card < MAX_VERIFICATION_CODE_ATTEMPTS := by
  obtain ⟨row, hrow, hemail, hlt⟩ := row_of_starts hstarts
  obtain ⟨c, t, rfl, ht, habout⟩ := hstarts
  have hall : tallied email (codesIssued email h) h p = guessers email (codesIssued email h) h p :=
    Finset.filter_true_of_mem (hR t ht habout)
  exact hall ▸ Nat.lt_of_le_of_lt (hfair.tally row hrow hemail) hlt

theorem Fair.bound_step (hfair : Fair email h p) {s₀ : World}
    {R : Platform → Step model Op → Prop} (hrun : Run prog R (idle s₀) p)
    (hR : GuessesCounted email h p a) (hs : p.step prog a = some p') (k : Nat) :
    (guessers email k ((p.answering a).toList ++ h) p').card ≤ MAX_VERIFICATION_CODE_ATTEMPTS := by
  by_cases hnew : ∃ i ∈ guessers email k ((p.answering a).toList ++ h) p', i ∉ guessers email k h p
  · obtain ⟨i, hi, hnot⟩ := hnew
    obtain ⟨hstarts, rfl, -⟩ := (guessers_step hrun hs hi).resolve_left fun hold => hnot hold.1
    have hsub : guessers email (codesIssued email h) ((p.answering a).toList ++ h) p' ⊆
        insert i (guessers email (codesIssued email h) h p) := by
      intro j hj
      rcases guessers_step hrun hs hj with hold | ⟨hstarts', -⟩
      · exact Finset.mem_insert_of_mem hold.1
      · exact hstarts.unique hstarts' ▸ Finset.mem_insert_self ..
    exact ((Finset.card_le_card hsub).trans (Finset.card_insert_le ..)).trans
      (hfair.starts hR hstarts)
  · refine (Finset.card_le_card fun i hi => ?_).trans (hfair.bound k)
    exact Decidable.not_not.1 fun hnot => hnew ⟨i, hi, hnot⟩

/-- The wrong codes that are counted are one more after an event that counts one. -/
theorem card_tallied_step {s₀ : World} {R : Platform → Step model Op → Prop}
    (hrun : Run prog R (idle s₀) p) (hs : p.step prog a = some p') (k : Nat) :
    (tallied email k ((p.answering a).toList ++ h) p').card ≤
      (tallied email k h p).card +
        if (p.answering a).any (countsGuess email ·.2) then 1 else 0 := by
  have hmem : ∀ i ∈ tallied email k ((p.answering a).toList ++ h) p', i ∈ tallied email k h p ∨
      ∃ e, p.answering a = some (i, e) ∧ countsGuess email e = true := by
    intro i hi
    obtain ⟨hi, hcounted⟩ := Finset.mem_filter.1 hi
    rcases guessers_step hrun hs hi with ⟨hold, hback⟩ | ⟨-, -, hnot⟩
    · exact (hback hcounted).imp_left fun hcounted => Finset.mem_filter.2 ⟨hold, hcounted⟩
    · rw [hcounted] at hnot
      cases hnot
  by_cases hcounts : (p.answering a).any (countsGuess email ·.2) = true
  · obtain ⟨⟨i, e⟩, hans, -⟩ := (Option.any_eq_true ..).1 hcounts
    rw [if_pos hcounts]
    refine (Finset.card_le_card fun j hj => ?_).trans (Finset.card_insert_le i _)
    rcases hmem j hj with hold | ⟨e', hans', -⟩
    · exact Finset.mem_insert_of_mem hold
    · cases hans.symm.trans hans'
      exact Finset.mem_insert_self ..
  · rw [if_neg hcounts]
    refine Finset.card_le_card fun i hi => (hmem i hi).resolve_right ?_
    rintro ⟨e, hans, hcount⟩
    exact hcounts (by simp [hans, hcount])

/-- **A step that leaves no guess uncounted lets no code have too many.** -/
theorem Fair.step (hfair : Fair email h p) {s₀ : World} {R : Platform → Step model Op → Prop}
    (hrun : Run prog R (idle s₀) p) (hR : GuessesCounted email h p a)
    (hs : p.step prog a = some p') : Fair email ((p.answering a).toList ++ h) p' := by
  refine ⟨onePending_step hrun hs hfair.one, hfair.bound_step hrun hR hs,
    fun r' hr' hemail => ?_⟩
  by_cases hissues : ∀ x ∈ p.answering a, issuesCode email x.2 = false
  · obtain ⟨r, hr, hemail', hle⟩ := attempts_step hrun hs hfair.one hissues hr' hemail
    have hsame : codesIssued email ((p.answering a).toList ++ h) = codesIssued email h := by
      cases hans : p.answering a with
      | none => rfl
      | some x => simp [codesIssued, hissues x hans]
    rw [hsame]
    have htally := hfair.tally r hr hemail'
    exact (card_tallied_step hrun hs _).trans ((Nat.add_le_add_right htally _).trans hle)
  · -- Nobody has read the row since the new code was issued.
    have hnone : tallied email (codesIssued email ((p.answering a).toList ++ h))
        ((p.answering a).toList ++ h) p' = ∅ := by
      obtain ⟨⟨i, e⟩, hans, hissue⟩ : ∃ x, p.answering a = some x ∧
          issuesCode email x.2 = true := by simpa using hissues
      have hmore : codesIssued email ((p.answering a).toList ++ h) = codesIssued email h + 1 := by
        have hcons : codesIssued email ((i, e) :: h) = _ := codesIssued_cons i e
        simpa [hans, hissue] using hcons
      refine Finset.filter_eq_empty_iff.2 fun j hj _ => ?_
      rw [hmore] at hj
      rcases guessers_step hrun hs hj with ⟨hold, -⟩ | ⟨-, hk, -⟩
      · exact absurd (codeRead_le (mem_guessers.1 hold).1) (by omega)
      · omega
    simp [hnone]

theorem fair {s₀ : World} (hone : s₀.OnePending)
    (hrec : Recorded prog (GuessesCounted email) (idle s₀) h p) : Fair email h p := by
  induction hrec with
  | refl =>
      refine ⟨hone, fun k => ?_, fun r hr hemail => ?_⟩ <;>
        simp [tallied, guessers, idle]
  | step hrec hR hs ih => exact ih.step hrec.run hR hs

theorem wrongCodes_subset (k : Nat) : wrongCodes email k h p ⊆ guessers email k h p := by
  intro i hi
  obtain ⟨hrange, hread, hcompares⟩ := Finset.mem_filter.1 hi
  obtain ⟨t, ht, hcompares⟩ := (Option.any_eq_true ..).1 hcompares
  exact mem_guessers.2 ⟨hread, t, ht, (Bool.and_eq_true_iff.1 hcompares).1⟩

end Bound

/-! ## The users -/

/-- A user with an address keeps it, whatever is written. -/
theorem hasUser_applyAll {email : String} (ws : List Write) {s : World}
    (h : ∃ u ∈ s.users, u.email = email) : ∃ u ∈ (model.applyAll ws s).users, u.email = email := by
  refine @Model.applyAll_keeps _ model (fun t => ∃ u ∈ t.users, u.email = email) ws
    (fun w _ t ht => ?_) s h
  obtain ⟨u, hu, hemail⟩ := ht
  cases w with
  | newUser row => exact ⟨u, Table.mem_insert_of_mem hu, hemail⟩
  | user id data =>
      have hmem : (if Keyed.key u = id then data.set u else u) ∈
          t.users.modify id data.set data.key_set := Table.mem_modify.2 ⟨u, hu, rfl⟩
      refine ⟨_, hmem, ?_⟩
      split <;> exact hemail
  | _ => exact ⟨u, hu, hemail⟩

section Users

variable {email : String} {h : History interface} {p p' : Platform} {a : Step model Op}

theorem hasUser_step (hs : p.step prog a = some p') (hu : ∃ u ∈ p.db.users, u.email = email) :
    ∃ u ∈ p'.db.users, u.email = email := by
  cases taken_of_step hs with
  | call => exact hasUser_applyAll _ hu
  | commit => exact hasUser_applyAll _ hu
  | _ => exact hu

/-- A user is created with an address that no user has, and has it then. -/
theorem hasUser_of_created {s₀ : World} {R : Platform → Step model Op → Prop}
    (hrun : Run prog R (idle s₀) p) (hs : p.step prog a = some p') {i : Nat} {e : Ev}
    (hans : p.answering a = some (i, e)) (hcreates : createsUser email e = true) :
    (¬ ∃ u ∈ p.db.users, u.email = email) ∧ ∃ u ∈ p'.db.users, u.email = email := by
  obtain ⟨c, t, k, -, ht, hk, hexec⟩ := of_answering hans
  obtain ⟨q, row⟩ := e
  cases q with
  | userCreate data =>
      have htx : t.trace.tx = none := ((hrun.sound prog_sound).guard ht (next_of_call hk)).1
      obtain ⟨hdb, -⟩ := step_of_answering hs hans ht htx
      rw [Trace.view_of_none htx] at hexec
      cases c <;> simp only [exec, reduceCtorEq] at hexec
      split at hexec
      · cases hexec
      · next id hfree =>
          obtain rfl := Option.some.inj hexec
          have hemail : data.email = email := of_decide_eq_true hcreates
          have hnone : ∀ u ∈ p.db.users, ¬ (u.id = id ∨ u.email = email) := fun u hu htaken =>
            hfree (.inr (List.any_eq_true.2 ⟨u, hu, decide_eq_true (hemail ▸ htaken)⟩))
          refine ⟨?_, data.row id, ?_, hemail⟩
          · rintro ⟨u, hu, hu'⟩
            exact hnone u hu (.inr hu')
          have hfresh : p.db.users.contains id = false := by
            refine Bool.eq_false_iff.2 fun htaken => ?_
            obtain ⟨u, hu, hid⟩ := List.mem_map.1 (Table.contains_iff.1 htaken)
            exact hnone u hu (.inl hid)
          rw [hdb]
          exact (Table.mem_insert (r := data.row id) hfresh).2 (.inr rfl)
  | _ => cases hcreates

/-- At most one user is created with an address, and the address is taken then. -/
theorem usersCreated_cases {s₀ : World} {R : History interface → Platform → Step model Op → Prop}
    (hrec : Recorded prog R (idle s₀) h p) : usersCreated email h = 0 ∨
      usersCreated email h = 1 ∧ ∃ u ∈ p.db.users, u.email = email := by
  induction hrec with
  | refl => exact .inl rfl
  | @step h p p' a hrec hR hs ih =>
      cases hans : p.answering a with
      | none => exact ih.imp_right fun hone => ⟨hone.1, hasUser_step hs hone.2⟩
      | some x =>
          have hcons : usersCreated email (x :: h) =
              usersCreated email h + if createsUser email x.2 then 1 else 0 := by
            simp [usersCreated, List.countP_cons]
          show usersCreated email (x :: h) = 0 ∨ usersCreated email (x :: h) = 1 ∧ _
          rw [hcons]
          by_cases hcreates : createsUser email x.2 = true
          · obtain ⟨hnone, huser⟩ := hasUser_of_created hrec.run hs hans hcreates
            rw [if_pos hcreates, ih.resolve_right fun hone => hnone hone.2]
            exact .inr ⟨rfl, huser⟩
          · rw [if_neg hcreates]
            exact ih.imp_right fun hone => ⟨hone.1, hasUser_step hs hone.2⟩

end Users

/-- **A code has at most `MAX_VERIFICATION_CODE_ATTEMPTS` wrong guesses**, in every run in which
    each is counted before the next one reads the counter. And at most one user is created with an
    address, in every run. -/
theorem guesses_bounded {s₀ : World} (hone : s₀.OnePending) (email : String) :
    (∀ (h : History interface) (p : Platform),
      Recorded prog (GuessesCounted email) (idle s₀) h p → ∀ k,
        (wrongCodes email k h p).card ≤ MAX_VERIFICATION_CODE_ATTEMPTS) ∧
    ∀ (h : History interface) (p : Platform),
      Recorded prog (fun _ _ _ => True) (idle s₀) h p → usersCreated email h ≤ 1 := by
  refine ⟨fun h p hrec k => ?_, fun h p hrec => ?_⟩
  · exact (Finset.card_le_card (wrongCodes_subset k)).trans ((fair hone hrec).bound k)
  · have hcases : usersCreated email h = 0 ∨ usersCreated email h = 1 ∧ _ := usersCreated_cases hrec
    omega

/-- A guess at the code of Jean, the call at place `i`, up to where it has read the pending row. -/
def guessStart (i : Nat) : List (Step model Op) :=
  .spawn (.verifyEmailByCode "jean@get.mg" "000000") :: commands i 1

/-- Jean registers, in the first call. -/
def jeanRegisters : List (Step model Op) := registerCommands 0 jeanDto "hash" "phone" 111111

theorem onePending_empty : World.empty.OnePending := by
  intro r hr
  cases hr

/-- Eight guesses one after the other, all of them wrong. -/
theorem guesses_bounded_in_turn : ∃ (h : History interface) (p : Platform),
    Recorded prog (GuessesCounted "jean@get.mg") (idle World.empty) h p ∧
      (wrongCodes "jean@get.mg" 1 h p).card = 8 ∧
        ∀ k, (wrongCodes "jean@get.mg" k h p).card ≤ MAX_VERIFICATION_CODE_ATTEMPTS := by
  have hplay : (playOn prog (GuessesCounted "jean@get.mg") ([], (idle World.empty : Platform))
      (jeanRegisters ++ (List.range' 1 8).flatMap fun i => guessStart i ++ commands i 2)).any
        (fun hp => (wrongCodes "jean@get.mg" 1 hp.1 hp.2).card = 8) = true := by
    decide +kernel
  obtain ⟨hp, hplay, hcard⟩ := (Option.any_eq_true ..).1 hplay
  have hstart : Recorded prog (GuessesCounted "jean@get.mg") (idle World.empty : Platform) []
      (idle World.empty) := .refl
  have hrec := hstart.onward (Onward.of_playOn hplay)
  exact ⟨hp.1, hp.2, hrec, of_decide_eq_true hcard,
    (guesses_bounded onePending_empty "jean@get.mg").1 hp.1 hp.2 hrec⟩

/-- Nine guesses that all read the row before the first one is counted. -/
theorem not_guesses_bounded :
    ¬ ∀ (s₀ : World) (email : String) (h : History interface) (p : Platform), s₀.OnePending →
      Recorded prog (fun _ _ _ => True) (idle s₀) h p →
        (∀ k, (wrongCodes email k h p).card ≤ MAX_VERIFICATION_CODE_ATTEMPTS) ∧
          usersCreated email h ≤ 1 := by
  intro hall
  have hplay : (playOn prog (fun _ _ _ => True) ([], (idle World.empty : Platform))
      (jeanRegisters ++ (List.range' 1 9).flatMap guessStart ++
        (List.range' 1 9).flatMap fun i => commands i 1)).any
          (fun hp => (wrongCodes "jean@get.mg" 1 hp.1 hp.2).card = 9) = true := by
    decide +kernel
  obtain ⟨hp, hplay, hcard⟩ := (Option.any_eq_true ..).1 hplay
  have hstart : Recorded prog (fun _ _ _ => True) (idle World.empty : Platform) []
      (idle World.empty) := .refl
  have hrec := hstart.onward (Onward.of_playOn hplay)
  have hle := (hall World.empty "jean@get.mg" hp.1 hp.2 onePending_empty hrec).1 1
  rw [of_decide_eq_true hcard] at hle
  exact absurd hle (by decide)

end GetPlatform.Auth
