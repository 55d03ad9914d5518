import GetPlatform.Auth.Guards
import GetPlatform.Store.Record

set_option autoImplicit false

/-! # Whose data a verified address activates

A registration waits in a pending row until its address is verified, by the link of a mail or by the
code in it. A second registration of the address writes its own data over the row and keeps the
identifier, which is all that a link names. So a link activates whatever the row holds when it is
followed: the data it was mailed for, as long as nobody has registered the address again. -/

namespace GetPlatform.Auth

open Pool Prog

/-! ## Credentials and what they stand for -/

/-- What a mail lets its reader verify the address with. -/
inductive Credential where
  | link (token : Token)
  | code (email code : String)

def Mail.Carries : Mail → Credential → Prop
  | .verification _ _ verifyToken _, .link token => verifyToken = token
  | .verification email _ _ code, .code email' code' => email = email' ∧ code = code'
  | .passwordReset .., _ => False

instance (m : Mail) (c : Credential) : Decidable (m.Carries c) := by
  cases m <;> cases c <;> unfold Mail.Carries <;> infer_instance

/-- The credential a verification is presented with. -/
def Op.credential : Op → Option Credential
  | .verifyEmailByToken token => some (.link token)
  | .verifyEmailByCode email code => some (.code email code)
  | _ => none

/-- What becomes of a registration: the password hash and the names and phone of the account. -/
structure Details where
  password : Hash
  student : Student
  deriving DecidableEq

def PendingRegistration.details (r : PendingRegistration) : Details :=
  ⟨r.passwordHash, ⟨r.firstName, r.lastName, r.phone⟩⟩

/-- The pending row an event wrote. -/
def written : Ev → Option PendingRegistration
  | ⟨.pendingUpsert _, row⟩ => some row
  | ⟨.pendingUpdate .., row⟩ => some row
  | _ => none

/-- The pending row an event read by its identifier, as `completeEmailVerification` does. -/
def pendingRead : Ev → Option PendingRegistration
  | ⟨.pendingFindUnique _, found⟩ => found
  | _ => none

/-- The account an event created. -/
def created : Ev → Option Details
  | ⟨.userCreate data, _⟩ => some ⟨data.password, data.student⟩
  | _ => none

def mailed : Ev → Option Mail
  | ⟨.sendRawEmail mail, _⟩ => some mail
  | _ => none

/-- The text an event made a hash of, or encrypted, and what came of it. -/
def hashed : Ev → Option (String × Hash)
  | ⟨.bcryptHash password, hash⟩ => some (password, hash)
  | _ => none

def encrypted : Ev → Option (String × String)
  | ⟨.encrypt text, cipher⟩ => some (text, cipher)
  | _ => none

/-- Does the call send verification mails? -/
def Op.invites : Op → Bool
  | .register _ => true
  | .resendVerification _ => true
  | _ => false

/-- The call is a registration or a resend, and has sent a mail that carries `c`. -/
def Mails (l : Log) (c : Credential) : Prop :=
  l.op.invites = true ∧ ∃ e ∈ l.done, ∃ m ∈ mailed e, m.Carries c

instance (l : Log) (c : Credential) : Decidable (Mails l c) :=
  inferInstanceAs (Decidable (_ ∧ ∃ e ∈ l.done, ∃ m ∈ mailed e, _))

/-- The data behind the mail of a call: those a registration was called with, hashed and encrypted
    as it did; those a resend found pending. -/
def Supplies (l : Log) (d : Details) : Prop :=
  match l.op with
  | .register dto =>
      d.student.firstName = dto.firstName ∧ d.student.lastName = dto.lastName ∧
        (∃ e ∈ l.done, hashed e = some (dto.password, d.password)) ∧
        ∃ e ∈ l.done, encrypted e = some (dto.phone, d.student.phone)
  | .resendVerification _ => ∃ e ∈ l.done, ∃ r ∈ written e, r.details = d
  | _ => False

instance (l : Log) (d : Details) : Decidable (Supplies l d) := by
  unfold Supplies
  split <;> infer_instance

/-- Every account that a verification has created holds the data that were mailed with the
    credential. -/
def LinkIntegrity (p : Platform) : Prop :=
  ∀ t ∈ p.threads, ∀ c ∈ t.trace.op.credential, ∀ e ∈ t.trace.done, ∀ d ∈ created e,
    ∃ u ∈ p.threads, Mails u.trace c ∧ Supplies u.trace d

instance (p : Platform) : Decidable (LinkIntegrity p) :=
  inferInstanceAs (Decidable (∀ t ∈ p.threads, ∀ c ∈ t.trace.op.credential, ∀ e ∈ t.trace.done,
    ∀ d ∈ created e, ∃ u ∈ p.threads, _))

/-! ## When a link still stands for what it was mailed for -/

/-- The calls that have written the pending row `id` since it was last registered, the registration
    included. -/
def holders (id : Id) : History interface → List Nat
  | [] => []
  | (j, ⟨.pendingUpsert _, row⟩) :: h => if row.id = id then [j] else holders id h
  | (j, ⟨.pendingUpdate .., row⟩) :: h => if row.id = id then j :: holders id h else holders id h
  | _ :: h => holders id h

/-- The pending row that a call is about to read by its identifier. -/
def readsPending (t : Thread interface Op Err Reply) : Option Id :=
  match t.next? with
  | some (.pendingFindUnique id) => some id
  | _ => none

/-- When a verification reads the pending row, nobody has registered the address again since the row
    was written by a call that mailed the credential. -/
def Intact (h : History interface) (p : Platform) : Step model Op → Prop
  | .exec i _ => ∀ t ∈ p.threads[i]?, ∀ c ∈ t.trace.op.credential, ∀ id ∈ readsPending t,
      p.db.pendingRegistrations.contains id = true →
        ∃ j ∈ holders id h, ∃ u ∈ p.threads[j]?, Mails u.trace c
  | _ => True

instance (h : History interface) (p : Platform) (a : Step model Op) : Decidable (Intact h p a) :=
  match a with
  | .exec .. => by dsimp only [Intact]; infer_instance
  | .spawn _ | .fault .. | .crash _ | .env _ => inferInstanceAs (Decidable True)

/-! ## What the programs guarantee -/

/-- A registration writes what it was called with; an account is made of the pending row that was
    read. -/
def registrationGuard (l : Log) (q : Stmt) : Prop :=
  match l.op, q with
  | .register dto, .pendingUpsert data =>
      data.firstName = dto.firstName ∧ data.lastName = dto.lastName ∧
        (∃ e ∈ l.done, hashed e = some (dto.password, data.passwordHash)) ∧
        ∃ e ∈ l.done, encrypted e = some (dto.phone, data.phone)
  | .register _, .pendingUpdate .. => False
  | .verifyEmailByToken _, .userCreate data =>
      ∃ e ∈ l.done, ∃ r ∈ pendingRead e, r.details = ⟨data.password, data.student⟩
  | .verifyEmailByCode .., .userCreate data =>
      ∃ e ∈ l.done, ∃ r ∈ pendingRead e, r.details = ⟨data.password, data.student⟩
  | _, _ => True

def registrationGuards : Guards interface Op where
  stmt := registrationGuard
  commit _ := True

section Conformance

variable {α : Type} {Q : Log → α → Prop} {E : Log → Err → Prop} {o : Op} {d : List Ev}

@[simp] theorem registration_send {l : Log} {q : Stmt} {Q : Log → Ans q → Prop} :
    @Conforms interface model Err (no_index (Ans q)) Op registrationGuards (send q) Q E l ↔
      registrationGuard l q ∧ (∀ f, E l (.database f)) ∧
        ∀ a, model.Possible q a → Q (l.push ⟨q, a⟩) a := Iff.rfl

/-- Statements that create no account and write no pending row. -/
def Aside : Stmt → Prop
  | .userCreate _ => False
  | .pendingUpsert _ => False
  | .pendingUpdate .. => False
  | _ => True

theorem Aside.guard {l : Log} {q : Stmt} (h : Aside q) : registrationGuard l q := by
  obtain ⟨o, d, tx⟩ := l
  cases q <;> first | exact h.elim | (cases o <;> trivial)

theorem registration_of_aside {p : Call α} (hp : p.Only Aside) (hQ : ∀ d' a, Q ⟨o, d', none⟩ a)
    (hE : ∀ d' e, E ⟨o, d', none⟩ e) : p.Conforms model registrationGuards Q E ⟨o, d, none⟩ :=
  hp.conforms_outside (fun _ _ _ hq => hq.guard) (fun _ _ => hQ _) fun _ _ => hE _

theorem aside_deletePending (pendingId : Id) : (deletePending pendingId).Only Aside := by
  simp [deletePending, Aside]

theorem aside_sendVerificationEmail (pending : PendingRegistration) (code : String) :
    (sendVerificationEmail pending code).Only Aside := by
  simp only [sendVerificationEmail, bind_eq, throw_eq, tryCatch_eq, only_send_handle, only_fail,
    only_ret, implies_true, and_true, true_and]
  exact ⟨trivial, fun _ => ⟨trivial, fun _ =>
    (aside_deletePending _).handle (fun _ => trivial) fun _ => trivial⟩⟩

theorem aside_issueTokens (user : User) (rememberMe : Bool) :
    (issueTokens user rememberMe).Only Aside := by
  simp only [issueTokens, tokensFor, bind_eq, only_send_handle, only_fail, implies_true, and_true]
  refine ⟨trivial, fun jti => ⟨trivial, fun _ => ?_⟩⟩
  cases user.role <;> simp [generateTokens, Aside]

theorem register_supplies (dto : RegisterDto) :
    (register dto).Conforms model registrationGuards (fun _ _ => True) (fun _ _ => True)
      (.start (.register dto)) := by
  simp only [register, bind_eq, pure_eq, throw_eq, conforms_ite, conforms_handle,
    registration_send, conforms_fail, handle_fail, conforms_ret, Trace.start_eq,
    Trace.push_outside, List.nil_append, List.cons_append, implies_true, true_and]
  refine fun _ => ⟨trivial, fun _ _ _ => ⟨trivial, fun hash _ => ⟨trivial, fun code _ =>
    ⟨trivial, fun now _ => ⟨trivial, fun phone _ => ⟨trivial, fun now' _ => ⟨?_, fun row _ =>
      ?_⟩⟩⟩⟩⟩⟩⟩
  · exact ⟨rfl, rfl, ⟨⟨.bcryptHash dto.password, hash⟩, by simp, rfl⟩,
      ⟨.encrypt dto.phone, phone⟩, by simp, rfl⟩
  · exact registration_of_aside (aside_sendVerificationEmail ..) (fun _ _ => trivial)
      fun _ _ => trivial

theorem completeEmailVerification_creates (hop : ∀ data d, (∃ e ∈ d, ∃ r ∈ pendingRead e,
      r.details = ⟨data.password, data.student⟩) → registrationGuard ⟨o, d, none⟩ (.userCreate data))
    (pendingId : Id) :
    (completeEmailVerification pendingId).Conforms model registrationGuards (fun _ _ => True)
      (fun _ _ => True) ⟨o, d, none⟩ := by
  have hgiveUp : ∀ d, (deletePending pendingId).Conforms model registrationGuards
      (fun _ _ => True) (fun _ _ => True) ⟨o, d, none⟩ := fun d =>
    registration_of_aside (aside_deletePending _) (fun _ _ => trivial) fun _ _ => trivial
  simp only [completeEmailVerification, bind_eq, pure_eq, throw_eq, conforms_handle,
    registration_send, conforms_fail, handle_fail, Trace.push_outside, implies_true, true_and]
  refine ⟨Aside.guard trivial, fun found _ => ?_⟩
  cases found with
  | none => trivial
  | some pending =>
      simp only [conforms_handle, registration_send, conforms_fail, conforms_ite,
        Trace.push_outside, List.append_assoc, List.cons_append, List.nil_append, implies_true,
        true_and]
      refine ⟨Aside.guard trivial, fun now _ => ⟨fun _ => hgiveUp _, fun _ =>
        ⟨Aside.guard trivial, fun existing _ => ⟨fun _ => hgiveUp _, fun _ =>
          ⟨Aside.guard trivial, fun role _ => ?_⟩⟩⟩⟩⟩
      cases role with
      | none => trivial
      | some role =>
          simp only [conforms_handle, registration_send, conforms_fail, conforms_ret,
            Trace.push_outside, List.append_assoc, List.cons_append, List.nil_append,
            implies_true, true_and]
          refine ⟨hop _ _ ⟨⟨.pendingFindUnique pendingId, some pending⟩, by simp, pending, rfl,
            rfl⟩, fun user _ => ⟨Aside.guard trivial, fun _ _ => ?_⟩⟩
          exact registration_of_aside (aside_issueTokens ..) (fun _ _ => trivial)
            fun _ _ => trivial

theorem verifyEmailByToken_creates (token : Token) :
    (verifyEmailByToken token).Conforms model registrationGuards (fun _ _ => True)
      (fun _ _ => True) (.start (.verifyEmailByToken token)) := by
  simp only [verifyEmailByToken, verify, bind_eq, throw_eq, tryCatch_eq, pure_eq, conforms_handle,
    registration_send, conforms_ret, handle_fail, conforms_fail, Trace.start_eq,
    Trace.push_outside, List.nil_append, implies_true, true_and]
  refine ⟨trivial, fun payload _ => ?_⟩
  cases payload with
  | none => trivial
  | some payload =>
      simp only [conforms_ite, conforms_fail, implies_true, true_and]
      exact fun _ =>
        completeEmailVerification_creates (o := .verifyEmailByToken token) (fun _ _ h => h) _

theorem verifyEmailByCode_creates (email code : String) :
    (verifyEmailByCode email code).Conforms model registrationGuards (fun _ _ => True)
      (fun _ _ => True) (.start (.verifyEmailByCode email code)) := by
  simp only [verifyEmailByCode, bind_eq, throw_eq, conforms_handle, registration_send,
    conforms_fail, handle_fail, Trace.start_eq, Trace.push_outside, List.nil_append,
    implies_true, true_and]
  refine ⟨trivial, fun found _ => ?_⟩
  cases found with
  | none => trivial
  | some pending =>
      simp only [conforms_handle, registration_send, conforms_fail, conforms_ite,
        Trace.push_outside, List.cons_append, List.nil_append, implies_true, and_true, true_and]
      refine ⟨trivial, fun now _ => ⟨fun _ => ?_, fun _ _ => ⟨fun _ => trivial, fun _ => ?_⟩⟩⟩
      · exact registration_of_aside (aside_deletePending _) (fun _ _ => trivial)
          fun _ _ => trivial
      · exact completeEmailVerification_creates (o := .verifyEmailByCode email code)
          (fun _ _ h => h) _

theorem prog_registration (o : Op) :
    (prog o).Conforms model registrationGuards (fun _ _ => True) (fun _ _ => True) (.start o) := by
  cases o with
  | register dto =>
      exact (conforms_handle ..).2 <| register_supplies dto
  | verifyEmailByToken token => exact (conforms_handle ..).2 <| verifyEmailByToken_creates token
  | verifyEmailByCode email code =>
      exact (conforms_handle ..).2 <| verifyEmailByCode_creates email code
  | _ =>
      -- The other calls are left free.
      refine (prog_sound _).retarget (sends_any _) ?_ fun _ _ => trivial
      rintro ⟨o, d, tx⟩ rfl q -
      trivial

end Conformance

/-! ## The invariant -/

/-- The pending rows of `s'` were there in `s`, with the same details. -/
def DetailsKept (s s' : World) : Prop :=
  ∀ id r', s'.pendingRegistrations.find? id = some r' →
    ∃ r, s.pendingRegistrations.find? id = some r ∧ r'.details = r.details

theorem detailsKept_refl (s : World) : DetailsKept s s := fun _ r h => ⟨r, h, rfl⟩

theorem detailsKept_apply {w : Write} (hw : ∀ row, w ≠ .pending row) (s : World) :
    DetailsKept s (World.apply w s) := by
  intro id r' hr'
  cases w with
  | pending row => exact absurd rfl (hw row)
  | pendingData k data =>
      simp only [World.apply, Table.find?_modify] at hr'
      split at hr'
      · next hid =>
          obtain ⟨r, hr, rfl⟩ := Option.map_eq_some_iff.1 hr'
          exact ⟨r, hid ▸ hr, rfl⟩
      · exact ⟨r', hr', rfl⟩
  | noPending k =>
      have hmem := Table.mem_of_find? hr'
      rw [World.apply, Table.mem_filter] at hmem
      exact ⟨r', Table.find?_eq_some.2 ⟨hmem.1, Table.key_of_find? hr'⟩, rfl⟩
  | _ => exact ⟨r', hr', rfl⟩

theorem detailsKept_applyAll {ws : List Write} (hws : ∀ w ∈ ws, ∀ row, w ≠ .pending row)
    (s : World) : DetailsKept s (model.applyAll ws s) := by
  induction ws generalizing s with
  | nil => exact detailsKept_refl s
  | cons w ws ih =>
      intro id r' hr'
      obtain ⟨r₁, hr₁, heq⟩ := ih (fun v hv => hws v (.tail _ hv)) _ id r' hr'
      obtain ⟨r, hr, heq'⟩ := detailsKept_apply (hws w (.head _)) s id r₁ hr₁
      exact ⟨r, hr, heq.trans heq'⟩

/-- A statement other than a registration's keeps the details. -/
theorem detailsKept_of_exec {q : Stmt} (hq : ∀ data, q ≠ .pendingUpsert data) (a : Ans q)
    (s : World) : DetailsKept s (model.applyAll (writes q a) s) := by
  refine detailsKept_applyAll (fun w hw row => ?_) s
  rintro rfl
  cases q with
  | pendingUpsert data => exact hq data rfl
  | refreshSessionUpdateMany userId jti newJti =>
      cases jti with
      | none => simp [writes] at hw
      | some jti =>
          simp only [writes] at hw
          split at hw <;> simp at hw
  | _ => simp [writes] at hw

theorem detailsKept_revocation {l : Log} (hcommit : commitGuard l) (s : World) :
    DetailsKept s (l.view model s) := by
  obtain ⟨userId, row, ids, hpending⟩ := hcommit
  refine detailsKept_applyAll (fun w hw row' => ?_) s
  rintro rfl
  simp [hpending, Model.writesOf, writes] at hw

/-- Call `j` has written a pending row whose details are those of `r`. -/
def Wrote (p : Platform) (j : Nat) (d : Details) : Prop :=
  ∃ t, p.threads[j]? = some t ∧ ∃ e ∈ t.trace.done, ∃ r ∈ written e, r.details = d

theorem Wrote.moves {p p' : Platform} {j : Nat} {d : Details} (h : Wrote p j d)
    (hm : Moves prog p p') : Wrote p' j d := by
  obtain ⟨t, ht, e, he, hr⟩ := h
  obtain ⟨t', ht', -, hdone⟩ := hm.keeps ht
  exact ⟨t', ht', e, hdone.subset he, hr⟩

/-- The row `id` holds what each of its holders has written into it. -/
def Held (h : History interface) (p : Platform) : Prop :=
  ∀ id, ∀ j ∈ holders id h, ∃ d, Wrote p j d ∧
    ∀ r, p.db.pendingRegistrations.find? id = some r → r.details = d

theorem Held.kept {h : History interface} {p p' : Platform} (hheld : Held h p)
    (hm : Moves prog p p') (hkept : DetailsKept p.db p'.db) : Held h p' := by
  intro id j hj
  obtain ⟨d, hwrote, hd⟩ := hheld id j hj
  refine ⟨d, hwrote.moves hm, fun r' hr' => ?_⟩
  obtain ⟨r, hr, heq⟩ := hkept id r' hr'
  exact heq.trans (hd r hr)

/-- A registration becomes the only holder of the row it writes. -/
theorem Held.register {h : History interface} {p p' : Platform} (hheld : Held h p)
    (hm : Moves prog p p') {i : Nat} {data : PendingUpsert} {row : PendingRegistration}
    (hdb : p'.db = model.applyAll (writes (.pendingUpsert data) row) p.db)
    (hwrote : Wrote p' i row.details) : Held ((i, ⟨.pendingUpsert data, row⟩) :: h) p' := by
  have hfind : ∀ id, p'.db.pendingRegistrations.find? id =
      if id = row.id then some row else p.db.pendingRegistrations.find? id := by
    intro id
    rw [hdb]
    exact Table.find?_put _ _ _
  intro id j hj
  by_cases hid : row.id = id
  · simp only [holders, hid, if_true, List.mem_singleton] at hj
    subst hj
    refine ⟨_, hwrote, fun r hr => ?_⟩
    rw [hfind, if_pos hid.symm] at hr
    rw [Option.some.inj hr]
  · simp only [holders, hid, if_false] at hj
    obtain ⟨d, hd, hrow⟩ := hheld id j hj
    refine ⟨d, hd.moves hm, fun r hr => hrow r ?_⟩
    rwa [hfind, if_neg (Ne.symm hid)] at hr

/-- An update of the row joins its holders. -/
theorem Held.update {h : History interface} {p p' : Platform} (hheld : Held h p)
    (hm : Moves prog p p') {i : Nat} {id : Id} {data : PendingData} {row : PendingRegistration}
    {c : Choice} (hexec : exec (.pendingUpdate id data) c p.db = some row)
    (hdb : p'.db = model.applyAll (writes (.pendingUpdate id data) row) p.db)
    (hwrote : Wrote p' i row.details) : Held ((i, ⟨.pendingUpdate id data, row⟩) :: h) p' := by
  have hkept : DetailsKept p.db p'.db := 
    hdb ▸ detailsKept_of_exec (q := .pendingUpdate id data) (by simp) row p.db
  have hold := hheld.kept hm hkept
  intro id' j hj
  simp only [holders] at hj
  split at hj
  · next hid =>
      rcases List.mem_cons.1 hj with rfl | hj
      · refine ⟨_, hwrote, fun r' hr' => ?_⟩
        obtain ⟨r, hr, heq⟩ := hkept id' r' hr'
        obtain ⟨r₀, hr₀, rfl⟩ := Option.map_eq_some_iff.1 hexec
        have hkey : r₀.id = id := Table.key_of_find? hr₀
        have hid' : id = id' := hkey.symm.trans hid
        rw [hid', hr] at hr₀
        rw [heq, Option.some.inj hr₀]
        rfl
      · exact hold id' j hj
  · exact hold id' j hj

theorem held {s₀ : World} {R : History interface → Platform → Step model Op → Prop}
    {h : History interface} {p : Platform} (hrec : Recorded prog R (idle s₀) h p) : Held h p := by
  induction hrec with
  | refl =>
      intro id j hj
      simp [holders] at hj
  | @step h p p' a hrec hR hs ih =>
      have hm := moves_of_step hs
      have hsound := hrec.run.sound prog_sound
      have hstill : DetailsKept p.db p'.db → p.answering a = none →
          Held ((p.answering a).toList ++ h) p' := by
        intro hkept hans
        rw [hans]
        exact ih.kept hm hkept
      cases taken_of_step hs with
      | spawn o => exact hstill (detailsKept_refl _) rfl
      | env n => exact hstill (detailsKept_refl _) rfl
      | turn hans ht hop hdone hrun => exact hstill (detailsKept_refl _) hans
      | @commit i t k c ht hk =>
          exact hstill (detailsKept_revocation (hsound.conforms i t ht _ hk).2.1 p.db)
            (by simp [answering, ht, hk])
      | @callTx i t q k c x ht hk htx hx =>
          -- Inside a transaction nothing is registered.
          rw [answering_exec ht hk hx]
          have hguard := hsound.guard ht (next_of_call hk)
          have hold : Held h _ := ih.kept hm (detailsKept_refl _)
          cases q with
          | pendingUpsert data => exact absurd hguard htx
          | pendingUpdate id data => exact absurd hguard htx
          | _ => exact hold
      | @call i t q k c x ht hk htx hx =>
          rw [answering_exec ht hk (by rwa [Trace.view_of_none htx])]
          have hwrote : ∀ r ∈ written ⟨q, x⟩, Wrote ⟨model.applyAll (writes q x) p.db,
              p.threads.set i ⟨t.trace.push ⟨q, x⟩, some (k (.ok x))⟩⟩ i r.details := by
            intro r hr
            refine ⟨_, List.getElem?_set_self (List.getElem?_eq_some_iff.1 ht).1, ⟨q, x⟩, ?_, r, hr,
              rfl⟩
            rw [Trace.push_of_none htx]
            simp
          have hkept : (∀ data, q ≠ .pendingUpsert data) → Held h _ := fun hq =>
            ih.kept hm (detailsKept_of_exec hq x p.db)
          cases q with
          | pendingUpsert data => exact ih.register hm rfl (hwrote x rfl)
          | pendingUpdate id data => exact ih.update (c := c) hm hx rfl (hwrote x rfl)
          | _ => exact hkept (by simp)

/-! ## What a verification reads -/

/-- Some call has mailed `c`, and has written details `d`. -/
def MailedFor (p : Platform) (c : Credential) (d : Details) : Prop :=
  ∃ (j : Nat) (u : Thread interface Op Err Reply), p.threads[j]? = some u ∧ Mails u.trace c ∧
    ∃ e ∈ u.trace.done, ∃ r ∈ written e, r.details = d

theorem MailedFor.moves {p p' : Platform} {c : Credential} {d : Details} (h : MailedFor p c d)
    (hm : Moves prog p p') : MailedFor p' c d := by
  obtain ⟨j, u, hu, ⟨hop, e, he, hmail⟩, e', he', hd⟩ := h
  obtain ⟨u', hu', hop', hdone⟩ := hm.keeps hu
  exact ⟨j, u', hu', ⟨hop'.symm ▸ hop, e, hdone.subset he, hmail⟩, e', hdone.subset he', hd⟩

/-- Every pending row that a verification has read by its identifier held what was mailed with the
    credential. -/
def ReadsMailed (p : Platform) : Prop :=
  ∀ (i : Nat) (t : Thread interface Op Err Reply), p.threads[i]? = some t →
    ∀ c ∈ t.trace.op.credential, ∀ e ∈ t.trace.done, ∀ r ∈ pendingRead e, MailedFor p c r.details

theorem readsMailed {s₀ : World} {h : History interface} {p : Platform}
    (hrec : Recorded prog Intact (idle s₀) h p) : ReadsMailed p := by
  induction hrec with
  | refl =>
      intro i t ht
      simp [idle] at ht
  | @step h p p' a hrec hR hs ih =>
      have hm := moves_of_step hs
      intro i t' ht' c hc e he r hr
      obtain ⟨t, ht, hop, hold | ⟨ch, rfl, htx, hnext, hexec⟩ | ⟨k, hk, hpending⟩⟩ :=
        (taken_of_step hs).done ht' he
      · exact (ih i t ht c (hop ▸ hc) e hold r hr).moves hm
      · -- The row is read now, and the condition says who holds it.
        obtain ⟨q, ans⟩ := e
        cases q with
        | pendingFindUnique id =>
            have hfind : p.db.pendingRegistrations.find? id = some r := by
              rw [Option.some.inj hexec]
              exact hr
            have hreads : readsPending t = some id := by simp [readsPending, hnext]
            obtain ⟨j, hj, u, hu, hmails⟩ := hR t ht c (hop ▸ hc) id hreads
              (by simp [Table.contains, hfind])
            obtain ⟨d, ⟨u', hu', e, he, hd⟩, hrow⟩ := held hrec id j hj
            obtain rfl := Option.some.inj (hu.symm.trans hu')
            rw [← hrow r hfind] at hd
            exact MailedFor.moves ⟨j, u, hu, hmails, e, he, hd⟩ hm
        | _ => cases hr
      · obtain ⟨userId, row, ids, heq⟩ := ((hrec.run.sound prog_sound).conforms i t ht _ hk).2.1
        rw [heq] at hpending
        rcases List.mem_cons.1 hpending with rfl | hpending
        · cases hr
        · obtain rfl := List.mem_singleton.1 hpending
          cases hr

/-! ## Whose data an account gets -/

/-- What a call that sends verification mails has written is what it was to write. -/
theorem supplies_of_written {s₀ : World} {p : Platform} (hrun : Run prog anyStep (idle s₀) p)
    {j : Nat} {u : Thread interface Op Err Reply} (hu : p.threads[j]? = some u)
    (hinvites : u.trace.op.invites = true) {e : Ev} (he : e ∈ u.trace.done)
    {r : PendingRegistration} (hr : r ∈ written e) : Supplies u.trace r.details := by
  obtain ⟨⟨o, d, tx⟩, rfl, hsub, hguard, c, s, hexec⟩ :=
    hrun.guarded prog_registration hu (Trace.mem_events.2 (.inl he))
  replace hguard : registrationGuard ⟨u.trace.op, d, tx⟩ e.stmt := hguard
  unfold Supplies
  cases ho : u.trace.op with
  | resendVerification email => exact ⟨e, he, r, hr, rfl⟩
  | register dto =>
      rw [ho] at hguard
      obtain ⟨q, ans⟩ := e
      cases q with
      | pendingUpdate id data => exact hguard.elim
      | pendingUpsert data =>
          obtain ⟨hfirst, hlast, ⟨e₁, he₁, hhash⟩, e₂, he₂, hphone⟩ := hguard
          obtain rfl := Option.some.inj hr
          -- The row is made of the data, whether it was there before or not.
          have hrow : ∃ id, ans = data.row id := by
            cases c <;> simp only [exec, reduceCtorEq] at hexec
            split at hexec
            · exact ⟨_, (Option.some.inj hexec).symm⟩
            · split at hexec
              · cases hexec
              · exact ⟨_, (Option.some.inj hexec).symm⟩
          obtain ⟨id, rfl⟩ := hrow
          exact ⟨hfirst, hlast, ⟨e₁, hsub.subset he₁, hhash⟩, e₂, hsub.subset he₂, hphone⟩
      | _ => cases hr
  | _ => simp [ho, Op.invites] at hinvites

/-- An account is made of a pending row that the verification has read. -/
theorem read_of_created {s₀ : World} {p : Platform} (hrun : Run prog anyStep (idle s₀) p)
    {i : Nat} {t : Thread interface Op Err Reply} (ht : p.threads[i]? = some t) {c : Credential}
    (hc : t.trace.op.credential = some c) {e : Ev} (he : e ∈ t.trace.done) {d : Details}
    (hd : created e = some d) : ∃ e' ∈ t.trace.done, ∃ r ∈ pendingRead e', r.details = d := by
  obtain ⟨⟨o, d', tx⟩, rfl, hsub, hguard, -⟩ :=
    hrun.guarded prog_registration ht (Trace.mem_events.2 (.inl he))
  replace hguard : registrationGuard ⟨t.trace.op, d', tx⟩ e.stmt := hguard
  obtain ⟨q, ans⟩ := e
  cases q with
  | userCreate data =>
      obtain rfl := Option.some.inj hd
      cases ho : t.trace.op <;> simp only [ho, Op.credential, reduceCtorEq] at hc <;>
      · rw [ho] at hguard
        obtain ⟨e', he', hr⟩ := hguard
        exact ⟨e', hsub.subset he', hr⟩
  | _ => cases hd

/-- **A verified address activates the data its credential was mailed for**, in every run in which
    nobody registers the address again between the mail and its use. -/
theorem registration_integrity {s₀ : World} {h : History interface} {p : Platform}
    (hrec : Recorded prog Intact (idle s₀) h p) : LinkIntegrity p := by
  intro t ht c hc e he d hd
  obtain ⟨i, hi⟩ := List.mem_iff_getElem?.1 ht
  obtain ⟨e', he', r, hr, rfl⟩ := read_of_created hrec.run hi hc he hd
  obtain ⟨j, u, hu, hmails, e'', he'', r', hr', heq⟩ := readsMailed hrec i t hi c hc e' he' r hr
  refine ⟨u, List.mem_iff_getElem?.2 ⟨j, hu⟩, hmails, ?_⟩
  rw [← heq]
  exact supplies_of_written hrec.run hu hmails.1 he'' hr'

/-! ## An address registered twice -/

def jeanDto : RegisterDto :=
  { email := "jean@get.mg", password := "secret", firstName := "Jean", lastName := "Rakoto",
    phone := "034", acceptedTermsVersion := CURRENT_TERMS_VERSION }

/-- Somebody else registers the address of Jean. -/
def eveDto : RegisterDto :=
  { jeanDto with password := "other", firstName := "Eve", lastName := "Rabe", phone := "033" }

/-- The commands of a registration, the call at place `i`, which mails its link and code. -/
def registerCommands (i : Nat) (dto : RegisterDto) (hash phone : String) (code : Nat) :
    List (Step model Op) :=
  [.spawn (.register dto), .exec i (.nat 0), .exec i (.text hash), .exec i (.nat code),
    .exec i (.nat 0), .exec i (.text phone), .exec i (.nat 0), .exec i (.nat 1),
    .exec i (.nat 0), .exec i (.nat 0)]

/-- The link that the first registration mails, at instant 0. -/
def firstLink : Token := ⟨verifyClaims 1, .JWT_SECRET, 0, 24 * 60 * 60⟩

/-- The link is followed, and the account is created with identifier 2. -/
def followCommands (i : Nat) : List (Step model Op) :=
  .spawn (.verifyEmailByToken firstLink) :: commands i 5 ++ [.exec i (.nat 2)]

/-- Has the call at place `i` created an account with this password hash? -/
def createdWith (p : Platform) (i : Nat) (hash : Hash) : Bool :=
  (p.threads[i]?).any fun t => t.trace.done.any fun e => (created e).any (·.password = hash)

/-- The link that was mailed to Jean creates an account with the data of Jean. -/
theorem registration_integrity_verified : ∃ (h : History interface) (p : Platform),
    Recorded prog Intact (idle World.empty) h p ∧ createdWith p 1 "hash-jean" = true ∧
      LinkIntegrity p := by
  have hplay : (record prog Intact [] (idle World.empty)
      (registerCommands 0 jeanDto "hash-jean" "phone-jean" 111111 ++ followCommands 1)).any
        (createdWith · 1 "hash-jean") = true := by
    decide +kernel
  obtain ⟨p, hp, hcreated⟩ := (Option.any_eq_true ..).1 hplay
  have hstart : Recorded prog Intact (idle World.empty : Platform) [] (idle World.empty) := .refl
  obtain ⟨h, hrec⟩ := hstart.of_record hp
  exact ⟨h, p, hrec, hcreated, registration_integrity hrec⟩

/-- Jean registers, Eve registers the same address a second later, and Jean's link is followed: the
    account gets Eve's password and names. -/
theorem not_registration_integrity :
    ¬ ∀ (s₀ : World) (p : Platform), Run prog anyStep (idle s₀) p → LinkIntegrity p := by
  intro h
  have hplay : ((idle World.empty : Platform).play prog anyStep
      (registerCommands 0 jeanDto "hash-jean" "phone-jean" 111111 ++ [.env 1000] ++
        registerCommands 1 eveDto "hash-eve" "phone-eve" 222222 ++ followCommands 2)).any
          (fun p => !decide (LinkIntegrity p)) = true := by
    decide +kernel
  obtain ⟨p, hrun, hviolated⟩ := exists_run_of_play hplay
  simp only [Bool.not_eq_true', decide_eq_false_iff_not] at hviolated
  exact hviolated (h _ p hrun)

end GetPlatform.Auth
