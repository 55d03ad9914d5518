import GetPlatform.Auth.Registration
import GetPlatform.Format.Strip
import GetPlatform.Messages.MessageService
import GetPlatform.Store.Alone

set_option autoImplicit false

/-! # Addresses that can be written to

A registration keeps the address as it was typed, and compares it as it is. Sending a message looks for the
recipient under the lower case of what was typed, without the blanks around it. So an address is found by its
spellings when it is its own lower case, and no other way. -/

namespace GetPlatform.Auth

open Pool Prog

/-! ## Spellings -/

/-- White space is not changed, and does not change what is between. -/
def KeepsBlanks (toLowerCase : String → String) : Prop :=
  ∀ left text right : String, (∀ c ∈ left.toList, isSpace c = true) → (∀ c ∈ right.toList, isSpace c = true) →
    toLowerCase (left ++ text ++ right) = left ++ toLowerCase text ++ right

/-- The address in other letter case, with blanks around it. -/
def Spelling (toLowerCase : String → String) (email spelling : String) : Prop :=
  ∃ left text right : String, (∀ c ∈ left.toList, isSpace c = true) ∧ (∀ c ∈ right.toList, isSpace c = true) ∧
    toLowerCase text = toLowerCase email ∧ spelling = left ++ text ++ right

/-- An address is looked up as it is. -/
def Canonical (toLowerCase : String → String) (email : String) : Prop := trim (toLowerCase email) = email

instance (toLowerCase : String → String) (email : String) : Decidable (Canonical toLowerCase email) :=
  inferInstanceAs (Decidable (_ = _))

theorem trim_surrounded {left right : String} (text : String) (hleft : ∀ c ∈ left.toList, isSpace c = true)
    (hright : ∀ c ∈ right.toList, isSpace c = true) : trim (left ++ text ++ right) = trim text := by
  rw [← String.toList_inj, toList_trim, toList_trim, String.toList_append, String.toList_append]
  exact strip_surrounded _ hleft hright

/-- **Every spelling is looked up under one address.** -/
theorem Spelling.lookup {toLowerCase : String → String} (hlower : KeepsBlanks toLowerCase)
    {email spelling : String} (h : Spelling toLowerCase email spelling) :
    trim (toLowerCase spelling) = trim (toLowerCase email) := by
  obtain ⟨left, text, right, hleft, hright, hcase, rfl⟩ := h
  rw [hlower left text right hleft hright, trim_surrounded _ hleft hright, hcase]

/-! ## Messages -/

/-- The messages know the users of this database. -/
def Shares (ident : Id → Messages.UserId) (s : World) (w : Messages.World) : Prop :=
  w.users.rows = s.users.rows.map fun u => ⟨ident u.id, u.email⟩

/-- However a call of `send` for this address goes, the recipient is this user, and is found. -/
def Resolves (toLowerCase : String → String) (w : Messages.World) (recipientEmail : String)
    (id : Messages.UserId) : Prop :=
  ∀ (senderId : Messages.UserId) (dto : Messages.SendMessageDto) (files : List Messages.File),
    dto.recipientEmail = recipientEmail →
    (Messages.send toLowerCase senderId dto files).wp Messages.model
      (fun reply _ _ => reply.recipientId = id)
      (fun e _ _ => e ≠ .NotFoundException "Destinataire introuvable") none w

theorem wp_perform {q : Messages.Stmt} {Q : Messages.Ans q → Option Messages.World → Messages.World → Prop}
    {E : Messages.Err → Option Messages.World → Messages.World → Prop} {saved : Option Messages.World}
    {w : Messages.World} :
    @wp Messages.interface Messages.Err (no_index (Messages.Ans q)) Messages.model (Messages.perform q) Q E saved
        w ↔
      (∀ f, E (.failure f) saved w) ∧ ∀ c a, Messages.exec q c w = some a →
        Q a saved (Messages.model.applyAll (Messages.writes q a) w) := Iff.rfl

/-- No failure of `send` says that the recipient is unknown, but the one that has looked for it. -/
def Located (e : Messages.Err) : Prop := e ≠ .NotFoundException "Destinataire introuvable"

theorem attach_located (messageId : Messages.Id) (files : List Messages.File) {saved : Option Messages.World}
    {w : Messages.World} :
    (Messages.attach messageId files).wp Messages.model (fun _ _ _ => True) (fun e _ _ => Located e) saved w := by
  induction files generalizing saved w with
  | nil => trivial
  | cons file files ih =>
      simp only [Messages.attach, bind_eq, pure_eq, wp_handle, wp_perform, wp_fail, Located, ne_eq,
        reduceCtorEq, not_false_eq_true, implies_true, true_and]
      exact fun _ _ _ _ _ _ => ih

theorem post_recipient (senderId recipientId : Messages.UserId) (subject : Option String) (body : String)
    (now : Nat) (files : List Messages.File) {saved : Option Messages.World} {w : Messages.World} :
    (Messages.post senderId recipientId subject body now files).wp Messages.model
      (fun message _ _ => message.recipientId = recipientId) (fun e _ _ => Located e) saved w := by
  simp only [Messages.post, bind_eq, pure_eq, throw_eq, wp_handle, wp_perform, wp_fail, Located, ne_eq,
    reduceCtorEq, not_false_eq_true, implies_true, true_and]
  intro _ _ _ _ ids _
  cases ids with
  | nil => simp
  | cons conversationId ids =>
      simp only [wp_handle, wp_perform, wp_fail, reduceCtorEq, not_false_eq_true, implies_true,
        true_and]
      refine fun _ _ _ _ message _ => wp_mono (fun _ _ _ _ => ?_) (fun _ _ _ h => h) (attach_located _ files)
      trivial

/-- A recipient who is found is the recipient of the message. -/
theorem resolves_of_found {toLowerCase : String → String} {w : Messages.World} {recipientEmail : String}
    {id : Messages.UserId}
    (h : (w.users.rows.find? fun u => u.email = trim (toLowerCase recipientEmail)).map (·.id) = some id) :
    Resolves toLowerCase w recipientEmail id := by
  rintro senderId dto files rfl
  simp only [Messages.send, bind_eq, pure_eq, throw_eq, wp_ite, wp_handle, wp_perform, wp_fail, ne_eq,
    reduceCtorEq, not_false_eq_true, implies_true, true_and]
  intro _ _ found hfound
  obtain rfl : some id = found := by
    rw [← h]
    exact Option.some.inj hfound
  simp only [wp_ite, wp_handle, wp_perform, wp_fail, reduceCtorEq, not_false_eq_true,
    implies_true, true_and]
  intro _ _ now _
  rw [wp_transaction]
  refine wp_mono (fun message saved w' hmessage => ⟨fun _ => by simp, ?_⟩) (fun _ _ _ he => he)
    (post_recipient senderId id _ _ now files)
  simp only [wp_handle, wp_perform, wp_ret, wp_fail, reduceCtorEq, not_false_eq_true, implies_true,
    true_and]
  exact fun _ _ _ _ _ _ => hmessage

/-! ## What the programs guarantee -/

/-- A registration puts its own address aside; an account has the address of the pending row that was read. -/
def addressGuard (l : Log) : Stmt → Prop
  | .pendingUpsert data => ∃ dto, l.op = .register dto ∧ data.email = dto.email
  | .userCreate data => ∃ e ∈ l.done, ∃ r ∈ pendingRead e, data.email = r.email
  | _ => True

/-- Registering and verifying open no transaction. -/
def addressGuards : Guards interface Op where
  stmt l q := l.tx = none ∧ addressGuard l q
  commit _ := False

section Conformance

variable {α : Type} {Q : Log → α → Prop} {E : Log → Err → Prop} {o : Op} {d : List Ev}

theorem address_send {l : Log} {q : Stmt} {Q : Log → Ans q → Prop} :
    @Conforms interface model Err (no_index (Ans q)) Op addressGuards (send q) Q E l ↔
      (l.tx = none ∧ addressGuard l q) ∧ (∀ f, E l (.database f)) ∧
        ∀ a, model.Possible q a → Q (l.push ⟨q, a⟩) a := Iff.rfl

theorem Aside.addressGuard {q : Stmt} (h : Aside q) : (⟨o, d, none⟩ : Log).tx = none ∧
    Auth.addressGuard ⟨o, d, none⟩ q := by
  cases q <;> first | exact h.elim | exact ⟨rfl, trivial⟩

theorem address_of_aside {p : Call α} (hp : p.Only Aside) (hQ : ∀ d' a, Q ⟨o, d', none⟩ a)
    (hE : ∀ d' e, E ⟨o, d', none⟩ e) : p.Conforms model addressGuards Q E ⟨o, d, none⟩ :=
  hp.conforms_outside (fun _ _ _ hq => hq.addressGuard) (fun _ _ => hQ _) fun _ _ => hE _

theorem register_addresses (dto : RegisterDto) :
    (register dto).Conforms model addressGuards (fun _ _ => True) (fun _ _ => True)
      (.start (.register dto)) := by
  simp only [register, bind_eq, pure_eq, throw_eq, conforms_ite, conforms_handle, address_send,
    conforms_fail, handle_fail, conforms_ret, Trace.start_eq, Trace.push_outside, implies_true, true_and]
  refine fun _ => ⟨trivial, fun _ _ _ => ⟨trivial, fun _ _ => ⟨trivial, fun _ _ => ⟨trivial, fun _ _ =>
    ⟨trivial, fun _ _ => ⟨trivial, fun _ _ => ⟨⟨dto, rfl, rfl⟩, fun _ _ => ?_⟩⟩⟩⟩⟩⟩⟩
  exact address_of_aside (aside_sendVerificationEmail ..) (fun _ _ => trivial) fun _ _ => trivial

theorem resendVerification_addresses (email : String) :
    (resendVerification email).Conforms model addressGuards (fun _ _ => True) (fun _ _ => True)
      ⟨o, d, none⟩ := by
  simp only [resendVerification, bind_eq, conforms_handle, address_send, conforms_fail, Trace.push_outside,
    implies_true, true_and]
  refine ⟨trivial, fun found _ => ?_⟩
  cases found with
  | none => trivial
  | some pending =>
      simp only [conforms_handle, address_send, conforms_fail, Trace.push_outside, implies_true, true_and]
      refine ⟨trivial, fun _ _ => ⟨trivial, fun _ _ => ⟨trivial, fun _ _ => ?_⟩⟩⟩
      exact address_of_aside (aside_sendVerificationEmail ..) (fun _ _ => trivial) fun _ _ => trivial

theorem completeEmailVerification_addresses (pendingId : Id) :
    (completeEmailVerification pendingId).Conforms model addressGuards (fun _ _ => True)
      (fun _ _ => True) ⟨o, d, none⟩ := by
  have hgiveUp : ∀ d, (deletePending pendingId).Conforms model addressGuards
      (fun _ _ => True) (fun _ _ => True) ⟨o, d, none⟩ := fun d =>
    address_of_aside (aside_deletePending _) (fun _ _ => trivial) fun _ _ => trivial
  simp only [completeEmailVerification, bind_eq, pure_eq, throw_eq, conforms_handle, address_send,
    conforms_fail, handle_fail, Trace.push_outside, implies_true, true_and]
  refine ⟨trivial, fun found _ => ?_⟩
  cases found with
  | none => trivial
  | some pending =>
      simp only [conforms_handle, address_send, conforms_fail, conforms_ite, Trace.push_outside,
        implies_true, true_and]
      refine ⟨trivial, fun now _ => ⟨fun _ => hgiveUp _, fun _ => ⟨trivial, fun existing _ =>
        ⟨fun _ => hgiveUp _, fun _ => ⟨trivial, fun role _ => ?_⟩⟩⟩⟩⟩
      cases role with
      | none => trivial
      | some role =>
          simp only [conforms_handle, address_send, conforms_fail, conforms_ret, Trace.push_outside,
            implies_true, true_and]
          refine ⟨⟨⟨.pendingFindUnique pendingId, some pending⟩, by simp, pending, rfl, rfl⟩,
            fun user _ => ⟨trivial, fun _ _ => ?_⟩⟩
          exact address_of_aside (aside_issueTokens ..) (fun _ _ => trivial) fun _ _ => trivial

theorem verifyEmailByToken_addresses (token : Token) :
    (verifyEmailByToken token).Conforms model addressGuards (fun _ _ => True) (fun _ _ => True)
      ⟨o, d, none⟩ := by
  simp only [verifyEmailByToken, verify, bind_eq, throw_eq, tryCatch_eq, pure_eq, conforms_handle,
    address_send, conforms_ret, handle_fail, conforms_fail, Trace.push_outside, implies_true, true_and]
  refine ⟨trivial, fun payload _ => ?_⟩
  cases payload with
  | none => trivial
  | some payload =>
      simp only [conforms_ite, conforms_fail, implies_true, true_and]
      exact fun _ => completeEmailVerification_addresses _

theorem verifyEmailByCode_addresses (email code : String) :
    (verifyEmailByCode email code).Conforms model addressGuards (fun _ _ => True) (fun _ _ => True)
      ⟨o, d, none⟩ := by
  simp only [verifyEmailByCode, bind_eq, throw_eq, conforms_handle, address_send, conforms_fail,
    handle_fail, Trace.push_outside, implies_true, true_and]
  refine ⟨trivial, fun found _ => ?_⟩
  cases found with
  | none => trivial
  | some pending =>
      simp only [conforms_handle, address_send, conforms_fail, conforms_ite, Trace.push_outside,
        implies_true, and_true, true_and]
      refine ⟨trivial, fun now _ => ⟨fun _ => ?_, fun _ _ => ⟨fun _ => trivial, fun _ => ?_⟩⟩⟩
      · exact address_of_aside (aside_deletePending _) (fun _ _ => trivial) fun _ _ => trivial
      · exact completeEmailVerification_addresses _

end Conformance

/-! ## The addresses in the database -/

/-- Every address is one that is looked up as it is, and belongs to one user. -/
structure Addressed (toLowerCase : String → String) (s : World) : Prop where
  users : ∀ u ∈ s.users, Canonical toLowerCase u.email
  pending : ∀ r ∈ s.pendingRegistrations, Canonical toLowerCase r.email
  unique : ∀ u ∈ s.users, ∀ v ∈ s.users, u.email = v.email → u.id = v.id

variable {toLowerCase : String → String}

theorem Addressed.newUser {s : World} (h : Addressed toLowerCase s) {row : User}
    (hrow : Canonical toLowerCase row.email) (hfree : ∀ u ∈ s.users, u.email ≠ row.email) :
    Addressed toLowerCase (World.apply (.newUser row) s) := by
  refine ⟨fun u hu => ?_, h.pending, fun u hu v hv heq => ?_⟩
  · rcases Table.mem_of_mem_insert hu with hu | rfl
    · exact h.users u hu
    · exact hrow
  · rcases Table.mem_of_mem_insert hu with hu | hu <;> rcases Table.mem_of_mem_insert hv with hv | hv
    · exact h.unique u hu v hv heq
    · exact absurd (heq.trans (congrArg User.email hv)) (hfree u hu)
    · exact absurd (heq.symm.trans (congrArg User.email hu)) (hfree v hv)
    · rw [hu, hv]

/-- Every other write keeps the addresses, or puts one aside. -/
theorem Addressed.apply {s : World} (h : Addressed toLowerCase s) {w : Write}
    (hnew : ∀ row, w ≠ .newUser row) (hpending : ∀ row, w = .pending row → Canonical toLowerCase row.email) :
    Addressed toLowerCase (World.apply w s) := by
  cases w with
  | newUser row => exact absurd rfl (hnew row)
  | user id data =>
      -- An update leaves identifier and address of a user alone.
      have hsource : ∀ u ∈ s.users.modify id data.set data.key_set,
          ∃ u₀ ∈ s.users, u₀.id = u.id ∧ u₀.email = u.email := by
        intro u hu
        obtain ⟨u₀, hu₀, rfl⟩ := Table.mem_modify.1 hu
        split
        · exact ⟨u₀, hu₀, rfl, rfl⟩
        · exact ⟨u₀, hu₀, rfl, rfl⟩
      refine ⟨fun u hu => ?_, h.pending, fun u hu v hv heq => ?_⟩
      · obtain ⟨u₀, hu₀, -, hemail⟩ := hsource u hu
        exact hemail ▸ h.users u₀ hu₀
      · obtain ⟨u₀, hu₀, huid, huemail⟩ := hsource u hu
        obtain ⟨v₀, hv₀, hvid, hvemail⟩ := hsource v hv
        rw [← huid, ← hvid]
        exact h.unique u₀ hu₀ v₀ hv₀ (by rw [huemail, hvemail, heq])
  | pending row =>
      refine ⟨h.users, fun r hr => ?_, h.unique⟩
      rcases Table.mem_put.1 hr with rfl | ⟨hr, -⟩
      · exact hpending _ rfl
      · exact h.pending r hr
  | pendingData id data =>
      refine ⟨h.users, fun r hr => ?_, h.unique⟩
      have hr : r ∈ s.pendingRegistrations.modify id data.set data.key_set := hr
      obtain ⟨r₀, hr₀, rfl⟩ := Table.mem_modify.1 hr
      split
      · exact h.pending r₀ hr₀
      · exact h.pending r₀ hr₀
  | noPending id =>
      refine ⟨h.users, fun r hr => ?_, h.unique⟩
      exact h.pending r (Table.mem_filter.1 hr).1
  | _ => exact ⟨h.users, h.pending, h.unique⟩

/-- The address of an account is nobody else's. -/
theorem row_of_userCreate {data : UserCreate} {c : Choice} {s : World} {row : User}
    (h : exec (.userCreate data) c s = some row) :
    row.email = data.email ∧ ∀ u ∈ s.users, u.email ≠ row.email := by
  cases c <;> simp only [exec, reduceCtorEq] at h
  split at h
  · cases h
  · next hfree =>
      obtain rfl := Option.some.inj h
      refine ⟨rfl, fun u hu heq => hfree (.inr (List.any_eq_true.2 ⟨u, hu, decide_eq_true (.inr heq)⟩))⟩

theorem row_of_pendingUpsert {data : PendingUpsert} {c : Choice} {s : World} {row : PendingRegistration}
    (h : exec (.pendingUpsert data) c s = some row) : row.email = data.email := by
  cases c <;> simp only [exec, reduceCtorEq] at h
  split at h
  · exact Option.some.inj h ▸ rfl
  · split at h
    · cases h
    · exact Option.some.inj h ▸ rfl

/-- The pending row that a write puts is the answer to a registration. -/
theorem pendingUpsert_of_write {q : Stmt} {a : Ans q} {row : PendingRegistration}
    (h : Write.pending row ∈ writes q a) :
    ∃ data, (⟨.pendingUpsert data, row⟩ : Ev) = ⟨q, a⟩ := by
  cases q with
  | pendingUpsert data =>
      simp only [writes, List.mem_cons, reduceCtorEq, Write.pending.injEq, List.not_mem_nil, or_false,
        false_or] at h
      exact ⟨data, by rw [h]⟩
  | refreshSessionUpdateMany userId jti newJti =>
      cases jti with
      | none => simp [writes] at h
      | some jti =>
          simp only [writes] at h
          split at h <;> simp at h
  | _ => simp [writes] at h

theorem userCreate_of_write {q : Stmt} {a : Ans q} {row : User} (h : Write.newUser row ∈ writes q a) :
    ∃ data, q = .userCreate data := by
  cases q with
  | userCreate data => exact ⟨data, rfl⟩
  | refreshSessionUpdateMany userId jti newJti =>
      cases jti with
      | none => simp [writes] at h
      | some jti =>
          simp only [writes] at h
          split at h <;> simp at h
  | _ => simp [writes] at h

/-- What a call has read of the addresses, and registers. -/
structure Reads (toLowerCase : String → String) (l : Log) : Prop where
  registers : ∀ dto, l.op = .register dto → Canonical toLowerCase dto.email
  read : ∀ e ∈ l.events, ∀ r ∈ pendingRead e, Canonical toLowerCase r.email

theorem Reads.of_subset {l l' : Log} (h : Reads toLowerCase l) (hop : l'.op = l.op)
    (hsub : ∀ e ∈ l'.events, e ∈ l.events) : Reads toLowerCase l' :=
  ⟨hop ▸ h.registers, fun e he => h.read e (hsub e he)⟩

/-- One statement keeps the addresses. -/
theorem Addressed.call {s : World} (h : Addressed toLowerCase s) {l : Log} (hl : Reads toLowerCase l)
    {q : Stmt} {a : Ans q} {c : Choice} (hguard : addressGuards.stmt l q) (hexec : exec q c s = some a) :
    Addressed toLowerCase (model.applyAll (writes q a) s) := by
  by_cases hq : ∃ data, q = .userCreate data
  · obtain ⟨data, rfl⟩ := hq
    obtain ⟨hemail, hfree⟩ := row_of_userCreate hexec
    obtain ⟨e, he, r, hr, heq⟩ := hguard.2
    have hrow : Canonical toLowerCase (User.email a) := by
      rw [hemail, heq]
      exact hl.read e (Trace.mem_events.2 (.inl he)) r hr
    exact Addressed.newUser (s := World.apply (.draw (User.id a)) s) ⟨h.users, h.pending, h.unique⟩ hrow hfree
  · refine @Model.applyAll_keeps _ model (Addressed toLowerCase) (writes q a) (fun w hw t ht => ?_) s h
    refine ht.apply (fun row heq => hq (userCreate_of_write (heq ▸ hw))) fun row heq => ?_
    obtain ⟨data, heq⟩ := pendingUpsert_of_write (heq ▸ hw)
    obtain ⟨rfl, heq⟩ := Event.mk.inj heq
    obtain rfl := eq_of_heq heq
    obtain ⟨dto, hop, hemail⟩ := hguard.2
    rw [row_of_pendingUpsert hexec, hemail]
    exact hl.registers dto hop

/-- A pending row that is read is one of those in the database. -/
theorem Reads.push {s : World} (h : Addressed toLowerCase s) {l : Log} (hl : Reads toLowerCase l)
    {q : Stmt} {a : Ans q} {c : Choice} (hexec : exec q c s = some a) : Reads toLowerCase (l.push ⟨q, a⟩) := by
  refine ⟨by simpa using hl.registers, fun e he r hr => ?_⟩
  rw [Trace.events_push, List.mem_append, List.mem_singleton] at he
  rcases he with he | rfl
  · exact hl.read e he r hr
  · cases q with
    | pendingFindUnique id =>
        obtain rfl : a = some r := hr
        exact h.pending r (Table.mem_of_find? (Option.some.inj hexec))
    | _ => cases hr

/-! ## Registering and verifying -/

/-- The call registers an address that is accepted, or verifies one. -/
def Registers (accepts : String → Prop) : Op → Prop
  | .register dto => accepts dto.email
  | .resendVerification _ => True
  | .verifyEmailByToken _ => True
  | .verifyEmailByCode .. => True
  | _ => False

instance (accepts : String → Prop) [DecidablePred accepts] : DecidablePred (Registers accepts) := fun o => by
  cases o <;> unfold Registers <;> infer_instance

theorem prog_addresses {accepts : String → Prop} {o : Op} (h : Registers accepts o) :
    (prog o).Conforms model addressGuards (fun _ _ => True) (fun _ _ => True) (.start o) := by
  cases o with
  | register dto => exact (conforms_handle ..).2 <| register_addresses dto
  | resendVerification email => exact (conforms_handle ..).2 <| resendVerification_addresses email
  | verifyEmailByToken token => exact (conforms_handle ..).2 <| verifyEmailByToken_addresses token
  | verifyEmailByCode email code => exact (conforms_handle ..).2 <| verifyEmailByCode_addresses email code
  | _ => exact h.elim

theorem address_rules (toLowerCase : String → String) :
    Rules (M := model) (ε := Err) (α := Reply) addressGuards (onlyCalls (Registers (Canonical toLowerCase)))
      (Addressed toLowerCase) (fun _ => Reads toLowerCase) (fun _ _ => True) where
  symm _ _ _ := trivial
  start p o ho _ := by
    refine ⟨?_, by simp [Trace.events]⟩
    rintro dto rfl
    exact ho
  start_pair _ _ _ _ _ := trivial
  env _ _ _ h := ⟨⟨h.users, h.pending, h.unique⟩, fun _ hl => hl⟩
  drop _ _ h := h.of_subset rfl fun _ => Trace.mem_events_of_drop
  drop_pair _ _ _ := trivial
  openTx _ l iso htx h := h.of_subset rfl fun e he => by rwa [Trace.events_openTx htx] at he
  openTx_pair _ _ _ _ _ := trivial
  call p i c t q a h hcall htx := by
    have hexec := hcall.exec
    rw [Trace.view_of_none htx] at hexec
    have hl := h.thread i t hcall.here
    exact ⟨h.db.call hl hcall.guard hexec, hl.push h.db hexec, fun u hu => ⟨h.other hu, trivial⟩⟩
  callTx p i c t q a x _ hcall htx := by
    rw [hcall.guard.1] at htx
    cases htx
  commit p i c t x _ hcommit := hcommit.guard.elim

/-! ## Reachable and unique -/

/-- No two users have the same address up to letter case, and a message to any spelling of the address of a
    user is for that user. -/
structure Reachable (toLowerCase : String → String) (s : World) : Prop where
  unique : ∀ u ∈ s.users, ∀ v ∈ s.users, toLowerCase u.email = toLowerCase v.email → u.id = v.id
  resolves : ∀ u ∈ s.users, ∀ spelling, Spelling toLowerCase u.email spelling →
    ∀ (ident : Id → Messages.UserId) (w : Messages.World), Shares ident s w →
      Resolves toLowerCase w spelling (ident u.id)

theorem Addressed.reachable (hlower : KeepsBlanks toLowerCase) {s : World} (h : Addressed toLowerCase s) :
    Reachable toLowerCase s := by
  refine ⟨fun u hu v hv heq => ?_, fun u hu spelling hspelling ident w hshares => ?_⟩
  · refine h.unique u hu v hv ?_
    calc u.email = trim (toLowerCase u.email) := (h.users u hu).symm
      _ = trim (toLowerCase v.email) := by rw [heq]
      _ = v.email := h.users v hv
  · have hlookup : trim (toLowerCase spelling) = u.email := (hspelling.lookup hlower).trans (h.users u hu)
    apply resolves_of_found
    rw [hshares, List.find?_map, hlookup]
    -- The first user of the address is this one.
    cases hfind : s.users.rows.find? fun v => v.email = u.email with
    | none =>
        have := List.find?_eq_none.1 hfind u hu
        simp at this
    | some v =>
        have hv := List.mem_of_find?_eq_some hfind
        have heq : v.email = u.email := by simpa using List.find?_some hfind
        have hid := h.unique v hv u hu heq
        simp only [Function.comp_def, hfind, Option.map_some, hid]

/-- **Every address that is its own lower case can be written to**: while only such addresses are registered,
    no two users share one and every spelling of it is for its user. -/
theorem addresses_reachable (hlower : KeepsBlanks toLowerCase) {s₀ : World} (h₀ : Addressed toLowerCase s₀)
    {p : Platform} (hrun : Run prog (onlyCalls (Registers (Canonical toLowerCase))) (idle s₀) p) :
    Reachable toLowerCase p.db :=
  ((address_rules toLowerCase).holds (fun _ _ h => prog_addresses h) h₀ hrun).2.db.reachable hlower

/-- No white space is a capital. -/
theorem toLower_of_isSpace {c : Char} (h : isSpace c = true) : c.toLower = c := by
  have hlisted : ([0x9, 0xA, 0xB, 0xC, 0xD, 0x20, 0xA0, 0x1680, 0x2028, 0x2029, 0x202F, 0x205F, 0x3000,
      0xFEFF] : List UInt32).all (fun v => ¬ (65 ≤ v ∧ v ≤ 90)) = true := by decide
  have hcapital : ¬ (65 ≤ c.val ∧ c.val ≤ 90) := by
    intro hupper
    simp only [isSpace, Bool.decide_or, Bool.or_eq_true, decide_eq_true_eq] at h
    rcases h with h | h
    · exact of_decide_eq_true (List.all_eq_true.1 hlisted _ h) hupper
    · exact absurd (UInt32.le_trans h.1 hupper.2) (by decide)
  exact dif_neg hcapital

theorem keepsBlanks_toLower : KeepsBlanks String.toLower := by
  have hmap : ∀ text : String, text.toLower = text.map Char.toLower := fun _ => rfl
  have happend : ∀ a b : String, (a ++ b).toLower = a.toLower ++ b.toLower := fun a b => by
    simp [← String.toList_inj, hmap]
  have hblank : ∀ text : String, (∀ c ∈ text.toList, isSpace c = true) → text.toLower = text := by
    intro text htext
    rw [← String.toList_inj, hmap, String.toList_map]
    exact (List.map_congr_left fun c hc => toLower_of_isSpace (htext c hc)).trans (List.map_id _)
  intro left text right hleft hright
  rw [happend, happend, hblank left hleft, hblank right hright]

/-- Jean registers an address in lower case, and follows the link. -/
theorem addresses_reachable_verified : ∃ p : Platform,
    Run prog (onlyCalls (Registers (Canonical String.toLower))) (idle World.empty) p ∧
      (p.db.users.rows.any fun u => u.email = "jean@get.mg") = true ∧ Reachable String.toLower p.db := by
  have hplay : ((idle World.empty : Platform).play prog (onlyCalls (Registers (Canonical String.toLower)))
      (registerCommands 0 jeanDto "hash-jean" "phone-jean" 111111 ++ followCommands 1)).any
        (fun p => p.db.users.rows.any fun u => u.email = "jean@get.mg") = true := by
    decide +kernel
  obtain ⟨p, hrun, hjean⟩ := exists_run_of_play hplay
  refine ⟨p, hrun, hjean, addresses_reachable keepsBlanks_toLower ⟨?_, ?_, ?_⟩ hrun⟩
  · simp [World.empty]
  · simp [World.empty]
  · simp [World.empty]

/-- Jean, as the messages know him. -/
def jeanId : Messages.UserId := ⟨[106], by decide⟩

/-- The address of Jean with a capital. -/
def capitalDto : RegisterDto := { jeanDto with email := "Jean@get.mg" }

/-- Jean registers an address with a capital and follows the link: nobody can write to it. -/
theorem not_addresses_reachable : ¬ ∀ p : Platform,
    Run prog (onlyCalls (Registers (· = "Jean@get.mg"))) (idle World.empty) p →
      Reachable String.toLower p.db := by
  intro h
  have hplay : ((idle World.empty : Platform).play prog (onlyCalls (Registers (· = "Jean@get.mg")))
      (registerCommands 0 capitalDto "hash-jean" "phone-jean" 111111 ++ followCommands 1)).any
        (fun p => p.db.users.rows.map (·.email) = ["Jean@get.mg"]) = true := by
    decide +kernel
  obtain ⟨p, hrun, hcapital⟩ := exists_run_of_play hplay
  have hcapital := of_decide_eq_true hcapital
  obtain ⟨u, hu, hemail⟩ : ∃ u ∈ p.db.users.rows, u.email = "Jean@get.mg" :=
    List.mem_map.1 (hcapital ▸ List.mem_singleton_self _)
  have hshares : Shares (fun _ => jeanId) p.db (.silent ⟨[⟨jeanId, "Jean@get.mg"⟩], by simp⟩) := by
    have := congrArg (List.map fun email => (⟨jeanId, email⟩ : Messages.User)) hcapital
    rw [List.map_map] at this
    exact this.symm
  have hspelling : Spelling String.toLower u.email u.email :=
    ⟨"", u.email, "", by simp, by simp, rfl, by simp⟩
  have hsend := (h p hrun).resolves u hu u.email hspelling _ _ hshares jeanId ⟨u.email, none, "Salama"⟩ [] rfl
  have hnobody : Messages.exec (.userFindUniqueByEmail (trim (String.toLower "Jean@get.mg"))) (.nat 0)
      (.silent ⟨[⟨jeanId, "Jean@get.mg"⟩], by simp⟩) = some none := by
    decide +kernel
  rw [hemail] at hsend
  simp only [Messages.send, bind_eq, pure_eq, throw_eq, wp_ite, wp_handle, wp_perform, wp_fail] at hsend
  exact (hsend.2 (by simp)).2 (.nat 0) none hnobody rfl

end GetPlatform.Auth
