import GetPlatform.Admission.Refund
import GetPlatform.Store.History

set_option autoImplicit false

/-! # Sessions that were never paid

Stripe tells the platform when a session has run out and when a payment that takes time has failed. The type of
the event is dropped, and what the payment becomes is worked out from the session as Stripe reports it then. A
session that has run out is reported as such; one whose payment has failed is complete, which says nothing, and
its payment stays under way. -/

namespace GetPlatform.Admission

open Pool Prog

/-! ## The provider -/

/-- The status of a Checkout Session, `opened` for Stripe's "open". -/
inductive SessionStatus where
  | opened
  | complete
  | expired
  deriving DecidableEq

inductive SessionPaymentStatus where
  | paid
  | unpaid
  | noPaymentRequired
  deriving DecidableEq

structure StripeSession where
  status : SessionStatus
  paymentStatus : SessionPaymentStatus
  paymentIntent : Option String
  deriving DecidableEq

/-- `StripePaymentProvider.confirmPayment`, of the session that Stripe retrieves. -/
def StripeSession.confirmPayment (session : StripeSession) : Confirmation :=
  if session.paymentStatus = .paid then ⟨.COMPLETED, session.paymentIntent⟩
  else if session.status = .expired then ⟨.FAILED, none⟩
  else ⟨.PENDING, none⟩

/-- What Stripe reports of a session that was never paid, after an event of this type. -/
def StripeSession.NeverPaid (session : StripeSession) (type : StripeEventType) : Prop :=
  session.paymentStatus ≠ .paid ∧
    (type = .checkoutSessionExpired ∧ session.status = .expired ∨
      type = .checkoutSessionAsyncPaymentFailed ∧ session.status = .complete)

instance (session : StripeSession) (type : StripeEventType) : Decidable (session.NeverPaid type) :=
  inferInstanceAs (Decidable (_ ∧ _))

/-- A session that has run out is conclusive. -/
theorem StripeSession.NeverPaid.confirmPayment {session : StripeSession}
    (h : session.NeverPaid .checkoutSessionExpired) : session.confirmPayment.status = .FAILED := by
  obtain ⟨hpaid, ⟨-, hst⟩ | ⟨htype, -⟩⟩ := h
  · rw [StripeSession.confirmPayment, if_neg hpaid, if_pos hst]
  · cases htype

/-! ## Payments at rest -/

/-- Payment `id` is the one of session `ref`, and is neither PENDING nor PROCESSING. -/
def Rests (s : World) (ref id : Id) : Prop :=
  ∃ r, s.payments.find? id = some r ∧ r.providerRef = some ref ∧ r.status.live = false

/-- Writes that revive no payment leave alone one that is not live. -/
theorem applyAll_dead (ws : List Write) {s : World} {id : Id} {r : Payment}
    (hws : ∀ id data, Write.payment id data ∈ ws → data.status.live = false)
    (h : s.payments.find? id = some r) (hdead : r.status.live = false) :
    ∃ r', (model.applyAll ws s).payments.find? id = some r' ∧ r'.status.live = false := by
  refine @Model.applyAll_keeps _ model
    (fun t => ∃ r', t.payments.find? id = some r' ∧ r'.status.live = false) ws
    (fun w hw t ht => ?_) s ⟨r, h, hdead⟩
  obtain ⟨r', hr', hdead'⟩ := ht
  cases w with
  | payment id' data =>
      by_cases hid : id = id'
      · subst hid
        exact ⟨data.set r', (Table.find?_modify_self _ _ _ data.key_set).trans (by rw [hr']; rfl),
          hws _ _ hw⟩
      · exact ⟨r', (Table.find?_modify_ne _ _ data.key_set hid).trans hr', hdead'⟩
  | newPayment new => exact ⟨r', Table.find?_insert_of_find? hr', hdead'⟩
  | _ => exact ⟨r', hr', hdead'⟩

/-- A payment that a delivery has concluded is not live. -/
theorem Concluding.dead {l : Log} {ref : Id} {pay : Payment} {data : PaymentData}
    (h : Concluding l ref pay data) : data.status.live = false := by
  rcases h.status with hst | hst <;> rw [hst] <;> rfl

theorem Rests.commit {s : World} {l : Log} {ref id : Id} (h : Rests s ref id) (ha : Accounts s l)
    (hl : Settles s l) : Rests (l.view model s) ref id := by
  obtain ⟨r, hr, href, hdead⟩ := h
  obtain ⟨r', hr', hsame⟩ := ha.same_ref hl hr
  refine ⟨r', hr', hsame.trans href, ?_⟩
  cases hop : l.op.creates with
  | true =>
      obtain ⟨r'', hr'', hdead''⟩ := applyAll_dead (l.held model)
        (fun id data hw => by rw [hl.swept hop id data hw]; rfl) hr hdead
      obtain rfl := Option.some.inj (hr'.symm.trans hr'')
      exact hdead''
  | false =>
      rcases hl.settled hop with hno | ⟨ref', pay, data, hc⟩
      · rw [Trace.view, hno.payments, hr] at hr'
        exact Option.some.inj hr' ▸ hdead
      · rw [Trace.view, hc.payments, Table.find?_modify] at hr'
        split at hr'
        · obtain ⟨r₀, -, rfl⟩ := Option.map_eq_some_iff.1 hr'
          exact hc.dead
        · rw [hr] at hr'
          exact Option.some.inj hr' ▸ hdead

/-- A payment at rest stays so. -/
theorem Rests.of_changes {p : Platform} {s' : model.State} {ref id : Id} (h : Rests p.db ref id)
    {R : Platform → Step model Op → Prop} (ha : Holds Ledger Accounts Apart p)
    (hl : Holds (fun _ => True) Settles (fun _ _ => True) p) (hc : Changes guards R p s') :
    Rests s' ref id := by
  cases hc with
  | none => exact h
  | env e _ => exact h
  | @call i c t q a hcall htx =>
      obtain ⟨r, hr, href, hdead⟩ := h
      exact ⟨r, (ha.thread i t hcall.here).stays hcall.guard htx hr (by simp [href]), href, hdead⟩
  | @commit i c t x hcommit =>
      exact h.commit (ha.thread i t hcommit.here) (hl.thread i t hcommit.here)

theorem Rests.of_run {s₀ : World} (h₀ : Ledger s₀) {p p' : Platform}
    (hrun : Run prog anyStep (idle s₀) p) (hrun' : Run prog anyStep p p') {ref id : Id}
    (h : Rests p.db ref id) : Rests p'.db ref id := by
  induction hrun' with
  | refl => exact h
  | step hr hR hs ih =>
      have hreach := hrun.trans hr
      obtain ⟨hsound, hl⟩ := settles hreach
      exact ih.of_changes (ledger_holds h₀ hreach) hl (hsound.changes hR hs)

/-! ## What a delivery leaves -/

/-- An update that found nothing to conclude found a payment that is completed. -/
theorem completed_of_refused {id : Id} {data : PaymentData} (c : Choice) {s : World} {row : Payment}
    (h : exec (.paymentUpdateManyNotCompleted id data) c s = some (0 : Nat))
    (hrow : s.payments.find? id = some row) : row.status = .COMPLETED := by
  simp only [exec, hrow] at h
  split at h
  · assumption
  · split at h <;> simp at h

section Handled

variable {s₀ : World} (h₀ : Ledger s₀) {p : Platform} (hrun : Run prog anyStep (idle s₀) p) {i : Nat}
  {t : Thread interface Op Err Reply} (ht : p.threads[i]? = some t) {ref : Id} {pay : Payment}
include h₀ hrun ht

/-- A payment that was found at rest is at rest. -/
theorem rests_of_found (hf : Found t.trace.done ref pay) (hdead : pay.status.live = false) :
    Rests p.db ref pay.id := by
  rcases hrun.answered ht (Trace.mem_events.2 (.inl hf)) with
    ⟨t₀, ht₀, -⟩ | ⟨q, tq, hq, hqp, htq, hnext, c, hexec⟩
  · simp [idle] at ht₀
  · have hguard : guards.stmt tq.trace (.paymentFindFirstByRef ref) := (settles hq).1.guard htq hnext
    rw [Trace.view, (List.append_eq_nil_iff.1 hguard.2.2).2] at hexec
    obtain ⟨hfind, href⟩ := found_of_exec c hexec
    exact Rests.of_run h₀ hq hqp ⟨pay, hfind, href, hdead⟩

/-- A payment whose update was refused had been completed. -/
theorem rests_of_refused {data : PaymentData}
    (h : (⟨.paymentUpdateManyNotCompleted pay.id data, (0 : Nat)⟩ : Ev) ∈ t.trace.done) :
    ∃ ref, Rests p.db ref pay.id := by
  rcases hrun.answered ht (Trace.mem_events.2 (.inl h)) with
    ⟨t₀, ht₀, -⟩ | ⟨q, tq, hq, hqp, htq, hnext, c, hexec⟩
  · simp [idle] at ht₀
  · obtain ⟨hsound, hl⟩ := settles hq
    have hguard : guards.stmt tq.trace (.paymentUpdateManyNotCompleted pay.id data) :=
      hsound.guard htq hnext
    obtain ⟨-, ⟨x, hx, hnow⟩, ⟨ref, pay', hfound, hid, -⟩, -⟩ := hguard.2
    rw [Trace.view, Trace.pending_of_some hx, replay_of_now hnow] at hexec
    obtain ⟨r, hr, href⟩ := ((ledger_holds h₀ hq).thread i tq htq).found ref pay'
      (Trace.mem_events.2 (.inl hfound))
    rw [← hid] at hr
    refine ⟨ref, Rests.of_run h₀ hq hqp ⟨r, hr, href, ?_⟩⟩
    rw [completed_of_refused c hexec hr]
    rfl

omit ht in
/-- A payment that a delivery has updated was concluded by it. -/
theorem rests_of_claims {id : Id} {data : PaymentData} (ht : p.threads[i]? = some t)
    (h : Claims t.trace.done id data) : ∃ ref, Rests p.db ref id := by
  obtain ⟨count, hne, hmem⟩ := h
  obtain ⟨q, a, q', hq, hR, hs, hqp, hnot, ⟨t', ht', hmem'⟩⟩ := hrun.first
    (K := fun p => ∃ t, p.threads[i]? = some t ∧
      (⟨.paymentUpdateManyNotCompleted id data, count⟩ : Ev) ∈ t.trace.done)
    (by simp [idle]) ⟨t, ht, hmem⟩
  have hq' : Run prog anyStep (idle s₀) q' := .step hq hR hs
  obtain ⟨hsound, hl⟩ := settles hq
  obtain ⟨u, hu, ⟨htx, ⟨hnext, -⟩, -⟩ | ⟨k, hk, hpending, hdb⟩⟩ :=
    (moves_of_step hs).stands ht' hmem' fun t ht hmem => hnot ⟨t, ht, hmem⟩
  · have hguard : guards.stmt u.trace (.paymentUpdateManyNotCompleted id data) := hsound.guard hu hnext
    obtain ⟨-, ⟨x, hx, -⟩, -⟩ := hguard.2
    rw [htx] at hx
    cases hx
  -- The step is the commit of a transaction that has sent the update.
  have hcommit : guards.commit u.trace := (hsound.conforms i u hu _ hk).2.1
  have hset := hl.thread i u hu
  cases hop : u.trace.op.creates with
  | true =>
      obtain ⟨_, _, _, _, _, _, -, -, -, hlist⟩ := creationCommit hcommit hop
      rw [hlist] at hpending
      simp at hpending
  | false =>
      rcases hset.settled hop with hno | ⟨ref, pay, data', hc⟩
      · exact absurd ⟨count, hne, hpending⟩ (hno.claims id data)
      · obtain ⟨rfl, rfl⟩ := hc.only id data ⟨count, hne, hpending⟩
        obtain ⟨r, -, -, hview⟩ := hset.concluded hc
        refine ⟨ref, Rests.of_run h₀ hq' hqp ⟨data.set r, hdb ▸ hview, ?_, hc.dead⟩⟩
        simp [PaymentData.set, hc.providerRef]

/-- **What a delivery has tried to conclude is at rest.** -/
theorem rests_of_tried (hf : Found t.trace.done ref pay) (h : Tried t.trace.done pay) :
    Rests p.db ref pay.id := by
  obtain ⟨data, count, hmem⟩ := h
  have hrests : ∃ ref, Rests p.db ref pay.id := by
    by_cases hcount : count = 0
    · subst hcount
      exact rests_of_refused h₀ hrun ht hmem
    · exact rests_of_claims h₀ hrun ht ⟨count, hcount, hmem⟩
  obtain ⟨ref', r, hr, href', hdead⟩ := hrests
  obtain ⟨r', hr', href⟩ := ((ledger_holds h₀ hrun).thread i t ht).found ref pay
    (Trace.mem_events.2 (.inl hf))
  obtain rfl := Option.some.inj (hr.symm.trans hr')
  exact ⟨r, hr, href, hdead⟩

end Handled

/-! ## The condition -/

/-- Does the call deliver the failure of an asynchronous payment? -/
def Op.failure : Op → Bool
  | .handleStripeWebhook delivery => delivery.event.type = .checkoutSessionAsyncPaymentFailed
  | _ => false

/-- Whoever delivers the failure of an asynchronous payment finds the payment concluded. -/
def failureConcluded (p : Platform) : Step model Op → Prop
  | .exec i _ => ∀ t ∈ p.threads[i]?, match t.next? with
      | some (.paymentFindFirstByRef ref) => t.trace.op.failure = true →
          ∀ pay ∈ p.db.payments.rows, pay.providerRef = some ref → pay.status.live = false
      | _ => True
  | _ => True

/-- The session whose payment the call is about to look up. -/
def lookingUp (t : Thread interface Op Err Reply) : Option Id :=
  match t.next? with
  | some (.paymentFindFirstByRef ref) => some ref
  | _ => none

theorem failureConcluded_exec {p : Platform} {i : Nat} {c : Choice} :
    failureConcluded p (.exec i c) ↔
      ∀ t ∈ p.threads[i]?, ∀ ref ∈ lookingUp t, t.trace.op.failure = true →
        ∀ pay ∈ p.db.payments.rows, pay.providerRef = some ref → pay.status.live = false := by
  refine forall₂_congr fun t _ => ?_
  rw [lookingUp]
  split <;> simp

instance (p : Platform) (a : Step model Op) : Decidable (failureConcluded p a) :=
  match a with
  | .exec .. => decidable_of_iff _ failureConcluded_exec.symm
  | .spawn _ | .fault .. | .crash _ | .env _ => inferInstanceAs (Decidable True)

/-- A call that delivers such a failure has found no payment under way. -/
def FoundConcluded (l : Log) : Prop :=
  l.op.failure = true → ∀ ref pay, Found l.events ref pay → pay.status.live = false

theorem FoundConcluded.of_subset {l l' : Log} (h : FoundConcluded l) (hop : l'.op = l.op)
    (hsub : ∀ e ∈ l'.events, e ∈ l.events) : FoundConcluded l' :=
  fun hfail ref pay hf => h (hop ▸ hfail) ref pay (hsub _ hf)

theorem FoundConcluded.call {p : Platform} {i : Nat} {c : Choice}
    {t : Thread interface Op Err Reply} {q : Stmt} {a : Ans q} (h : FoundConcluded t.trace)
    (hcall : Calls guards failureConcluded p i c t q a) : FoundConcluded (t.trace.push ⟨q, a⟩) := by
  intro hfail ref pay hf
  rw [Trace.push_op] at hfail
  rcases found_push hcall.guard hf with hf | ⟨hnil, -, heq⟩
  · exact h hfail ref pay hf
  · obtain ⟨rfl, heq⟩ := Event.mk.inj heq
    obtain rfl := eq_of_heq heq
    have hexec := hcall.exec
    rw [Trace.view, (List.append_eq_nil_iff.1 hnil).2] at hexec
    obtain ⟨hfind, href⟩ := found_of_exec c hexec
    have hallowed := hcall.allowed t hcall.here
    rw [hcall.next] at hallowed
    exact hallowed hfail pay (Table.mem_of_find? hfind) href

theorem concluded_rules : Rules (M := model) (ε := Err) (α := Reply) guards failureConcluded
    (fun _ => True) (fun _ => FoundConcluded) (fun _ _ => True) where
  symm _ _ _ := trivial
  start _ _ _ _ := by simp [FoundConcluded, Found, Trace.events]
  start_pair _ _ _ _ _ := trivial
  env _ _ _ _ := ⟨trivial, fun _ h => h⟩
  drop _ _ h := h.of_subset rfl fun _ => Trace.mem_events_of_drop
  drop_pair _ _ _ := trivial
  openTx _ _ _ htx h := h.of_subset rfl fun e he => by rwa [Trace.events_openTx htx] at he
  openTx_pair _ _ _ _ _ := trivial
  call _ i _ t _ _ h hcall _ :=
    ⟨trivial, (h.thread i t hcall.here).call hcall, fun _ hu => ⟨h.other hu, trivial⟩⟩
  callTx _ i _ t _ _ _ h hcall _ := ⟨(h.thread i t hcall.here).call hcall, fun _ _ => trivial⟩
  commit _ i _ t _ h hcommit :=
    ⟨trivial, (h.thread i t hcommit.here).of_subset rfl fun e he => by rwa [Trace.events_commit] at he,
      fun _ hu => ⟨h.other hu, trivial⟩⟩

/-! ## Every run -/

/-- The payments of session `ref` are neither PENDING nor PROCESSING. -/
def Closed (s : World) (ref : Id) : Prop :=
  ∀ pay ∈ s.payments, pay.providerRef = some ref → pay.status ≠ .PENDING ∧ pay.status ≠ .PROCESSING

theorem closed_of_rests {s : World} (hi : Integrity s) {ref id : Id} (h : Rests s ref id) :
    Closed s ref := by
  obtain ⟨r, hr, href, hdead⟩ := h
  intro pay hpay hpayref
  have hid : pay.id = r.id := hi.refs pay hpay r (Table.mem_of_find? hr) ref hpayref href
  obtain rfl : pay = r :=
    Table.eq_of_key_eq hpay (Table.mem_of_find? hr) hid
  constructor <;>
    · intro hst
      rw [hst] at hdead
      cases hdead

/-- What a delivery of one of Stripe's events guarantees when it ends well. -/
def Ends (l : Log) (_ : Reply) : Prop :=
  ∀ delivery, l.op = .handleStripeWebhook delivery → (∀ type, delivery.event.type ≠ .other type) →
    Reconciled l.done delivery.event.sessionId

theorem prog_ends (o : Op) : (prog o).Conforms model guards Ends (fun _ _ => True) (.start o) := by
  by_cases ho : ∃ delivery, o = .handleStripeWebhook delivery
  · obtain ⟨delivery, rfl⟩ := ho
    rw [prog, map_eq, conforms_handle]
    refine (handleStripeWebhook_conforms delivery).ends (fun l hop reply h delivery' hop' hno => ?_)
      fun _ _ _ _ => trivial
    obtain rfl := Op.handleStripeWebhook.inj (hop.symm.trans hop')
    exact h hno
  · refine (prog_conforms o).ends (fun l hop _ _ delivery hop' => ?_) fun _ _ _ _ => trivial
    exact absurd ⟨delivery, hop.symm.trans hop'⟩ ho

/-- **Sessions that were never paid are closed.** In every run in which the failure of an asynchronous payment
is delivered only for payments that are concluded, once a delivery for a session that was never paid has ended
well, the payment of the session is neither PENDING nor PROCESSING, and stays so. -/
theorem unpaid_session_closed {s₀ : World} (h₀ : Ledger s₀) (hi : Integrity s₀) {p : Platform}
    (hrun : Run prog failureConcluded (idle s₀) p) {i : Nat} {t : Thread interface Op Err Reply}
    (ht : p.threads[i]? = some t) {delivery : StripeDelivery}
    (hop : t.trace.op = .handleStripeWebhook delivery) {reply : Reply} (hrest : t.rest = some (.ret reply))
    (htype : delivery.event.type = .checkoutSessionExpired ∨
      delivery.event.type = .checkoutSessionAsyncPaymentFailed)
    (hstripe : ∀ confirmation : Confirmation,
      (⟨.confirmPayment delivery.event.sessionId, confirmation⟩ : Ev) ∈ t.trace.events →
        ∃ session : StripeSession, session.NeverPaid delivery.event.type ∧
          confirmation = session.confirmPayment) :
    Closed p.db delivery.event.sessionId := by
  have hany : Run prog anyStep (idle s₀) p := hrun.mono fun _ _ _ => trivial
  have hfound := (concluded_rules.holds (fun _ o _ => prog_conforms o) trivial hrun).2.thread i t ht
  have hends : Ends t.trace reply := hany.conforms prog_ends i t ht _ hrest
  obtain ⟨pay, hf, hcases⟩ := hends delivery hop fun type h => by rcases htype with h' | h' <;> simp [h'] at h
  have hclosed : Rests p.db delivery.event.sessionId pay.id → Closed p.db delivery.event.sessionId :=
    closed_of_rests (integrity_holds h₀ hi hany)
  apply hclosed
  rcases htype with htype | htype
  · rcases hcases with hst | htried | ⟨confirmation, hpending, hmem⟩
    · exact rests_of_found h₀ hany ht hf (by rw [hst]; rfl)
    · exact rests_of_tried h₀ hany ht hf htried
    · -- A session that has run out is reported as failed.
      obtain ⟨session, hnever, rfl⟩ := hstripe confirmation (Trace.mem_events.2 (.inl hmem))
      rw [htype] at hnever
      rw [hnever.confirmPayment] at hpending
      cases hpending
  · refine rests_of_found h₀ hany ht hf (hfound ?_ _ pay (Trace.mem_events.2 (.inl hf)))
    simp [hop, Op.failure, htype]

/-! ## A session that has run out, and a payment that has failed -/

/-- Payment 1, started in session 70, and a delivery of an event of this type for it, which Stripe answers so. -/
def deliveredFor (type : StripeEventType) (confirmation : Confirmation) : List (Step model Op) :=
  createCommands 0 1 ++ startCommands 0 70 ++
    [.spawn (.handleStripeWebhook ⟨true, true, true, .valid, ⟨type, 70⟩⟩), .exec 1 (.nat 0),
     .exec 1 (.confirmation confirmation)]

def answeredBy (confirmation : Confirmation) : Ev → Bool
  | ⟨.confirmPayment _, confirmation'⟩ => confirmation' = confirmation
  | _ => true

/-- Call 1 has delivered an event of this type for session 70, answered so. -/
def hasDelivered (type : StripeEventType) (confirmation : Confirmation) (p : Platform) : Bool :=
  p.threads[1]?.any fun t => match t.trace.op, t.rest with
    | .handleStripeWebhook delivery, some (.ret _) =>
        delivery.event.type = type ∧ delivery.event.sessionId = 70 ∧
          t.trace.events.all (answeredBy confirmation)
    | _, _ => false

theorem of_hasDelivered {type : StripeEventType} {confirmation : Confirmation} {p : Platform}
    (h : hasDelivered type confirmation p = true) :
    ∃ t delivery reply, p.threads[1]? = some t ∧ t.trace.op = .handleStripeWebhook delivery ∧
      t.rest = some (.ret reply) ∧ delivery.event.type = type ∧ delivery.event.sessionId = 70 ∧
      ∀ confirmation' : Confirmation,
        (⟨.confirmPayment delivery.event.sessionId, confirmation'⟩ : Ev) ∈ t.trace.events →
          confirmation' = confirmation := by
  obtain ⟨t, ht, hcall⟩ := (Option.any_eq_true ..).1 h
  split at hcall
  · next delivery reply hop hrest =>
      obtain ⟨htype, hid, hall⟩ := of_decide_eq_true hcall
      refine ⟨t, delivery, reply, ht, hop, hrest, htype, hid, fun confirmation' hmem => ?_⟩
      exact of_decide_eq_true (List.all_eq_true.1 hall _ hmem)
  · cases hcall

/-- Payment 1 is the one of session 70. -/
def started (p : Platform) : Bool :=
  (p.db.payments.find? 1).any fun pay => pay.providerRef = some 70

/-- The session runs out, and its payment is closed. -/
theorem unpaid_session_closed_expired :
    ∃ p : Platform, Run prog failureConcluded (idle enrollableFile) p ∧ started p = true ∧
      Closed p.db 70 := by
  have hplay : ((idle enrollableFile : Platform).play prog failureConcluded
      (deliveredFor .checkoutSessionExpired ⟨.FAILED, none⟩ ++ commands 1 4)).any (fun p =>
        hasDelivered .checkoutSessionExpired ⟨.FAILED, none⟩ p && started p) = true := by
    decide +kernel
  obtain ⟨p, hrun, hends⟩ := exists_run_of_play hplay
  obtain ⟨hdelivered, hstarted⟩ := Bool.and_eq_true_iff.1 hends
  obtain ⟨t, delivery, reply, ht, hop, hrest, htype, hid, hanswer⟩ := of_hasDelivered hdelivered
  refine ⟨p, hrun, hstarted, hid ▸ unpaid_session_closed
    ⟨by rintro _ ⟨⟩, by rintro _ ⟨⟩, by rintro _ ⟨⟩⟩ ⟨by rintro _ ⟨⟩, by rintro _ ⟨⟩⟩ hrun ht hop hrest
    (.inl htype) fun confirmation hmem => ?_⟩
  obtain rfl := hanswer confirmation hmem
  rw [htype]
  exact ⟨⟨.expired, .unpaid, none⟩, by decide, rfl⟩

/-- The payment fails, and its row stays under way. -/
theorem not_unpaid_session_closed :
    ¬ ∀ s₀ : World, Ledger s₀ → Integrity s₀ → ∀ p : Platform, Run prog anyStep (idle s₀) p →
      ∀ (i : Nat) (t : Thread interface Op Err Reply), p.threads[i]? = some t →
      ∀ (delivery : StripeDelivery) (reply : Reply), t.trace.op = .handleStripeWebhook delivery →
        t.rest = some (.ret reply) →
        (delivery.event.type = .checkoutSessionExpired ∨
          delivery.event.type = .checkoutSessionAsyncPaymentFailed) →
        (∀ confirmation : Confirmation,
          (⟨.confirmPayment delivery.event.sessionId, confirmation⟩ : Ev) ∈ t.trace.events →
            ∃ session : StripeSession, session.NeverPaid delivery.event.type ∧
              confirmation = session.confirmPayment) →
        Closed p.db delivery.event.sessionId := by
  intro h
  have hplay : ((idle enrollableFile : Platform).play prog anyStep
      (deliveredFor .checkoutSessionAsyncPaymentFailed ⟨.PENDING, none⟩)).any (fun p =>
        hasDelivered .checkoutSessionAsyncPaymentFailed ⟨.PENDING, none⟩ p &&
          (p.db.payments.find? 1).any fun pay =>
            pay.providerRef = some 70 ∧ pay.status = .PROCESSING) = true := by
    decide +kernel
  obtain ⟨p, hrun, hbad⟩ := exists_run_of_play hplay
  obtain ⟨hdelivered, hpay⟩ := Bool.and_eq_true_iff.1 hbad
  obtain ⟨pay, hfind, hpay⟩ := (Option.any_eq_true ..).1 hpay
  obtain ⟨href, hst⟩ := of_decide_eq_true hpay
  obtain ⟨t, delivery, reply, ht, hop, hrest, htype, hid, hanswer⟩ := of_hasDelivered hdelivered
  have hclosed := h enrollableFile ⟨by rintro _ ⟨⟩, by rintro _ ⟨⟩, by rintro _ ⟨⟩⟩
    ⟨by rintro _ ⟨⟩, by rintro _ ⟨⟩⟩ p hrun 1 t ht delivery reply hop hrest (.inr htype)
    fun confirmation hmem => by
      obtain rfl := hanswer confirmation hmem
      rw [htype]
      exact ⟨⟨.complete, .unpaid, none⟩, by decide, rfl⟩
  exact (hclosed pay (Table.mem_of_find? hfind) (hid ▸ href)).2 hst

end GetPlatform.Admission
