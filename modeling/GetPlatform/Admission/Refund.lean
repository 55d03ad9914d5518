import GetPlatform.Admission.Ledger
import GetPlatform.Store.Alone

set_option autoImplicit false

/-! # Money received for a closed file

When a payment is confirmed and its application is neither ACCEPTED nor ENROLLED any more, the
transaction of the delivery creates a refund of its amount, enrols nobody and leaves the application
alone. It does so exactly when no other payment of the application is completed: the branch for
another completed payment comes first, whatever the status of the application. -/

namespace GetPlatform.Admission

open Pool Prog

/-! ## What is true of payments and refunds in every run -/

/-- No two payments have one provider reference. -/
def RefsUnique (t : Table Payment) : Prop :=
  ∀ x ∈ t, ∀ y ∈ t, ∀ r, x.providerRef = some r → y.providerRef = some r → x.id = y.id

/-- Refunds belong to completed payments. -/
structure Integrity (s : World) : Prop where
  refs : RefsUnique s.payments
  refunded : ∀ r ∈ s.refunds, ∃ p, s.payments.find? r.paymentId = some p ∧ p.status = .COMPLETED

theorem RefsUnique.modify {t : Table Payment} (h : RefsUnique t) {id : Id} {data : PaymentData}
    (hfree : ∀ r, data.providerRef = some r → ∀ p ∈ t, p.providerRef = some r → p.id = id) :
    RefsUnique (t.modify id data.set data.key_set) := by
  -- A reference of the new table is one of the old, or the one that was set.
  have hsource : ∀ x' ∈ t.modify id data.set data.key_set, ∀ r, x'.providerRef = some r →
      (∃ x ∈ t, x.id = x'.id ∧ x.providerRef = some r) ∨ x'.id = id ∧ data.providerRef = some r := by
    intro x' hx' r hr
    obtain ⟨x, hx, rfl⟩ := Table.mem_modify.1 hx'
    by_cases hid : Keyed.key x = id
    · rw [if_pos hid] at hr ⊢
      cases href : data.providerRef with
      | none => exact .inl ⟨x, hx, rfl, by simpa [PaymentData.set, href] using hr⟩
      | some r' => exact .inr ⟨hid, by simpa [PaymentData.set, href] using hr⟩
    · rw [if_neg hid] at hr ⊢
      exact .inl ⟨x, hx, rfl, hr⟩
  intro x' hx' y' hy' r hxr hyr
  rcases hsource x' hx' r hxr with ⟨x, hx, hxid, hxr⟩ | ⟨hxid, hr⟩
  · rcases hsource y' hy' r hyr with ⟨y, hy, hyid, hyr⟩ | ⟨hyid, hr⟩
    · exact hxid.symm.trans ((h x hx y hy r hxr hyr).trans hyid)
    · exact hxid.symm.trans ((hfree r hr x hx hxr).trans hyid.symm)
  · rcases hsource y' hy' r hyr with ⟨y, hy, hyid, hyr⟩ | ⟨hyid, -⟩
    · exact hxid.trans ((hfree r hr y hy hyr).symm.trans hyid)
    · exact hxid.trans hyid.symm

theorem refFree_of_updated {id : Id} {data : PaymentData} (c : Choice) {s : World} {row : Payment}
    (h : exec (.paymentUpdate id data) c s = some row) {r : Id} (hr : data.providerRef = some r) :
    ∀ p ∈ s.payments, p.providerRef = some r → p.id = id := by
  intro p hp hpr
  simp only [exec] at h
  split at h
  · next hfree =>
      rw [World.refFree, hr, Option.all_some, List.all_eq_true] at hfree
      exact (of_decide_eq_true (hfree p hp)).resolve_left (not_not.2 hpr)
  · cases h

/-- The references after a commit are those before it. -/
theorem Accounts.ref_of_view {s : World} {l : Log} (h : Accounts s l) (hl : Settles s l)
    {x : Payment} (hx : x ∈ (l.view model s).payments) {r : Id} (hr : x.providerRef = some r) :
    ∃ x₀ ∈ s.payments, x₀.id = x.id ∧ x₀.providerRef = some r := by
  have hfind : (l.view model s).payments.find? x.id = some x := Table.find?_key hx
  cases hold : s.payments.find? x.id with
  | some x₀ =>
      obtain ⟨x', hx', href⟩ := h.same_ref hl hold
      obtain rfl := Option.some.inj (hfind.symm.trans hx')
      exact ⟨x₀, Table.mem_of_find? hold, Table.key_of_find? hold, href.symm.trans hr⟩
  | none =>
      cases hop : l.op.creates with
      | true =>
          have hnone := applyAll_unreferenced (s := s)
            (fun id data hw => by rw [hl.swept hop id data hw])
            (fun new hw => (hl.fresh new hw).2.2.2) (fun r hr => by simp [hold] at hr) hfind
          simp [hnone] at hr
      | false =>
          rcases hl.settled hop with hno | ⟨ref, pay, data, hc⟩
          · rw [Trace.view, hno.payments, hold] at hfind
            cases hfind
          · rw [Trace.view, hc.payments, Table.find?_modify, hold] at hfind
            split at hfind
            · next hid =>
                rw [← hid, hold] at hfind
                cases hfind
            · cases hfind

theorem refund_of_applyAll {ws : List Write} {s : World} {r : Refund}
    (h : r ∈ (model.applyAll ws s).refunds) :
    (∃ r₀ ∈ s.refunds, r₀.paymentId = r.paymentId) ∨
      ∃ row, Write.newRefund row ∈ ws ∧ row.paymentId = r.paymentId := by
  refine @Model.applyAll_keeps _ model (fun u => ∀ r ∈ u.refunds,
    (∃ r₀ ∈ s.refunds, r₀.paymentId = r.paymentId) ∨
      ∃ row, Write.newRefund row ∈ ws ∧ row.paymentId = r.paymentId) ws
    (fun w hw u hu r hr => ?_) s (fun r hr => .inl ⟨r, hr, rfl⟩) r h
  cases w with
  | newRefund row =>
      rcases Table.mem_of_mem_insert hr with hr | rfl
      · exact hu r hr
      · exact .inr ⟨r, hw, rfl⟩
  | refund id st at' =>
      have hr : r ∈ u.refunds.modify id (Refund.process st at') (Refund.key_process st at') := hr
      obtain ⟨r', hr', rfl⟩ := Table.mem_modify.1 hr
      split
      · exact hu r' hr'
      · exact hu r' hr'
  | _ => exact hu r hr

theorem Integrity.of_changes {p : Platform} {s' : model.State} (h : Integrity p.db)
    (ha : Holds Ledger Accounts Apart p) (hl : Holds (fun _ => True) Settles (fun _ _ => True) p)
    (hc : Changes guards anyStep p s') : Integrity s' := by
  have hstays : ∀ {id pay}, p.db.payments.find? id = some pay → pay.status = .COMPLETED →
      s'.payments.find? id = some pay := fun hpay hst => completed_of_changes ha hl hc hpay hst
  cases hc with
  | none => exact h
  | env e => exact ⟨h.refs, h.refunded⟩
  | @call i c t q a hcall htx =>
      refine ⟨?_, fun r hr => ?_⟩
      · rcases call_payments a hcall.guard htx with hsame | ⟨row, data, rfl, -, -⟩
        · rw [hsame]
          exact h.refs
        · have hexec := hcall.exec
          rw [Trace.view_of_none htx] at hexec
          exact h.refs.modify fun r hr => refFree_of_updated c hexec hr
      · rcases refund_of_applyAll hr with ⟨r₀, hr₀, hid⟩ | ⟨row, hw, -⟩
        · obtain ⟨pay, hpay, hst⟩ := h.refunded r₀ hr₀
          exact ⟨pay, hid ▸ hstays hpay hst, hst⟩
        · obtain ⟨rfl, -⟩ := Event.mk.inj (newRefund_of_write (e := ⟨q, a⟩) hw)
          exact absurd htx hcall.guard.2.1
  | @commit i c t x hcommit =>
      have hset := hl.thread i t hcommit.here
      refine ⟨fun x hx y hy r hxr hyr => ?_, fun r hr => ?_⟩
      · obtain ⟨x₀, hx₀, hxid, hxr⟩ := (ha.thread i t hcommit.here).ref_of_view hset hx hxr
        obtain ⟨y₀, hy₀, hyid, hyr⟩ := (ha.thread i t hcommit.here).ref_of_view hset hy hyr
        exact hxid.symm.trans ((h.refs x₀ hx₀ y₀ hy₀ r hxr hyr).trans hyid)
      · rcases refund_of_applyAll hr with ⟨r₀, hr₀, hid⟩ | ⟨row, hw, hid⟩
        · obtain ⟨pay, hpay, hst⟩ := h.refunded r₀ hr₀
          exact ⟨pay, hid ▸ hstays hpay hst, hst⟩
        · obtain ⟨data, hst, hclaims⟩ := hset.refunded row hw
          obtain ⟨ref, pay, hconc, hpay⟩ := hset.concluding hclaims hst
          obtain ⟨r', -, -, hview⟩ := hset.concluded hconc
          exact ⟨data.set r', by rw [← hid, hpay]; exact hview, hst⟩

theorem integrity_holds {s₀ : World} (h₀ : Ledger s₀) (hi : Integrity s₀) {p : Platform}
    (hrun : Run prog anyStep (idle s₀) p) : Integrity p.db := by
  induction hrun with
  | refl => exact hi
  | step hr hR hs ih =>
      obtain ⟨hsound, hl⟩ := settles hr
      exact ih.of_changes (ledger_holds h₀ hr) hl (hsound.changes hR hs)

/-! ## The transaction of a delivery, as one step -/

/-- No other payment of application `a` is completed. -/
def NoOther (s : World) (a id : Id) : Prop :=
  ∀ q ∈ s.payments.rows, q.applicationId = some a → q.id ≠ id → q.status ≠ .COMPLETED

instance (s : World) (a id : Id) : Decidable (NoOther s a id) :=
  inferInstanceAs (Decidable (∀ q ∈ s.payments.rows, _))

/-- Is payment `id` completed? -/
def Completed (s : World) (id : Id) : Prop :=
  (s.payments.find? id).any (·.status = .COMPLETED) = true

/-- From `s` to `s'` a refund of payment `id` was created, of that amount; no enrolment was created
    or modified, and application `a` keeps its status. -/
structure Refunded (s s' : World) (a id : Id) (amount : Rat) : Prop where
  none_before : s.refunds.find? id = none
  created : ∃ r, s'.refunds.find? id = some r ∧ r.amount = amount
  enrollments : s'.enrollments = s.enrollments
  status : (s'.applications.find? a).map (·.status) = (s.applications.find? a).map (·.status)

/-- A step of a delivery from `s` that completes payment `id` of application `a` refunds it. -/
def RefundsIfCompleted {α : Type} (s : World) (a id : Id) (amount : Rat) (step : Call α) : Prop :=
  step.wp model (fun _ _ s' => Completed s' id → Refunded s s' a id amount)
    (fun _ _ s' => Completed s' id → Refunded s s' a id amount) none s

section Conclusion

variable {α : Type} {Q : α → Option World → World → Prop} {E : Err → Option World → World → Prop}
  {saved : Option World} {s : World}

@[simp] theorem wp_send {q : Stmt} {Q : Ans q → Option World → World → Prop} :
    @Prog.wp interface Err (no_index (Ans q)) model (send q) Q E saved s ↔
      (∀ f, E (.database f) saved s) ∧
        ∀ c a, exec q c s = some a → Q a saved (model.applyAll (writes q a) s) := Iff.rfl

theorem recordTransaction_wp {pay : Payment} {txId : Option String}
    {Q : Unit → Option World → World → Prop} (hE : ∀ e s, E e saved s)
    (hQ : s.transactions.contains pay.id = false →
      ∀ row, Q () saved (World.apply (.newTransaction row) s)) :
    (recordTransaction pay txId).wp model Q E saved s := by
  simp only [recordTransaction, bind_eq, wp_handle, wp_send, wp_fail]
  refine ⟨fun _ => hE _ _, fun _ t _ => ⟨fun _ => hE _ _, fun c _ hexec => hQ ?_ _⟩⟩
  simp only [exec] at hexec
  split at hexec
  · cases hexec
  · next hno => exact Bool.eq_false_iff.2 hno

/-- A closed file: the refund, an entry of the timeline, and nothing else. -/
theorem refundClosed_wp {pay : Payment} {application : ApplicationWithOffer}
    {Q : Unit → Option World → World → Prop} (hE : ∀ e s, E e saved s)
    (hQ : s.refunds.contains pay.id = false → ∀ row, row.paymentId = pay.id →
      row.amount = pay.amount →
      Q () saved (World.apply (.timeline ⟨application.id, application.status,
        .confirmedAfterCancellation pay.reference, none⟩) (World.apply (.newRefund row) s))) :
    (refundClosed pay application).wp model Q E saved s := by
  simp only [refundClosed, bind_eq, wp_handle, wp_send, wp_fail]
  refine ⟨fun _ => hE _ _, fun c _ hexec => ⟨fun _ => hE _ _, fun _ _ _ => hQ ?_ _ rfl rfl⟩⟩
  simp only [exec] at hexec
  split at hexec
  · cases hexec
  · next hno => simpa using hno

/-- The lookup for another completed payment, after payment `pay` was claimed. -/
theorem paymentsIn_claimed {a id : Id} {data : PaymentData} (h : NoOther s a id) :
    (World.apply (.payment id data) s).paymentsIn a [.COMPLETED] (some id) = [] := by
  refine List.filter_eq_nil_iff.2 fun q' hq' => ?_
  have hq' : q' ∈ s.payments.modify id data.set data.key_set := hq'
  obtain ⟨q, hq, rfl⟩ := Table.mem_modify.1 hq'
  by_cases hid : Keyed.key q = id
  · have : (data.set q).id = id := hid
    simp [if_pos hid, this]
  · rw [if_neg hid]
    intro hmem
    obtain ⟨happ, hst, hne⟩ := of_decide_eq_true hmem
    exact h q hq happ (fun he => hne (congrArg some he.symm)) (by simpa using hst)

/-- A closed file without another completed payment is refunded. -/
theorem settleApplication_wp {pay : Payment} {a : Id} {app : Application} {data : PaymentData}
    {Q : Bool → Option World → World → Prop} (happ : s.applications.find? a = some app)
    (hclosed : app.status.occupies = false) (hnone : NoOther s a pay.id)
    (hE : ∀ e s, E e saved s)
    (hQ : s.refunds.contains pay.id = false → ∀ row entry, row.paymentId = pay.id →
      row.amount = pay.amount → Q true saved (World.apply (.timeline entry)
        (World.apply (.newRefund row) (World.apply (.payment pay.id data) s)))) :
    (settleApplication pay a).wp model Q E saved (World.apply (.payment pay.id data) s) := by
  simp only [settleApplication, bind_eq, wp_handle, wp_send, wp_fail]
  refine ⟨fun _ => hE _ _, fun c found hfound => ?_⟩
  cases c <;> simp only [exec, reduceCtorEq, Option.some.injEq] at hfound
  rw [paymentsIn_claimed hnone, pick_eq_none.2 rfl] at hfound
  subst hfound
  simp only [wp_handle, wp_send, wp_fail]
  refine ⟨fun _ => hE _ _, fun c found hfound => ?_⟩
  cases found with
  | none => exact absurd hfound (applicationFindUnique_ne_none c happ)
  | some application =>
      have hfind := (applicationFindUnique_of_exec c hfound).1
      obtain rfl : app = application.toApplication := Option.some.inj (happ.symm.trans hfind)
      simp only [hclosed, Bool.false_eq_true, if_false, wp_handle, pure_eq]
      exact refundClosed_wp hE fun hfree row hid hamount => hQ hfree row _ hid hamount

theorem refunds_of_noOther {pay row : Payment} {ref a : Id} {app : Application}
    {txId : Option String} (hrow : s.payments.find? pay.id = some row)
    (hopen : row.status ≠ .COMPLETED) (happ : pay.applicationId = some a)
    (hfile : s.applications.find? a = some app) (hclosed : app.status.occupies = false)
    (hnone : NoOther s a pay.id) :
    RefundsIfCompleted s a pay.id pay.amount (transaction .readCommitted
      (settlePayment pay ref .COMPLETED txId)) := by
  have hnot : ¬ Completed s pay.id := by simpa [Completed, hrow] using hopen
  have hE : ∀ s', Completed s pay.id → Refunded s s' a pay.id pay.amount := fun _ hc => absurd hc hnot
  refine (wp_transaction ..).2 ?_
  simp only [settlePayment, paidAt, if_true, map_eq, bind_eq, pure_eq, wp_handle, wp_send, wp_fail,
    wp_ret, wp_ite, Option.getD_some]
  refine ⟨fun _ => hE _, fun _ t _ => ⟨fun _ => hE _, fun c claimed hclaimed =>
    ⟨fun _ => hE _, fun _ updated _ => ⟨fun hno => ?_, fun hyes => ?_⟩⟩⟩⟩
  · -- Nothing was claimed, so nothing was written.
    have hzero : claimed = 0 := hno.resolve_right (by simp)
    subst hzero
    exact ⟨fun _ => hE _, fun hc => absurd hc hnot⟩
  · have hne : claimed ≠ 0 := fun h => hyes (.inl h)
    simp only [settleConfirmed, happ, writes, if_neg hne, bind_eq, pure_eq, wp_handle]
    refine settleApplication_wp hfile hclosed hnone (fun _ _ => hE _) fun hfree refund entry hid
      hamount => ?_
    rw [wp_handle]
    have hfree : s.refunds.contains pay.id = false := hfree
    refine recordTransaction_wp (fun _ _ => hE _) fun _ t => ⟨fun _ => hE _, fun _ => ?_⟩
    refine ⟨by simpa [Table.contains] using hfree, ⟨refund, ?_, hamount⟩, rfl, rfl⟩
    exact (Table.find?_insert (by rw [← hfree, ← hid]; rfl) _).trans (if_pos hid.symm)

theorem pick_paymentsIn_claimed {a id : Id} (data : PaymentData) (h : ¬ NoOther s a id) :
    ∃ q, pick ((World.apply (.payment id data) s).paymentsIn a [.COMPLETED] (some id)) 0 =
      some q := by
  cases hpick : pick ((World.apply (.payment id data) s).paymentsIn a [.COMPLETED] (some id)) 0 with
  | some q => exact ⟨q, rfl⟩
  | none =>
      refine absurd (fun q hq happ hne hst => ?_) h
      have hmem : q ∈ s.payments.modify id data.set data.key_set :=
        Table.mem_modify.2 ⟨q, hq, (if_neg hne).symm⟩
      refine List.filter_eq_nil_iff.1 (pick_eq_none.1 hpick) q hmem ?_
      exact decide_eq_true ⟨happ, by simp [hst], fun he => hne (Option.some.inj he).symm⟩

/-- With another completed payment the transaction can complete this one without a refund. -/
theorem not_refunds_of_other {pay row : Payment} {ref a : Id} {txId : Option String}
    (hrow : s.payments.find? pay.id = some row) (hopen : row.status ≠ .COMPLETED)
    (hfree : ∀ p ∈ s.payments, p.providerRef = some ref → p.id = pay.id)
    (happ : pay.applicationId = some a) (htx : s.transactions.find? pay.id = none)
    (hrefund : s.refunds.find? pay.id = none) (hother : ¬ NoOther s a pay.id) :
    ¬ RefundsIfCompleted s a pay.id pay.amount (transaction .readCommitted
      (settlePayment pay ref .COMPLETED txId)) := by
  intro h
  replace h := (wp_transaction ..).1 h
  simp only [settlePayment, paidAt, if_true, map_eq, bind_eq, pure_eq, wp_handle, wp_send, wp_fail,
    wp_ret, wp_ite, Option.getD_some] at h
  -- The claim succeeds.
  have hclaim : ∀ data : PaymentData, data.providerRef = some ref →
      exec (.paymentUpdateManyNotCompleted pay.id data) (.nat 0) s = some 1 := by
    intro data hdata
    have hfree' : s.refFree pay.id data.providerRef = true := by
      rw [World.refFree, hdata, Option.all_some, List.all_eq_true]
      exact fun p hp => decide_eq_true (not_or_of_imp (hfree p hp))
    simp only [exec, hrow, if_neg hopen, hfree', if_true]
  replace h := (h.2 (.nat 0) s.clock rfl).2 (.nat 0) 1 (hclaim _ rfl)
  have hview : ∀ data : PaymentData,
      (World.apply (.payment pay.id data) s).payments.find? pay.id = some (data.set row) :=
    fun data => (Table.find?_modify_self _ _ _ data.key_set).trans (by rw [hrow]; rfl)
  replace h := (h.2 (.nat 0) _ (hview _)).2 (by simp)
  simp only [settleConfirmed, happ, bind_eq, pure_eq, wp_handle, settleApplication, wp_send] at h
  -- The lookup finds the other payment.
  obtain ⟨other, hlookup⟩ := pick_paymentsIn_claimed
    { status := .COMPLETED, paidAt := some s.clock, providerRef := some ref } hother
  replace h := h.2 (.nat 0) (some other) (congrArg some hlookup)
  simp only [wp_handle, wp_send] at h
  replace h := h.2 (.nat 0) () rfl
  simp only [wp_ret, recordTransaction, bind_eq, wp_handle, wp_send] at h
  have hbook : (if s.transactions.contains pay.id then none else some ()) = some () := by
    simp [Table.contains, htx]
  replace h := (h.2 (.nat 0) s.clock rfl).2 (.nat 0) () hbook
  have hcompleted : Completed (World.apply (.payment pay.id
      { status := .COMPLETED, paidAt := some s.clock, providerRef := some ref }) s) pay.id := by
    rw [Completed, hview]
    rfl
  obtain ⟨-, ⟨r, hr, -⟩, -, -⟩ := h.2 hcompleted
  exact absurd (hrefund.symm.trans hr) (by simp)

theorem refundsIfCompleted_iff {pay row : Payment} {ref a : Id} {app : Application}
    (hledger : Ledger s) (hintegrity : Integrity s) (hrow : s.payments.find? pay.id = some row)
    (hsame : pay.SameFile row) (hopen : row.status ≠ .COMPLETED)
    (href : row.providerRef = some ref) (happ : pay.applicationId = some a)
    (hfile : s.applications.find? a = some app) (hclosed : app.status.occupies = false)
    (txId : Option String) :
    RefundsIfCompleted s a row.id row.amount (transaction .readCommitted
      (settlePayment pay ref .COMPLETED txId)) ↔ NoOther s a row.id := by
  rw [hsame.id, hsame.amount]
  refine ⟨fun h => ?_, refunds_of_noOther hrow hopen happ hfile hclosed⟩
  -- The payment is not completed: it has no ledger row and no refund yet.
  have hfree : ∀ p ∈ s.payments, p.providerRef = some ref → p.id = pay.id := fun p hp hpr =>
    (hintegrity.refs p hp row (Table.mem_of_find? hrow) ref hpr href).trans hsame.id
  have htx : s.transactions.find? pay.id = none := by
    cases ht : s.transactions.find? pay.id with
    | none => rfl
    | some t =>
        obtain ⟨p, hp, hst⟩ := hledger.paid t (Table.mem_of_find? ht)
        have hid : t.paymentId = pay.id := Table.key_of_find? ht
        rw [hid] at hp
        obtain rfl := Option.some.inj (hrow.symm.trans hp)
        exact absurd hst hopen
  have hrefund : s.refunds.find? pay.id = none := by
    cases hr : s.refunds.find? pay.id with
    | none => rfl
    | some r =>
        obtain ⟨p, hp, hst⟩ := hintegrity.refunded r (Table.mem_of_find? hr)
        have hid : r.paymentId = pay.id := Table.key_of_find? hr
        rw [hid] at hp
        obtain rfl := Option.some.inj (hrow.symm.trans hp)
        exact absurd hst hopen
  by_contra hother
  exact not_refunds_of_other hrow hopen hfree happ htx hrefund hother h

end Conclusion

/-- **Money received for a closed file.** In every reachable state, the transaction of a delivery
    that completes a payment whose application is neither ACCEPTED nor ENROLLED refunds it, enrols
    nobody and leaves the application alone, if and only if no other payment of the application is
    completed. -/
theorem closed_file_refunded {s₀ : World} (h₀ : Ledger s₀) (hi : Integrity s₀) {p : Platform}
    (hrun : Run prog anyStep (idle s₀) p) {pay row : Payment} {ref a : Id} {app : Application}
    (hrow : p.db.payments.find? pay.id = some row) (hsame : pay.SameFile row)
    (hopen : row.status ≠ .COMPLETED) (href : row.providerRef = some ref)
    (happ : pay.applicationId = some a) (hfile : p.db.applications.find? a = some app)
    (hclosed : app.status ≠ .ACCEPTED ∧ app.status ≠ .ENROLLED) (txId : Option String) :
    RefundsIfCompleted p.db a row.id row.amount (transaction .readCommitted
      (settlePayment pay ref .COMPLETED txId)) ↔ NoOther p.db a row.id :=
  refundsIfCompleted_iff (ledger_holds h₀ hrun).db (integrity_holds h₀ hi hrun) hrow hsame hopen
    href happ hfile (by simp [ApplicationStatus.occupies, hclosed]) txId

/-- The cancellation of application 1, as call `i`. -/
def cancelCommands (i : Nat) : List (Step model Op) :=
  .spawn (.updateStatus 1 { status := .CANCELLED } 9) :: commands i 10

/-- Payment `1` is open under reference 70, and its application is cancelled. -/
def cancelledFile (s : World) : Bool :=
  (s.payments.find? 1).any (fun x => x.status ≠ .COMPLETED ∧ x.providerRef = some 70 ∧
    x.applicationId = some 1) && (s.applications.find? 1).any (·.status = .CANCELLED)

theorem of_cancelledFile {s : World} (h : cancelledFile s = true) :
    ∃ x app, s.payments.find? x.id = some x ∧ x.status ≠ .COMPLETED ∧ x.providerRef = some 70 ∧
      x.applicationId = some 1 ∧ x.id = 1 ∧ s.applications.find? 1 = some app ∧
      app.status = .CANCELLED := by
  rw [cancelledFile, Bool.and_eq_true] at h
  obtain ⟨x, hx, hx'⟩ := (Option.any_eq_true ..).1 h.1
  obtain ⟨app, happ, happ'⟩ := (Option.any_eq_true ..).1 h.2
  obtain ⟨hopen, href, hxapp⟩ := of_decide_eq_true hx'
  have hid : x.id = 1 := Table.key_of_find? hx
  exact ⟨x, app, hid ▸ hx, hopen, href, hxapp, hid, happ, of_decide_eq_true happ'⟩

/-- The application is cancelled while its only payment is being processed. -/
def cancelledWhilePaying : List (Step model Op) :=
  createCommands 0 1 ++ startCommands 0 70 ++ cancelCommands 1

theorem closed_file_refunded_cancelledWhilePaying :
    ∃ (p : Platform) (row : Payment) (app : Application),
      Run prog anyStep (idle enrollableFile) p ∧
      (p.db.payments.find? row.id = some row ∧ row.status ≠ .COMPLETED ∧
        p.db.applications.find? 1 = some app ∧ app.status = .CANCELLED ∧ NoOther p.db 1 row.id) ∧
      (RefundsIfCompleted p.db 1 row.id row.amount (transaction .readCommitted
        (settlePayment row 70 .COMPLETED none)) ↔ NoOther p.db 1 row.id) := by
  have hplay : ((idle enrollableFile : Platform).play prog anyStep cancelledWhilePaying).any
      (fun p => cancelledFile p.db = true ∧ NoOther p.db 1 1) = true := by
    decide +kernel
  obtain ⟨p, hrun, hgood⟩ := exists_run_of_play hplay
  obtain ⟨hcancelled, hnone⟩ := of_decide_eq_true hgood
  obtain ⟨row, app, hrow, hopen, href, happ, hid, hfile, hst⟩ := of_cancelledFile hcancelled
  refine ⟨p, row, app, hrun, ⟨hrow, hopen, hfile, hst, hid ▸ hnone⟩,
    closed_file_refunded ⟨?_, ?_, ?_⟩ ⟨?_, ?_⟩ hrun hrow (.refl row) hopen href happ hfile
      (by simp [hst]) none⟩ <;> rintro _ ⟨⟩

/-- Payment 1 runs out, payment 2 is completed in its place, and the application is cancelled. -/
def cancelledAfterPaying : List (Step model Op) :=
  paidTwice ++ confirmCommands 2 71 ++ commands 2 16 ++ cancelCommands 3

/-- Without the condition payment 1 can be completed late and is not refunded. -/
theorem not_closed_file_refunded :
    ¬ ∀ (s₀ : World), Ledger s₀ → Integrity s₀ → ∀ p : Platform, Run prog anyStep (idle s₀) p →
      ∀ (pay row : Payment) (ref a : Id) (app : Application),
        p.db.payments.find? pay.id = some row → pay.SameFile row → row.status ≠ .COMPLETED →
        row.providerRef = some ref → pay.applicationId = some a →
        p.db.applications.find? a = some app → app.status ≠ .ACCEPTED ∧ app.status ≠ .ENROLLED →
        ∀ txId : Option String, RefundsIfCompleted p.db a row.id row.amount
          (transaction .readCommitted (settlePayment pay ref .COMPLETED txId)) := by
  intro h
  have h₀ : Ledger enrollableFile := by
    refine ⟨?_, ?_, ?_⟩ <;> rintro _ ⟨⟩
  have hi : Integrity enrollableFile := by
    refine ⟨?_, ?_⟩ <;> rintro _ ⟨⟩
  have hplay : ((idle enrollableFile : Platform).play prog anyStep cancelledAfterPaying).any
      (fun p => cancelledFile p.db = true ∧ ¬ NoOther p.db 1 1) = true := by
    decide +kernel
  obtain ⟨p, hrun, hbad⟩ := exists_run_of_play hplay
  obtain ⟨hcancelled, hother⟩ := of_decide_eq_true hbad
  obtain ⟨row, app, hrow, hopen, href, happ, hid, hfile, hst⟩ := of_cancelledFile hcancelled
  refine hother (hid ▸ (refundsIfCompleted_iff (ledger_holds h₀ hrun).db
    (integrity_holds h₀ hi hrun) hrow (.refl row) hopen href happ hfile
    (by simp [hst, ApplicationStatus.occupies]) none).1 ?_)
  exact h enrollableFile h₀ hi p hrun row row 70 1 app hrow (.refl row) hopen href happ hfile
    (by simp [hst]) none

end GetPlatform.Admission
