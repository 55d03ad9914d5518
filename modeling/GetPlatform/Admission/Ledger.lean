import GetPlatform.Admission.Settlement

set_option autoImplicit false

/-! # The ledger of payments

Whatever way the calls interleave, a payment is completed once: the conditional update claims it for
one delivery, the ledger row is written in the same transaction, and no other write reaches a
payment that is completed. The write that follows the call to the provider cannot, because until it
has run the payment has no provider reference, and a delivery finds a payment by its reference. -/

namespace GetPlatform.Admission

open Pool

/-- The ledger has a row for every completed payment and for no other. -/
structure Ledger (s : World) : Prop where
  booked : ∀ p ∈ s.payments, p.status = .COMPLETED →
    ∃ t, s.transactions.find? p.id = some t ∧ t.type = .PAYMENT ∧ t.amount = p.amount
  paid : ∀ t ∈ s.transactions, ∃ p, s.payments.find? t.paymentId = some p ∧ p.status = .COMPLETED
  referenced : ∀ p ∈ s.payments, p.status = .COMPLETED → p.providerRef ≠ none

/-- Nothing among `es` updated a payment by its identifier. -/
def Unstarted (es : List Ev) : Prop := ∀ e ∈ es, ∀ id data, e.stmt ≠ .paymentUpdate id data

/-- A delivery has each effect once at most, and none before it has completed its payment. -/
structure Confirms (l : Log) : Prop where
  once : l.op.delivers = true → ∀ k, l.events.countP (fun e => effect e.stmt = some k) ≤ 1
  confirmed : l.op.delivers = true → ∀ e ∈ l.events, ∀ k, effect e.stmt = some k →
    ∃ pay, Confirmed l.events pay
  concluded : l.op.delivers = true → ∀ e ∈ l.done, ∀ k, effect e.stmt = some k →
    ∃ pay, Confirmed l.done pay

/-- What a call knows of the payments it has created, found or completed. -/
structure Accounts (s : World) (l : Log) : Prop where
  stored : ∀ row, Created l.done row → ∃ r, s.payments.find? row.id = some r
  unstarted : ∀ row, Created l.done row → Unstarted l.done →
    ∀ r, s.payments.find? row.id = some r → r.providerRef = none
  found : ∀ ref pay, Found l.events ref pay →
    ∃ r, s.payments.find? pay.id = some r ∧ r.providerRef = some ref
  entered : ∀ row, Write.newTransaction row ∈ l.held model → ∃ ref pay data, Found l.done ref pay ∧
    data.status = .COMPLETED ∧ Claims l.pending pay.id data ∧ row.paymentId = pay.id ∧
    row.type = .PAYMENT ∧ row.amount = pay.amount
  completed : ∀ id data, Claims l.done id data → data.status = .COMPLETED →
    ∃ r, s.payments.find? id = some r ∧ r.status = .COMPLETED

/-- No two calls have created, or completed, the same payment. -/
structure Apart (l u : Log) : Prop where
  created : ∀ row row', Created l.events row → Created u.events row' → row.id ≠ row'.id
  completed : ∀ id data data', Claims l.done id data → Claims u.done id data' →
    data.status = .COMPLETED → data'.status ≠ .COMPLETED

/-! ## What writes do to provider references and to the ledger -/

/-- Writes that set no provider reference keep the one a payment has. -/
theorem applyAll_referenced {ws : List Write} {s : World} {id : Id} {r : Payment}
    {ref : Option Id} (hws : ∀ id data, Write.payment id data ∈ ws → data.providerRef = none)
    (h : s.payments.find? id = some r) (href : r.providerRef = ref) :
    ∃ r', (model.applyAll ws s).payments.find? id = some r' ∧ r'.providerRef = ref := by
  refine @Model.applyAll_keeps _ model
    (fun t => ∃ r', t.payments.find? id = some r' ∧ r'.providerRef = ref) ws
    (fun w hw t ht => ?_) s ⟨r, h, href⟩
  obtain ⟨r', hr', href'⟩ := ht
  cases w with
  | payment id' data =>
      by_cases hid : id = id'
      · subst hid
        refine ⟨data.set r', (Table.find?_modify_self _ _ _ data.key_set).trans (by rw [hr']; rfl), ?_⟩
        simpa [PaymentData.set, hws _ _ hw] using href'
      · exact ⟨r', (Table.find?_modify_ne _ _ data.key_set hid).trans hr', href'⟩
  | newPayment new => exact ⟨r', Table.find?_insert_of_find? hr', href'⟩
  | _ => exact ⟨r', hr', href'⟩

/-- A payment that writes create is stored after them. -/
theorem applyAll_created {ws : List Write} {row : Payment} (h : Write.newPayment row ∈ ws)
    (s : World) : ∃ r, (model.applyAll ws s).payments.find? row.id = some r := by
  obtain ⟨pre, suf, rfl⟩ := List.append_of_mem h
  rw [Model.applyAll_append, Model.applyAll_cons]
  obtain ⟨r, hr⟩ := Option.isSome_iff_exists.1
    (Table.contains_insert_self (model.applyAll pre s).payments row)
  obtain ⟨r', hr', -⟩ := applyAll_payment_file suf (s := World.apply (.newPayment row) (model.applyAll pre s)) hr
  exact ⟨r', hr'⟩

/-- A payment that writes create, and set no reference of, has none. -/
theorem applyAll_unreferenced {ws : List Write} {s : World} {id : Id}
    (hset : ∀ id data, Write.payment id data ∈ ws → data.providerRef = none)
    (hnew : ∀ row, Write.newPayment row ∈ ws → row.providerRef = none)
    (h : ∀ r, s.payments.find? id = some r → r.providerRef = none) {r : Payment}
    (hr : (model.applyAll ws s).payments.find? id = some r) : r.providerRef = none := by
  refine @Model.applyAll_keeps _ model
    (fun t => ∀ r, t.payments.find? id = some r → r.providerRef = none) ws
    (fun w hw t ht r hr => ?_) s h r hr
  cases w with
  | payment id' data =>
      have hr : (t.payments.modify id' data.set data.key_set).find? id = some r := hr
      rw [Table.find?_modify] at hr
      split at hr
      · next hid =>
          obtain ⟨r', hr', rfl⟩ := Option.map_eq_some_iff.1 hr
          simpa [PaymentData.set, hset _ _ hw] using ht r' (hid ▸ hr')
      · exact ht r hr
  | newPayment new =>
      have hr : (t.payments.insert new).find? id = some r := hr
      rcases Table.mem_of_mem_insert (Table.mem_of_find? hr) with hmem | rfl
      · exact ht r (Table.find?_eq_some.2 ⟨hmem, Table.key_of_find? hr⟩)
      · exact hnew _ hw
  | _ => exact ht r hr

/-- Rows of the ledger stay. -/
theorem applyAll_transaction {ws : List Write} {s : World} {id : Id} {t : Transaction}
    (h : s.transactions.find? id = some t) :
    (model.applyAll ws s).transactions.find? id = some t := by
  refine @Model.applyAll_keeps _ model (fun u => u.transactions.find? id = some t) ws
    (fun w _ u hu => ?_) s h
  cases w with
  | newTransaction row => exact Table.find?_insert_of_find? hu
  | _ => exact hu

/-- A row of the ledger after writes was there before, or is one of those they create. -/
theorem transaction_of_applyAll {ws : List Write} {s : World} {t : Transaction}
    (h : t ∈ (model.applyAll ws s).transactions) :
    t ∈ s.transactions ∨ Write.newTransaction t ∈ ws := by
  refine @Model.applyAll_keeps _ model
    (fun u => ∀ t ∈ u.transactions, t ∈ s.transactions ∨ Write.newTransaction t ∈ ws) ws
    (fun w hw u hu t ht => ?_) s (fun _ => .inl) t h
  cases w with
  | newTransaction row =>
      rcases Table.mem_of_mem_insert ht with ht | rfl
      · exact hu t ht
      · exact .inr hw
  | _ => exact hu t ht

/-- The ledger row that writes create is there after them. -/
theorem applyAll_entered {ws : List Write} {row : Transaction} (h : Write.newTransaction row ∈ ws)
    (s : World) : ∃ t, (model.applyAll ws s).transactions.find? row.paymentId = some t := by
  obtain ⟨pre, suf, rfl⟩ := List.append_of_mem h
  rw [Model.applyAll_append, Model.applyAll_cons]
  obtain ⟨t, ht⟩ := Option.isSome_iff_exists.1
    (Table.contains_insert_self (model.applyAll pre s).transactions row)
  exact ⟨t, applyAll_transaction (s := World.apply (.newTransaction row) (model.applyAll pre s)) ht⟩

/-! ## Effects -/

theorem Confirmed.mono {es es' : List Ev} {pay : Payment} (h : Confirmed es pay)
    (hsub : ∀ e ∈ es, e ∈ es') : Confirmed es' pay := by
  obtain ⟨ref, data, hfound, hst, hclaims⟩ := h
  exact ⟨ref, data, hfound.mono hsub, hst, hclaims.mono hsub⟩

theorem Confirms.push {l : Log} {q : Stmt} {a : Ans q} (h : Confirms l) (hguard : guards.stmt l q) :
    Confirms (l.push ⟨q, a⟩) := by
  have hsub : ∀ e ∈ l.events, e ∈ (l.push ⟨q, a⟩).events := fun e he => by
    rw [Trace.events_push]
    exact List.mem_append_left _ he
  have hconfirmed : l.op.delivers = true → ∀ e ∈ (l.push ⟨q, a⟩).events, ∀ k,
      effect e.stmt = some k → ∃ pay, Confirmed l.events pay := by
    intro hop e he k hk
    rw [Trace.events_push, List.mem_append, List.mem_singleton] at he
    rcases he with he | rfl
    · exact h.confirmed hop e he k hk
    · exact (hguard.1 k hk hop).1
  refine ⟨fun hop k => ?_, fun hop e he k hk => ?_, fun hop e he k hk => ?_⟩ <;>
    rw [Trace.push_op] at hop
  · rw [Trace.events_push, List.countP_append, List.countP_singleton]
    by_cases hk : effect q = some k
    · have hnone : l.events.countP (fun e => effect e.stmt = some k) = 0 :=
        List.countP_eq_zero.2 fun e he => by simpa using (hguard.1 k hk hop).2 e he
      rw [hnone]
      split <;> omega
    · rw [if_neg (by simpa using hk)]
      exact h.once hop k
  · obtain ⟨pay, hpay⟩ := hconfirmed hop e he k hk
    exact ⟨pay, hpay.mono hsub⟩
  · cases htx : l.tx with
    | none =>
        obtain ⟨pay, hpay⟩ := hconfirmed hop e (Trace.mem_events.2 (.inl he)) k hk
        refine ⟨pay, hpay.mono fun e he => ?_⟩
        rw [Trace.events, Trace.pending_of_none htx, List.append_nil] at he
        rw [Trace.push_of_none htx]
        exact List.mem_append_left _ he
    | some x =>
        have hdone : (l.push ⟨q, a⟩).done = l.done := by simp [Trace.push_of_some htx]
        rw [hdone] at he ⊢
        exact h.concluded hop e he k hk

theorem Confirms.drop {l : Log} (h : Confirms l) : Confirms l.drop := by
  have hevents : l.drop.events = l.done := by simp [Trace.events]
  refine ⟨fun hop k => ?_, fun hop => ?_, h.concluded⟩
  · rw [hevents]
    refine le_trans ?_ (h.once hop k)
    rw [Trace.events, List.countP_append]
    exact Nat.le_add_right _ _
  · rw [hevents]
    exact h.concluded hop

theorem Confirms.openTx {l : Log} (h : Confirms l) (htx : l.tx = none) (iso : Isolation) :
    Confirms (l.openTx iso) := by
  refine ⟨?_, ?_, h.concluded⟩ <;> rw [Trace.events_openTx htx]
  · exact h.once
  · exact h.confirmed

theorem Confirms.commit {l : Log} (h : Confirms l) : Confirms l.commit := by
  refine ⟨?_, ?_, h.confirmed⟩ <;> rw [Trace.events_commit]
  · exact h.once
  · exact h.confirmed

theorem confirms_start (o : Op) : Confirms (.start o) := by
  refine ⟨?_, ?_, ?_⟩ <;> simp [Trace.events]

/-- Every call of every run. -/
theorem confirms_rules : Rules (M := model) (ε := Err) (α := Reply) guards anyStep (fun _ => True)
    (fun _ => Confirms) (fun _ _ => True) where
  symm _ _ _ := trivial
  start _ o _ _ := confirms_start o
  start_pair _ _ _ _ _ := trivial
  env _ _ _ _ := ⟨trivial, fun _ h => h⟩
  drop _ _ h := h.drop
  drop_pair _ _ _ := trivial
  openTx _ _ iso htx h := h.openTx htx iso
  openTx_pair _ _ _ _ _ := trivial
  call p i c t q a h hcall _ :=
    ⟨trivial, (h.thread i t hcall.here).push hcall.guard, fun u hu => ⟨h.other hu, trivial⟩⟩
  callTx p i c t q a x h hcall _ :=
    ⟨(h.thread i t hcall.here).push hcall.guard, fun _ _ => trivial⟩
  commit p i c t x h hcommit :=
    ⟨trivial, (h.thread i t hcommit.here).commit, fun u hu => ⟨h.other hu, trivial⟩⟩

/-! ## Statements outside a transaction -/

/-- Outside a transaction, a call can update the payment it has created, once. -/
theorem call_payments {l : Log} {q : Stmt} (a : Ans q) (hguard : guards.stmt l q)
    (htx : l.tx = none) :
    (∀ s, (model.applyAll (writes q a) s).payments = s.payments) ∨
      ∃ row data, q = .paymentUpdate row.id data ∧ Created l.done row ∧ Unstarted l.done := by
  by_cases hq : ∃ id data, q = .paymentUpdate id data
  · obtain ⟨id, data, rfl⟩ := hq
    obtain ⟨-, ⟨row, hrow, rfl⟩, hfirst, -⟩ := hguard.2
    exact .inr ⟨row, data, rfl, hrow, hfirst⟩
  · refine .inl (payments_of_other a (fun id data heq => hq ⟨id, data, heq⟩) ?_ ?_ ?_)
    · rintro id now rfl
      obtain ⟨-, x, hx, -⟩ := hguard.2
      simp [htx] at hx
    · rintro data rfl
      obtain ⟨-, ⟨x, hx, -⟩, -⟩ := hguard.2
      simp [htx] at hx
    · rintro id data rfl
      obtain ⟨-, ⟨x, hx, -⟩, -⟩ := hguard.2
      simp [htx] at hx

theorem call_transactions {l : Log} {q : Stmt} (a : Ans q) (hguard : guards.stmt l q)
    (htx : l.tx = none) (s : World) :
    (model.applyAll (writes q a) s).transactions = s.transactions := by
  refine @Model.applyAll_keeps _ model (fun t => t.transactions = s.transactions) _
    (fun w hw t ht => ?_) s rfl
  cases w with
  | newTransaction row =>
      obtain ⟨rfl, -⟩ := Event.mk.inj (newTransaction_of_write (e := ⟨q, a⟩) hw)
      exact absurd htx hguard.2.1
  | _ => exact ht

/-- It reaches no payment that has a provider reference. -/
theorem Accounts.stays {s : World} {l : Log} {q : Stmt} {a : Ans q} (h : Accounts s l)
    (hguard : guards.stmt l q) (htx : l.tx = none) {id : Id} {r : Payment}
    (hr : s.payments.find? id = some r) (href : r.providerRef ≠ none) :
    (model.applyAll (writes q a) s).payments.find? id = some r := by
  rcases call_payments a hguard htx with hsame | ⟨row, data, rfl, hcreated, hfirst⟩
  · rwa [hsame]
  · refine (Table.find?_modify_ne _ _ data.key_set ?_).trans hr
    rintro rfl
    exact href (h.unstarted row hcreated hfirst r hr)

theorem Ledger.call {s : World} {l : Log} {q : Stmt} {a : Ans q} (h : Ledger s) (ha : Accounts s l)
    (hguard : guards.stmt l q) (htx : l.tx = none) : Ledger (model.applyAll (writes q a) s) := by
  have htransactions := call_transactions a hguard htx s
  refine ⟨fun p hp hst => ?_, fun t ht => ?_, fun p hp hst =>
    h.referenced p (completed_of_call hguard htx hp hst) hst⟩
  · rw [htransactions]
    exact h.booked p (completed_of_call hguard htx hp hst) hst
  · rw [htransactions] at ht
    obtain ⟨p, hp, hst⟩ := h.paid t ht
    exact ⟨p, ha.stays hguard htx hp (h.referenced p (Table.mem_of_find? hp) hst), hst⟩

/-! ## Commits -/

/-- A commit changes the provider reference of no payment. -/
theorem Accounts.same_ref {s : World} {l : Log} (h : Accounts s l) (hl : Settles s l) {id : Id}
    {r : Payment} (hr : s.payments.find? id = some r) :
    ∃ r', (l.view model s).payments.find? id = some r' ∧ r'.providerRef = r.providerRef := by
  cases hop : l.op.creates with
  | true => exact applyAll_referenced (fun id data hw => by rw [hl.swept hop id data hw]) hr rfl
  | false =>
      rcases hl.settled hop with hno | ⟨ref, pay, data, hc⟩
      · exact ⟨r, by rwa [Trace.view, hno.payments], rfl⟩
      · rw [Trace.view, hc.payments, Table.find?_modify]
        by_cases hid : id = pay.id
        · subst hid
          obtain ⟨r', hr', href⟩ := h.found ref pay (Trace.mem_events.2 (.inl hc.found))
          obtain rfl := Option.some.inj (hr.symm.trans hr')
          refine ⟨data.set r, by rw [if_pos rfl, hr]; rfl, ?_⟩
          simp [PaymentData.set, hc.providerRef, href]
        · exact ⟨r, by rwa [if_neg hid], rfl⟩

theorem Ledger.commit {s : World} {l : Log} (h : Ledger s) (ha : Accounts s l) (hl : Settles s l)
    (hguard : guards.commit l) : Ledger (l.view model s) := by
  refine ⟨fun p hp hst => ?_, fun t ht => ?_, fun p hp hst => ?_⟩
  · rcases hl.completed_of_view hp hst with hp | ⟨ref, pay, data, r, hc, hdata, hr, hsame, rfl⟩
    · obtain ⟨t, ht, htype, hamount⟩ := h.booked p hp hst
      exact ⟨t, applyAll_transaction ht, htype, hamount⟩
    · obtain ⟨ref', pay', hfound, ⟨row, hid, hrow⟩, -⟩ :=
        settlementCommit hguard hc.delivers ⟨pay.id, data, hc.claims, hdata⟩
      obtain ⟨-, rfl⟩ := hl.once _ _ _ _ (Trace.mem_events.2 (.inl hc.found))
        (Trace.mem_events.2 (.inl hfound))
      obtain ⟨t, ht⟩ := applyAll_entered
        (model.mem_writesOf.2 ⟨_, hrow, List.mem_singleton.2 rfl⟩) s
      have htid : t.paymentId = pay.id := (Table.key_of_find? ht).trans hid
      rcases transaction_of_applyAll (Table.mem_of_find? ht) with hold | hnew
      · -- The payment had no ledger row, since it was not completed.
        obtain ⟨r', hr', hst'⟩ := h.paid t hold
        exact absurd hst' (hl.held pay.id data r' (write_of_claims hc.claims) (htid ▸ hr'))
      · obtain ⟨ref', pay', data', hfound', -, -, -, htype, hamount⟩ := ha.entered t hnew
        obtain ⟨-, rfl⟩ := hl.once _ _ _ _ (Trace.mem_events.2 (.inl hc.found))
          (Trace.mem_events.2 (.inl hfound'))
        refine ⟨t, ?_, htype, hamount.trans hsame.amount.symm⟩
        rw [hid] at ht
        exact (congrArg _ hsame.id).trans ht
  · rcases transaction_of_applyAll ht with hold | hnew
    · obtain ⟨p, hp, hst⟩ := h.paid t hold
      exact ⟨p, hl.completed_view hp hst, hst⟩
    · obtain ⟨ref, pay, data, -, hdata, hclaims, hid, -⟩ := ha.entered t hnew
      obtain ⟨ref', pay', hc, hpay⟩ := hl.concluding hclaims hdata
      obtain ⟨r, -, -, hview⟩ := hl.concluded hc
      exact ⟨data.set r, by rw [hid, hpay]; exact hview, hdata⟩
  · rcases hl.completed_of_view hp hst with hp | ⟨ref, pay, data, r, hc, -, -, -, rfl⟩
    · exact h.referenced p hp hst
    · simp [PaymentData.set, hc.providerRef]

/-- The committing call itself. -/
theorem Accounts.commit {s : World} {l : Log} (h : Accounts s l) (hl : Settles s l) :
    Accounts (l.view model s) l.commit := by
  have hcreated : ∀ row, Created l.pending row → Write.newPayment row ∈ l.held model := by
    rintro row ⟨data, hmem⟩
    exact model.mem_writesOf.2 ⟨_, hmem, List.mem_singleton.2 rfl⟩
  have hsplit : ∀ row, Created l.commit.done row → Created l.done row ∨ Created l.pending row := by
    rintro row ⟨data, hmem⟩
    exact (List.mem_append.1 hmem).imp (⟨data, ·⟩) (⟨data, ·⟩)
  refine ⟨fun row hrow => ?_, fun row hrow hfirst r hr => ?_, fun ref pay hf => ?_, ?_,
    fun id data hclaims hst => ?_⟩
  · rcases hsplit row hrow with hrow | hrow
    · obtain ⟨r, hr⟩ := h.stored row hrow
      obtain ⟨r', hr', -⟩ := h.same_ref hl hr
      exact ⟨r', hr'⟩
    · exact applyAll_created (hcreated row hrow) s
  · rcases hsplit row hrow with hrow | hrow
    · obtain ⟨r₀, hr₀⟩ := h.stored row hrow
      obtain ⟨r', hr', href⟩ := h.same_ref hl hr₀
      obtain rfl := Option.some.inj (hr.symm.trans hr')
      exact href.trans (h.unstarted row hrow (fun e he => hfirst e (List.mem_append_left _ he))
        r₀ hr₀)
    · obtain ⟨hop, hnone, -⟩ := hl.fresh row (hcreated row hrow)
      refine applyAll_unreferenced (fun id data hw => ?_) (fun new hw => (hl.fresh new hw).2.2.2)
        (fun r hr => ?_) hr
      · rw [hl.swept hop id data hw]
      · exact absurd (hnone.symm.trans hr) (by simp)
  · rw [Trace.events_commit] at hf
    obtain ⟨r, hr, href⟩ := h.found ref pay hf
    obtain ⟨r', hr', hsame⟩ := h.same_ref hl hr
    exact ⟨r', hr', hsame.trans href⟩
  · simp [Trace.held, Model.writesOf]
  · obtain ⟨count, hne, hmem⟩ := hclaims
    rcases List.mem_append.1 hmem with hmem | hmem
    · obtain ⟨r, hr, hcompleted⟩ := h.completed id data ⟨count, hne, hmem⟩ hst
      exact ⟨r, hl.completed_view hr hcompleted, hcompleted⟩
    · obtain ⟨ref, pay, hc, rfl⟩ := hl.concluding ⟨count, hne, hmem⟩ hst
      obtain ⟨r, -, -, hview⟩ := hl.concluded hc
      exact ⟨data.set r, hview, hst⟩

/-- The other calls at a commit of `l`. -/
theorem Accounts.commit_other {s : World} {l u : Log} (hu : Accounts s u) (h : Accounts s l)
    (hl : Settles s l) : Accounts (l.view model s) u := by
  refine ⟨fun row hrow => ?_, fun row hrow hfirst r hr => ?_, fun ref pay hf => ?_, hu.entered,
    fun id data hclaims hst => ?_⟩
  · obtain ⟨r, hr⟩ := hu.stored row hrow
    obtain ⟨r', hr', -⟩ := h.same_ref hl hr
    exact ⟨r', hr'⟩
  · obtain ⟨r₀, hr₀⟩ := hu.stored row hrow
    obtain ⟨r', hr', href⟩ := h.same_ref hl hr₀
    obtain rfl := Option.some.inj (hr.symm.trans hr')
    exact href.trans (hu.unstarted row hrow hfirst r₀ hr₀)
  · obtain ⟨r, hr, href⟩ := hu.found ref pay hf
    obtain ⟨r', hr', hsame⟩ := h.same_ref hl hr
    exact ⟨r', hr', hsame.trans href⟩
  · obtain ⟨r, hr, hcompleted⟩ := hu.completed id data hclaims hst
    exact ⟨r, hl.completed_view hr hcompleted, hcompleted⟩

/-! ## One more statement -/

theorem created_push {l : Log} {q : Stmt} {a : Ans q} {es : List Ev} {row : Payment}
    (h : Created (es ++ [⟨q, a⟩]) row) (hguard : guards.stmt l q) :
    Created es row ∨ l.Exclusive ∧ ∃ data, (⟨.paymentCreate data, row⟩ : Ev) = ⟨q, a⟩ := by
  obtain ⟨data, hmem⟩ := h
  rw [List.mem_append, List.mem_singleton] at hmem
  rcases hmem with hmem | heq
  · exact .inl ⟨data, hmem⟩
  · obtain ⟨rfl, -⟩ := Event.mk.inj heq
    exact .inr ⟨hguard.2.2.1, data, heq⟩

/-- What a call has found is stored under the reference it was found by. -/
theorem Accounts.found_push {s : World} {l : Log} {q : Stmt} {a : Ans q} {c : Choice}
    (h : Accounts s l) (hguard : guards.stmt l q) (hexec : exec q c (l.view model s) = some a)
    {ref : Id} {pay : Payment} (hf : Found (l.push ⟨q, a⟩).events ref pay) :
    ∃ r, s.payments.find? pay.id = some r ∧ r.providerRef = some ref := by
  rcases Admission.found_push hguard hf with hf | ⟨hnil, -, heq⟩
  · exact h.found ref pay hf
  · obtain ⟨rfl, heq⟩ := Event.mk.inj heq
    obtain rfl := eq_of_heq heq
    rw [Trace.view, (List.append_eq_nil_iff.1 hnil).2] at hexec
    exact ⟨pay, found_of_exec c hexec⟩

/-- The call that sends a statement outside a transaction. -/
theorem Accounts.call {s : World} {l : Log} {q : Stmt} {a : Ans q} {c : Choice} (h : Accounts s l)
    (hI : Ledger s) (hguard : guards.stmt l q) (htx : l.tx = none)
    (hexec : exec q c (l.view model s) = some a) :
    Accounts (model.applyAll (writes q a) s) (l.push ⟨q, a⟩) := by
  have hdone : (l.push ⟨q, a⟩).done = l.done ++ [⟨q, a⟩] := by rw [Trace.push_of_none htx]
  have hcreated : ∀ row, Created (l.push ⟨q, a⟩).done row → Created l.done row := by
    intro row hrow
    rw [hdone] at hrow
    rcases created_push hrow hguard with hrow | ⟨⟨x, hx, -⟩, -⟩
    · exact hrow
    · simp [htx] at hx
  refine ⟨fun row hrow => ?_, fun row hrow hfirst r hr => ?_, fun ref pay hf => ?_, ?_,
    fun id data hclaims hst => ?_⟩
  · obtain ⟨r, hr⟩ := h.stored row (hcreated row hrow)
    obtain ⟨r', hr', -⟩ := applyAll_payment_file (writes q a) hr
    exact ⟨r', hr'⟩
  · rcases call_payments a hguard htx with hsame | ⟨row', data, rfl, -, -⟩
    · rw [hsame] at hr
      exact h.unstarted row (hcreated row hrow)
        (fun e he => hfirst e (hdone ▸ List.mem_append_left _ he)) r hr
    · exact absurd rfl (hfirst _ (hdone ▸ List.mem_append_right _ (.head _)) row'.id data)
  · obtain ⟨r, hr, href⟩ := h.found_push hguard hexec hf
    exact ⟨r, h.stays hguard htx hr (by simp [href]), href⟩
  · simp [Trace.held, Trace.push_of_none htx, Trace.pending, htx, Model.writesOf]
  · rw [hdone, claims_append, claims_singleton] at hclaims
    rcases hclaims with hclaims | ⟨_, -, heq⟩
    · obtain ⟨r, hr, hcompleted⟩ := h.completed id data hclaims hst
      exact ⟨r, h.stays hguard htx hr (hI.referenced r (Table.mem_of_find? hr) hcompleted),
        hcompleted⟩
    · obtain ⟨rfl, -⟩ := Event.mk.inj heq
      obtain ⟨-, ⟨x, hx, -⟩, -⟩ := hguard.2
      simp [htx] at hx

/-- The other calls when `l` sends a statement outside a transaction. -/
theorem Accounts.call_other {s : World} {l u : Log} {q : Stmt} {a : Ans q} (hu : Accounts s u)
    (h : Accounts s l) (hI : Ledger s) (hapart : Apart l u) (hguard : guards.stmt l q)
    (htx : l.tx = none) : Accounts (model.applyAll (writes q a) s) u := by
  refine ⟨fun row hrow => ?_, fun row hrow hfirst r hr => ?_, fun ref pay hf => ?_, hu.entered,
    fun id data hclaims hst => ?_⟩
  · obtain ⟨r, hr⟩ := hu.stored row hrow
    obtain ⟨r', hr', -⟩ := applyAll_payment_file (writes q a) hr
    exact ⟨r', hr'⟩
  · rcases call_payments a hguard htx with hsame | ⟨row', data, rfl, hcreated, -⟩
    · exact hu.unstarted row hrow hfirst r (hsame s ▸ hr)
    · have hne : row.id ≠ row'.id := Ne.symm <| hapart.created row' row
        (hcreated.imp fun _ => List.mem_append_left _) (hrow.imp fun _ => List.mem_append_left _)
      exact hu.unstarted row hrow hfirst r
        ((Table.find?_modify_ne _ _ data.key_set hne).symm.trans hr)
  · obtain ⟨r, hr, href⟩ := hu.found ref pay hf
    exact ⟨r, h.stays hguard htx hr (by simp [href]), href⟩
  · obtain ⟨r, hr, hcompleted⟩ := hu.completed id data hclaims hst
    exact ⟨r, h.stays hguard htx hr (hI.referenced r (Table.mem_of_find? hr) hcompleted),
      hcompleted⟩

/-- The call that sends a statement inside its transaction. -/
theorem Accounts.callTx {s : World} {l : Log} {x : Tx interface} {q : Stmt} {a : Ans q} {c : Choice}
    (h : Accounts s l) (hguard : guards.stmt l q) (htx : l.tx = some x)
    (hexec : exec q c (l.view model s) = some a) : Accounts s (l.push ⟨q, a⟩) := by
  have hdone : (l.push ⟨q, a⟩).done = l.done := by simp [Trace.push_of_some htx]
  have hpending : (l.push ⟨q, a⟩).pending = l.pending ++ [⟨q, a⟩] := by
    simp [Trace.push_of_some htx, Trace.pending, htx]
  refine ⟨hdone ▸ h.stored, hdone ▸ h.unstarted, fun ref pay hf => h.found_push hguard hexec hf,
    fun row hw => ?_, hdone ▸ h.completed⟩
  rw [hdone, hpending]
  rw [Trace.held, hpending, Model.mem_writesOf] at hw
  obtain ⟨e, he, hw⟩ := hw
  rw [List.mem_append, List.mem_singleton] at he
  have hmono : ∀ {id data}, Claims l.pending id data → Claims (l.pending ++ [⟨q, a⟩]) id data :=
    fun hc => claims_append.2 (.inl hc)
  rcases he with he | rfl
  · obtain ⟨ref, pay, data, hf, hst, hclaims, hrest⟩ :=
      h.entered row (model.mem_writesOf.2 ⟨e, he, hw⟩)
    exact ⟨ref, pay, data, hf, hst, hmono hclaims, hrest⟩
  · obtain ⟨rfl, -⟩ := Event.mk.inj (newTransaction_of_write (e := ⟨q, a⟩) hw)
    obtain ⟨-, ref, pay, data, hf, hst, hclaims, hrest⟩ := hguard.2
    exact ⟨ref, pay, data, hf, hst, hmono hclaims, hrest⟩

/-- A payment that is created has an identifier no other call has created one with. -/
theorem Apart.push {s : World} {l u : Log} {q : Stmt} {a : Ans q} {c : Choice} (h : Apart l u)
    (hu : Accounts s u) (hguard : guards.stmt l q) (hexec : exec q c (l.view model s) = some a)
    (hfree : u.Free model (writes q a)) : Apart (l.push ⟨q, a⟩) u := by
  refine ⟨fun row row' hrow hrow' => ?_, fun id data data' hclaims => ?_⟩
  · rw [Trace.events_push] at hrow
    rcases created_push hrow hguard with hrow | ⟨-, data, heq⟩
    · exact h.created row row' hrow hrow'
    · obtain ⟨rfl, heq⟩ := Event.mk.inj heq
      obtain rfl := eq_of_heq heq
      intro hid
      obtain ⟨data', hmem⟩ := hrow'
      rcases List.mem_append.1 hmem with hmem | hmem
      · obtain ⟨r, hr⟩ := hu.stored row' ⟨data', hmem⟩
        obtain ⟨r', hr', -⟩ := applyAll_payment_file (l.held model) hr
        rw [← hid] at hr'
        exact absurd ((created_of_exec hexec).2.symm.trans hr') (by simp)
      · exact hfree.of_mem (w := .newPayment row) (v := .newPayment row') (.head _) hmem (.head _)
          rfl (congrArg (fun i => some (Key.payment i)) hid.symm)
  · cases htx : l.tx with
    | none =>
        rw [Trace.push_of_none htx] at hclaims
        rcases claims_append.1 hclaims with hclaims | hclaims
        · exact h.completed id data data' hclaims
        · obtain ⟨_, -, heq⟩ := claims_singleton.1 hclaims
          obtain ⟨rfl, -⟩ := Event.mk.inj heq
          obtain ⟨-, ⟨x, hx, -⟩, -⟩ := hguard.2
          simp [htx] at hx
    | some x =>
        rw [Trace.push_of_some htx] at hclaims
        exact h.completed id data data' hclaims

/-- The payment a commit completes was completed by no other call. -/
theorem Apart.commit {s : World} {l u : Log} (h : Apart l u) (hl : Settles s l)
    (hu : Accounts s u) : Apart l.commit u := by
  refine ⟨fun row row' hrow => ?_, fun id data data' hclaims hclaims' hst hst' => ?_⟩
  · rw [Trace.events_commit] at hrow
    exact h.created row row' hrow
  · obtain ⟨count, hne, hmem⟩ := hclaims
    rcases List.mem_append.1 hmem with hmem | hmem
    · exact h.completed id data data' ⟨count, hne, hmem⟩ hclaims' hst hst'
    · obtain ⟨r, hr, hcompleted⟩ := hu.completed id data' hclaims' hst'
      exact hl.held id data r (write_of_claims ⟨count, hne, hmem⟩) hr hcompleted

/-! ## Every run -/

theorem Apart.symm {l u : Log} (h : Apart l u) : Apart u l :=
  ⟨fun row row' hrow hrow' => (h.created row' row hrow' hrow).symm,
    fun id data data' hc hc' hst hst' => h.completed id data' data hc' hc hst' hst⟩

/-- A call without an open transaction that has seen no more than `l` has. -/
theorem Accounts.outside {s : World} {l l' : Log} (h : Accounts s l) (hdone : l'.done = l.done)
    (hnil : l'.pending = []) (hsub : ∀ e ∈ l'.events, e ∈ l.events) : Accounts s l' :=
  ⟨hdone ▸ h.stored, hdone ▸ h.unstarted, fun ref pay hf => h.found ref pay (hsub _ hf),
    by simp [Trace.held, hnil, Model.writesOf], hdone ▸ h.completed⟩

theorem Apart.outside {l l' u : Log} (h : Apart l u) (hdone : l'.done = l.done)
    (hsub : ∀ e ∈ l'.events, e ∈ l.events) : Apart l' u :=
  ⟨fun row row' hrow => h.created row row' (hrow.imp fun _ => hsub _), hdone ▸ h.completed⟩

/-- The calls know what they hold of the payments. -/
def settled (p : Platform) (_ : Step model Op) : Prop :=
  Holds (fun _ => True) Settles (fun _ _ => True) p

theorem ledger_rules : Rules (ε := Err) (α := Reply) guards settled Ledger Accounts Apart where
  symm _ _ h := h.symm
  start _ _ _ _ := by
    refine ⟨?_, ?_, ?_, ?_, ?_⟩ <;>
      simp [Created, Found, Claims, Trace.events, Trace.held, Model.writesOf]
  start_pair _ _ _ _ _ := by
    refine ⟨?_, ?_⟩ <;> simp [Created, Claims, Trace.events]
  env _ _ _ h := ⟨⟨h.booked, h.paid, h.referenced⟩, fun _ hl =>
    ⟨hl.stored, hl.unstarted, hl.found, hl.entered, hl.completed⟩⟩
  drop _ _ h := h.outside rfl rfl fun _ => Trace.mem_events_of_drop
  drop_pair _ _ h := h.outside rfl fun _ => Trace.mem_events_of_drop
  openTx _ l iso htx h := h.outside rfl rfl fun e he => by rwa [Trace.events_openTx htx] at he
  openTx_pair l _ iso htx h := h.outside rfl fun e he => by rwa [Trace.events_openTx htx] at he
  call p i c t q a h hcall htx := by
    have ha := h.thread i t hcall.here
    refine ⟨h.db.call ha hcall.guard htx, ha.call h.db hcall.guard htx hcall.exec, fun u hu =>
      ⟨(h.other hu).call_other ha h.db (h.other_pair hcall.here hu) hcall.guard htx, ?_⟩⟩
    exact (h.other_pair hcall.here hu).push (h.other hu) hcall.guard hcall.exec (hcall.free u hu)
  callTx p i c t q a x h hcall htx :=
    ⟨(h.thread i t hcall.here).callTx hcall.guard htx hcall.exec, fun u hu =>
      (h.other_pair hcall.here hu).push (h.other hu) hcall.guard hcall.exec (hcall.free u hu)⟩
  commit p i c t x h hcommit := by
    have hl := hcommit.allowed.thread i t hcommit.here
    have ha := h.thread i t hcommit.here
    exact ⟨h.db.commit ha hl hcommit.guard, ha.commit hl, fun u hu =>
      ⟨(h.other hu).commit_other ha hl, (h.other_pair hcommit.here hu).commit hl (h.other hu)⟩⟩

theorem ledger_holds {s₀ : World} (h₀ : Ledger s₀) {p : Platform}
    (hrun : Run prog anyStep (idle s₀) p) : Holds Ledger Accounts Apart p :=
  (ledger_rules.holds (fun _ o _ => prog_conforms o) h₀
    ((hrun.along fun _ hr => (settles hr).2).mono fun _ _ h => h.2)).2

/-- A completed payment is not changed by any step. -/
theorem completed_of_changes {p : Platform} {s' : model.State} (h : Holds Ledger Accounts Apart p)
    (hl : Holds (fun _ => True) Settles (fun _ _ => True) p)
    (hc : Changes guards anyStep p s') {id : Id} {pay : Payment}
    (hpay : p.db.payments.find? id = some pay) (hst : pay.status = .COMPLETED) :
    s'.payments.find? id = some pay := by
  cases hc with
  | none => exact hpay
  | env e => exact hpay
  | @call i c t q a hcall htx =>
      exact (h.thread i t hcall.here).stays hcall.guard htx hpay
        (h.db.referenced pay (Table.mem_of_find? hpay) hst)
  | @commit i c t x hcommit => exact (hl.thread i t hcommit.here).completed_view hpay hst

theorem completed_of_run {s₀ : World} (h₀ : Ledger s₀) {p p' : Platform}
    (hrun : Run prog anyStep (idle s₀) p) (hrun' : Run prog anyStep p p') {id : Id} {pay : Payment}
    (hpay : p.db.payments.find? id = some pay) (hst : pay.status = .COMPLETED) :
    p'.db.payments.find? id = some pay := by
  induction hrun' with
  | refl => exact hpay
  | step hr hR hs ih =>
      have hreach := hrun.trans hr
      obtain ⟨hsound, hl⟩ := settles hreach
      exact completed_of_changes (ledger_holds h₀ hreach) hl (hsound.changes hR hs) ih hst

/-! ## Effects -/

/-- Does the event look up payment `id` for a delivery? -/
def finds (id : Id) : Ev → Bool
  | ⟨.paymentFindFirstByRef _, some pay⟩ => pay.id = id
  | _ => false

/-- How many times the call, if it is a delivery for payment `id`, has had effect `k`. -/
def effectsOf (id : Id) (k : Effect) (l : Log) : Nat :=
  if l.done.any (finds id) then l.done.countP (fun e => effect e.stmt = some k) else 0

/-- How many times the confirmation of payment `id` has had effect `k`. -/
def effectsOn (p : Platform) (id : Id) (k : Effect) : Nat :=
  (p.threads.map fun t => effectsOf id k t.trace).sum

theorem found_of_finds {es : List Ev} {id : Id} (h : es.any (finds id) = true) :
    ∃ ref pay, Found es ref pay ∧ pay.id = id := by
  obtain ⟨e, he, hfinds⟩ := List.any_eq_true.1 h
  unfold finds at hfinds
  split at hfinds
  · next ref pay => exact ⟨ref, pay, he, of_decide_eq_true hfinds⟩
  · cases hfinds

/-- A delivery that has had an effect has completed its payment. -/
theorem completed_of_effect {s : World} {l : Log} (hl : Settles s l) (hc : Confirms l) {id : Id}
    {k : Effect} (h : effectsOf id k l ≠ 0) :
    effectsOf id k l ≤ 1 ∧ ∃ data, Claims l.done id data ∧ data.status = .COMPLETED := by
  unfold effectsOf at h ⊢
  split at h
  · next hfinds =>
      rw [if_pos hfinds]
      obtain ⟨ref, pay, hfound, rfl⟩ := found_of_finds hfinds
      have hfound' : Found l.events ref pay := Trace.mem_events.2 (.inl hfound)
      have hop := hl.delivers ref pay hfound'
      obtain ⟨e, he, hk⟩ := List.countP_pos_iff.1 (Nat.pos_of_ne_zero h)
      obtain ⟨pay', ref', data, hfound'', hst, hclaims⟩ :=
        hc.concluded hop e he k (of_decide_eq_true hk)
      obtain ⟨-, rfl⟩ := hl.once _ _ _ _ hfound' (Trace.mem_events.2 (.inl hfound''))
      refine ⟨le_trans ?_ (hc.once hop k), data, hclaims, hst⟩
      rw [Trace.events, List.countP_append]
      exact Nat.le_add_right _ _
  · exact absurd rfl h

theorem effectsOn_le_one {s₀ : World} (h₀ : Ledger s₀) {p : Platform}
    (hrun : Run prog anyStep (idle s₀) p) (id : Id) (k : Effect) : effectsOn p id k ≤ 1 := by
  have hl := (settles hrun).2
  have hc := (confirms_rules.holds (fun _ o _ => prog_conforms o) trivial hrun).2
  have hledger := ledger_holds h₀ hrun
  refine sum_threads_le_one _ (fun i t ht => ?_) fun i j t u hne ht hu => ?_
  · by_cases h0 : effectsOf id k t.trace = 0
    · omega
    · exact (completed_of_effect (hl.thread i t ht) (hc.thread i t ht) h0).1
  · by_contra hboth
    obtain ⟨h₁, h₂⟩ := not_or.1 hboth
    obtain ⟨-, data, hclaims, hst⟩ := completed_of_effect (hl.thread i t ht) (hc.thread i t ht) h₁
    obtain ⟨-, data', hclaims', hst'⟩ := completed_of_effect (hl.thread j u hu) (hc.thread j u hu) h₂
    exact (hledger.pair i j t u hne ht hu).completed id data data' hclaims hclaims' hst hst'

/-! ## Exactly once -/

/-- A payment is completed if and only if the ledger has exactly one row of type PAYMENT for it,
    and that row has its amount. -/
def Booked (s : World) : Prop :=
  ∀ pay ∈ s.payments, pay.status = .COMPLETED ↔
    ∃ t, (∀ u, u ∈ s.transactions ∧ u.paymentId = pay.id ∧ u.type = .PAYMENT ↔ u = t) ∧
      t.amount = pay.amount

theorem Ledger.exactly {s : World} (h : Ledger s) : Booked s := by
  intro pay hpay
  constructor
  · intro hst
    obtain ⟨t, ht, htype, hamount⟩ := h.booked pay hpay hst
    obtain ⟨hmem, hkey⟩ := Table.find?_eq_some.1 ht
    refine ⟨t, fun u => ⟨fun hu => ?_, ?_⟩, hamount⟩
    · exact Table.eq_of_key_eq hu.1 hmem (hu.2.1.trans hkey.symm)
    · rintro rfl
      exact ⟨hmem, hkey, htype⟩
  · rintro ⟨t, hunique, -⟩
    obtain ⟨hmem, hid, -⟩ := (hunique t).2 rfl
    obtain ⟨p, hp, hst⟩ := h.paid t hmem
    rw [hid] at hp
    obtain rfl := Option.some.inj (hp.symm.trans (Table.find?_key hpay))
    exact hst

/-- **The ledger is exactly-once.** In every run from a state with a correct ledger: the ledger has
    exactly one row for each completed payment and none for another, a completed payment is never
    changed again, and its confirmation has each of its effects at most once. -/
theorem ledger_exactly_once {s₀ : World} (h₀ : Ledger s₀) {p : Platform}
    (hrun : Run prog anyStep (idle s₀) p) :
    Booked p.db ∧
    (∀ p', Run prog anyStep p p' → ∀ id pay, p.db.payments.find? id = some pay →
      pay.status = .COMPLETED → p'.db.payments.find? id = some pay) ∧
    ∀ id k, effectsOn p id k ≤ 1 :=
  ⟨(ledger_holds h₀ hrun).db.exactly, fun _ hrun' _ _ => completed_of_run h₀ hrun hrun',
    effectsOn_le_one h₀ hrun⟩

/-- Payment 1 is being processed under reference 70, and two deliveries for it arrive at once. The
    second waits for the first, and finds the payment completed. -/
def deliveredTwice : List (Step model Op) :=
  createCommands 0 1 ++ startCommands 0 70 ++ confirmCommands 1 70 ++ confirmCommands 2 70 ++
    commands 1 3 ++ commands 2 2 ++ commands 1 13 ++ commands 2 3

/-- The applicant is enrolled once. -/
theorem ledger_exactly_once_deliveredTwice :
    ∃ p : Platform, Run prog anyStep (idle enrollableFile) p ∧
      ((p.db.payments.find? 1).any (·.status = .COMPLETED) = true ∧
        effectsOn p 1 .enrollment = 1) ∧
      Booked p.db ∧
      (∀ p', Run prog anyStep p p' → ∀ id pay, p.db.payments.find? id = some pay →
        pay.status = .COMPLETED → p'.db.payments.find? id = some pay) ∧
      ∀ id k, effectsOn p id k ≤ 1 := by
  have hplay : ((idle enrollableFile : Platform).play prog anyStep deliveredTwice).any (fun p =>
      (p.db.payments.find? 1).any (·.status = .COMPLETED) = true ∧
        effectsOn p 1 .enrollment = 1) = true := by
    decide +kernel
  obtain ⟨p, hrun, hone⟩ := exists_run_of_play hplay
  refine ⟨p, hrun, of_decide_eq_true hone, ledger_exactly_once ⟨?_, ?_, ?_⟩ hrun⟩ <;> rintro _ ⟨⟩

end GetPlatform.Admission
