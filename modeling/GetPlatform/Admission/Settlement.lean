import GetPlatform.Admission.Frames

set_option autoImplicit false

/-! # What an open transaction holds of the payments

A transaction that updates a payment has found it not completed, and nobody else can complete it
before the transaction ends: its row is locked. A delivery updates one payment at most, the one it
looked up. These facts hold of every call in every run; the invariants of the ledger rest on them. -/

namespace GetPlatform.Admission

open Pool

/-! ## What the conditional updates find -/

theorem live_of_swept {applicationId : Id} {now : Nat} {c : Choice} {s : World} {ids : List Id}
    (h : exec (.paymentUpdateManyExpired applicationId now) c s = some ids) {id : Id}
    (hid : id ∈ ids) : ∃ row, s.payments.find? id = some row ∧ row.status.live = true := by
  simp only [exec, Option.some.injEq] at h
  subst h
  obtain ⟨row, hrow, rfl⟩ := List.mem_map.1 hid
  simp only [World.expired, List.mem_filter, decide_eq_true_eq] at hrow
  exact ⟨row, Table.find?_key hrow.1, hrow.2.2.1⟩

theorem open_of_claimed {id : Id} {data : PaymentData} (c : Choice) {s : World} {count : Nat}
    (h : exec (.paymentUpdateManyNotCompleted id data) c s = some count) (hne : count ≠ 0) :
    ∃ row, s.payments.find? id = some row ∧ row.status ≠ .COMPLETED := by
  simp only [exec] at h
  split at h
  · exact absurd (Option.some.inj h).symm hne
  · next row hrow =>
      split at h
      · exact absurd (Option.some.inj h).symm hne
      · next hst => exact ⟨row, hrow, hst⟩

theorem found_of_exec {ref : Id} (c : Choice) {s : World} {pay : Payment}
    (h : exec (.paymentFindFirstByRef ref) c s = some (some pay)) :
    s.payments.find? pay.id = some pay ∧ pay.providerRef = some ref := by
  simp only [exec, Option.some.injEq] at h
  exact ⟨Table.find?_key (List.mem_of_find?_eq_some h), by simpa using List.find?_some h⟩

theorem created_of_exec {data : PaymentCreate} {c : Choice} {s : World} {row : Payment}
    (h : exec (.paymentCreate data) c s = some row) :
    row = data.row row.id ∧ s.payments.find? row.id = none := by
  cases c <;> simp only [exec, reduceCtorEq] at h
  split at h
  · cases h
  · next hno =>
      obtain rfl := Option.some.inj h
      refine ⟨rfl, Table.find?_eq_none.2 fun p hp he => hno (List.any_eq_true.2 ⟨p, hp, ?_⟩)⟩
      exact decide_eq_true (.inl he)

/-! ## Deliveries -/

/-- The open transaction of `l` has left the payments alone. -/
structure Untouched (l : Log) : Prop where
  claims : ∀ id data, ¬ Claims l.pending id data
  payments : ∀ s, (model.replay l.pending s).payments = s.payments

/-- The open transaction of `l` has updated payment `pay`, which the call found by `ref`, and no
    other. -/
structure Concluding (l : Log) (ref : Id) (pay : Payment) (data : PaymentData) : Prop where
  delivers : l.op.delivers = true
  found : Found l.done ref pay
  claims : Claims l.pending pay.id data
  providerRef : data.providerRef = some ref
  status : data.status = .COMPLETED ∨ data.status = .FAILED
  only : ∀ id data', Claims l.pending id data' → id = pay.id ∧ data' = data
  payments : ∀ s, (model.replay l.pending s).payments =
    s.payments.modify pay.id data.set data.key_set

theorem untouched_of_nil {l : Log} (h : l.pending = []) : Untouched l :=
  ⟨by simp [h, Claims], by simp [h]⟩

theorem claims_append {es : List Ev} {e : Ev} {id : Id} {data : PaymentData} :
    Claims (es ++ [e]) id data ↔ Claims es id data ∨ Claims [e] id data := by
  simp only [Claims, List.mem_append, and_or_left, exists_or]

theorem claims_singleton {q : Stmt} {a : Ans q} {id : Id} {data : PaymentData} :
    Claims [⟨q, a⟩] id data ↔
      ∃ count : Nat, count ≠ 0 ∧ (⟨.paymentUpdateManyNotCompleted id data, count⟩ : Ev) = ⟨q, a⟩ := by
  simp [Claims]

theorem write_of_claims {l : Log} {id : Id} {data : PaymentData} (h : Claims l.pending id data) :
    Write.payment id data ∈ l.held model := by
  obtain ⟨count, hne, hmem⟩ := h
  refine model.mem_writesOf.2 ⟨_, hmem, ?_⟩
  simp [writes, hne]

theorem not_creates {o : Op} (h : o.delivers = true) : o.creates = false := by
  cases o <;> first | rfl | cases h

/-! ## The invariant -/

/-- What a call knows of the payments it has found or created, and what its open transaction holds
    of them. -/
structure Settles (s : World) (l : Log) : Prop where
  delivers : ∀ ref pay, Found l.events ref pay → l.op.delivers = true
  once : ∀ ref pay ref' pay', Found l.events ref pay → Found l.events ref' pay' →
    ref = ref' ∧ pay = pay'
  file : ∀ ref pay, Found l.events ref pay →
    ∃ row, s.payments.find? pay.id = some row ∧ pay.SameFile row
  /-- A payment that is updated is not completed. -/
  held : ∀ id data row, Write.payment id data ∈ l.held model → s.payments.find? id = some row →
    row.status ≠ .COMPLETED
  settled : l.op.creates = false → Untouched l ∨ ∃ ref pay data, Concluding l ref pay data
  swept : l.op.creates = true → ∀ id data, Write.payment id data ∈ l.held model →
    data = { status := .EXPIRED }
  fresh : ∀ row, Write.newPayment row ∈ l.held model → l.op.creates = true ∧
    s.payments.find? row.id = none ∧ row.status = .PENDING ∧ row.providerRef = none
  refunded : ∀ row, Write.newRefund row ∈ l.held model →
    ∃ data, data.status = .COMPLETED ∧ Claims l.pending row.paymentId data

/-- A call without an open transaction that has seen no more than `l` has. -/
theorem Settles.outside {s : World} {l u : Log} (h : Settles s l) (hop : u.op = l.op)
    (hnil : u.pending = []) (hsub : ∀ e ∈ u.events, e ∈ l.events) : Settles s u := by
  refine ⟨fun _ _ hf => hop ▸ h.delivers _ _ (hsub _ hf), fun _ _ _ _ h₁ h₂ => h.once _ _ _ _ (hsub _ h₁) (hsub _ h₂),
    fun _ _ hf => h.file _ _ (hsub _ hf), ?_, fun _ => .inl (untouched_of_nil hnil), ?_, ?_, ?_⟩ <;>
    simp [Trace.held, hnil, Model.writesOf]

theorem settles_start (s : World) (o : Op) : Settles s (.start o) := by
  refine ⟨?_, ?_, ?_, ?_, fun _ => .inl (untouched_of_nil rfl), ?_, ?_, ?_⟩ <;>
    simp [Found, Trace.events, Trace.held, Model.writesOf]

/-- A completed payment looks the same from inside every open transaction. -/
theorem Settles.completed_view {s : World} {l : Log} (h : Settles s l) {id : Id} {row : Payment}
    (hrow : s.payments.find? id = some row) (hst : row.status = .COMPLETED) :
    (l.view model s).payments.find? id = some row :=
  applyAll_find_unset hrow fun data hw => h.held id data row hw hrow hst

/-- Writes that touch nothing the open transaction has locked. -/
theorem Settles.applyAll {s : World} {l : Log} {ws : List Write} (h : Settles s l)
    (hfree : l.Free model ws) : Settles (model.applyAll ws s) l := by
  have hlocked : ∀ v ∈ l.held model, ∀ id, v.key = some (.payment id) →
      (model.applyAll ws s).payments.find? id = s.payments.find? id := fun v hv id hk =>
    applyAll_find_payment (fun w hw he => hfree w hw v hv _ he hk) s
  refine ⟨h.delivers, h.once, fun ref pay hf => ?_, fun id data row hw hrow => ?_, h.settled, h.swept,
    fun row hw => ?_, h.refunded⟩
  · obtain ⟨row, hrow, hsame⟩ := h.file ref pay hf
    obtain ⟨row', hrow', hsame'⟩ := applyAll_payment_file ws hrow
    exact ⟨row', hrow', hsame.trans hsame'⟩
  · exact h.held id data row hw (hlocked _ hw id rfl ▸ hrow)
  · obtain ⟨hop, hnone, hrest⟩ := h.fresh row hw
    exact ⟨hop, (hlocked _ hw row.id rfl).trans hnone, hrest⟩

theorem found_push {l : Log} {q : Stmt} {a : Ans q} (hguard : guards.stmt l q) {ref : Id}
    {pay : Payment} (h : Found (l.push ⟨q, a⟩).events ref pay) :
    Found l.events ref pay ∨
      l.events = [] ∧ l.op.delivers = true ∧ (⟨.paymentFindFirstByRef ref, some pay⟩ : Ev) = ⟨q, a⟩ := by
  rw [Found, Trace.events_push, List.mem_append, List.mem_singleton] at h
  rcases h with h | heq
  · exact .inl h
  · obtain ⟨rfl, -⟩ := Event.mk.inj heq
    exact .inr ⟨hguard.2.2, hguard.2.1, heq⟩

/-- Reading the clock writes nothing. -/
theorem replay_of_now {es : List Ev} (h : ∀ e ∈ es, e.stmt = .now) (s : World) :
    model.replay es s = s := by
  have hnil : model.writesOf es = [] := by
    refine List.flatMap_eq_nil_iff.2 fun e he => ?_
    obtain ⟨q, a⟩ := e
    obtain rfl : q = .now := h _ he
    rfl
  rw [Model.replay, hnil]
  rfl

/-- A statement of another kind than the four that write payments leaves the payments alone. -/
theorem payments_of_other {q : Stmt} (a : Ans q) (h₁ : ∀ id data, q ≠ .paymentUpdate id data)
    (h₂ : ∀ id now, q ≠ .paymentUpdateManyExpired id now) (h₃ : ∀ data, q ≠ .paymentCreate data)
    (h₄ : ∀ id data, q ≠ .paymentUpdateManyNotCompleted id data) (s : World) :
    (model.applyAll (writes q a) s).payments = s.payments := by
  refine applyAll_payments_same (fun id data hw => ?_) (fun row hw => ?_) s
  · rcases payment_of_write (e := ⟨q, a⟩) hw with hq | ⟨_, _, hq, -⟩ | ⟨_, -, heq⟩
    · exact h₁ _ _ hq
    · exact h₂ _ _ hq
    · exact h₄ _ _ (Event.mk.inj heq).1
  · obtain ⟨data, heq⟩ := newPayment_of_write (e := ⟨q, a⟩) hw
    exact h₃ _ (Event.mk.inj heq).1

/-- One more statement of a delivery's open transaction. -/
theorem settled_push {l : Log} {x : Tx interface} {q : Stmt} {a : Ans q} (htx : l.tx = some x)
    (hop : l.op.creates = false)
    (h : Untouched l ∨ ∃ ref pay data, Concluding l ref pay data) (hguard : guards.stmt l q) :
    Untouched (l.push ⟨q, a⟩) ∨ ∃ ref pay data, Concluding (l.push ⟨q, a⟩) ref pay data := by
  have hpending : (l.push ⟨q, a⟩).pending = l.pending ++ [⟨q, a⟩] := by
    simp [Trace.push_of_some htx, Trace.pending, htx]
  have hdone : (l.push ⟨q, a⟩).done = l.done := by simp [Trace.push_of_some htx]
  by_cases hq : ∃ id data, q = .paymentUpdateManyNotCompleted id data
  · obtain ⟨id, data, rfl⟩ := hq
    obtain ⟨hdelivers, ⟨y, hy, hnow⟩, ⟨ref, pay, hfound, rfl, href⟩, hstatus⟩ := hguard.2
    -- The claim is the first statement of its transaction that writes anything.
    have hfirst : ∀ e ∈ l.pending, e.stmt = .now := by
      rwa [Trace.pending_of_some hy]
    have hnone : ∀ id data, ¬ Claims l.pending id data := by
      rintro id data ⟨count, -, hmem⟩
      cases hfirst _ hmem
    have hsame : ∀ s, model.replay l.pending s = s := replay_of_now hfirst
    by_cases hcount : (a : Nat) = 0
    · refine .inl ⟨fun id' data' hc => ?_, fun s => ?_⟩
      · rw [hpending, claims_append, claims_singleton] at hc
        rcases hc with hc | ⟨count, hne, heq⟩
        · exact hnone _ _ hc
        · obtain ⟨-, heq⟩ := Event.mk.inj heq
          exact hne ((eq_of_heq heq).trans hcount)
      · rw [hpending, Model.replay_append, hsame, Model.replay_singleton]
        simp only [writes, if_pos hcount]
        rfl
    · refine .inr ⟨ref, pay, data, by simpa using hdelivers, by rwa [hdone], ?_, href, hstatus,
        fun id' data' hc => ?_, fun s => ?_⟩
      · rw [hpending]
        exact claims_append.2 (.inr ⟨a, hcount, .head _⟩)
      · rw [hpending, claims_append, claims_singleton] at hc
        rcases hc with hc | ⟨count, hne, heq⟩
        · exact absurd hc (hnone _ _)
        · obtain ⟨heq, -⟩ := Event.mk.inj heq
          exact Stmt.paymentUpdateManyNotCompleted.inj heq
      · rw [hpending, Model.replay_append, hsame, Model.replay_singleton]
        simp only [writes, if_neg hcount]
        rfl
  · have hother : ∀ s, (model.applyAll (writes q a) s).payments = s.payments := by
      refine payments_of_other a ?_ ?_ ?_ fun id data heq => hq ⟨id, data, heq⟩
      · rintro id data rfl
        simp [hguard.2.1] at htx
      · rintro id now rfl
        simp [hguard.2.1] at hop
      · rintro data rfl
        simp [hguard.2.1] at hop
    have hclaims : ∀ id data, Claims (l.push ⟨q, a⟩).pending id data ↔ Claims l.pending id data := by
      intro id data
      rw [hpending, claims_append, claims_singleton, or_iff_left]
      rintro ⟨count, -, heq⟩
      exact hq ⟨id, data, (Event.mk.inj heq).1.symm⟩
    have hpayments : ∀ s, (model.replay (l.push ⟨q, a⟩).pending s).payments =
        (model.replay l.pending s).payments := by
      intro s
      rw [hpending, Model.replay_append, Model.replay_singleton]
      exact hother _
    rcases h with h | ⟨ref, pay, data, h⟩
    · exact .inl ⟨fun id data hc => h.claims id data ((hclaims _ _).1 hc),
        fun s => (hpayments s).trans (h.payments s)⟩
    · exact .inr ⟨ref, pay, data, by simpa using h.delivers, by rw [hdone]; exact h.found,
        (hclaims _ _).2 h.claims, h.providerRef, h.status,
        fun id data' hc => h.only id data' ((hclaims _ _).1 hc),
        fun s => (hpayments s).trans (h.payments s)⟩

/-- One more statement, answered in the view of the call; what it writes is not applied yet. -/
theorem Settles.push {s : World} {l : Log} {q : Stmt} {a : Ans q} {c : Choice} (h : Settles s l)
    (hguard : guards.stmt l q) (hexec : exec q c (l.view model s) = some a) :
    Settles s (l.push ⟨q, a⟩) := by
  have honce : ∀ ref pay ref' pay', Found (l.push ⟨q, a⟩).events ref pay →
      Found (l.push ⟨q, a⟩).events ref' pay' → ref = ref' ∧ pay = pay' := by
    intro ref pay ref' pay' h₁ h₂
    rcases found_push hguard h₁ with h₁ | ⟨hnil, -, heq₁⟩
    · rcases found_push hguard h₂ with h₂ | ⟨hnil, -, -⟩
      · exact h.once _ _ _ _ h₁ h₂
      · simp [Found, hnil] at h₁
    · rcases found_push hguard h₂ with h₂ | ⟨-, -, heq₂⟩
      · simp [Found, hnil] at h₂
      · simpa using heq₁.trans heq₂.symm
  have hfile : ∀ ref pay, Found (l.push ⟨q, a⟩).events ref pay →
      ∃ row, s.payments.find? pay.id = some row ∧ pay.SameFile row := by
    intro ref pay hf
    rcases found_push hguard hf with hf | ⟨hnil, -, heq⟩
    · exact h.file ref pay hf
    · obtain ⟨rfl, heq⟩ := Event.mk.inj heq
      obtain rfl := eq_of_heq heq
      have hpending : l.pending = [] := (List.append_eq_nil_iff.1 hnil).2
      rw [Trace.view, hpending] at hexec
      exact ⟨pay, (found_of_exec c hexec).1, .refl pay⟩
  have hdelivers : ∀ ref pay, Found (l.push ⟨q, a⟩).events ref pay →
      (l.push ⟨q, a⟩).op.delivers = true := by
    intro ref pay hf
    rw [Trace.push_op]
    rcases found_push hguard hf with hf | ⟨-, hop, -⟩
    · exact h.delivers ref pay hf
    · exact hop
  cases htx : l.tx with
  | none =>
      have hnil : (l.push ⟨q, a⟩).pending = [] := by simp [Trace.push_of_none htx, Trace.pending, htx]
      refine ⟨hdelivers, honce, hfile, ?_, fun _ => .inl (untouched_of_nil hnil), ?_, ?_, ?_⟩ <;>
        simp [Trace.held, hnil, Model.writesOf]
  | some x =>
      have hheld : (l.push ⟨q, a⟩).held model = l.held model ++ writes q a := by
        simp [Trace.held, Trace.push_of_some htx, Trace.pending, htx, Model.writesOf]
      refine ⟨hdelivers, honce, hfile, fun id data row hw hrow hst => ?_,
        fun hop => settled_push htx (by simpa using hop) (h.settled (by simpa using hop)) hguard,
        fun hop id data hw => ?_, fun row hw => ?_, fun row hw => ?_⟩
      · rw [hheld, List.mem_append] at hw
        rcases hw with hw | hw
        · exact h.held id data row hw hrow hst
        · -- The call sees the row as it is stored, and its update passes completed rows over.
          have hview := h.completed_view hrow hst
          rcases payment_of_write (e := ⟨q, a⟩) hw with rfl | ⟨_, _, rfl, rfl⟩ | ⟨count, hne, heq⟩
          · simp [hguard.2.1] at htx
          · obtain ⟨id', hid', heq⟩ := List.mem_map.1 hw
            obtain ⟨rfl, -⟩ := Write.payment.inj heq
            obtain ⟨row', hrow', hlive⟩ := live_of_swept hexec hid'
            obtain rfl := Option.some.inj (hview.symm.trans hrow')
            simp [hst, PaymentStatus.live] at hlive
          · obtain ⟨rfl, heq⟩ := Event.mk.inj heq
            obtain rfl := eq_of_heq heq
            obtain ⟨row', hrow', hopen⟩ := open_of_claimed c hexec hne
            obtain rfl := Option.some.inj (hview.symm.trans hrow')
            exact hopen hst
      · rw [hheld, List.mem_append] at hw
        rw [Trace.push_op] at hop
        rcases hw with hw | hw
        · exact h.swept hop id data hw
        · rcases payment_of_write (e := ⟨q, a⟩) hw with rfl | ⟨_, _, rfl, rfl⟩ | ⟨count, -, heq⟩
          · simp [hguard.2.1] at htx
          · rfl
          · obtain ⟨rfl, -⟩ := Event.mk.inj heq
            simp [not_creates hguard.2.1] at hop
      · rw [hheld, List.mem_append] at hw
        rw [Trace.push_op]
        rcases hw with hw | hw
        · exact h.fresh row hw
        · obtain ⟨data, heq⟩ := newPayment_of_write (e := ⟨q, a⟩) hw
          obtain ⟨rfl, heq⟩ := Event.mk.inj heq
          obtain rfl := eq_of_heq heq
          obtain ⟨hrow, hnone⟩ := created_of_exec hexec
          obtain ⟨hop, -, hstatus, -⟩ := hguard.2
          refine ⟨hop, ?_, by rw [hrow]; exact hstatus, by rw [hrow]; rfl⟩
          cases hfind : s.payments.find? a.id with
          | none => rfl
          | some r =>
              obtain ⟨r', hr', -⟩ := applyAll_payment_file (l.held model) hfind
              exact absurd (hnone.symm.trans hr') (by simp)
      · have hpending : (l.push ⟨q, a⟩).pending = l.pending ++ [⟨q, a⟩] := by
          simp [Trace.push_of_some htx, Trace.pending, htx]
        rw [hheld, List.mem_append] at hw
        rw [hpending]
        rcases hw with hw | hw
        · obtain ⟨data, hst, hclaims⟩ := h.refunded row hw
          exact ⟨data, hst, claims_append.2 (.inl hclaims)⟩
        · obtain ⟨rfl, -⟩ := Event.mk.inj (newRefund_of_write (e := ⟨q, a⟩) hw)
          obtain ⟨-, ref, pay, data, -, hst, hclaims, hid⟩ := hguard.2
          exact ⟨data, hst, claims_append.2 (.inl (hid ▸ hclaims))⟩

theorem settlement_rules : Rules (M := model) (ε := Err) (α := Reply) guards anyStep
    (fun _ => True) Settles (fun _ _ => True) where
  symm _ _ _ := trivial
  start p o _ _ := settles_start p.db o
  start_pair _ _ _ _ _ := trivial
  env _ _ _ _ := ⟨trivial, fun _ h => ⟨h.delivers, h.once, h.file, h.held, h.settled, h.swept, h.fresh, h.refunded⟩⟩
  drop _ _ h := h.outside rfl rfl fun _ => Trace.mem_events_of_drop
  drop_pair _ _ _ := trivial
  openTx _ l iso htx h := h.outside rfl rfl fun e he => by rwa [Trace.events_openTx htx] at he
  openTx_pair _ _ _ _ _ := trivial
  call p i c t q a h hcall htx :=
    ⟨trivial, ((h.thread i t hcall.here).push hcall.guard hcall.exec).applyAll
      (Trace.free_of_none (by simp [Trace.push_of_none htx, htx])),
      fun u hu => ⟨(h.other hu).applyAll (hcall.free u hu), trivial⟩⟩
  callTx p i c t q a x h hcall htx :=
    ⟨(h.thread i t hcall.here).push hcall.guard hcall.exec, fun _ _ => trivial⟩
  commit p i c t x h hcommit :=
    ⟨trivial, ((h.thread i t hcommit.here).outside (u := t.trace.commit) rfl rfl fun e he => by
        rwa [Trace.events_commit] at he).applyAll (Trace.free_of_none rfl),
      fun u hu => ⟨(h.other hu).applyAll (hcommit.free u hu), trivial⟩⟩

/-- The calls of every run. -/
theorem settles {s₀ : World} {p : Platform} (hrun : Run prog anyStep (idle s₀) p) :
    Sound guards p ∧ Holds (fun _ => True) Settles (fun _ _ => True) p :=
  settlement_rules.holds (fun _ o _ => prog_conforms o) trivial hrun

/-! ## What a commit does to completed payments -/

/-- A transaction that completes a payment is the one of a delivery. -/
theorem Settles.concluding {s : World} {l : Log} (h : Settles s l) {id : Id} {data : PaymentData}
    (hc : Claims l.pending id data) (hst : data.status = .COMPLETED) :
    ∃ ref pay, Concluding l ref pay data ∧ id = pay.id := by
  cases hop : l.op.creates with
  | true =>
      rw [h.swept hop id data (write_of_claims hc)] at hst
      cases hst
  | false =>
      rcases h.settled hop with hno | ⟨ref, pay, data', hl⟩
      · exact absurd hc (hno.claims id data)
      · obtain ⟨hid, rfl⟩ := hl.only id data hc
        exact ⟨ref, pay, hl, hid⟩

/-- The payment that a transaction completes is COMPLETED in the view of the call. -/
theorem Settles.concluded {s : World} {l : Log} (h : Settles s l) {ref : Id} {pay : Payment}
    {data : PaymentData} (hl : Concluding l ref pay data) :
    ∃ r, s.payments.find? pay.id = some r ∧ pay.SameFile r ∧
      (l.view model s).payments.find? pay.id = some (data.set r) := by
  obtain ⟨r, hr, hsame⟩ := h.file ref pay (Trace.mem_events.2 (.inl hl.found))
  exact ⟨r, hr, hsame, by rw [Trace.view, hl.payments, Table.find?_modify_self, hr]; rfl⟩

/-- A payment that is completed after a commit was so before, or the commit completed it. -/
theorem Settles.completed_of_view {s : World} {l : Log} (h : Settles s l) {row : Payment}
    (hrow : row ∈ (l.view model s).payments) (hst : row.status = .COMPLETED) :
    row ∈ s.payments ∨ ∃ ref pay data r, Concluding l ref pay data ∧ data.status = .COMPLETED ∧
      s.payments.find? pay.id = some r ∧ pay.SameFile r ∧ row = data.set r := by
  cases hop : l.op.creates with
  | true =>
      refine .inl (completed_of_applyAll (fun id data hw => ?_) (fun new hw => ?_) hrow hst)
      · rw [h.swept hop id data hw]
        decide
      · rw [(h.fresh new hw).2.2.1]
        decide
  | false =>
      rcases h.settled hop with hno | ⟨ref, pay, data, hl⟩
      · exact .inl (by rwa [Trace.view, hno.payments] at hrow)
      · rw [Trace.view, hl.payments] at hrow
        obtain ⟨r, hr, rfl⟩ := Table.mem_modify.1 hrow
        by_cases hid : Keyed.key r = pay.id
        · rw [if_pos hid] at hst ⊢
          obtain ⟨r', hr', hsame, -⟩ := h.concluded hl
          obtain rfl := Option.some.inj ((Table.find?_eq_some.2 ⟨hr, hid⟩).symm.trans hr')
          exact .inr ⟨ref, pay, data, r, hl, hst, hr', hsame, rfl⟩
        · rw [if_neg hid]
          exact .inl hr

/-- A statement outside a transaction completes no payment. -/
theorem completed_of_call {s : World} {l : Log} {q : Stmt} {a : Ans q} (hguard : guards.stmt l q)
    (htx : l.tx = none) {row : Payment} (hrow : row ∈ (model.applyAll (writes q a) s).payments)
    (hst : row.status = .COMPLETED) : row ∈ s.payments := by
  refine completed_of_applyAll (fun id data hw => ?_) (fun new hw => ?_) hrow hst
  · rcases payment_of_write (e := ⟨q, a⟩) hw with rfl | ⟨_, _, rfl, rfl⟩ | ⟨count, -, heq⟩
    · obtain ⟨-, -, -, hstatus | hstatus⟩ := hguard.2 <;> rw [hstatus] <;> decide
    · decide
    · obtain ⟨rfl, -⟩ := Event.mk.inj heq
      obtain ⟨-, ⟨x, hx, -⟩, -⟩ := hguard.2
      simp [htx] at hx
  · obtain ⟨data, heq⟩ := newPayment_of_write (e := ⟨q, a⟩) hw
    obtain ⟨rfl, -⟩ := Event.mk.inj heq
    obtain ⟨-, ⟨x, hx, -⟩, -⟩ := hguard.2
    simp [htx] at hx

theorem settlementCommit {l : Log} (h : guards.commit l) (hop : l.op.delivers = true) :
    SettlementCommit l := by
  simp only [guards, commitGuard] at h
  cases ho : l.op <;> simp only [ho, Op.delivers, Bool.false_eq_true] at hop <;> simpa [ho] using h

theorem creationCommit {l : Log} (h : guards.commit l) (hop : l.op.creates = true) :
    CreationCommit l := by
  simp only [guards, commitGuard] at h
  cases ho : l.op <;> simp only [ho, Op.creates, Bool.false_eq_true] at hop
  simpa [ho] using h

end GetPlatform.Admission
