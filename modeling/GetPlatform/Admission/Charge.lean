import GetPlatform.Admission.Ledger
import Mathlib.Data.Rat.Floor

set_option autoImplicit false

/-! # What is charged and what is recorded

Stripe is asked for a whole number of ariary, which the fee of an offer need not be. The payment and its row in
the ledger have the fee itself. -/

namespace GetPlatform.Admission

open Pool Prog

/-! ## The provider -/

/-- `Math.round` -/
def mathRound (q : Rat) : Int := ⌊q + 1 / 2⌋

structure LineItem where
  currency : String
  unitAmount : Int
  name : String
  quantity : Nat
  deriving DecidableEq

/-- What a Checkout Session is created from. -/
structure CheckoutSession where
  clientReferenceId : Reference
  lineItems : List LineItem
  studentId : Id
  idempotencyKey : Reference
  deriving DecidableEq

/-- The session that `StripePaymentProvider.initiatePayment` creates. -/
def checkoutSession (amount : Rat) (currency : String) (studentId : Id) (reference : Reference)
    (description : Option String) : CheckoutSession where
  clientReferenceId := reference
  lineItems := [{
    currency := currency.toLower
    unitAmount := mathRound amount
    name := match description with
      | some description => if description ≠ "" then description else "Frais de scolarité GET"
      | none => "Frais de scolarité GET"
    quantity := 1 }]
  studentId := studentId
  idempotencyKey := reference

/-- The ariary, of which there are no cents. -/
def CheckoutSession.charge (session : CheckoutSession) : Int :=
  (session.lineItems.map fun item => item.unitAmount * (item.quantity : Int)).sum

theorem charge_checkoutSession (amount : Rat) (currency : String) (studentId : Id) (reference : Reference)
    (description : Option String) :
    (checkoutSession amount currency studentId reference description).charge = mathRound amount := by
  simp [checkoutSession, CheckoutSession.charge]

theorem mathRound_eq_iff {q : Rat} : (mathRound q : Rat) = q ↔ ∃ n : Int, q = n := by
  constructor
  · exact fun h => ⟨_, h.symm⟩
  · rintro ⟨n, rfl⟩
    have hfloor : ⌊(n : Rat) + 1 / 2⌋ = n := by
      rw [Int.floor_eq_iff]
      constructor <;> linarith
    rw [mathRound, hfloor]

/-! ## What a call asks for -/

/-- The amount is the fee of the offer, and the call has created a payment of it. -/
structure Asked (es : List Ev) (dto : InitiatePaymentDto) (amount : Rat) (application : ApplicationWithOffer)
    (row : Payment) : Prop where
  read : (⟨.applicationFindUnique dto.applicationId, some application⟩ : Ev) ∈ es
  fee : application.offer.tuitionFees = amount
  pos : 0 < amount
  created : Created es row
  amount : row.amount = amount

theorem Asked.mono {es es' : List Ev} {dto : InitiatePaymentDto} {amount : Rat}
    {application : ApplicationWithOffer} {row : Payment} (h : Asked es dto amount application row)
    (hsub : ∀ e ∈ es, e ∈ es') : Asked es' dto amount application row := by
  obtain ⟨data, hdata⟩ := h.created
  exact ⟨hsub _ h.read, h.fee, h.pos, ⟨data, hsub _ hdata⟩, h.amount⟩

def chargeGuards : Guards interface Op where
  stmt l q := ∀ studentId dto amount currency student reference,
    l.op = .initiatePayment studentId dto → q = .initiatePayment amount currency student reference →
      ∃ application row, Asked l.done dto amount application row
  commit _ := True

theorem chargeGuards_of_ne {l : Log} {q : Stmt}
    (h : ∀ amount currency student reference, q ≠ .initiatePayment amount currency student reference) :
    chargeGuards.stmt l q := fun _ _ _ _ _ _ _ hq => absurd hq (h _ _ _ _)

theorem chargeGuards_send {q : Stmt} {Q : Log → Ans q → Prop} {E : Log → Err → Prop} {l : Log} :
    @Conforms interface model Err (no_index (Ans q)) Op chargeGuards (send q) Q E l ↔
      chargeGuards.stmt l q ∧ (∀ f, E l (.database f)) ∧
        ∀ a, model.Possible q a → Q (l.push ⟨q, a⟩) a := Iff.rfl

theorem createPayment_asks {o : Op} {d : List Ev} {studentId applicationId : Id} {amount : Rat}
    {method : PaymentMethod} {reference : Reference} {Q : Log → Payment → Prop} {E : Log → Err → Prop}
    (hE : ∀ es e, E ⟨o, d, some ⟨.serializable, es⟩⟩ e)
    (hQ : ∀ es payment, Created es payment → payment.amount = amount →
      Q ⟨o, d, some ⟨.serializable, es⟩⟩ payment) :
    (createPayment studentId applicationId amount method reference).Conforms model chargeGuards Q E
      ⟨o, d, some ⟨.serializable, []⟩⟩ := by
  simp only [createPayment, bind_eq, throw_eq, conforms_handle, chargeGuards_send, conforms_fail, hE,
    Trace.push_inside, List.nil_append, List.cons_append, implies_true, true_and]
  refine ⟨chargeGuards_of_ne (by simp), fun t _ => ⟨chargeGuards_of_ne (by simp), fun ids _ =>
    ⟨chargeGuards_of_ne (by simp), fun existing _ => ?_⟩⟩⟩
  cases existing with
  | some payment => exact hE _ _
  | none =>
      simp only [conforms_handle, chargeGuards_send, conforms_fail, hE, Trace.push_inside, List.cons_append,
        List.nil_append, implies_true, true_and]
      refine ⟨chargeGuards_of_ne (by simp), fun t' _ => ⟨chargeGuards_of_ne (by simp), fun payment hp => ?_⟩⟩
      obtain ⟨c, s, hexec⟩ := hp
      refine hQ _ _ ⟨_, .tail _ (.tail _ (.tail _ (.tail _ (.head _))))⟩ ?_
      rw [(created_of_exec hexec).1]
      rfl

/-- The provider is asked for the amount of the payment. -/
theorem startPayment_asks {d : List Ev} {dto : InitiatePaymentDto} {amount : Rat}
    {application : ApplicationWithOffer} {payment : Payment} (h : Asked d dto amount application payment)
    (studentId studentId' : Id) (reference : Reference) :
    (tryCatch (startPayment studentId' amount reference payment) fun err => do
        markFailed payment.id
        throw err).Conforms model chargeGuards (fun _ _ => True) (fun _ _ => True)
      ⟨.initiatePayment studentId dto, d, none⟩ := by
  have hfailed : ∀ l : Log, (markFailed payment.id).Conforms model chargeGuards (fun _ _ => True)
      (fun _ _ => True) l := by
    intro l
    simp only [markFailed, bind_eq, tryCatch_eq, pure_eq, conforms_handle, chargeGuards_send, conforms_ret,
      conforms_fail, implies_true, and_true]
    refine chargeGuards_of_ne ?_
    simp
  simp only [startPayment, bind_eq, tryCatch_eq, pure_eq, throw_eq, conforms_handle, chargeGuards_send,
    conforms_ret, conforms_fail, hfailed, Trace.push_outside, implies_true, and_true]
  refine ⟨?_, trivial, fun session _ => ?_⟩
  swap
  · refine chargeGuards_of_ne ?_
    simp
  intro student' dto' amount' currency student reference' hop hq
  obtain ⟨-, rfl⟩ := Op.initiatePayment.inj hop
  obtain ⟨rfl, -⟩ := Stmt.initiatePayment.inj hq
  exact ⟨application, payment, h⟩

theorem initiatePayment_asks (studentId : Id) (dto : InitiatePaymentDto) :
    (initiatePayment studentId dto).Conforms model chargeGuards (fun _ _ => True) (fun _ _ => True)
      (.start (.initiatePayment studentId dto)) := by
  simp only [initiatePayment, bind_eq, throw_eq, conforms_handle, chargeGuards_send, conforms_fail,
    Trace.start_eq, Trace.push_outside, List.nil_append, implies_true, true_and]
  refine ⟨chargeGuards_of_ne (by simp), fun student _ => ?_⟩
  cases student with
  | none => trivial
  | some student =>
      simp only [conforms_handle, chargeGuards_send, conforms_fail, Trace.push_outside, List.cons_append,
        List.nil_append, implies_true, true_and]
      refine ⟨chargeGuards_of_ne (by simp), fun application _ => ?_⟩
      cases application with
      | none => trivial
      | some application =>
          simp only [conforms_ite, conforms_handle, chargeGuards_send, conforms_fail, Trace.push_outside,
            List.cons_append, List.nil_append, implies_true, true_and]
          refine fun _ _ hpos => ⟨chargeGuards_of_ne (by simp), fun t _ =>
            ⟨chargeGuards_of_ne (by simp), fun suffix _ => ?_⟩⟩
          rw [tryCatch_eq, conforms_handle]
          refine (conforms_transaction ..).2 ⟨rfl, ?_⟩
          refine createPayment_asks (fun es e => ?_) fun es payment hcreated hamount =>
            ⟨by simp, trivial, fun f => ?_, ?_⟩
          · simp only [Trace.drop_mk]
            split <;> trivial
          · simp only [Trace.drop_mk]
            split <;> trivial
          · simp only [Trace.commit_mk, conforms_ret]
            obtain ⟨data, hdata⟩ := hcreated
            exact startPayment_asks ⟨List.mem_append_left _ (.tail _ (.head _)), rfl, lt_of_not_ge hpos,
              ⟨data, List.mem_append_right _ hdata⟩, hamount⟩ studentId studentId _

theorem prog_asks (o : Op) :
    (prog o).Conforms model chargeGuards (fun _ _ => True) (fun _ _ => True) (.start o) := by
  by_cases ho : ∃ studentId dto, o = .initiatePayment studentId dto
  · obtain ⟨studentId, dto, rfl⟩ := ho
    simpa [prog] using initiatePayment_asks studentId dto
  · refine (prog_conforms o).retarget (sends_any _) ?_ fun _ _ => trivial
    intro l hl q _ studentId dto _ _ _ _ hop
    exact absurd ⟨studentId, dto, hl.symm.trans hop⟩ ho

/-! ## What is stored -/

/-- A call that has asked for a charge has read the fee and created the payment. -/
def Asks (l : Log) : Prop :=
  ∀ studentId dto amount currency student reference session, l.op = .initiatePayment studentId dto →
    (⟨.initiatePayment amount currency student reference, session⟩ : Ev) ∈ l.events →
      ∃ application row, Asked l.done dto amount application row

theorem Asks.of_subset {l l' : Log} (h : Asks l) (hop : l'.op = l.op)
    (hevents : ∀ e ∈ l'.events, e ∈ l.events) (hdone : ∀ e ∈ l.done, e ∈ l'.done) : Asks l' := by
  intro studentId dto amount currency student reference session hop' hask
  obtain ⟨application, row, hasked⟩ := h _ _ _ _ _ _ _ (hop ▸ hop') (hevents _ hask)
  exact ⟨application, row, hasked.mono hdone⟩

theorem mem_done_push {l : Log} {e e' : Ev} (h : e ∈ l.done) : e ∈ (l.push e').done := by
  cases htx : l.tx with
  | none =>
      rw [Trace.push_of_none htx]
      exact List.mem_append_left _ h
  | some x => rwa [Trace.push_of_some htx]

theorem Asks.push {l : Log} {q : Stmt} {a : Ans q} (h : Asks l) (hguard : chargeGuards.stmt l q) :
    Asks (l.push ⟨q, a⟩) := by
  intro studentId dto amount currency student reference session hop hask
  rw [Trace.push_op] at hop
  rw [Trace.events_push, List.mem_append, List.mem_singleton] at hask
  rcases hask with hask | heq
  · obtain ⟨application, row, hasked⟩ := h _ _ _ _ _ _ _ hop hask
    exact ⟨application, row, hasked.mono fun _ => mem_done_push⟩
  · obtain ⟨rfl, -⟩ := Event.mk.inj heq
    obtain ⟨application, row, hasked⟩ := hguard _ _ _ _ _ _ hop rfl
    exact ⟨application, row, hasked.mono fun _ => mem_done_push⟩

theorem asks_rules : Rules (M := model) (ε := Err) (α := Reply) chargeGuards anyStep (fun _ => True)
    (fun _ => Asks) (fun _ _ => True) where
  symm _ _ _ := trivial
  start _ o _ _ := by simp [Asks, Trace.events]
  start_pair _ _ _ _ _ := trivial
  env _ _ _ _ := ⟨trivial, fun _ h => h⟩
  drop _ _ h := h.of_subset rfl (fun _ => Trace.mem_events_of_drop) fun _ he => he
  drop_pair _ _ _ := trivial
  openTx _ l iso htx h := h.of_subset rfl (fun e he => by rwa [Trace.events_openTx htx] at he) fun _ he => he
  openTx_pair _ _ _ _ _ := trivial
  call p i c t q a h hcall _ :=
    ⟨trivial, (h.thread i t hcall.here).push hcall.guard, fun u hu => ⟨h.other hu, trivial⟩⟩
  callTx p i c t q a x h hcall _ := ⟨(h.thread i t hcall.here).push hcall.guard, fun _ _ => trivial⟩
  commit p i c t x h hcommit :=
    ⟨trivial, (h.thread i t hcommit.here).of_subset rfl (fun e he => by rwa [Trace.events_commit] at he)
      fun e he => List.mem_append_left _ he, fun u hu => ⟨h.other hu, trivial⟩⟩

/-- The payments that a call has created are stored with their amounts. -/
def Stored (s : World) (l : Log) : Prop :=
  ∀ row, Created l.done row → ∃ r, s.payments.find? row.id = some r ∧ row.SameFile r

theorem Stored.applyAll {s : World} {l : Log} (h : Stored s l) (ws : List Write) :
    Stored (model.applyAll ws s) l := by
  intro row hrow
  obtain ⟨r, hr, hsame⟩ := h row hrow
  obtain ⟨r', hr', hsame'⟩ := applyAll_payment_file ws hr
  exact ⟨r', hr', hsame.trans hsame'⟩

theorem Stored.call {s : World} {l : Log} {q : Stmt} {a : Ans q} (h : Stored s l)
    (hguard : guards.stmt l q) (htx : l.tx = none) :
    Stored (model.applyAll (writes q a) s) (l.push ⟨q, a⟩) := by
  rintro row ⟨data, hdata⟩
  rw [Trace.push_of_none htx] at hdata
  rcases List.mem_append.1 hdata with hdata | hdata
  · exact h.applyAll (writes q a) row ⟨data, hdata⟩
  · obtain ⟨rfl, -⟩ := Event.mk.inj (List.mem_singleton.1 hdata)
    obtain ⟨-, ⟨x, hx, -⟩, -⟩ := hguard.2
    rw [htx] at hx
    cases hx

/-- A row that writes create, and no other with it, is stored with its amount. -/
theorem applyAll_created_file {ws : List Write} {row : Payment} (h : Write.newPayment row ∈ ws)
    (honly : ∀ row', Write.newPayment row' ∈ ws → row' = row) {s : World}
    (hnone : s.payments.find? row.id = none) :
    ∃ r, (model.applyAll ws s).payments.find? row.id = some r ∧ row.SameFile r := by
  obtain ⟨r, hr⟩ := applyAll_created h s
  refine ⟨r, hr, ?_⟩
  refine @Model.applyAll_keeps _ model (fun t => ∀ r, t.payments.find? row.id = some r → row.SameFile r) ws
    (fun w hw t ht r hr => ?_) s (fun r hr => absurd (hnone.symm.trans hr) (by simp)) r hr
  cases w with
  | payment id data =>
      have hr : (t.payments.modify id data.set data.key_set).find? row.id = some r := hr
      rw [Table.find?_modify] at hr
      split at hr
      · next hid =>
          obtain ⟨r', hr', rfl⟩ := Option.map_eq_some_iff.1 hr
          exact (ht r' (hid ▸ hr')).trans (data.sameFile_set r')
      · exact ht r hr
  | newPayment row' =>
      obtain rfl := honly row' hw
      have hr : (t.payments.insert row').find? row'.id = some r := hr
      rcases Table.mem_of_mem_insert (Table.mem_of_find? hr) with hmem | rfl
      · exact ht r (Table.find?_eq_some.2 ⟨hmem, Table.key_of_find? hr⟩)
      · exact .refl r
  | _ => exact ht r hr

/-- A commit stores the row that its transaction has created. -/
theorem Stored.commit {s : World} {l : Log} (h : Stored s l) (hl : Settles s l)
    (hcommit : guards.commit l) : Stored (l.view model s) l.commit := by
  rintro row ⟨data, hdata⟩
  rw [Trace.commit_done] at hdata
  rcases List.mem_append.1 hdata with hdata | hdata
  · exact h.applyAll (l.held model) row ⟨data, hdata⟩
  have hheld : Write.newPayment row ∈ l.held model :=
    model.mem_writesOf.2 ⟨_, hdata, List.mem_singleton.2 rfl⟩
  obtain ⟨hcreates, hnone, -⟩ := hl.fresh row hheld
  refine applyAll_created_file hheld (fun row' hrow' => ?_) hnone
  obtain ⟨applicationId, t, ids, t', data', new, -, -, -, hpending⟩ := creationCommit hcommit hcreates
  have hnew : ∀ row data, (⟨.paymentCreate data, row⟩ : Ev) ∈ l.pending → row = new := by
    intro row data hmem
    rw [hpending] at hmem
    simp only [List.mem_cons, Event.mk.injEq, reduceCtorEq, false_and, List.not_mem_nil, or_false,
      false_or] at hmem
    obtain ⟨hdata, hrow⟩ := hmem
    obtain rfl := Stmt.paymentCreate.inj hdata
    exact eq_of_heq hrow
  obtain ⟨e, he, hwrite⟩ := model.mem_writesOf.1 hrow'
  obtain ⟨data'', rfl⟩ := newPayment_of_write hwrite
  exact (hnew row' data'' he).trans (hnew row data hdata).symm

theorem stored_rules : Rules (ε := Err) (α := Reply) guards settled (fun _ => True) Stored
    (fun _ _ => True) where
  symm _ _ _ := trivial
  start _ _ _ _ := by simp [Stored, Created]
  start_pair _ _ _ _ _ := trivial
  env _ _ _ _ := ⟨trivial, fun _ h => h⟩
  drop _ _ h := h
  drop_pair _ _ _ := trivial
  openTx _ _ _ _ h := h
  openTx_pair _ _ _ _ _ := trivial
  call p i c t q a h hcall htx :=
    ⟨trivial, (h.thread i t hcall.here).call hcall.guard htx, fun u hu => ⟨(h.other hu).applyAll _, trivial⟩⟩
  callTx p i c t q a x h hcall htx := by
    refine ⟨fun row hrow => h.thread i t hcall.here row ?_, fun _ _ => trivial⟩
    rwa [Trace.push_of_some htx] at hrow
  commit p i c t x h hcommit :=
    ⟨trivial, (h.thread i t hcommit.here).commit (hcommit.allowed.thread i t hcommit.here) hcommit.guard,
      fun u hu => ⟨(h.other hu).applyAll _, trivial⟩⟩

/-! ## Every run -/

/-- The payment, and its row in the ledger if it has one, are of what was charged, which is not nothing. -/
structure RecordsCharge (s : World) (charge : Int) (paymentId : Id) : Prop where
  payment : ∃ pay, s.payments.find? paymentId = some pay ∧ pay.amount = charge
  transaction : ∀ t ∈ s.transactions, t.paymentId = paymentId → t.amount = charge
  pos : 0 < charge

/-- A row of the ledger has the amount of its payment. -/
theorem Ledger.amount {s : World} (h : Ledger s) {t : Transaction} (ht : t ∈ s.transactions) {pay : Payment}
    (hpay : s.payments.find? t.paymentId = some pay) : t.amount = pay.amount := by
  obtain ⟨p, hp, hst⟩ := h.paid t ht
  obtain rfl := Option.some.inj (hp.symm.trans hpay)
  obtain ⟨t', ht', -, hamount⟩ := h.booked p (Table.mem_of_find? hpay) hst
  have hkey : p.id = t.paymentId := Table.key_of_find? hpay
  obtain ⟨hmem, hid⟩ := Table.find?_eq_some.1 ht'
  rw [Table.eq_of_key_eq ht hmem (hkey.symm.trans hid.symm)]
  exact hamount

/-- **When what is charged is what is recorded.** In every run, a call that has asked Stripe for an amount has
read it as the fee of the offer and created a payment of it, and what was charged is what the payment and the
ledger say exactly when the fee is a whole number. -/
theorem charge_recorded_iff {s₀ : World} (h₀ : Ledger s₀) {p : Platform}
    (hrun : Run prog anyStep (idle s₀) p) {i : Nat} {t : Thread interface Op Err Reply}
    (ht : p.threads[i]? = some t) {studentId : Id} {dto : InitiatePaymentDto}
    (hop : t.trace.op = .initiatePayment studentId dto) {amount : Rat} {currency : String} {student : Id}
    {reference : Reference} {session : ProviderSession}
    (hask : (⟨.initiatePayment amount currency student reference, session⟩ : Ev) ∈ t.trace.events)
    (description : Option String) :
    ∃ application row,
      (⟨.applicationFindUnique dto.applicationId, some application⟩ : Ev) ∈ t.trace.done ∧
      application.offer.tuitionFees = amount ∧ Created t.trace.done row ∧
      (RecordsCharge p.db (checkoutSession amount currency student reference description).charge row.id ↔
        ∃ n : Int, application.offer.tuitionFees = n) := by
  have hasks := (asks_rules.holds (fun _ o _ => prog_asks o) trivial hrun).2.thread i t ht
  have hstored := (stored_rules.holds (fun _ o _ => prog_conforms o) trivial
    ((hrun.along fun _ hr => (settles hr).2).mono fun _ _ h => h.2)).2.thread i t ht
  have hledger := (ledger_holds h₀ hrun).db
  obtain ⟨application, row, hasked⟩ := hasks _ _ _ _ _ _ _ hop hask
  obtain ⟨pay, hpay, hsame⟩ := hstored row hasked.created
  have hamount : pay.amount = amount := hsame.amount.trans hasked.amount
  refine ⟨application, row, hasked.read, hasked.fee, hasked.created, ?_⟩
  rw [charge_checkoutSession, hasked.fee, ← mathRound_eq_iff]
  constructor
  · intro h
    obtain ⟨pay', hpay', hcharge⟩ := h.payment
    obtain rfl := Option.some.inj (hpay.symm.trans hpay')
    exact hcharge.symm.trans hamount
  · intro hround
    refine ⟨⟨pay, hpay, hamount.trans hround.symm⟩, fun u hu hid => ?_, ?_⟩
    · rw [hledger.amount hu (hid ▸ hpay), hamount, hround]
    · have hpos := hasked.pos
      rw [← hround] at hpos
      exact_mod_cast hpos

/-! ## A whole fee and a fraction -/

/-- The file of an applicant who is accepted, with this fee. -/
def fileWithFee (fee : Rat) : World :=
  { enrollableFile with offers := .ofList [⟨5, 7, some 8, fee, none, none, true, none⟩] }

theorem ledger_fileWithFee (fee : Rat) : Ledger (fileWithFee fee) := by
  refine ⟨?_, ?_, ?_⟩ <;> rintro _ ⟨⟩

/-- The payment is created, and Stripe is asked. -/
def charged : List (Step model Op) := createCommands 0 1 ++ startCommands 0 70

def asksFor (amount : Rat) : Ev → Bool
  | ⟨.initiatePayment amount' .., _⟩ => amount' = amount
  | _ => false

def Op.paysByCard : Op → Bool
  | .initiatePayment 11 ⟨1, .CARD⟩ => true
  | _ => false

/-- Call 0 pays for application 1, and has asked for this amount. -/
def hasAsked (amount : Rat) (p : Platform) : Bool :=
  p.threads[0]?.any fun t => t.trace.op.paysByCard && t.trace.events.any (asksFor amount)

theorem of_hasAsked {amount : Rat} {p : Platform} (h : hasAsked amount p = true) :
    ∃ t currency student reference session, p.threads[0]? = some t ∧
      t.trace.op = .initiatePayment 11 ⟨1, .CARD⟩ ∧
      (⟨.initiatePayment amount currency student reference, session⟩ : Ev) ∈ t.trace.events := by
  obtain ⟨t, ht, hcall⟩ := (Option.any_eq_true ..).1 h
  obtain ⟨hop, hask⟩ := Bool.and_eq_true_iff.1 hcall
  obtain ⟨e, he, hasks⟩ := List.any_eq_true.1 hask
  have hop' : t.trace.op = .initiatePayment 11 ⟨1, .CARD⟩ := by
    unfold Op.paysByCard at hop
    split at hop
    · assumption
    · cases hop
  unfold asksFor at hasks
  split at hasks
  · rename_i amount' currency student reference session
    obtain rfl := of_decide_eq_true hasks
    exact ⟨t, currency, student, reference, session, ht, hop', he⟩
  · cases hasks

/-- A fee of 100 ariary is charged and recorded. -/
theorem charge_recorded_iff_whole : ∃ (p : Platform) (id : Id),
    Run prog anyStep (idle (fileWithFee 100)) p ∧ RecordsCharge p.db 100 id := by
  have hplay : ((idle (fileWithFee 100) : Platform).play prog anyStep charged).any (hasAsked 100) =
      true := by
    decide +kernel
  obtain ⟨p, hrun, hasked⟩ := exists_run_of_play hplay
  obtain ⟨t, currency, student, reference, session, ht, hop, hask⟩ := of_hasAsked hasked
  obtain ⟨application, row, -, hfee, -, hiff⟩ :=
    charge_recorded_iff (ledger_fileWithFee 100) hrun ht hop hask none
  have hrecords := hiff.2 ⟨100, by rw [hfee]; norm_num⟩
  have hround : mathRound 100 = 100 := by decide +kernel
  rw [charge_checkoutSession, hround] at hrecords
  exact ⟨p, row.id, hrun, hrecords⟩

/-- A fee of two fifths of an ariary is recorded, and nothing is charged. -/
theorem not_charge_recorded :
    ¬ ∀ s₀ : World, Ledger s₀ → ∀ p : Platform, Run prog anyStep (idle s₀) p →
      ∀ (i : Nat) (t : Thread interface Op Err Reply), p.threads[i]? = some t →
      ∀ (studentId : Id) (dto : InitiatePaymentDto), t.trace.op = .initiatePayment studentId dto →
      ∀ (amount : Rat) (currency : String) (student : Id) (reference : Reference)
        (session : ProviderSession) (description : Option String),
        (⟨.initiatePayment amount currency student reference, session⟩ : Ev) ∈ t.trace.events →
        ∃ row, Created t.trace.done row ∧ RecordsCharge p.db
          (checkoutSession amount currency student reference description).charge row.id := by
  intro h
  have hplay : ((idle (fileWithFee (2 / 5)) : Platform).play prog anyStep charged).any
      (hasAsked (2 / 5)) = true := by
    decide +kernel
  obtain ⟨p, hrun, hasked⟩ := exists_run_of_play hplay
  obtain ⟨t, currency, student, reference, session, ht, hop, hask⟩ := of_hasAsked hasked
  obtain ⟨row, -, hrecords⟩ := h _ (ledger_fileWithFee (2 / 5)) p hrun 0 t ht _ _ hop _ _ _ _ _ none hask
  have hpos := hrecords.pos
  rw [charge_checkoutSession] at hpos
  exact absurd hpos (by decide +kernel)

end GetPlatform.Admission
