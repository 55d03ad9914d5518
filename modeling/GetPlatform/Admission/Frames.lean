import GetPlatform.Admission.Guards

set_option autoImplicit false

/-! # What the statements of a call change

Each table is changed by few statements. For the applications and the payments, the table after a
list of events is computed from the updates among them; every other table is left alone by the
statements that do not write it. -/

namespace GetPlatform.Admission

/-! ## Tables nobody writes -/

theorem apply_offers (w : Write) (s : World) : (World.apply w s).offers = s.offers := by
  cases w <;> rfl

@[simp] theorem applyAll_offers (ws : List Write) (s : World) :
    (model.applyAll ws s).offers = s.offers :=
  @Model.applyAll_keeps _ model (fun t => t.offers = s.offers) ws
    (fun w _ t h => (apply_offers w t).trans h) s rfl

@[simp] theorem replay_offers (es : List Ev) (s : World) :
    (model.replay es s).offers = s.offers := applyAll_offers _ _

/-! ## Applications -/

def setApplication (apps : Table Application) (u : Id × ApplicationData) : Table Application :=
  apps.modify u.1 u.2.set u.2.key_set

/-- The updates of applications among writes. -/
def Write.application? : Write → Option (Id × ApplicationData)
  | .application id data => some (id, data)
  | _ => none

theorem apply_applications (w : Write) (s : World) :
    (World.apply w s).applications = match w.application? with
      | some u => setApplication s.applications u
      | none => s.applications := by
  cases w <;> rfl

theorem applyAll_applications (ws : List Write) (s : World) :
    (model.applyAll ws s).applications =
      (ws.filterMap Write.application?).foldl setApplication s.applications := by
  induction ws generalizing s with
  | nil => rfl
  | cons w ws ih =>
      rw [Model.applyAll_cons, ih, apply_applications]
      cases h : w.application? <;> simp [h]

theorem updates_eq (es : List Ev) :
    updates es = (model.writesOf es).filterMap Write.application? := by
  induction es with
  | nil => rfl
  | cons e es ih =>
      have hone : updates [e] = (writes e.stmt e.ans).filterMap Write.application? := by
        obtain ⟨q, a⟩ := e
        cases q <;> try rfl
        · exact (List.filterMap_eq_nil_iff.2 fun w hw => by
            obtain ⟨k, -, rfl⟩ := List.mem_map.1 hw
            rfl).symm
        · exact (List.filterMap_eq_nil_iff.2 fun w hw => by
            obtain ⟨k, -, rfl⟩ := List.mem_map.1 hw
            rfl).symm
        · simp only [writes]
          split <;> rfl
      rw [← List.singleton_append, updates_append, hone, ih]
      simp [Model.writesOf]

/-- The applications after a list of events. -/
theorem replay_applications (es : List Ev) (s : World) :
    (model.replay es s).applications = (updates es).foldl setApplication s.applications := by
  rw [updates_eq]
  exact applyAll_applications _ s

/-- What no update of an application changes. -/
structure Application.SameFile (a b : Application) : Prop where
  id : b.id = a.id
  studentId : b.studentId = a.studentId
  offerId : b.offerId = a.offerId
  submittedAt : b.submittedAt = a.submittedAt

theorem Application.SameFile.refl (a : Application) : a.SameFile a := ⟨rfl, rfl, rfl, rfl⟩

theorem Application.SameFile.trans {a b c : Application} (h : a.SameFile b) (h' : b.SameFile c) :
    a.SameFile c :=
  ⟨h'.id.trans h.id, h'.studentId.trans h.studentId, h'.offerId.trans h.offerId,
    h'.submittedAt.trans h.submittedAt⟩

theorem ApplicationData.sameFile_set (d : ApplicationData) (a : Application) : a.SameFile (d.set a) :=
  ⟨rfl, rfl, rfl, rfl⟩

/-- What `us` make of application `a`. -/
def applied (us : List (Id × ApplicationData)) (a : Id) (app : Application) : Application :=
  us.foldl (fun x u => if u.1 = a then u.2.set x else x) app

@[simp] theorem applied_nil (a : Id) (app : Application) : applied [] a app = app := rfl

@[simp] theorem applied_cons (u : Id × ApplicationData) (us : List (Id × ApplicationData)) (a : Id)
    (app : Application) :
    applied (u :: us) a app = applied us a (if u.1 = a then u.2.set app else app) := rfl

@[simp] theorem applied_append (us us' : List (Id × ApplicationData)) (a : Id) (app : Application) :
    applied (us ++ us') a app = applied us' a (applied us a app) := List.foldl_append

/-- Updates keep the file of an application. -/
theorem sameFile_applied (us : List (Id × ApplicationData)) (a : Id) (app : Application) :
    app.SameFile (applied us a app) := by
  induction us generalizing app with
  | nil => exact .refl app
  | cons u us ih =>
      rw [applied_cons]
      split
      · exact (u.2.sameFile_set app).trans (ih _)
      · exact ih _

theorem applied_of_not_mem {us : List (Id × ApplicationData)} {a : Id} (app : Application)
    (h : ∀ u ∈ us, u.1 ≠ a) : applied us a app = app := by
  induction us generalizing app with
  | nil => rfl
  | cons u us ih =>
      rw [applied_cons, if_neg (h u (.head _))]
      exact ih app fun v hv => h v (.tail _ hv)

theorem find?_foldl_setApplication (us : List (Id × ApplicationData)) (apps : Table Application)
    (a : Id) : (us.foldl setApplication apps).find? a = (apps.find? a).map (applied us a) := by
  induction us generalizing apps with
  | nil => cases h : apps.find? a <;> simp [h]
  | cons u us ih =>
      rw [List.foldl_cons, ih]
      by_cases hau : u.1 = a
      · subst hau
        rw [setApplication, Table.find?_modify_self, Option.map_map]
        congr 1
        funext x
        simp
      · rw [setApplication, Table.find?_modify_ne _ _ _ (Ne.symm hau)]
        congr 1
        funext x
        simp [hau]

/-- An application after a list of events. -/
theorem replay_find_application (es : List Ev) (s : World) (a : Id) :
    (model.replay es s).applications.find? a =
      (s.applications.find? a).map (applied (updates es) a) := by
  rw [replay_applications, find?_foldl_setApplication]

theorem replay_file {es : List Ev} {s : World} {a : Id} {app : Application}
    (h : s.applications.find? a = some app) :
    ∃ app', (model.replay es s).applications.find? a = some app' ∧ app.SameFile app' :=
  ⟨_, by rw [replay_find_application, h]; rfl, sameFile_applied ..⟩

theorem file_of_replay {es : List Ev} {s : World} {a : Id} {app' : Application}
    (h : (model.replay es s).applications.find? a = some app') :
    ∃ app, s.applications.find? a = some app ∧ app.SameFile app' := by
  rw [replay_find_application, Option.map_eq_some_iff] at h
  obtain ⟨app, happ, rfl⟩ := h
  exact ⟨app, happ, sameFile_applied ..⟩

/-- Two calls whose locks are apart update different applications. -/
theorem updates_apart {es : List Ev} {l : Log} (h : l.Free model (model.writesOf es))
    {u v : Id × ApplicationData} (hu : u ∈ updates es) (hv : v ∈ updates l.pending) : u.1 ≠ v.1 := by
  have hwrite : ∀ {es : List Ev} {u : Id × ApplicationData}, u ∈ updates es →
      Write.application u.1 u.2 ∈ model.writesOf es := by
    intro es u hu
    rw [updates_eq, List.mem_filterMap] at hu
    obtain ⟨w, hw, hwu⟩ := hu
    cases w <;> simp only [Write.application?, reduceCtorEq, Option.some.injEq] at hwu
    exact hwu ▸ hw
  intro heq
  exact h _ (hwrite hu) _ (hwrite hv) _ rfl (congrArg (some <| Key.application ·) heq.symm)

/-! ## Payments, ledger rows and refunds -/

/-- The statements that update a payment. -/
theorem payment_of_write {e : Ev} {id : Id} {data : PaymentData}
    (h : Write.payment id data ∈ writes e.stmt e.ans) :
    e.stmt = .paymentUpdate id data ∨
      (∃ applicationId now, e.stmt = .paymentUpdateManyExpired applicationId now ∧
        data = { status := .EXPIRED }) ∨
      ∃ count : Nat, count ≠ 0 ∧ e = ⟨.paymentUpdateManyNotCompleted id data, count⟩ := by
  obtain ⟨q, a⟩ := e
  cases q <;> simp only [writes, List.mem_singleton, List.mem_map, List.not_mem_nil, reduceCtorEq,
    and_false, exists_false, Write.payment.injEq] at h
  case paymentUpdateManyExpired applicationId now =>
    obtain ⟨_, -, -, rfl⟩ := h
    exact .inr (.inl ⟨_, _, rfl, rfl⟩)
  case paymentUpdate =>
    obtain ⟨rfl, rfl⟩ := h
    exact .inl rfl
  case paymentUpdateManyNotCompleted =>
    split at h
    · cases h
    · next hne =>
        obtain ⟨rfl, rfl⟩ := Write.payment.inj (List.mem_singleton.1 h)
        exact .inr (.inr ⟨_, hne, rfl⟩)

theorem newPayment_of_write {e : Ev} {row : Payment}
    (h : Write.newPayment row ∈ writes e.stmt e.ans) : ∃ data, e = ⟨.paymentCreate data, row⟩ := by
  obtain ⟨q, a⟩ := e
  cases q <;> simp only [writes, List.mem_singleton, List.mem_map, List.not_mem_nil, reduceCtorEq,
    and_false, exists_false, Write.newPayment.injEq] at h
  case paymentCreate data => exact ⟨data, by rw [h]⟩
  case paymentUpdateManyNotCompleted =>
    split at h
    · cases h
    · cases List.mem_singleton.1 h

def applyPayment (t : Table Payment) : Write → Table Payment
  | .payment id data => t.modify id data.set data.key_set
  | .newPayment row => t.insert row
  | _ => t

theorem apply_payments (w : Write) (s : World) :
    (World.apply w s).payments = applyPayment s.payments w := by
  cases w <;> rfl

theorem applyAll_payments (ws : List Write) (s : World) :
    (model.applyAll ws s).payments = ws.foldl applyPayment s.payments :=
  model.applyAll_project World.payments (fun w t => applyPayment t w) apply_payments ws s

theorem apply_find_payment {w : Write} {id : Id} (h : w.key ≠ some (.payment id)) (s : World) :
    (World.apply w s).payments.find? id = s.payments.find? id := by
  cases w with
  | payment id' data => exact Table.find?_modify_ne _ _ data.key_set fun he => h (by rw [he]; rfl)
  | newPayment row => exact Table.find?_insert_ne _ fun he => h (by rw [he]; rfl)
  | _ => rfl

/-- Writes that lock no row of a payment leave it as it is. -/
theorem applyAll_find_payment {ws : List Write} {id : Id}
    (h : ∀ w ∈ ws, w.key ≠ some (.payment id)) (s : World) :
    (model.applyAll ws s).payments.find? id = s.payments.find? id :=
  @Model.applyAll_keeps _ model (fun t => t.payments.find? id = s.payments.find? id) ws
    (fun _ hw t ht => (apply_find_payment (h _ hw) t).trans ht) s rfl

/-- Writes that set no column of a payment that exists leave it as it is. -/
theorem applyAll_find_unset {ws : List Write} {s : World} {id : Id} {row : Payment}
    (h : s.payments.find? id = some row) (hws : ∀ data, Write.payment id data ∉ ws) :
    (model.applyAll ws s).payments.find? id = some row := by
  refine @Model.applyAll_keeps _ model (fun t => t.payments.find? id = some row) ws
    (fun w hw t ht => ?_) s h
  cases w with
  | payment id' data =>
      exact (Table.find?_modify_ne _ _ data.key_set (by rintro rfl; exact hws data hw)).trans ht
  | newPayment row => exact Table.find?_insert_of_find? ht
  | _ => exact ht

theorem applyAll_payments_same {ws : List Write} (hset : ∀ id data, Write.payment id data ∉ ws)
    (hnew : ∀ row, Write.newPayment row ∉ ws) (s : World) :
    (model.applyAll ws s).payments = s.payments := by
  refine @Model.applyAll_keeps _ model (fun t => t.payments = s.payments) ws
    (fun w hw t ht => ?_) s rfl
  cases w with
  | payment id data => exact absurd hw (hset id data)
  | newPayment row => exact absurd hw (hnew row)
  | _ => exact ht

/-- Writes that confirm no payment add none to the confirmed ones. -/
theorem completed_of_applyAll {ws : List Write} {s : World}
    (hset : ∀ id data, Write.payment id data ∈ ws → data.status ≠ .COMPLETED)
    (hnew : ∀ row, Write.newPayment row ∈ ws → row.status ≠ .COMPLETED) {row : Payment}
    (hrow : row ∈ (model.applyAll ws s).payments) (hst : row.status = .COMPLETED) :
    row ∈ s.payments := by
  refine @Model.applyAll_keeps _ model
    (fun t => ∀ row ∈ t.payments, row.status = .COMPLETED → row ∈ s.payments) ws
    (fun w hw t ht row hrow hst => ?_) s (fun _ h _ => h) row hrow hst
  cases w with
  | payment id data =>
      have hrow : row ∈ t.payments.modify id data.set data.key_set := hrow
      obtain ⟨r, hr, rfl⟩ := Table.mem_modify.1 hrow
      split at hst
      · exact absurd hst (hset id data hw)
      · next hne => exact ht _ (by rwa [if_neg hne]) (by rwa [if_neg hne])
  | newPayment new =>
      rcases Table.mem_of_mem_insert hrow with hrow | heq
      · exact ht row hrow hst
      · exact absurd (heq ▸ hst) (hnew new hw)
  | _ => exact ht row hrow hst

/-- What no update of a payment changes. -/
structure Payment.SameFile (a b : Payment) : Prop where
  id : b.id = a.id
  applicationId : b.applicationId = a.applicationId
  amount : b.amount = a.amount
  reference : b.reference = a.reference

theorem Payment.SameFile.refl (a : Payment) : a.SameFile a := ⟨rfl, rfl, rfl, rfl⟩

theorem Payment.SameFile.trans {a b c : Payment} (h : a.SameFile b) (h' : b.SameFile c) :
    a.SameFile c :=
  ⟨h'.id.trans h.id, h'.applicationId.trans h.applicationId, h'.amount.trans h.amount,
    h'.reference.trans h.reference⟩

theorem PaymentData.sameFile_set (d : PaymentData) (p : Payment) : p.SameFile (d.set p) :=
  ⟨rfl, rfl, rfl, rfl⟩

/-- Writes keep the file of a payment. -/
theorem applyAll_payment_file (ws : List Write) {s : World} {id : Id} {row : Payment}
    (h : s.payments.find? id = some row) :
    ∃ row', (model.applyAll ws s).payments.find? id = some row' ∧ row.SameFile row' := by
  refine @Model.applyAll_keeps _ model
    (fun t => ∃ row', t.payments.find? id = some row' ∧ row.SameFile row') ws
    (fun w hw t ht => ?_) s ⟨row, h, .refl row⟩
  obtain ⟨row', hrow', hsame⟩ := ht
  cases w with
  | payment id' data =>
      by_cases hid : id = id'
      · subst hid
        refine ⟨data.set row', ?_, hsame.trans (data.sameFile_set row')⟩
        exact (Table.find?_modify_self _ _ _ data.key_set).trans (by rw [hrow']; rfl)
      · exact ⟨row', (Table.find?_modify_ne _ _ data.key_set hid).trans hrow', hsame⟩
  | newPayment new => exact ⟨row', Table.find?_insert_of_find? hrow', hsame⟩
  | _ => exact ⟨row', hrow', hsame⟩

theorem newTransaction_of_write {e : Ev} {row : Transaction}
    (h : Write.newTransaction row ∈ writes e.stmt e.ans) : e = ⟨.transactionCreate row, ()⟩ := by
  obtain ⟨q, a⟩ := e
  cases q <;> simp only [writes, List.mem_singleton, List.mem_map, List.not_mem_nil, reduceCtorEq,
    and_false, exists_false, Write.newTransaction.injEq] at h
  case transactionCreate => rw [h]
  case paymentUpdateManyNotCompleted =>
    split at h
    · cases h
    · cases List.mem_singleton.1 h

theorem newRefund_of_write {e : Ev} {row : Refund}
    (h : Write.newRefund row ∈ writes e.stmt e.ans) : e = ⟨.refundCreate row, ()⟩ := by
  obtain ⟨q, a⟩ := e
  cases q <;> simp only [writes, List.mem_singleton, List.mem_map, List.not_mem_nil, reduceCtorEq,
    and_false, exists_false, Write.newRefund.injEq] at h
  case refundCreate => rw [h]
  case paymentUpdateManyNotCompleted =>
    split at h
    · cases h
    · cases List.mem_singleton.1 h

theorem apply_find_transaction {w : Write} {id : Id} (h : w.key ≠ some (.transaction id))
    (s : World) : (World.apply w s).transactions.find? id = s.transactions.find? id := by
  cases w with
  | newTransaction row => exact Table.find?_insert_ne _ fun he => h (by rw [he]; rfl)
  | _ => rfl

theorem applyAll_find_transaction {ws : List Write} {id : Id}
    (h : ∀ w ∈ ws, w.key ≠ some (.transaction id)) (s : World) :
    (model.applyAll ws s).transactions.find? id = s.transactions.find? id :=
  @Model.applyAll_keeps _ model (fun t => t.transactions.find? id = s.transactions.find? id) ws
    (fun _ hw t ht => (apply_find_transaction (h _ hw) t).trans ht) s rfl

theorem paymentFindFirst_of_exec {applicationId : Id} {statuses : List PaymentStatus}
    {notId : Option Id} {c : Choice} {s : World}
    (h : exec (.paymentFindFirst applicationId statuses notId) c s = some none) :
    ∀ q ∈ s.payments, q.applicationId = some applicationId → notId ≠ some q.id →
      q.status ∉ statuses := by
  cases c <;> simp only [exec, reduceCtorEq, Option.some.injEq] at h
  rw [pick_eq_none, World.paymentsIn, List.filter_eq_nil_iff] at h
  intro q hq happ hne hst
  exact h q hq (decide_eq_true ⟨happ, hst, hne⟩)

theorem paymentFindFirst_steady (applicationId : Id) (statuses : List PaymentStatus)
    (notId : Option Id) :
    Pool.Steady model (.paymentFindFirst applicationId statuses notId) := by
  intro e c es s
  have hsame : (model.replay es (tick e s)).payments = (model.replay es s).payments := by
    rw [Model.replay, Model.replay, applyAll_payments, applyAll_payments]
    rfl
  cases c <;> simp only [exec, World.paymentsIn, hsame]

end GetPlatform.Admission
