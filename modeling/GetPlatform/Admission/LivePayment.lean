import GetPlatform.Admission.Settlement

set_option autoImplicit false

/-! # One live payment per application

`initiatePayment` looks for a payment under way and creates a new one in a serializable transaction,
so two payments are never created side by side. The write that follows the call to the provider is
keyed by the payment alone: it can bring back a payment that was swept in the meantime. An
application has one live payment at most in every run in which each such write finds its payment
still live, or no other payment of its application under way. -/

namespace GetPlatform.Admission

open Pool

/-- At most one payment of each application is PENDING or PROCESSING. -/
def LiveUnique (t : Table Payment) : Prop :=
  ∀ p ∈ t, ∀ q ∈ t, ∀ a, p.applicationId = some a → q.applicationId = some a →
    p.status.live = true → q.status.live = true → p.id = q.id

/-! ## The condition -/

/-- Payment `id` is live, or its application has no live payment. -/
def Room (t : Table Payment) (id : Id) : Prop :=
  ∀ p ∈ t.find? id, p.status.live = true ∨
    ∀ q ∈ t.rows, q.applicationId = p.applicationId → q.status.live = false

instance (t : Table Payment) (id : Id) : Decidable (Room t id) :=
  inferInstanceAs (Decidable (∀ p ∈ t.find? id, _))

/-- Whoever sets a payment to PROCESSING finds room for it. -/
def roomFound (p : Platform) : Step model Op → Prop
  | .exec i _ => ∀ t ∈ p.threads[i]?, match t.next? with
      | some (.paymentUpdate id data) => data.status = .PROCESSING → Room p.db.payments id
      | _ => True
  | _ => True

instance (p : Platform) (a : Step model Op) : Decidable (roomFound p a) :=
  match a with
  | .exec i _ => @Option.decidableForallMem _ _ (fun t => by dsimp only; split <;> infer_instance) p.threads[i]?
  | .spawn _ | .fault .. | .crash _ | .env _ => inferInstanceAs (Decidable True)

/-! ## What the writes do -/

theorem LiveUnique.modify {t : Table Payment} (h : LiveUnique t) {id : Id} {data : PaymentData}
    (hroom : data.status.live = true → Room t id) :
    LiveUnique (t.modify id data.set data.key_set) := by
  -- A live row of the new table is a row of the old one, or the row that was set.
  have hlive : ∀ p' ∈ t.modify id data.set data.key_set, p'.status.live = true →
      p' ∈ t ∧ p'.id ≠ id ∨ ∃ p, t.find? id = some p ∧ p' = data.set p ∧ data.status.live = true := by
    intro p' hp' hlive
    obtain ⟨p, hp, rfl⟩ := Table.mem_modify.1 hp'
    by_cases hid : Keyed.key p = id
    · rw [if_pos hid] at hlive ⊢
      exact .inr ⟨p, Table.find?_eq_some.2 ⟨hp, hid⟩, rfl, hlive⟩
    · rw [if_neg hid]
      exact .inl ⟨hp, hid⟩
  -- The row that was set has no live sibling.
  have halone : ∀ p, t.find? id = some p → data.status.live = true → ∀ q ∈ t, q.id ≠ id → ∀ a,
      p.applicationId = some a → q.applicationId = some a → q.status.live = true → False := by
    intro p hp hd q hq hne a hpa hqa hqlive
    have hpid : p.id = id := Table.key_of_find? hp
    rcases hroom hd p hp with hplive | hnone
    · exact hne ((h p (Table.mem_of_find? hp) q hq a hpa hqa hplive hqlive).symm.trans hpid)
    · simp [hnone q hq (hqa.trans hpa.symm)] at hqlive
  intro p' hp' q' hq' a hpa hqa hplive hqlive
  rcases hlive p' hp' hplive with ⟨hp, hpne⟩ | ⟨p, hp, rfl, hd⟩
  · rcases hlive q' hq' hqlive with ⟨hq, -⟩ | ⟨q, hq, rfl, hd⟩
    · exact h p' hp q' hq a hpa hqa hplive hqlive
    · exact (halone q hq hd p' hp hpne a hqa hpa hplive).elim
  · rcases hlive q' hq' hqlive with ⟨hq, hqne⟩ | ⟨q, hq, rfl, -⟩
    · exact (halone p hp hd q' hq hqne a hpa hqa hqlive).elim
    · obtain rfl := Option.some.inj (hp.symm.trans hq)
      rfl

theorem LiveUnique.insert {t : Table Payment} (h : LiveUnique t) {row : Payment} {a : Id}
    (hrow : row.applicationId = some a)
    (hnone : ∀ q ∈ t, q.applicationId = some a → q.status.live = false) :
    LiveUnique (t.insert row) := by
  intro p hp q hq b hpb hqb hplive hqlive
  rcases Table.mem_of_mem_insert hp with hp | hp
  · rcases Table.mem_of_mem_insert hq with hq | hq
    · exact h p hp q hq b hpb hqb hplive hqlive
    · obtain rfl := Option.some.inj (hrow.symm.trans (hq ▸ hqb))
      simp [hnone p hp hpb] at hplive
  · rcases Table.mem_of_mem_insert hq with hq | hq
    · obtain rfl := Option.some.inj (hrow.symm.trans (hp ▸ hpb))
      simp [hnone q hq hqb] at hqlive
    · rw [hp, hq]

/-- Writes that create no payment and revive none. -/
theorem LiveUnique.applyAll {ws : List Write} {s : World} (h : LiveUnique s.payments)
    (hdead : ∀ id data, Write.payment id data ∈ ws → data.status.live = false)
    (hnew : ∀ row, Write.newPayment row ∉ ws) : LiveUnique (model.applyAll ws s).payments := by
  refine @Model.applyAll_keeps _ model (fun t => LiveUnique t.payments) ws (fun w hw t ht => ?_) s h
  cases w with
  | payment id data => exact ht.modify fun hlive => by simp [hdead id data hw] at hlive
  | newPayment row => exact absurd hw (hnew row)
  | _ => exact ht

/-! ## The invariant -/

/-- The open transaction of a call revives no payment, and creates one for `initiatePayment` only. -/
structure Concludes (l : Log) : Prop where
  dead : ∀ id data, Write.payment id data ∈ model.writesOf l.pending → data.status.live = false
  creates : ∀ row, Write.newPayment row ∈ model.writesOf l.pending → l.op.creates = true
  row : ∀ data row, (⟨.paymentCreate data, row⟩ : Ev) ∈ l.pending →
    row.applicationId = data.applicationId

theorem concludes_of_nil {l : Log} (h : l.pending = []) : Concludes l := by
  refine ⟨?_, ?_, ?_⟩ <;> simp [h, Model.writesOf]

theorem Concludes.push {l : Log} {x : Tx interface} {q : Stmt} {a : Ans q} {c : Choice} {s : World}
    (h : Concludes l) (htx : l.tx = some x) (hguard : guards.stmt l q)
    (hexec : exec q c (l.view model s) = some a) : Concludes (l.push ⟨q, a⟩) := by
  have hpending : (l.push ⟨q, a⟩).pending = l.pending ++ [⟨q, a⟩] := by
    simp [Trace.push_of_some htx, Trace.pending, htx]
  have hwrites : model.writesOf (l.push ⟨q, a⟩).pending =
      model.writesOf l.pending ++ writes q a := by
    rw [hpending]
    simp [Model.writesOf]
  refine ⟨fun id data hw => ?_, fun row hw => ?_, fun data row he => ?_⟩
  · rw [hwrites, List.mem_append] at hw
    rcases hw with hw | hw
    · exact h.dead id data hw
    · rcases payment_of_write (e := ⟨q, a⟩) hw with rfl | ⟨_, _, rfl, rfl⟩ | ⟨count, -, heq⟩
      · simp [hguard.2.1] at htx
      · rfl
      · obtain ⟨rfl, -⟩ := Event.mk.inj heq
        obtain ⟨-, -, -, hstatus⟩ := hguard.2
        rcases hstatus with hst | hst <;> rw [hst] <;> rfl
  · rw [Trace.push_op]
    rw [hwrites, List.mem_append] at hw
    rcases hw with hw | hw
    · exact h.creates row hw
    · obtain ⟨data, heq⟩ := newPayment_of_write (e := ⟨q, a⟩) hw
      obtain ⟨rfl, -⟩ := Event.mk.inj heq
      exact hguard.2.1
  · rw [hpending, List.mem_append, List.mem_singleton] at he
    rcases he with he | heq
    · exact h.row data row he
    · obtain ⟨rfl, heq⟩ := Event.mk.inj heq
      obtain rfl := eq_of_heq heq
      cases c <;> simp only [exec, reduceCtorEq] at hexec
      split at hexec
      · cases hexec
      · exact Option.some.inj hexec ▸ rfl

/-- The commit of `initiatePayment`: after the sweep nothing was under way, and nothing else could
    happen until the payment was created. -/
theorem LiveUnique.creation {s : World} {l : Log} (h : LiveUnique s.payments) (hl : Concludes l)
    (hseen : l.Exclusive → Seen model s l) (hcommit : CreationCommit l) :
    LiveUnique (l.view model s).payments := by
  obtain ⟨a, t, ids, t', data, row, hdata, -, hexclusive, hpending⟩ := hcommit
  have hswept : LiveUnique (model.replay [⟨.now, t⟩, ⟨.paymentUpdateManyExpired a t, ids⟩] s).payments := by
    refine h.applyAll (fun id data hw => hl.dead id data ?_) fun row hw => ?_
    · rw [hpending]
      simp only [Model.writesOf, List.flatMap_cons, List.mem_append] at hw ⊢
      tauto
    · simp [Model.writesOf, writes] at hw
  obtain ⟨c, hc⟩ := hseen hexclusive [⟨.now, t⟩, ⟨.paymentUpdateManyExpired a t, ids⟩] _ _ hpending
    (paymentFindFirst_steady _ _ _)
  have hnone := paymentFindFirst_of_exec hc
  have hrow : row.applicationId = some a := by
    rw [← hdata]
    exact hl.row data row (by simp [hpending])
  have hview : (l.view model s).payments =
      (model.replay [⟨.now, t⟩, ⟨.paymentUpdateManyExpired a t, ids⟩] s).payments.insert row := by
    rw [Trace.view, hpending]
    exact congrArg World.payments (model.replay_append [_, _] [_, _, _] s)
  rw [hview]
  refine hswept.insert hrow fun q hq happ => ?_
  have hst := hnone q hq happ (by simp)
  revert hst
  cases q.status <;> simp [PaymentStatus.live]

theorem live_rules : Rules (ε := Err) (α := Reply) guards roomFound
    (fun s => LiveUnique s.payments) (fun _ => Concludes) (fun _ _ => True) where
  symm _ _ _ := trivial
  start _ _ _ _ := concludes_of_nil rfl
  start_pair _ _ _ _ _ := trivial
  env _ _ _ h := ⟨h, fun _ hl => hl⟩
  drop _ _ _ := concludes_of_nil rfl
  drop_pair _ _ _ := trivial
  openTx _ _ _ _ _ := concludes_of_nil rfl
  openTx_pair _ _ _ _ _ := trivial
  call p i c t q a h hcall htx := by
    refine ⟨?_, concludes_of_nil ?_, fun u hu => ⟨h.other hu, trivial⟩⟩
    · by_cases hq : ∃ id data, q = .paymentUpdate id data
      · obtain ⟨id, data, rfl⟩ := hq
        refine h.db.modify fun hlive => ?_
        have hroom := hcall.allowed t hcall.here
        rw [hcall.next] at hroom
        obtain ⟨-, -, -, hst | hst⟩ := hcall.guard.2
        · exact hroom hst
        · rw [hst] at hlive
          cases hlive
      · refine h.db.applyAll (fun id data hw => ?_) fun row hw => ?_
        · rcases payment_of_write (e := ⟨q, a⟩) hw with rfl | ⟨_, _, rfl, rfl⟩ | ⟨_, -, heq⟩
          · exact absurd ⟨_, _, rfl⟩ hq
          · rfl
          · obtain ⟨rfl, -⟩ := Event.mk.inj heq
            obtain ⟨-, ⟨x, hx, -⟩, -⟩ := hcall.guard.2
            simp [htx] at hx
        · obtain ⟨data, heq⟩ := newPayment_of_write (e := ⟨q, a⟩) hw
          obtain ⟨rfl, -⟩ := Event.mk.inj heq
          obtain ⟨-, ⟨x, hx, -⟩, -⟩ := hcall.guard.2
          simp [htx] at hx
    · simp [Trace.push_of_none htx, Trace.pending, htx]
  callTx p i c t q a x h hcall htx :=
    ⟨(h.thread i t hcall.here).push htx hcall.guard hcall.exec, fun _ _ => trivial⟩
  commit p i c t x h hcommit := by
    refine ⟨?_, concludes_of_nil rfl, fun u hu => ⟨h.other hu, trivial⟩⟩
    have hl := h.thread i t hcommit.here
    cases hop : t.trace.op.creates with
    | true => exact h.db.creation hl hcommit.seen (creationCommit hcommit.guard hop)
    | false =>
        refine h.db.applyAll hl.dead fun row hw => ?_
        simp [hl.creates row hw] at hop

/-! ## Every run -/

/-- **One live payment per application.** In every run whose steps meet `roomFound`, at most one
    payment of each application is PENDING or PROCESSING, if it was so at the start. -/
theorem live_payment_unique {s₀ : World} (h₀ : LiveUnique s₀.payments) {p : Platform}
    (hrun : Run prog roomFound (idle s₀) p) : LiveUnique p.db.payments :=
  (live_rules.holds (fun _ o _ => prog_conforms o) h₀ hrun).2.db

/-- The identifiers of the live payments of an application. -/
def livePayments (s : World) (a : Id) : List Id :=
  (s.payments.rows.filter fun p => p.applicationId = some a ∧ p.status.live).map (·.id)

/-- Payment 1 runs out before the provider answers; payment 2 takes its place and is started. -/
def replaced : List (Step model Op) :=
  createCommands 0 1 ++ .env 900001 :: createCommands 1 2 ++ startCommands 1 71

/-- Payment 2 is the one live payment of the application. -/
theorem live_payment_unique_replaced :
    ∃ p : Platform, Run prog roomFound (idle enrollableFile) p ∧ livePayments p.db 1 = [2] ∧
      LiveUnique p.db.payments := by
  have hplay : ((idle enrollableFile : Platform).play prog roomFound replaced).any
      (fun p => livePayments p.db 1 = [2]) = true := by
    decide +kernel
  obtain ⟨p, hrun, hlive⟩ := exists_run_of_play hplay
  refine ⟨p, hrun, of_decide_eq_true hlive, live_payment_unique ?_ hrun⟩
  rintro _ ⟨⟩

/-- The provider answers for payment 1 after payment 2 has taken its place. -/
def lateStart : List (Step model Op) :=
  createCommands 0 1 ++ .env 900001 :: createCommands 1 2 ++ startCommands 0 70

/-- Without the condition the late write revives the expired payment. -/
theorem not_live_payment_unique :
    ¬ ∀ s₀ : World, LiveUnique s₀.payments → ∀ p : Platform, Run prog anyStep (idle s₀) p →
        LiveUnique p.db.payments := by
  intro h
  have hplay : ((idle enrollableFile : Platform).play prog anyStep lateStart).any (fun p =>
      (p.db.payments.find? 1).any (fun x => x.applicationId = some 1 ∧ x.status = .PROCESSING) ∧
      (p.db.payments.find? 2).any (fun x => x.applicationId = some 1 ∧ x.status = .PENDING)) =
        true := by
    decide +kernel
  obtain ⟨p, hrun, hbad⟩ := exists_run_of_play hplay
  obtain ⟨h₁, h₂⟩ := of_decide_eq_true hbad
  obtain ⟨x, hx, hx'⟩ := (Option.any_eq_true ..).1 h₁
  obtain ⟨y, hy, hy'⟩ := (Option.any_eq_true ..).1 h₂
  obtain ⟨hxapp, hxst⟩ := of_decide_eq_true hx'
  obtain ⟨hyapp, hyst⟩ := of_decide_eq_true hy'
  have hid := h enrollableFile (by rintro _ ⟨⟩) p hrun x (Table.mem_of_find? hx) y
    (Table.mem_of_find? hy) 1 hxapp hyapp (by rw [hxst]; rfl) (by rw [hyst]; rfl)
  have hxid : x.id = 1 := Table.key_of_find? hx
  have hyid : y.id = 2 := Table.key_of_find? hy
  exact absurd (hxid.symm.trans (hid.trans hyid)) (by decide)

end GetPlatform.Admission
