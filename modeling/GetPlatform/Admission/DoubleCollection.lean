import GetPlatform.Admission.Settlement

set_option autoImplicit false

/-! # An application that is paid twice

A delivery that confirms a payment looks for another completed payment of the application, and
leaves an alert if there is one. Two payments that are both completed are never passed over in
silence in a run in which a lookup that found nothing would still find nothing when its transaction
commits. Under READ COMMITTED it may: two deliveries, for two payments of one application, can look
before either has committed. -/

namespace GetPlatform.Admission

open Pool

/-- The timeline of application `a` has an alert for the payment, or a refund is due for it. -/
def Flagged (s : World) (a : Id) (pay : Payment) : Prop :=
  (∃ entry ∈ s.timeline, entry.applicationId = a ∧ entry.note = .lateWebhook pay.reference) ∨
    s.refunds.contains pay.id = true

/-- Of two completed payments of one application, one is flagged. -/
def NoSilentDouble (s : World) : Prop :=
  ∀ p ∈ s.payments, ∀ q ∈ s.payments, ∀ a, p.applicationId = some a → q.applicationId = some a →
    p.id ≠ q.id → p.status = .COMPLETED → q.status = .COMPLETED → Flagged s a p ∨ Flagged s a q

/-! ## The condition -/

/-- If the event looked for another completed payment of an application and found none, there is
    none in `s`. -/
def StillNone (s : World) : Ev → Prop
  | ⟨.paymentFindFirst a [.COMPLETED] (some id), none⟩ =>
      ∀ q ∈ s.payments.rows, q.applicationId = some a → q.id ≠ id → q.status ≠ .COMPLETED
  | _ => True

instance (s : World) (e : Ev) : Decidable (StillNone s e) := by
  unfold StillNone
  split <;> infer_instance

/-- What a transaction looked for in vain is still not there when it commits. -/
def lookupFresh (p : Platform) : Step model Op → Prop
  | .exec i _ => ∀ t ∈ p.threads[i]?, t.commits = true → ∀ e ∈ t.trace.pending, StillNone p.db e
  | _ => True

instance (p : Platform) (a : Step model Op) : Decidable (lookupFresh p a) :=
  match a with
  | .exec .. => by dsimp only [lookupFresh]; infer_instance
  | .spawn _ | .fault .. | .crash _ | .env _ => inferInstanceAs (Decidable True)

/-! ## The invariant -/

theorem Flagged.applyAll {s : World} {a : Id} {pay : Payment} (h : Flagged s a pay)
    (ws : List Write) : Flagged (model.applyAll ws s) a pay := by
  refine @Model.applyAll_keeps _ model (fun t => Flagged t a pay) ws (fun w _ t ht => ?_) s h
  rcases ht with ⟨entry, hentry, hrest⟩ | hrefund
  · cases w with
    | timeline e => exact .inl ⟨entry, List.mem_append_left _ hentry, hrest⟩
    | _ => exact .inl ⟨entry, hentry, hrest⟩
  · refine .inr ?_
    cases w with
    | newRefund row => exact Table.contains_insert hrefund
    | refund id st at' => exact (Table.contains_modify _ _ _ _ (Refund.key_process st at')).trans hrefund
    | _ => exact hrefund

theorem Flagged.of_same {s : World} {a : Id} {p q : Payment} (h : Flagged s a p)
    (hsame : p.SameFile q) : Flagged s a q := by
  rwa [Flagged, hsame.id, hsame.reference]

/-- What the delivery wrote into the timeline is there after the commit. -/
theorem flagged_of_entry {s : World} {l : Log} {pay : Payment} {entry : TimelineEntry}
    (hnote : entry.note = .lateWebhook pay.reference)
    (h : (⟨.timelineCreate entry, ()⟩ : Ev) ∈ l.pending) :
    Flagged (l.view model s) entry.applicationId pay := by
  obtain ⟨pre, suf, hpending⟩ := List.append_of_mem h
  rw [Trace.view, hpending, Model.replay_append, Model.replay_cons]
  refine Flagged.applyAll (.inl ⟨entry, ?_, rfl, hnote⟩) _
  exact List.mem_append_right _ (.head _)

/-- The payment a commit completes is flagged, if another one of the application is completed. -/
theorem flagged_of_concluding {s : World} {l : Log} (hl : Settles s l) (hcommit : guards.commit l)
    (hfresh : ∀ e ∈ l.pending, StillNone s e) {ref : Id} {pay : Payment} {data : PaymentData}
    (hc : Concluding l ref pay data) (hst : data.status = .COMPLETED) {a : Id}
    (happ : pay.applicationId = some a) {q : Payment} (hq : q ∈ s.payments)
    (hqa : q.applicationId = some a) (hne : q.id ≠ pay.id) (hqst : q.status = .COMPLETED) :
    Flagged (l.view model s) a pay := by
  obtain ⟨ref', pay', hfound, -, halert⟩ :=
    settlementCommit hcommit hc.delivers ⟨pay.id, data, hc.claims, hst⟩
  obtain ⟨-, rfl⟩ := hl.once _ _ _ _ (Trace.mem_events.2 (.inl hc.found))
    (Trace.mem_events.2 (.inl hfound))
  rcases halert a happ with hnone | ⟨entry, rfl, hnote, hmem⟩
  · exact absurd hqst (hfresh _ hnone q hq hqa hne)
  · exact flagged_of_entry hnote hmem

theorem NoSilentDouble.of_changes {p : Platform} {s' : model.State} (h : NoSilentDouble p.db)
    (hholds : Holds (fun _ => True) Settles (fun _ _ => True) p)
    (hc : Changes guards lookupFresh p s') : NoSilentDouble s' := by
  cases hc with
  | none => exact h
  | env e => exact h
  | @call i c t q a hcall htx =>
      intro x hx y hy app hxa hya hne hxst hyst
      exact (h x (completed_of_call hcall.guard htx hx hxst) y
        (completed_of_call hcall.guard htx hy hyst) app hxa hya hne hxst hyst).imp
        (·.applyAll _) (·.applyAll _)
  | @commit i c t tx hcommit =>
      intro x hx y hy app hxa hya hne hxst hyst
      have hl := hholds.thread i t hcommit.here
      have hfresh := hcommit.allowed t hcommit.here hcommit.next
      rcases hl.completed_of_view hx hxst with hx | ⟨ref, pay, data, r, hc, hst, hr, hsame, rfl⟩
      · rcases hl.completed_of_view hy hyst with hy | ⟨ref, pay, data, r, hc, hst, hr, hsame, rfl⟩
        · exact (h x hx y hy app hxa hya hne hxst hyst).imp (·.applyAll _) (·.applyAll _)
        · have hfile := hsame.trans (data.sameFile_set r)
          exact .inr ((flagged_of_concluding hl hcommit.guard hfresh hc hst
            (hfile.applicationId ▸ hya) hx hxa (hfile.id ▸ hne) hxst).of_same hfile)
      · have hfile := hsame.trans (data.sameFile_set r)
        rcases hl.completed_of_view hy hyst with
          hy | ⟨ref', pay', data', r', hc', -, -, hsame', rfl⟩
        · exact .inl ((flagged_of_concluding hl hcommit.guard hfresh hc hst
            (hfile.applicationId ▸ hxa) hy hya (hfile.id ▸ Ne.symm hne) hyst).of_same hfile)
        · -- A transaction completes one payment only.
          have hid := (hc.only _ _ hc'.claims).1
          exact absurd (hfile.id.trans (hid.symm.trans
            (hsame'.trans (data'.sameFile_set r')).id.symm)) hne

/-! ## Every run -/

/-- **A double collection is never silent.** In every run whose steps meet `lookupFresh`, of two
    completed payments of one application at least one has an alert or a refund. -/
theorem no_silent_double {s₀ : World} (h₀ : NoSilentDouble s₀) {p : Platform}
    (hrun : Run prog lookupFresh (idle s₀) p) : NoSilentDouble p.db := by
  induction hrun with
  | refl => exact h₀
  | @step p p' a hrun hR hs ih =>
      obtain ⟨hsound, hholds⟩ := settles (hrun.mono fun _ _ _ => trivial)
      exact ih.of_changes hholds (hsound.changes hR hs)

/-- Is payment `id` a completed payment of application 1? -/
def collected (s : World) (id : Id) : Bool :=
  (s.payments.find? id).any fun p => p.applicationId = some 1 ∧ p.status = .COMPLETED

/-- Both payments are completed, one after the other. -/
def oneAfterTheOther : List (Step model Op) :=
  paidTwice ++ confirmCommands 2 70 ++ commands 2 16 ++ confirmCommands 3 71 ++ commands 3 9

theorem no_silent_double_oneAfterTheOther :
    ∃ p : Platform, Run prog lookupFresh (idle enrollableFile) p ∧
      (collected p.db 1 = true ∧ collected p.db 2 = true) ∧ NoSilentDouble p.db := by
  have hplay : ((idle enrollableFile : Platform).play prog lookupFresh oneAfterTheOther).any
      (fun p => collected p.db 1 = true ∧ collected p.db 2 = true) = true := by
    decide +kernel
  obtain ⟨p, hrun, hboth⟩ := exists_run_of_play hplay
  refine ⟨p, hrun, of_decide_eq_true hboth, no_silent_double ?_ hrun⟩
  rintro _ ⟨⟩

/-- Both deliveries look for another completed payment before either commits. -/
def atTheSameTime : List (Step model Op) :=
  paidTwice ++ confirmCommands 2 70 ++ commands 2 5 ++ confirmCommands 3 71 ++ commands 3 5 ++
    commands 2 11 ++ commands 3 11

/-- Is there no alert and no refund? -/
def silent (s : World) : Bool :=
  s.refunds.rows.isEmpty && s.timeline.all fun e => match e.note with
    | .lateWebhook _ => false
    | _ => true

theorem not_flagged_of_silent {s : World} (h : silent s = true) (a : Id) (pay : Payment) :
    ¬ Flagged s a pay := by
  simp only [silent, Bool.and_eq_true, List.isEmpty_iff, List.all_eq_true] at h
  rintro (⟨entry, hentry, -, hnote⟩ | hrefund)
  · have := h.2 entry hentry
    simp [hnote] at this
  · simp [Table.contains, Table.find?, h.1] at hrefund

/-- Without the condition both are completed in silence. -/
theorem not_no_silent_double :
    ¬ ∀ s₀ : World, NoSilentDouble s₀ → ∀ p : Platform, Run prog anyStep (idle s₀) p →
        NoSilentDouble p.db := by
  intro h
  have hplay : ((idle enrollableFile : Platform).play prog anyStep atTheSameTime).any (fun p =>
      collected p.db 1 = true ∧ collected p.db 2 = true ∧ silent p.db = true) = true := by
    decide +kernel
  obtain ⟨p, hrun, hbad⟩ := exists_run_of_play hplay
  obtain ⟨h₁, h₂, hsilent⟩ := of_decide_eq_true hbad
  obtain ⟨x, hx, hx'⟩ := (Option.any_eq_true ..).1 h₁
  obtain ⟨y, hy, hy'⟩ := (Option.any_eq_true ..).1 h₂
  obtain ⟨hxapp, hxst⟩ := of_decide_eq_true hx'
  obtain ⟨hyapp, hyst⟩ := of_decide_eq_true hy'
  have hne : x.id ≠ y.id := by
    have hxid : x.id = 1 := Table.key_of_find? hx
    have hyid : y.id = 2 := Table.key_of_find? hy
    rw [hxid, hyid]
    decide
  rcases h enrollableFile (by rintro _ ⟨⟩) p hrun x (Table.mem_of_find? hx) y
    (Table.mem_of_find? hy) 1 hxapp hyapp hne hxst hyst with hflag | hflag <;>
    exact not_flagged_of_silent hsilent _ _ hflag

end GetPlatform.Admission
