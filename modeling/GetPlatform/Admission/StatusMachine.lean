import GetPlatform.Admission.Frames

set_option autoImplicit false

/-! # The state machine of an application

Five operations write the status of an application, each after a check of the transition against a
status it read earlier, and each by identifier alone. The transitions stay within
`APPLICATION_STATUS_TRANSITIONS` in every run in which an application still has, when its status is
written, the status that the writing call read. A call whose reading has gone stale can take an
application out of a terminal status. -/

namespace GetPlatform.Admission

open Pool

/-! ## The condition -/

/-- The call sees application `a` in every status it has read it in. -/
def Unmoved (s : World) (l : Log) (a : Id) : Prop :=
  ∀ st ∈ statusesRead l.events a,
    ((l.view model s).applications.find? a).any (·.status = st) = true

instance (s : World) (l : Log) (a : Id) : Decidable (Unmoved s l a) :=
  inferInstanceAs (Decidable (∀ st ∈ _, _))

/-- Whoever writes the status of an application finds it in the status it read. -/
def statusUnmoved (p : Platform) : Step model Op → Prop
  | .exec i _ => ∀ t ∈ p.threads[i]?, match t.next? with
      | some (.applicationUpdate a _) => Unmoved p.db t.trace a
      | _ => True
  | _ => True

/-- The application whose row the call is about to update. -/
def updating (t : Thread interface Op Err Reply) : Option Id :=
  match t.next? with
  | some (.applicationUpdate a _) => some a
  | _ => none

theorem statusUnmoved_exec {p : Platform} {i : Nat} {c : Choice} :
    statusUnmoved p (.exec i c) ↔
      ∀ t ∈ p.threads[i]?, ∀ a ∈ updating t, Unmoved p.db t.trace a := by
  refine forall₂_congr fun t _ => ?_
  rw [updating]
  split <;> simp

instance (p : Platform) (a : Step model Op) : Decidable (statusUnmoved p a) :=
  match a with
  | .exec .. => decidable_of_iff _ statusUnmoved_exec.symm
  | .spawn _ | .fault .. | .crash _ | .env _ => inferInstanceAs (Decidable True)

/-! ## The invariant -/

/-- What the open transaction of a call makes of each application is a valid transition from its
    stored status, which the call has read. -/
structure Steps (s : World) (l : Log) : Prop where
  read : ∀ u ∈ updates l.pending, ∃ app, s.applications.find? u.1 = some app ∧
    app.status ∈ statusesRead l.events u.1
  valid : ∀ a app, s.applications.find? a = some app →
    ValidTransition app.status (applied (updates l.pending) a app).status

theorem ValidTransition.refl (s : ApplicationStatus) : ValidTransition s s := .inl rfl

theorem steps_of_nil {s : World} {l : Log} (h : l.pending = []) : Steps s l :=
  ⟨by simp [h, updates], by simp [h, updates, ValidTransition.refl]⟩

theorem statusesRead_mono {es es' : List Ev} {a : Id} {st : ApplicationStatus}
    (h : st ∈ statusesRead es a) (hsub : ∀ e ∈ es, e ∈ es') : st ∈ statusesRead es' a := by
  obtain ⟨e, he, hst⟩ := List.mem_filterMap.1 h
  exact List.mem_filterMap.2 ⟨e, hsub e he, hst⟩

/-- What another call writes, which no open transaction of this one has locked, leaves its
    transitions valid. -/
theorem Steps.frame {s : World} {l : Log} (h : Steps s l) {es : List Ev}
    (hfree : l.Free model (model.writesOf es)) : Steps (model.replay es s) l := by
  have hsame : ∀ u ∈ updates l.pending, (model.replay es s).applications.find? u.1 =
      s.applications.find? u.1 := by
    intro u hu
    rw [replay_find_application]
    cases s.applications.find? u.1 with
    | none => rfl
    | some app =>
        rw [Option.map_some, applied_of_not_mem app fun v hv => updates_apart hfree hv hu]
  refine ⟨fun u hu => by rw [hsame u hu]; exact h.read u hu, fun a app happ => ?_⟩
  by_cases ha : ∃ u ∈ updates l.pending, u.1 = a
  · obtain ⟨u, hu, rfl⟩ := ha
    exact h.valid u.1 app (hsame u hu ▸ happ)
  · rw [applied_of_not_mem app fun u hu hua => ha ⟨u, hu, hua⟩]
    exact .refl _

/-- An update that finds the status it was checked against is a valid transition. -/
theorem valid_of_unmoved {s : World} {l : Log} {a : Id} {data : ApplicationData} (c : Choice)
    {ans : Application} (hguard : guards.stmt l (.applicationUpdate a data))
    (hunmoved : Unmoved s l a)
    (hexec : exec (.applicationUpdate a data) c (l.view model s) = some ans) :
    ∃ app, (l.view model s).applications.find? a = some app ∧
      (∀ st ∈ statusesRead l.events a, app.status = st) ∧
      app.status ∈ statusesRead l.events a ∧ ValidTransition app.status data.status := by
  obtain ⟨-, -, st, hst, hvalid⟩ := hguard
  obtain ⟨app, happ, -⟩ := Option.map_eq_some_iff.1 hexec
  have hall : ∀ st ∈ statusesRead l.events a, app.status = st := by
    intro st hst
    simpa [happ] using hunmoved st hst
  exact ⟨app, happ, hall, (hall st hst).symm ▸ hst, (hall st hst).symm ▸ hvalid⟩

theorem Steps.push {s : World} {l : Log} {x : Tx interface} {q : Stmt} {ans : Ans q} {c : Choice}
    (h : Steps s l) (htx : l.tx = some x) (hguard : guards.stmt l q)
    (hunmoved : ∀ a data, q = .applicationUpdate a data → Unmoved s l a)
    (hexec : exec q c (l.view model s) = some ans) : Steps s (l.push ⟨q, ans⟩) := by
  have hpending : (l.push ⟨q, ans⟩).pending = l.pending ++ [⟨q, ans⟩] := by
    simp [Trace.push_of_some htx, Trace.pending, htx]
  have hsub : ∀ e ∈ l.events, e ∈ (l.push ⟨q, ans⟩).events := fun e he => by
    rw [Trace.events_push]
    exact List.mem_append_left _ he
  by_cases hq : ∃ a data, q = .applicationUpdate a data
  · obtain ⟨a, data, rfl⟩ := hq
    obtain ⟨app₁, happ₁, hall, hmem, hvalid⟩ :=
      valid_of_unmoved c hguard (hunmoved a data rfl) hexec
    rw [Trace.view, replay_find_application, Option.map_eq_some_iff] at happ₁
    obtain ⟨app, happ, rfl⟩ := happ₁
    -- The stored status is the one the call sees, whether it has written it already or not.
    have hstored : app.status = (applied (updates l.pending) a app).status := by
      by_cases ha : ∃ u ∈ updates l.pending, u.1 = a
      · obtain ⟨u, hu, rfl⟩ := ha
        obtain ⟨app', happ', hread⟩ := h.read u hu
        obtain rfl := Option.some.inj (happ.symm.trans happ')
        exact (hall _ hread).symm
      · rw [applied_of_not_mem app fun u hu hua => ha ⟨u, hu, hua⟩]
    rw [← hstored] at hmem hvalid
    refine ⟨fun u hu => ?_, fun b app' happ' => ?_⟩
    · rw [hpending, updates_append, updates_update, List.mem_append, List.mem_singleton] at hu
      rcases hu with hu | rfl
      · obtain ⟨app', happ', hread⟩ := h.read u hu
        exact ⟨app', happ', statusesRead_mono hread hsub⟩
      · exact ⟨app, happ, statusesRead_mono hmem hsub⟩
    · rw [hpending, updates_append, updates_update, applied_append, applied_cons, applied_nil]
      by_cases hab : a = b
      · subst hab
        obtain rfl := Option.some.inj (happ.symm.trans happ')
        simpa [ApplicationData.set] using hvalid
      · rw [if_neg hab]
        exact h.valid b app' happ'
  · have hnone : updates [⟨q, ans⟩] = [] := by
      cases q <;> first | rfl | exact absurd ⟨_, _, rfl⟩ hq
    refine ⟨fun u hu => ?_, fun b app' happ' => ?_⟩
    · rw [hpending, updates_append, hnone, List.append_nil] at hu
      obtain ⟨app', happ', hread⟩ := h.read u hu
      exact ⟨app', happ', statusesRead_mono hread hsub⟩
    · rw [hpending, updates_append, hnone, List.append_nil]
      exact h.valid b app' happ'

theorem unmoved_of_allowed {p : Platform} {i : Nat} {c : Choice} {t : Thread interface Op Err Reply}
    {q : Stmt} (hR : statusUnmoved p (.exec i c)) (ht : p.threads[i]? = some t)
    (hq : t.next? = some q) {a : Id} {data : ApplicationData} (h : q = .applicationUpdate a data) :
    Unmoved p.db t.trace a := by
  have := hR t ht
  rwa [hq, h] at this

theorem status_rules : Rules (ε := Err) (α := Reply) guards statusUnmoved (fun _ => True) Steps
    (fun _ _ => True) where
  symm _ _ _ := trivial
  start _ _ _ _ := steps_of_nil rfl
  start_pair _ _ _ _ _ := trivial
  env _ _ _ _ := ⟨trivial, fun _ h => ⟨h.read, h.valid⟩⟩
  drop _ _ _ := steps_of_nil rfl
  drop_pair _ _ _ := trivial
  openTx _ _ _ _ _ := steps_of_nil rfl
  openTx_pair _ _ _ _ _ := trivial
  call p i c t q a h hcall htx := by
    refine ⟨trivial, steps_of_nil ?_, fun u hu => ⟨?_, trivial⟩⟩
    · simp [Trace.push_of_none htx, Trace.pending, htx]
    · rw [← Model.replay_singleton model ⟨q, a⟩]
      exact (h.other hu).frame (by simpa [Model.writesOf] using hcall.free u hu)
  callTx p i c t q a x h hcall htx :=
    ⟨(h.thread i t hcall.here).push htx hcall.guard
      (fun _ _ => unmoved_of_allowed hcall.allowed hcall.here hcall.next) hcall.exec,
      fun _ _ => trivial⟩
  commit p i c t x h hcommit :=
    ⟨trivial, steps_of_nil rfl, fun u hu =>
      ⟨(h.other hu).frame (hcommit.free u hu), trivial⟩⟩

/-! ## Every run -/

/-- Every stored status of `s` is left by a valid transition, or not at all. -/
def Moves (s s' : World) : Prop :=
  ∀ a app, s.applications.find? a = some app →
    ∃ app', s'.applications.find? a = some app' ∧ ValidTransition app.status app'.status

theorem moves_of_changes {p : Platform} {s' : model.State} (hholds : Holds (fun _ => True) Steps
    (fun _ _ => True) p) (h : Changes guards statusUnmoved p s') : Moves p.db s' := by
  intro a app happ
  cases h with
  | none => exact ⟨app, happ, .refl _⟩
  | env e => exact ⟨app, happ, .refl _⟩
  | @call i c t q ans hcall htx =>
      rw [← Model.replay_singleton model ⟨q, ans⟩, replay_find_application, happ]
      refine ⟨_, rfl, ?_⟩
      by_cases hq : ∃ id data, q = .applicationUpdate id data
      · obtain ⟨id, data, rfl⟩ := hq
        obtain ⟨app', happ', -, -, hvalid⟩ := valid_of_unmoved c hcall.guard
          (unmoved_of_allowed hcall.allowed hcall.here hcall.next rfl) hcall.exec
        rw [updates_update, applied_cons, applied_nil]
        split
        · next hid =>
            subst hid
            rw [Trace.view_of_none htx] at happ'
            obtain rfl := Option.some.inj (happ.symm.trans happ')
            exact hvalid
        · exact .refl _
      · have hnone : updates [⟨q, ans⟩] = [] := by
          cases q <;> first | rfl | exact absurd ⟨_, _, rfl⟩ hq
        rw [hnone]
        exact .refl _
  | @commit i c t x hcommit =>
      rw [Trace.view, replay_find_application, happ]
      exact ⟨_, rfl, (hholds.thread i t hcommit.here).valid a app happ⟩

/-- **The state machine of an application.** In every run whose steps meet `statusUnmoved`, every
    change of a stored status is a transition of `APPLICATION_STATUS_TRANSITIONS`, and a status
    without transitions is never left. -/
theorem status_machine {s₀ : World} {p : Platform}
    (hrun : Run prog statusUnmoved (idle s₀) p) :
    (∀ a p', statusUnmoved p a → p.step prog a = some p' → Moves p.db p'.db) ∧
    ∀ p', Run prog statusUnmoved p p' → ∀ id app, p.db.applications.find? id = some app →
      app.status.transitions = [] →
      ∃ app', p'.db.applications.find? id = some app' ∧ app'.status = app.status := by
  have hstep : ∀ {p : Platform}, Run prog statusUnmoved (idle s₀) p → ∀ a p',
      statusUnmoved p a → p.step prog a = some p' → Moves p.db p'.db := by
    intro p hrun a p' hR hs
    obtain ⟨hsound, hholds⟩ := status_rules.holds (fun _ o _ => prog_conforms o) trivial hrun
    exact moves_of_changes hholds (hsound.changes hR hs)
  refine ⟨hstep hrun, fun p' hrun' id app happ hterminal => ?_⟩
  induction hrun' with
  | refl => exact ⟨app, happ, rfl⟩
  | @step p₁ p₂ a hrun₁ hR hs ih =>
      obtain ⟨app₁, happ₁, hsame⟩ := ih
      obtain ⟨app₂, happ₂, heq | hmem⟩ := hstep (hrun.trans hrun₁) a p₂ hR hs id app₁ happ₁
      · exact ⟨app₂, happ₂, heq.symm.trans hsame⟩
      · rw [hsame, hterminal] at hmem
        cases hmem

/-- Application 1 waits for a decision. -/
def pendingFile : World :=
  { World.empty with
    users := .ofList [⟨9, some .ADMIN_GET, none⟩]
    students := .ofList [⟨11, 21⟩]
    offers := .ofList [⟨5, 7, none, 100, none, none, true, none⟩]
    applications := .ofList [⟨1, 11, 5, .PENDING, none, none, none, none, none, none, 0⟩] }

def statusOf (s : World) (a : Id) : Option ApplicationStatus :=
  (s.applications.find? a).map (·.status)

/-- A rejection, and then a test that the school tries to schedule all the same. -/
def rejectThenSchedule : List (Step model Op) :=
  .spawn (.updateStatus 1 { status := .REJECTED } 9) :: commands 0 9 ++
    .spawn (.scheduleTest 1 { date := "2024-02-10T10:00:00Z", type := "QCM" } 9) :: commands 1 2

/-- The call that reads the rejection leaves it. -/
theorem status_machine_rejectThenSchedule :
    ∃ p : Platform, Run prog statusUnmoved (idle pendingFile) p ∧
      statusOf p.db 1 = some .REJECTED ∧
      (∀ a p', statusUnmoved p a → p.step prog a = some p' → Moves p.db p'.db) ∧
      ∀ p', Run prog statusUnmoved p p' → ∀ id app, p.db.applications.find? id = some app →
        app.status.transitions = [] →
        ∃ app', p'.db.applications.find? id = some app' ∧ app'.status = app.status := by
  have hplay : ((idle pendingFile : Platform).play prog statusUnmoved rejectThenSchedule).any
      (fun p => statusOf p.db 1 = some .REJECTED) = true := by
    decide +kernel
  obtain ⟨p, hrun, hrejected⟩ := exists_run_of_play hplay
  exact ⟨p, hrun, of_decide_eq_true hrejected, status_machine hrun⟩

/-- Two decisions on application 1, both of which read it as PENDING: the rejection commits while
    the acceptance is on its way to its own commit. -/
def acceptRejected : List (Step model Op) :=
  [.spawn (.updateStatus 1 { status := .ACCEPTED } 9),
   .spawn (.updateStatus 1 { status := .REJECTED } 9)] ++ commands 0 2 ++ commands 1 9 ++
    commands 0 5

/-- Without the condition a rejected application is accepted. -/
theorem not_status_machine :
    ¬ ∀ (s₀ : World) (p : Platform), Run prog anyStep (idle s₀) p →
      ∀ a p', p.step prog a = some p' → Moves p.db p'.db := by
  intro h
  have hplay : ((idle pendingFile : Platform).play prog anyStep acceptRejected).any (fun p =>
      statusOf p.db 1 = some .REJECTED ∧ (p.step prog (.exec 0 (.nat 0))).any (fun p' =>
        statusOf p'.db 1 = some .ACCEPTED)) = true := by
    decide +kernel
  obtain ⟨p, hrun, hbad⟩ := exists_run_of_play hplay
  obtain ⟨hrejected, haccepted⟩ := of_decide_eq_true hbad
  obtain ⟨p', hs, hp'⟩ := (Option.any_eq_true ..).1 haccepted
  obtain ⟨app, happ, hst⟩ := Option.map_eq_some_iff.1 hrejected
  obtain ⟨app', happ', hvalid⟩ := h pendingFile p hrun _ p' hs 1 app happ
  have hst' : some app'.status = some .ACCEPTED := by
    simpa [statusOf, happ'] using of_decide_eq_true hp'
  rw [hst, Option.some.inj hst'] at hvalid
  revert hvalid
  decide

end GetPlatform.Admission
