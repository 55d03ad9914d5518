import GetPlatform.Store.Record

set_option autoImplicit false

/-! # Calls that fail

A call without a transaction cannot take back what it has written. `Prog.FirmAfter P` says of a program
that, once it has been answered an event that satisfies `P`, only a statement that fails can make it
fail. In a run where such statements do not fail, a call that fails has not been answered such an event;
if `P` is what it takes to change a part of the state, none of its commands has changed that part. -/

namespace Prog

variable {S : Interface} (M : Model S) {ε ε' α β : Type}

/-- The program has no transaction and returns, unless one of its statements fails. -/
def Firm : Prog S ε α → Prop
  | .ret _ => True
  | .call q k => ∀ a, M.Possible q a → (k (.ok a)).Firm
  | _ => False

/-- The program has no transaction, and is firm from any event on that satisfies `P`. -/
def FirmAfter (P : Event S → Prop) : Prog S ε α → Prop
  | .ret _ => True
  | .fail _ => True
  | .call q k => (∀ f, (k (.error f)).FirmAfter P) ∧ ∀ a, M.Possible q a →
      (k (.ok a)).FirmAfter P ∧ (P ⟨q, a⟩ → (k (.ok a)).Firm M)
  | _ => False

variable {M} {P : Event S → Prop}

@[simp] theorem firm_ret (a : α) : (ret a : Prog S ε α).Firm M := trivial

@[simp] theorem firm_query_handle {q : S.Stmt} {φ : S.Failure → ε} {f : S.Ans q → Prog S ε' β}
    {g : ε → Prog S ε' β} :
    ((query φ q : Prog S ε (S.Ans q)).handle f g).Firm M ↔
      ∀ a, M.Possible q a → (f a).Firm M := Iff.rfl

@[simp] theorem firmAfter_ret (a : α) : (ret a : Prog S ε α).FirmAfter M P := trivial

@[simp] theorem firmAfter_fail (e : ε) : (fail e : Prog S ε α).FirmAfter M P := trivial

@[simp] theorem firmAfter_query_handle {q : S.Stmt} {φ : S.Failure → ε} {f : S.Ans q → Prog S ε' β}
    {g : ε → Prog S ε' β} :
    ((query φ q : Prog S ε (S.Ans q)).handle f g).FirmAfter M P ↔
      (∀ e, (g (φ e)).FirmAfter M P) ∧ ∀ a, M.Possible q a →
        (f a).FirmAfter M P ∧ (P ⟨q, a⟩ → (f a).Firm M) := Iff.rfl

/-- A part that is answered nothing of the kind may come first. -/
theorem Only.firmAfter {p : Prog S ε α} {f : α → Prog S ε' β} {g : ε → Prog S ε' β}
    (hp : p.Only fun q => ∀ a, ¬ P ⟨q, a⟩) (hf : ∀ a, (f a).FirmAfter M P)
    (hg : ∀ e, (g e).FirmAfter M P) : (p.handle f g).FirmAfter M P := by
  induction p with
  | ret a => exact hf a
  | fail e => exact hg e
  | call q k ih =>
      exact ⟨fun f => ih _ (hp.2 _), fun a _ => ⟨ih _ (hp.2 _), fun h => absurd h (hp.1 a)⟩⟩
  | beginTx iso k ih => exact hp.elim
  | commitTx k ih => exact hp.elim
  | rollbackTx k ih => exact hp.elim

end Prog

variable {S : Interface} {M : Model S} {Op ε α : Type}

/-- The call ended with an error. -/
def Thread.Failed (t : Thread S Op ε α) : Prop := ∃ e, t.rest = some (.fail e)

def Thread.failed (t : Thread S Op ε α) : Bool :=
  match t.rest with
  | some (.fail _) => true
  | _ => false

theorem Thread.failed_iff {t : Thread S Op ε α} : t.failed = true ↔ t.Failed := by
  unfold Thread.failed Thread.Failed
  split
  · next e hrest => simp [hrest]
  · next hrest => simpa using hrest

/-- What is left of the call is firm after `P`, and firm if the call has been answered such an event. -/
structure Thread.FirmAfter (M : Model S) (P : Event S → Prop) (t : Thread S Op ε α) : Prop where
  noTx : t.trace.tx = none
  rest : ∀ k, t.rest = some k → k.FirmAfter M P ∧ ((∃ e ∈ t.trace.done, P e) → k.Firm M)

theorem Thread.FirmAfter.of_failed {P : Event S → Prop} {t : Thread S Op ε α}
    (ht : t.FirmAfter M P) (hfailed : t.Failed) : ∀ e ∈ t.trace.done, ¬ P e := by
  obtain ⟨err, hrest⟩ := hfailed
  exact fun e he hP => (ht.rest _ hrest).2 ⟨e, he, hP⟩

namespace Pool

variable [DecidableEq M.Key] {prog : Op → Prog S ε α} {P : Event S → Prop}
  {R : Pool M Op ε α → Step M Op → Prop} {s₀ : M.State}

/-- Every call stays firm, if no statement fails of a call that has been answered such an event. -/
theorem Run.firmAfter (hprog : ∀ p o, R p (.spawn o) → (prog o).FirmAfter M P)
    (hfault : ∀ p i f, R p (.fault i f) → ∀ t, p.threads[i]? = some t → ∀ e ∈ t.trace.done, ¬ P e)
    {p : Pool M Op ε α} (hrun : Run prog R (idle s₀) p) {i : Nat} {t : Thread S Op ε α}
    (ht : p.threads[i]? = some t) : t.FirmAfter M P := by
  induction hrun generalizing i t with
  | refl => simp [idle] at ht
  | @step p p' a _ hR hs ih =>
      have hset : ∀ {j : Nat} {u v : Thread S Op ε α} {s : M.State}, p.threads[j]? = some u →
          p' = ⟨s, p.threads.set j v⟩ → v.FirmAfter M P → t.FirmAfter M P := by
        rintro j u v s hu rfl hv
        rcases thread_set hu ht with ⟨-, rfl⟩ | ⟨-, hold⟩
        · exact hv
        · exact ih hold
      cases a with
      | spawn o =>
          obtain rfl := Option.some.inj hs
          rcases thread_append ht with rfl | hold
          · exact ⟨rfl, fun k hk => Option.some.inj hk ▸ ⟨hprog _ o hR, by simp⟩⟩
          · exact ih hold
      | env e =>
          obtain rfl := Option.some.inj hs
          exact ih ht
      | crash j =>
          obtain ⟨u, hu, rfl⟩ := step_crash hs
          exact hset hu rfl ⟨rfl, by simp⟩
      | fault j f =>
          obtain ⟨u, hu, ⟨q, k, hk, rfl⟩ | ⟨k, hk, rfl⟩⟩ := step_fault hs
          · refine hset hu rfl ⟨(ih hu).noTx, fun k' hk' => ?_⟩
            obtain rfl := Option.some.inj hk'
            refine ⟨((ih hu).rest _ hk).1.1 f, ?_⟩
            rintro ⟨e, he, hP⟩
            exact absurd hP (hfault _ j f hR u hu e he)
          · exact ((ih hu).rest _ hk).1.elim
      | exec j c =>
          obtain ⟨u, out, hu, hout, -, -, rfl⟩ := step_exec hs
          obtain ⟨q, k, x, hk, hx, rfl⟩ | ⟨iso, k, hk, rfl⟩ | ⟨k, hk, rfl⟩ | ⟨k, hk, rfl⟩ :=
            exec_cases hout
          · refine hset hu rfl ?_
            obtain ⟨⟨-, hok⟩, hfirm⟩ := (ih hu).rest _ hk
            have hpossible : M.Possible q x := ⟨c, _, hx⟩
            rw [Trace.push_of_none (ih hu).noTx]
            refine ⟨(ih hu).noTx, fun k' hk' => ?_⟩
            obtain rfl := Option.some.inj hk'
            refine ⟨(hok x hpossible).1, ?_⟩
            rintro ⟨e, he, hP⟩
            rcases List.mem_append.1 he with he | he
            · exact hfirm ⟨e, he, hP⟩ x hpossible
            · obtain rfl := List.mem_singleton.1 he
              exact (hok x hpossible).2 hP
          · exact ((ih hu).rest _ hk).1.elim
          · exact ((ih hu).rest _ hk).1.elim
          · exact ((ih hu).rest _ hk).1.elim

/-! ## The states around the commands of one call -/

/-- Does the call at place `i` carry out a command in this step? -/
def commands (i : Nat) : Step M Op → Bool
  | .exec j _ => j = i
  | _ => false

/-- A run from `p₀` with the states before and after each command of the call at place `i`. -/
inductive Around (prog : Op → Prog S ε α) (R : Pool M Op ε α → Step M Op → Prop)
    (p₀ : Pool M Op ε α) (i : Nat) : List (M.State × M.State) → Pool M Op ε α → Prop
  | refl : Around prog R p₀ i [] p₀
  | step {xs : List (M.State × M.State)} {p p' : Pool M Op ε α} {a : Step M Op} :
      Around prog R p₀ i xs p → R p a → p.step prog a = some p' →
      Around prog R p₀ i (if commands i a then (p.db, p'.db) :: xs else xs) p'

variable {i : Nat} {xs : List (M.State × M.State)} {p : Pool M Op ε α}

theorem Around.run {p₀ : Pool M Op ε α} (h : Around prog R p₀ i xs p) : Run prog R p₀ p := by
  induction h with
  | refl => exact .refl
  | step _ hR hs ih => exact .step ih hR hs

/-- Carry out a list of steps, all of which must be possible and satisfy `R`, and keep the states
    around the commands of the call at place `i`. -/
def playAround (prog : Op → Prog S ε α) (R : Pool M Op ε α → Step M Op → Prop)
    [∀ p a, Decidable (R p a)] (i : Nat) : List (M.State × M.State) → Pool M Op ε α →
    List (Step M Op) → Option (List (M.State × M.State) × Pool M Op ε α)
  | xs, p, [] => some (xs, p)
  | xs, p, a :: as =>
      if R p a then
        (p.step prog a).bind fun p' =>
          playAround prog R i (if commands i a then (p.db, p'.db) :: xs else xs) p' as
      else none

theorem Around.of_play [∀ p a, Decidable (R p a)] {p₀ : Pool M Op ε α}
    (h : Around prog R p₀ i xs p) {as : List (Step M Op)}
    {out : List (M.State × M.State) × Pool M Op ε α}
    (hplay : playAround prog R i xs p as = some out) : Around prog R p₀ i out.1 out.2 := by
  induction as generalizing xs p with
  | nil =>
      obtain rfl := Option.some.inj hplay
      exact h
  | cons a as ih =>
      unfold playAround at hplay
      split at hplay
      · next hR =>
          obtain ⟨p', hp', hrest⟩ := Option.bind_eq_some_iff.1 hplay
          exact ih (h.step hR hp') hrest
      · cases hplay

/-- A played list of steps that ends as `f` says. -/
theorem exists_around_of_play [∀ p a, Decidable (R p a)] {p₀ : Pool M Op ε α}
    {as : List (Step M Op)} {f : List (M.State × M.State) × Pool M Op ε α → Bool}
    (hplay : (playAround prog R i [] p₀ as).any f = true) :
    ∃ xs p, Around prog R p₀ i xs p ∧ f (xs, p) = true := by
  obtain ⟨⟨xs, p⟩, hout, hf⟩ := (Option.any_eq_true ..).1 hplay
  exact ⟨xs, p, Around.of_play .refl hout, hf⟩

/-- A command that changes a part of the state is the answer to an event that satisfies `P`. -/
theorem Around.event {β : Type} {part : M.State → β}
    (hpart : ∀ q a s, part (M.applyAll (M.writes q a) s) ≠ part s → P ⟨q, a⟩)
    (hfirm : ∀ {p}, Run prog R (idle s₀) p → ∀ (j : Nat) (t : Thread S Op ε α),
      p.threads[j]? = some t → t.FirmAfter M P)
    (h : Around prog R (idle s₀) i xs p) {x : M.State × M.State} (hx : x ∈ xs)
    (hne : part x.2 ≠ part x.1) :
    ∃ t, p.threads[i]? = some t ∧ ∃ e ∈ t.trace.done, P e := by
  induction h with
  | refl => cases hx
  | @step xs p p' a h hR hs ih =>
      have hrun := h.run
      -- What was on record before stays there.
      have hold : x ∈ xs → ∃ t, p'.threads[i]? = some t ∧ ∃ e ∈ t.trace.done, P e := by
        intro hx
        obtain ⟨t, ht, e, he, hP⟩ := ih hx
        obtain ⟨t', ht', -, hdone⟩ := (moves_of_step hs).keeps ht
        exact ⟨t', ht', e, hdone.subset he, hP⟩
      split at hx
      · next hi =>
          rcases List.mem_cons.1 hx with rfl | hx
          · cases a with
            | exec j c =>
                obtain rfl := of_decide_eq_true hi
                cases taken_of_step hs with
                | @call _ t q k _ y ht hk htx hy =>
                    refine ⟨_, List.getElem?_set_self (List.getElem?_eq_some_iff.1 ht).1, ⟨q, y⟩, ?_,
                      hpart q y _ hne⟩
                    simp [Trace.push_of_none htx]
                | callTx => exact absurd rfl hne
                | commit ht hk => exact (((hfirm hrun _ _ ht).rest _ hk).1).elim
                | turn => exact absurd rfl hne
            | spawn o => cases hi
            | fault j f => cases hi
            | crash j => cases hi
            | env e => cases hi
          · exact hold hx
      · exact hold hx

/-- **A call that fails has changed nothing of what it takes `P` to change**: in a run where no
    statement fails of a call that was answered such an event, none of its commands did. -/
theorem Around.unchanged {β : Type} {part : M.State → β}
    (hpart : ∀ q a s, part (M.applyAll (M.writes q a) s) ≠ part s → P ⟨q, a⟩)
    (hprog : ∀ p o, R p (.spawn o) → (prog o).FirmAfter M P)
    (hfault : ∀ p i f, R p (.fault i f) → ∀ t, p.threads[i]? = some t → ∀ e ∈ t.trace.done, ¬ P e)
    (h : Around prog R (idle s₀) i xs p) {t : Thread S Op ε α} (ht : p.threads[i]? = some t)
    (hfailed : t.Failed) : ∀ x ∈ xs, part x.2 = part x.1 := by
  intro x hx
  refine Classical.byContradiction fun hne => ?_
  have hfirm : ∀ {p}, Run prog R (idle s₀) p → ∀ (j : Nat) (t : Thread S Op ε α),
      p.threads[j]? = some t → t.FirmAfter M P :=
    fun hrun _ _ ht => hrun.firmAfter hprog hfault ht
  obtain ⟨u, hu, e, he, hP⟩ := h.event hpart hfirm hx hne
  obtain rfl := Option.some.inj (ht.symm.trans hu)
  exact (hfirm h.run _ _ ht).of_failed hfailed e he hP

end Pool
