import Mathlib.Algebra.Order.Group.Nat
import Mathlib.Data.Nat.Init

set_option autoImplicit false

/-! # Executions

An execution is a run without an end of a step function, at each moment of which one step is taken or none. It is
fair to a kind of step when one of the kind is taken sooner or later, if it stays possible. -/

/-- What happens from a start on, moment by moment. -/
structure Execution {σ α : Type} (step : σ → α → Option σ) where
  state : Nat → σ
  taken : Nat → Option α
  rests : ∀ n, taken n = none → state (n + 1) = state n
  steps : ∀ n a, taken n = some a → step (state n) a = some (state (n + 1))

namespace Execution

variable {σ α : Type} {step : σ → α → Option σ} (e : Execution step) {P Q : σ → Prop} {F : α → Prop} {n : Nat}

/-- One moment: nothing has changed, or a step was taken. -/
theorem moment (n : Nat) : e.state (n + 1) = e.state n ∨
    ∃ a, e.taken n = some a ∧ step (e.state n) a = some (e.state (n + 1)) := by
  cases h : e.taken n with
  | none => exact .inl (e.rests n h)
  | some a => exact .inr ⟨a, rfl, e.steps n a h⟩

/-- What every step keeps holds from then on. -/
theorem always (hkeep : ∀ s a s', P s → step s a = some s' → P s') (h : P (e.state n)) {m : Nat} (hm : n ≤ m) :
    P (e.state m) := by
  induction m, hm using Nat.le_induction with
  | base => exact h
  | succ m _ ih =>
      obtain heq | ⟨a, -, hstep⟩ := e.moment m
      · rwa [heq]
      · exact hkeep _ a _ ih hstep

/-- The state after `n` steps of a list, those that are not possible left out. -/
def stateOf (step : σ → α → Option σ) (s : σ) (as : List α) : Nat → σ
  | 0 => s
  | n + 1 => ((as[n]?).bind (step (stateOf step s as n))).getD (stateOf step s as n)

/-- The steps of a list are taken one after the other. -/
def ofList (step : σ → α → Option σ) (s : σ) (as : List α) : Execution step where
  state := stateOf step s as
  taken n := (as[n]?).filter fun a => (step (stateOf step s as n) a).isSome
  rests n hnone := by
    cases hn : as[n]? with
    | none => simp [stateOf, hn]
    | some a =>
        have : step (stateOf step s as n) a = none := by simpa [hn, Option.filter_some] using hnone
        simp [stateOf, hn, this]
  steps n a ha := by
    obtain ⟨hn, hsome⟩ := Option.filter_eq_some_iff.1 ha
    obtain ⟨s', hs'⟩ := Option.isSome_iff_exists.1 hsome
    simp [stateOf, hn, hs']

/-- Nothing happens after the last step. -/
theorem ofList_ended (s : σ) (as : List α) {m : Nat} (hm : as.length ≤ m) :
    (ofList step s as).state m = (ofList step s as).state as.length := by
  induction m, hm using Nat.le_induction with
  | base => rfl
  | succ m hm ih =>
      have hnone : as[m]? = none := List.getElem?_eq_none hm
      have : (ofList step s as).state (m + 1) = (ofList step s as).state m := by simp [ofList, stateOf, hnone]
      rw [this, ih]

/-- `Q` holds at some moment from `n` on. -/
def Eventually (n : Nat) (Q : σ → Prop) : Prop := ∃ m, n ≤ m ∧ Q (e.state m)

/-- If `P` stays, a step of the kind is taken. -/
def FairTo (P : σ → Prop) (F : α → Prop) : Prop :=
  ∀ n, (∀ m, n ≤ m → P (e.state m)) → ∃ m a, n ≤ m ∧ e.taken m = some a ∧ F a

variable {e}

theorem Eventually.now (h : Q (e.state n)) : e.Eventually n Q := ⟨n, le_rfl, h⟩

theorem Eventually.trans {R : σ → Prop} (h : e.Eventually n Q) (hR : ∀ m, n ≤ m → Q (e.state m) → e.Eventually m R) :
    e.Eventually n R := by
  obtain ⟨m, hm, hQ⟩ := h
  obtain ⟨k, hk, hR⟩ := hR m hm hQ
  exact ⟨k, hm.trans hk, hR⟩

/-- `Q` stays, and a step of the kind possible, until one is taken; so one is, and leads to `R`. -/
theorem FairTo.eventually {R : σ → Prop} (hfair : e.FairTo P F) (hpossible : ∀ s, Q s → P s)
    (hkeep : ∀ s a s', Q s → ¬ F a → step s a = some s' → Q s')
    (hlead : ∀ s a s', Q s → F a → step s a = some s' → R s') (h : Q (e.state n)) : e.Eventually n R := by
  by_contra hnever
  have hstays : ∀ m, n ≤ m → Q (e.state m) := by
    intro m hm
    induction m, hm using Nat.le_induction with
    | base => exact h
    | succ m hm ih =>
        obtain heq | ⟨a, -, hstep⟩ := e.moment m
        · rwa [heq]
        · exact hkeep _ a _ ih (fun hF => hnever ⟨m + 1, by omega, hlead _ a _ ih hF hstep⟩) hstep
  obtain ⟨m, a, hm, ha, hF⟩ := hfair n fun m hm => hpossible _ (hstays m hm)
  exact hnever ⟨m + 1, by omega, hlead _ a _ (hstays m hm) hF (e.steps m a ha)⟩

end Execution
