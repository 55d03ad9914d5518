import GetPlatform.Store.Alone

set_option autoImplicit false

/-! # Calls one after the other, with their journal

`Serial` forgets what the calls were. A `Journal` keeps them, the last one first: a condition on a call
may look back at the calls before it, and so may what is said of the state that is reached. -/

variable {S : Interface} {ε α Op : Type}

/-- A call that was run to its end by itself: what its statements met, and the states around it. -/
structure Turn (M : Model S) (Op ε α : Type) where
  op : Op
  met : List (Except S.Failure M.Choice)
  before : M.State
  result : Except ε α
  after : M.State

/-- A condition on a call, given the calls before it, the state it starts in and what it meets. -/
abbrev TurnRule (M : Model S) (Op ε α : Type) :=
  List (Turn M Op ε α) → M.State → Op → List (Except S.Failure M.Choice) → Prop

/-- No condition on the calls. -/
def anyTurn {M : Model S} : TurnRule M Op ε α := fun _ _ _ _ => True

/-- The states reached from `s₀` by calls that satisfy `R`, each run to its end, and what they were. -/
inductive Journal (M : Model S) (prog : Op → Prog S ε α) (R : TurnRule M Op ε α) (s₀ : M.State) :
    List (Turn M Op ε α) → M.State → Prop
  | start : Journal M prog R s₀ [] s₀
  | turn {h : List (Turn M Op ε α)} {s s' : M.State} {r : Except ε α} (o : Op)
      (cs : List (Except S.Failure M.Choice)) :
      Journal M prog R s₀ h s → R h s o cs → (prog o).alone none s cs = some (r, s') →
      Journal M prog R s₀ (⟨o, cs, s, r, s'⟩ :: h) s'
  | env {h : List (Turn M Op ε α)} {s : M.State} (e : M.Env) :
      Journal M prog R s₀ h s → Journal M prog R s₀ h (M.env e s)

namespace Journal

variable {M : Model S} {prog : Op → Prog S ε α} {R : TurnRule M Op ε α} {s₀ s : M.State}
  {h : List (Turn M Op ε α)}

/-- What holds at the start, and is kept by every call that satisfies the condition and by the
    environment, holds of every state reached. -/
theorem holds {P : List (Turn M Op ε α) → M.State → Prop} (hrun : Journal M prog R s₀ h s)
    (h₀ : P [] s₀)
    (hturn : ∀ {h s s' r} (o : Op) (cs : List (Except S.Failure M.Choice)),
      Journal M prog R s₀ h s → R h s o cs → (prog o).alone none s cs = some (r, s') → P h s →
      P (⟨o, cs, s, r, s'⟩ :: h) s')
    (henv : ∀ {h s} (e : M.Env), Journal M prog R s₀ h s → P h s → P h (M.env e s)) : P h s := by
  induction hrun with
  | start => exact h₀
  | turn o cs hbefore hR halone ih => exact hturn o cs hbefore hR halone ih
  | env e hbefore ih => exact henv e hbefore ih

theorem mono {R' : TurnRule M Op ε α} (hrun : Journal M prog R s₀ h s)
    (hR : ∀ h s o cs, R h s o cs → R' h s o cs) : Journal M prog R' s₀ h s := by
  induction hrun with
  | start => exact .start
  | turn o cs _ hturn halone ih => exact .turn o cs ih (hR _ _ _ _ hturn) halone
  | env e _ ih => exact .env e ih

/-- Run a list of calls, each with what its statements meet, all of which must satisfy `R`. -/
def play (prog : Op → Prog S ε α) (R : TurnRule M Op ε α) [∀ h s o cs, Decidable (R h s o cs)] :
    List (Turn M Op ε α) → M.State → List (Op × List (Except S.Failure M.Choice)) →
    Option (List (Turn M Op ε α) × M.State)
  | h, s, [] => some (h, s)
  | h, s, (o, cs) :: rest =>
      if R h s o cs then
        match (prog o).alone none s cs with
        | some (r, s') => play prog R (⟨o, cs, s, r, s'⟩ :: h) s' rest
        | none => none
      else none

instance (h : List (Turn M Op ε α)) (s : M.State) (o : Op)
    (cs : List (Except S.Failure M.Choice)) : Decidable (anyTurn h s o cs) :=
  inferInstanceAs (Decidable True)

theorem of_play [∀ h s o cs, Decidable (R h s o cs)] (hrun : Journal M prog R s₀ h s)
    {calls : List (Op × List (Except S.Failure M.Choice))} {h' : List (Turn M Op ε α)} {s' : M.State}
    (hplay : play prog R h s calls = some (h', s')) : Journal M prog R s₀ h' s' := by
  induction calls generalizing h s with
  | nil =>
      obtain ⟨rfl, rfl⟩ := Prod.mk.inj (Option.some.inj hplay)
      exact hrun
  | cons call rest ih =>
      obtain ⟨o, cs⟩ := call
      unfold play at hplay
      split at hplay
      · next hR =>
          split at hplay
          · next r s₁ halone => exact ih (.turn o cs hrun hR halone) hplay
          · cases hplay
      · cases hplay

/-- Calls that were played to a state satisfying `f` are a run to such a state. -/
theorem exists_of_play [∀ h s o cs, Decidable (R h s o cs)]
    {calls : List (Op × List (Except S.Failure M.Choice))}
    {f : List (Turn M Op ε α) × M.State → Bool} (hplay : (play prog R [] s₀ calls).any f = true) :
    ∃ h s, Journal M prog R s₀ h s ∧ f (h, s) = true := by
  obtain ⟨⟨h, s⟩, hout, hf⟩ := (Option.any_eq_true ..).1 hplay
  exact ⟨h, s, of_play .start hout, hf⟩

end Journal
