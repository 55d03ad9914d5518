import GetPlatform.Store.Alone

set_option autoImplicit false

/-! # Statements that are watched for failures

A run may go on after a statement has failed. `failing` says whether one of the watched statements, or
a commit, has failed in a run, and `watched` is the weakest precondition that knows it: its
postconditions see whether that has happened yet. -/

namespace Prog

variable {S : Interface} {ε ε' α β : Type} (M : Model S) (w : S.Stmt → Bool)

/-- Does one of the watched statements, or a commit, fail in this run? -/
def failing : Prog S ε α → Option M.State → M.State → List (Except S.Failure M.Choice) → Bool
  | .ret _, _, _, _ => false
  | .fail _, _, _, _ => false
  | .call q k, saved, s, .ok c :: cs =>
      match M.exec q c s with
      | some a => (k (.ok a)).failing saved (M.applyAll (M.writes q a) s) cs
      | none => false
  | .call q k, saved, s, .error f :: cs => w q || (k (.error f)).failing saved s cs
  | .beginTx _ k, saved, s, cs => k.failing (some (saved.getD s)) (saved.getD s) cs
  | .commitTx k, _, s, .ok _ :: cs => (k (.ok ())).failing none s cs
  | .commitTx _, _, _, .error _ :: _ => true
  | .rollbackTx k, saved, s, cs => k.failing none (saved.getD s) cs
  | _, _, _, [] => false

def watched : Prog S ε α → (Q : α → Bool → Option M.State → M.State → Prop) →
    (E : ε → Bool → Option M.State → M.State → Prop) → Bool → (saved : Option M.State) →
    (s : M.State) → Prop
  | .ret a, Q, _, b, saved, s => Q a b saved s
  | .fail e, _, E, b, saved, s => E e b saved s
  | .call q k, Q, E, b, saved, s =>
      (∀ f, (k (.error f)).watched Q E (b || w q) saved s) ∧
      ∀ c a, M.exec q c s = some a → (k (.ok a)).watched Q E b saved (M.applyAll (M.writes q a) s)
  | .beginTx _ k, Q, E, b, saved, s => k.watched Q E b (some (saved.getD s)) (saved.getD s)
  | .commitTx k, Q, E, b, saved, s =>
      (∀ f, (k (.error f)).watched Q E true none (saved.getD s)) ∧ (k (.ok ())).watched Q E b none s
  | .rollbackTx k, Q, E, b, saved, s => k.watched Q E b none (saved.getD s)

variable {M} {w} {Q : α → Bool → Option M.State → M.State → Prop}
  {E : ε → Bool → Option M.State → M.State → Prop} {b : Bool} {saved : Option M.State} {s : M.State}

@[simp] theorem watched_ret (a : α) :
    (ret a : Prog S ε α).watched M w Q E b saved s ↔ Q a b saved s := Iff.rfl

@[simp] theorem watched_fail (e : ε) :
    (fail e : Prog S ε α).watched M w Q E b saved s ↔ E e b saved s := Iff.rfl

@[simp] theorem watched_handle {Q : β → Bool → Option M.State → M.State → Prop}
    {E : ε' → Bool → Option M.State → M.State → Prop} (p : Prog S ε α) (f : α → Prog S ε' β)
    (g : ε → Prog S ε' β) :
    (p.handle f g).watched M w Q E b saved s ↔
      p.watched M w (fun a => (f a).watched M w Q E) (fun e => (g e).watched M w Q E) b saved s := by
  induction p generalizing b saved s with
  | ret a => rfl
  | fail e => rfl
  | call q k ih => simp only [handle, watched, ih]
  | beginTx iso k ih => simp only [handle, watched, ih]
  | commitTx k ih => simp only [handle, watched, ih]
  | rollbackTx k ih => simp only [handle, watched, ih]

@[simp] theorem watched_ite (c : Prop) [Decidable c] (p p' : Prog S ε α) :
    (if c then p else p').watched M w Q E b saved s ↔
      (c → p.watched M w Q E b saved s) ∧ (¬ c → p'.watched M w Q E b saved s) := by
  by_cases h : c <;> simp [h]

/-- A transaction: its body commits, or leaves the state as it was. -/
@[simp] theorem watched_transaction (φ : S.Failure → ε) (iso : Isolation) (body : Prog S ε α) :
    (transaction φ iso body).watched M w Q E b none s ↔
      body.watched M w
        (fun a b saved s' => (∀ f, E (φ f) true none (saved.getD s')) ∧ Q a b none s')
        (fun e b saved s' => E e b none (saved.getD s')) b (some s) s := by
  simp [transaction, watched]

/-- A run ends as the weakest precondition says, of the failures that it has met. -/
theorem watched_alone {P : Except ε α → Bool → M.State → Prop} {p : Prog S ε α}
    (h : p.watched M w (fun a b _ => P (.ok a) b) (fun e b _ => P (.error e) b) b saved s)
    {cs : List (Except S.Failure M.Choice)} {r : Except ε α} {s' : M.State}
    (hrun : p.alone saved s cs = some (r, s')) : P r (b || p.failing M w saved s cs) s' := by
  induction p generalizing b saved s cs with
  | ret a =>
      obtain ⟨rfl, rfl⟩ := Prod.mk.inj (Option.some.inj hrun)
      rw [failing, Bool.or_false]
      exact h
  | fail e =>
      obtain ⟨rfl, rfl⟩ := Prod.mk.inj (Option.some.inj hrun)
      rw [failing, Bool.or_false]
      exact h
  | call q k ih =>
      cases cs with
      | nil => cases hrun
      | cons c cs =>
          cases c with
          | error f =>
              rw [failing, ← Bool.or_assoc]
              exact ih _ (h.1 f) hrun
          | ok c =>
              simp only [alone] at hrun
              split at hrun
              · next a ha =>
                  simp only [failing, ha]
                  exact ih _ (h.2 c a ha) hrun
              · cases hrun
  | beginTx iso k ih => exact ih h hrun
  | commitTx k ih =>
      cases cs with
      | nil => cases hrun
      | cons c cs =>
          cases c with
          | error f =>
              rw [failing, Bool.or_true]
              exact ih _ (h.1 f) hrun
          | ok c => exact ih _ h.2 hrun
  | rollbackTx k ih => exact ih h hrun

end Prog
