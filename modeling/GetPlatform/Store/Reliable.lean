import GetPlatform.Store.Alone

set_option autoImplicit false

/-! # A program over a reliable database

`wp` accounts for a statement that fails where it could have been answered. Over a reliable database a
statement fails only where nothing answers it: `Ran` is a run of that kind, and `reliably` the weakest
precondition of all of them. `Model.checked` has a party in front of the database that turns some of
the statements down. -/

namespace Model

variable {S : Interface} (M : Model S)

/-- No choice answers the statement. -/
def Refused (q : S.Stmt) (s : M.State) : Prop := ∀ c, M.exec q c s = none

/-- The statements that are not accepted are not answered. -/
abbrev checked (accepts : S.Stmt → M.State → Bool) : Model S :=
  { M with exec := fun q c s => if accepts q s then M.exec q c s else none }

variable {M} {accepts : S.Stmt → M.State → Bool} {q : S.Stmt} {s : M.State}

theorem exec_checked {c : M.Choice} {a : S.Ans q} :
    (M.checked accepts).exec q c s = some a ↔ accepts q s = true ∧ M.exec q c s = some a := by
  cases h : accepts q s <;> simp [h]

theorem refused_checked :
    (M.checked accepts).Refused q s ↔ accepts q s = false ∨ M.Refused q s := by
  unfold Refused
  cases h : accepts q s <;> simp [h]

end Model

namespace Prog

variable {S : Interface} {ε ε' α β : Type} (M : Model S)

/-- A run without a failure of the database, to its result. -/
inductive Ran : Prog S ε α → Option M.State → M.State → Except ε α → M.State → Prop
  | returned {a : α} {saved : Option M.State} {s : M.State} :
      Ran (.ret a) saved s (.ok a) s
  | failed {e : ε} {saved : Option M.State} {s : M.State} :
      Ran (.fail e) saved s (.error e) s
  | refused {q : S.Stmt} {k : Except S.Failure (S.Ans q) → Prog S ε α} {saved : Option M.State}
      {s s' : M.State} {r : Except ε α} (f : S.Failure) : M.Refused q s →
      Ran (k (.error f)) saved s r s' → Ran (.call q k) saved s r s'
  | answered {q : S.Stmt} {k : Except S.Failure (S.Ans q) → Prog S ε α} {saved : Option M.State}
      {s s' : M.State} {r : Except ε α} (c : M.Choice) (a : S.Ans q) : M.exec q c s = some a →
      Ran (k (.ok a)) saved (M.applyAll (M.writes q a) s) r s' → Ran (.call q k) saved s r s'
  | begun {iso : Isolation} {k : Prog S ε α} {saved : Option M.State} {s s' : M.State}
      {r : Except ε α} :
      Ran k (some (saved.getD s)) (saved.getD s) r s' → Ran (.beginTx iso k) saved s r s'
  | committed {k : Except S.Failure Unit → Prog S ε α} {saved : Option M.State} {s s' : M.State}
      {r : Except ε α} : Ran (k (.ok ())) none s r s' → Ran (.commitTx k) saved s r s'
  | rolledBack {k : Prog S ε α} {saved : Option M.State} {s s' : M.State} {r : Except ε α} :
      Ran k none (saved.getD s) r s' → Ran (.rollbackTx k) saved s r s'

def reliably : Prog S ε α → (Q : α → Option M.State → M.State → Prop) →
    (E : ε → Option M.State → M.State → Prop) → (saved : Option M.State) → (s : M.State) → Prop
  | .ret a, Q, _, saved, s => Q a saved s
  | .fail e, _, E, saved, s => E e saved s
  | .call q k, Q, E, saved, s =>
      (M.Refused q s → ∀ f, (k (.error f)).reliably Q E saved s) ∧
      ∀ c a, M.exec q c s = some a → (k (.ok a)).reliably Q E saved (M.applyAll (M.writes q a) s)
  | .beginTx _ k, Q, E, saved, s => k.reliably Q E (some (saved.getD s)) (saved.getD s)
  | .commitTx k, Q, E, _, s => (k (.ok ())).reliably Q E none s
  | .rollbackTx k, Q, E, saved, s => k.reliably Q E none (saved.getD s)

variable {M} {Q : α → Option M.State → M.State → Prop} {E : ε → Option M.State → M.State → Prop}
  {saved : Option M.State} {s : M.State}

@[simp] theorem reliably_ret (a : α) : (ret a : Prog S ε α).reliably M Q E saved s ↔ Q a saved s :=
  Iff.rfl

@[simp] theorem reliably_fail (e : ε) : (fail e : Prog S ε α).reliably M Q E saved s ↔ E e saved s :=
  Iff.rfl

@[simp] theorem reliably_handle {Q : β → Option M.State → M.State → Prop}
    {E : ε' → Option M.State → M.State → Prop} (p : Prog S ε α) (f : α → Prog S ε' β)
    (g : ε → Prog S ε' β) :
    (p.handle f g).reliably M Q E saved s ↔
      p.reliably M (fun a => (f a).reliably M Q E) (fun e => (g e).reliably M Q E) saved s := by
  induction p generalizing saved s with
  | ret a => rfl
  | fail e => rfl
  | call q k ih => simp only [handle, reliably, ih]
  | beginTx iso k ih => simp only [handle, reliably, ih]
  | commitTx k ih => simp only [handle, reliably, ih]
  | rollbackTx k ih => simp only [handle, reliably, ih]

theorem reliably_mono {Q' : α → Option M.State → M.State → Prop}
    {E' : ε → Option M.State → M.State → Prop} (hQ : ∀ a saved s, Q a saved s → Q' a saved s)
    (hE : ∀ e saved s, E e saved s → E' e saved s) {p : Prog S ε α}
    (h : p.reliably M Q E saved s) : p.reliably M Q' E' saved s := by
  induction p generalizing saved s with
  | ret a => exact hQ a saved s h
  | fail e => exact hE e saved s h
  | call q k ih => exact ⟨fun hrefused f => ih _ (h.1 hrefused f), fun c a ha => ih _ (h.2 c a ha)⟩
  | beginTx iso k ih => exact ih h
  | commitTx k ih => exact ih _ h
  | rollbackTx k ih => exact ih h

@[simp] theorem reliably_ite (c : Prop) [Decidable c] (p p' : Prog S ε α) :
    (if c then p else p').reliably M Q E saved s ↔
      (c → p.reliably M Q E saved s) ∧ (¬ c → p'.reliably M Q E saved s) := by
  by_cases h : c <;> simp [h]

/-- What holds whatever fails holds where nothing does. -/
theorem reliably_of_wp {p : Prog S ε α} (h : p.wp M Q E saved s) : p.reliably M Q E saved s := by
  induction p generalizing saved s with
  | ret a => exact h
  | fail e => exact h
  | call q k ih => exact ⟨fun _ f => ih _ (h.1 f), fun c a ha => ih _ (h.2 c a ha)⟩
  | beginTx iso k ih => exact ih h
  | commitTx k ih => exact ih _ h.2
  | rollbackTx k ih => exact ih h

theorem reliably_forM {f : β → Prog S ε PUnit} (xs : List β)
    (I : Option M.State → M.State → Prop)
    (hstep : ∀ x ∈ xs, ∀ saved s, I saved s → (f x).reliably M (fun _ => I) E saved s)
    (h : I saved s) : (xs.forM f).reliably M (fun _ => I) E saved s := by
  induction xs generalizing saved s with
  | nil => exact h
  | cons x xs ih =>
    show ((f x).handle (fun _ => xs.forM f) .fail).reliably M _ E saved s
    rw [reliably_handle]
    exact reliably_mono
      (fun _ _ _ hI => ih (fun y hy => hstep y (List.mem_cons_of_mem _ hy)) hI)
      (fun _ _ _ he => he) (hstep x (by simp) saved s h)

/-- A statement with one answer. -/
theorem reliably_answer {q : S.Stmt} {Q : S.Ans q → Option M.State → M.State → Prop}
    (φ : S.Failure → ε) [Inhabited M.Choice] {a : S.Ans q} (ha : ∀ c, M.exec q c s = some a) :
    (query φ q : Prog S ε (S.Ans q)).reliably M Q E saved s ↔
      Q a saved (M.applyAll (M.writes q a) s) := by
  refine ⟨fun h => h.2 default a (ha default), fun hQ => ⟨fun h => ?_, fun c a' ha' => ?_⟩⟩
  · cases (h default).symm.trans (ha default)
  · obtain rfl := Option.some.inj ((ha c).symm.trans ha')
    exact hQ

/-- A transaction commits, unless its body fails. -/
theorem reliably_transaction (φ : S.Failure → ε) (iso : Isolation) (body : Prog S ε α) :
    (transaction φ iso body).reliably M Q E none s ↔
      body.reliably M (fun a _ s' => Q a none s') (fun e saved s' => E e none (saved.getD s'))
        (some s) s := by
  simp [transaction, reliably]

/-- A run ends as the weakest precondition says. -/
theorem Ran.holds {P : Except ε α → M.State → Prop} {p : Prog S ε α} {r : Except ε α}
    {s' : M.State} (hrun : Ran M p saved s r s')
    (h : p.reliably M (fun a _ => P (.ok a)) (fun e _ => P (.error e)) saved s) : P r s' := by
  induction hrun with
  | returned => exact h
  | failed => exact h
  | refused f hrefused _ ih => exact ih (h.1 hrefused f)
  | answered c a ha _ ih => exact ih (h.2 c a ha)
  | begun _ ih => exact ih h
  | committed _ ih => exact ih h
  | rolledBack _ ih => exact ih h

/-- Every program runs to a result. -/
theorem exists_ran [Inhabited S.Failure] (p : Prog S ε α) (saved : Option M.State) (s : M.State) :
    ∃ r s', Ran M p saved s r s' := by
  induction p generalizing saved s with
  | ret a => exact ⟨_, _, .returned⟩
  | fail e => exact ⟨_, _, .failed⟩
  | call q k ih =>
      cases Classical.em (∃ c a, M.exec q c s = some a) with
      | inl hanswer =>
          obtain ⟨c, a, ha⟩ := hanswer
          obtain ⟨r, s', hrun⟩ := ih (.ok a) saved (M.applyAll (M.writes q a) s)
          exact ⟨r, s', .answered c a ha hrun⟩
      | inr hnone =>
          have hrefused : M.Refused q s := fun c =>
            Option.eq_none_iff_forall_not_mem.2 fun a ha => hnone ⟨c, a, ha⟩
          obtain ⟨r, s', hrun⟩ := ih (.error default) saved s
          exact ⟨r, s', .refused default hrefused hrun⟩
  | beginTx iso k ih =>
      obtain ⟨r, s', hrun⟩ := ih (some (saved.getD s)) (saved.getD s)
      exact ⟨r, s', .begun hrun⟩
  | commitTx k ih =>
      obtain ⟨r, s', hrun⟩ := ih (.ok ()) none s
      exact ⟨r, s', .committed hrun⟩
  | rollbackTx k ih =>
      obtain ⟨r, s', hrun⟩ := ih none (saved.getD s)
      exact ⟨r, s', .rolledBack hrun⟩

/-- A run in which every statement is answered. -/
theorem ran_of_alone {p : Prog S ε α} {cs : List M.Choice} {r : Except ε α} {s' : M.State}
    (h : p.alone saved s (cs.map .ok) = some (r, s')) : Ran M p saved s r s' := by
  induction p generalizing saved s cs with
  | ret a =>
      obtain ⟨rfl, rfl⟩ := Prod.mk.inj (Option.some.inj h)
      exact .returned
  | fail e =>
      obtain ⟨rfl, rfl⟩ := Prod.mk.inj (Option.some.inj h)
      exact .failed
  | call q k ih =>
      cases cs with
      | nil => cases h
      | cons c cs =>
          simp only [List.map_cons, alone] at h
          split at h
          · next a ha => exact .answered c a ha (ih _ h)
          · cases h
  | beginTx iso k ih => exact .begun (ih h)
  | commitTx k ih =>
      cases cs with
      | nil => cases h
      | cons c cs => exact .committed (ih _ h)
  | rollbackTx k ih => exact .rolledBack (ih h)

/-- The run that such a list of answers stands for. -/
theorem ran_get {p : Prog S ε α} {cs : List M.Choice}
    (h : (p.alone (M := M) saved s (cs.map .ok)).isSome = true) :
    Ran M p saved s ((p.alone (M := M) saved s (cs.map .ok)).get h).1
      ((p.alone (M := M) saved s (cs.map .ok)).get h).2 :=
  ran_of_alone (Option.some_get h).symm

end Prog
