import GetPlatform.Store.Keeps

set_option autoImplicit false

/-! # How a run by itself ends

`Halts p saved s r saved' s'`: some run of `p` by itself, from state `s`, ends with `r` in state `s'`;
while a transaction is open, `saved` and `saved'` are what a rollback goes back to. The relation says
what `Prog.alone` computes, with the choices and the failures left open, and it composes: a run of
`p.handle f g` is a run of `p` and one of what follows. -/

namespace Prog

variable {S : Interface} {M : Model S} {ε ε' α β : Type}

inductive Halts (M : Model S) : Prog S ε α → Option M.State → M.State →
    Except ε α → Option M.State → M.State → Prop
  | ret {saved : Option M.State} {s : M.State} (a : α) : Halts M (.ret a) saved s (.ok a) saved s
  | fail {saved : Option M.State} {s : M.State} (e : ε) :
      Halts M (.fail e) saved s (.error e) saved s
  | failed {q : S.Stmt} {k : Except S.Failure (S.Ans q) → Prog S ε α} {saved saved' : Option M.State}
      {s s' : M.State} {r : Except ε α} (f : S.Failure) :
      Halts M (k (.error f)) saved s r saved' s' → Halts M (.call q k) saved s r saved' s'
  | answered {q : S.Stmt} {k : Except S.Failure (S.Ans q) → Prog S ε α}
      {saved saved' : Option M.State} {s s' : M.State} {r : Except ε α} (c : M.Choice) (a : S.Ans q) :
      M.exec q c s = some a → Halts M (k (.ok a)) saved (M.applyAll (M.writes q a) s) r saved' s' →
      Halts M (.call q k) saved s r saved' s'
  | begun {iso : Isolation} {k : Prog S ε α} {saved saved' : Option M.State} {s s' : M.State}
      {r : Except ε α} : Halts M k (some (saved.getD s)) (saved.getD s) r saved' s' →
      Halts M (.beginTx iso k) saved s r saved' s'
  | refused {k : Except S.Failure Unit → Prog S ε α} {saved saved' : Option M.State} {s s' : M.State}
      {r : Except ε α} (f : S.Failure) : Halts M (k (.error f)) none (saved.getD s) r saved' s' →
      Halts M (.commitTx k) saved s r saved' s'
  | committed {k : Except S.Failure Unit → Prog S ε α} {saved saved' : Option M.State}
      {s s' : M.State} {r : Except ε α} : Halts M (k (.ok ())) none s r saved' s' →
      Halts M (.commitTx k) saved s r saved' s'
  | rolledBack {k : Prog S ε α} {saved saved' : Option M.State} {s s' : M.State} {r : Except ε α} :
      Halts M k none (saved.getD s) r saved' s' → Halts M (.rollbackTx k) saved s r saved' s'

variable {saved saved' : Option M.State} {s s' : M.State}

/-! ## The shape of a run -/

theorem halts_ret {a : α} {r : Except ε α} :
    Halts M (ret a) saved s r saved' s' ↔ r = .ok a ∧ saved' = saved ∧ s' = s := by
  constructor
  · intro h
    cases h
    exact ⟨rfl, rfl, rfl⟩
  · rintro ⟨rfl, rfl, rfl⟩
    exact .ret a

theorem halts_fail {e : ε} {r : Except ε α} :
    Halts M (fail e) saved s r saved' s' ↔ r = .error e ∧ saved' = saved ∧ s' = s := by
  constructor
  · intro h
    cases h
    exact ⟨rfl, rfl, rfl⟩
  · rintro ⟨rfl, rfl, rfl⟩
    exact .fail e

/-- What follows the end of a program. -/
def next (f : α → Prog S ε' β) (g : ε → Prog S ε' β) : Except ε α → Prog S ε' β
  | .ok a => f a
  | .error e => g e

theorem halts_handle {p : Prog S ε α} {f : α → Prog S ε' β} {g : ε → Prog S ε' β}
    {r : Except ε' β} :
    Halts M (p.handle f g) saved s r saved' s' ↔
      ∃ r₁ saved₁ s₁, Halts M p saved s r₁ saved₁ s₁ ∧ Halts M (next f g r₁) saved₁ s₁ r saved' s' := by
  constructor
  · intro h
    induction p generalizing saved s with
    | ret a => exact ⟨.ok a, saved, s, .ret a, h⟩
    | fail e => exact ⟨.error e, saved, s, .fail e, h⟩
    | call q k ih =>
        cases h with
        | failed e h =>
            obtain ⟨r₁, saved₁, s₁, hp, hrest⟩ := ih _ h
            exact ⟨r₁, saved₁, s₁, .failed e hp, hrest⟩
        | answered c a ha h =>
            obtain ⟨r₁, saved₁, s₁, hp, hrest⟩ := ih _ h
            exact ⟨r₁, saved₁, s₁, .answered c a ha hp, hrest⟩
    | beginTx iso k ih =>
        cases h with
        | begun h =>
            obtain ⟨r₁, saved₁, s₁, hp, hrest⟩ := ih h
            exact ⟨r₁, saved₁, s₁, .begun hp, hrest⟩
    | commitTx k ih =>
        cases h with
        | refused e h =>
            obtain ⟨r₁, saved₁, s₁, hp, hrest⟩ := ih _ h
            exact ⟨r₁, saved₁, s₁, .refused e hp, hrest⟩
        | committed h =>
            obtain ⟨r₁, saved₁, s₁, hp, hrest⟩ := ih _ h
            exact ⟨r₁, saved₁, s₁, .committed hp, hrest⟩
    | rollbackTx k ih =>
        cases h with
        | rolledBack h =>
            obtain ⟨r₁, saved₁, s₁, hp, hrest⟩ := ih h
            exact ⟨r₁, saved₁, s₁, .rolledBack hp, hrest⟩
  · rintro ⟨r₁, saved₁, s₁, hp, hrest⟩
    induction hp with
    | ret a => exact hrest
    | fail e => exact hrest
    | failed e _ ih => exact .failed e (ih hrest)
    | answered c a ha _ ih => exact .answered c a ha (ih hrest)
    | begun _ ih => exact .begun (ih hrest)
    | refused e _ ih => exact .refused e (ih hrest)
    | committed _ ih => exact .committed (ih hrest)
    | rolledBack _ ih => exact .rolledBack (ih hrest)

/-- The end of a run as the weakest precondition has it. -/
def Accepts (Q : α → Option M.State → M.State → Prop) (E : ε → Option M.State → M.State → Prop) :
    Except ε α → Option M.State → M.State → Prop
  | .ok a => Q a
  | .error e => E e

theorem Halts.of_wp {p : Prog S ε α} {r : Except ε α} (h : Halts M p saved s r saved' s')
    {Q : α → Option M.State → M.State → Prop} {E : ε → Option M.State → M.State → Prop}
    (hwp : p.wp M Q E saved s) : Accepts Q E r saved' s' := by
  induction h with
  | ret a => exact hwp
  | fail e => exact hwp
  | failed f _ ih => exact ih (hwp.1 f)
  | answered c a ha _ ih => exact ih (hwp.2 c a ha)
  | begun _ ih => exact ih hwp
  | refused f _ ih => exact ih (hwp.1 f)
  | committed _ ih => exact ih hwp.2
  | rolledBack _ ih => exact ih hwp

/-! ## Runs that are computed -/

/-- The relation says what `alone` computes. -/
theorem exists_alone_iff [Inhabited M.Choice] {p : Prog S ε α} {r : Except ε α} :
    (∃ cs, p.alone saved s cs = some (r, s')) ↔ ∃ saved', Halts M p saved s r saved' s' := by
  constructor
  · rintro ⟨cs, h⟩
    induction p generalizing saved s cs with
    | ret a =>
        obtain ⟨rfl, rfl⟩ := Prod.mk.inj (Option.some.inj h)
        exact ⟨saved, .ret a⟩
    | fail e =>
        obtain ⟨rfl, rfl⟩ := Prod.mk.inj (Option.some.inj h)
        exact ⟨saved, .fail e⟩
    | call q k ih =>
        cases cs with
        | nil => cases h
        | cons c cs =>
            cases c with
            | error f => exact (ih _ _ h).imp fun _ => .failed f
            | ok c =>
                simp only [alone] at h
                split at h
                · next a ha => exact (ih _ _ h).imp fun _ => .answered c a ha
                · cases h
    | beginTx iso k ih => exact (ih _ h).imp fun _ => .begun
    | commitTx k ih =>
        cases cs with
        | nil => cases h
        | cons c cs =>
            cases c with
            | error f => exact (ih _ _ h).imp fun _ => .refused f
            | ok c => exact (ih _ _ h).imp fun _ => .committed
    | rollbackTx k ih => exact (ih _ h).imp fun _ => .rolledBack
  · rintro ⟨saved', h⟩
    induction h with
    | ret a => exact ⟨[], rfl⟩
    | fail e => exact ⟨[], rfl⟩
    | failed f _ ih => exact ih.imp' (.error f :: ·) fun _ h => h
    | answered c a ha _ ih =>
        obtain ⟨cs, hcs⟩ := ih
        refine ⟨.ok c :: cs, ?_⟩
        simp only [alone, ha]
        exact hcs
    | begun _ ih => exact ih
    | refused f _ ih => exact ih.imp' (.error f :: ·) fun _ h => h
    | committed _ ih => exact ih.imp' (.ok default :: ·) fun _ h => h
    | rolledBack _ ih => exact ih

end Prog
