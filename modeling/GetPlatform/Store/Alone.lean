import GetPlatform.Store.Semantics

set_option autoImplicit false

/-! # A program run alone

`wp Q E p saved s` is the weakest precondition of running `p` by itself from state `s`: however the
run goes, whatever the choices and whichever statements fail, it ends in a result and a state that
`Q` accepts, or in an error and a state that `E` accepts. While a transaction is open, `saved` is the
state a rollback goes back to. Programs are finite trees, so every run ends.

`alone` carries out one such run, given what each statement and each commit meets: a choice, or a
failure. `Serial` is a sequence of programs, each run to its end before the next one starts. -/

namespace Prog

variable {S : Interface} {ε ε' α β : Type} (M : Model S)

def wp : Prog S ε α → (Q : α → Option M.State → M.State → Prop) →
    (E : ε → Option M.State → M.State → Prop) → (saved : Option M.State) → (s : M.State) → Prop
  | .ret a, Q, _, saved, s => Q a saved s
  | .fail e, _, E, saved, s => E e saved s
  | .call q k, Q, E, saved, s =>
      (∀ f, (k (.error f)).wp Q E saved s) ∧
      ∀ c a, M.exec q c s = some a → (k (.ok a)).wp Q E saved (M.applyAll (M.writes q a) s)
  | .beginTx _ k, Q, E, saved, s => k.wp Q E (some (saved.getD s)) (saved.getD s)
  | .commitTx k, Q, E, saved, s =>
      (∀ f, (k (.error f)).wp Q E none (saved.getD s)) ∧ (k (.ok ())).wp Q E none s
  | .rollbackTx k, Q, E, saved, s => k.wp Q E none (saved.getD s)

variable {M} {Q : α → Option M.State → M.State → Prop} {E : ε → Option M.State → M.State → Prop}
  {saved : Option M.State} {s : M.State}

@[simp] theorem wp_ret (a : α) : (ret a : Prog S ε α).wp M Q E saved s ↔ Q a saved s := Iff.rfl

@[simp] theorem wp_fail (e : ε) : (fail e : Prog S ε α).wp M Q E saved s ↔ E e saved s := Iff.rfl

/-- Sequencing: the first part has to end where the continuation can start. -/
@[simp] theorem wp_handle {Q : β → Option M.State → M.State → Prop}
    {E : ε' → Option M.State → M.State → Prop} (p : Prog S ε α) (f : α → Prog S ε' β)
    (g : ε → Prog S ε' β) :
    (p.handle f g).wp M Q E saved s ↔
      p.wp M (fun a => (f a).wp M Q E) (fun e => (g e).wp M Q E) saved s := by
  induction p generalizing saved s with
  | ret a => rfl
  | fail e => rfl
  | call q k ih => simp only [handle, wp, ih]
  | beginTx iso k ih => simp only [handle, wp, ih]
  | commitTx k ih => simp only [handle, wp, ih]
  | rollbackTx k ih => simp only [handle, wp, ih]

theorem wp_mono {Q' : α → Option M.State → M.State → Prop} {E' : ε → Option M.State → M.State → Prop}
    (hQ : ∀ a saved s, Q a saved s → Q' a saved s) (hE : ∀ e saved s, E e saved s → E' e saved s)
    {p : Prog S ε α} (h : p.wp M Q E saved s) : p.wp M Q' E' saved s := by
  induction p generalizing saved s with
  | ret a => exact hQ a saved s h
  | fail e => exact hE e saved s h
  | call q k ih => exact ⟨fun f => ih _ (h.1 f), fun c a ha => ih _ (h.2 c a ha)⟩
  | beginTx iso k ih => exact ih h
  | commitTx k ih => exact ⟨fun f => ih _ (h.1 f), ih _ h.2⟩
  | rollbackTx k ih => exact ih h

theorem wp_query {q : S.Stmt} {Q : S.Ans q → Option M.State → M.State → Prop}
    (φ : S.Failure → ε) :
    (query φ q : Prog S ε (S.Ans q)).wp M Q E saved s ↔
      (∀ f, E (φ f) saved s) ∧
        ∀ c a, M.exec q c s = some a → Q a saved (M.applyAll (M.writes q a) s) := Iff.rfl

@[simp] theorem wp_ite (c : Prop) [Decidable c] (p p' : Prog S ε α) :
    (if c then p else p').wp M Q E saved s ↔
      (c → p.wp M Q E saved s) ∧ (¬ c → p'.wp M Q E saved s) := by
  by_cases h : c <;> simp [h]

/-- A transaction: its body commits, or leaves the state as it was. -/
theorem wp_transaction (φ : S.Failure → ε) (iso : Isolation) (body : Prog S ε α) :
    (transaction φ iso body).wp M Q E none s ↔
      body.wp M (fun a saved s' => (∀ f, E (φ f) none (saved.getD s')) ∧ Q a none s')
        (fun e saved s' => E e none (saved.getD s')) (some s) s := by
  simp [transaction, wp]

/-- A loop: what holds of the items done so far is kept by each turn. -/
theorem wp_forM {f : β → Prog S ε PUnit} (xs : List β)
    (I : List β → Option M.State → M.State → Prop)
    (hstep : ∀ done x, done ++ [x] <+: xs → ∀ saved s, I done saved s →
      (f x).wp M (fun _ => I (done ++ [x])) E saved s)
    (h : I [] saved s) : (xs.forM f).wp M (fun _ => I xs) E saved s := by
  suffices hrest : ∀ rest done saved s, done ++ rest = xs → I done saved s →
      (rest.forM f).wp M (fun _ => I xs) E saved s from hrest xs [] saved s rfl h
  intro rest
  induction rest with
  | nil =>
    intro done saved s hdone hI
    rw [List.append_nil] at hdone
    exact hdone ▸ hI
  | cons x rest ih =>
    intro done saved s hdone hI
    have hnext : done ++ [x] ++ rest = xs := by rw [List.append_assoc]; exact hdone
    show ((f x).handle (fun _ => rest.forM f) .fail).wp M _ E saved s
    rw [wp_handle]
    exact wp_mono (fun _ saved s hI' => ih (done ++ [x]) saved s hnext hI') (fun _ _ _ he => he)
      (hstep done x ⟨rest, hnext⟩ saved s hI)

/-! ## The states on the way -/

/-- The states that others see while the program runs by itself: those before the commit of a
    transaction are not seen. -/
inductive Through (M : Model S) : Prog S ε α → Option M.State → M.State → M.State → Prop
  | here {p : Prog S ε α} {saved : Option M.State} {s : M.State} : Through M p saved s (saved.getD s)
  | failed {q : S.Stmt} {k : Except S.Failure (S.Ans q) → Prog S ε α} {saved : Option M.State}
      {s s' : M.State} (f : S.Failure) :
      Through M (k (.error f)) saved s s' → Through M (.call q k) saved s s'
  | answered {q : S.Stmt} {k : Except S.Failure (S.Ans q) → Prog S ε α} {saved : Option M.State}
      {s s' : M.State} (c : M.Choice) (a : S.Ans q) : M.exec q c s = some a →
      Through M (k (.ok a)) saved (M.applyAll (M.writes q a) s) s' → Through M (.call q k) saved s s'
  | begun {iso : Isolation} {k : Prog S ε α} {saved : Option M.State} {s s' : M.State} :
      Through M k (some (saved.getD s)) (saved.getD s) s' → Through M (.beginTx iso k) saved s s'
  | refused {k : Except S.Failure Unit → Prog S ε α} {saved : Option M.State} {s s' : M.State}
      (f : S.Failure) :
      Through M (k (.error f)) none (saved.getD s) s' → Through M (.commitTx k) saved s s'
  | committed {k : Except S.Failure Unit → Prog S ε α} {saved : Option M.State} {s s' : M.State} :
      Through M (k (.ok ())) none s s' → Through M (.commitTx k) saved s s'
  | rolledBack {k : Prog S ε α} {saved : Option M.State} {s s' : M.State} :
      Through M k none (saved.getD s) s' → Through M (.rollbackTx k) saved s s'

/-- From any point on everything may fail, and then nothing is written any more. -/
theorem of_wp [Inhabited S.Failure] {I : M.State → Prop} {p : Prog S ε α}
    {saved : Option M.State} {s : M.State}
    (h : p.wp M (fun _ saved s => I (saved.getD s)) (fun _ saved s => I (saved.getD s)) saved s) :
    I (saved.getD s) := by
  induction p generalizing saved s with
  | ret a => exact h
  | fail e => exact h
  | call q k ih => exact ih _ (h.1 default)
  | beginTx iso k ih => exact @ih (some (saved.getD s)) (saved.getD s) h
  | commitTx k ih => exact @ih _ none (saved.getD s) (h.1 default)
  | rollbackTx k ih => exact @ih none (saved.getD s) h

/-- What holds however a run ends holds all the way. -/
theorem wp_through [Inhabited S.Failure] {I : M.State → Prop} {p : Prog S ε α}
    {saved : Option M.State} {s s' : M.State}
    (h : p.wp M (fun _ saved s => I (saved.getD s)) (fun _ saved s => I (saved.getD s)) saved s)
    (hrun : Through M p saved s s') : I s' := by
  induction hrun with
  | here => exact of_wp h
  | failed f _ ih => exact ih (h.1 f)
  | answered c a ha _ ih => exact ih (h.2 c a ha)
  | begun _ ih => exact ih h
  | refused f _ ih => exact ih (h.1 f)
  | committed _ ih => exact ih h.2
  | rolledBack _ ih => exact ih h

/-- The state that others see once the program has met these answers and failures. -/
def seen : Prog S ε α → Option M.State → M.State → List (Except S.Failure M.Choice) → M.State
  | .call q k, saved, s, .ok c :: cs =>
      match M.exec q c s with
      | some a => (k (.ok a)).seen saved (M.applyAll (M.writes q a) s) cs
      | none => saved.getD s
  | .call _ k, saved, s, .error f :: cs => (k (.error f)).seen saved s cs
  | .beginTx _ k, saved, s, cs => k.seen (some (saved.getD s)) (saved.getD s) cs
  | .commitTx k, _, s, .ok _ :: cs => (k (.ok ())).seen none s cs
  | .commitTx k, saved, s, .error f :: cs => (k (.error f)).seen none (saved.getD s) cs
  | .rollbackTx k, saved, s, cs => k.seen none (saved.getD s) cs
  | _, saved, s, _ => saved.getD s

theorem through_seen (p : Prog S ε α) (saved : Option M.State) (s : M.State)
    (cs : List (Except S.Failure M.Choice)) : Through M p saved s (p.seen saved s cs) := by
  induction p generalizing saved s cs with
  | ret a => exact .here
  | fail e => exact .here
  | call q k ih =>
      match cs with
      | [] => exact .here
      | .error f :: cs => exact .failed f (ih _ saved s cs)
      | .ok c :: cs =>
          rw [seen]
          split
          · next a ha => exact .answered c a ha (ih _ _ _ cs)
          · exact .here
  | beginTx iso k ih => exact .begun (ih _ _ cs)
  | commitTx k ih =>
      match cs with
      | [] => exact .here
      | .error f :: cs => exact .refused f (ih _ _ _ cs)
      | .ok c :: cs => exact .committed (ih _ _ _ cs)
  | rollbackTx k ih => exact .rolledBack (ih _ _ cs)

/-! ## One run -/

/-- Run the program by itself; `none` when the list does not fit the statements it comes to. -/
def alone : Prog S ε α → Option M.State → M.State → List (Except S.Failure M.Choice) →
    Option (Except ε α × M.State)
  | .ret a, _, s, _ => some (.ok a, s)
  | .fail e, _, s, _ => some (.error e, s)
  | .call q k, saved, s, .ok c :: cs =>
      match M.exec q c s with
      | some a => (k (.ok a)).alone saved (M.applyAll (M.writes q a) s) cs
      | none => none
  | .call _ k, saved, s, .error f :: cs => (k (.error f)).alone saved s cs
  | .beginTx _ k, saved, s, cs => k.alone (some (saved.getD s)) (saved.getD s) cs
  | .commitTx k, _, s, .ok _ :: cs => (k (.ok ())).alone none s cs
  | .commitTx k, saved, s, .error f :: cs => (k (.error f)).alone none (saved.getD s) cs
  | .rollbackTx k, saved, s, cs => k.alone none (saved.getD s) cs
  | _, _, _, [] => none

/-- A run ends as the weakest precondition says. -/
theorem wp_alone {P : Except ε α → M.State → Prop} {p : Prog S ε α} {saved : Option M.State}
    {s : M.State} (h : p.wp M (fun a _ => P (.ok a)) (fun e _ => P (.error e)) saved s)
    {cs : List (Except S.Failure M.Choice)} {r : Except ε α} {s' : M.State}
    (hrun : p.alone saved s cs = some (r, s')) : P r s' := by
  induction p generalizing saved s cs with
  | ret a =>
      simp only [alone, Option.some.injEq, Prod.mk.injEq] at hrun
      obtain ⟨rfl, rfl⟩ := hrun
      exact h
  | fail e =>
      simp only [alone, Option.some.injEq, Prod.mk.injEq] at hrun
      obtain ⟨rfl, rfl⟩ := hrun
      exact h
  | call q k ih =>
      obtain ⟨hfail, hok⟩ := h
      cases cs with
      | nil => simp [alone] at hrun
      | cons c cs =>
          cases c with
          | error f => exact ih _ (hfail f) hrun
          | ok c =>
              simp only [alone] at hrun
              split at hrun
              · next a ha => exact ih _ (hok c a ha) hrun
              · cases hrun
  | beginTx iso k ih => exact ih h hrun
  | commitTx k ih =>
      obtain ⟨hfail, hok⟩ := h
      cases cs with
      | nil => simp [alone] at hrun
      | cons c cs =>
          cases c with
          | error f => exact ih _ (hfail f) hrun
          | ok c => exact ih _ hok hrun
  | rollbackTx k ih => exact ih h hrun

/-- The first statement of a run is answered, or it fails. -/
theorem alone_query {φ : S.Failure → ε'} {q : S.Stmt} {f : S.Ans q → Prog S ε β}
    {g : ε' → Prog S ε β} {saved : Option M.State} {s : M.State}
    {cs : List (Except S.Failure M.Choice)} {r : Except ε β} {s' : M.State}
    (h : ((query φ q).handle f g).alone (M := M) saved s cs = some (r, s')) :
    (∃ e cs', cs = .error e :: cs' ∧ (g (φ e)).alone (M := M) saved s cs' = some (r, s')) ∨
      ∃ c cs' a, cs = .ok c :: cs' ∧ M.exec q c s = some a ∧
        (f a).alone (M := M) saved (M.applyAll (M.writes q a) s) cs' = some (r, s') := by
  cases cs with
  | nil => simp [query, alone] at h
  | cons c cs =>
      cases c with
      | error e => exact .inl ⟨e, cs, rfl, h⟩
      | ok c =>
          simp only [query, handle_call, alone] at h
          split at h
          · next a ha => exact .inr ⟨c, cs, a, rfl, ha, h⟩
          · cases h

/-- What every write keeps holds at the end. -/
theorem alone_keeps {I : M.State → Prop} (hI : ∀ w s, I s → I (M.apply w s)) {p : Prog S ε α}
    {saved : Option M.State} {s : M.State} {cs : List (Except S.Failure M.Choice)} {r : Except ε α}
    {s' : M.State} (hrun : p.alone saved s cs = some (r, s')) (hs : I s) (hsaved : I (saved.getD s)) :
    I s' := by
  induction p generalizing saved s cs with
  | ret a =>
      simp only [alone, Option.some.injEq, Prod.mk.injEq] at hrun
      exact hrun.2 ▸ hs
  | fail e =>
      simp only [alone, Option.some.injEq, Prod.mk.injEq] at hrun
      exact hrun.2 ▸ hs
  | call q k ih =>
      cases cs with
      | nil => simp [alone] at hrun
      | cons c cs =>
          cases c with
          | error φ => exact ih _ hrun hs hsaved
          | ok c =>
              simp only [alone] at hrun
              split at hrun
              · next a ha =>
                  have hwritten := @Model.applyAll_keeps _ M I (M.writes q a) (fun w _ s => hI w s) _ hs
                  refine ih _ hrun hwritten ?_
                  cases saved with
                  | none => exact hwritten
                  | some s₁ => exact hsaved
              · cases hrun
  | beginTx iso k ih => exact ih hrun hsaved hsaved
  | commitTx k ih =>
      cases cs with
      | nil => simp [alone] at hrun
      | cons c cs =>
          cases c with
          | error φ => exact ih _ hrun hsaved hsaved
          | ok c => exact ih _ hrun hs hs
  | rollbackTx k ih => exact ih hrun hsaved hsaved

/-- What no write changes is the same at the end. -/
theorem alone_frame {γ : Type} (f : M.State → γ) (hf : ∀ w s, f (M.apply w s) = f s)
    {p : Prog S ε α} {saved : Option M.State} {s : M.State}
    {cs : List (Except S.Failure M.Choice)} {r : Except ε α} {s' : M.State}
    (hrun : p.alone saved s cs = some (r, s')) (hsaved : f (saved.getD s) = f s) : f s' = f s :=
  alone_keeps (I := fun t => f t = f s) (fun w t ht => (hf w t).trans ht) hrun rfl hsaved

/-- A program that goes on to give its result another form ends where it ends. -/
theorem alone_map (f : α → β) (p : Prog S ε α) (saved : Option M.State) (s : M.State)
    (cs : List (Except S.Failure M.Choice)) :
    (f <$> p).alone saved s cs = (p.alone saved s cs).map fun out => (out.1.map f, out.2) := by
  rw [map_eq]
  induction p generalizing saved s cs with
  | ret a => rfl
  | fail e => rfl
  | call q k ih =>
      match cs with
      | [] => rfl
      | .error φ :: cs => exact ih _ saved s cs
      | .ok c :: cs =>
          simp only [handle, alone]
          split
          · next a ha => exact ih _ _ _ cs
          · rfl
  | beginTx iso k ih => exact ih _ _ cs
  | commitTx k ih =>
      match cs with
      | [] => rfl
      | .error φ :: cs => exact ih _ _ _ cs
      | .ok c :: cs => exact ih _ _ _ cs
  | rollbackTx k ih => exact ih _ _ cs

theorem alone_of_map {f : α → β} {p : Prog S ε α} {saved : Option M.State} {s : M.State}
    {cs : List (Except S.Failure M.Choice)} {r : Except ε β} {s' : M.State}
    (h : (f <$> p).alone (M := M) saved s cs = some (r, s')) :
    ∃ r', p.alone (M := M) saved s cs = some (r', s') := by
  rw [alone_map] at h
  obtain ⟨⟨r', s₁⟩, hout, heq⟩ := Option.map_eq_some_iff.1 h
  obtain ⟨-, rfl⟩ := Prod.mk.inj heq
  exact ⟨r', hout⟩

end Prog

/-! ## One program after the other -/

/-- The states reached from `s₀` by running programs one after the other, each to its end. -/
inductive Serial {S : Interface} (M : Model S) {ε α Op : Type} (prog : Op → Prog S ε α)
    (s₀ : M.State) : M.State → Prop
  | refl : Serial M prog s₀ s₀
  | run {s s' : M.State} {r : Except ε α} (o : Op) (cs : List (Except S.Failure M.Choice)) :
      Serial M prog s₀ s → (prog o).alone none s cs = some (r, s') → Serial M prog s₀ s'
  | env {s : M.State} (e : M.Env) : Serial M prog s₀ s → Serial M prog s₀ (M.env e s)

/-- What holds at the start, and is kept by every program and by the environment, holds of every state
    reached. -/
theorem Serial.holds {S : Interface} {M : Model S} {ε α Op : Type} {prog : Op → Prog S ε α}
    {s₀ s : M.State} {P : M.State → Prop} (h : Serial M prog s₀ s) (h₀ : P s₀)
    (hrun : ∀ {s s' : M.State} {r : Except ε α} (o : Op) (cs : List (Except S.Failure M.Choice)),
      Serial M prog s₀ s → (prog o).alone none s cs = some (r, s') → P s → P s')
    (henv : ∀ {s : M.State} (e : M.Env), Serial M prog s₀ s → P s → P (M.env e s)) : P s := by
  induction h with
  | refl => exact h₀
  | run o cs hbefore halone ih => exact hrun o cs hbefore halone ih
  | env e hbefore ih => exact henv e hbefore ih

/-- Run a list of programs, each with what its statements meet. -/
def serially {S : Interface} {M : Model S} {ε α Op : Type} (prog : Op → Prog S ε α) :
    M.State → List (Op × List (Except S.Failure M.Choice)) → Option M.State
  | s, [] => some s
  | s, (o, cs) :: rest => ((prog o).alone none s cs).bind fun out => serially prog out.2 rest

theorem Serial.of_serially {S : Interface} {M : Model S} {ε α Op : Type} {prog : Op → Prog S ε α}
    {s₀ s s' : M.State} {os : List (Op × List (Except S.Failure M.Choice))}
    (h : Serial M prog s₀ s) (hplay : serially prog s os = some s') : Serial M prog s₀ s' := by
  induction os generalizing s with
  | nil =>
      obtain rfl := Option.some.inj hplay
      exact h
  | cons call rest ih =>
      obtain ⟨o, cs⟩ := call
      obtain ⟨⟨r, s₁⟩, hout, hrest⟩ := Option.bind_eq_some_iff.1 hplay
      exact ih (h.run o cs hout) hrest
