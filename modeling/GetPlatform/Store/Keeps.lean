import GetPlatform.Store.Journal
import GetPlatform.Store.Trace

set_option autoImplicit false

/-! # Programs that keep a property

Run by itself, a program keeps a property if it leaves it true however it ends, of the state and of the
one a rollback goes back to. Such programs compose; a statement that always keeps it does so anywhere,
and what remains is to look at the statements that keep it only because of what was read before. -/

namespace Prog

variable {S : Interface} {M : Model S} {ε ε' α β Op : Type}

/-- The property holds now, and of what a rollback would go back to. -/
def Stands (I : M.State → Prop) (saved : Option M.State) (s : M.State) : Prop :=
  I s ∧ ∀ s₁, saved = some s₁ → I s₁

def Keeps (M : Model S) (I : M.State → Prop) (p : Prog S ε α) : Prop :=
  ∀ saved s, Stands I saved s → p.wp M (fun _ => Stands I) (fun _ => Stands I) saved s

variable {I : M.State → Prop} {saved : Option M.State} {s : M.State}

theorem stands_none (h : I s) : Stands I none s := ⟨h, fun _ h => by cases h⟩

theorem Stands.getD (h : Stands I saved s) : I (saved.getD s) := by
  cases saved with
  | none => exact h.1
  | some s₁ => exact h.2 s₁ rfl

/-- The state moves on inside the transaction, if there is one. -/
theorem Stands.next {s' : M.State} (h : Stands I saved s) (hs' : I s') : Stands I saved s' :=
  ⟨hs', h.2⟩

theorem Keeps.ret (a : α) : Keeps M I (ret a : Prog S ε α) := fun _ _ h => h

theorem Keeps.fail (e : ε) : Keeps M I (fail e : Prog S ε α) := fun _ _ h => h

theorem Keeps.handle {p : Prog S ε α} {f : α → Prog S ε' β} {g : ε → Prog S ε' β} (hp : Keeps M I p)
    (hf : ∀ a, Keeps M I (f a)) (hg : ∀ e, Keeps M I (g e)) : Keeps M I (p.handle f g) := by
  intro saved s h
  rw [wp_handle]
  exact wp_mono (fun a saved s h => hf a saved s h) (fun e saved s h => hg e saved s h) (hp saved s h)

theorem Keeps.ite {c : Prop} [Decidable c] {p p' : Prog S ε α} (h : c → Keeps M I p)
    (h' : ¬ c → Keeps M I p') : Keeps M I (if c then p else p') := by
  split
  · next hc => exact h hc
  · next hc => exact h' hc

/-- Statements that always keep the property. -/
theorem Sends.keeps {P : S.Stmt → Prop}
    (hP : ∀ {q : S.Stmt} {c : M.Choice} {a : S.Ans q} {s : M.State}, P q → M.exec q c s = some a →
      I s → I (M.applyAll (M.writes q a) s)) {p : Prog S ε α} (hp : p.Sends P) : Keeps M I p := by
  intro saved s h
  induction p generalizing saved s with
  | ret a => exact h
  | fail e => exact h
  | call q k ih =>
      exact ⟨fun f => ih _ (hp.2 _) _ _ h, fun c a ha =>
        ih _ (hp.2 _) _ _ (h.next (hP hp.1 ha h.1))⟩
  | beginTx iso k ih =>
      refine ih hp _ _ ⟨h.getD, fun s₁ hs₁ => ?_⟩
      exact Option.some.inj hs₁ ▸ h.getD
  | commitTx k ih =>
      exact ⟨fun f => ih _ (hp _) _ _ (stands_none h.getD), ih _ (hp _) _ _ (stands_none h.1)⟩
  | rollbackTx k ih => exact ih hp _ _ (stands_none h.getD)

/-- The program keeps the property from this state on. -/
abbrev KeepsFrom (M : Model S) (I : M.State → Prop) (saved : Option M.State) (s : M.State)
    (p : Prog S ε α) : Prop :=
  p.wp M (fun _ => Stands I) (fun _ => Stands I) saved s

/-- A statement, and what follows its answer. -/
theorem wp_step {Q : β → Option M.State → M.State → Prop} {E : ε' → Option M.State → M.State → Prop}
    {φ : S.Failure → ε} {q : S.Stmt} {f : S.Ans q → Prog S ε' β} {g : ε → Prog S ε' β}
    (hg : ∀ e, (g (φ e)).wp M Q E saved s)
    (hf : ∀ c a, M.exec q c s = some a → (f a).wp M Q E saved (M.applyAll (M.writes q a) s)) :
    ((query φ q).handle f g).wp M Q E saved s := (wp_handle ..).2 ⟨hg, hf⟩

/-- A statement that only reads: what follows knows what was read. -/
theorem wp_read {Q : β → Option M.State → M.State → Prop} {E : ε' → Option M.State → M.State → Prop}
    {φ : S.Failure → ε} {q : S.Stmt} {f : S.Ans q → Prog S ε' β} {g : ε → Prog S ε' β}
    (hread : ∀ a, M.writes q a = []) (hg : ∀ e, (g (φ e)).wp M Q E saved s)
    (hf : ∀ c a, M.exec q c s = some a → (f a).wp M Q E saved s) :
    ((query φ q).handle f g).wp M Q E saved s := by
  refine wp_step hg fun c a ha => ?_
  have hsame : M.applyAll (M.writes q a) s = s := by
    rw [hread]
    rfl
  rw [hsame]
  exact hf c a ha

theorem KeepsFrom.read {φ : S.Failure → ε} {q : S.Stmt} {f : S.Ans q → Prog S ε' β}
    {g : ε → Prog S ε' β} (hread : ∀ a, M.writes q a = []) (h : Stands I saved s)
    (hg : ∀ e, Keeps M I (g e))
    (hf : ∀ c a, M.exec q c s = some a → KeepsFrom M I saved s (f a)) :
    KeepsFrom M I saved s ((query φ q).handle f g) :=
  wp_read hread (fun _ => hg _ _ _ h) hf

/-- A statement that keeps the property in this state, before a program that always does. -/
theorem KeepsFrom.write {φ : S.Failure → ε} {q : S.Stmt} {f : S.Ans q → Prog S ε' β}
    {g : ε → Prog S ε' β} (h : Stands I saved s)
    (hwrite : ∀ c a, M.exec q c s = some a → I (M.applyAll (M.writes q a) s))
    (hf : ∀ a, Keeps M I (f a)) (hg : ∀ e, Keeps M I (g e)) :
    KeepsFrom M I saved s ((query φ q).handle f g) :=
  wp_step (fun _ => hg _ _ _ h) fun c a ha => hf a _ _ (h.next (hwrite c a ha))

/-- A transaction whose body has its effect when it returns: the commit makes it stand, and nothing is
    left of it otherwise. -/
theorem wp_of_transaction {P : ε → Prop} {Q : α → M.State → Prop} {φ : S.Failure → ε}
    {iso : Isolation} {body : Prog S ε α} (hφ : ∀ f, P (φ f))
    (hbody : body.wp M (fun a saved s' => saved = some s ∧ Q a s')
      (fun e saved _ => saved = some s ∧ P e) (some s) s) :
    (transaction φ iso body).wp M (fun a saved s' => saved = none ∧ Q a s')
      (fun e saved s' => saved = none ∧ s' = s ∧ P e) none s := by
  refine (wp_transaction ..).2 (wp_mono (fun a saved s' hdone => ?_) (fun e saved s' hfailed => ?_) hbody)
  · obtain ⟨rfl, hdone⟩ := hdone
    exact ⟨fun f => ⟨rfl, rfl, hφ f⟩, rfl, hdone⟩
  · obtain ⟨rfl, he⟩ := hfailed
    exact ⟨rfl, rfl, he⟩

/-- A program that keeps the property leaves it true at the end of its run. -/
theorem Keeps.alone {p : Prog S ε α} (hp : Keeps M I p) (hs : I s)
    {cs : List (Except S.Failure M.Choice)} {r : Except ε α} {s' : M.State}
    (hrun : p.alone none s cs = some (r, s')) : I s' :=
  wp_alone (P := fun _ s' => I s')
    (wp_mono (fun _ _ _ h => h.1) (fun _ _ _ h => h.1) (hp none s (stands_none hs))) hrun

/-- What every call that may be made keeps holds after any number of them, one after the other. -/
theorem Keeps.journal {prog : Op → Prog S ε α} {R : TurnRule M Op ε α} {s₀ : M.State}
    (hprog : ∀ h s o cs, R h s o cs → Keeps M I (prog o)) (henv : ∀ e s, I s → I (M.env e s))
    (h₀ : I s₀) {h : List (Turn M Op ε α)} (hrun : Journal M prog R s₀ h s) : I s :=
  hrun.holds (P := fun _ s => I s) h₀
    (fun o cs _ hR halone hs => (hprog _ _ o cs hR).alone hs halone) fun e _ hs => henv e _ hs

end Prog
