import GetPlatform.Store.Invariant

set_option autoImplicit false

/-! # Facts that stay true

Some facts about a database, once they hold, hold for ever: that a row exists, to whom it belongs.
A call learns them from its answers, and what it learned long ago is as good as what it sees now. So
a statement that is safe where some lasting facts hold is safe whenever its call has learned them, and
an invariant that safe statements keep holds in every interleaving, inside and outside transactions. -/

namespace Pool

/-- Facts that last, what an answer shows of them, and which statements they make safe. -/
structure Learning {S : Interface} (M : Model S) where
  Fact : Type
  Knows : M.State → Fact → Prop
  shows : Event S → Fact → Prop
  /-- Is the statement safe where these facts hold? -/
  Licensed : (Fact → Prop) → S.Stmt → Prop
  mono : ∀ {K K' : Fact → Prop} {q : S.Stmt}, (∀ f, K f → K' f) → Licensed K q → Licensed K' q
  lasts : ∀ (w : M.Write) (s : M.State) (f : Fact), Knows s f → Knows (M.apply w s) f
  env : ∀ (e : M.Env) (s : M.State) (f : Fact), Knows s f → Knows (M.env e s) f
  shown : ∀ {q : S.Stmt} {a : S.Ans q} {c : M.Choice} {s : M.State} {f : Fact},
    M.exec q c s = some a → shows ⟨q, a⟩ f → Knows (M.applyAll (M.writes q a) s) f

namespace Learning

variable {S : Interface} {M : Model S} {Op ε α : Type} (L : Learning M)

theorem lasts_applyAll (ws : List M.Write) {s : M.State} {f : L.Fact} (h : L.Knows s f) :
    L.Knows (M.applyAll ws s) f :=
  M.applyAll_keeps (P := fun s => L.Knows s f) (fun w _ s hs => L.lasts w s f hs) h

/-- What has been learned from these answers. -/
def learned (es : List (Event S)) (f : L.Fact) : Prop := ∃ e ∈ es, L.shows e f

theorem learned_push {es : List (Event S)} {e : Event S} {f : L.Fact} :
    L.learned (es ++ [e]) f ↔ L.learned es f ∨ L.shows e f := by
  simp [learned, or_and_right, exists_or]

/-- Every statement is safe by what its call has learned. Inside a transaction nothing is learned. -/
def guards : Guards S Op where
  stmt l q := L.Licensed (L.learned l.done) q ∧ (l.tx ≠ none → ∀ a f, ¬ L.shows ⟨q, a⟩ f)
  commit _ := True

/-- What a call has learned holds, and what it has sent in its open transaction is safe by it. -/
structure Told (s : M.State) (l : Trace S Op) : Prop where
  knows : ∀ f, L.learned l.done f → L.Knows s f
  licensed : ∀ e ∈ l.pending, L.Licensed (L.learned l.done) e.stmt
  silent : ∀ e ∈ l.pending, ∀ f, ¬ L.shows e f
  possible : ∀ e ∈ l.pending, M.Possible e.stmt e.ans

variable {L} {s : M.State} {l : Trace S Op}

theorem Told.of_outside (h : ∀ f, L.learned l.done f → L.Knows s f) (hl : l.pending = []) :
    L.Told s l where
  knows := h
  licensed e he := by simp [hl] at he
  silent e he := by simp [hl] at he
  possible e he := by simp [hl] at he

/-- What has been learned lasts. -/
theorem Told.later {s' : M.State} (h : L.Told s l) (hlasts : ∀ f, L.Knows s f → L.Knows s' f) :
    L.Told s' l :=
  ⟨fun f hf => hlasts f (h.knows f hf), h.licensed, h.silent, h.possible⟩

theorem Told.drop (h : L.Told s l) : L.Told s l.drop := .of_outside h.knows rfl

theorem Told.openTx (h : L.Told s l) (iso : Isolation) : L.Told s (l.openTx iso) :=
  .of_outside h.knows rfl

/-- A statement outside a transaction: what it shows holds once it is carried out. -/
theorem Told.push {q : S.Stmt} {a : S.Ans q} {c : M.Choice} (h : L.Told s l) (hl : l.tx = none)
    (hexec : M.exec q c s = some a) :
    L.Told (M.applyAll (M.writes q a) s) (l.push ⟨q, a⟩) := by
  rw [Trace.push_of_none hl]
  refine .of_outside (fun f hf => ?_) (Trace.pending_of_none hl)
  rcases L.learned_push.1 hf with hf | hf
  · exact L.lasts_applyAll _ (h.knows f hf)
  · exact L.shown hexec hf

theorem Told.pushTx {x : Tx S} {q : S.Stmt} {a : S.Ans q} (h : L.Told s l) (hl : l.tx = some x)
    (hguard : L.guards.stmt l q) (hpossible : M.Possible q a) : L.Told s (l.push ⟨q, a⟩) := by
  rw [Trace.push_of_some hl]
  have hpending : ∀ e ∈ x.events ++ [⟨q, a⟩], e ∈ l.pending ∨ e = ⟨q, a⟩ := fun e he => by
    rw [Trace.pending_of_some hl]
    simpa using he
  have hsilent : ∀ a f, ¬ L.shows ⟨q, a⟩ f := hguard.2 (by simp [hl])
  refine ⟨h.knows, fun e he => ?_, fun e he => ?_, fun e he => ?_⟩ <;>
    rcases hpending e he with he | rfl
  · exact h.licensed e he
  · exact hguard.1
  · exact h.silent e he
  · exact hsilent a
  · exact h.possible e he
  · exact hpossible

/-- A commit teaches nothing. -/
theorem Told.commit {s' : M.State} (h : L.Told s l) (hlasts : ∀ f, L.Knows s f → L.Knows s' f) :
    L.Told s' l.commit := by
  refine .of_outside (fun f hf => ?_) rfl
  obtain ⟨e, he, hf⟩ := hf
  rcases List.mem_append.1 he with he | he
  · exact hlasts f (h.knows f ⟨e, he, hf⟩)
  · exact absurd hf (h.silent e he f)

section Invariant

variable {R : Pool M Op ε α → Step M Op → Prop} {I : M.State → Prop}
  (hkeeps : ∀ {q : S.Stmt} {a : S.Ans q} {s : M.State}, M.Possible q a → L.Licensed (L.Knows s) q →
    I s → I (M.applyAll (M.writes q a) s))

include hkeeps

/-- The statements of a transaction keep the invariant of whatever state they are applied to. -/
theorem Told.replay (h : L.Told s l) (hs : I s) : I (l.view M s) := by
  have hreplay : ∀ (es : List (Event S)) (s : M.State), (∀ e ∈ es, e ∈ l.pending) → I s →
      (∀ f, L.learned l.done f → L.Knows s f) → I (M.replay es s) := by
    intro es
    induction es with
    | nil => exact fun s _ hs _ => hs
    | cons e es ih =>
        intro s hes hs hknows
        have he : e ∈ l.pending := hes e (.head _)
        rw [Model.replay_cons]
        exact ih _ (fun e' he' => hes e' (.tail _ he'))
          (hkeeps (h.possible e he) (L.mono hknows (h.licensed e he)) hs)
          fun f hf => L.lasts_applyAll _ (hknows f hf)
  exact hreplay l.pending s (fun _ he => he) hs h.knows

/-- The rules of an invariant that safe statements keep. -/
theorem rules [DecidableEq M.Key] (henv : ∀ p e, R p (.env e) → I p.db → I (M.env e p.db)) :
    Rules (ε := ε) (α := α) L.guards R I (fun s (l : Trace S Op) => L.Told s l) fun _ _ => True where
  symm _ _ _ := trivial
  start p o _ _ := .of_outside (fun f hf => by simp [learned] at hf) rfl
  start_pair _ _ _ _ _ := trivial
  env p e hR hI := ⟨henv p e hR hI, fun l hl => hl.later fun f hf => L.env e p.db f hf⟩
  drop _ _ h := h.drop
  drop_pair _ _ _ := trivial
  openTx _ _ iso _ h := h.openTx iso
  openTx_pair _ _ _ _ _ := trivial
  call p i c t q a h hcalls hx := by
    have htold := h.thread i t hcalls.here
    have hexec : M.exec q c p.db = some a := by simpa [hx] using hcalls.exec
    have hlicensed := L.mono htold.knows hcalls.guard.1
    exact ⟨hkeeps ⟨c, _, hexec⟩ hlicensed h.db, htold.push hx hexec, fun u hu =>
      ⟨(h.other hu).later fun f hf => L.lasts_applyAll _ hf, trivial⟩⟩
  callTx p i c t q a x h hcalls hx :=
    ⟨(h.thread i t hcalls.here).pushTx hx hcalls.guard ⟨c, _, hcalls.exec⟩, fun _ _ => trivial⟩
  commit p i c t x h hcommits := by
    have htold := h.thread i t hcommits.here
    have hlasts : ∀ f, L.Knows p.db f → L.Knows (t.trace.view M p.db) f := fun f hf =>
      L.lasts_applyAll _ hf
    exact ⟨htold.replay hkeeps h.db, htold.commit hlasts, fun u hu =>
      ⟨(h.other hu).later hlasts, trivial⟩⟩

/-- **An invariant that safe statements keep holds in every pool**, when the programs send no other
    statements than those that are safe by what they have learned. -/
theorem holds [DecidableEq M.Key] {prog : Op → Prog S ε α}
    (hprog : ∀ o, (prog o).Conforms M L.guards (fun _ _ => True) (fun _ _ => True) (.start o))
    (henv : ∀ p e, R p (.env e) → I p.db → I (M.env e p.db)) {s₀ : M.State} (h₀ : I s₀)
    {p : Pool M Op ε α} (hrun : Run prog R (idle s₀) p) : I p.db :=
  ((rules hkeeps henv).holds (fun _ o _ => hprog o) h₀ hrun).2.db

end Invariant

end Learning

end Pool

/-! ## Programs that heed what they know -/

namespace Prog

open Pool

variable {S : Interface} {M : Model S} {Op ε ε' α β : Type} (L : Learning M)

/-- Knowing `K`, inside a transaction or not, the program sends what is safe by what it knows, and ends
    where `Q` accepts its result or `E` its error. -/
def Heeds : Prog S ε α → (Q : (L.Fact → Prop) → Bool → α → Prop) →
    (E : (L.Fact → Prop) → Bool → ε → Prop) → (K : L.Fact → Prop) → (tx : Bool) → Prop
  | .ret a, Q, _, K, tx => Q K tx a
  | .fail e, _, E, K, tx => E K tx e
  | .call q k, Q, E, K, tx =>
      (L.Licensed K q ∧ (tx = true → ∀ a f, ¬ L.shows ⟨q, a⟩ f)) ∧
      (∀ f, (k (.error f)).Heeds Q E K tx) ∧
      ∀ a, M.Possible q a → (k (.ok a)).Heeds Q E (fun f => K f ∨ L.shows ⟨q, a⟩ f) tx
  | .beginTx _ k, Q, E, K, tx => tx = false ∧ k.Heeds Q E K true
  | .commitTx k, Q, E, K, tx =>
      tx = true ∧ (∀ f, (k (.error f)).Heeds Q E K false) ∧ (k (.ok ())).Heeds Q E K false
  | .rollbackTx k, Q, E, K, _ => k.Heeds Q E K false

variable {L} {Q : (L.Fact → Prop) → Bool → α → Prop} {E : (L.Fact → Prop) → Bool → ε → Prop}
  {K : L.Fact → Prop} {tx : Bool}

@[simp] theorem heeds_ret (a : α) : (ret a : Prog S ε α).Heeds L Q E K tx ↔ Q K tx a := Iff.rfl

@[simp] theorem heeds_fail (e : ε) : (fail e : Prog S ε α).Heeds L Q E K tx ↔ E K tx e := Iff.rfl

@[simp] theorem heeds_handle {Q : (L.Fact → Prop) → Bool → β → Prop}
    {E : (L.Fact → Prop) → Bool → ε' → Prop} (p : Prog S ε α) (f : α → Prog S ε' β)
    (g : ε → Prog S ε' β) :
    (p.handle f g).Heeds L Q E K tx ↔
      p.Heeds L (fun K tx a => (f a).Heeds L Q E K tx) (fun K tx e => (g e).Heeds L Q E K tx) K
        tx := by
  induction p generalizing K tx with
  | ret a => rfl
  | fail e => rfl
  | call q k ih => simp only [handle, Heeds, ih]
  | beginTx iso k ih => simp only [handle, Heeds, ih]
  | commitTx k ih => simp only [handle, Heeds, ih]
  | rollbackTx k ih => simp only [handle, Heeds, ih]

@[simp] theorem heeds_ite (c : Prop) [Decidable c] (p p' : Prog S ε α) :
    (if c then p else p').Heeds L Q E K tx ↔
      (c → p.Heeds L Q E K tx) ∧ (¬ c → p'.Heeds L Q E K tx) := by
  by_cases h : c <;> simp [h]

theorem heeds_mono {Q' : (L.Fact → Prop) → Bool → α → Prop} {E' : (L.Fact → Prop) → Bool → ε → Prop}
    (hQ : ∀ K tx a, Q K tx a → Q' K tx a) (hE : ∀ K tx e, E K tx e → E' K tx e) {p : Prog S ε α}
    (h : p.Heeds L Q E K tx) : p.Heeds L Q' E' K tx := by
  induction p generalizing K tx with
  | ret a => exact hQ _ _ _ h
  | fail e => exact hE _ _ _ h
  | call q k ih => exact ⟨h.1, fun f => ih _ (h.2.1 f), fun a ha => ih _ (h.2.2 a ha)⟩
  | beginTx iso k ih => exact ⟨h.1, ih h.2⟩
  | commitTx k ih => exact ⟨h.1, fun f => ih _ (h.2.1 f), ih _ h.2.2⟩
  | rollbackTx k ih => exact ih h

/-- A transaction: its body ends inside it, and what follows is outside. -/
@[simp] theorem heeds_transaction (φ : S.Failure → ε) (iso : Isolation) (body : Prog S ε α) :
    (transaction φ iso body).Heeds L Q E K tx ↔ tx = false ∧
      body.Heeds L (fun K tx a => tx = true ∧ (∀ f, E K false (φ f)) ∧ Q K false a)
        (fun K _ e => E K false e) K true := by
  simp [transaction, Heeds]

/-- A program that heeds what its call has learned keeps to the guards. -/
theorem Heeds.conforms {p : Prog S ε α} {l : Trace S Op}
    (h : p.Heeds L Q E K l.tx.isSome)
    (hK : ∀ f, K f → L.learned l.done f) :
    p.Conforms M L.guards (fun _ _ => True) (fun _ _ => True) l := by
  induction p generalizing K l with
  | ret a => trivial
  | fail e => trivial
  | call q k ih =>
      have hsilent : l.tx ≠ none → ∀ a f, ¬ L.shows ⟨q, a⟩ f := fun htx =>
        h.1.2 (Option.isSome_iff_ne_none.2 htx)
      refine ⟨⟨L.mono hK h.1.1, hsilent⟩, fun f => ih _ (h.2.1 f) hK, fun a ha => ?_⟩
      cases htx : l.tx with
      | none =>
          refine ih _ (K := fun f => K f ∨ L.shows ⟨q, a⟩ f) ?_ fun f hf => ?_
          · rw [Trace.push_of_none htx]
            exact h.2.2 a ha
          · rw [Trace.push_of_none htx]
            exact L.learned_push.2 (hf.imp_left (hK f))
      | some x =>
          have hsilent := hsilent (by rw [htx]; exact Option.some_ne_none x)
          refine ih _ (K := fun f => K f ∨ L.shows ⟨q, a⟩ f) ?_ fun f hf => ?_
          · rw [Trace.push_of_some htx]
            simpa [htx] using h.2.2 a ha
          · rw [Trace.push_of_some htx]
            exact hf.elim (hK f) fun hshown => absurd hshown (hsilent a f)
  | beginTx iso k ih =>
      exact ⟨Option.not_isSome_iff_eq_none.1 (by simp [h.1]), ih h.2 hK⟩
  | commitTx k ih =>
      refine ⟨Option.isSome_iff_ne_none.1 h.1, trivial, fun f => ih _ (h.2.1 f) hK,
        ih _ h.2.2 fun f hf => ?_⟩
      obtain ⟨e, he, hf⟩ := hK f hf
      exact ⟨e, List.mem_append_left _ he, hf⟩
  | rollbackTx k ih => exact ih h hK

/-- The program heeds what it knows, from outside a transaction to outside again. -/
abbrev Careful (L : Learning M) (K : L.Fact → Prop) (p : Prog S ε α) : Prop :=
  p.Heeds L (fun _ tx _ => tx = false) (fun _ tx _ => tx = false) K false

/-- What a careful program is followed by. -/
theorem Careful.handle {p : Prog S ε α} {f : α → Prog S ε β} (hp : Careful L K p)
    (hf : ∀ a (K : L.Fact → Prop), Careful L K (f a)) : Careful L K (p.handle f .fail) := by
  rw [Careful, heeds_handle]
  refine heeds_mono (fun K tx a htx => ?_) (fun _ _ _ htx => htx) hp
  rw [htx]
  exact hf a K

/-- A statement, and what follows its answer. -/
theorem Careful.query {φ : S.Failure → ε} {q : S.Stmt} {f : S.Ans q → Prog S ε β} (h : L.Licensed K q)
    (hf : ∀ a, M.Possible q a → Careful L (fun f => K f ∨ L.shows ⟨q, a⟩ f) (f a)) :
    Careful L K ((Prog.query φ q).handle f .fail) :=
  ⟨⟨h, fun h => by cases h⟩, fun _ => rfl, hf⟩

/-- A statement at the end. -/
theorem Careful.last {φ : S.Failure → ε} {q : S.Stmt} (h : L.Licensed K q) :
    Careful L K (Prog.query φ q : Prog S ε (S.Ans q)) :=
  ⟨⟨h, fun h => by cases h⟩, fun _ => rfl, fun _ _ => rfl⟩

end Prog
