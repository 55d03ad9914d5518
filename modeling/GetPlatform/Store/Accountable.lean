import GetPlatform.Store.Learned
import GetPlatform.Store.Record

set_option autoImplicit false

/-! # Whose doing a change is

What is looked at of a state may be something that only calls with certain facts in hand can change. Then
a step that changes it is a command of a call that has learned these facts (`Learning.changed`); and
whatever a call has learned, it was shown in a state on the way, by the answer to a statement that the
program of its operation sends (`Learning.answered`, `Run.sent`). -/

namespace Pool

variable {S : Interface} {M : Model S} {Op ε α β : Type} [DecidableEq M.Key]
  {prog : Op → Prog S ε α} {R : Pool M Op ε α → Step M Op → Prop} {s₀ : M.State} {p : Pool M Op ε α}

/-- The events of a call are answers to statements that its operation sends. -/
theorem Run.sent {G : Guards S Op} {P : Op → S.Stmt → Prop}
    (hprog : ∀ o, (prog o).Conforms M G (fun _ _ => True) (fun _ _ => True) (.start o))
    (hsends : ∀ o, (prog o).Sends (P o)) (hrun : Run prog R (idle s₀) p) {i : Nat}
    {t : Thread S Op ε α} (ht : p.threads[i]? = some t) {e : Event S} (he : e ∈ t.trace.events) :
    P t.trace.op e.stmt := by
  have hkeeps : ∀ o, (prog o).Conforms M ⟨fun l q => P l.op q, fun _ => True⟩ (fun _ _ => True)
      (fun _ _ => True) (.start o) := by
    intro o
    refine (hprog o).retarget (hsends o) (fun l hop q hq => ?_) fun _ _ => trivial
    show P l.op q
    rw [hop]
    exact hq
  rcases hrun.answered ht he with ⟨t₀, ht₀, -⟩ | ⟨q, u, hq, hlater, hu, hnext, -⟩
  · simp [idle] at ht₀
  · obtain ⟨t', ht', hop, -⟩ := hlater.keeps hu
    obtain rfl := Option.some.inj (ht.symm.trans ht')
    obtain ⟨k, hk⟩ : ∃ k, u.rest = some (.call e.stmt k) := by
      unfold Thread.next? at hnext
      split at hnext
      · next q' k hk =>
          obtain rfl := Option.some.inj hnext
          exact ⟨k, hk⟩
      · cases hnext
    rw [hop]
    exact (Run.conforms hkeeps hq i u hu _ hk).1

namespace Learning

variable {L : Learning M}

/-- What a call has learned, it was shown in a state on the way. -/
theorem answered (hrun : Run prog R (idle s₀) p) {i : Nat} {t : Thread S Op ε α}
    (ht : p.threads[i]? = some t) {f : L.Fact} (h : L.learned t.trace.done f) :
    ∃ e ∈ t.trace.events, L.shows e f ∧ Answered prog R (idle s₀) i e p := by
  obtain ⟨e, he, hshows⟩ := h
  have hevent : e ∈ t.trace.events := List.mem_append_left _ he
  refine ⟨e, hevent, hshows, (hrun.answered ht hevent).resolve_left ?_⟩
  rintro ⟨t₀, ht₀, -⟩
  simp [idle] at ht₀

section Changed

variable {I : M.State → Prop} (view : M.State → β) (Needs : (L.Fact → Prop) → Prop)
  (hkeeps : ∀ {q : S.Stmt} {a : S.Ans q} {s : M.State}, M.Possible q a → L.Licensed (L.Knows s) q →
    I s → I (M.applyAll (M.writes q a) s))
  (hneeds : ∀ {K : L.Fact → Prop} {q : S.Stmt} {a : S.Ans q} {s : M.State}, M.Possible q a →
    (∀ f, K f → L.Knows s f) → L.Licensed K q → I s →
    view (M.applyAll (M.writes q a) s) ≠ view s → Needs K)

include hkeeps hneeds

omit [DecidableEq M.Key] in
/-- A transaction that changes what is looked at has a statement that does. -/
theorem Told.changed {s : M.State} {l : Trace S Op} (h : L.Told s l) (hs : I s)
    (hview : view (l.view M s) ≠ view s) : Needs (L.learned l.done) := by
  have hreplay : ∀ (es : List (Event S)) (s : M.State), (∀ e ∈ es, e ∈ l.pending) → I s →
      (∀ f, L.learned l.done f → L.Knows s f) → view (M.replay es s) ≠ view s →
      Needs (L.learned l.done) := by
    intro es
    induction es with
    | nil => exact fun s _ _ _ hview => absurd rfl hview
    | cons e es ih =>
        intro s hes hs hknows hview
        have he : e ∈ l.pending := hes e (.head _)
        rw [Model.replay_cons] at hview
        by_cases hfirst : view (M.applyAll (M.writes e.stmt e.ans) s) = view s
        · refine ih _ (fun e' he' => hes e' (.tail _ he'))
            (hkeeps (h.possible e he) (L.mono hknows (h.licensed e he)) hs)
            (fun f hf => L.lasts_applyAll _ (hknows f hf)) ?_
          rwa [hfirst]
        · exact hneeds (h.possible e he) hknows (h.licensed e he) hs hfirst
  exact hreplay l.pending s (fun _ he => he) hs h.knows hview

/-- **A step that changes what is looked at** is one of the environment, or a command of a call that has
    learned what it takes. -/
theorem changed (henv : ∀ p e, R p (.env e) → I p.db → I (M.env e p.db))
    (hprog : ∀ o, (prog o).Conforms M L.guards (fun _ _ => True) (fun _ _ => True) (.start o))
    (h₀ : I s₀) (hrun : Run prog R (idle s₀) p) {a : Step M Op} {p' : Pool M Op ε α}
    (hstep : p.step prog a = some p') (hview : view p'.db ≠ view p.db) :
    (∃ e, a = .env e) ∨ ∃ i c t, a = .exec i c ∧ p.threads[i]? = some t ∧
      Needs (L.learned t.trace.done) := by
  obtain ⟨hsound, hholds⟩ := (rules hkeeps henv).holds (fun _ o _ => hprog o) h₀ hrun
  cases taken_of_step hstep with
  | env e => exact .inl ⟨e, rfl⟩
  | @call i t q k c x ht hk htx hx =>
      have hguard := hsound.guard ht (next_of_call hk)
      exact .inr ⟨i, c, t, rfl, ht,
        hneeds ⟨c, _, hx⟩ (hholds.thread i t ht).knows hguard.1 hholds.db hview⟩
  | @commit i t k c ht hk =>
      exact .inr ⟨i, c, t, rfl, ht, (hholds.thread i t ht).changed view Needs hkeeps hneeds hholds.db hview⟩
  | spawn o => exact absurd rfl hview
  | callTx ht hk htx hx => exact absurd rfl hview
  | turn => exact absurd rfl hview

end Changed

end Learning

end Pool
