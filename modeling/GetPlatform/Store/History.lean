import GetPlatform.Store.Invariant

set_option autoImplicit false

/-! # What a run says about one call

Calls keep their place for the whole of a run, and their traces only grow, except that a rollback
forgets an open transaction. So an event that a call has on its record at the end of a run was there
at the start, or was answered in a state on the way (`Run.answered`); and the result a call ends with
says whatever its program guarantees of it (`Run.conforms`). -/

namespace Pool

variable {S : Interface} {M : Model S} {Op ε α : Type} [DecidableEq M.Key]
  {prog : Op → Prog S ε α} {R : Pool M Op ε α → Step M Op → Prop}

/-! ## One step -/

/-- What one step does to the calls: a new one at the end, or one command of the call at place `i`
    in the state `p.db`. -/
inductive Moves (prog : Op → Prog S ε α) (p : Pool M Op ε α) : Pool M Op ε α → Prop
  | spawn (o : Op) : Moves prog p ⟨p.db, p.threads ++ [⟨.start o, some (prog o)⟩]⟩
  | env (e : M.Env) : Moves prog p ⟨M.env e p.db, p.threads⟩
  | call {i : Nat} {t : Thread S Op ε α} {q : S.Stmt}
      {k : Except S.Failure (S.Ans q) → Prog S ε α} {c : M.Choice} {a : S.Ans q} :
      p.threads[i]? = some t → t.rest = some (.call q k) →
      M.exec q c (t.trace.view M p.db) = some a →
      Moves prog p ⟨if t.trace.tx.isNone then M.applyAll (M.writes q a) p.db else p.db,
        p.threads.set i ⟨t.trace.push ⟨q, a⟩, some (k (.ok a))⟩⟩
  | begin {i : Nat} {t : Thread S Op ε α} {iso : Isolation} {k : Prog S ε α} :
      p.threads[i]? = some t → t.rest = some (.beginTx iso k) →
      Moves prog p ⟨p.db, p.threads.set i ⟨t.trace.openTx iso, some k⟩⟩
  | commit {i : Nat} {t : Thread S Op ε α} {k : Except S.Failure Unit → Prog S ε α} :
      p.threads[i]? = some t → t.rest = some (.commitTx k) →
      Moves prog p ⟨t.trace.view M p.db, p.threads.set i ⟨t.trace.commit, some (k (.ok ()))⟩⟩
  | rollback {i : Nat} {t : Thread S Op ε α} {k : Prog S ε α} :
      p.threads[i]? = some t → t.rest = some (.rollbackTx k) →
      Moves prog p ⟨p.db, p.threads.set i ⟨t.trace.drop, some k⟩⟩
  | refuse {i : Nat} {t : Thread S Op ε α} {q : S.Stmt}
      {k : Except S.Failure (S.Ans q) → Prog S ε α} (f : S.Failure) :
      p.threads[i]? = some t → t.rest = some (.call q k) →
      Moves prog p ⟨p.db, p.threads.set i ⟨t.trace, some (k (.error f))⟩⟩
  | abort {i : Nat} {t : Thread S Op ε α} {k : Except S.Failure Unit → Prog S ε α}
      (f : S.Failure) : p.threads[i]? = some t → t.rest = some (.commitTx k) →
      Moves prog p ⟨p.db, p.threads.set i ⟨t.trace.drop, some (k (.error f))⟩⟩
  | crash {i : Nat} {t : Thread S Op ε α} :
      p.threads[i]? = some t → Moves prog p ⟨p.db, p.threads.set i ⟨t.trace.drop, none⟩⟩

theorem moves_of_step {p p' : Pool M Op ε α} {a : Step M Op} (h : p.step prog a = some p') :
    Moves prog p p' := by
  cases a with
  | spawn o =>
      simp only [step, Option.some.injEq] at h
      exact h ▸ .spawn o
  | env e =>
      simp only [step, Option.some.injEq] at h
      exact h ▸ .env e
  | crash i =>
      obtain ⟨t, ht, rfl⟩ := step_crash h
      exact .crash ht
  | fault i f =>
      obtain ⟨t, ht, ⟨q, k, hk, rfl⟩ | ⟨k, hk, rfl⟩⟩ := step_fault h
      · exact .refuse f ht hk
      · exact .abort f ht hk
  | exec i c =>
      obtain ⟨t, out, ht, hout, -, -, rfl⟩ := step_exec h
      obtain ⟨q, k, a, hk, ha, rfl⟩ | ⟨iso, k, hk, rfl⟩ | ⟨k, hk, rfl⟩ | ⟨k, hk, rfl⟩ :=
        exec_cases hout
      · exact .call ht hk ha
      · exact .begin ht hk
      · exact .commit ht hk
      · exact .rollback ht hk

/-! ## Programs that conform -/

/-- What is left of every call conforms to the guards and ends as `Q` and `E` say. -/
def Conforming (G : Guards S Op) (Q : Trace S Op → α → Prop) (E : Trace S Op → ε → Prop)
    (p : Pool M Op ε α) : Prop :=
  ∀ (i : Nat) (t : Thread S Op ε α), p.threads[i]? = some t → ∀ k, t.rest = some k →
    k.Conforms M G Q E t.trace

omit [DecidableEq M.Key] in
theorem Conforming.set {G : Guards S Op} {Q : Trace S Op → α → Prop} {E : Trace S Op → ε → Prop}
    {p : Pool M Op ε α} (h : p.Conforming G Q E) {i : Nat} {t' : Thread S Op ε α} (s : M.State)
    (hk : ∀ k, t'.rest = some k → k.Conforms M G Q E t'.trace) :
    Conforming G Q E ⟨s, p.threads.set i t'⟩ := by
  intro j v hv
  by_cases hij : i = j
  · subst hij
    obtain ⟨hlt, -⟩ := List.getElem?_eq_some_iff.1 hv
    rw [List.getElem?_set_self (by simpa using hlt)] at hv
    exact Option.some.inj hv ▸ hk
  · rw [List.getElem?_set_ne hij] at hv
    exact h j v hv

omit [DecidableEq M.Key] in
theorem Conforming.moves {G : Guards S Op} {Q : Trace S Op → α → Prop} {E : Trace S Op → ε → Prop}
    {p p' : Pool M Op ε α} (h : p.Conforming G Q E)
    (hprog : ∀ o, (prog o).Conforms M G Q E (.start o)) (hm : Moves prog p p') :
    p'.Conforming G Q E := by
  cases hm with
  | spawn o =>
      intro j v hv
      rcases Nat.lt_or_ge j p.threads.length with hlt | hge
      · rw [List.getElem?_append_left hlt] at hv
        exact h j v hv
      · rw [List.getElem?_append_right hge] at hv
        obtain ⟨hz, hv⟩ := List.getElem?_eq_some_iff.1 hv
        simp only [List.length_singleton, Nat.lt_one_iff] at hz
        simp only [hz, List.getElem_cons_zero] at hv
        subst hv
        intro k hk
        exact Option.some.inj hk ▸ hprog o
  | env e => exact h
  | call ht hk ha =>
      exact h.set _ fun k' hk' => Option.some.inj hk' ▸ (h _ _ ht _ hk).2.2 _ ⟨_, _, ha⟩
  | begin ht hk => exact h.set _ fun k' hk' => Option.some.inj hk' ▸ (h _ _ ht _ hk).2
  | commit ht hk =>
      exact h.set _ fun k' hk' => Option.some.inj hk' ▸ (h _ _ ht _ hk).2.2.2
  | rollback ht hk => exact h.set _ fun k' hk' => Option.some.inj hk' ▸ h _ _ ht _ hk
  | refuse f ht hk => exact h.set _ fun k' hk' => Option.some.inj hk' ▸ (h _ _ ht _ hk).2.1 f
  | abort f ht hk => exact h.set _ fun k' hk' => Option.some.inj hk' ▸ (h _ _ ht _ hk).2.2.1 f
  | crash ht => exact h.set _ (by simp)

/-- **What a call ends with is what its program guarantees**, whatever the other calls do. -/
theorem Run.conforms {G : Guards S Op} {Q : Trace S Op → α → Prop} {E : Trace S Op → ε → Prop}
    (hprog : ∀ o, (prog o).Conforms M G Q E (.start o)) {s₀ : M.State} {p : Pool M Op ε α}
    (hrun : Run prog R (idle s₀) p) : p.Conforming G Q E := by
  induction hrun with
  | refl => simp [Conforming, idle]
  | step _ _ hs ih => exact ih.moves hprog (moves_of_step hs)

/-! ## Where an event comes from -/

/-- Event `e` is the answer to the next statement of the call `t`, in state `s`. -/
def Answers (s : M.State) (t : Thread S Op ε α) (e : Event S) : Prop :=
  t.next? = some e.stmt ∧ ∃ c, M.exec e.stmt c (t.trace.view M s) = some e.ans

/-- Event `e` of the call at place `i` was answered in a state on the way from `p₀` to `p`. -/
def Answered (prog : Op → Prog S ε α) (R : Pool M Op ε α → Step M Op → Prop)
    (p₀ : Pool M Op ε α) (i : Nat) (e : Event S) (p : Pool M Op ε α) : Prop :=
  ∃ (q : Pool M Op ε α) (t : Thread S Op ε α), Run prog R p₀ q ∧ Run prog R q p ∧
    q.threads[i]? = some t ∧ Answers q.db t e

theorem Answered.step {p₀ p p' : Pool M Op ε α} {i : Nat} {e : Event S} {a : Step M Op}
    (h : Answered prog R p₀ i e p) (hR : R p a) (hs : p.step prog a = some p') :
    Answered prog R p₀ i e p' := by
  obtain ⟨q, t, h₁, h₂, ht, hanswers⟩ := h
  exact ⟨q, t, h₁, .step h₂ hR hs, ht, hanswers⟩

omit [DecidableEq M.Key] in
/-- The traces one step leaves: each one's events were there before, but for one event that was just
    answered. -/
theorem Moves.event {p p' : Pool M Op ε α} (hm : Moves prog p p') {i : Nat}
    {t' : Thread S Op ε α} (ht' : p'.threads[i]? = some t') {e : Event S}
    (he : e ∈ t'.trace.events) :
    ∃ t, p.threads[i]? = some t ∧ (e ∈ t.trace.events ∨ Answers p.db t e) := by
  -- The call that moved is the one at place `i`, or it is another one.
  have hset : ∀ {j : Nat} {t u : Thread S Op ε α}, p.threads[j]? = some t →
      (p.threads.set j u)[i]? = some t' →
      (e ∈ u.trace.events → e ∈ t.trace.events ∨ Answers p.db t e) →
      ∃ t, p.threads[i]? = some t ∧ (e ∈ t.trace.events ∨ Answers p.db t e) := by
    intro j t u ht hu hevent
    by_cases hij : j = i
    · subst hij
      obtain ⟨hlt, -⟩ := List.getElem?_eq_some_iff.1 ht
      rw [List.getElem?_set_self hlt] at hu
      obtain rfl := Option.some.inj hu
      exact ⟨t, ht, hevent he⟩
    · rw [List.getElem?_set_ne hij] at hu
      exact ⟨t', hu, .inl he⟩
  have hopen : ∀ {l : Trace S Op} {iso : Isolation}, e ∈ (l.openTx iso).events → e ∈ l.events := by
    intro l iso h
    simp only [Trace.events, Trace.openTx_done, Trace.openTx_pending, List.append_nil] at h
    exact List.mem_append_left _ h
  cases hm with
  | spawn o =>
      rcases Nat.lt_or_ge i p.threads.length with hlt | hge
      · rw [List.getElem?_append_left hlt] at ht'
        exact ⟨t', ht', .inl he⟩
      · rw [List.getElem?_append_right hge] at ht'
        obtain ⟨hz, ht'⟩ := List.getElem?_eq_some_iff.1 ht'
        simp only [List.length_singleton, Nat.lt_one_iff] at hz
        simp only [hz, List.getElem_cons_zero] at ht'
        subst ht'
        simp [Trace.events] at he
  | env e' => exact ⟨t', ht', .inl he⟩
  | call ht hk ha =>
      refine hset ht ht' fun h => ?_
      rw [Trace.events_push, List.mem_append, List.mem_singleton] at h
      rcases h with h | rfl
      · exact .inl h
      · exact .inr ⟨by simp [Thread.next?, hk], _, ha⟩
  | begin ht hk => exact hset ht ht' fun h => .inl (hopen h)
  | commit ht hk => exact hset ht ht' fun h => .inl (by rwa [Trace.events_commit] at h)
  | rollback ht hk => exact hset ht ht' fun h => .inl (Trace.mem_events_of_drop h)
  | refuse f ht hk => exact hset ht ht' fun h => .inl h
  | abort f ht hk => exact hset ht ht' fun h => .inl (Trace.mem_events_of_drop h)
  | crash ht => exact hset ht ht' fun h => .inl (Trace.mem_events_of_drop h)

omit [DecidableEq M.Key] in
/-- What one step makes stand on the record of a call: the answer to a statement outside a
    transaction, or the transaction that is committed. -/
theorem Moves.stands {p p' : Pool M Op ε α} (hm : Moves prog p p') {i : Nat}
    {t' : Thread S Op ε α} (ht' : p'.threads[i]? = some t') {e : Event S}
    (he : e ∈ t'.trace.done) (hnew : ∀ t, p.threads[i]? = some t → e ∉ t.trace.done) :
    ∃ t, p.threads[i]? = some t ∧
      ((t.trace.tx = none ∧ Answers p.db t e ∧ p'.db = M.applyAll (M.writes e.stmt e.ans) p.db) ∨
        ∃ k, t.rest = some (.commitTx k) ∧ e ∈ t.trace.pending ∧ p'.db = t.trace.view M p.db) := by
  -- The call that moved is the one at place `i`: the others have nothing new.
  have hset : ∀ {j : Nat} {t u : Thread S Op ε α}, p.threads[j]? = some t →
      (p.threads.set j u)[i]? = some t' → p.threads[i]? = some t ∧ e ∈ u.trace.done := by
    intro j t u ht hu
    by_cases hij : j = i
    · subst hij
      obtain ⟨hlt, -⟩ := List.getElem?_eq_some_iff.1 ht
      rw [List.getElem?_set_self hlt] at hu
      obtain rfl := Option.some.inj hu
      exact ⟨ht, he⟩
    · rw [List.getElem?_set_ne hij] at hu
      exact absurd he (hnew _ hu)
  have hsame : ∀ {j : Nat} {t u : Thread S Op ε α}, p.threads[j]? = some t →
      (p.threads.set j u)[i]? = some t' → u.trace.done = t.trace.done → False := by
    intro j t u ht hu hdone
    obtain ⟨hi, he⟩ := hset ht hu
    exact hnew t hi (hdone ▸ he)
  cases hm with
  | spawn o =>
      rcases Nat.lt_or_ge i p.threads.length with hlt | hge
      · rw [List.getElem?_append_left hlt] at ht'
        exact absurd he (hnew _ ht')
      · rw [List.getElem?_append_right hge] at ht'
        obtain ⟨hz, ht'⟩ := List.getElem?_eq_some_iff.1 ht'
        simp only [List.length_singleton, Nat.lt_one_iff] at hz
        simp only [hz, List.getElem_cons_zero] at ht'
        subst ht'
        simp at he
  | env e' => exact absurd he (hnew _ ht')
  | @call j t q k c a ht hk ha =>
      obtain ⟨hi, he⟩ := hset ht ht'
      cases htx : t.trace.tx with
      | none =>
          simp only [Trace.push_of_none htx, List.mem_append, List.mem_singleton] at he
          obtain rfl := he.resolve_left (hnew t hi)
          exact ⟨t, hi, .inl ⟨htx, ⟨by simp [Thread.next?, hk], c, ha⟩, by simp⟩⟩
      | some x => exact absurd (by simpa [Trace.push_of_some htx] using he) (hnew t hi)
  | begin ht hk => exact (hsame ht ht' rfl).elim
  | @commit j t k ht hk =>
      obtain ⟨hi, he⟩ := hset ht ht'
      simp only [Trace.commit_done, List.mem_append] at he
      exact ⟨t, hi, .inr ⟨k, hk, he.resolve_left (hnew t hi), rfl⟩⟩
  | rollback ht hk => exact (hsame ht ht' rfl).elim
  | refuse f ht hk => exact (hsame ht ht' rfl).elim
  | abort f ht hk => exact (hsame ht ht' rfl).elim
  | crash ht => exact (hsame ht ht' rfl).elim

/-- **An event on the record of a call was there at the start of the run, or was answered on the
    way.** -/
theorem Run.answered {p₀ p : Pool M Op ε α} (hrun : Run prog R p₀ p) {i : Nat}
    {t : Thread S Op ε α} (ht : p.threads[i]? = some t) {e : Event S} (he : e ∈ t.trace.events) :
    (∃ t₀, p₀.threads[i]? = some t₀ ∧ e ∈ t₀.trace.events) ∨ Answered prog R p₀ i e p := by
  induction hrun generalizing t with
  | refl => exact .inl ⟨t, ht, he⟩
  | step hrun hR hs ih =>
      obtain ⟨u, hu, hold | hanswers⟩ := (moves_of_step hs).event ht he
      · exact (ih hu hold).imp_right fun h => h.step hR hs
      · exact .inr ⟨_, u, hrun, .step .refl hR hs, hu, hanswers⟩

omit [DecidableEq M.Key] in
/-- A call that is about to send a statement satisfies its guard. -/
theorem Sound.guard {G : Guards S Op} {p : Pool M Op ε α} (h : Sound G p) {i : Nat}
    {t : Thread S Op ε α} (ht : p.threads[i]? = some t) {q : S.Stmt} (hq : t.next? = some q) :
    G.stmt t.trace q := by
  unfold Thread.next? at hq
  split at hq
  · next q' k hk =>
      obtain rfl := Option.some.inj hq
      exact (h.conforms i t ht _ hk).1
  · cases hq

/-- The step at which something first became true. -/
theorem Run.first {K : Pool M Op ε α → Prop} {p₀ p : Pool M Op ε α} (hrun : Run prog R p₀ p)
    (h₀ : ¬ K p₀) (h : K p) :
    ∃ q a q', Run prog R p₀ q ∧ R q a ∧ q.step prog a = some q' ∧ Run prog R q' p ∧ ¬ K q ∧
      K q' := by
  induction hrun with
  | refl => exact absurd h h₀
  | @step q q' a hrun hR hs ih =>
      by_cases hq : K q
      · obtain ⟨r, b, r', h₁, hb, hstep, h₂, hnot, hk⟩ := ih hq
        exact ⟨r, b, r', h₁, hb, hstep, .step h₂ hR hs, hnot, hk⟩
      · exact ⟨q, a, q', hrun, hR, hs, .refl, hq, h⟩

/-! ## What only grows -/

section Grows

variable {r : M.State → M.State → Prop} (hrefl : ∀ s, r s s)
  (htrans : ∀ s s' s'', r s s' → r s' s'' → r s s'') (hwrite : ∀ w s, r s (M.apply w s))
include hrefl htrans hwrite

omit [DecidableEq M.Key] in
theorem applyAll_grows (ws : List M.Write) (s : M.State) : r s (M.applyAll ws s) := by
  induction ws generalizing s with
  | nil => exact hrefl s
  | cons w ws ih => exact htrans _ _ _ (hwrite w s) (ih _)

/-- A relation that every write and the environment respect holds between the two ends of a run. -/
theorem Run.grows (henv : ∀ e s, r s (M.env e s)) {p₀ p : Pool M Op ε α}
    (hrun : Run prog R p₀ p) : r p₀.db p.db := by
  induction hrun with
  | refl => exact hrefl _
  | step _ _ hs ih =>
      refine htrans _ _ _ ih ?_
      cases moves_of_step hs with
      | env e => exact henv e _
      | call ht hk ha =>
          dsimp only
          split
          · exact applyAll_grows hrefl htrans hwrite _ _
          · exact hrefl _
      | commit ht hk => exact applyAll_grows hrefl htrans hwrite _ _
      | _ => exact hrefl _

end Grows

end Pool
