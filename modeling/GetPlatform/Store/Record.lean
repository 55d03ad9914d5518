import GetPlatform.Store.History

set_option autoImplicit false

/-! # Runs with their history

A condition on a step may depend on the order of what happened before, which a pool does not keep.
`Recorded` is a run together with the list of the events that were answered on the way, the last one
first, each with the place of the call it was answered to. The history has no influence on the run
(`Recorded.run`); it is there for conditions and invariants to speak of. -/

variable {S : Interface} {M : Model S} {Op ε α : Type}

/-- Has the call a command left to carry out? -/
def Thread.running (t : Thread S Op ε α) : Bool :=
  match t.rest with
  | none => false
  | some (.ret _) => false
  | some (.fail _) => false
  | _ => true

namespace Pool

/-- The events answered so far, the last one first, and whom. -/
abbrev History (S : Interface) := List (Nat × Event S)

/-- The event that a step has answered, if any. -/
def answering (p : Pool M Op ε α) : Step M Op → Option (Nat × Event S)
  | .exec i c =>
      match p.threads[i]? with
      | none => none
      | some t =>
          match t.rest with
          | some (.call q _) => (M.exec q c (t.trace.view M p.db)).map fun a => (i, ⟨q, a⟩)
          | _ => none
  | _ => none

/-- The pools reached from `p₀` by steps that all satisfy `R`, with what was answered on the way. -/
inductive Recorded [DecidableEq M.Key] (prog : Op → Prog S ε α)
    (R : History S → Pool M Op ε α → Step M Op → Prop) (p₀ : Pool M Op ε α) :
    History S → Pool M Op ε α → Prop
  | refl : Recorded prog R p₀ [] p₀
  | step {h : History S} {p p' : Pool M Op ε α} {a : Step M Op} :
      Recorded prog R p₀ h p → R h p a → p.step prog a = some p' →
      Recorded prog R p₀ ((p.answering a).toList ++ h) p'

/-- Carry out a list of steps, all of which must be possible and satisfy `R`, and record them. -/
def record [DecidableEq M.Key] (prog : Op → Prog S ε α)
    (R : History S → Pool M Op ε α → Step M Op → Prop) [∀ h p a, Decidable (R h p a)] :
    History S → Pool M Op ε α → List (Step M Op) → Option (Pool M Op ε α)
  | _, p, [] => some p
  | h, p, a :: as =>
      if R h p a then
        (p.step prog a).bind fun p' => record prog R ((p.answering a).toList ++ h) p' as
      else none

variable [DecidableEq M.Key] {prog : Op → Prog S ε α}
  {R : History S → Pool M Op ε α → Step M Op → Prop} {p₀ : Pool M Op ε α}

theorem Recorded.run {h : History S} {p : Pool M Op ε α} (hrec : Recorded prog R p₀ h p) :
    Run prog anyStep p₀ p := by
  induction hrec with
  | refl => exact .refl
  | step _ _ hs ih => exact .step ih trivial hs

theorem Recorded.of_record [∀ h p a, Decidable (R h p a)] {h : History S} {p p' : Pool M Op ε α}
    {as : List (Step M Op)} (hrec : Recorded prog R p₀ h p)
    (hplay : record prog R h p as = some p') : ∃ h', Recorded prog R p₀ h' p' := by
  induction as generalizing h p with
  | nil =>
      obtain rfl := Option.some.inj hplay
      exact ⟨h, hrec⟩
  | cons a as ih =>
      unfold record at hplay
      split at hplay
      · next hR =>
          obtain ⟨q, hq, hrest⟩ := Option.bind_eq_some_iff.1 hplay
          exact ih (hrec.step hR hq) hrest
      · cases hplay

/-! ## What a step leaves of the calls -/

omit [DecidableEq M.Key] in
/-- A call keeps its place, its operation and what it has done. -/
theorem Moves.keeps {p p' : Pool M Op ε α} (hm : Moves prog p p') {i : Nat} {t : Thread S Op ε α}
    (ht : p.threads[i]? = some t) :
    ∃ t', p'.threads[i]? = some t' ∧ t'.trace.op = t.trace.op ∧
      t.trace.done <+: t'.trace.done := by
  -- The call that moved is the one at place `i`, or it is another one.
  have hset : ∀ {j : Nat} {u u' : Thread S Op ε α}, p.threads[j]? = some u →
      u'.trace.op = u.trace.op → u.trace.done <+: u'.trace.done →
      ∃ t', (p.threads.set j u')[i]? = some t' ∧ t'.trace.op = t.trace.op ∧
        t.trace.done <+: t'.trace.done := by
    intro j u u' hu hop hdone
    by_cases hij : j = i
    · subst hij
      obtain ⟨hlt, -⟩ := List.getElem?_eq_some_iff.1 hu
      obtain rfl := Option.some.inj (hu.symm.trans ht)
      exact ⟨u', List.getElem?_set_self hlt, hop, hdone⟩
    · exact ⟨t, by rw [List.getElem?_set_ne hij, ht], rfl, List.prefix_rfl⟩
  cases hm with
  | spawn o =>
      obtain ⟨hlt, -⟩ := List.getElem?_eq_some_iff.1 ht
      exact ⟨t, by rw [List.getElem?_append_left hlt, ht], rfl, List.prefix_rfl⟩
  | env e => exact ⟨t, ht, rfl, List.prefix_rfl⟩
  | @call j u q k c a hu hk ha =>
      refine hset hu (Trace.push_op _ _) ?_
      cases htx : u.trace.tx with
      | none => simp [Trace.push_of_none htx]
      | some x => simp [Trace.push_of_some htx]
  | begin hu hk => exact hset hu rfl List.prefix_rfl
  | commit hu hk => exact hset hu rfl (List.prefix_append ..)
  | rollback hu hk => exact hset hu rfl List.prefix_rfl
  | refuse f hu hk => exact hset hu rfl List.prefix_rfl
  | abort f hu hk => exact hset hu rfl List.prefix_rfl
  | crash hu => exact hset hu rfl List.prefix_rfl

/-- What a step does, by what becomes of the committed state and of the call it is a step of. A `turn`
    is a step that neither answers a statement nor commits. -/
inductive Taken (prog : Op → Prog S ε α) (p : Pool M Op ε α) :
    Step M Op → Pool M Op ε α → Prop
  | spawn (o : Op) :
      Taken prog p (.spawn o) ⟨p.db, p.threads ++ [⟨.start o, some (prog o)⟩]⟩
  | env (e : M.Env) : Taken prog p (.env e) ⟨M.env e p.db, p.threads⟩
  | call {i : Nat} {t : Thread S Op ε α} {q : S.Stmt}
      {k : Except S.Failure (S.Ans q) → Prog S ε α} {c : M.Choice} {x : S.Ans q} :
      p.threads[i]? = some t → t.rest = some (.call q k) → t.trace.tx = none →
      M.exec q c p.db = some x →
      Taken prog p (.exec i c) ⟨M.applyAll (M.writes q x) p.db,
        p.threads.set i ⟨t.trace.push ⟨q, x⟩, some (k (.ok x))⟩⟩
  | callTx {i : Nat} {t : Thread S Op ε α} {q : S.Stmt}
      {k : Except S.Failure (S.Ans q) → Prog S ε α} {c : M.Choice} {x : S.Ans q} :
      p.threads[i]? = some t → t.rest = some (.call q k) → t.trace.tx ≠ none →
      M.exec q c (t.trace.view M p.db) = some x →
      Taken prog p (.exec i c) ⟨p.db,
        p.threads.set i ⟨t.trace.push ⟨q, x⟩, some (k (.ok x))⟩⟩
  | commit {i : Nat} {t : Thread S Op ε α} {k : Except S.Failure Unit → Prog S ε α}
      {c : M.Choice} : p.threads[i]? = some t → t.rest = some (.commitTx k) →
      Taken prog p (.exec i c) ⟨t.trace.view M p.db,
        p.threads.set i ⟨t.trace.commit, some (k (.ok ()))⟩⟩
  | turn {i : Nat} {t u : Thread S Op ε α} {a : Step M Op} : p.answering a = none →
      p.threads[i]? = some t → u.trace.op = t.trace.op → u.trace.done = t.trace.done →
      (u.running = true → t.running = true) → Taken prog p a ⟨p.db, p.threads.set i u⟩

theorem taken_of_step {p p' : Pool M Op ε α} {a : Step M Op} (hs : p.step prog a = some p') :
    Taken prog p a p' := by
  cases a with
  | spawn o =>
      obtain rfl := Option.some.inj hs
      exact .spawn o
  | env e =>
      obtain rfl := Option.some.inj hs
      exact .env e
  | crash i =>
      obtain ⟨t, ht, rfl⟩ := step_crash hs
      exact .turn rfl ht rfl rfl (by simp [Thread.running])
  | fault i f =>
      obtain ⟨t, ht, ⟨q, k, hk, rfl⟩ | ⟨k, hk, rfl⟩⟩ := step_fault hs <;>
        exact .turn rfl ht rfl rfl (by simp [Thread.running, hk])
  | exec i c =>
      obtain ⟨t, out, ht, hout, -, -, rfl⟩ := step_exec hs
      obtain ⟨q, k, x, hk, hx, rfl⟩ | ⟨iso, k, hk, rfl⟩ | ⟨k, hk, rfl⟩ | ⟨k, hk, rfl⟩ :=
        exec_cases hout
      · cases htx : t.trace.tx with
        | none =>
            rw [Trace.view_of_none htx] at hx
            simpa [htx] using (Taken.call ht hk htx hx : Taken prog p (.exec i c) _)
        | some y => 
            simpa [htx] using (Taken.callTx ht hk (by simp [htx]) hx : Taken prog p (.exec i c) _)
      · exact .turn (by simp [answering, ht, hk]) ht rfl rfl (by simp [Thread.running, hk])
      · exact .commit ht hk
      · exact .turn (by simp [answering, ht, hk]) ht rfl rfl (by simp [Thread.running, hk])

omit [DecidableEq M.Key] in
theorem answering_exec {p : Pool M Op ε α} {i : Nat} {t : Thread S Op ε α} {q : S.Stmt}
    {k : Except S.Failure (S.Ans q) → Prog S ε α} {c : M.Choice} {x : S.Ans q}
    (ht : p.threads[i]? = some t) (hk : t.rest = some (.call q k))
    (hx : M.exec q c (t.trace.view M p.db) = some x) :
    p.answering (.exec i c) = some (i, ⟨q, x⟩) := by
  simp [answering, ht, hk, hx]

omit [DecidableEq M.Key] in
theorem next_of_call {t : Thread S Op ε α} {q : S.Stmt}
    {k : Except S.Failure (S.Ans q) → Prog S ε α} (hk : t.rest = some (.call q k)) :
    t.next? = some q := by
  simp [Thread.next?, hk]

omit [DecidableEq M.Key] in
theorem running_of_next {t : Thread S Op ε α} {q : S.Stmt} (h : t.next? = some q) :
    t.running = true := by
  unfold Thread.next? at h
  split at h
  · next hk => simp [Thread.running, hk]
  · cases h

omit [DecidableEq M.Key] in
/-- The call at place `j` after the call at place `i` was replaced. -/
theorem thread_set {ts : List (Thread S Op ε α)} {i j : Nat} {t u v : Thread S Op ε α}
    (ht : ts[i]? = some t) (hv : (ts.set i u)[j]? = some v) :
    (j = i ∧ v = u) ∨ (j ≠ i ∧ ts[j]? = some v) := by
  by_cases hij : i = j
  · subst hij
    rw [List.getElem?_set_self (List.getElem?_eq_some_iff.1 ht).1] at hv
    exact .inl ⟨rfl, (Option.some.inj hv).symm⟩
  · rw [List.getElem?_set_ne hij] at hv
    exact .inr ⟨Ne.symm hij, hv⟩

omit [DecidableEq M.Key] in
theorem thread_append {ts : List (Thread S Op ε α)} {j : Nat} {u v : Thread S Op ε α}
    (hv : (ts ++ [u])[j]? = some v) : v = u ∨ ts[j]? = some v := by
  rcases Nat.lt_or_ge j ts.length with hlt | hge
  · rw [List.getElem?_append_left hlt] at hv
    exact .inr hv
  · rw [List.getElem?_append_right hge] at hv
    obtain ⟨hz, hv⟩ := List.getElem?_eq_some_iff.1 hv
    simp only [List.length_singleton, Nat.lt_one_iff] at hz
    simp only [hz, List.getElem_cons_zero] at hv
    exact .inl hv.symm

/-- A call keeps its place, its operation and what it has done for the whole of a run. -/
theorem Run.keeps {R : Pool M Op ε α → Step M Op → Prop} {p₁ p₂ : Pool M Op ε α}
    (hrun : Run prog R p₁ p₂) {i : Nat} {t : Thread S Op ε α} (ht : p₁.threads[i]? = some t) :
    ∃ t', p₂.threads[i]? = some t' ∧ t'.trace.op = t.trace.op ∧
      t.trace.done <+: t'.trace.done := by
  induction hrun with
  | refl => exact ⟨t, ht, rfl, List.prefix_rfl⟩
  | step _ _ hs ih =>
      obtain ⟨t', ht', hop, hdone⟩ := ih
      obtain ⟨t'', ht'', hop', hdone'⟩ := (moves_of_step hs).keeps ht'
      exact ⟨t'', ht'', hop'.trans hop, hdone.trans hdone'⟩

/-- A call that has no command left has none later either. -/
theorem Run.not_running {R : Pool M Op ε α → Step M Op → Prop} {p₁ p₂ : Pool M Op ε α}
    (hrun : Run prog R p₁ p₂) {i : Nat} {t : Thread S Op ε α} (ht : p₁.threads[i]? = some t)
    (hended : t.running = false) {t' : Thread S Op ε α} (ht' : p₂.threads[i]? = some t') :
    t'.running = false := by
  induction hrun generalizing t' with
  | refl => exact Option.some.inj (ht.symm.trans ht') ▸ hended
  | @step p p' a hrun _ hs ih =>
      obtain ⟨v, hv, -⟩ := hrun.keeps ht
      have hv' := ih hv
      -- The call that moves has a command left, so it is another one.
      have hset : ∀ {j : Nat} {u w : Thread S Op ε α}, p.threads[j]? = some u →
          (w.running = true → u.running = true) → (p.threads.set j w)[i]? = some t' →
            t'.running = false := by
        intro j u w hu hback hw
        rcases thread_set hu hw with ⟨rfl, rfl⟩ | ⟨-, hi⟩
        · obtain rfl := Option.some.inj (hu.symm.trans hv)
          exact Bool.eq_false_iff.2 fun hw => Bool.eq_false_iff.1 hv' (hback hw)
        · exact Option.some.inj (hv.symm.trans hi) ▸ hv'
      cases taken_of_step hs with
      | spawn o =>
          rw [List.getElem?_append_left (List.getElem?_eq_some_iff.1 hv).1, hv] at ht'
          exact Option.some.inj ht' ▸ hv'
      | env e => exact Option.some.inj (hv.symm.trans ht') ▸ hv'
      | call hu hk => exact hset hu (fun _ => by simp [Thread.running, hk]) ht'
      | callTx hu hk => exact hset hu (fun _ => by simp [Thread.running, hk]) ht'
      | commit hu hk => exact hset hu (fun _ => by simp [Thread.running, hk]) ht'
      | turn _ hu _ _ hback => exact hset hu hback ht'

omit [DecidableEq M.Key] in
/-- What a call has done is what it had done before a step, one answered event more, or its
    transaction more. -/
theorem Taken.grows {p p' : Pool M Op ε α} {a : Step M Op} (h : Taken prog p a p') {j : Nat}
    {t t' : Thread S Op ε α} (ht : p.threads[j]? = some t) (ht' : p'.threads[j]? = some t') :
    t'.trace.done = t.trace.done ∨
      (∃ c q k x, a = .exec j c ∧ t.trace.tx = none ∧ t.rest = some (.call q k) ∧
        M.exec q c p.db = some x ∧ t'.trace.done = t.trace.done ++ [⟨q, x⟩]) ∨
      ∃ k, t.rest = some (.commitTx k) ∧ t'.trace.done = t.trace.done ++ t.trace.pending := by
  -- A call that did not move is as it was.
  have hother : ∀ {i : Nat} {u v : Thread S Op ε α}, p.threads[i]? = some u → j ≠ i →
      (p.threads.set i v)[j]? = some t' → t' = t := by
    intro i u v hu hj hv
    rw [List.getElem?_set_ne (Ne.symm hj), ht] at hv
    exact (Option.some.inj hv).symm
  cases h with
  | spawn o =>
      obtain ⟨hlt, -⟩ := List.getElem?_eq_some_iff.1 ht
      rw [List.getElem?_append_left hlt, ht] at ht'
      exact .inl (Option.some.inj ht' ▸ rfl)
  | env e => exact .inl (Option.some.inj (ht.symm.trans ht') ▸ rfl)
  | @call i u q k c x hu hk htx hx =>
      rcases thread_set hu ht' with ⟨rfl, rfl⟩ | ⟨hj, -⟩
      · obtain rfl := Option.some.inj (hu.symm.trans ht)
        exact .inr (.inl ⟨c, q, k, x, rfl, htx, hk, hx, by simp [Trace.push_of_none htx]⟩)
      · exact .inl (hother hu hj ht' ▸ rfl)
  | @callTx i u q k c x hu hk htx hx =>
      rcases thread_set hu ht' with ⟨rfl, rfl⟩ | ⟨hj, -⟩
      · obtain rfl := Option.some.inj (hu.symm.trans ht)
        obtain ⟨y, hy⟩ := Option.ne_none_iff_exists'.1 htx
        exact .inl (by simp [Trace.push_of_some hy])
      · exact .inl (hother hu hj ht' ▸ rfl)
  | @commit i u k c hu hk =>
      rcases thread_set hu ht' with ⟨rfl, rfl⟩ | ⟨hj, -⟩
      · obtain rfl := Option.some.inj (hu.symm.trans ht)
        exact .inr (.inr ⟨k, hk, rfl⟩)
      · exact .inl (hother hu hj ht' ▸ rfl)
  | @turn i u v _ _ hu hop hdone hrunning =>
      rcases thread_set hu ht' with ⟨rfl, rfl⟩ | ⟨hj, -⟩
      · obtain rfl := Option.some.inj (hu.symm.trans ht)
        exact .inl hdone
      · exact .inl (hother hu hj ht' ▸ rfl)

omit [DecidableEq M.Key] in
/-- A number for each call, added up, after one call was replaced. -/
theorem sum_map_set (f : Thread S Op ε α → Nat) {ts : List (Thread S Op ε α)} {i : Nat}
    {t u : Thread S Op ε α} (ht : ts[i]? = some t) :
    ((ts.set i u).map f).sum + f t = (ts.map f).sum + f u := by
  induction ts generalizing i with
  | nil => cases ht
  | cons v ts ih =>
      cases i with
      | zero =>
          obtain rfl := Option.some.inj ht
          simp only [List.set_cons_zero, List.map_cons, List.sum_cons]
          omega
      | succ i =>
          have := ih ht
          simp only [List.set_cons_succ, List.map_cons, List.sum_cons]
          omega

omit [DecidableEq M.Key] in
/-- What a call has on its record for good was there before a step, is the answer to a statement
    outside a transaction, or is committed. -/
theorem Taken.done {p p' : Pool M Op ε α} {a : Step M Op} (h : Taken prog p a p') {j : Nat}
    {t' : Thread S Op ε α} (ht' : p'.threads[j]? = some t') {e : Event S}
    (he : e ∈ t'.trace.done) :
    ∃ t, p.threads[j]? = some t ∧ t.trace.op = t'.trace.op ∧ (e ∈ t.trace.done ∨
      (∃ c, a = .exec j c ∧ t.trace.tx = none ∧ t.next? = some e.stmt ∧
        M.exec e.stmt c p.db = some e.ans) ∨
      ∃ k, t.rest = some (.commitTx k) ∧ e ∈ t.trace.pending) := by
  cases h with
  | spawn o =>
      rcases thread_append ht' with rfl | ht
      · simp at he
      · exact ⟨t', ht, rfl, .inl he⟩
  | env f => exact ⟨t', ht', rfl, .inl he⟩
  | @call i t q k c x ht hk htx hx =>
      rcases thread_set ht ht' with ⟨rfl, rfl⟩ | ⟨-, hj⟩
      · refine ⟨t, ht, (Trace.push_op _ _).symm, ?_⟩
        simp only [Trace.push_of_none htx, List.mem_append, List.mem_singleton] at he
        rcases he with he | rfl
        · exact .inl he
        · exact .inr (.inl ⟨c, rfl, htx, next_of_call hk, hx⟩)
      · exact ⟨t', hj, rfl, .inl he⟩
  | @callTx i t q k c x ht hk htx hx =>
      rcases thread_set ht ht' with ⟨rfl, rfl⟩ | ⟨-, hj⟩
      · obtain ⟨y, hy⟩ := Option.ne_none_iff_exists'.1 htx
        exact ⟨t, ht, (Trace.push_op _ _).symm, .inl (by simpa [Trace.push_of_some hy] using he)⟩
      · exact ⟨t', hj, rfl, .inl he⟩
  | @commit i t k c ht hk =>
      rcases thread_set ht ht' with ⟨rfl, rfl⟩ | ⟨-, hj⟩
      · refine ⟨t, ht, rfl, ?_⟩
        rcases List.mem_append.1 he with he | he
        · exact .inl he
        · exact .inr (.inr ⟨k, hk, he⟩)
      · exact ⟨t', hj, rfl, .inl he⟩
  | @turn i t u _ _ ht hop hdone hrun =>
      rcases thread_set ht ht' with ⟨rfl, rfl⟩ | ⟨-, hj⟩
      · exact ⟨t, ht, hop.symm, .inl (hdone ▸ he)⟩
      · exact ⟨t', hj, rfl, .inl he⟩

omit [DecidableEq M.Key] in
/-- A call that is there after a step was there before it, or has just arrived. -/
theorem Taken.origin {p p' : Pool M Op ε α} {a : Step M Op} (h : Taken prog p a p') {j : Nat}
    {t' : Thread S Op ε α} (ht' : p'.threads[j]? = some t') :
    (∃ t, p.threads[j]? = some t ∧ t.trace.op = t'.trace.op) ∨
      ∃ o, a = .spawn o ∧ t' = ⟨.start o, some (prog o)⟩ := by
  -- A call that moves keeps its operation.
  have hset : ∀ {i : Nat} {u v : Thread S Op ε α}, p.threads[i]? = some u →
      v.trace.op = u.trace.op → (p.threads.set i v)[j]? = some t' →
        ∃ t, p.threads[j]? = some t ∧ t.trace.op = t'.trace.op := by
    intro i u v hu hop hv
    rcases thread_set hu hv with ⟨rfl, rfl⟩ | ⟨-, hj⟩
    · exact ⟨u, hu, hop.symm⟩
    · exact ⟨t', hj, rfl⟩
  cases h with
  | spawn o =>
      rcases thread_append ht' with rfl | ht
      · exact .inr ⟨o, rfl, rfl⟩
      · exact .inl ⟨t', ht, rfl⟩
  | env e => exact .inl ⟨t', ht', rfl⟩
  | call hu hk htx hx => exact .inl (hset hu (Trace.push_op _ _) ht')
  | callTx hu hk htx hx => exact .inl (hset hu (Trace.push_op _ _) ht')
  | @commit i u k c hu hk => exact .inl (hset (v := ⟨u.trace.commit, some (k (.ok ()))⟩) hu rfl ht')
  | turn _ hu hop _ _ => exact .inl (hset hu hop ht')

/-- Where every call that arrives satisfies `f`, every call does. -/
theorem Run.ops {R : Pool M Op ε α → Step M Op → Prop} {f : Op → Prop}
    (hR : ∀ p o, R p (.spawn o) → f o) {s₀ : M.State} {p : Pool M Op ε α}
    (hrun : Run prog R (idle s₀) p) {i : Nat} {t : Thread S Op ε α} (ht : p.threads[i]? = some t) :
    f t.trace.op := by
  induction hrun generalizing t with
  | refl => simp [idle] at ht
  | step hrun hstep hs ih =>
      rcases (taken_of_step hs).origin ht with ⟨u, hu, hop⟩ | ⟨o, rfl, rfl⟩
      · exact hop ▸ ih hu
      · exact hR _ _ hstep

/-! ## What has become of the state -/

omit [DecidableEq M.Key] in
theorem replay_made {K : M.State → Prop} {P : Event S → Prop}
    (hwrite : ∀ e s, K (M.applyAll (M.writes e.stmt e.ans) s) → K s ∨ P e) (es : List (Event S))
    {s : M.State} (h : K (M.replay es s)) : K s ∨ ∃ e ∈ es, P e := by
  induction es generalizing s with
  | nil => exact .inl h
  | cons e es ih =>
      rw [Model.replay_cons] at h
      rcases ih h with h | ⟨e', he', hP⟩
      · exact (hwrite e s h).imp_right fun hP => ⟨e, .head _, hP⟩
      · exact .inr ⟨e', .tail _ he', hP⟩

/-- What has become true of the state was made so by an event that stands on the record of a call. -/
theorem Run.made {R : Pool M Op ε α → Step M Op → Prop} {K : M.State → Prop} {P : Event S → Prop}
    (hwrite : ∀ e s, K (M.applyAll (M.writes e.stmt e.ans) s) → K s ∨ P e)
    (henv : ∀ e s, K (M.env e s) → K s) {p₁ p₂ : Pool M Op ε α} (hrun : Run prog R p₁ p₂)
    (h : K p₂.db) : K p₁.db ∨
      ∃ (i : Nat) (t : Thread S Op ε α) (e : Event S), p₂.threads[i]? = some t ∧ e ∈ t.trace.done ∧
        P e := by
  induction hrun with
  | refl => exact .inl h
  | @step p p' a hrun hR hs ih =>
      -- What is on a record stays there.
      have hkeep : K p.db → K p₁.db ∨ ∃ (i : Nat) (t : Thread S Op ε α) (e : Event S),
          p'.threads[i]? = some t ∧ e ∈ t.trace.done ∧ P e := by
        intro hK
        refine (ih hK).imp_right ?_
        rintro ⟨i, t, e, ht, he, hP⟩
        obtain ⟨t', ht', -, hdone⟩ := (moves_of_step hs).keeps ht
        exact ⟨i, t', e, ht', hdone.subset he, hP⟩
      cases taken_of_step hs with
      | spawn o => exact hkeep h
      | env e => exact hkeep (henv e _ h)
      | @call i t q k c x ht hk htx hx =>
          rcases hwrite ⟨q, x⟩ _ h with hK | hP
          · exact hkeep hK
          · refine .inr ⟨i, _, ⟨q, x⟩, List.getElem?_set_self (List.getElem?_eq_some_iff.1 ht).1, ?_, hP⟩
            simp [Trace.push_of_none htx]
      | callTx ht hk htx hx => exact hkeep h
      | @commit i t k c ht hk =>
          rcases replay_made hwrite _ h with hK | ⟨e, he, hP⟩
          · exact hkeep hK
          · exact .inr ⟨i, _, e, List.getElem?_set_self (List.getElem?_eq_some_iff.1 ht).1,
              List.mem_append_right _ he, hP⟩
      | turn _ _ _ _ _ => exact hkeep h

/-- The programs' guards hold of every call on the way. -/
theorem Run.sound {G : Guards S Op} {R : Pool M Op ε α → Step M Op → Prop}
    (hprog : ∀ o, (prog o).Conforms M G (fun _ _ => True) (fun _ _ => True) (.start o))
    {s₀ : M.State} {p : Pool M Op ε α} (hrun : Run prog R (idle s₀) p) : Sound G p := by
  induction hrun with
  | refl => exact ⟨by simp [idle], trivial, by simp [idle], by simp [idle]⟩
  | step _ _ hs ih => exact ih.step (fun o _ => hprog o) hs

/-- Every event on the record of a call satisfied its guard, when the call had done no more than it
    has now. -/
theorem Run.guarded {G : Guards S Op} {R : Pool M Op ε α → Step M Op → Prop}
    (hprog : ∀ o, (prog o).Conforms M G (fun _ _ => True) (fun _ _ => True) (.start o))
    {s₀ : M.State} {p : Pool M Op ε α} (hrun : Run prog R (idle s₀) p) {i : Nat}
    {t : Thread S Op ε α} (ht : p.threads[i]? = some t) {e : Event S} (he : e ∈ t.trace.events) :
    ∃ l : Trace S Op, l.op = t.trace.op ∧ l.done <+: t.trace.done ∧
      G.stmt l e.stmt ∧ M.Possible e.stmt e.ans := by
  induction hrun generalizing t with
  | refl => simp [idle] at ht
  | @step p p' a hrun _ hs ih =>
      have hm := moves_of_step hs
      obtain ⟨u, hu, hevent⟩ := hm.event ht he
      obtain ⟨t', ht', hop, hdone⟩ := hm.keeps hu
      obtain rfl := Option.some.inj (ht.symm.trans ht')
      rcases hevent with hold | ⟨hnext, c, hexec⟩
      · obtain ⟨l, hl, hsub, hguard⟩ := ih hu hold
        exact ⟨l, hl.trans hop.symm, hsub.trans hdone, hguard⟩
      · exact ⟨u.trace, hop.symm, hdone, (hrun.sound hprog).guard hu hnext, c, _, hexec⟩

/-- Where no call commits a transaction, what a call has done is in the history, under its place. -/
theorem Recorded.mem_history {G : Guards S Op}
    (hprog : ∀ o, (prog o).Conforms M G (fun _ _ => True) (fun _ _ => True) (.start o))
    (hcommit : ∀ l, ¬ G.commit l) {s₀ : M.State} {h : History S} {p : Pool M Op ε α}
    (hrec : Recorded prog R (idle s₀) h p) {i : Nat} {t : Thread S Op ε α}
    (ht : p.threads[i]? = some t) {e : Event S} (he : e ∈ t.trace.done) : (i, e) ∈ h := by
  induction hrec generalizing t with
  | refl => simp [idle] at ht
  | @step h p p' a hrec _ hs ih =>
      obtain ⟨u, hu, -, hold | ⟨c, rfl, htx, hnext, hexec⟩ | ⟨k, hk, -⟩⟩ :=
        (taken_of_step hs).done ht he
      · exact List.mem_append_right _ (ih hu hold)
      · obtain ⟨q, k, hk, rfl⟩ : ∃ q k, u.rest = some (.call q k) ∧ e.stmt = q := by
          unfold Thread.next? at hnext
          split at hnext
          · next q k hk => exact ⟨q, k, hk, (Option.some.inj hnext).symm⟩
          · cases hnext
        rw [answering_exec hu hk (by rwa [Trace.view_of_none htx])]
        exact List.mem_append_left _ (List.mem_singleton_self _)
      · exact absurd ((hrec.run.sound hprog).conforms i u hu _ hk).2.1 (hcommit _)

omit [DecidableEq M.Key] in
/-- What a step answers, it answers to the next statement of a call. -/
theorem of_answering {p : Pool M Op ε α} {a : Step M Op} {i : Nat} {e : Event S}
    (h : p.answering a = some (i, e)) :
    ∃ c t k, a = .exec i c ∧ p.threads[i]? = some t ∧ t.rest = some (.call e.stmt k) ∧
      M.exec e.stmt c (t.trace.view M p.db) = some e.ans := by
  cases a with
  | exec j c =>
      simp only [answering] at h
      split at h
      · cases h
      · next t ht =>
          split at h
          · next q k hk =>
              obtain ⟨x, hx, heq⟩ := Option.map_eq_some_iff.1 h
              obtain ⟨rfl, rfl⟩ := Prod.mk.inj heq
              exact ⟨c, t, k, rfl, ht, hk, hx⟩
          · cases h
  | _ => cases h

/-- A step that answers a statement outside a transaction writes what the statement writes, and the
    call has one event more on its record. -/
theorem step_of_answering {p p' : Pool M Op ε α} {a : Step M Op} (hs : p.step prog a = some p')
    {i : Nat} {e : Event S} (h : p.answering a = some (i, e)) {t : Thread S Op ε α}
    (ht : p.threads[i]? = some t) (htx : t.trace.tx = none) :
    p'.db = M.applyAll (M.writes e.stmt e.ans) p.db ∧
      ∃ t', p'.threads[i]? = some t' ∧ t'.trace.done = t.trace.done ++ [e] := by
  obtain ⟨c, u, k, rfl, hu, hk, hx⟩ := of_answering h
  obtain rfl := Option.some.inj (ht.symm.trans hu)
  obtain ⟨u, out, hu, hout, -, -, rfl⟩ := step_exec hs
  obtain rfl := Option.some.inj (ht.symm.trans hu)
  simp only [Thread.exec, hk, hx, Option.map_some, Option.some.injEq] at hout
  subst hout
  refine ⟨by simp [htx], _, List.getElem?_set_self (List.getElem?_eq_some_iff.1 ht).1, ?_⟩
  simp [Trace.push_of_none htx]

/-- What the history holds of statements that are sent outside transactions only is on the record of
    the call. -/
theorem Recorded.mem_done {G : Guards S Op} {F : Event S → Prop}
    (hprog : ∀ o, (prog o).Conforms M G (fun _ _ => True) (fun _ _ => True) (.start o))
    (houtside : ∀ l e, G.stmt l (Event.stmt e) → F e → l.tx = none) {s₀ : M.State} {h : History S}
    {p : Pool M Op ε α} (hrec : Recorded prog R (idle s₀) h p) {i : Nat} {e : Event S}
    (hmem : (i, e) ∈ h) (hF : F e) : ∃ t, p.threads[i]? = some t ∧ e ∈ t.trace.done := by
  induction hrec with
  | refl => cases hmem
  | @step h p p' a hrec _ hs ih =>
      rcases List.mem_append.1 hmem with hnew | hold
      · obtain ⟨c, t, k, rfl, ht, hk, hx⟩ := of_answering (Option.mem_toList.1 hnew)
        have htx := houtside _ e ((hrec.run.sound hprog).conforms i t ht _ hk).1 hF
        obtain ⟨-, t', ht', hdone⟩ := step_of_answering hs (Option.mem_toList.1 hnew) ht htx
        exact ⟨t', ht', by simp [hdone]⟩
      · obtain ⟨t, ht, he⟩ := ih hold
        obtain ⟨t', ht', -, hdone⟩ := (moves_of_step hs).keeps ht
        exact ⟨t', ht', hdone.subset he⟩

/-! ## Going on from a recorded run -/

/-- What is reached from history `h₀` and pool `p₀` by further steps that all satisfy `R`. -/
inductive Onward (prog : Op → Prog S ε α) (R : History S → Pool M Op ε α → Step M Op → Prop)
    (h₀ : History S) (p₀ : Pool M Op ε α) : History S → Pool M Op ε α → Prop
  | refl : Onward prog R h₀ p₀ h₀ p₀
  | step {h : History S} {p p' : Pool M Op ε α} {a : Step M Op} :
      Onward prog R h₀ p₀ h p → R h p a → p.step prog a = some p' →
      Onward prog R h₀ p₀ ((p.answering a).toList ++ h) p'

/-- Carry out a list of further steps, all of which must be possible and satisfy `R`. -/
def playOn (prog : Op → Prog S ε α) (R : History S → Pool M Op ε α → Step M Op → Prop)
    [∀ h p a, Decidable (R h p a)] :
    History S × Pool M Op ε α → List (Step M Op) → Option (History S × Pool M Op ε α)
  | hp, [] => some hp
  | (h, p), a :: as =>
      if R h p a then
        (p.step prog a).bind fun p' => playOn prog R ((p.answering a).toList ++ h, p') as
      else none

theorem Recorded.onward {h h' : History S} {p p' : Pool M Op ε α} (hrec : Recorded prog R p₀ h p)
    (hon : Onward prog R h p h' p') : Recorded prog R p₀ h' p' := by
  induction hon with
  | refl => exact hrec
  | step _ hR hs ih => exact ih.step hR hs

theorem Onward.trans {h h' h'' : History S} {p p' p'' : Pool M Op ε α}
    (hon : Onward prog R h p h' p') (hon' : Onward prog R h' p' h'' p'') :
    Onward prog R h p h'' p'' := by
  induction hon' with
  | refl => exact hon
  | step _ hR hs ih => exact ih.step hR hs

theorem Onward.of_playOn [∀ h p a, Decidable (R h p a)] {hp hp' : History S × Pool M Op ε α}
    {as : List (Step M Op)} (hplay : playOn prog R hp as = some hp') :
    Onward prog R hp.1 hp.2 hp'.1 hp'.2 := by
  induction as generalizing hp with
  | nil =>
      obtain rfl := Option.some.inj hplay
      exact .refl
  | cons a as ih =>
      unfold playOn at hplay
      split at hplay
      · next hR =>
          obtain ⟨q, hq, hrest⟩ := Option.bind_eq_some_iff.1 hplay
          exact Onward.trans (.step .refl hR hq) (ih hrest)
      · cases hplay

end Pool
