import GetPlatform.Store.Pool
import Mathlib.Algebra.GroupWithZero.Nat

set_option autoImplicit false

/-! # Invariants of every interleaving

The induction over runs of a pool, packaged once. An invariant has three parts: `I` speaks of the
committed state, `T` of that state and one call's trace, `U` of the traces of two different calls.
`Rules` lists what has to be checked for the parts to be preserved, one field for each kind of step;
`Rules.holds` is the conclusion for every pool that a run reaches.

What a field may assume comes from the semantics: the guards the programs conform to, that no other
call holds a key this one writes, and that no other call is inside a serializable transaction. -/

namespace Pool

variable {S : Interface} {M : Model S} {Op ε α : Type}

/-- `u` is the trace of a call other than the one at place `i`. -/
def Other (p : Pool M Op ε α) (i : Nat) (u : Trace S Op) : Prop :=
  ∃ (j : Nat) (t : Thread S Op ε α), j ≠ i ∧ p.threads[j]? = some t ∧ t.trace = u

/-- The three parts of an invariant. -/
structure Holds (I : M.State → Prop) (T : M.State → Trace S Op → Prop)
    (U : Trace S Op → Trace S Op → Prop) (p : Pool M Op ε α) : Prop where
  db : I p.db
  thread : ∀ (i : Nat) (t : Thread S Op ε α), p.threads[i]? = some t → T p.db t.trace
  pair : ∀ (i j : Nat) (t u : Thread S Op ε α), i ≠ j → p.threads[i]? = some t → p.threads[j]? = some u → U t.trace u.trace

/-- A number for each call, added up, if none is more than one and no two are positive. -/
theorem sum_threads_le_one (f : Thread S Op ε α → Nat) {p : Pool M Op ε α}
    (hone : ∀ (i : Nat) t, p.threads[i]? = some t → f t ≤ 1)
    (hpair : ∀ (i j : Nat) t u, i ≠ j → p.threads[i]? = some t → p.threads[j]? = some u → f t = 0 ∨ f u = 0) :
    (p.threads.map f).sum ≤ 1 := by
  have hone : ∀ t ∈ p.threads, f t ≤ 1 := fun t ht =>
    (List.mem_iff_getElem?.1 ht).elim fun i hi => hone i t hi
  have hpair : p.threads.Pairwise fun t u => f t = 0 ∨ f u = 0 :=
    List.pairwise_iff_getElem.2 fun i j hi hj hlt =>
      hpair i j _ _ (Nat.ne_of_lt hlt) (List.getElem?_eq_getElem hi) (List.getElem?_eq_getElem hj)
  generalize p.threads = ts at hone hpair
  induction ts with
  | nil => exact Nat.zero_le _
  | cons t ts ih =>
      obtain ⟨ht, hts⟩ := List.pairwise_cons.1 hpair
      rw [List.map_cons, List.sum_cons]
      by_cases hzero : f t = 0
      · rw [hzero, Nat.zero_add]
        exact ih (fun u hu => hone u (.tail _ hu)) hts
      · have hrest : (ts.map f).sum = 0 := by
          refine List.sum_eq_zero_iff_forall_eq_nat.2 fun n hn => ?_
          obtain ⟨u, hu, rfl⟩ := List.mem_map.1 hn
          exact (ht u hu).resolve_left hzero
        rw [hrest]
        exact hone t (.head _)

/-- What `q` is answered does not depend on the environment. -/
def Steady (M : Model S) (q : S.Stmt) : Prop :=
  ∀ e c es s, M.exec q c (M.replay es (M.env e s)) = M.exec q c (M.replay es s)

/-- The steady statements of the open transaction would be answered the same now. -/
def Seen (M : Model S) (s : M.State) (l : Trace S Op) : Prop :=
  ∀ pre e suf, l.pending = pre ++ e :: suf → Steady M e.stmt →
    ∃ c, M.exec e.stmt c (M.replay pre s) = some e.ans

/-- The call `t` at place `i` of `p` is about to have statement `q` answered by `a`. -/
structure Calls (G : Guards S Op) (R : Pool M Op ε α → Step M Op → Prop) (p : Pool M Op ε α)
    (i : Nat) (c : M.Choice) (t : Thread S Op ε α) (q : S.Stmt) (a : S.Ans q) : Prop where
  here : p.threads[i]? = some t
  next : t.next? = some q
  allowed : R p (.exec i c)
  guard : G.stmt t.trace q
  exec : M.exec q c (t.trace.view M p.db) = some a
  seen : t.trace.Exclusive → Seen M p.db t.trace
  alone : ∀ u, p.Other i u → ¬ u.Exclusive
  free : ∀ u, p.Other i u → u.Free M (M.writes q a)

/-- The call `t` at place `i` of `p` is about to commit its transaction `x`. -/
structure Commits (G : Guards S Op) (R : Pool M Op ε α → Step M Op → Prop) (p : Pool M Op ε α)
    (i : Nat) (c : M.Choice) (t : Thread S Op ε α) (x : Tx S) : Prop where
  here : p.threads[i]? = some t
  next : t.commits = true
  allowed : R p (.exec i c)
  guard : G.commit t.trace
  tx : t.trace.tx = some x
  seen : t.trace.Exclusive → Seen M p.db t.trace
  alone : ∀ u, p.Other i u → ¬ u.Exclusive
  free : ∀ u, p.Other i u → u.Free M (t.trace.held M)

/-- What has to be checked for an invariant of all interleavings. -/
structure Rules (G : Guards S Op) (R : Pool M Op ε α → Step M Op → Prop) (I : M.State → Prop)
    (T : M.State → Trace S Op → Prop) (U : Trace S Op → Trace S Op → Prop) : Prop where
  symm : ∀ l u, U l u → U u l
  start : ∀ p o, R p (.spawn o) → I p.db → T p.db (.start o)
  start_pair : ∀ s o u, I s → T s u → U (.start o) u
  env : ∀ p e, R p (.env e) → I p.db → I (M.env e p.db) ∧ ∀ l, T p.db l → T (M.env e p.db) l
  drop : ∀ s l, T s l → T s l.drop
  drop_pair : ∀ l u, U l u → U l.drop u
  openTx : ∀ s l iso, l.tx = none → T s l → T s (l.openTx iso)
  openTx_pair : ∀ l u iso, l.tx = none → U l u → U (l.openTx iso) u
  call : ∀ p i c t q a, Holds I T U p → Calls G R p i c t q a → t.trace.tx = none →
    I (M.applyAll (M.writes q a) p.db) ∧
    T (M.applyAll (M.writes q a) p.db) (t.trace.push ⟨q, a⟩) ∧
    ∀ u, p.Other i u →
      T (M.applyAll (M.writes q a) p.db) u ∧ U (t.trace.push ⟨q, a⟩) u
  callTx : ∀ p i c t q a x, Holds I T U p → Calls G R p i c t q a → t.trace.tx = some x →
    T p.db (t.trace.push ⟨q, a⟩) ∧ ∀ u, p.Other i u → U (t.trace.push ⟨q, a⟩) u
  commit : ∀ p i c t x, Holds I T U p → Commits G R p i c t x →
    I (t.trace.view M p.db) ∧ T (t.trace.view M p.db) t.trace.commit ∧
    ∀ u, p.Other i u → T (t.trace.view M p.db) u ∧ U t.trace.commit u

/-! ## Replacing one call -/

omit M in
private theorem place_set {ts : List (Thread S Op ε α)} {i j : Nat} {t' v : Thread S Op ε α}
    (h : (ts.set i t')[j]? = some v) : (j = i ∧ v = t') ∨ (j ≠ i ∧ ts[j]? = some v) := by
  by_cases hij : i = j
  · subst hij
    have hlt : i < ts.length := by simpa using (List.getElem?_eq_some_iff.1 h).1
    rw [List.getElem?_set_self hlt] at h
    exact .inl ⟨rfl, (Option.some.inj h).symm⟩
  · rw [List.getElem?_set_ne hij] at h
    exact .inr ⟨Ne.symm hij, h⟩

omit M in
private theorem place_append {ts : List (Thread S Op ε α)} {j : Nat} {t' v : Thread S Op ε α}
    (h : (ts ++ [t'])[j]? = some v) : (j = ts.length ∧ v = t') ∨ (j < ts.length ∧ ts[j]? = some v) := by
  rcases Nat.lt_or_ge j ts.length with hlt | hge
  · rw [List.getElem?_append_left hlt] at h
    exact .inr ⟨hlt, h⟩
  · rw [List.getElem?_append_right hge] at h
    obtain ⟨hz, h⟩ := List.getElem?_eq_some_iff.1 h
    simp only [List.length_singleton, Nat.lt_one_iff] at hz
    simp only [hz, List.getElem_cons_zero] at h
    exact .inl ⟨by omega, h.symm⟩

theorem Holds.other {I : M.State → Prop} {T : M.State → Trace S Op → Prop}
    {U : Trace S Op → Trace S Op → Prop} {p : Pool M Op ε α} (h : Holds I T U p) {i : Nat}
    {u : Trace S Op} (hu : p.Other i u) : T p.db u := by
  obtain ⟨j, t, -, hj, rfl⟩ := hu
  exact h.thread j t hj

theorem Holds.other_pair {I : M.State → Prop} {T : M.State → Trace S Op → Prop}
    {U : Trace S Op → Trace S Op → Prop} {p : Pool M Op ε α} (h : Holds I T U p) {i : Nat}
    {t : Thread S Op ε α} (ht : p.threads[i]? = some t) {u : Trace S Op} (hu : p.Other i u) :
    U t.trace u := by
  obtain ⟨j, t', hne, hj, rfl⟩ := hu
  exact h.pair i j t t' (Ne.symm hne) ht hj

/-- Put call `t'` at place `i`: the parts of the invariant that mention it have to be shown again,
    and the state may move if every other call follows. -/
theorem Holds.set {I : M.State → Prop} {T : M.State → Trace S Op → Prop}
    {U : Trace S Op → Trace S Op → Prop} {p : Pool M Op ε α} (h : Holds I T U p)
    (hsymm : ∀ l u, U l u → U u l) {i : Nat} {s : M.State} {t' : Thread S Op ε α}
    (hI : I s) (hT : T s t'.trace)
    (hother : ∀ u, p.Other i u → T s u ∧ U t'.trace u) : Holds I T U ⟨s, p.threads.set i t'⟩ := by
  refine ⟨hI, fun j v hv => ?_, fun j k v w hjk hv hw => ?_⟩
  · rcases place_set hv with ⟨-, rfl⟩ | ⟨hne, hv'⟩
    · exact hT
    · exact (hother _ ⟨j, v, hne, hv', rfl⟩).1
  · rcases place_set hv with ⟨rfl, rfl⟩ | ⟨hne, hv'⟩
    · rcases place_set hw with ⟨rfl, -⟩ | ⟨hne', hw'⟩
      · exact absurd rfl hjk
      · exact (hother _ ⟨k, w, hne', hw', rfl⟩).2
    · rcases place_set hw with ⟨rfl, rfl⟩ | ⟨-, hw'⟩
      · exact hsymm _ _ (hother _ ⟨j, v, hne, hv', rfl⟩).2
      · exact h.pair j k v w hjk hv' hw'

/-- Add a call that starts. -/
theorem Holds.spawn {I : M.State → Prop} {T : M.State → Trace S Op → Prop}
    {U : Trace S Op → Trace S Op → Prop} {p : Pool M Op ε α} (h : Holds I T U p)
    (hsymm : ∀ l u, U l u → U u l) {t' : Thread S Op ε α} (hT : T p.db t'.trace)
    (hpair : ∀ u, T p.db u → U t'.trace u) : Holds I T U ⟨p.db, p.threads ++ [t']⟩ := by
  refine ⟨h.db, fun j v hv => ?_, fun j k v w hjk hv hw => ?_⟩
  · rcases place_append hv with ⟨-, rfl⟩ | ⟨-, hv'⟩
    · exact hT
    · exact h.thread j v hv'
  · rcases place_append hv with ⟨rfl, rfl⟩ | ⟨-, hv'⟩
    · rcases place_append hw with ⟨rfl, -⟩ | ⟨-, hw'⟩
      · exact absurd rfl hjk
      · exact hpair _ (h.thread k w hw')
    · rcases place_append hw with ⟨rfl, rfl⟩ | ⟨-, hw'⟩
      · exact hsymm _ _ (hpair _ (h.thread j v hv'))
      · exact h.pair j k v w hjk hv' hw'

/-! ## The invariant of the semantics itself -/

/-- No two calls hold the same key. -/
def LocksApart (M : Model S) (l u : Trace S Op) : Prop := u.Free M (l.held M)

theorem LocksApart.symm {l u : Trace S Op} (h : LocksApart M l u) : LocksApart M u l :=
  fun w hw v hv k hk hkey => h v hv w hw k hkey hk

theorem locksApart_of_none {l u : Trace S Op} (h : l.tx = none) : LocksApart M l u := by
  intro w hw
  simp [Trace.held, Trace.pending_of_none h, Model.writesOf] at hw

theorem LocksApart.push {l u : Trace S Op} {q : S.Stmt} {a : S.Ans q} (h : LocksApart M l u)
    (hfree : u.Free M (M.writes q a)) : LocksApart M (l.push ⟨q, a⟩) u := by
  cases hl : l.tx with
  | none => exact locksApart_of_none (by simp [Trace.push_of_none hl, hl])
  | some x =>
      intro w hw
      simp only [Trace.push_of_some hl, Trace.held, Trace.pending, Option.map_some,
        Option.getD_some, Model.mem_writesOf, List.mem_append, List.mem_singleton] at hw
      obtain ⟨e, he | rfl, hwe⟩ := hw
      · exact h w (M.mem_writesOf.2 ⟨e, by rwa [Trace.pending_of_some hl], hwe⟩)
      · exact hfree w hwe

theorem seen_of_nil {s : M.State} {l : Trace S Op} (h : l.pending = []) : Seen M s l := by
  intro pre e suf he
  simp [h] at he

theorem Seen.env {s : M.State} {l : Trace S Op} (h : Seen M s l) (e : M.Env) :
    Seen M (M.env e s) l := by
  intro pre e' suf he hsteady
  obtain ⟨c, hc⟩ := h pre e' suf he hsteady
  exact ⟨c, (hsteady e c pre s).trans hc⟩

theorem Seen.push {s : M.State} {l : Trace S Op} (h : Seen M s l) {q : S.Stmt} {a : S.Ans q}
    {c : M.Choice} (hexec : M.exec q c (l.view M s) = some a) : Seen M s (l.push ⟨q, a⟩) := by
  cases hl : l.tx with
  | none => exact seen_of_nil (by simp [Trace.push_of_none hl, Trace.pending, hl])
  | some x =>
      intro pre e suf he hsteady
      simp only [Trace.push_of_some hl, Trace.pending, Option.map_some, Option.getD_some] at he
      rcases List.eq_nil_or_concat suf with rfl | ⟨suf, z, rfl⟩
      · obtain ⟨rfl, hlast⟩ := List.append_inj' he rfl
        obtain rfl := List.singleton_inj.1 hlast
        exact ⟨c, by simpa [Trace.view, Trace.pending_of_some hl] using hexec⟩
      · have he' : x.events ++ [⟨q, a⟩] = (pre ++ e :: suf) ++ [z] := by simpa using he
        exact h pre e suf ((Trace.pending_of_some hl).trans (List.append_inj' he' rfl).1) hsteady

/-- Every call has a conforming program left, no two hold the same key, and a serializable
    transaction has seen the state it runs on. -/
structure Sound (G : Guards S Op) (p : Pool M Op ε α) : Prop where
  conforms : ∀ (i : Nat) (t : Thread S Op ε α), p.threads[i]? = some t → ∀ k, t.rest = some k →
    k.Conforms M G (fun _ _ => True) (fun _ _ => True) t.trace
  locks : Holds (fun _ => True) (fun s l => l.Exclusive → Seen M s l) (LocksApart M) p

theorem Sound.apart {G : Guards S Op} {p : Pool M Op ε α} (h : Sound G p) {i : Nat}
    {t : Thread S Op ε α} (ht : p.threads[i]? = some t) {u : Trace S Op} (hu : p.Other i u) :
    LocksApart M t.trace u :=
  h.locks.other_pair ht hu

/-- Put call `t'` at place `i`. The state may move if no other call is inside a serializable
    transaction. -/
theorem Sound.set {G : Guards S Op} {p : Pool M Op ε α} (h : Sound G p) {i : Nat} {s : M.State}
    {t' : Thread S Op ε α}
    (hk : ∀ k, t'.rest = some k → k.Conforms M G (fun _ _ => True) (fun _ _ => True) t'.trace)
    (hseen : t'.trace.Exclusive → Seen M s t'.trace)
    (hs : s = p.db ∨ ∀ u, p.Other i u → ¬ u.Exclusive)
    (hfree : ∀ u, p.Other i u → LocksApart M t'.trace u) : Sound G ⟨s, p.threads.set i t'⟩ := by
  refine ⟨fun j v hv => ?_, h.locks.set (fun _ _ => LocksApart.symm) trivial hseen fun u hu =>
    ⟨fun hx => ?_, hfree u hu⟩⟩
  · rcases place_set hv with ⟨-, rfl⟩ | ⟨-, hv'⟩
    · exact hk
    · exact h.conforms j v hv'
  · rcases hs with rfl | halone
    · exact h.locks.other hu hx
    · exact absurd hx (halone u hu)

theorem Sound.spawn {G : Guards S Op} {p : Pool M Op ε α} (h : Sound G p) {o : Op}
    {k : Prog S ε α} (hk : k.Conforms M G (fun _ _ => True) (fun _ _ => True) (.start o)) :
    Sound G ⟨p.db, p.threads ++ [⟨.start o, some k⟩]⟩ := by
  refine ⟨fun j v hv => ?_, h.locks.spawn (fun _ _ => LocksApart.symm)
    (fun _ => seen_of_nil rfl) fun u _ => locksApart_of_none rfl⟩
  rcases place_append hv with ⟨-, rfl⟩ | ⟨-, hv'⟩
  · rintro k' hk'
    exact Option.some.inj hk' ▸ hk
  · exact h.conforms j v hv'

theorem Sound.drop {G : Guards S Op} {p : Pool M Op ε α} (h : Sound G p) {i : Nat}
    {t : Thread S Op ε α} {k : Option (Prog S ε α)}
    (hk : ∀ k', k = some k' → k'.Conforms M G (fun _ _ => True) (fun _ _ => True) t.trace.drop) :
    Sound G ⟨p.db, p.threads.set i ⟨t.trace.drop, k⟩⟩ :=
  h.set hk (fun _ => seen_of_nil rfl) (.inl rfl) fun _ _ => locksApart_of_none rfl

theorem Sound.same {G : Guards S Op} {p : Pool M Op ε α} (h : Sound G p) {i : Nat}
    {t : Thread S Op ε α} (ht : p.threads[i]? = some t) {k : Prog S ε α}
    (hk : k.Conforms M G (fun _ _ => True) (fun _ _ => True) t.trace) :
    Sound G ⟨p.db, p.threads.set i ⟨t.trace, some k⟩⟩ :=
  h.set (fun _ hk' => Option.some.inj hk' ▸ hk) (h.locks.thread i t ht) (.inl rfl) fun _ hu =>
    h.apart ht hu

/-! ## Preservation -/

section Preservation

variable {prog : Op → Prog S ε α} [DecidableEq M.Key] {G : Guards S Op}
  {R : Pool M Op ε α → Step M Op → Prop} {I : M.State → Prop}
  {T : M.State → Trace S Op → Prop} {U : Trace S Op → Trace S Op → Prop}

/-- What carrying out a command requires of the other calls. -/
theorem step_exec {p p' : Pool M Op ε α} {i : Nat} {c : M.Choice}
    (h : p.step prog (.exec i c) = some p') :
    ∃ t out, p.threads[i]? = some t ∧ t.exec M c p.db = some out ∧
      (∀ u, p.Other i u → ¬ u.Exclusive) ∧ (∀ u, p.Other i u → u.Free M out.issued) ∧
      p' = ⟨out.state, p.threads.set i out.thread⟩ := by
  simp only [step] at h
  split at h
  · cases h
  · next t ht =>
      split at h
      · cases h
      · next out hout =>
          split at h
          · cases h
          · next hno =>
              simp only [Bool.or_eq_true, not_or, Bool.not_eq_true] at hno
              refine ⟨t, out, ht, hout, ?_, ?_, (Option.some.inj h).symm⟩
              · rintro u ⟨j, v, hj, hv, rfl⟩
                exact not_excluded hno.1 hj hv
              · rintro u ⟨j, v, hj, hv, rfl⟩
                exact not_locked hno.2 hj hv

/-- What a failure leads to: the call goes on with the failure as its answer, and a commit that
    fails has undone its transaction. -/
theorem step_fault {p p' : Pool M Op ε α} {i : Nat} {f : S.Failure}
    (h : p.step prog (.fault i f) = some p') :
    ∃ t, p.threads[i]? = some t ∧
      ((∃ q k, t.rest = some (.call q k) ∧
          p' = ⟨p.db, p.threads.set i ⟨t.trace, some (k (.error f))⟩⟩) ∨
        ∃ k, t.rest = some (.commitTx k) ∧
          p' = ⟨p.db, p.threads.set i ⟨t.trace.drop, some (k (.error f))⟩⟩) := by
  simp only [step] at h
  split at h
  · cases h
  · next t ht =>
      refine ⟨t, ht, ?_⟩
      simp only [Option.map_eq_some_iff] at h
      obtain ⟨t', ht', rfl⟩ := h
      unfold Thread.fault at ht'
      split at ht'
      · next q k hk => exact .inl ⟨q, k, hk, by rw [← Option.some.inj ht']⟩
      · next k hk => exact .inr ⟨k, hk, by rw [← Option.some.inj ht']⟩
      · cases ht'

theorem step_crash {p p' : Pool M Op ε α} {i : Nat} (h : p.step prog (.crash i) = some p') :
    ∃ t, p.threads[i]? = some t ∧ p' = ⟨p.db, p.threads.set i ⟨t.trace.drop, none⟩⟩ := by
  simp only [step] at h
  split at h
  · cases h
  · next t ht => exact ⟨t, ht, (Option.some.inj h).symm⟩

theorem Sound.step {p p' : Pool M Op ε α} {a : Step M Op} (h : Sound G p)
    (hprog : ∀ o, a = .spawn o →
      (prog o).Conforms M G (fun _ _ => True) (fun _ _ => True) (.start o))
    (hs : p.step prog a = some p') : Sound G p' := by
  cases a with
  | spawn o =>
      simp only [Pool.step, Option.some.injEq] at hs
      exact hs ▸ h.spawn (hprog o rfl)
  | env e =>
      simp only [Pool.step, Option.some.injEq] at hs
      exact hs ▸ ⟨h.conforms, trivial, fun i t ht hx => (h.locks.thread i t ht hx).env e,
        h.locks.pair⟩
  | crash i =>
      obtain ⟨t, -, rfl⟩ := step_crash hs
      exact h.drop (by simp)
  | fault i f =>
      obtain ⟨t, ht, ⟨q, k, hk, rfl⟩ | ⟨k, hk, rfl⟩⟩ := step_fault hs
      · exact h.same ht ((h.conforms i t ht _ hk).2.1 f)
      · exact h.drop fun k' hk' => Option.some.inj hk' ▸ (h.conforms i t ht _ hk).2.2.1 f
  | exec i c =>
      obtain ⟨t, out, ht, hout, halone, hfree, rfl⟩ := step_exec hs
      obtain ⟨q, k, a, hk, ha, rfl⟩ | ⟨iso, k, hk, rfl⟩ | ⟨k, hk, rfl⟩ | ⟨k, hk, rfl⟩ :=
        exec_cases hout
      · refine h.set (fun k' hk' => ?_) (fun hx => ?_) (.inr halone) fun u hu =>
          (h.apart ht hu).push (hfree u hu)
        · exact Option.some.inj hk' ▸ (h.conforms i t ht _ hk).2.2 a ⟨c, _, ha⟩
        · cases htx : t.trace.tx with
          | none => exact seen_of_nil (by simp [Trace.push_of_none htx, Trace.pending, htx])
          | some x =>
              obtain ⟨y, hy, hiso⟩ := hx
              simp only [Trace.push_of_some htx, Option.some.injEq] at hy
              subst hy
              simpa [htx] using (h.locks.thread i t ht ⟨x, htx, hiso⟩).push ha
      · have hc := h.conforms i t ht _ hk
        refine h.set (fun k' hk' => Option.some.inj hk' ▸ hc.2) (fun _ => seen_of_nil rfl)
          (.inl rfl) fun u _ => ?_
        intro w hw
        simp [Trace.held, Model.writesOf] at hw
      · refine h.set (fun k' hk' => ?_) (fun _ => seen_of_nil rfl) (.inr halone) fun u _ =>
          locksApart_of_none rfl
        exact Option.some.inj hk' ▸ (h.conforms i t ht _ hk).2.2.2
      · exact h.drop fun k' hk' => Option.some.inj hk' ▸ h.conforms i t ht _ hk

/-- One step keeps an invariant whose rules hold. -/
theorem Rules.step (hr : Rules G R I T U) {p p' : Pool M Op ε α} {a : Step M Op}
    (hsound : Sound G p) (h : Holds I T U p) (hR : R p a) (hs : p.step prog a = some p') :
    Holds I T U p' := by
  cases a with
  | spawn o =>
      simp only [Pool.step, Option.some.injEq] at hs
      exact hs ▸ h.spawn hr.symm (hr.start p o hR h.db) fun u hu =>
        hr.start_pair p.db o u h.db hu
  | env e =>
      simp only [Pool.step, Option.some.injEq] at hs
      obtain ⟨hI, hT⟩ := hr.env p e hR h.db
      exact hs ▸ ⟨hI, fun i t ht => hT _ (h.thread i t ht), h.pair⟩
  | crash i =>
      obtain ⟨t, ht, rfl⟩ := step_crash hs
      exact h.set hr.symm h.db (hr.drop _ _ (h.thread i t ht)) fun u hu =>
        ⟨h.other hu, hr.drop_pair _ _ (h.other_pair ht hu)⟩
  | fault i f =>
      obtain ⟨t, ht, ⟨q, k, -, rfl⟩ | ⟨k, -, rfl⟩⟩ := step_fault hs
      · exact h.set hr.symm h.db (h.thread i t ht) fun u hu => ⟨h.other hu, h.other_pair ht hu⟩
      · exact h.set hr.symm h.db (hr.drop _ _ (h.thread i t ht)) fun u hu =>
          ⟨h.other hu, hr.drop_pair _ _ (h.other_pair ht hu)⟩
  | exec i c =>
      obtain ⟨t, out, ht, hout, halone, hfree, rfl⟩ := step_exec hs
      obtain ⟨q, k, a, hk, ha, rfl⟩ | ⟨iso, k, hk, rfl⟩ | ⟨k, hk, rfl⟩ | ⟨k, hk, rfl⟩ :=
        exec_cases hout
      · have hcalls : Calls G R p i c t q a :=
          ⟨ht, by simp [Thread.next?, hk], hR, (hsound.conforms i t ht _ hk).1, ha,
            hsound.locks.thread i t ht, halone, hfree⟩
        cases hx : t.trace.tx with
        | none =>
            obtain ⟨hI, hT, hother⟩ := hr.call p i c t q a h hcalls hx
            exact h.set hr.symm (by simpa [hx] using hI) (by simpa [hx] using hT)
              fun u hu => by simpa [hx] using hother u hu
        | some x =>
            obtain ⟨hT, hother⟩ := hr.callTx p i c t q a x h hcalls hx
            exact h.set hr.symm (by simpa [hx] using h.db) (by simpa [hx] using hT)
              fun u hu => by simpa [hx] using ⟨h.other hu, hother u hu⟩
      · have hnone := (hsound.conforms i t ht _ hk).1
        exact h.set hr.symm h.db (hr.openTx _ _ iso hnone (h.thread i t ht)) fun u hu =>
          ⟨h.other hu, hr.openTx_pair _ _ iso hnone (h.other_pair ht hu)⟩
      · obtain ⟨hsome, hguard, -⟩ := hsound.conforms i t ht _ hk
        obtain ⟨x, hx⟩ := Option.ne_none_iff_exists'.1 hsome
        obtain ⟨hI, hT, hother⟩ := hr.commit p i c t x h
          ⟨ht, by simp [Thread.commits, hk], hR, hguard, hx, hsound.locks.thread i t ht, halone, fun u hu =>
            hsound.apart ht hu⟩
        exact h.set hr.symm hI hT hother
      · exact h.set hr.symm h.db (hr.drop _ _ (h.thread i t ht)) fun u hu =>
          ⟨h.other hu, hr.drop_pair _ _ (h.other_pair ht hu)⟩

/-- How one step can change the committed state. -/
inductive Changes (G : Guards S Op) (R : Pool M Op ε α → Step M Op → Prop) (p : Pool M Op ε α) :
    M.State → Prop
  | none : Changes G R p p.db
  | env (e : M.Env) : R p (.env e) → Changes G R p (M.env e p.db)
  | call {i : Nat} {c : M.Choice} {t : Thread S Op ε α} {q : S.Stmt} {a : S.Ans q} :
      Calls G R p i c t q a → t.trace.tx = .none →
      Changes G R p (M.applyAll (M.writes q a) p.db)
  | commit {i : Nat} {c : M.Choice} {t : Thread S Op ε α} {x : Tx S} :
      Commits G R p i c t x → Changes G R p (t.trace.view M p.db)

/-- A step changes the committed state by a statement outside a transaction, by a commit, or as
    the environment does. -/
theorem Sound.changes {p p' : Pool M Op ε α} {a : Step M Op} (h : Sound G p) (hR : R p a)
    (hs : p.step prog a = some p') : Changes G R p p'.db := by
  cases a with
  | spawn o =>
      simp only [Pool.step, Option.some.injEq] at hs
      exact hs ▸ .none
  | env e =>
      simp only [Pool.step, Option.some.injEq] at hs
      exact hs ▸ .env e hR
  | crash i =>
      obtain ⟨t, -, rfl⟩ := step_crash hs
      exact .none
  | fault i f =>
      obtain ⟨t, -, ⟨q, k, -, rfl⟩ | ⟨k, -, rfl⟩⟩ := step_fault hs <;> exact .none
  | exec i c =>
      obtain ⟨t, out, ht, hout, halone, hfree, rfl⟩ := step_exec hs
      obtain ⟨q, k, a, hk, ha, rfl⟩ | ⟨iso, k, hk, rfl⟩ | ⟨k, hk, rfl⟩ | ⟨k, hk, rfl⟩ :=
        exec_cases hout
      · cases hx : t.trace.tx with
        | none =>
            have hcalls : Calls G R p i c t q a :=
              ⟨ht, by simp [Thread.next?, hk], hR, (h.conforms i t ht _ hk).1, ha, h.locks.thread i t ht, halone, hfree⟩
            simpa [hx] using Changes.call hcalls hx
        | some x => simpa [hx] using Changes.none
      · exact .none
      · obtain ⟨hsome, hguard, -⟩ := h.conforms i t ht _ hk
        obtain ⟨x, hx⟩ := Option.ne_none_iff_exists'.1 hsome
        exact .commit (x := x) ⟨ht, by simp [Thread.commits, hk], hR, hguard, hx, h.locks.thread i t ht, halone, fun u hu =>
          h.apart ht hu⟩
      · exact .none

/-- **An invariant whose rules hold is true of every pool a run reaches.** -/
theorem Rules.holds (hr : Rules G R I T U)
    (hprog : ∀ p o, R p (.spawn o) →
      (prog o).Conforms M G (fun _ _ => True) (fun _ _ => True) (.start o))
    {s₀ : M.State} (hI : I s₀) {p : Pool M Op ε α} (hrun : Run prog R (idle s₀) p) :
    Sound G p ∧ Holds I T U p := by
  induction hrun with
  | refl =>
      refine ⟨⟨?_, ?_⟩, ?_⟩
      · simp [idle]
      · exact ⟨trivial, by simp [idle], by simp [idle]⟩
      · exact ⟨hI, by simp [idle], by simp [idle]⟩
  | step _ hR hs ih => exact ⟨ih.1.step (fun o ho => hprog _ o (ho ▸ hR)) hs,
      hr.step ih.1 ih.2 hR hs⟩

end Preservation

end Pool
