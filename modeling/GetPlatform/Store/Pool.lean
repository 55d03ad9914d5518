import GetPlatform.Store.Trace

set_option autoImplicit false

/-! # Many calls on one database

A `Pool` is the committed state together with the calls in progress. One step of a pool carries out
one command of one call, so every interleaving of the calls is a sequence of steps.

* A statement outside a transaction takes effect at once.
* Inside a `readCommitted` transaction a statement sees the rows committed so far and the
  transaction's own writes. The writes reach the committed state at the commit.
* A write takes a lock on its key, which an open transaction keeps. A statement whose writes would
  touch a key that another open transaction holds cannot run; it waits.
* While a `serializable` transaction is open, no other call runs a command: such a transaction is
  atomic. The database may refuse its commit.

A statement may fail, and a call may be cut at any moment; both undo an open transaction only. -/

/-- A call in progress: what it has done and what is left of its program. A call that was cut has
    no program left. -/
structure Thread (S : Interface) (Op ε α : Type) where
  trace : Trace S Op
  rest : Option (Prog S ε α)

variable {S : Interface} {Op ε α : Type}

/-- What carrying out one command leads to. -/
structure Outcome (M : Model S) (Op ε α : Type) where
  state : M.State
  thread : Thread S Op ε α
  /-- The writes the command issued, which must be free to lock. -/
  issued : List M.Write

structure Pool (M : Model S) (Op ε α : Type) where
  db : M.State
  threads : List (Thread S Op ε α)

/-- What can happen to a pool. -/
inductive Step (M : Model S) (Op : Type) where
  /-- A new call of an operation arrives. -/
  | spawn (o : Op)
  /-- The call at place `i` carries out its next command. -/
  | exec (i : Nat) (c : M.Choice)
  /-- The next statement or commit of the call at place `i` fails. -/
  | fault (i : Nat) (f : S.Failure)
  /-- The call at place `i` is cut. -/
  | crash (i : Nat)
  /-- The environment moves on. -/
  | env (e : M.Env)

namespace Trace

variable (M : Model S)

/-- The writes an open transaction holds back. -/
def held (l : Trace S Op) : List M.Write := M.writesOf l.pending

/-- The state the call's next statement sees. -/
def view (l : Trace S Op) (s : M.State) : M.State := M.replay l.pending s

/-- Nothing in `ws` touches a key that the open transaction of `l` holds. -/
def Free (ws : List M.Write) (l : Trace S Op) : Prop :=
  ∀ w ∈ ws, ∀ v ∈ l.held M, ∀ k, M.key w = some k → M.key v ≠ some k

variable {M}

@[simp] theorem view_of_none {l : Trace S Op} (h : l.tx = none) (s : M.State) : l.view M s = s := by
  simp [view, pending_of_none h]

theorem Free.of_mem {ws : List M.Write} {l : Trace S Op} (h : l.Free M ws) {w v : M.Write}
    (hw : w ∈ ws) {e : Event S} (he : e ∈ l.pending) (hv : v ∈ M.writes e.stmt e.ans) {k : M.Key}
    (hk : M.key w = some k) : M.key v ≠ some k :=
  h w hw v (M.mem_writesOf.2 ⟨e, he, hv⟩) k hk

theorem free_of_none {ws : List M.Write} {l : Trace S Op} (h : l.tx = none) : l.Free M ws := by
  intro w _ v hv
  simp [held, pending_of_none h, Model.writesOf] at hv

end Trace

namespace Thread

variable (M : Model S)

/-- Carry out the next command of `t` in state `s`. -/
def exec (t : Thread S Op ε α) (c : M.Choice) (s : M.State) : Option (Outcome M Op ε α) :=
  match t.rest with
  | some (.call q k) =>
      (M.exec q c (t.trace.view M s)).map fun a =>
        ⟨if t.trace.tx.isNone then M.applyAll (M.writes q a) s else s,
          ⟨t.trace.push ⟨q, a⟩, some (k (.ok a))⟩, M.writes q a⟩
  | some (.beginTx iso k) => some ⟨s, ⟨t.trace.openTx iso, some k⟩, []⟩
  | some (.commitTx k) => some ⟨t.trace.view M s, ⟨t.trace.commit, some (k (.ok ()))⟩, []⟩
  | some (.rollbackTx k) => some ⟨s, ⟨t.trace.drop, some k⟩, []⟩
  | _ => none

variable {M}

/-- The next statement or commit fails. A commit that fails undoes its transaction. -/
def fault (t : Thread S Op ε α) (f : S.Failure) : Option (Thread S Op ε α) :=
  match t.rest with
  | some (.call _ k) => some ⟨t.trace, some (k (.error f))⟩
  | some (.commitTx k) => some ⟨t.trace.drop, some (k (.error f))⟩
  | _ => none

/-- The statement the call is about to send. -/
def next? (t : Thread S Op ε α) : Option S.Stmt :=
  match t.rest with
  | some (.call q _) => some q
  | _ => none

/-- Is the call about to commit? -/
def commits (t : Thread S Op ε α) : Bool :=
  match t.rest with
  | some (.commitTx _) => true
  | _ => false

/-- The call is cut: its open transaction is undone. -/
def crash (t : Thread S Op ε α) : Thread S Op ε α := ⟨t.trace.drop, none⟩

end Thread

namespace Pool

variable {M : Model S} (prog : Op → Prog S ε α)

/-- Does a call other than the one at place `i` have a serializable transaction open? -/
def excluded (p : Pool M Op ε α) (i : Nat) : Bool :=
  (List.range p.threads.length).any fun j =>
    j != i && (p.threads[j]?.any fun u => u.trace.tx.any fun t => t.iso == .serializable)

/-- Does a call other than the one at place `i` hold the key of a write in `ws`? -/
def locked [DecidableEq M.Key] (p : Pool M Op ε α) (i : Nat) (ws : List M.Write) : Bool :=
  (List.range p.threads.length).any fun j =>
    j != i && (p.threads[j]?.any fun u =>
      ws.any fun w => (u.trace.held M).any fun v => (M.key w).isSome && M.key w == M.key v)

/-- One step of a pool; `none` when the step is not possible. -/
def step [DecidableEq M.Key] (p : Pool M Op ε α) : Step M Op → Option (Pool M Op ε α)
  | .spawn o => some ⟨p.db, p.threads ++ [⟨.start o, some (prog o)⟩]⟩
  | .exec i c =>
      match p.threads[i]? with
      | none => none
      | some t =>
          match t.exec M c p.db with
          | none => none
          | some out =>
              if p.excluded i || p.locked i out.issued then none
              else some ⟨out.state, p.threads.set i out.thread⟩
  | .fault i f =>
      match p.threads[i]? with
      | none => none
      | some t => (t.fault f).map fun t' => ⟨p.db, p.threads.set i t'⟩
  | .crash i =>
      match p.threads[i]? with
      | none => none
      | some t => some ⟨p.db, p.threads.set i t.crash⟩
  | .env e => some ⟨M.env e p.db, p.threads⟩

/-- Carry out a list of steps, all of which must be possible and satisfy `R`. -/
def play [DecidableEq M.Key] (R : Pool M Op ε α → Step M Op → Prop) [∀ p a, Decidable (R p a)]
    (p : Pool M Op ε α) : List (Step M Op) → Option (Pool M Op ε α)
  | [] => some p
  | a :: as => if R p a then (p.step prog a).bind fun p' => p'.play R as else none

/-- A pool without calls. -/
def idle (s : M.State) : Pool M Op ε α := ⟨s, []⟩

/-- The pools reached from `p₀` by steps that all satisfy `R`. -/
inductive Run [DecidableEq M.Key] (R : Pool M Op ε α → Step M Op → Prop) (p₀ : Pool M Op ε α) :
    Pool M Op ε α → Prop
  | refl : Run R p₀ p₀
  | step {p p' : Pool M Op ε α} {a : Step M Op} :
      Run R p₀ p → R p a → p.step prog a = some p' → Run R p₀ p'

/-- No restriction on the steps. -/
def anyStep (_ : Pool M Op ε α) (_ : Step M Op) : Prop := True

instance (p : Pool M Op ε α) (a : Step M Op) : Decidable (anyStep p a) :=
  inferInstanceAs (Decidable True)

/-- Every call that arrives satisfies `f`. -/
def onlyCalls (f : Op → Prop) (_ : Pool M Op ε α) : Step M Op → Prop
  | .spawn o => f o
  | _ => True

instance (f : Op → Prop) [DecidablePred f] (p : Pool M Op ε α) (a : Step M Op) :
    Decidable (onlyCalls f p a) := by
  cases a <;> unfold onlyCalls <;> infer_instance

variable {prog} [DecidableEq M.Key]

theorem Run.mono {R R' : Pool M Op ε α → Step M Op → Prop} (h : ∀ p a, R p a → R' p a)
    {p₀ p : Pool M Op ε α} (hr : Run prog R p₀ p) : Run prog R' p₀ p := by
  induction hr with
  | refl => exact .refl
  | step _ hR hs ih => exact .step ih (h _ _ hR) hs

theorem Run.trans {R : Pool M Op ε α → Step M Op → Prop} {p₀ p₁ p₂ : Pool M Op ε α}
    (h₁ : Run prog R p₀ p₁) (h₂ : Run prog R p₁ p₂) : Run prog R p₀ p₂ := by
  induction h₂ with
  | refl => exact h₁
  | step _ hR hs ih => exact .step ih hR hs

/-- What holds of every pool on the way may be assumed of every step. -/
theorem Run.along {R : Pool M Op ε α → Step M Op → Prop} {K : Pool M Op ε α → Prop}
    {p₀ p : Pool M Op ε α} (hK : ∀ q, Run prog R p₀ q → K q) (hr : Run prog R p₀ p) :
    Run prog (fun q a => R q a ∧ K q) p₀ p := by
  induction hr with
  | refl => exact .refl
  | step hr hR hs ih => exact .step ih ⟨hR, hK _ hr⟩ hs

/-- A played list of steps is a run. -/
theorem run_of_play {R : Pool M Op ε α → Step M Op → Prop} [∀ p a, Decidable (R p a)]
    {p p' : Pool M Op ε α} {as : List (Step M Op)} (h : p.play prog R as = some p') :
    Run prog R p p' := by
  induction as generalizing p with
  | nil =>
      simp only [play, Option.some.injEq] at h
      exact h ▸ .refl
  | cons a as ih =>
      simp only [play] at h
      split at h
      · next hR =>
          obtain ⟨q, hq, hrest⟩ := Option.bind_eq_some_iff.1 h
          exact Run.trans (.step .refl hR hq) (ih hrest)
      · cases h

/-- A played list of steps that ends in a pool satisfying `f` is a run to such a pool. -/
theorem exists_run_of_play {R : Pool M Op ε α → Step M Op → Prop} [∀ p a, Decidable (R p a)]
    {p : Pool M Op ε α} {as : List (Step M Op)} {f : Pool M Op ε α → Bool}
    (h : (p.play prog R as).any f = true) : ∃ p', Run prog R p p' ∧ f p' = true := by
  obtain ⟨p', hp', hf⟩ := (Option.any_eq_true ..).1 h
  exact ⟨p', run_of_play hp', hf⟩

/-! ## What one step can do -/

omit [DecidableEq M.Key] in
theorem not_excluded {p : Pool M Op ε α} {i : Nat} (h : p.excluded i = false) {j : Nat}
    {u : Thread S Op ε α} (hj : j ≠ i) (hu : p.threads[j]? = some u) : ¬ u.trace.Exclusive := by
  rintro ⟨t, ht, hiso⟩
  have hlt : j < p.threads.length := (List.getElem?_eq_some_iff.1 hu).1
  have := List.any_eq_false.1 h j (List.mem_range.2 hlt)
  simp [hj, hu, ht, hiso] at this

theorem not_locked {p : Pool M Op ε α} {i : Nat} {ws : List M.Write} (h : p.locked i ws = false)
    {j : Nat} {u : Thread S Op ε α} (hj : j ≠ i) (hu : p.threads[j]? = some u) :
    u.trace.Free M ws := by
  intro w hw v hv k hk hkey
  have hlt : j < p.threads.length := (List.getElem?_eq_some_iff.1 hu).1
  refine Bool.eq_false_iff.1 h (List.any_eq_true.2 ⟨j, List.mem_range.2 hlt, ?_⟩)
  simp only [Bool.and_eq_true, bne_iff_ne]
  refine ⟨hj, ?_⟩
  rw [hu]
  exact List.any_eq_true.2 ⟨w, hw, List.any_eq_true.2 ⟨v, hv, by simp [hk, hkey]⟩⟩

omit [DecidableEq M.Key] in
/-- The command a call carries out, seen from its trace. -/
theorem exec_cases {t : Thread S Op ε α} {c : M.Choice} {s : M.State} {out : Outcome M Op ε α}
    (h : t.exec M c s = some out) :
    (∃ q k a, t.rest = some (.call q k) ∧ M.exec q c (t.trace.view M s) = some a ∧
      out = ⟨if t.trace.tx.isNone then M.applyAll (M.writes q a) s else s,
        ⟨t.trace.push ⟨q, a⟩, some (k (.ok a))⟩, M.writes q a⟩) ∨
    (∃ iso k, t.rest = some (.beginTx iso k) ∧ out = ⟨s, ⟨t.trace.openTx iso, some k⟩, []⟩) ∨
    (∃ k, t.rest = some (.commitTx k) ∧
      out = ⟨t.trace.view M s, ⟨t.trace.commit, some (k (.ok ()))⟩, []⟩) ∨
    (∃ k, t.rest = some (.rollbackTx k) ∧ out = ⟨s, ⟨t.trace.drop, some k⟩, []⟩) := by
  unfold Thread.exec at h
  split at h
  · next q k hrest =>
      simp only [Option.map_eq_some_iff] at h
      obtain ⟨a, ha, rfl⟩ := h
      exact .inl ⟨q, k, a, hrest, ha, rfl⟩
  · next iso k hrest => exact .inr (.inl ⟨iso, k, hrest, (Option.some.inj h).symm⟩)
  · next k hrest => exact .inr (.inr (.inl ⟨k, hrest, (Option.some.inj h).symm⟩))
  · next k hrest => exact .inr (.inr (.inr ⟨k, hrest, (Option.some.inj h).symm⟩))
  · cases h

end Pool
