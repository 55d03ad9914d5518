import GetPlatform.Store.Alone
import GetPlatform.Store.Pool

set_option autoImplicit false

/-! # A call by itself in a pool

A run of a program by itself (`Prog.alone`) is one of the runs of a pool: the one in which the call is
the only one there. -/

variable {S : Interface} {M : Model S} {Op ε α : Type}

/-- What is left of a program that has ended. -/
def Prog.ended : Except ε α → Prog S ε α
  | .ok a => .ret a
  | .error e => .fail e

/-! ## A run that is chosen -/

namespace Prog

variable {ε' β : Type}

/-- Some run of the program by itself ends as `P` says. -/
def CanEnd (p : Prog S ε α) (saved : Option M.State) (s : M.State) (P : Except ε α → M.State → Prop) :
    Prop :=
  ∃ cs r s', p.alone (M := M) saved s cs = some (r, s') ∧ P r s'

variable {saved : Option M.State} {s : M.State} {P : Except ε β → M.State → Prop}

theorem CanEnd.ret {a : β} (h : P (.ok a) s) : (ret a : Prog S ε β).CanEnd (M := M) saved s P :=
  ⟨[], _, _, rfl, h⟩

theorem CanEnd.call {q : S.Stmt} {k : Except S.Failure (S.Ans q) → Prog S ε β} (c : M.Choice)
    {a : S.Ans q} (ha : M.exec q c s = some a)
    (h : (k (.ok a)).CanEnd (M := M) saved (M.applyAll (M.writes q a) s) P) :
    (call q k).CanEnd (M := M) saved s P := by
  obtain ⟨cs, r, s', hrun, hP⟩ := h
  refine ⟨.ok c :: cs, r, s', ?_, hP⟩
  simp only [alone, ha]
  exact hrun

theorem CanEnd.begun {iso : Isolation} {k : Prog S ε β}
    (h : k.CanEnd (M := M) (some (saved.getD s)) (saved.getD s) P) :
    (beginTx iso k).CanEnd (M := M) saved s P :=
  h

theorem CanEnd.committed (c : M.Choice) {k : Except S.Failure Unit → Prog S ε β}
    (h : (k (.ok ())).CanEnd (M := M) none s P) : (commitTx k).CanEnd (M := M) saved s P := by
  obtain ⟨cs, r, s', hrun, hP⟩ := h
  exact ⟨.ok c :: cs, r, s', hrun, hP⟩

/-- The statement that comes first may be answered as the choice has it. -/
theorem CanEnd.answered {φ : S.Failure → ε'} {q : S.Stmt} {f : S.Ans q → Prog S ε β}
    {g : ε' → Prog S ε β} (c : M.Choice) {a : S.Ans q} (ha : M.exec q c s = some a)
    (h : (f a).CanEnd (M := M) saved (M.applyAll (M.writes q a) s) P) :
    ((query φ q).handle f g).CanEnd (M := M) saved s P :=
  CanEnd.call c ha h

end Prog

/-! ## In a pool -/

namespace Pool

/-- The database and the record of a call, while a program runs by itself in `saved` and `s`. -/
inductive Shows (db : M.State) (l : Trace S Op) : Option M.State → M.State → Prop
  | outside : l.tx = none → Shows db l none db
  | inside {s : M.State} : l.tx.isSome = true → l.view M db = s → Shows db l (some db) s

theorem Shows.getD {db : M.State} {l : Trace S Op} {saved : Option M.State} {s : M.State}
    (h : Shows db l saved s) : saved.getD s = db := by
  cases h <;> rfl

theorem Shows.view {db : M.State} {l : Trace S Op} {saved : Option M.State} {s : M.State}
    (h : Shows db l saved s) : l.view M db = s := by
  cases h with
  | outside htx => exact Trace.view_of_none htx _
  | inside _ hview => exact hview

/-- A statement is answered in a pool as it is without one. -/
theorem Shows.exec {db : M.State} {l : Trace S Op} {saved : Option M.State} {s : M.State}
    (h : Shows db l saved s) {q : S.Stmt} {k : Except S.Failure (S.Ans q) → Prog S ε α} {c : M.Choice}
    {a : S.Ans q} (ha : M.exec q c s = some a) :
    ∃ db', (⟨l, some (.call q k)⟩ : Thread S Op ε α).exec M c db =
        some ⟨db', ⟨l.push ⟨q, a⟩, some (k (.ok a))⟩, M.writes q a⟩ ∧
      Shows db' (l.push ⟨q, a⟩) saved (M.applyAll (M.writes q a) s) := by
  cases h with
  | outside htx =>
      refine ⟨M.applyAll (M.writes q a) db, ?_, .outside ?_⟩
      · simp [Thread.exec, ha, htx]
      · rw [Trace.push_of_none htx]
        exact htx
  | inside hopen hview =>
      obtain ⟨t, ht⟩ := Option.isSome_iff_exists.1 hopen
      refine ⟨db, ?_, .inside ?_ ?_⟩
      · simp [Thread.exec, hview, ha, ht]
      · rw [Trace.push_of_some ht]
        rfl
      · rw [← hview, Trace.view, Trace.view, Trace.push_of_some ht, Trace.pending_of_some ht,
          Trace.pending_of_some rfl, Model.replay_append, Model.replay_singleton]

variable [DecidableEq M.Key] {prog : Op → Prog S ε α}

/-- The only call of a pool waits for nobody. -/
theorem step_exec_of_alone {t : Thread S Op ε α} {db : M.State} {c : M.Choice}
    {out : Outcome M Op ε α} (h : t.exec M c db = some out) :
    (⟨db, [t]⟩ : Pool M Op ε α).step prog (.exec 0 c) = some ⟨out.state, [out.thread]⟩ := by
  have hexcluded : (⟨db, [t]⟩ : Pool M Op ε α).excluded 0 = false := by simp [excluded]
  have hlocked : (⟨db, [t]⟩ : Pool M Op ε α).locked 0 out.issued = false := by
    simp [locked]
  simp [step, h, hexcluded, hlocked]

theorem run_of_alone [Inhabited M.Choice] {p : Prog S ε α} {db : M.State} {l : Trace S Op}
    {saved : Option M.State} {s s' : M.State} {cs : List (Except S.Failure M.Choice)} {r : Except ε α}
    (hshows : Shows db l saved s) (h : p.alone saved s cs = some (r, s')) :
    ∃ (db' : M.State) (l' : Trace S Op), l'.op = l.op ∧
      Run prog anyStep ⟨db, [⟨l, some p⟩]⟩ ⟨db', [⟨l', some (Prog.ended r)⟩]⟩ := by
  induction p generalizing db l saved s cs with
  | ret a =>
      obtain ⟨rfl, rfl⟩ := Prod.mk.inj (Option.some.inj h)
      exact ⟨db, l, rfl, .refl⟩
  | fail e =>
      obtain ⟨rfl, rfl⟩ := Prod.mk.inj (Option.some.inj h)
      exact ⟨db, l, rfl, .refl⟩
  | call q k ih =>
      cases cs with
      | nil => cases h
      | cons c cs =>
          cases c with
          | error f =>
              obtain ⟨db', l', hop, hrun⟩ := ih _ hshows h
              exact ⟨db', l', hop, Run.trans (.step (a := .fault 0 f) .refl trivial rfl) hrun⟩
          | ok c =>
              simp only [Prog.alone] at h
              split at h
              · next a ha =>
                  obtain ⟨db', hexec, hshows'⟩ := hshows.exec (k := k) ha
                  obtain ⟨db'', l', hop, hrun⟩ := ih _ hshows' h
                  refine ⟨db'', l', hop.trans (Trace.push_op l _), Run.trans ?_ hrun⟩
                  exact .step .refl trivial (step_exec_of_alone hexec)
              · cases h
  | beginTx iso k ih =>
      rw [Prog.alone, hshows.getD] at h
      have hopen : Shows db (l.openTx iso) (some db) db := .inside rfl rfl
      obtain ⟨db', l', hop, hrun⟩ := ih hopen h
      exact ⟨db', l', hop, Run.trans (.step (a := .exec 0 default) .refl trivial
        (step_exec_of_alone rfl)) hrun⟩
  | commitTx k ih =>
      cases cs with
      | nil => cases h
      | cons c cs =>
          cases c with
          | error f =>
              rw [Prog.alone, hshows.getD] at h
              obtain ⟨db', l', hop, hrun⟩ := ih _ (.outside (Trace.drop_tx l)) h
              exact ⟨db', l', hop, Run.trans (.step (a := .fault 0 f) .refl trivial rfl) hrun⟩
          | ok c =>
              rw [Prog.alone, ← hshows.view] at h
              obtain ⟨db', l', hop, hrun⟩ := ih _ (.outside (Trace.commit_tx l)) h
              exact ⟨db', l', hop, Run.trans (.step (a := .exec 0 default) .refl trivial
                (step_exec_of_alone rfl)) hrun⟩
  | rollbackTx k ih =>
      rw [Prog.alone, hshows.getD] at h
      obtain ⟨db', l', hop, hrun⟩ := ih (.outside (Trace.drop_tx l)) h
      exact ⟨db', l', hop, Run.trans (.step (a := .exec 0 default) .refl trivial
        (step_exec_of_alone rfl)) hrun⟩

/-- The call arrives, and runs to its end. -/
theorem exists_run_of_alone [Inhabited M.Choice] {o : Op} {s s' : M.State}
    {cs : List (Except S.Failure M.Choice)} {r : Except ε α}
    (h : (prog o).alone none s cs = some (r, s')) :
    ∃ (db : M.State) (l : Trace S Op), l.op = o ∧
      Run prog anyStep (idle s) ⟨db, [⟨l, some (Prog.ended r)⟩]⟩ := by
  obtain ⟨db, l, hop, hrun⟩ := run_of_alone (Shows.outside (Trace.start_tx o)) h
  exact ⟨db, l, hop, Run.trans (.step (a := .spawn o) .refl trivial rfl) hrun⟩

end Pool
