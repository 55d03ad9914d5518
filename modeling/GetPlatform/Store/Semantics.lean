import GetPlatform.Store.Program

set_option autoImplicit false

/-! # What a statement does

A `Model` gives the statements of an `Interface` a meaning over a type of states. A statement is
answered from the state it sees (`exec`), with the help of a `Choice` for whatever the state does
not determine: the reply of a remote party, a random value. What it changes is a list of `Write`s
computed from its answer. Keeping the writes apart from the state lets a transaction hold them back:
it sees the committed state with its own writes applied on top, and nobody else does.

`exec` returns `none` when the statement cannot succeed in that state (a violated constraint). It
may fail in any state as well, without effect. Whatever changes the state without a statement (time
that passes) is an `Env` step. -/

structure Model (S : Interface) where
  State : Type
  Choice : Type
  Write : Type
  /-- What a write locks, if anything: two writes conflict when they share a key. -/
  Key : Type
  Env : Type
  exec : (q : S.Stmt) → Choice → State → Option (S.Ans q)
  writes : (q : S.Stmt) → S.Ans q → List Write
  apply : Write → State → State
  key : Write → Option Key
  env : Env → State → State

/-- A statement that was answered. -/
structure Event (S : Interface) where
  stmt : S.Stmt
  ans : S.Ans stmt

namespace Model

variable {S : Interface} (M : Model S)

/-- The writes of a list of events, in order. -/
def writesOf (es : List (Event S)) : List M.Write := es.flatMap fun e => M.writes e.stmt e.ans

/-- Can `q` be answered by `a` in some state? -/
def Possible (q : S.Stmt) (a : S.Ans q) : Prop := ∃ c s, M.exec q c s = some a

/-- Apply a list of writes in order. -/
def applyAll (ws : List M.Write) (s : M.State) : M.State := ws.foldl (fun s w => M.apply w s) s

/-- The state with the writes of `es` applied. -/
def replay (es : List (Event S)) (s : M.State) : M.State := M.applyAll (M.writesOf es) s

@[simp] theorem applyAll_nil (s : M.State) : M.applyAll [] s = s := rfl

@[simp] theorem applyAll_cons (w : M.Write) (ws : List M.Write) (s : M.State) :
    M.applyAll (w :: ws) s = M.applyAll ws (M.apply w s) := rfl

@[simp] theorem applyAll_append (ws ws' : List M.Write) (s : M.State) :
    M.applyAll (ws ++ ws') s = M.applyAll ws' (M.applyAll ws s) := by
  simp [applyAll, List.foldl_append]

@[simp] theorem replay_nil (s : M.State) : M.replay [] s = s := rfl

@[simp] theorem replay_append (es es' : List (Event S)) (s : M.State) :
    M.replay (es ++ es') s = M.replay es' (M.replay es s) := by
  simp [replay, writesOf]

theorem replay_cons (e : Event S) (es : List (Event S)) (s : M.State) :
    M.replay (e :: es) s = M.replay es (M.applyAll (M.writes e.stmt e.ans) s) := by
  simp [replay, writesOf]

theorem replay_singleton (e : Event S) (s : M.State) :
    M.replay [e] s = M.applyAll (M.writes e.stmt e.ans) s := by
  simp [replay, writesOf]

theorem mem_writesOf {es : List (Event S)} {w : M.Write} :
    w ∈ M.writesOf es ↔ ∃ e ∈ es, w ∈ M.writes e.stmt e.ans := by
  simp [writesOf, List.mem_flatMap]

/-- What writes do to a part of the state that each of them changes by itself. -/
theorem applyAll_project {β : Type} (f : M.State → β) (g : M.Write → β → β)
    (h : ∀ w s, f (M.apply w s) = g w (f s)) (ws : List M.Write) (s : M.State) :
    f (M.applyAll ws s) = ws.foldl (fun b w => g w b) (f s) := by
  induction ws generalizing s with
  | nil => rfl
  | cons w ws ih => rw [applyAll_cons, ih, List.foldl_cons, h]

/-- A property that every write keeps is kept by all of them. -/
theorem applyAll_keeps {P : M.State → Prop} {ws : List M.Write}
    (h : ∀ w ∈ ws, ∀ s, P s → P (M.apply w s)) {s : M.State} (hs : P s) : P (M.applyAll ws s) := by
  induction ws generalizing s with
  | nil => exact hs
  | cons w ws ih =>
      exact ih (fun v hv => h v (.tail _ hv)) (h w (.head _) s hs)

/-- Writes that `G` allows, each in the state that those before it leave. -/
def Guarded (G : M.Write → M.State → Prop) : List M.Write → M.State → Prop
  | [], _ => True
  | w :: ws, s => G w s ∧ Guarded G ws (M.apply w s)

theorem guarded_append {M : Model S} {G : M.Write → M.State → Prop} {ws ws' : List M.Write}
    {s : M.State} :
    M.Guarded G (ws ++ ws') s ↔ M.Guarded G ws s ∧ M.Guarded G ws' (M.applyAll ws s) := by
  induction ws generalizing s with
  | nil => exact (iff_of_eq (true_and _)).symm
  | cons w ws ih => exact (and_congr_right fun _ => ih).trans and_assoc.symm

end Model
