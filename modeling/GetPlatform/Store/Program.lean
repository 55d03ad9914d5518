set_option autoImplicit false

/-! # Programs that talk to a database

A service function is a sequence of statements sent to a database (or to another remote party),
with pure computation in between. `Prog` is that view of it: a tree whose nodes are the statements,
branching on every answer. Statements may fail; a failure is an answer too, so a program handles it
with the ordinary `try`/`catch`. A transaction is a bracket of three commands, `beginTx`, `commitTx`
and `rollbackTx`; `transaction` is the combinator a service writes.

The tree says nothing about when its statements run: `Store.Alone` runs a program by itself, and
`Store.Pool` runs many at once, one command at a time. -/

/-- The statements a program may send, the answer each one gets, and the ways one can fail. -/
structure Interface where
  Stmt : Type
  Ans : Stmt → Type
  Failure : Type

/-- Isolation levels of a transaction. -/
inductive Isolation where
  | readCommitted
  | serializable
  deriving DecidableEq, Repr

/-- A program that returns an `α` or fails with an `ε`. -/
inductive Prog (S : Interface) (ε α : Type) : Type where
  | ret (a : α)
  | fail (e : ε)
  | call (q : S.Stmt) (k : Except S.Failure (S.Ans q) → Prog S ε α)
  | beginTx (iso : Isolation) (k : Prog S ε α)
  | commitTx (k : Except S.Failure Unit → Prog S ε α)
  | rollbackTx (k : Prog S ε α)

namespace Prog

variable {S : Interface} {ε ε' α β γ : Type}

/-! ## Sequencing -/

/-- Continue with `f` where the program returns, with `g` where it fails. -/
def handle : Prog S ε α → (α → Prog S ε' β) → (ε → Prog S ε' β) → Prog S ε' β
  | .ret a, f, _ => f a
  | .fail e, _, g => g e
  | .call q k, f, g => .call q fun r => (k r).handle f g
  | .beginTx iso k, f, g => .beginTx iso (k.handle f g)
  | .commitTx k, f, g => .commitTx fun r => (k r).handle f g
  | .rollbackTx k, f, g => .rollbackTx (k.handle f g)

instance : Monad (Prog S ε) where
  pure := .ret
  bind p f := p.handle f .fail

instance : MonadExceptOf ε (Prog S ε) where
  throw := .fail
  tryCatch p g := p.handle .ret g

/-- Send one statement; its failure is turned into an error of the program. -/
def query (ofFailure : S.Failure → ε) (q : S.Stmt) : Prog S ε (S.Ans q) :=
  .call q fun
    | .ok a => .ret a
    | .error f => .fail (ofFailure f)

/-- Run `body` between a begin and a commit; an error of the body rolls back and is passed on, and
    so is a commit that the database refuses. -/
def transaction (ofFailure : S.Failure → ε) (iso : Isolation) (body : Prog S ε α) : Prog S ε α :=
  .beginTx iso <| body.handle
    (fun a => .commitTx fun
      | .ok _ => .ret a
      | .error f => .fail (ofFailure f))
    (fun e => .rollbackTx (.fail e))

@[simp] theorem bind_eq (p : Prog S ε α) (f : α → Prog S ε β) :
    (p >>= f) = p.handle f .fail := rfl

@[simp] theorem pure_eq (a : α) : (pure a : Prog S ε α) = .ret a := rfl

@[simp] theorem throw_eq (e : ε) : (throw e : Prog S ε α) = .fail e := rfl

@[simp] theorem tryCatch_eq (p : Prog S ε α) (g : ε → Prog S ε α) :
    (tryCatch p g) = p.handle .ret g := rfl

@[simp] theorem map_eq (f : α → β) (p : Prog S ε α) :
    (f <$> p) = p.handle (fun a => .ret (f a)) .fail := rfl

@[simp] theorem handle_ret (a : α) (f : α → Prog S ε' β) (g : ε → Prog S ε' β) :
    (ret a : Prog S ε α).handle f g = f a := rfl

@[simp] theorem handle_fail (e : ε) (f : α → Prog S ε' β) (g : ε → Prog S ε' β) :
    (fail e : Prog S ε α).handle f g = g e := rfl

@[simp] theorem handle_call (q : S.Stmt) (k : Except S.Failure (S.Ans q) → Prog S ε α)
    (f : α → Prog S ε' β) (g : ε → Prog S ε' β) :
    (call q k).handle f g = .call q fun r => (k r).handle f g := rfl

theorem handle_handle {ε'' : Type} (p : Prog S ε α) (f : α → Prog S ε' β) (g : ε → Prog S ε' β)
    (f' : β → Prog S ε'' γ) (g' : ε' → Prog S ε'' γ) :
    (p.handle f g).handle f' g' = p.handle (fun a => (f a).handle f' g') (fun e => (g e).handle f' g') := by
  induction p with
  | ret a => rfl
  | fail e => rfl
  | call q k ih => simp only [handle, ih]
  | beginTx iso k ih => simp only [handle, ih]
  | commitTx k ih => simp only [handle, ih]
  | rollbackTx k ih => simp only [handle, ih]

end Prog
