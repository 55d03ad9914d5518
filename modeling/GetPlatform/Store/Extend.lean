import GetPlatform.Store.Journal
import GetPlatform.Store.Reliable

set_option autoImplicit false

/-! # More statements on the same state

A service that shares the database of another one sends statements of its own. `Interface.extend` and
`Model.extend` add them, with their writes, to what is there; a program of the smaller interface is
one of the larger (`Prog.lift`), and runs the same (`wp_lift`). -/

abbrev Interface.extend (S : Interface) (More : Type) (AnsMore : More → Type) : Interface :=
  ⟨S.Stmt ⊕ More, Sum.elim S.Ans AnsMore, S.Failure⟩

/-- The meaning of further statements over the state of `M`. -/
structure Extension {S : Interface} (M : Model S) (More : Type) (AnsMore : More → Type) where
  Write : Type
  exec : (q : More) → M.Choice → M.State → Option (AnsMore q)
  writes : (q : More) → AnsMore q → List Write
  apply : Write → M.State → M.State
  key : Write → Option M.Key

variable {S : Interface} {More : Type} {AnsMore : More → Type} {M : Model S}

abbrev Model.extend (M : Model S) (N : Extension M More AnsMore) :
    Model (S.extend More AnsMore) where
  State := M.State
  Choice := M.Choice
  Write := M.Write ⊕ N.Write
  Key := M.Key
  Env := M.Env
  exec
    | .inl q => M.exec q
    | .inr q => N.exec q
  writes
    | .inl q => fun a => (M.writes q a).map .inl
    | .inr q => fun a => (N.writes q a).map .inr
  apply
    | .inl w => M.apply w
    | .inr w => N.apply w
  key
    | .inl w => M.key w
    | .inr w => N.key w
  env := M.env

namespace Model

variable {N : Extension M More AnsMore}

@[simp] theorem applyAll_inl (ws : List M.Write) (s : M.State) :
    (M.extend N).applyAll (ws.map .inl) s = M.applyAll ws s := by
  induction ws generalizing s with
  | nil => rfl
  | cons w ws ih => exact ih (M.apply w s)

end Model

namespace Prog

variable {N : Extension M More AnsMore} {ε α β ε' : Type}

/-- A program that sends none of the further statements. -/
def lift (More : Type) (AnsMore : More → Type) : Prog S ε α → Prog (S.extend More AnsMore) ε α
  | .ret a => .ret a
  | .fail e => .fail e
  | .call q k => .call (.inl q) fun r => (k r).lift More AnsMore
  | .beginTx iso k => .beginTx iso (k.lift More AnsMore)
  | .commitTx k => .commitTx fun r => (k r).lift More AnsMore
  | .rollbackTx k => .rollbackTx (k.lift More AnsMore)

/-- It runs as it does without them. -/
@[simp] theorem wp_lift {Q : α → Option M.State → M.State → Prop}
    {E : ε → Option M.State → M.State → Prop} (p : Prog S ε α) (saved : Option M.State)
    (s : M.State) : (p.lift More AnsMore).wp (M.extend N) Q E saved s ↔ p.wp M Q E saved s := by
  induction p generalizing saved s with
  | ret a => rfl
  | fail e => rfl
  | call q k ih =>
      refine and_congr (forall_congr' fun f => ih _ saved s) (forall_congr' fun c =>
        forall_congr' fun a => imp_congr_right fun _ => ?_)
      exact (iff_of_eq (congrArg _ (Model.applyAll_inl _ _))).trans (ih (.ok a) saved _)
  | beginTx iso k ih => exact ih _ _
  | commitTx k ih => simp only [lift, wp, ih]
  | rollbackTx k ih => exact ih _ _

@[simp] theorem reliably_lift {Q : α → Option M.State → M.State → Prop}
    {E : ε → Option M.State → M.State → Prop} (p : Prog S ε α) (saved : Option M.State)
    (s : M.State) :
    (p.lift More AnsMore).reliably (M.extend N) Q E saved s ↔ p.reliably M Q E saved s := by
  induction p generalizing saved s with
  | ret a => rfl
  | fail e => rfl
  | call q k ih =>
      refine and_congr (imp_congr_right fun _ => forall_congr' fun f => ih _ saved s)
        (forall_congr' fun c => forall_congr' fun a => imp_congr_right fun _ => ?_)
      exact (iff_of_eq (congrArg _ (Model.applyAll_inl _ _))).trans (ih (.ok a) saved _)
  | beginTx iso k ih => exact ih _ _
  | commitTx k ih => simp only [lift, reliably, ih]
  | rollbackTx k ih => exact ih _ _

theorem alone_lift (p : Prog S ε α) (saved : Option M.State) (s : M.State)
    (cs : List (Except S.Failure M.Choice)) :
    (p.lift More AnsMore).alone (M := M.extend N) saved s cs = p.alone (M := M) saved s cs := by
  induction p generalizing saved s cs with
  | ret a => rfl
  | fail e => rfl
  | call q k ih =>
      match cs with
      | [] => rfl
      | .error φ :: cs => exact ih _ saved s cs
      | .ok c :: cs =>
          simp only [lift, alone]
          cases M.exec q c s with
          | none => rfl
          | some a =>
              exact (congrArg (alone _ _ · _) (Model.applyAll_inl _ _)).trans (ih _ _ _ cs)
  | beginTx iso k ih => exact ih _ _ cs
  | commitTx k ih =>
      match cs with
      | [] => rfl
      | .error φ :: cs => exact ih _ _ _ cs
      | .ok c :: cs => exact ih _ _ _ cs
  | rollbackTx k ih => exact ih _ _ cs

end Prog
