import GetPlatform.Store.Semantics

set_option autoImplicit false

/-! # What a call has done, and what its program may do next

A running call is a program together with the record of the statements it has already been answered:
a `Trace`. Statements of a transaction that is still open stand apart, since a rollback undoes them.

`Conforms` is a Hoare logic for programs over traces. Every statement a program can reach satisfies
a *guard* that speaks of the trace at that moment ("the row written here was read before, and the
check on it passed"), and every commit satisfies a guard of its own. A statement may be answered as
in any state whatever, so a proof of `Conforms` is a fact about the program text alone; `Store.Pool`
carries it to every interleaving. -/

/-- An open transaction: its isolation level and the statements it has been answered. -/
structure Tx (S : Interface) where
  iso : Isolation
  events : List (Event S)

/-- The record of a call of operation `op`. -/
structure Trace (S : Interface) (Op : Type) where
  op : Op
  /-- Statements whose effect stands. -/
  done : List (Event S)
  tx : Option (Tx S)

namespace Trace

variable {S : Interface} {Op : Type}

/-- The record of a call that has not started. -/
def start (o : Op) : Trace S Op := ⟨o, [], none⟩

/-- Record one more answered statement. -/
def push (l : Trace S Op) (e : Event S) : Trace S Op :=
  match l.tx with
  | none => { l with done := l.done ++ [e] }
  | some t => { l with tx := some { t with events := t.events ++ [e] } }

/-- Open a transaction. -/
def openTx (l : Trace S Op) (iso : Isolation) : Trace S Op := { l with tx := some ⟨iso, []⟩ }

/-- Forget the open transaction. -/
def drop (l : Trace S Op) : Trace S Op := { l with tx := none }

/-- The statements of the open transaction, if there is one. -/
def pending (l : Trace S Op) : List (Event S) := (l.tx.map (·.events)).getD []

/-- Make the statements of the open transaction stand. -/
def commit (l : Trace S Op) : Trace S Op := { l with done := l.done ++ l.pending, tx := none }

/-- Everything the call has been answered, the open transaction included. -/
def events (l : Trace S Op) : List (Event S) := l.done ++ l.pending

/-- Is a serializable transaction open? -/
def Exclusive (l : Trace S Op) : Prop := ∃ t, l.tx = some t ∧ t.iso = .serializable

@[simp] theorem start_op (o : Op) : (start o : Trace S Op).op = o := rfl
@[simp] theorem start_done (o : Op) : (start o : Trace S Op).done = [] := rfl
@[simp] theorem start_tx (o : Op) : (start o : Trace S Op).tx = none := rfl
@[simp] theorem start_pending (o : Op) : (start o : Trace S Op).pending = [] := rfl
@[simp] theorem openTx_op (l : Trace S Op) (iso : Isolation) : (l.openTx iso).op = l.op := rfl
@[simp] theorem openTx_done (l : Trace S Op) (iso : Isolation) : (l.openTx iso).done = l.done := rfl
@[simp] theorem openTx_tx (l : Trace S Op) (iso : Isolation) :
    (l.openTx iso).tx = some ⟨iso, []⟩ := rfl
@[simp] theorem openTx_pending (l : Trace S Op) (iso : Isolation) : (l.openTx iso).pending = [] := rfl
@[simp] theorem drop_op (l : Trace S Op) : l.drop.op = l.op := rfl
@[simp] theorem drop_done (l : Trace S Op) : l.drop.done = l.done := rfl
@[simp] theorem drop_tx (l : Trace S Op) : l.drop.tx = none := rfl
@[simp] theorem drop_pending (l : Trace S Op) : l.drop.pending = [] := rfl
@[simp] theorem commit_op (l : Trace S Op) : l.commit.op = l.op := rfl
@[simp] theorem commit_done (l : Trace S Op) : l.commit.done = l.done ++ l.pending := rfl
@[simp] theorem commit_tx (l : Trace S Op) : l.commit.tx = none := rfl
@[simp] theorem commit_pending (l : Trace S Op) : l.commit.pending = [] := rfl

theorem pending_of_none {l : Trace S Op} (h : l.tx = none) : l.pending = [] := by
  simp [pending, h]

theorem pending_of_some {l : Trace S Op} {t : Tx S} (h : l.tx = some t) : l.pending = t.events := by
  simp [pending, h]

@[simp] theorem push_op (l : Trace S Op) (e : Event S) : (l.push e).op = l.op := by
  unfold push
  split <;> rfl

theorem push_of_none {l : Trace S Op} (h : l.tx = none) (e : Event S) :
    l.push e = { l with done := l.done ++ [e] } := by
  simp [push, h]

theorem push_of_some {l : Trace S Op} {t : Tx S} (h : l.tx = some t) (e : Event S) :
    l.push e = { l with tx := some { t with events := t.events ++ [e] } } := by
  simp [push, h]

theorem mem_events {l : Trace S Op} {e : Event S} :
    e ∈ l.events ↔ e ∈ l.done ∨ e ∈ l.pending := List.mem_append

/-- Recording a statement adds it to what the call has been answered, and nothing else. -/
theorem events_push (l : Trace S Op) (e : Event S) : (l.push e).events = l.events ++ [e] := by
  cases h : l.tx with
  | none => simp [push_of_none h, events, pending, h]
  | some t => simp [push_of_some h, events, pending, h]

@[simp] theorem events_openTx {l : Trace S Op} (h : l.tx = none) (iso : Isolation) :
    (l.openTx iso).events = l.events := by
  simp [events, pending_of_none h]

@[simp] theorem events_commit (l : Trace S Op) : l.commit.events = l.events := by
  simp [events]

theorem mem_events_of_drop {l : Trace S Op} {e : Event S} (h : e ∈ l.drop.events) :
    e ∈ l.events := by
  simp only [events, drop_done, drop_pending, List.append_nil] at h
  exact mem_events.2 (Or.inl h)

/-! ## Traces by their parts -/

theorem start_eq (o : Op) : (start o : Trace S Op) = ⟨o, [], none⟩ := rfl

@[simp] theorem push_outside (o : Op) (d : List (Event S)) (e : Event S) :
    (⟨o, d, none⟩ : Trace S Op).push e = ⟨o, d ++ [e], none⟩ := rfl

@[simp] theorem push_inside (o : Op) (d es : List (Event S)) (iso : Isolation) (e : Event S) :
    (⟨o, d, some ⟨iso, es⟩⟩ : Trace S Op).push e = ⟨o, d, some ⟨iso, es ++ [e]⟩⟩ := rfl

@[simp] theorem openTx_mk (o : Op) (d : List (Event S)) (iso : Isolation) :
    (⟨o, d, none⟩ : Trace S Op).openTx iso = ⟨o, d, some ⟨iso, []⟩⟩ := rfl

@[simp] theorem commit_mk (o : Op) (d es : List (Event S)) (iso : Isolation) :
    (⟨o, d, some ⟨iso, es⟩⟩ : Trace S Op).commit = ⟨o, d ++ es, none⟩ := rfl

@[simp] theorem drop_mk (o : Op) (d : List (Event S)) (t : Option (Tx S)) :
    (⟨o, d, t⟩ : Trace S Op).drop = ⟨o, d, none⟩ := rfl

@[simp] theorem pending_mk (o : Op) (d es : List (Event S)) (iso : Isolation) :
    (⟨o, d, some ⟨iso, es⟩⟩ : Trace S Op).pending = es := rfl

@[simp] theorem pending_outside (o : Op) (d : List (Event S)) :
    (⟨o, d, none⟩ : Trace S Op).pending = [] := rfl

end Trace

/-! ## Programs that keep to their guards -/

/-- What a program must be able to say about its trace before each statement and each commit. -/
structure Guards (S : Interface) (Op : Type) where
  stmt : Trace S Op → S.Stmt → Prop
  commit : Trace S Op → Prop

namespace Prog

variable {S : Interface} (M : Model S) {ε ε' α β Op : Type}

/-- From trace `l`, every statement and every commit the program reaches satisfies its guard,
    transactions are not nested, and the program ends in a trace that `Q` (a result) or `E` (an
    error) accepts. -/
def Conforms (G : Guards S Op) :
    Prog S ε α → (Trace S Op → α → Prop) → (Trace S Op → ε → Prop) → Trace S Op → Prop
  | .ret a, Q, _, l => Q l a
  | .fail e, _, E, l => E l e
  | .call q k, Q, E, l =>
      G.stmt l q ∧ (∀ f, (k (.error f)).Conforms G Q E l) ∧
      ∀ a, M.Possible q a → (k (.ok a)).Conforms G Q E (l.push ⟨q, a⟩)
  | .beginTx iso k, Q, E, l => l.tx = none ∧ k.Conforms G Q E (l.openTx iso)
  | .commitTx k, Q, E, l =>
      l.tx ≠ none ∧ G.commit l ∧ (∀ f, (k (.error f)).Conforms G Q E l.drop) ∧
      (k (.ok ())).Conforms G Q E l.commit
  | .rollbackTx k, Q, E, l => k.Conforms G Q E l.drop

variable {M} {G : Guards S Op}

@[simp] theorem conforms_ret {Q : Trace S Op → α → Prop} {E : Trace S Op → ε → Prop}
    {l : Trace S Op} (a : α) : (ret a : Prog S ε α).Conforms M G Q E l ↔ Q l a := Iff.rfl

@[simp] theorem conforms_fail {Q : Trace S Op → α → Prop} {E : Trace S Op → ε → Prop}
    {l : Trace S Op} (e : ε) : (fail e : Prog S ε α).Conforms M G Q E l ↔ E l e := Iff.rfl

/-- Sequencing: the first part ends where the continuation can start. -/
@[simp] theorem conforms_handle {Q : Trace S Op → β → Prop} {E : Trace S Op → ε' → Prop}
    (p : Prog S ε α) (f : α → Prog S ε' β) (g : ε → Prog S ε' β) (l : Trace S Op) :
    (p.handle f g).Conforms M G Q E l ↔
      p.Conforms M G (fun l a => (f a).Conforms M G Q E l) (fun l e => (g e).Conforms M G Q E l)
        l := by
  induction p generalizing l with
  | ret a => rfl
  | fail e => rfl
  | call q k ih => simp only [handle, Conforms, ih]
  | beginTx iso k ih => simp only [handle, Conforms, ih]
  | commitTx k ih => simp only [handle, Conforms, ih]
  | rollbackTx k ih => simp only [handle, Conforms, ih]

@[simp] theorem conforms_query {q : S.Stmt} {Q : Trace S Op → S.Ans q → Prop}
    {E : Trace S Op → ε → Prop} (φ : S.Failure → ε) (l : Trace S Op) :
    (query φ q : Prog S ε (S.Ans q)).Conforms M G Q E l ↔
      G.stmt l q ∧ (∀ f, E l (φ f)) ∧ ∀ a, M.Possible q a → Q (l.push ⟨q, a⟩) a := Iff.rfl

@[simp] theorem conforms_ite {Q : Trace S Op → α → Prop} {E : Trace S Op → ε → Prop} (c : Prop)
    [Decidable c] (p p' : Prog S ε α) (l : Trace S Op) :
    (if c then p else p').Conforms M G Q E l ↔
      (c → p.Conforms M G Q E l) ∧ (¬ c → p'.Conforms M G Q E l) := by
  by_cases h : c <;> simp [h]

theorem conforms_mono {Q Q' : Trace S Op → α → Prop} {E E' : Trace S Op → ε → Prop}
    (hQ : ∀ l a, Q l a → Q' l a) (hE : ∀ l e, E l e → E' l e) {p : Prog S ε α} {l : Trace S Op}
    (h : p.Conforms M G Q E l) : p.Conforms M G Q' E' l := by
  induction p generalizing l with
  | ret a => exact hQ _ _ h
  | fail e => exact hE _ _ h
  | call q k ih => exact ⟨h.1, fun f => ih _ (h.2.1 f), fun a ha => ih _ (h.2.2 a ha)⟩
  | beginTx iso k ih => exact ⟨h.1, ih h.2⟩
  | commitTx k ih => exact ⟨h.1, h.2.1, fun f => ih _ (h.2.2.1 f), ih _ h.2.2.2⟩
  | rollbackTx k ih => exact ih h

/-- A program that keeps to two sets of guards keeps to both at once. -/
theorem Conforms.both {G' : Guards S Op} {Q Q' : Trace S Op → α → Prop} {E E' : Trace S Op → ε → Prop}
    {p : Prog S ε α} {l : Trace S Op} (h : p.Conforms M G Q E l) (h' : p.Conforms M G' Q' E' l) :
    p.Conforms M ⟨fun l q => G.stmt l q ∧ G'.stmt l q, fun l => G.commit l ∧ G'.commit l⟩
      (fun l a => Q l a ∧ Q' l a) (fun l e => E l e ∧ E' l e) l := by
  induction p generalizing l with
  | ret a => exact ⟨h, h'⟩
  | fail e => exact ⟨h, h'⟩
  | call q k ih =>
      exact ⟨⟨h.1, h'.1⟩, fun f => ih _ (h.2.1 f) (h'.2.1 f), fun a ha => ih _ (h.2.2 a ha) (h'.2.2 a ha)⟩
  | beginTx iso k ih => exact ⟨h.1, ih h.2 h'.2⟩
  | commitTx k ih =>
      exact ⟨h.1, ⟨h.2.1, h'.2.1⟩, fun f => ih _ (h.2.2.1 f) (h'.2.2.1 f), ih _ h.2.2.2 h'.2.2.2⟩
  | rollbackTx k ih => exact ih h h'

/-- A transaction: its body starts in an empty transaction and ends where it may commit. -/
@[simp] theorem conforms_transaction {Q : Trace S Op → α → Prop} {E : Trace S Op → ε → Prop}
    (φ : S.Failure → ε) (iso : Isolation) (body : Prog S ε α) (l : Trace S Op) :
    (transaction φ iso body).Conforms M G Q E l ↔
      l.tx = none ∧ body.Conforms M G
        (fun l a => l.tx ≠ none ∧ G.commit l ∧ (∀ f, E l.drop (φ f)) ∧ Q l.commit a)
        (fun l e => E l.drop e) (l.openTx iso) := by
  simp [transaction, Conforms]

/-! ## Parts of a program that send nothing of interest -/

/-- Every statement of the program satisfies `P`, and it leaves transactions alone. -/
def Only (P : S.Stmt → Prop) : Prog S ε α → Prop
  | .ret _ => True
  | .fail _ => True
  | .call q k => P q ∧ ∀ r, (k r).Only P
  | .beginTx .. => False
  | .commitTx _ => False
  | .rollbackTx _ => False

@[simp] theorem only_ret {P : S.Stmt → Prop} (a : α) : (ret a : Prog S ε α).Only P := trivial

@[simp] theorem only_fail {P : S.Stmt → Prop} (e : ε) : (fail e : Prog S ε α).Only P := trivial

@[simp] theorem only_query {P : S.Stmt → Prop} (φ : S.Failure → ε) (q : S.Stmt) :
    (query φ q : Prog S ε (S.Ans q)).Only P ↔ P q := by
  refine ⟨fun h => h.1, fun h => ⟨h, fun r => ?_⟩⟩
  cases r <;> trivial

@[simp] theorem only_query_handle {P : S.Stmt → Prop} (φ : S.Failure → ε) (q : S.Stmt)
    (f : S.Ans q → Prog S ε' β) (g : ε → Prog S ε' β) :
    ((query φ q : Prog S ε (S.Ans q)).handle f g).Only P ↔
      P q ∧ (∀ a, (f a).Only P) ∧ ∀ e, (g (φ e)).Only P := by
  constructor
  · intro h
    exact ⟨h.1, fun a => h.2 (.ok a), fun e => h.2 (.error e)⟩
  · rintro ⟨hq, hf, hg⟩
    refine ⟨hq, fun r => ?_⟩
    cases r with
    | ok a => exact hf a
    | error e => exact hg e

@[simp] theorem only_ite {P : S.Stmt → Prop} (c : Prop) [Decidable c] (p p' : Prog S ε α) :
    (if c then p else p').Only P ↔ (c → p.Only P) ∧ (¬ c → p'.Only P) := by
  by_cases h : c <;> simp [h]

theorem Only.handle {P : S.Stmt → Prop} {p : Prog S ε α} {f : α → Prog S ε' β}
    {g : ε → Prog S ε' β} (hp : p.Only P) (hf : ∀ a, (f a).Only P) (hg : ∀ e, (g e).Only P) :
    (p.handle f g).Only P := by
  induction p with
  | ret a => exact hf a
  | fail e => exact hg e
  | call q k ih => exact ⟨hp.1, fun r => ih r (hp.2 r)⟩
  | beginTx iso k ih => exact hp.elim
  | commitTx k ih => exact hp.elim
  | rollbackTx k ih => exact hp.elim

theorem Only.mono {P P' : S.Stmt → Prop} (h : ∀ q, P q → P' q) {p : Prog S ε α} (hp : p.Only P) :
    p.Only P' := by
  induction p with
  | ret a => trivial
  | fail e => trivial
  | call q k ih => exact ⟨h q hp.1, fun r => ih r (hp.2 r)⟩
  | beginTx iso k ih => exact hp.elim
  | commitTx k ih => exact hp.elim
  | rollbackTx k ih => exact hp.elim

theorem Only.forM {P : S.Stmt → Prop} {f : β → Prog S ε PUnit} (xs : List β)
    (hf : ∀ x, (f x).Only P) : (xs.forM f).Only P := by
  induction xs with
  | nil => trivial
  | cons x xs ih => exact (hf x).handle (fun _ => ih) fun _ => trivial

/-- Inside a transaction, such a part adds statements that satisfy `P` to it. -/
theorem Only.conforms_inside {P : S.Stmt → Prop} {Q : Trace S Op → α → Prop}
    {E : Trace S Op → ε → Prop} {p : Prog S ε α} (hp : p.Only P) {o : Op} {d es : List (Event S)}
    {iso : Isolation}
    (hG : ∀ es', (∀ e ∈ es', P e.stmt) → ∀ q, P q → G.stmt ⟨o, d, some ⟨iso, es ++ es'⟩⟩ q)
    (hQ : ∀ es', (∀ e ∈ es', P e.stmt) → ∀ a, Q ⟨o, d, some ⟨iso, es ++ es'⟩⟩ a)
    (hE : ∀ es', (∀ e ∈ es', P e.stmt) → ∀ a, E ⟨o, d, some ⟨iso, es ++ es'⟩⟩ a) :
    p.Conforms M G Q E ⟨o, d, some ⟨iso, es⟩⟩ := by
  suffices h : ∀ es', (∀ e ∈ es', P e.stmt) →
      p.Conforms M G Q E ⟨o, d, some ⟨iso, es ++ es'⟩⟩ by
    simpa using h [] (by simp)
  induction p with
  | ret a => exact fun es' h => hQ es' h a
  | fail e => exact fun es' h => hE es' h e
  | call q k ih =>
      refine fun es' h => ⟨hG es' h q hp.1, fun f => ih _ (hp.2 _) es' h, fun a _ => ?_⟩
      have := ih (.ok a) (hp.2 _) (es' ++ [⟨q, a⟩]) fun e he => by
        rcases List.mem_append.1 he with he | he
        · exact h e he
        · exact List.mem_singleton.1 he ▸ hp.1
      simpa using this
  | beginTx iso k ih => exact hp.elim
  | commitTx k ih => exact hp.elim
  | rollbackTx k ih => exact hp.elim

/-- Outside a transaction, what such a part sends stands. -/
theorem Only.conforms_outside {P : S.Stmt → Prop} {Q : Trace S Op → α → Prop}
    {E : Trace S Op → ε → Prop} {p : Prog S ε α} (hp : p.Only P) {o : Op} {d : List (Event S)}
    (hG : ∀ d', (∀ e ∈ d', P e.stmt) → ∀ q, P q → G.stmt ⟨o, d ++ d', none⟩ q)
    (hQ : ∀ d', (∀ e ∈ d', P e.stmt) → ∀ a, Q ⟨o, d ++ d', none⟩ a)
    (hE : ∀ d', (∀ e ∈ d', P e.stmt) → ∀ a, E ⟨o, d ++ d', none⟩ a) :
    p.Conforms M G Q E ⟨o, d, none⟩ := by
  suffices h : ∀ d', (∀ e ∈ d', P e.stmt) → p.Conforms M G Q E ⟨o, d ++ d', none⟩ by
    simpa using h [] (by simp)
  induction p with
  | ret a => exact fun d' h => hQ d' h a
  | fail e => exact fun d' h => hE d' h e
  | call q k ih =>
      refine fun d' h => ⟨hG d' h q hp.1, fun f => ih _ (hp.2 _) d' h, fun a _ => ?_⟩
      have := ih (.ok a) (hp.2 _) (d' ++ [⟨q, a⟩]) fun e he => by
        rcases List.mem_append.1 he with he | he
        · exact h e he
        · exact List.mem_singleton.1 he ▸ hp.1
      simpa using this
  | beginTx iso k ih => exact hp.elim
  | commitTx k ih => exact hp.elim
  | rollbackTx k ih => exact hp.elim

/-! ## What a program may send at all -/

/-- Every statement the program can reach satisfies `P`, inside and outside transactions. -/
def Sends (P : S.Stmt → Prop) : Prog S ε α → Prop
  | .ret _ => True
  | .fail _ => True
  | .call q k => P q ∧ ∀ r, (k r).Sends P
  | .beginTx _ k => k.Sends P
  | .commitTx k => ∀ r, (k r).Sends P
  | .rollbackTx k => k.Sends P

@[simp] theorem sends_ret {P : S.Stmt → Prop} (a : α) : (ret a : Prog S ε α).Sends P := trivial

@[simp] theorem sends_fail {P : S.Stmt → Prop} (e : ε) : (fail e : Prog S ε α).Sends P := trivial

@[simp] theorem sends_query {P : S.Stmt → Prop} (φ : S.Failure → ε) (q : S.Stmt) :
    (query φ q : Prog S ε (S.Ans q)).Sends P ↔ P q := by
  refine ⟨fun h => h.1, fun h => ⟨h, fun r => ?_⟩⟩
  cases r <;> trivial

@[simp] theorem sends_query_handle {P : S.Stmt → Prop} (φ : S.Failure → ε) (q : S.Stmt)
    (f : S.Ans q → Prog S ε' β) (g : ε → Prog S ε' β) :
    ((query φ q : Prog S ε (S.Ans q)).handle f g).Sends P ↔
      P q ∧ (∀ a, (f a).Sends P) ∧ ∀ e, (g (φ e)).Sends P := by
  constructor
  · intro h
    exact ⟨h.1, fun a => h.2 (.ok a), fun e => h.2 (.error e)⟩
  · rintro ⟨hq, hf, hg⟩
    refine ⟨hq, fun r => ?_⟩
    cases r with
    | ok a => exact hf a
    | error e => exact hg e

@[simp] theorem sends_ite {P : S.Stmt → Prop} (c : Prop) [Decidable c] (p p' : Prog S ε α) :
    (if c then p else p').Sends P ↔ (c → p.Sends P) ∧ (¬ c → p'.Sends P) := by
  by_cases h : c <;> simp [h]

theorem Sends.handle {P : S.Stmt → Prop} {p : Prog S ε α} {f : α → Prog S ε' β}
    {g : ε → Prog S ε' β} (hp : p.Sends P) (hf : ∀ a, (f a).Sends P) (hg : ∀ e, (g e).Sends P) :
    (p.handle f g).Sends P := by
  induction p with
  | ret a => exact hf a
  | fail e => exact hg e
  | call q k ih => exact ⟨hp.1, fun r => ih r (hp.2 r)⟩
  | beginTx iso k ih => exact ih hp
  | commitTx k ih => exact fun r => ih r (hp r)
  | rollbackTx k ih => exact ih hp

theorem Sends.mono {P P' : S.Stmt → Prop} {p : Prog S ε α} (hp : p.Sends P)
    (h : ∀ q, P q → P' q) : p.Sends P' := by
  induction p with
  | ret a => trivial
  | fail e => trivial
  | call q k ih => exact ⟨h q hp.1, fun r => ih r (hp.2 r)⟩
  | beginTx iso k ih => exact ih hp
  | commitTx k ih => exact fun r => ih r (hp r)
  | rollbackTx k ih => exact ih hp

theorem Only.sends {P P' : S.Stmt → Prop} {p : Prog S ε α} (hp : p.Only P)
    (h : ∀ q, P q → P' q) : p.Sends P' := by
  induction p with
  | ret a => trivial
  | fail e => trivial
  | call q k ih => exact ⟨h q hp.1, fun r => ih r (hp.2 r)⟩
  | beginTx iso k ih => exact hp.elim
  | commitTx k ih => exact hp.elim
  | rollbackTx k ih => exact hp.elim

theorem Sends.transaction {P : S.Stmt → Prop} {φ : S.Failure → ε} {iso : Isolation}
    {body : Prog S ε α} (h : body.Sends P) : (transaction φ iso body).Sends P :=
  h.handle (fun _ r => by cases r <;> trivial) fun _ => trivial

theorem sends_any (p : Prog S ε α) : p.Sends fun _ => True := by
  induction p with
  | ret a => trivial
  | fail e => trivial
  | call q k ih => exact ⟨trivial, ih⟩
  | beginTx iso k ih => exact ih
  | commitTx k ih => exact ih
  | rollbackTx k ih => exact ih

/-- A program ends on the record of its own operation. -/
theorem Conforms.keeps_op {G : Guards S Op} {Q : Trace S Op → α → Prop} {E : Trace S Op → ε → Prop}
    {p : Prog S ε α} {l : Trace S Op} (h : p.Conforms M G Q E l) :
    p.Conforms M G (fun l' a => Q l' a ∧ l'.op = l.op) (fun l' e => E l' e ∧ l'.op = l.op) l := by
  induction p generalizing l with
  | ret a => exact ⟨h, rfl⟩
  | fail e => exact ⟨h, rfl⟩
  | call q k ih =>
      refine ⟨h.1, fun f => ih _ (h.2.1 f), fun a ha => ?_⟩
      simpa using ih _ (h.2.2 a ha)
  | beginTx iso k ih => exact ⟨h.1, ih h.2⟩
  | commitTx k ih => exact ⟨h.1, h.2.1, fun f => ih _ (h.2.2.1 f), ih _ h.2.2.2⟩
  | rollbackTx k ih => exact ih h

/-- A program that keeps to some guards keeps to any that allow its operation the statements it
    sends. -/
theorem Conforms.retarget {G G' : Guards S Op} {P : S.Stmt → Prop} {Q : Trace S Op → α → Prop}
    {E : Trace S Op → ε → Prop} {p : Prog S ε α} {l : Trace S Op} (h : p.Conforms M G Q E l)
    (hp : p.Sends P) (hstmt : ∀ l' : Trace S Op, l'.op = l.op → ∀ q, P q → G'.stmt l' q)
    (hcommit : ∀ l' : Trace S Op, l'.op = l.op → G'.commit l') :
    p.Conforms M G' (fun _ _ => True) (fun _ _ => True) l := by
  induction p generalizing l with
  | ret a => trivial
  | fail e => trivial
  | call q k ih =>
      refine ⟨hstmt l rfl q hp.1, fun f => ih _ (h.2.1 f) (hp.2 _) hstmt hcommit, fun a ha =>
        ih _ (h.2.2 a ha) (hp.2 _) ?_ ?_⟩ <;> simpa
  | beginTx iso k ih => exact ⟨h.1, ih h.2 hp hstmt hcommit⟩
  | commitTx k ih =>
      exact ⟨h.1, hcommit l rfl, fun f => ih _ (h.2.2.1 f) (hp _) hstmt hcommit,
        ih _ h.2.2.2 (hp _) hstmt hcommit⟩
  | rollbackTx k ih => exact ih h hp hstmt hcommit

/-- What a program ends with may speak of the operation it is run for. -/
theorem Conforms.ends {G : Guards S Op} {Q Q' : Trace S Op → α → Prop} {E E' : Trace S Op → ε → Prop}
    {p : Prog S ε α} {l : Trace S Op} (h : p.Conforms M G Q E l)
    (hQ : ∀ l' : Trace S Op, l'.op = l.op → ∀ a, Q l' a → Q' l' a)
    (hE : ∀ l' : Trace S Op, l'.op = l.op → ∀ e, E l' e → E' l' e) : p.Conforms M G Q' E' l := by
  induction p generalizing l with
  | ret a => exact hQ l rfl a h
  | fail e => exact hE l rfl e h
  | call q k ih =>
      refine ⟨h.1, fun f => ih _ (h.2.1 f) hQ hE, fun a ha => ih _ (h.2.2 a ha) ?_ ?_⟩ <;> simpa
  | beginTx iso k ih => exact ⟨h.1, ih h.2 hQ hE⟩
  | commitTx k ih => exact ⟨h.1, h.2.1, fun f => ih _ (h.2.2.1 f) hQ hE, ih _ h.2.2.2 hQ hE⟩
  | rollbackTx k ih => exact ih h hQ hE

end Prog
