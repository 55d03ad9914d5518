import GetPlatform.Store.Semantics

set_option autoImplicit false

/-! # Programs that are awaited together

`Promise.all`: some programs are started together and run on one database, their statements in any
order, until all of them have returned. No statement fails, and none of them opens a transaction. -/

namespace Prog

variable {S : Interface} {M : Model S} {ε α : Type}

variable (M) in
/-- The programs may end with these results, in the order of the programs, and leave this state. -/
inductive Gathers : List (Prog S ε α) → M.State → List α → M.State → Prop
  | done (results : List α) (s : M.State) : Gathers (results.map .ret) s results s
  | step {progs : List (Prog S ε α)} {s s' : M.State} {results : List α} {i : Nat} {q : S.Stmt}
      {k : Except S.Failure (S.Ans q) → Prog S ε α} (c : M.Choice) (a : S.Ans q) :
      progs[i]? = some (.call q k) → M.exec q c s = some a →
      Gathers (progs.set i (k (.ok a))) (M.applyAll (M.writes q a) s) results s' →
      Gathers progs s results s'

/-- What every statement keeps holds in the end. -/
theorem Gathers.holds {I : List (Prog S ε α) → M.State → Prop}
    (hstep : ∀ progs s i q k c a, I progs s → progs[i]? = some (.call q k) → M.exec q c s = some a →
      I (progs.set i (k (.ok a))) (M.applyAll (M.writes q a) s))
    {progs : List (Prog S ε α)} {s s' : M.State} {results : List α}
    (hrun : Gathers M progs s results s') (h : I progs s) : I (results.map .ret) s' := by
  induction hrun with
  | done results s => exact h
  | step c a hprog ha _ ih => exact ih (hstep _ _ _ _ _ c a h hprog ha)

/-! ## A program amid others

What the others do between two statements of a program is not known, except that it keeps `I`. So the
program must do with any state that `I` holds of, and keep `I` itself. -/

variable (M) in
/-- Whenever the program sends a statement, it is answered, and `G` allows every write of it; and the
    program returns what `Q` accepts along with the writes it has made. -/
def wpAmid (I : M.State → Prop) (G : M.Write → M.State → Prop) :
    Prog S ε α → (Q : α → List M.Write → Prop) → (made : List M.Write) → Prop
  | .ret a, Q, made => Q a made
  | .call q k, Q, made => ∀ s, I s → (∃ c a, M.exec q c s = some a) ∧
      ∀ c a, M.exec q c s = some a →
        I (M.applyAll (M.writes q a) s) ∧ M.Guarded G (M.writes q a) s ∧
          (k (.ok a)).wpAmid I G Q (made ++ M.writes q a)
  | _, _, _ => False

variable {I : M.State → Prop} {G : M.Write → M.State → Prop}

theorem wpAmid_handle {ε' β : Type} {Q : β → List M.Write → Prop} {p : Prog S ε α}
    {f : α → Prog S ε' β} {g : ε → Prog S ε' β} {made : List M.Write}
    (h : p.wpAmid M I G (fun a => (f a).wpAmid M I G Q) made) :
    (p.handle f g).wpAmid M I G Q made := by
  induction p generalizing made with
  | ret a => exact h
  | call q k ih =>
    intro s hs
    refine ⟨(h s hs).1, fun c a ha => ?_⟩
    obtain ⟨hI, hG, hrest⟩ := (h s hs).2 c a ha
    exact ⟨hI, hG, ih _ hrest⟩
  | fail e => exact h.elim
  | beginTx iso k => exact h.elim
  | commitTx k => exact h.elim
  | rollbackTx k => exact h.elim

/-- A program on its way: what it was started for, what is left of it, the writes it has made. -/
structure Task (M : Model S) (ε ι α : Type) where
  item : ι
  prog : Prog S ε α
  made : List M.Write

/-- A program that has returned. -/
structure Result (M : Model S) (ι α : Type) where
  item : ι
  result : α
  made : List M.Write

variable {ι : Type} {Q : ι → α → List M.Write → Prop}

theorem perm_flatMap_set {β γ : Type} {f : β → List γ} {xs : List β} {i : Nat} {x y : β} {ws : List γ}
    (hx : xs[i]? = some x) (hy : f y = f x ++ ws) :
    ((xs.set i y).flatMap f).Perm (xs.flatMap f ++ ws) := by
  induction xs generalizing i with
  | nil => simp at hx
  | cons z xs ih =>
    cases i with
    | zero =>
      obtain rfl : z = x := by simpa using hx
      rw [List.set_cons_zero, List.flatMap_cons, List.flatMap_cons, hy, List.append_assoc,
        List.append_assoc]
      exact List.perm_append_comm.append_left _
    | succ i =>
      rw [List.set_cons_succ, List.flatMap_cons, List.flatMap_cons, List.append_assoc]
      exact (ih (by simpa using hx)).append_left _

theorem results_of_tasks {tasks : List (Task M ε ι α)} {results : List α}
    (hprogs : tasks.map (·.prog) = results.map .ret)
    (hQ : ∀ t ∈ tasks, t.prog.wpAmid M I G (Q t.item) t.made) :
    ∃ ended : List (Result M ι α), ended.map (·.item) = tasks.map (·.item) ∧
      ended.map (·.result) = results ∧ (∀ e ∈ ended, Q e.item e.result e.made) ∧
        ended.flatMap (·.made) = tasks.flatMap (·.made) := by
  induction tasks generalizing results with
  | nil =>
    obtain rfl : results = [] := by simpa using hprogs.symm
    exact ⟨[], rfl, rfl, by simp, rfl⟩
  | cons t tasks ih =>
    cases results with
    | nil => simp at hprogs
    | cons a results =>
      rw [List.map_cons, List.map_cons, List.cons.injEq] at hprogs
      obtain ⟨hprog, hprogs⟩ := hprogs
      obtain ⟨ended, hitems, hresults, hended, hmade⟩ :=
        ih hprogs fun t ht => hQ t (List.mem_cons_of_mem _ ht)
      have hQt := hQ t (by simp)
      rw [hprog] at hQt
      refine ⟨⟨t.item, a, t.made⟩ :: ended, by simp [hitems], by simp [hresults], ?_, by simp [hmade]⟩
      intro e he
      rcases List.mem_cons.1 he with rfl | he
      · exact hQt
      · exact hended e he

variable (I G Q) in
/-- Where the programs are: each has made some writes, and the writes of all have led from `s` to
    `now`. -/
structure Underway (items : List ι) (s : M.State) (tasks : List (Task M ε ι α)) (made : List M.Write)
    (now : M.State) : Prop where
  kept : I now
  started : tasks.map (·.item) = items
  ready : ∀ t ∈ tasks, t.prog.wpAmid M I G (Q t.item) t.made
  perm : made.Perm (tasks.flatMap (·.made))
  guarded : M.Guarded G made s
  reached : now = M.applyAll made s

theorem underway_start {items : List ι} {f : ι → Prog S ε α} {s : M.State} (hs : I s)
    (hf : ∀ i ∈ items, (f i).wpAmid M I G (Q i) []) :
    Underway I G Q items s (items.map fun i => ⟨i, f i, []⟩) [] s where
  kept := hs
  started := by simp [Function.comp_def]
  ready := by
    intro t ht
    obtain ⟨i, hi, rfl⟩ := List.mem_map.1 ht
    exact hf i hi
  perm := by simp
  guarded := trivial
  reached := rfl

/-- One of them sends a statement. -/
theorem Underway.step {items : List ι} {s now : M.State} {tasks : List (Task M ε ι α)}
    {made : List M.Write} (h : Underway I G Q items s tasks made now) {i : Nat} {t : Task M ε ι α}
    (hi : tasks[i]? = some t) {q : S.Stmt} {k : Except S.Failure (S.Ans q) → Prog S ε α}
    (hprog : t.prog = .call q k) {c : M.Choice} {a : S.Ans q} (ha : M.exec q c now = some a) :
    Underway I G Q items s (tasks.set i ⟨t.item, k (.ok a), t.made ++ M.writes q a⟩)
      (made ++ M.writes q a) (M.applyAll (M.writes q a) now) := by
  have hwp := h.ready t (List.mem_of_getElem? hi)
  rw [hprog] at hwp
  obtain ⟨hI, hG, hrest⟩ := (hwp now h.kept).2 c a ha
  refine ⟨hI, ?_, ?_, ?_, ?_, ?_⟩
  · obtain ⟨hlt, hitem⟩ : ∃ h : i < (tasks.map (·.item)).length,
        (tasks.map (·.item))[i] = t.item := by
      rw [← List.getElem?_eq_some_iff, List.getElem?_map, hi]
      rfl
    rw [List.map_set, ← h.started]
    show (tasks.map (·.item)).set i t.item = tasks.map (·.item)
    rw [← hitem, List.set_getElem_self]
  · intro u hu
    rcases List.mem_or_eq_of_mem_set hu with hu | rfl
    · exact h.ready u hu
    · exact hrest
  · exact (h.perm.append_right _).trans (perm_flatMap_set hi rfl).symm
  · exact Model.guarded_append.2 ⟨h.guarded, h.reached ▸ hG⟩
  · rw [Model.applyAll_append, ← h.reached]

/-- Each of the programs ends as it would amid any others, and the writes of all of them are made, in
    some order. -/
theorem Gathers.amid {items : List ι} {f : ι → Prog S ε α} {s s' : M.State} {results : List α}
    (hrun : Gathers M (items.map f) s results s') (hs : I s)
    (hf : ∀ i ∈ items, (f i).wpAmid M I G (Q i) []) :
    I s' ∧ ∃ (ended : List (Result M ι α)) (made : List M.Write), ended.map (·.item) = items ∧
      ended.map (·.result) = results ∧ (∀ e ∈ ended, Q e.item e.result e.made) ∧
        made.Perm (ended.flatMap (·.made)) ∧ M.Guarded G made s ∧ s' = M.applyAll made s := by
  obtain ⟨tasks, made, hprogs, h⟩ := hrun.holds
    (I := fun progs now => ∃ tasks made, tasks.map (·.prog) = progs ∧
      Underway I G Q items s tasks made now)
    (by
      rintro progs now i q k c a ⟨tasks, made, rfl, h⟩ hi ha
      rw [List.getElem?_map, Option.map_eq_some_iff] at hi
      obtain ⟨t, ht, hprog⟩ := hi
      exact ⟨_, _, List.map_set, h.step ht hprog ha⟩)
    ⟨_, [], by simp [Function.comp_def], underway_start hs hf⟩
  obtain ⟨ended, hitems, hresults, hended, hmade⟩ := results_of_tasks hprogs h.ready
  exact ⟨h.kept, ended, made, hitems.trans h.started, hresults, hended, hmade ▸ h.perm, h.guarded, h.reached⟩

/-! ## There is such a run -/

variable (M) in
/-- Batches of programs, each awaited before the next is started. -/
inductive GathersAll : List (List (Prog S ε α)) → M.State → List (List α) → M.State → Prop
  | nil (s : M.State) : GathersAll [] s [] s
  | cons {batch : List (Prog S ε α)} {batches : List (List (Prog S ε α))} {s s' s'' : M.State}
      {results : List α} {rest : List (List α)} :
      Gathers M batch s results s' → GathersAll batches s' rest s'' →
      GathersAll (batch :: batches) s (results :: rest) s''

theorem gathersAll_nil {s s' : M.State} {results : List (List α)} :
    GathersAll M ([] : List (List (Prog S ε α))) s results s' ↔ results = [] ∧ s' = s := by
  constructor
  · intro h
    cases h
    exact ⟨rfl, rfl⟩
  · rintro ⟨rfl, rfl⟩
    exact .nil _

theorem gathersAll_cons {batch : List (Prog S ε α)} {batches : List (List (Prog S ε α))}
    {s s' : M.State} {results : List (List α)} :
    GathersAll M (batch :: batches) s results s' ↔ ∃ first s₁ rest, results = first :: rest ∧
      Gathers M batch s first s₁ ∧ GathersAll M batches s₁ rest s' := by
  constructor
  · intro h
    cases h with
    | cons hbatch hrest => exact ⟨_, _, _, rfl, hbatch, hrest⟩
  · rintro ⟨first, s₁, rest, rfl, hbatch, hrest⟩
    exact .cons hbatch hrest

end Prog
