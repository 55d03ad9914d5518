import GetPlatform.Store.Table

set_option autoImplicit false

/-! # Tables whose rows come and go

A `Perishable` remembers the keys of the rows that it has lost: a key that was in use once is not given
to another row. So what a column said of a key stays true of whatever row the key still stands for
(`Settled`). -/

namespace Table

/-! ## Rows of interest

What is found under a key, if it is a row of interest, is the same after a change to other rows. -/

variable {ρ κ : Type} [Keyed ρ κ] [DecidableEq κ] {t : Table ρ} {l : κ} {r : ρ} {p : ρ → Bool}

theorem filter_find?_modify {f : ρ → ρ} {hf : ∀ r, Keyed.key (f r) = Keyed.key r}
    (h : ∀ r, t.find? l = some r → p r = false ∧ p (f r) = false) (k : κ) :
    ((t.modify l f hf).find? k).filter p = (t.find? k).filter p := by
  rw [find?_modify]
  split
  · next hk =>
      subst hk
      cases hr : t.find? k with
      | none => rfl
      | some r =>
          obtain ⟨hold, hnew⟩ := h r hr
          rw [Option.map_some, Option.filter_some_neg (by simp [hnew]), Option.filter_some_neg (by simp [hold])]
  · rfl

theorem filter_find?_insert (h : p r = false) (k : κ) :
    ((t.insert r).find? k).filter p = (t.find? k).filter p := by
  cases hr : t.contains (Keyed.key r) with
  | true => rw [insert_of_contains hr]
  | false =>
      rw [find?_insert hr]
      split
      · next hk =>
          have hnone : t.find? k = none := by
            rw [hk, ← Option.not_isSome_iff_eq_none]
            simpa [contains] using hr
          rw [hnone, Option.filter_some_neg (by simp [h])]
          rfl
      · rfl

theorem filter_find?_put (hnew : p r = false) (hold : ∀ s, t.find? (Keyed.key r) = some s → p s = false)
    (k : κ) : ((t.put r).find? k).filter p = (t.find? k).filter p := by
  rw [find?_put]
  split
  · next hk =>
      subst hk
      rw [Option.filter_some_neg (by simp [hnew])]
      exact (Option.filter_eq_none_iff.2 fun s hs => by simp [hold s hs]).symm
  · rfl

end Table

structure Perishable (ρ : Type) {κ : Type} [Keyed ρ κ] where
  table : Table ρ
  spent : List κ
  covers : ∀ r ∈ table, Keyed.key r ∈ spent

namespace Perishable

variable {ρ κ α : Type} [Keyed ρ κ] [DecidableEq κ]

def empty : Perishable ρ := ⟨.empty, [], fun _ h => absurd h (Table.not_mem_empty _)⟩

def find? (t : Perishable ρ) (k : κ) : Option ρ := t.table.find? k

/-- A new row, unless its key has been in use. -/
def add (t : Perishable ρ) (r : ρ) : Perishable ρ :=
  if Keyed.key r ∈ t.spent then t
  else ⟨t.table.insert r, Keyed.key r :: t.spent, fun s hs =>
    (Table.mem_of_mem_insert hs).elim (fun h => .tail _ (t.covers s h)) fun h => h ▸ .head _⟩

def modify (t : Perishable ρ) (k : κ) (f : ρ → ρ) (hf : ∀ r, Keyed.key (f r) = Keyed.key r) :
    Perishable ρ where
  table := t.table.modify k f hf
  spent := t.spent
  covers r hr := by
    obtain ⟨s, hs, rfl⟩ := Table.mem_modify.1 hr
    split
    · rw [hf]
      exact t.covers s hs
    · exact t.covers s hs

/-- Lose the rows that satisfy `p`. -/
def remove (t : Perishable ρ) (p : ρ → Bool) : Perishable ρ where
  table := t.table.filter fun r => !p r
  spent := t.spent
  covers r hr := t.covers r (Table.mem_filter.1 hr).1

variable {t : Perishable ρ} {k l : κ} {r : ρ}

/-! ## Reading -/

theorem find?_of_not_spent (h : k ∉ t.spent) : t.find? k = none :=
  Table.find?_eq_none.2 fun r hr hk => h (hk ▸ t.covers r hr)

theorem spent_of_find? (h : t.find? k = some r) : k ∈ t.spent :=
  Table.key_of_find? h ▸ t.covers r (Table.mem_of_find? h)

theorem find?_add (t : Perishable ρ) (r : ρ) (k : κ) :
    (t.add r).find? k = if k = Keyed.key r ∧ k ∉ t.spent then some r else t.find? k := by
  unfold add
  split
  · next hspent =>
      rw [if_neg]
      rintro ⟨rfl, hnew⟩
      exact hnew hspent
  · next hnew =>
      have hfree : t.table.contains (Keyed.key r) = false := by
        rw [Table.contains]
        exact congrArg Option.isSome (find?_of_not_spent hnew)
      have hinsert : (t.table.insert r).find? k = if k = Keyed.key r then some r else t.table.find? k :=
        Table.find?_insert hfree k
      show (t.table.insert r).find? k = _
      rw [hinsert]
      by_cases hk : k = Keyed.key r
      · rw [if_pos hk, if_pos ⟨hk, hk ▸ hnew⟩]
      · rw [if_neg hk, if_neg fun h => hk h.1]
        rfl

theorem find?_modify (t : Perishable ρ) (k : κ) (f : ρ → ρ) (hf : ∀ r, Keyed.key (f r) = Keyed.key r)
    (l : κ) : (t.modify k f hf).find? l = if l = k then (t.find? k).map f else t.find? l :=
  Table.find?_modify t.table k f hf l

theorem find?_remove (t : Perishable ρ) (p : ρ → Bool) (k : κ) :
    (t.remove p).find? k = (t.find? k).filter fun r => !p r := by
  cases h : t.find? k with
  | none =>
      refine Table.find?_eq_none.2 fun r hr => Table.find?_eq_none.1 h r ?_
      exact (Table.mem_filter.1 hr).1
  | some r =>
      obtain ⟨hr, hk⟩ := Table.find?_eq_some.1 h
      cases hp : p r with
      | false =>
          rw [Option.filter_some_pos (by simp [hp])]
          exact Table.find?_eq_some.2 ⟨Table.mem_filter.2 ⟨hr, by simp [hp]⟩, hk⟩
      | true =>
          rw [Option.filter_some_neg (by simp [hp])]
          refine Table.find?_eq_none.2 fun s hs hs' => ?_
          obtain ⟨hs, hps⟩ := Table.mem_filter.1 hs
          obtain rfl := Table.eq_of_key_eq hs hr (hs'.trans hk.symm)
          simp [hp] at hps

theorem mem_spent_add (t : Perishable ρ) (r : ρ) : k ∈ (t.add r).spent ↔ k = Keyed.key r ∨ k ∈ t.spent := by
  unfold add
  split
  · next hspent =>
      refine ⟨.inr, ?_⟩
      rintro (rfl | h)
      · exact hspent
      · exact h
  · exact List.mem_cons

/-! ## Rows of interest -/

variable {p : ρ → Bool}

theorem filter_find?_add (h : p r = false) (k : κ) : ((t.add r).find? k).filter p = (t.find? k).filter p := by
  rw [find?_add]
  split
  · next hnew => rw [find?_of_not_spent hnew.2, Option.filter_some_neg (by simp [h])]; rfl
  · rfl

theorem filter_find?_modify {f : ρ → ρ} {hf : ∀ r, Keyed.key (f r) = Keyed.key r}
    (h : ∀ r, t.find? l = some r → p r = false ∧ p (f r) = false) (k : κ) :
    ((t.modify l f hf).find? k).filter p = (t.find? k).filter p := by
  rw [find?_modify]
  split
  · next hk =>
      subst hk
      cases hr : t.find? k with
      | none => rfl
      | some r =>
          obtain ⟨hold, hnew⟩ := h r hr
          rw [Option.map_some, Option.filter_some_neg (by simp [hnew]), Option.filter_some_neg (by simp [hold])]
  · rfl

theorem filter_find?_remove {q : ρ → Bool} (h : ∀ r, t.find? k = some r → q r = true → p r = false) :
    ((t.remove q).find? k).filter p = (t.find? k).filter p := by
  rw [find?_remove]
  cases hr : t.find? k with
  | none => rfl
  | some r =>
      cases hq : q r with
      | false => rw [Option.filter_some_pos (by simp [hq])]
      | true =>
          rw [Option.filter_some_neg (by simp [hq]), Option.filter_some_neg (by simp [h r hr hq])]
          rfl

/-! ## What stays true of a key -/

/-- The key has been in use, and a row it stands for has this in the column. -/
structure Settled (t : Perishable ρ) (column : ρ → α) (k : κ) (a : α) : Prop where
  spent : k ∈ t.spent
  column : ∀ r, t.find? k = some r → column r = a

variable {column : ρ → α} {a : α}

theorem settled_of_find? (h : t.find? k = some r) : t.Settled column k (column r) where
  spent := spent_of_find? h
  column s hs := by rw [Option.some.inj (hs.symm.trans h)]

theorem Settled.add (h : t.Settled column k a) (r : ρ) : (t.add r).Settled column k a where
  spent := (mem_spent_add t r).2 (.inr h.spent)
  column s hs := by
    rw [find?_add, if_neg fun hnew => hnew.2 h.spent] at hs
    exact h.column s hs

theorem Settled.modify (h : t.Settled column k a) (l : κ) (f : ρ → ρ)
    (hf : ∀ r, Keyed.key (f r) = Keyed.key r) (hcolumn : ∀ r, column (f r) = column r) :
    (t.modify l f hf).Settled column k a where
  spent := h.spent
  column s hs := by
    rw [find?_modify] at hs
    split at hs
    · next hk =>
        obtain ⟨r, hr, rfl⟩ := Option.map_eq_some_iff.1 hs
        exact (hcolumn r).trans (h.column r (hk ▸ hr))
    · exact h.column s hs

theorem Settled.remove (h : t.Settled column k a) (p : ρ → Bool) : (t.remove p).Settled column k a where
  spent := h.spent
  column s hs := by
    rw [find?_remove] at hs
    exact h.column s (Option.filter_eq_some_iff.1 hs).1

end Perishable
