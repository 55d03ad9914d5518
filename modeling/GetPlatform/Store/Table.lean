import Mathlib.Data.List.Nodup
import Mathlib.Data.List.Count
import Mathlib.Data.Fintype.EquivFin

set_option autoImplicit false

/-! # Tables of keyed rows

A `Table` is a finite list of rows, at most one for each key: what a relational table with a
unique constraint holds. The constraint is a field, so no operation below can produce a table
that breaks it. Rows keep the order they were inserted in, which is what an ordered query
breaks ties by.

`modify` takes a function on rows that leaves the key alone, and `insert` leaves the table as it
is when the key is taken: a caller that has to report the violation asks `contains` first. -/

/-- Rows of type `ρ` are told apart by a key of type `κ`. -/
class Keyed (ρ : Type) (κ : outParam Type) where
  key : ρ → κ

structure Table (ρ : Type) {κ : Type} [Keyed ρ κ] where
  rows : List ρ
  /-- No two rows share a key. -/
  nodup : (rows.map Keyed.key).Nodup

namespace Table

variable {ρ κ : Type} [Keyed ρ κ]

/-- The table without a row. -/
def empty : Table ρ := ⟨[], List.nodup_nil⟩

instance : Membership ρ (Table ρ) := ⟨fun t r => r ∈ t.rows⟩

theorem mem_def {t : Table ρ} {r : ρ} : r ∈ t ↔ r ∈ t.rows := Iff.rfl

@[simp] theorem not_mem_empty (r : ρ) : r ∉ (empty : Table ρ) := List.not_mem_nil

@[ext] theorem ext {t u : Table ρ} (h : t.rows = u.rows) : t = u := by
  cases t
  cases u
  cases h
  rfl

theorem eq_of_key_eq {t : Table ρ} {r s : ρ} (hr : r ∈ t) (hs : s ∈ t)
    (h : Keyed.key r = Keyed.key s) : r = s :=
  List.inj_on_of_nodup_map t.nodup hr hs h

variable [DecidableEq κ]

/-! ## Reading -/

/-- The row with key `k`. -/
def find? (t : Table ρ) (k : κ) : Option ρ := t.rows.find? (fun r => Keyed.key r = k)

/-- Is there a row with key `k`? -/
def contains (t : Table ρ) (k : κ) : Bool := (t.find? k).isSome

/-- The number of rows that satisfy `f`. -/
def count (t : Table ρ) (f : ρ → Bool) : Nat := t.rows.countP f

@[simp] theorem find?_empty (k : κ) : (empty : Table ρ).find? k = none := rfl

theorem find?_eq_some {t : Table ρ} {k : κ} {r : ρ} :
    t.find? k = some r ↔ r ∈ t ∧ Keyed.key r = k := by
  constructor
  · intro h
    exact ⟨List.mem_of_find?_eq_some h, by simpa using List.find?_some h⟩
  · rintro ⟨hr, rfl⟩
    cases hf : t.find? (Keyed.key r) with
    | none =>
        have := List.find?_eq_none.1 hf r hr
        simp at this
    | some s =>
        have hs : s ∈ t := List.mem_of_find?_eq_some hf
        have hk : Keyed.key s = Keyed.key r := by simpa using List.find?_some hf
        rw [eq_of_key_eq hs hr hk]

theorem find?_eq_none {t : Table ρ} {k : κ} : t.find? k = none ↔ ∀ r ∈ t, Keyed.key r ≠ k := by
  simp [find?, List.find?_eq_none, mem_def]

theorem find?_key {t : Table ρ} {r : ρ} (h : r ∈ t) : t.find? (Keyed.key r) = some r :=
  find?_eq_some.2 ⟨h, rfl⟩

theorem mem_of_find? {t : Table ρ} {k : κ} {r : ρ} (h : t.find? k = some r) : r ∈ t :=
  (find?_eq_some.1 h).1

theorem key_of_find? {t : Table ρ} {k : κ} {r : ρ} (h : t.find? k = some r) : Keyed.key r = k :=
  (find?_eq_some.1 h).2

/-! ## Updating the row of one key -/

/-- Apply `f` to the row with key `k`; every other row is left as it is. -/
def modify (t : Table ρ) (k : κ) (f : ρ → ρ) (hf : ∀ r, Keyed.key (f r) = Keyed.key r) : Table ρ :=
  ⟨t.rows.map (fun r => if Keyed.key r = k then f r else r), by
    rw [List.map_map]
    have : (Keyed.key ∘ fun r => if Keyed.key r = k then f r else r) = (Keyed.key : ρ → κ) := by
      funext r
      by_cases h : Keyed.key r = k <;> simp [h, hf]
    rw [this]
    exact t.nodup⟩

theorem mem_modify {t : Table ρ} {k : κ} {f : ρ → ρ} {hf : ∀ r, Keyed.key (f r) = Keyed.key r}
    {r : ρ} :
    r ∈ t.modify k f hf ↔ ∃ s ∈ t, r = if Keyed.key s = k then f s else s := by
  simp [mem_def, modify, eq_comm]

theorem find?_modify (t : Table ρ) (k : κ) (f : ρ → ρ) (hf : ∀ r, Keyed.key (f r) = Keyed.key r)
    (l : κ) : (t.modify k f hf).find? l = if l = k then (t.find? k).map f else t.find? l := by
  have hfind : ∀ s, t.find? l = some s →
      (t.modify k f hf).find? l = some (if Keyed.key s = k then f s else s) := by
    intro s hs
    obtain ⟨hmem, hkey⟩ := find?_eq_some.1 hs
    refine find?_eq_some.2 ⟨mem_modify.2 ⟨s, hmem, rfl⟩, ?_⟩
    split <;> simp [hf, hkey]
  cases hs : t.find? l with
  | some s =>
      have hkey := key_of_find? hs
      rw [hfind s hs]
      by_cases hlk : l = k
      · subst hlk
        simp [hs, hkey]
      · simp [hkey, hlk]
  | none =>
      have habs : (t.modify k f hf).find? l = none := by
        refine find?_eq_none.2 fun r hr => ?_
        obtain ⟨s, hs', rfl⟩ := mem_modify.1 hr
        have := find?_eq_none.1 hs s hs'
        split <;> simp [hf, this]
      by_cases hlk : l = k
      · subst hlk
        simp [habs, hs]
      · simp [habs, hlk]

@[simp] theorem find?_modify_self (t : Table ρ) (k : κ) (f : ρ → ρ)
    (hf : ∀ r, Keyed.key (f r) = Keyed.key r) :
    (t.modify k f hf).find? k = (t.find? k).map f := by
  simp [find?_modify]

theorem find?_modify_ne (t : Table ρ) {k l : κ} (f : ρ → ρ)
    (hf : ∀ r, Keyed.key (f r) = Keyed.key r) (h : l ≠ k) :
    (t.modify k f hf).find? l = t.find? l := by
  simp [find?_modify, h]

@[simp] theorem contains_modify (t : Table ρ) (k l : κ) (f : ρ → ρ)
    (hf : ∀ r, Keyed.key (f r) = Keyed.key r) :
    (t.modify k f hf).contains l = t.contains l := by
  unfold contains
  rw [find?_modify]
  by_cases h : l = k
  · subst h
    simp
  · simp [h]

/-! ## Inserting a row -/

/-- Append `r`, unless its key is taken. -/
def insert (t : Table ρ) (r : ρ) : Table ρ :=
  if h : Keyed.key r ∈ t.rows.map Keyed.key then t
  else ⟨t.rows ++ [r], by
    rw [List.map_append]
    exact t.nodup.append (List.nodup_singleton _) (by simpa using h)⟩

theorem contains_iff {t : Table ρ} {k : κ} :
    t.contains k = true ↔ k ∈ t.rows.map Keyed.key := by
  simp [contains, find?]

/-- There is always a key that is not taken yet. -/
theorem exists_fresh [Infinite κ] (t : Table ρ) (taken : List κ) :
    ∃ k, t.contains k = false ∧ k ∉ taken := by
  obtain ⟨k, hk⟩ := Infinite.exists_notMem_finset (t.rows.map Keyed.key ++ taken).toFinset
  rw [List.mem_toFinset, List.mem_append, not_or] at hk
  exact ⟨k, Bool.eq_false_iff.2 fun h => hk.1 (contains_iff.1 h), hk.2⟩

theorem insert_of_contains {t : Table ρ} {r : ρ} (h : t.contains (Keyed.key r) = true) :
    t.insert r = t := by
  simp only [insert, dif_pos (contains_iff.1 h)]

theorem rows_insert {t : Table ρ} {r : ρ} (h : t.contains (Keyed.key r) = false) :
    (t.insert r).rows = t.rows ++ [r] := by
  have : Keyed.key r ∉ t.rows.map Keyed.key := by
    rw [← contains_iff, h]
    exact Bool.false_ne_true
  simp only [insert, dif_neg this]

theorem mem_insert {t : Table ρ} {r s : ρ} (h : t.contains (Keyed.key r) = false) :
    s ∈ t.insert r ↔ s ∈ t ∨ s = r := by
  simp [mem_def, rows_insert h]

theorem mem_insert_of_mem {t : Table ρ} {r s : ρ} (h : s ∈ t) : s ∈ t.insert r := by
  cases hc : t.contains (Keyed.key r) with
  | true => rwa [insert_of_contains hc]
  | false => exact (mem_insert hc).2 (Or.inl h)

theorem find?_insert {t : Table ρ} {r : ρ} (h : t.contains (Keyed.key r) = false) (k : κ) :
    (t.insert r).find? k = if k = Keyed.key r then some r else t.find? k := by
  by_cases hk : k = Keyed.key r
  · subst hk
    simp only [if_true]
    exact find?_eq_some.2 ⟨(mem_insert h).2 (Or.inr rfl), rfl⟩
  · rw [if_neg hk]
    cases hs : t.find? k with
    | some s =>
        obtain ⟨hmem, hkey⟩ := find?_eq_some.1 hs
        exact find?_eq_some.2 ⟨(mem_insert h).2 (Or.inl hmem), hkey⟩
    | none =>
        refine find?_eq_none.2 fun s hs' => ?_
        rcases (mem_insert h).1 hs' with hmem | rfl
        · exact find?_eq_none.1 hs s hmem
        · exact fun heq => hk heq.symm

theorem find?_insert_of_find? {t : Table ρ} {r s : ρ} {k : κ} (h : t.find? k = some s) :
    (t.insert r).find? k = some s :=
  find?_eq_some.2 ⟨mem_insert_of_mem (mem_of_find? h), key_of_find? h⟩

theorem find?_insert_ne (t : Table ρ) {r : ρ} {k : κ} (h : k ≠ Keyed.key r) :
    (t.insert r).find? k = t.find? k := by
  cases hc : t.contains (Keyed.key r) with
  | true => rw [insert_of_contains hc]
  | false => rw [find?_insert hc, if_neg h]

theorem mem_of_mem_insert {t : Table ρ} {r s : ρ} (h : s ∈ t.insert r) : s ∈ t ∨ s = r := by
  cases hc : t.contains (Keyed.key r) with
  | true => exact .inl (by rwa [insert_of_contains hc] at h)
  | false => exact (mem_insert hc).1 h

theorem contains_insert {t : Table ρ} {r : ρ} {k : κ} (h : t.contains k = true) :
    (t.insert r).contains k = true := by
  obtain ⟨s, hs⟩ := Option.isSome_iff_exists.1 h
  exact Option.isSome_iff_exists.2 ⟨s, find?_insert_of_find? hs⟩

theorem contains_insert_self (t : Table ρ) (r : ρ) :
    (t.insert r).contains (Keyed.key r) = true := by
  cases hc : t.contains (Keyed.key r) with
  | true => exact contains_insert hc
  | false => exact Option.isSome_iff_exists.2 ⟨r, by rw [find?_insert hc, if_pos rfl]⟩

/-- The table of a list of rows; of the rows that share a key, the first. -/
def ofList (rows : List ρ) : Table ρ := rows.foldl insert empty

/-- Rows with new and different keys go to the end, all of them. -/
theorem rows_foldl_insert {t : Table ρ} {rows : List ρ} (hnodup : (rows.map Keyed.key).Nodup)
    (hnew : ∀ r ∈ rows, t.contains (Keyed.key r) = false) :
    (rows.foldl insert t).rows = t.rows ++ rows := by
  induction rows generalizing t with
  | nil => exact (List.append_nil _).symm
  | cons r rows ih =>
    rw [List.map_cons, List.nodup_cons] at hnodup
    have hr : t.contains (Keyed.key r) = false := hnew r (by simp)
    have hrest : ∀ s ∈ rows, (t.insert r).contains (Keyed.key s) = false := by
      intro s hs
      have hne : Keyed.key s ≠ Keyed.key r := fun heq =>
        hnodup.1 (heq ▸ List.mem_map_of_mem hs)
      unfold contains
      rw [find?_insert_ne t hne]
      exact hnew s (List.mem_cons_of_mem _ hs)
    rw [List.foldl_cons, ih hnodup.2 hrest, rows_insert hr, List.append_assoc]
    rfl

/-- The rows that a table has more than another are those with keys the other does not have. -/
theorem filter_new_perm {t t' : Table ρ} {rows : List ρ} (h : t'.rows.Perm (t.rows ++ rows)) :
    (t'.rows.filter fun r => !t.contains (Keyed.key r)).Perm rows := by
  have hnodup := (h.map Keyed.key).nodup_iff.1 t'.nodup
  rw [List.map_append, List.nodup_append] at hnodup
  obtain ⟨-, -, hne⟩ := hnodup
  have hold : (t.rows.filter fun r => !t.contains (Keyed.key r)) = [] := by
    refine List.filter_eq_nil_iff.2 fun r hr => ?_
    rw [contains_iff.2 (List.mem_map_of_mem hr)]
    exact Bool.false_ne_true
  have hnew : (rows.filter fun r => !t.contains (Keyed.key r)) = rows := by
    refine List.filter_eq_self.2 fun r hr => ?_
    rw [Bool.not_eq_true', Bool.eq_false_iff]
    intro hthere
    exact hne _ (contains_iff.1 hthere) _ (List.mem_map_of_mem (f := Keyed.key) hr) rfl
  refine (h.filter _).trans ?_
  rw [List.filter_append, hold, hnew]
  rfl

/-! ## Deleting rows -/

/-- Keep the rows that satisfy `f`. -/
def filter (t : Table ρ) (f : ρ → Bool) : Table ρ :=
  ⟨t.rows.filter f, t.nodup.sublist (List.filter_sublist.map Keyed.key)⟩

omit [DecidableEq κ] in
@[simp] theorem mem_filter {t : Table ρ} {f : ρ → Bool} {r : ρ} :
    r ∈ t.filter f ↔ r ∈ t ∧ f r = true := by
  simp [mem_def, filter]

theorem find?_filter_key {t : Table ρ} {f : ρ → Bool} {k : κ}
    (hf : ∀ r ∈ t, Keyed.key r = k → f r = true) : (t.filter f).find? k = t.find? k := by
  cases h : t.find? k with
  | some r =>
      obtain ⟨hr, hk⟩ := find?_eq_some.1 h
      exact find?_eq_some.2 ⟨mem_filter.2 ⟨hr, hf r hr hk⟩, hk⟩
  | none => exact find?_eq_none.2 fun r hr => find?_eq_none.1 h r (mem_filter.1 hr).1

/-- Make `r` the row of its key, whether the key has a row already or not. -/
def put (t : Table ρ) (r : ρ) : Table ρ :=
  (t.filter fun s => Keyed.key s ≠ Keyed.key r).insert r

theorem contains_filter_key (t : Table ρ) (k : κ) :
    (t.filter fun s => Keyed.key s ≠ k).contains k = false := by
  have : (t.filter fun s => Keyed.key s ≠ k).find? k = none :=
    find?_eq_none.2 fun s hs => of_decide_eq_true (mem_filter.1 hs).2
  rw [contains, this]
  rfl

theorem find?_put (t : Table ρ) (r : ρ) (k : κ) :
    (t.put r).find? k = if k = Keyed.key r then some r else t.find? k := by
  rw [put, find?_insert (contains_filter_key t _)]
  by_cases hk : k = Keyed.key r
  · simp [hk]
  · rw [if_neg hk, if_neg hk, find?_filter_key]
    rintro s - rfl
    simpa using hk

theorem mem_put {t : Table ρ} {r s : ρ} :
    s ∈ t.put r ↔ s = r ∨ s ∈ t ∧ Keyed.key s ≠ Keyed.key r := by
  rw [put, mem_insert (contains_filter_key t _), mem_filter, decide_eq_true_eq, or_comm]

theorem rows_put (t : Table ρ) (r : ρ) :
    (t.put r).rows = (t.rows.filter fun s => Keyed.key s ≠ Keyed.key r) ++ [r] :=
  rows_insert (contains_filter_key t _)

/-- A row with a new key goes to the end. -/
theorem rows_put_new {t : Table ρ} {r : ρ} (h : t.contains (Keyed.key r) = false) :
    (t.put r).rows = t.rows ++ [r] := by
  rw [rows_put]
  congr 1
  refine List.filter_eq_self.2 fun s hs => decide_eq_true fun heq => ?_
  rw [contains_iff.2 (heq ▸ List.mem_map_of_mem hs)] at h
  cases h

/-- Of two rows of one key, the last remains. -/
theorem put_put {t : Table ρ} {r r' : ρ} (h : Keyed.key r' = Keyed.key r) :
    (t.put r).put r' = t.put r' := by
  have hrows : ((t.put r).put r').rows = (t.put r').rows := by
    simp [rows_put, h]
  exact ext hrows

/-! ## Counting -/

/-- Updating a row that `p` selects neither before nor after leaves the selection alone. -/
theorem filter_rows_modify {t : Table ρ} {k : κ} {f : ρ → ρ}
    {hf : ∀ r, Keyed.key (f r) = Keyed.key r} {p : ρ → Bool}
    (h : ∀ r ∈ t, Keyed.key r = k → p r = false ∧ p (f r) = false) :
    (t.modify k f hf).rows.filter p = t.rows.filter p := by
  have hsame : ∀ r ∈ t.rows, (p ∘ fun r => if Keyed.key r = k then f r else r) r = p r := by
    intro r hr
    by_cases hk : Keyed.key r = k
    · simp [hk, h r hr hk]
    · simp [hk]
  rw [modify, List.filter_map, List.filter_congr hsame]
  conv_rhs => rw [← List.map_id (t.rows.filter p)]
  refine List.map_congr_left fun r hr => ?_
  obtain ⟨hr, hp⟩ := List.mem_filter.1 hr
  have hk : Keyed.key r ≠ k := fun hk => by simp [(h r hr hk).1] at hp
  simp [hk]

theorem count_modify_of_none {t : Table ρ} {k : κ} {f : ρ → ρ}
    {hf : ∀ r, Keyed.key (f r) = Keyed.key r} (p : ρ → Bool) (h : t.find? k = none) :
    (t.modify k f hf).count p = t.count p := by
  have : t.rows.map (fun r => if Keyed.key r = k then f r else r) = t.rows := by
    conv_rhs => rw [← List.map_id t.rows]
    exact List.map_congr_left fun r hr => by simp [find?_eq_none.1 h r hr]
  simp only [count, modify, this]

private theorem countP_map_ite (l : List ρ) (k : κ) (f : ρ → ρ) (p : ρ → Bool) (r : ρ)
    (hnod : (l.map Keyed.key).Nodup) (hr : r ∈ l) (hkey : Keyed.key r = k) :
    (l.map (fun s => if Keyed.key s = k then f s else s)).countP p + (if p r then 1 else 0)
      = l.countP p + (if p (f r) then 1 else 0) := by
  induction l with
  | nil => cases hr
  | cons hd tl ih =>
      simp only [List.map_cons, List.nodup_cons] at hnod
      obtain ⟨hnotin, hnod'⟩ := hnod
      rcases List.mem_cons.1 hr with rfl | hr'
      · have htl : tl.map (fun s => if Keyed.key s = k then f s else s) = tl := by
          conv_rhs => rw [← List.map_id tl]
          refine List.map_congr_left fun s hs => ?_
          have : Keyed.key s ≠ k := fun h =>
            hnotin (List.mem_map.2 ⟨s, hs, h.trans hkey.symm⟩)
          simp [this]
        simp only [List.map_cons, htl, hkey, if_true, List.countP_cons]
        omega
      · have hne : Keyed.key hd ≠ k := fun h =>
          hnotin (List.mem_map.2 ⟨r, hr', hkey.trans h.symm⟩)
        have := ih hnod' hr'
        simp only [List.map_cons, if_neg hne, List.countP_cons]
        omega

/-- Updating one row moves a count by that row alone. -/
theorem count_modify {t : Table ρ} {k : κ} {f : ρ → ρ} {hf : ∀ r, Keyed.key (f r) = Keyed.key r}
    (p : ρ → Bool) {r : ρ} (h : t.find? k = some r) :
    (t.modify k f hf).count p + (if p r then 1 else 0)
      = t.count p + (if p (f r) then 1 else 0) :=
  countP_map_ite t.rows k f p r t.nodup (mem_of_find? h) (key_of_find? h)

end Table
