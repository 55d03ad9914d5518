import GetPlatform.Store.Table

set_option autoImplicit false

/-! # Tables with two keys

A row often has a number of its own besides the columns that are unique together. `Indexed` is a table
whose rows differ in both. A row can be found by either, and is updated in place by a function that
leaves both alone; a new row is taken if neither is in use. -/

/-- Rows of type `ρ` carry a number of type `ι`. -/
class Numbered (ρ : Type) (ι : outParam Type) where
  number : ρ → ι

structure Indexed (ρ : Type) {κ ι : Type} [Keyed ρ κ] [Numbered ρ ι] extends Table ρ where
  /-- No two rows share a number. -/
  numbers : (rows.map Numbered.number).Nodup

namespace Indexed

variable {ρ κ ι : Type} [Keyed ρ κ] [Numbered ρ ι]

def empty : Indexed ρ := ⟨.empty, List.nodup_nil⟩

instance : Membership ρ (Indexed ρ) := ⟨fun t r => r ∈ t.rows⟩

theorem mem_def {t : Indexed ρ} {r : ρ} : r ∈ t ↔ r ∈ t.rows := Iff.rfl

theorem mem_toTable {t : Indexed ρ} {r : ρ} : r ∈ t.toTable ↔ r ∈ t := Iff.rfl

/-- Rows with one number are one row. -/
theorem eq_of_number_eq {t : Indexed ρ} {r s : ρ} (hr : r ∈ t) (hs : s ∈ t)
    (h : Numbered.number r = Numbered.number s) : r = s :=
  List.inj_on_of_nodup_map t.numbers hr hs h

variable [DecidableEq κ] [DecidableEq ι]

def find? (t : Indexed ρ) (k : κ) : Option ρ := t.toTable.find? k

def findNumber? (t : Indexed ρ) (i : ι) : Option ρ := t.rows.find? fun r => Numbered.number r = i

def contains (t : Indexed ρ) (k : κ) : Bool := (t.find? k).isSome

omit [DecidableEq ι] in
theorem find?_eq_some {t : Indexed ρ} {k : κ} {r : ρ} :
    t.find? k = some r ↔ r ∈ t ∧ Keyed.key r = k := Table.find?_eq_some

omit [DecidableEq ι] in
theorem find?_eq_none {t : Indexed ρ} {k : κ} : t.find? k = none ↔ ∀ r ∈ t, Keyed.key r ≠ k :=
  Table.find?_eq_none

omit [DecidableEq ι] in
theorem mem_of_find? {t : Indexed ρ} {k : κ} {r : ρ} (h : t.find? k = some r) : r ∈ t :=
  (find?_eq_some.1 h).1

omit [DecidableEq ι] in
theorem key_of_find? {t : Indexed ρ} {k : κ} {r : ρ} (h : t.find? k = some r) : Keyed.key r = k :=
  (find?_eq_some.1 h).2

omit [DecidableEq κ] in
theorem findNumber?_eq_some {t : Indexed ρ} {i : ι} {r : ρ} :
    t.findNumber? i = some r ↔ r ∈ t ∧ Numbered.number r = i := by
  constructor
  · intro h
    exact ⟨List.mem_of_find?_eq_some h, by simpa using List.find?_some h⟩
  · rintro ⟨hr, rfl⟩
    cases hfind : t.findNumber? (Numbered.number r) with
    | none =>
        have := List.find?_eq_none.1 hfind r hr
        simp at this
    | some s =>
        have hs : s ∈ t := List.mem_of_find?_eq_some hfind
        have hnumber : Numbered.number s = Numbered.number r := by simpa using List.find?_some hfind
        rw [eq_of_number_eq hs hr hnumber]

omit [DecidableEq κ] in
theorem findNumber?_eq_none {t : Indexed ρ} {i : ι} :
    t.findNumber? i = none ↔ ∀ r ∈ t, Numbered.number r ≠ i := by
  simp [findNumber?, List.find?_eq_none, mem_def]

/-! ## Rows that are updated -/

omit [DecidableEq κ] [DecidableEq ι] in
theorem map_number {f : ρ → ρ} (hnumber : ∀ r, Numbered.number (f r) = Numbered.number r)
    (p : ρ → Prop) [DecidablePred p] (rows : List ρ) :
    (rows.map fun r => if p r then f r else r).map Numbered.number = rows.map Numbered.number := by
  rw [List.map_map]
  refine List.map_congr_left fun r _ => ?_
  show Numbered.number (if p r then f r else r) = Numbered.number r
  split
  · exact hnumber r
  · rfl

/-- Update the row with key `k`. -/
def modify (t : Indexed ρ) (k : κ) (f : ρ → ρ) (hkey : ∀ r, Keyed.key (f r) = Keyed.key r)
    (hnumber : ∀ r, Numbered.number (f r) = Numbered.number r) : Indexed ρ :=
  ⟨t.toTable.modify k f hkey, by
    show ((t.rows.map fun r => if Keyed.key r = k then f r else r).map Numbered.number).Nodup
    rw [map_number hnumber]
    exact t.numbers⟩

/-- Update the row with number `i`. -/
def modifyNumber (t : Indexed ρ) (i : ι) (f : ρ → ρ) (hkey : ∀ r, Keyed.key (f r) = Keyed.key r)
    (hnumber : ∀ r, Numbered.number (f r) = Numbered.number r) : Indexed ρ :=
  match t.findNumber? i with
  | some r => t.modify (Keyed.key r) f hkey hnumber
  | none => t

section Modify

variable {f : ρ → ρ} {hkey : ∀ r, Keyed.key (f r) = Keyed.key r}
  {hnumber : ∀ r, Numbered.number (f r) = Numbered.number r}

omit [DecidableEq ι] in
theorem mem_modify {t : Indexed ρ} {k : κ} {r : ρ} :
    r ∈ t.modify k f hkey hnumber ↔ ∃ s ∈ t, r = if Keyed.key s = k then f s else s :=
  @Table.mem_modify _ _ _ _ t.toTable k f hkey r

omit [DecidableEq ι] in
theorem find?_modify (t : Indexed ρ) (k l : κ) :
    (t.modify k f hkey hnumber).find? l = if l = k then (t.find? k).map f else t.find? l :=
  Table.find?_modify t.toTable k f hkey l

theorem mem_modifyNumber {t : Indexed ρ} {i : ι} {r : ρ} :
    r ∈ t.modifyNumber i f hkey hnumber ↔ ∃ s ∈ t, r = if Numbered.number s = i then f s else s := by
  unfold modifyNumber
  split
  · next r₀ hfind =>
      obtain ⟨hr₀, rfl⟩ := findNumber?_eq_some.1 hfind
      have hsame : ∀ s ∈ t, (Keyed.key s = Keyed.key r₀ ↔ Numbered.number s = Numbered.number r₀) :=
        fun s hs => ⟨fun h => congrArg _ (Table.eq_of_key_eq hs hr₀ h), fun h =>
          congrArg _ (eq_of_number_eq hs hr₀ h)⟩
      rw [mem_modify]
      refine exists_congr fun s => and_congr_right fun hs => ?_
      rw [if_congr (hsame s hs) rfl rfl]
  · next hfind =>
      constructor
      · exact fun hr => ⟨r, hr, (if_neg (findNumber?_eq_none.1 hfind r hr)).symm⟩
      · rintro ⟨s, hs, rfl⟩
        rwa [if_neg (findNumber?_eq_none.1 hfind s hs)]

theorem find?_modifyNumber (t : Indexed ρ) (i : ι) (k : κ) :
    (t.modifyNumber i f hkey hnumber).find? k =
      (t.find? k).map fun r => if Numbered.number r = i then f r else r := by
  have hkeys : ∀ s, Keyed.key (if Numbered.number s = i then f s else s) = Keyed.key s := fun s => by
    split
    · exact hkey s
    · rfl
  cases hfind : t.find? k with
  | none =>
      refine find?_eq_none.2 fun r hr => ?_
      obtain ⟨s, hs, rfl⟩ := mem_modifyNumber.1 hr
      rw [hkeys]
      exact find?_eq_none.1 hfind s hs
  | some r =>
      obtain ⟨hr, rfl⟩ := find?_eq_some.1 hfind
      exact find?_eq_some.2 ⟨mem_modifyNumber.2 ⟨r, hr, rfl⟩, hkeys r⟩

theorem findNumber?_modifyNumber (t : Indexed ρ) (i j : ι) :
    (t.modifyNumber i f hkey hnumber).findNumber? j =
      (t.findNumber? j).map fun r => if Numbered.number r = i then f r else r := by
  have hnumbers : ∀ s, Numbered.number (if Numbered.number s = i then f s else s) =
      Numbered.number s := fun s => by
    split
    · exact hnumber s
    · rfl
  cases hfind : t.findNumber? j with
  | none =>
      refine findNumber?_eq_none.2 fun r hr => ?_
      obtain ⟨s, hs, rfl⟩ := mem_modifyNumber.1 hr
      rw [hnumbers]
      exact findNumber?_eq_none.1 hfind s hs
  | some r =>
      obtain ⟨hr, rfl⟩ := findNumber?_eq_some.1 hfind
      exact findNumber?_eq_some.2 ⟨mem_modifyNumber.2 ⟨r, hr, rfl⟩, hnumbers r⟩

end Modify

/-! ## New rows -/

/-- Append a row, unless its key or its number is taken. -/
def insert (t : Indexed ρ) (r : ρ) : Indexed ρ :=
  if h : Keyed.key r ∈ t.rows.map Keyed.key ∨ Numbered.number r ∈ t.rows.map Numbered.number then t
  else
    { rows := t.rows ++ [r]
      nodup := by
        rw [List.map_append]
        exact t.nodup.append (List.nodup_singleton _) (by simpa using fun s hs hk => h (.inl (by
          rw [← hk]
          exact List.mem_map_of_mem hs)))
      numbers := by
        rw [List.map_append]
        exact t.numbers.append (List.nodup_singleton _) (by simpa using fun s hs hk => h (.inr (by
          rw [← hk]
          exact List.mem_map_of_mem hs))) }

/-- Is neither the key nor the number in use? -/
def Fits (t : Indexed ρ) (r : ρ) : Prop := t.find? (Keyed.key r) = none ∧ t.findNumber? (Numbered.number r) = none

instance (t : Indexed ρ) (r : ρ) : Decidable (t.Fits r) := by unfold Fits; infer_instance

theorem fits_iff {t : Indexed ρ} {r : ρ} : t.Fits r ↔
    ¬ (Keyed.key r ∈ t.rows.map Keyed.key ∨ Numbered.number r ∈ t.rows.map Numbered.number) := by
  unfold Fits
  rw [find?_eq_none, findNumber?_eq_none, not_or]
  simp [mem_def]

theorem rows_insert {t : Indexed ρ} {r : ρ} (h : t.Fits r) : (t.insert r).rows = t.rows ++ [r] := by
  unfold insert
  rw [dif_neg (fits_iff.1 h)]

theorem insert_of_not_fits {t : Indexed ρ} {r : ρ} (h : ¬ t.Fits r) : t.insert r = t := by
  unfold insert
  rw [dif_pos (not_not.1 fun hfits => h (fits_iff.2 hfits))]

theorem mem_of_mem_insert {t : Indexed ρ} {r s : ρ} (h : s ∈ t.insert r) : s ∈ t ∨ s = r := by
  by_cases hfits : t.Fits r
  · rw [mem_def, rows_insert hfits, List.mem_append, List.mem_singleton] at h
    exact h
  · rw [insert_of_not_fits hfits] at h
    exact .inl h

theorem mem_insert_of_mem {t : Indexed ρ} {r s : ρ} (h : s ∈ t) : s ∈ t.insert r := by
  by_cases hfits : t.Fits r
  · rw [mem_def, rows_insert hfits]
    exact List.mem_append_left _ h
  · rwa [insert_of_not_fits hfits]

theorem find?_insert {t : Indexed ρ} {r : ρ} (h : t.Fits r) (k : κ) :
    (t.insert r).find? k = if k = Keyed.key r then some r else t.find? k := by
  by_cases hk : k = Keyed.key r
  · rw [if_pos hk]
    refine find?_eq_some.2 ⟨?_, hk.symm⟩
    rw [mem_def, rows_insert h]
    simp
  · rw [if_neg hk]
    cases hfind : t.find? k with
    | none =>
        refine find?_eq_none.2 fun s hs => ?_
        rcases mem_of_mem_insert hs with hs | rfl
        · exact find?_eq_none.1 hfind s hs
        · exact fun heq => hk heq.symm
    | some s =>
        obtain ⟨hs, hkey⟩ := find?_eq_some.1 hfind
        exact find?_eq_some.2 ⟨mem_insert_of_mem hs, hkey⟩

omit [DecidableEq κ] [DecidableEq ι] in
theorem of_mem_empty {r : ρ} : r ∉ (empty : Indexed ρ) := List.not_mem_nil

/-- The rows in turn, without those whose key or number is taken already. -/
def ofList (rows : List ρ) : Indexed ρ := rows.foldl insert empty

end Indexed
