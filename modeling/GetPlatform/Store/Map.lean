import Mathlib.Algebra.BigOperators.Group.List.Basic
import Mathlib.Algebra.GroupWithZero.Nat
import Mathlib.Data.List.Induction
import GetPlatform.Store.Table

set_option autoImplicit false

/-! # Maps that remember the order of insertion

A `Map` gives each key at most one value, and lists its keys in the order they came. `set` leaves a key
that is there in its place. `group` is the loop that puts the items of a list into groups: the value of
a group starts from its first item, and every item updates it in place. -/

/-- A key with its value. -/
structure Entry (κ α : Type) where
  key : κ
  value : α

instance {κ α : Type} : Keyed (Entry κ α) κ := ⟨Entry.key⟩

abbrev Map (κ α : Type) := Table (Entry κ α)

namespace Map

variable {κ α ρ : Type} [DecidableEq κ]

def get? (m : Map κ α) (k : κ) : Option α := (m.find? k).map (·.value)

def set (m : Map κ α) (k : κ) (a : α) : Map κ α :=
  if m.contains k then m.modify k (fun e => { e with value := a }) fun _ => rfl
  else m.insert ⟨k, a⟩

omit [DecidableEq κ] in
def values (m : Map κ α) : List α := m.rows.map (·.value)

omit [DecidableEq κ] in
def empty : Map κ α := Table.empty

@[simp] theorem get?_empty (k : κ) : (empty : Map κ α).get? k = none := rfl

theorem get?_set (m : Map κ α) (k l : κ) (a : α) :
    (m.set k a).get? l = if l = k then some a else m.get? l := by
  unfold get? set
  by_cases hk : m.contains k = true
  · rw [if_pos hk, Table.find?_modify]
    by_cases hl : l = k
    · obtain ⟨e, he⟩ := Option.isSome_iff_exists.1 hk
      simp [hl, he]
    · rw [if_neg hl, if_neg hl]
  · have hfind := Table.find?_insert (r := (⟨k, a⟩ : Entry κ α)) (Bool.eq_false_iff.2 hk) l
    rw [if_neg hk, hfind]
    change Option.map _ (if l = k then _ else _) = _
    by_cases hl : l = k
    · rw [if_pos hl, if_pos hl]
      rfl
    · rw [if_neg hl, if_neg hl]

theorem mem_rows_iff {m : Map κ α} {e : Entry κ α} : e ∈ m.rows ↔ m.get? e.key = some e.value := by
  constructor
  · intro h
    have hfind : m.find? e.key = some e := Table.find?_key h
    rw [get?, hfind]
    rfl
  · intro h
    obtain ⟨e', he', hvalue⟩ := Option.map_eq_some_iff.1 h
    obtain ⟨hmem, hkey⟩ := Table.find?_eq_some.1 he'
    obtain ⟨k, a⟩ := e
    obtain ⟨k', a'⟩ := e'
    obtain rfl : k' = k := hkey
    obtain rfl : a' = a := hvalue
    exact hmem

theorem mem_values {m : Map κ α} {a : α} : a ∈ m.values ↔ ∃ k, m.get? k = some a := by
  constructor
  · intro h
    obtain ⟨e, he, rfl⟩ := List.mem_map.1 h
    exact ⟨e.key, mem_rows_iff.1 he⟩
  · rintro ⟨k, hk⟩
    exact List.mem_map.2 ⟨⟨k, a⟩, mem_rows_iff.2 hk, rfl⟩

omit [DecidableEq κ] in
theorem nodup_rows (m : Map κ α) : m.rows.Nodup := List.Nodup.of_map _ m.nodup

/-- Two maps with the same values list them in some order each. -/
theorem perm_rows {m m' : Map κ α} (h : ∀ k, m.get? k = m'.get? k) : m.rows.Perm m'.rows := by
  refine (List.perm_ext_iff_of_nodup m.nodup_rows m'.nodup_rows).2 fun e => ?_
  rw [mem_rows_iff, mem_rows_iff, h]

/-! ## Sums over the values -/

section Sum

variable (f : α → Nat)

/-- The row of one key is replaced. -/
theorem sum_replace {rows : List (Entry κ α)} (hnodup : (rows.map Entry.key).Nodup) {e : Entry κ α}
    (hmem : e ∈ rows) (a : α) :
    (rows.map fun e' => f (if e'.key = e.key then { e' with value := a } else e').value).sum +
      f e.value = (rows.map fun e' => f e'.value).sum + f a := by
  induction rows with
  | nil => cases hmem
  | cons hd tl ih =>
      obtain ⟨hnew, hnodup⟩ := List.nodup_cons.1 hnodup
      simp only [List.map_cons, List.sum_cons]
      rcases List.mem_cons.1 hmem with rfl | htl
      · have hsame : (tl.map fun e' => f (if e'.key = e.key then { e' with value := a } else
            e').value) = tl.map fun e' => f e'.value := by
          refine List.map_congr_left fun e' he' => ?_
          rw [if_neg fun heq => hnew (List.mem_map.2 ⟨e', he', heq⟩)]
        have hhead : f (if e.key = e.key then { e with value := a } else e).value = f a := by
          rw [if_pos rfl]
        rw [hsame, hhead]
        omega
      · have hne : hd.key ≠ e.key := fun heq => hnew (List.mem_map.2 ⟨e, htl, heq.symm⟩)
        have hrest := ih hnodup htl
        rw [if_neg hne]
        omega

/-- Setting a key moves the sum by what that key stood for. -/
theorem sum_set (m : Map κ α) (k : κ) (a : α) :
    ((m.set k a).values.map f).sum + ((m.get? k).map f).getD 0 = (m.values.map f).sum + f a := by
  unfold set get? values
  by_cases hk : m.contains k = true
  · obtain ⟨e, he⟩ := Option.isSome_iff_exists.1 hk
    obtain rfl : e.key = k := Table.key_of_find? he
    rw [if_pos hk, he, Table.modify, List.map_map, List.map_map, List.map_map]
    exact sum_replace f m.nodup (Table.mem_of_find? he) a
  · have hfind : m.find? k = none := Option.not_isSome_iff_eq_none.1 hk
    have hrows : (Table.insert m ⟨k, a⟩).rows = m.rows ++ [⟨k, a⟩] :=
      Table.rows_insert (Bool.eq_false_iff.2 hk)
    rw [if_neg hk, hrows, hfind]
    simp

end Sum

/-! ## Groups -/

/-- The loop over the items, each of which updates the value of its group. -/
def group (key : ρ → κ) (initial : ρ → α) (update : ρ → α → α) (items : List ρ) : Map κ α :=
  items.foldl
    (fun m item => m.set (key item) (update item ((m.get? (key item)).getD (initial item)))) empty

variable {key : ρ → κ} {initial : ρ → α} {update : ρ → α → α}

theorem group_concat (items : List ρ) (item : ρ) :
    group key initial update (items ++ [item]) =
      (group key initial update items).set (key item)
        (update item (((group key initial update items).get? (key item)).getD (initial item))) := by
  simp [group, List.foldl_append]

/-- The items of a group. -/
def members (key : ρ → κ) (k : κ) (items : List ρ) : List ρ := items.filter fun item => key item = k

theorem members_concat (k : κ) (items : List ρ) (item : ρ) :
    members key k (items ++ [item]) =
      members key k items ++ if key item = k then [item] else [] := by
  unfold members
  rw [List.filter_append]
  by_cases h : key item = k <;> simp [h]

/-- **What a group holds** are its members, one after the other. -/
theorem get?_group (items : List ρ) (k : κ) : (group key initial update items).get? k =
      ((members key k items).head?).map fun first =>
        (members key k items).foldl (fun a item => update item a) (initial first) := by
  induction items using List.reverseRecOn with
  | nil => rfl
  | append_singleton items item ih =>
      rw [group_concat, get?_set, members_concat]
      by_cases hk : k = key item
      · subst hk
        rw [if_pos rfl, if_pos rfl, ih]
        cases hmembers : members key (key item) items with
        | nil => rfl
        | cons first rest => simp
      · rw [if_neg hk, if_neg (Ne.symm hk), ih, List.append_nil]

/-- The order of the items does not matter to what the groups hold. -/
theorem get?_group_perm (hinitial : ∀ a b, key a = key b → initial a = initial b)
    (hupdate : ∀ a b x, update a (update b x) = update b (update a x)) {items items' : List ρ}
    (h : items.Perm items') (k : κ) :
    (group key initial update items).get? k = (group key initial update items').get? k := by
  rw [get?_group, get?_group]
  have hperm : (members key k items).Perm (members key k items') := h.filter _
  have hkey : ∀ item ∈ members key k items ++ members key k items', key item = k := by
    intro item hitem
    rcases List.mem_append.1 hitem with hitem | hitem <;>
      exact of_decide_eq_true (List.mem_filter.1 hitem).2
  cases hmembers : members key k items with
  | nil =>
      rw [hmembers] at hperm
      rw [List.nil_perm.1 hperm]
  | cons first rest =>
      cases hmembers' : members key k items' with
      | nil =>
          rw [hmembers, hmembers'] at hperm
          cases List.perm_nil.1 hperm
      | cons first' rest' =>
          rw [hmembers, hmembers'] at hperm hkey
          have hsame : initial first = initial first' := hinitial _ _ <|
            (hkey first (by simp)).trans (hkey first' (by simp)).symm
          simp only [List.head?_cons, Option.map_some, hsame]
          exact congrArg some (hperm.foldl_eq' (fun a _ b _ x => hupdate b a x) _)

/-- A figure to which every item of a group adds is the sum over all the items. -/
theorem sum_group {f : α → Nat} {weight : ρ → Nat} (hinitial : ∀ item, f (initial item) = 0)
    (hupdate : ∀ item a, f (update item a) = f a + weight item) (items : List ρ) :
    ((group key initial update items).values.map f).sum = (items.map weight).sum := by
  induction items using List.reverseRecOn with
  | nil => rfl
  | append_singleton items item ih =>
      have hset := sum_set f (group key initial update items) (key item)
        (update item (((group key initial update items).get? (key item)).getD (initial item)))
      rw [group_concat, List.map_append, List.sum_append, ← ih]
      rw [hupdate] at hset
      cases hget : (group key initial update items).get? (key item) with
      | none =>
          rw [hget] at hset
          simp only [Option.map_none, Option.getD_none, hinitial] at hset
          simp only [Option.getD_none, List.map_cons, List.map_nil, List.sum_cons, List.sum_nil]
          omega
      | some a =>
          rw [hget] at hset
          simp only [Option.map_some, Option.getD_some] at hset
          simp only [Option.getD_some, List.map_cons, List.map_nil, List.sum_cons, List.sum_nil]
          omega

end Map
