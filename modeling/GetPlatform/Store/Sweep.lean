import GetPlatform.Store.Table

set_option autoImplicit false

/-! # Sweeps over a table

A loop goes over rows that were read before it began, and updates each one that something is to be
done about, by its key. Each key comes once, so a row changes at most once, and as what was read of it
says. -/

namespace Table

variable {ρ κ δ : Type} [Keyed ρ κ] [DecidableEq κ]
variable (change : ρ → Option δ) (write : δ → ρ → ρ)
variable (hwrite : ∀ d r, Keyed.key (write d r) = Keyed.key r)

/-- Update, for each row read, the row of its key by what `change` asks for. -/
def sweep (rows : List ρ) (t : Table ρ) : Table ρ :=
  rows.foldl (fun t r =>
    match change r with
    | some d => t.modify (Keyed.key r) (write d) (hwrite d)
    | none => t) t

theorem sweep_cons_some {r : ρ} {d : δ} (h : change r = some d) (rows : List ρ) (t : Table ρ) :
    sweep change write hwrite (r :: rows) t =
      sweep change write hwrite rows (t.modify (Keyed.key r) (write d) (hwrite d)) := by
  unfold sweep
  rw [List.foldl_cons, h]

theorem sweep_cons_none {r : ρ} (h : change r = none) (rows : List ρ) (t : Table ρ) :
    sweep change write hwrite (r :: rows) t = sweep change write hwrite rows t := by
  unfold sweep
  rw [List.foldl_cons, h]

theorem sweep_eq_self {rows : List ρ} (h : ∀ r ∈ rows, change r = none) (t : Table ρ) :
    sweep change write hwrite rows t = t := by
  induction rows with
  | nil => rfl
  | cons r rows ih =>
    rw [sweep_cons_none _ _ _ (h r (by simp))]
    exact ih fun s hs => h s (by simp [hs])

theorem find?_sweep_of_not_mem {rows : List ρ} {k : κ} (h : ∀ r ∈ rows, Keyed.key r ≠ k)
    (t : Table ρ) : (sweep change write hwrite rows t).find? k = t.find? k := by
  induction rows generalizing t with
  | nil => rfl
  | cons r rows ih =>
    have hrows := fun s hs => h s (List.mem_cons_of_mem _ hs)
    cases hr : change r with
    | none => rw [sweep_cons_none _ _ _ hr, ih hrows]
    | some d =>
      rw [sweep_cons_some _ _ _ hr, ih hrows, find?_modify_ne]
      exact (h r (by simp)).symm

/-- A row that was read is written once. -/
theorem find?_sweep {rows : List ρ} (hnodup : (rows.map Keyed.key).Nodup) {r : ρ} (hr : r ∈ rows)
    (t : Table ρ) :
    (sweep change write hwrite rows t).find? (Keyed.key r) =
      (t.find? (Keyed.key r)).map fun s => (change r).elim s (write · s) := by
  induction rows generalizing t with
  | nil => exact absurd hr List.not_mem_nil
  | cons s rows ih =>
    rw [List.map_cons, List.nodup_cons] at hnodup
    rcases List.mem_cons.1 hr with rfl | hmem
    · have hother : ∀ u ∈ rows, Keyed.key u ≠ Keyed.key r := by
        intro u hu hkey
        exact hnodup.1 (List.mem_map.2 ⟨u, hu, hkey⟩)
      cases hc : change r with
      | none =>
        rw [sweep_cons_none _ _ _ hc, find?_sweep_of_not_mem _ _ _ hother]
        simp
      | some d =>
        rw [sweep_cons_some _ _ _ hc, find?_sweep_of_not_mem _ _ _ hother, find?_modify_self]
        rfl
    · have hne : Keyed.key r ≠ Keyed.key s := by
        intro hkey
        exact hnodup.1 (List.mem_map.2 ⟨r, hmem, hkey⟩)
      cases hc : change s with
      | none => rw [sweep_cons_none _ _ _ hc, ih hnodup.2 hmem]
      | some d => rw [sweep_cons_some _ _ _ hc, ih hnodup.2 hmem, find?_modify_ne _ _ _ hne]

/-- The rows read are those of the table that `p` selects, and `change` asks nothing of the others. -/
theorem find?_sweep_filter {t : Table ρ} {p : ρ → Bool} (hp : ∀ r, p r = false → change r = none)
    (k : κ) :
    (sweep change write hwrite (t.rows.filter p) t).find? k =
      (t.find? k).map fun r => (change r).elim r (write · r) := by
  have hnodup : ((t.rows.filter p).map Keyed.key).Nodup :=
    (List.filter_sublist.map _).nodup t.nodup
  cases hfind : t.find? k with
  | none =>
    have hnone : ∀ r ∈ t.rows.filter p, Keyed.key r ≠ k :=
      fun r hr => find?_eq_none.1 hfind r (List.mem_of_mem_filter hr)
    rw [find?_sweep_of_not_mem _ _ _ hnone, hfind]
    rfl
  | some r =>
    obtain ⟨hmem, rfl⟩ := find?_eq_some.1 hfind
    by_cases hpr : p r = true
    · rw [find?_sweep _ _ _ hnodup (List.mem_filter.2 ⟨hmem, hpr⟩), hfind]
      rfl
    · have hother : ∀ s ∈ t.rows.filter p, Keyed.key s ≠ Keyed.key r := by
        intro s hs hkey
        obtain ⟨hs, hps⟩ := List.mem_filter.1 hs
        exact hpr (eq_of_key_eq hs hmem hkey ▸ hps)
      rw [find?_sweep_of_not_mem _ _ _ hother, hfind, Option.map_some,
        hp r (Bool.eq_false_iff.2 hpr)]
      rfl

/-! ## Upserts

A loop goes over items that stand for different keys, and puts the row that is made of each, if one
is. -/

variable {α : Type} (row : α → Option ρ)

/-- Put the rows of the items. -/
def putAll (items : List α) (t : Table ρ) : Table ρ :=
  items.foldl (fun t a =>
    match row a with
    | some r => t.put r
    | none => t) t

theorem putAll_cons (a : α) (items : List α) (t : Table ρ) :
    putAll row (a :: items) t = putAll row items ((row a).elim t t.put) := by
  unfold putAll
  rw [List.foldl_cons]
  cases row a <;> rfl

theorem find?_putAll {key : α → κ} (hkey : ∀ a r, row a = some r → Keyed.key r = key a)
    {items : List α} (hnodup : (items.map key).Nodup) (t : Table ρ) (k : κ) :
    (putAll row items t).find? k = ((items.find? (key · = k)).bind row).or (t.find? k) := by
  induction items generalizing t with
  | nil => rfl
  | cons a items ih =>
    rw [List.map_cons, List.nodup_cons] at hnodup
    have hput : ((row a).elim t t.put).find? k =
        if key a = k then (row a).or (t.find? k) else t.find? k := by
      cases hr : row a with
      | none => simp
      | some r =>
        rw [Option.elim_some, find?_put, hkey a r hr]
        by_cases hk : key a = k
        · rw [if_pos hk, if_pos hk.symm]
          rfl
        · rw [if_neg hk, if_neg (Ne.symm hk)]
    rw [putAll_cons, ih hnodup.2, hput, List.find?_cons]
    by_cases hk : key a = k
    · have hnone : items.find? (key · = k) = none := by
        refine List.find?_eq_none.2 fun b hb => ?_
        rw [decide_eq_true_eq]
        exact fun hb' => hnodup.1 (hk.trans hb'.symm ▸ List.mem_map_of_mem hb)
      rw [if_pos hk, hnone, decide_eq_true hk]
      rfl
    · rw [if_neg hk, decide_eq_false hk]

end Table
