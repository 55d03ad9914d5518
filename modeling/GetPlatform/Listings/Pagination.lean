import GetPlatform.Order.Ties
import Mathlib.Data.Rat.Floor

set_option autoImplicit false

/-! # Paginated lists

A page of a list is a query of its own, so the order of rows with equal keys is the database's choice page by
page. -/

namespace GetPlatform.Listings

inductive Failure where
  | NotFoundException (message : String)
  | PrismaClientValidationError
  deriving DecidableEq

/-- `Number(n) || fallback` -/
def numberOr (n : Option Int) (fallback : Int) : Int :=
  match n with
  | some n => if n = 0 then fallback else n
  | none => fallback

structure Meta where
  page : Int
  limit : Int
  total : Nat
  totalPages : Int
  deriving DecidableEq

/-- `Math.ceil(total / limit)` is the number of pages. -/
def pageMeta (page limit : Int) (total : Nat) : Meta := ⟨page, limit, total, ⌈(total : Rat) / limit⌉⟩

structure Paginated (β : Type) where
  items : List β
  pageMeta : Meta

/-- `findMany` of rows that are in order: what is taken of a negative number is counted from the end. -/
def findMany {α : Type} (ordered : List α) (skip take : Int) : Except Failure (List α) :=
  if skip < 0 then .error .PrismaClientValidationError
  else if take < 0 then .ok ((ordered.reverse.drop skip.toNat).take take.natAbs).reverse
  else .ok ((ordered.drop skip.toNat).take take.toNat)

/-! ## Reading all pages -/

variable {α β κ : Type}

/-- The number of pages that the first one announces. -/
def totalPages (answers : Nat → Except Failure (Paginated β)) : Nat :=
  match answers 0 with
  | .ok first => first.pageMeta.totalPages.toNat
  | .error _ => 0

/-- The items of all pages; the answer for page `i + 1` is `answers i`. -/
def everyPage (answers : Nat → Except Failure (Paginated β)) : List β :=
  (List.range (totalPages answers)).flatMap fun i =>
    match answers i with
    | .ok answer => answer.items
    | .error _ => []

/-- What a database may do with `ORDER BY`. -/
def IsOrder [LinearOrder κ] (key : α → κ) (order : List α → List α) : Prop :=
  ∀ rows, OrderedBy key rows (order rows)

theorem length_le_totalPages {total limit : Nat} (hlimit : 0 < limit) :
    total ≤ (pageMeta 1 limit total).totalPages.toNat * limit := by
  have hlimit' : (0 : Rat) < limit := by exact_mod_cast hlimit
  have hceil : (total : Rat) / limit ≤ (⌈(total : Rat) / limit⌉ : Int) := Int.le_ceil _
  rw [div_le_iff₀ hlimit'] at hceil
  have hle : (total : Int) ≤ ⌈(total : Rat) / limit⌉ * limit := by exact_mod_cast hceil
  show total ≤ (⌈(total : Rat) / ((limit : Int) : Rat)⌉).toNat * limit
  rw [Int.cast_natCast]
  generalize ⌈(total : Rat) / limit⌉ = pages at hle
  have hpages : pages ≤ (pages.toNat : Int) := Int.self_le_toNat pages
  have hmul : pages * limit ≤ (pages.toNat : Int) * limit :=
    Int.mul_le_mul_of_nonneg_right hpages (Int.natCast_nonneg _)
  exact_mod_cast hle.trans hmul

theorem findMany_page (ordered : List α) (limit i : Nat) :
    findMany ordered (((i : Int) + 1 - 1) * limit) limit = .ok (page ordered limit i) := by
  have hskip : ((i : Int) + 1 - 1) * limit = ((i * limit : Nat) : Int) := by push_cast; ring
  rw [hskip, findMany, if_neg (by omega), if_neg (by omega), Int.toNat_natCast, Int.toNat_natCast]
  rfl

/-- All pages, when each has the names of its rows. -/
theorem map_everyPage {ι : Type} {answers : Nat → Except Failure (Paginated β)}
    {ordered : Nat → List α} {name : α → ι} {itemName : β → ι} {limit total : Nat}
    (h : ∀ i : Nat, ∃ items, answers i = .ok ⟨items, pageMeta (i + 1) limit total⟩ ∧
      items.map itemName = (page (ordered i) limit i).map name) :
    (everyPage answers).map itemName =
      ((List.range (pageMeta 1 limit total).totalPages.toNat).flatMap fun i =>
        page (ordered i) limit i).map name := by
  have htotal : totalPages answers = (pageMeta 1 limit total).totalPages.toNat := by
    obtain ⟨items, hfirst, -⟩ := h 0
    rw [totalPages, hfirst]
    rfl
  rw [everyPage, htotal, List.map_flatMap, List.map_flatMap]
  refine List.flatMap_congr fun i _ => ?_
  obtain ⟨items, hanswer, hnames⟩ := h i
  rw [hanswer]
  exact hnames

/-- Items that keep the names of their rows. -/
theorem map_filterMap_name {ι : Type} {item : α → Option β} {name : α → ι} {itemName : β → ι}
    {rows : List α} (h : ∀ row ∈ rows, ∃ b, item row = some b ∧ itemName b = name row) :
    (rows.filterMap item).map itemName = rows.map name := by
  induction rows with
  | nil => rfl
  | cons row rows ih =>
      obtain ⟨b, hb, hname⟩ := h row (.head _)
      rw [List.filterMap_cons_some hb, List.map_cons, List.map_cons, hname,
        ih fun other hother => h other (.tail _ hother)]

/-- All pages of a list have each of its rows once, whatever the database does with rows that have equal keys,
exactly when such rows share a page. -/
theorem everyPage_perm_iff [LinearOrder κ] {ι : Type} (key : α → κ) {rows : List α}
    {call : Nat → (List α → List α) → Except Failure (Paginated β)} {name : α → ι} {itemName : β → ι}
    {limit : Nat} (hlimit : 0 < limit) (hrows : (rows.map name).Nodup)
    (hcall : ∀ (i : Nat) (order : List α → List α), OrderedBy key rows (order rows) →
      ∃ items, call i order = .ok ⟨items, pageMeta (i + 1) limit rows.length⟩ ∧
        items.map itemName = (page (order rows) limit i).map name) :
    (∀ orders : Nat → List α → List α, (∀ i, IsOrder key (orders i)) →
      ((everyPage fun i => call i (orders i)).map itemName).Perm (rows.map name)) ↔
    SharePage key limit rows := by
  classical
  have hpages : ∀ orders : Nat → List α → List α, (∀ i, OrderedBy key rows (orders i rows)) →
      (everyPage fun i => call i (orders i)).map itemName =
        ((List.range (pageMeta 1 limit rows.length).totalPages.toNat).flatMap fun i =>
          page (orders i rows) limit i).map name := fun orders horders =>
    map_everyPage fun i => hcall i (orders i) (horders i)
  rw [← flatMap_page_perm_iff hrows hlimit (length_le_totalPages hlimit)]
  constructor
  · intro hall answers hanswers
    -- the answers, as what the database makes of these rows
    let orders : Nat → List α → List α := fun i given =>
      if given = rows then answers i else given.insertionSort fun a b => key a ≤ key b
    have heq : ∀ i, orders i rows = answers i := fun i => if_pos rfl
    have horders : ∀ i, IsOrder key (orders i) := by
      intro i given
      by_cases hgiven : given = rows
      · rw [hgiven, heq]
        exact hanswers i
      · show OrderedBy key given (if given = rows then answers i else _)
        rw [if_neg hgiven]
        exact ⟨List.perm_insertionSort _ given, List.pairwise_insertionSort _ given⟩
    have hperm := hall orders horders
    rw [hpages orders fun i => horders i rows] at hperm
    rwa [List.flatMap_congr fun i _ => by rw [heq i]] at hperm
  · intro hall orders horders
    rw [hpages orders fun i => horders i rows]
    exact hall (fun i => orders i rows) fun i => horders i rows

end GetPlatform.Listings
