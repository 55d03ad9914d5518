import GetPlatform.Order.Pages
import Mathlib.Data.List.Count
import Mathlib.Data.List.Perm.Basic
import Mathlib.Data.List.Sort

set_option autoImplicit false

/-! # Pages of rows with equal keys

A query orders its rows by a key and leaves the order of rows with equal keys open, anew for every query. Pages
that are asked for one by one have every row once exactly when rows with equal keys share a page
(`flatMap_page_perm_iff`). -/

variable {α κ : Type} [LinearOrder κ]

/-- An answer to a query for the rows in the order of their keys. -/
structure OrderedBy (key : α → κ) (rows answer : List α) : Prop where
  perm : answer.Perm rows
  ordered : answer.Pairwise fun a b => key a ≤ key b

/-- The rows that any answer has before the ones with this key. -/
def countBefore (key : α → κ) (rows : List α) (k : κ) : Nat := rows.countP fun a => key a < k

/-- These, and the rows with the key. -/
def countUpTo (key : α → κ) (rows : List α) (k : κ) : Nat := rows.countP fun a => key a ≤ k

/-- The first and the last of the rows with a key are on the same page. -/
def SharePage (key : α → κ) (limit : Nat) (rows : List α) : Prop :=
  ∀ row ∈ rows, countBefore key rows (key row) / limit = (countUpTo key rows (key row) - 1) / limit

instance (key : α → κ) (limit : Nat) (rows : List α) : Decidable (SharePage key limit rows) :=
  List.decidableBAll _ rows

variable {key : α → κ} {rows answer other : List α} {limit : Nat}

theorem sharePage_map {β : Type} {f : β → α} {items : List β} :
    SharePage key limit (items.map f) ↔ SharePage (fun b => key (f b)) limit items := by
  have hbefore : ∀ k, countBefore key (items.map f) k = countBefore (fun b => key (f b)) items k :=
    fun k => List.countP_map
  have hupTo : ∀ k, countUpTo key (items.map f) k = countUpTo (fun b => key (f b)) items k :=
    fun k => List.countP_map
  simp only [SharePage, List.forall_mem_map, hbefore, hupTo]

/-! ## Where the rows with a key are -/

theorem OrderedBy.countBefore_lt (h : OrderedBy key rows answer) {n : Nat} {row : α}
    (hrow : row ∈ answer.take n) : countBefore key rows (key row) < n := by
  have hsplit := h.ordered
  rw [← List.take_append_drop n answer, List.pairwise_append] at hsplit
  have hdrop : (answer.drop n).countP (fun a => key a < key row) = 0 := by
    rw [List.countP_eq_zero]
    intro a ha
    simpa using hsplit.2.2 row hrow a ha
  have htake : (answer.take n).countP (fun a => key a < key row) < (answer.take n).length := by
    rw [List.countP_eq_length_filter]
    exact List.length_filter_lt_length_iff_exists.2 ⟨row, hrow, by simp⟩
  rw [countBefore, ← h.perm.countP_eq, ← List.take_append_drop n answer, List.countP_append, hdrop]
  exact htake.trans_le (List.length_take_le n answer)

theorem OrderedBy.lt_countUpTo (h : OrderedBy key rows answer) {n : Nat} {row : α}
    (hrow : row ∈ answer.drop n) : n < countUpTo key rows (key row) := by
  have hsplit := h.ordered
  rw [← List.take_append_drop n answer, List.pairwise_append] at hsplit
  have hlength : n < answer.length := by
    have hpos := List.length_pos_of_mem hrow
    rw [List.length_drop] at hpos
    omega
  have htake : (answer.take n).countP (fun a => key a ≤ key row) = n := by
    rw [List.countP_eq_length.2 fun a ha => decide_eq_true (hsplit.2.2 a ha row hrow),
      List.length_take_of_le hlength.le]
  have hdrop : 0 < (answer.drop n).countP fun a => key a ≤ key row :=
    List.countP_pos_iff.2 ⟨row, hrow, by simp⟩
  rw [countUpTo, ← h.perm.countP_eq, ← List.take_append_drop n answer, List.countP_append, htake]
  omega

/-! ## Rows that share a page -/

/-- When rows with equal keys share a page, the keys tell which rows come before a page. -/
theorem SharePage.countUpTo_le (hshare : SharePage key limit rows) (hlimit : 0 < limit)
    (h : OrderedBy key rows answer) {n : Nat} {row : α}
    (htake : row ∈ answer.take (n * limit)) : countUpTo key rows (key row) ≤ n * limit := by
  have hrow : row ∈ rows := h.perm.mem_iff.1 (List.mem_of_mem_take htake)
  have hbefore := h.countBefore_lt htake
  have hpage := hshare row hrow
  have hpos : 0 < countUpTo key rows (key row) := List.countP_pos_iff.2 ⟨row, hrow, by simp⟩
  rw [← Nat.div_lt_iff_lt_mul hlimit, hpage, Nat.div_lt_iff_lt_mul hlimit] at hbefore
  omega

theorem SharePage.take_eq_filter (hshare : SharePage key limit rows) (hlimit : 0 < limit)
    (h : OrderedBy key rows answer) (n : Nat) :
    answer.take (n * limit) = answer.filter fun row => countUpTo key rows (key row) ≤ n * limit := by
  have htake : (answer.take (n * limit)).filter (fun row => countUpTo key rows (key row) ≤ n * limit) =
      answer.take (n * limit) := by
    exact List.filter_eq_self.2 fun row hrow => decide_eq_true (hshare.countUpTo_le hlimit h hrow)
  have hdrop : (answer.drop (n * limit)).filter (fun row => countUpTo key rows (key row) ≤ n * limit) =
      [] := by
    refine List.filter_eq_nil_iff.2 fun row hrow => ?_
    simpa using h.lt_countUpTo hrow
  conv_rhs => rw [← List.take_append_drop (n * limit) answer]
  rw [List.filter_append, htake, hdrop, List.append_nil]

/-- The rows before a page are the same in all answers. -/
theorem SharePage.take_perm (hshare : SharePage key limit rows) (hlimit : 0 < limit)
    (h : OrderedBy key rows answer) (hother : OrderedBy key rows other) (n : Nat) :
    (answer.take (n * limit)).Perm (other.take (n * limit)) := by
  rw [hshare.take_eq_filter hlimit h, hshare.take_eq_filter hlimit hother]
  exact (h.perm.trans hother.perm.symm).filter _

theorem SharePage.flatMap_page_perm (hshare : SharePage key limit rows) (hlimit : 0 < limit)
    {answers : Nat → List α} (h : ∀ i, OrderedBy key rows (answers i)) (n : Nat) {answer : List α}
    (hanswer : OrderedBy key rows answer) :
    ((List.range n).flatMap fun i => page (answers i) limit i).Perm (answer.take (n * limit)) := by
  induction n generalizing answer with
  | zero => simp
  | succ n ih =>
      have htake : (answers n).take ((n + 1) * limit) =
          (answers n).take (n * limit) ++ page (answers n) limit n := by
        rw [Nat.succ_mul, List.take_add]
        rfl
      rw [List.range_succ, List.flatMap_append, List.flatMap_singleton]
      refine ((ih (h n)).append_right _).trans ?_
      rw [← htake]
      exact hshare.take_perm hlimit (h n) hanswer (n + 1)

/-! ## Rows that do not -/

/-- Two neighbours with equal keys may come in either order. -/
theorem OrderedBy.swap {l r : List α} {a b : α} (h : OrderedBy key rows (l ++ a :: b :: r))
    (hkey : key a = key b) : OrderedBy key rows (l ++ b :: a :: r) := by
  refine ⟨(List.Perm.append_left l (List.Perm.swap a b r)).trans h.perm, ?_⟩
  have hordered := h.ordered
  simp only [List.pairwise_append, List.pairwise_cons, List.mem_cons] at hordered ⊢
  grind

theorem OrderedBy.length_lt_countBefore {l r : List α} {a : α} {k : κ}
    (h : OrderedBy key rows (l ++ a :: r)) (hkey : key a < k) : l.length < countBefore key rows k := by
  have hordered := List.pairwise_append.1 h.ordered
  have hall : ∀ x ∈ l, decide (key x < k) = true := fun x hx =>
    decide_eq_true ((hordered.2.2 x hx a (.head _)).trans_lt hkey)
  have hpos : 0 < (a :: r).countP fun a => key a < k :=
    List.countP_pos_iff.2 ⟨a, .head _, decide_eq_true hkey⟩
  rw [countBefore, ← h.perm.countP_eq, List.countP_append, List.countP_eq_length.2 hall]
  omega

theorem OrderedBy.countUpTo_le_length {l r : List α} {b : α} {k : κ}
    (h : OrderedBy key rows (l ++ b :: r)) (hkey : k < key b) : countUpTo key rows k ≤ l.length := by
  have hordered := List.pairwise_cons.1 (List.pairwise_append.1 h.ordered).2.1
  have hnone : (b :: r).countP (fun a => key a ≤ k) = 0 := by
    refine List.countP_eq_zero.2 fun x hx => ?_
    rcases List.mem_cons.1 hx with rfl | hx
    · simpa using hkey
    · simpa using hkey.trans_le (hordered.1 x hx)
  rw [countUpTo, ← h.perm.countP_eq, List.countP_append, hnone]
  exact List.countP_le_length

/-- If the rows with some key do not share a page, a page ends between two of them. -/
theorem exists_split_of_not_sharePage (hanswer : OrderedBy key rows answer) (hlimit : 0 < limit)
    (h : ¬SharePage key limit rows) :
    ∃ l a b r n, answer = l ++ a :: b :: r ∧ key a = key b ∧ l.length + 1 = n * limit := by
  unfold SharePage at h
  push Not at h
  obtain ⟨row, hrow, hne⟩ := h
  have hlt : countBefore key rows (key row) < countUpTo key rows (key row) := by
    obtain ⟨n, hn, hget⟩ := List.getElem_of_mem (hanswer.perm.mem_iff.2 hrow)
    have htake : row ∈ answer.take (n + 1) := List.mem_take_iff_getElem.2 ⟨n, by omega, hget⟩
    have hdrop : row ∈ answer.drop n := List.mem_drop_iff_getElem.2 ⟨0, by omega, by simpa using hget⟩
    have hbefore := hanswer.countBefore_lt htake
    have hupTo := hanswer.lt_countUpTo hdrop
    omega
  -- the page that ends between the first and the last of the rows
  set n := (countUpTo key rows (key row) - 1) / limit with hn
  have hpages : countBefore key rows (key row) / limit < n :=
    lt_of_le_of_ne (Nat.div_le_div_right (by omega)) hne
  have hbefore : countBefore key rows (key row) < n * limit := (Nat.div_lt_iff_lt_mul hlimit).1 hpages
  have hupTo : n * limit < countUpTo key rows (key row) := by
    have hle := Nat.div_mul_le_self (countUpTo key rows (key row) - 1) limit
    rw [← hn] at hle
    omega
  have hlength : n * limit < answer.length :=
    hupTo.trans_le (List.countP_le_length.trans hanswer.perm.length_eq.ge)
  obtain ⟨b, r, hdrop⟩ : ∃ b r, answer.drop (n * limit) = b :: r :=
    List.exists_cons_of_ne_nil fun hnil => absurd (List.drop_eq_nil_iff.1 hnil) (by omega)
  have htaken : (answer.take (n * limit)).length = n * limit := List.length_take_of_le hlength.le
  rcases List.eq_nil_or_concat (answer.take (n * limit)) with hnil | ⟨l, a, htake⟩
  · rw [hnil, List.length_nil] at htaken
    omega
  rw [List.concat_eq_append] at htake
  have hsplit : answer = l ++ a :: b :: r := by
    rw [← List.take_append_drop (n * limit) answer, htake, hdrop, List.append_assoc,
      List.singleton_append]
  have hl : l.length + 1 = n * limit := by
    rw [htake, List.length_append, List.length_singleton] at htaken
    exact htaken
  rw [hsplit] at hanswer
  have hlow : key row ≤ key a := by
    by_contra hlow
    have hcount := hanswer.length_lt_countBefore (lt_of_not_ge hlow)
    omega
  have hhigh : key b ≤ key row := by
    by_contra hhigh
    rw [List.append_cons] at hanswer
    have hcount := hanswer.countUpTo_le_length (lt_of_not_ge hhigh)
    rw [List.length_append, List.length_singleton] at hcount
    omega
  have hab : key a ≤ key b := by
    have hordered := List.pairwise_cons.1 (List.pairwise_append.1 hanswer.ordered).2.1
    exact hordered.1 b (.head _)
  exact ⟨l, a, b, r, n, hsplit, le_antisymm hab (hhigh.trans hlow), hl⟩

theorem exists_orderedBy (key : α → κ) (rows : List α) : ∃ answer, OrderedBy key rows answer :=
  ⟨rows.insertionSort fun a b => key a ≤ key b, List.perm_insertionSort _ rows,
    List.pairwise_insertionSort _ rows⟩

theorem flatMap_page_add (items : List α) (limit m n : Nat) :
    (List.range n).flatMap (fun i => page items limit (m + i)) =
      (items.drop (m * limit)).take (n * limit) := by
  rw [← flatMap_page_take]
  refine List.flatMap_congr fun i _ => ?_
  rw [page, page, List.drop_drop, Nat.add_mul]

/-- The pages of one list, and from page `m` on those of another. -/
theorem flatMap_page_switch (first second : List α) (limit : Nat) {m n : Nat} (h : m ≤ n) :
    (List.range n).flatMap (fun i => page (if i < m then first else second) limit i) =
      first.take (m * limit) ++ (second.drop (m * limit)).take ((n - m) * limit) := by
  have hfirst : ∀ i ∈ List.range m,
      page (if i < m then first else second) limit i = page first limit i :=
    fun i hi => by rw [if_pos (List.mem_range.1 hi)]
  have hsecond : ∀ i ∈ List.range (n - m),
      page (if m + i < m then first else second) limit (m + i) = page second limit (m + i) :=
    fun i _ => by rw [if_neg (by omega)]
  have hrange : List.range n = List.range m ++ (List.range (n - m)).map (m + ·) := by
    rw [← List.range_add, Nat.add_sub_of_le h]
  rw [hrange, List.flatMap_append, List.flatMap_map, List.flatMap_congr hfirst,
    List.flatMap_congr hsecond, flatMap_page_take, flatMap_page_add]

/-- If a page ends between rows with equal keys, one of them can be on both sides. -/
theorem exists_repeated (hlimit : 0 < limit) (h : ¬SharePage key limit rows) {n : Nat}
    (hn : rows.length ≤ n * limit) :
    ∃ (answers : Nat → List α) (a : α), (∀ i, OrderedBy key rows (answers i)) ∧
      [a, a].Sublist ((List.range n).flatMap fun i => page (answers i) limit i) := by
  obtain ⟨answer, hanswer⟩ := exists_orderedBy key rows
  obtain ⟨l, a, b, r, m, rfl, hkey, hl⟩ := exists_split_of_not_sharePage hanswer hlimit h
  have hswap : OrderedBy key rows (l ++ b :: a :: r) := hanswer.swap hkey
  have hm : m < n := by
    have hlength := hanswer.perm.length_eq
    rw [List.length_append, List.length_cons, List.length_cons] at hlength
    exact lt_of_mul_lt_mul_right (by omega : m * limit < n * limit) (Nat.zero_le _)
  refine ⟨fun i => if i < m then l ++ a :: b :: r else l ++ b :: a :: r, a, fun i => ?_, ?_⟩
  · show OrderedBy key rows (if i < m then l ++ a :: b :: r else l ++ b :: a :: r)
    split
    · exact hanswer
    · exact hswap
  · -- `a` ends page `m` in the first answer, and starts the next one in the second
    rw [flatMap_page_switch _ _ _ hm.le, ← hl, List.append_cons, List.take_left' (by simp),
      List.append_cons l b, List.drop_left' (by simp)]
    obtain ⟨j, hj⟩ : ∃ j, (n - m) * limit = j + 1 :=
      Nat.exists_eq_succ_of_ne_zero (Nat.mul_pos (Nat.sub_pos_of_lt hm) hlimit).ne'
    rw [hj, List.take_succ_cons]
    exact (List.sublist_append_right l [a]).append (List.singleton_sublist.2 (.head _))

/-- **Pages and ties.** Pages that are asked for one by one, each in an order of its own, have every row once
exactly when rows with equal keys share a page. Rows are told apart by `name`. -/
theorem flatMap_page_perm_iff {ι : Type} {name : α → ι} (hrows : (rows.map name).Nodup)
    (hlimit : 0 < limit) {n : Nat} (hn : rows.length ≤ n * limit) :
    (∀ answers : Nat → List α, (∀ i, OrderedBy key rows (answers i)) →
      (((List.range n).flatMap fun i => page (answers i) limit i).map name).Perm (rows.map name)) ↔
    SharePage key limit rows := by
  constructor
  · intro hall
    by_contra hshare
    obtain ⟨answers, a, hordered, htwice⟩ := exists_repeated hlimit hshare hn
    have hnodup := (hall answers hordered).nodup_iff.2 hrows
    exact List.nodup_iff_sublist.1 hnodup (name a) (htwice.map name)
  · intro hshare answers hordered
    obtain ⟨answer, hanswer⟩ := exists_orderedBy key rows
    have hpages := hshare.flatMap_page_perm hlimit hordered n hanswer
    rw [List.take_of_length_le (hanswer.perm.length_eq.trans_le hn)] at hpages
    exact (hpages.trans hanswer.perm).map name
