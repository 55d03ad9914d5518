import GetPlatform.Ministry.MinistryService

set_option autoImplicit false

/-! # The figures add up

Each group is the loop of `Map.group`, so what a row counts is the number of records with its key, and
every record is counted in one row. Sorting keeps the rows, and cutting keeps those with the largest
counts. -/

namespace GetPlatform.Ministry

/-! ## Rows that count -/

section Rows

variable {ρ κ : Type} [DecidableEq κ]

/-- A row for every key, with the number of items that have it. -/
structure Tally (items : List ρ) (key : ρ → κ) (rows : List (κ × Nat)) : Prop where
  nodup : (rows.map Prod.fst).Nodup
  counts : ∀ row ∈ rows, row.2 = items.countP fun item => key item = row.1
  complete : ∀ item ∈ items, key item ∈ rows.map Prod.fst
  total : (rows.map Prod.snd).sum = items.length

/-- A breakdown into at most `limit` rows: those with the largest counts, and all of them where there
    are fewer. -/
structure Breakdown (limit : Nat) (items : List ρ) (key : ρ → κ) (rows : List (κ × Nat)) : Prop where
  nodup : (rows.map Prod.fst).Nodup
  counts : ∀ row ∈ rows, row.2 = items.countP fun item => key item = row.1
  size : rows.length ≤ limit
  total : rows.length < limit → (rows.map Prod.snd).sum = items.length
  truncated : ∀ item ∈ items, key item ∉ rows.map Prod.fst → rows.length = limit ∧
    ∀ row ∈ rows, (items.countP fun other => key other = key item) ≤ row.2

variable {items : List ρ} {key : ρ → κ} {rows rows' : List (κ × Nat)}

theorem Tally.perm (h : Tally items key rows) (hperm : rows'.Perm rows) : Tally items key rows' where
  nodup := (hperm.map _).nodup_iff.2 h.nodup
  counts row hrow := h.counts row (hperm.mem_iff.1 hrow)
  complete item hitem := (hperm.map _).mem_iff.2 (h.complete item hitem)
  total := (hperm.map _).sum_eq.trans h.total

/-- The first rows of a sorted tally are a breakdown. -/
theorem Tally.take (h : Tally items key rows) (hsorted : rows.Pairwise fun a b => b.2 ≤ a.2)
    (limit : Nat) : Breakdown limit items key (rows.take limit) where
  nodup := h.nodup.sublist ((List.take_sublist limit rows).map _)
  counts row hrow := h.counts row (List.mem_of_mem_take hrow)
  size := List.length_take_le limit rows
  total hlt := by
    rw [List.length_take] at hlt
    rw [List.take_of_length_le (by omega), h.total]
  truncated item hitem homitted := by
    -- The row of an omitted key is one of those that are cut off.
    obtain ⟨cut, hcut, hkey⟩ := List.mem_map.1 (h.complete item hitem)
    have hdrop : cut ∈ rows.drop limit := by
      rw [← List.take_append_drop limit rows, List.mem_append] at hcut
      exact hcut.resolve_left fun htake => homitted (List.mem_map.2 ⟨cut, htake, hkey⟩)
    have hlength := List.length_pos_of_mem hdrop
    rw [List.length_drop] at hlength
    refine ⟨by rw [List.length_take]; omega, fun row hrow => ?_⟩
    rw [← List.take_append_drop limit rows, List.pairwise_append] at hsorted
    rw [← hkey, ← h.counts cut (List.mem_of_mem_drop hdrop)]
    exact hsorted.2.2 row hrow cut hdrop

end Rows

/-! ## The groups -/

/-- The loop that fills a group of aggregates. -/
def aggregates {δ : Type} (key : δ → String) (dimension : ApplicationRecord → δ)
    (records : List ApplicationRecord) : Map String (Aggregate δ) :=
  Map.group (fun record => key (dimension record)) (fun record => { dimension := dimension record })
    (fun record a => a.increment record.isAccepted record.isPending) records

/-- The loop that fills a group of counts. -/
def counts {ρ : Type} (key : ρ → String) (items : List ρ) : Map String Nat :=
  Map.group key (fun _ => 0) (fun _ n => n + 1) items

section Collect

variable (records : List ApplicationRecord)

theorem collect_byStatus : (collect records).byStatus = counts ApplicationRecord.status records :=
  (List.foldl_hom Collected.byStatus fun _ _ => rfl).symm

theorem collect_byRegion : (collect records).byRegion = counts ApplicationRecord.region records :=
  (List.foldl_hom Collected.byRegion fun _ _ => rfl).symm

theorem collect_byFiliere :
    (collect records).byFiliere = aggregates Filiere.key (·.filiere) records :=
  (List.foldl_hom Collected.byFiliere fun _ _ => rfl).symm

theorem collect_bySchool :
    (collect records).bySchool = aggregates SchoolDimension.key (·.schoolDimension) records :=
  (List.foldl_hom Collected.bySchool fun _ _ => rfl).symm

theorem collect_bySchoolProgramme : (collect records).bySchoolProgramme =
    aggregates SchoolProgramme.key (·.schoolProgramme) records :=
  (List.foldl_hom Collected.bySchoolProgramme fun _ _ => rfl).symm

theorem collect_byPeriod :
    (collect records).byPeriod = aggregates Period.period (·.period) records :=
  (List.foldl_hom Collected.byPeriod fun _ _ => rfl).symm

theorem foldl_count_if (p : ApplicationRecord → Bool) (n : Nat) :
    records.foldl (fun n record => if p record then n + 1 else n) n = n + records.countP p := by
  induction records generalizing n with
  | nil => rfl
  | cons record records ih =>
      rw [List.foldl_cons, ih, List.countP_cons]
      split <;> omega

theorem collect_acceptedCount :
    (collect records).acceptedCount = records.countP ApplicationRecord.isAccepted := by
  have hfold : (collect records).acceptedCount =
      records.foldl (fun n record => if record.isAccepted then n + 1 else n) 0 :=
    (List.foldl_hom Collected.acceptedCount fun _ _ => rfl).symm
  rw [hfold, foldl_count_if, Nat.zero_add]

theorem collect_pendingCount :
    (collect records).pendingCount = records.countP ApplicationRecord.isPending := by
  have hfold : (collect records).pendingCount =
      records.foldl (fun n record => if record.isPending then n + 1 else n) 0 :=
    (List.foldl_hom Collected.pendingCount fun _ _ => rfl).symm
  rw [hfold, foldl_count_if, Nat.zero_add]

end Collect

/-! ## The groups are tallies -/

theorem foldl_succ {ρ : Type} (items : List ρ) (n : Nat) :
    items.foldl (fun n _ => n + 1) n = n + items.length := by
  induction items generalizing n with
  | nil => rfl
  | cons item items ih =>
      rw [List.foldl_cons, ih, List.length_cons]
      omega

theorem length_members {ρ κ : Type} [DecidableEq κ] (key : ρ → κ) (k : κ) (items : List ρ) :
    (Map.members key k items).length = items.countP fun item => key item = k :=
  List.countP_eq_length_filter.symm

theorem exists_member {ρ κ : Type} [DecidableEq κ] {key : ρ → κ} {items : List ρ} {item : ρ}
    (h : item ∈ items) : ∃ first, (Map.members key (key item) items).head? = some first := by
  have hmember : item ∈ Map.members key (key item) items :=
    List.mem_filter.2 ⟨h, decide_eq_true rfl⟩
  cases hmembers : Map.members key (key item) items with
  | nil =>
      rw [hmembers] at hmember
      cases hmember
  | cons first rest => exact ⟨first, rfl⟩

theorem of_head_members {ρ κ : Type} [DecidableEq κ] {key : ρ → κ} {k : κ} {items : List ρ}
    {first : ρ} (h : (Map.members key k items).head? = some first) :
    first ∈ items ∧ key first = k := by
  obtain ⟨hmem, hkey⟩ := List.mem_filter.1 (List.mem_of_head? h)
  exact ⟨hmem, of_decide_eq_true hkey⟩

/-- The rows of a map from keys to counts. -/
def pairs (map : Map String Nat) : List (String × Nat) := map.rows.map fun e => (e.key, e.value)

theorem tally_counts {ρ : Type} (key : ρ → String) (items : List ρ) :
    Tally items key (pairs (counts key items)) where
  nodup := by
    rw [pairs, List.map_map]
    exact (counts key items).nodup
  counts row hrow := by
    obtain ⟨e, he, rfl⟩ := List.mem_map.1 hrow
    have hget := Map.mem_rows_iff.1 he
    rw [counts, Map.get?_group] at hget
    obtain ⟨first, -, hvalue⟩ := Option.map_eq_some_iff.1 hget
    rw [foldl_succ, Nat.zero_add, length_members] at hvalue
    exact hvalue.symm
  complete item hitem := by
    obtain ⟨first, hfirst⟩ : ∃ first, (Map.members key (key item) items).head? = some first :=
      exists_member hitem
    have hget : (counts key items).get? (key item) ≠ none := by
      rw [counts, Map.get?_group, hfirst]
      nofun
    obtain ⟨n, hn⟩ := Option.ne_none_iff_exists'.1 hget
    have hrow : (⟨key item, n⟩ : Entry String Nat) ∈ (counts key items).rows :=
      Map.mem_rows_iff.2 hn
    rw [pairs, List.map_map]
    exact List.mem_map.2 ⟨_, hrow, rfl⟩
  total := by
    have hsum : ((counts key items).values.map id).sum = (items.map fun _ => 1).sum :=
      Map.sum_group (f := id) (fun _ => rfl) (fun _ n => rfl) items
    rw [pairs, List.map_map]
    rw [List.map_id] at hsum
    exact hsum.trans (by simp)

section Aggregates

variable {δ : Type} [DecidableEq δ]

/-- The figures of a row, counted one by one. -/
def rowOf (dimension : ApplicationRecord → δ) (records : List ApplicationRecord) (d : δ) :
    Aggregate δ where
  dimension := d
  count := records.countP fun record => dimension record = d
  acceptedCount := records.countP fun record => dimension record = d ∧ record.isAccepted
  pendingCount := records.countP fun record => dimension record = d ∧ record.isPending

omit [DecidableEq δ] in
theorem foldl_increment (records : List ApplicationRecord) (a : Aggregate δ) :
    records.foldl (fun a record => a.increment record.isAccepted record.isPending) a =
      { a with
        count := a.count + records.length
        acceptedCount := a.acceptedCount + records.countP ApplicationRecord.isAccepted
        pendingCount := a.pendingCount + records.countP ApplicationRecord.isPending } := by
  induction records generalizing a with
  | nil => rfl
  | cons record records ih =>
      rw [List.foldl_cons, ih]
      simp only [Aggregate.increment, List.length_cons, List.countP_cons, Aggregate.mk.injEq, true_and]
      refine ⟨by omega, ?_, ?_⟩ <;> split <;> omega

variable {key : δ → String} {dimension : ApplicationRecord → δ}

theorem countP_members (hkey : Function.Injective key) (d : δ) (records : List ApplicationRecord)
    (p : ApplicationRecord → Bool) :
    (Map.members (fun record => key (dimension record)) (key d) records).countP p =
      records.countP fun record => dimension record = d ∧ p record := by
  rw [Map.members, List.countP_filter]
  refine List.countP_congr fun record _ => ?_
  simp [hkey.eq_iff, and_comm]

theorem of_get?_aggregates (hkey : Function.Injective key) {records : List ApplicationRecord}
    {k : String} {a : Aggregate δ} (h : (aggregates key dimension records).get? k = some a) :
    ∃ record ∈ records, key (dimension record) = k ∧
      a = rowOf dimension records (dimension record) := by
  rw [aggregates, Map.get?_group] at h
  obtain ⟨first, hfirst, rfl⟩ := Option.map_eq_some_iff.1 h
  obtain ⟨hmem, rfl⟩ := of_head_members hfirst
  refine ⟨first, hmem, rfl, ?_⟩
  have hlength : (Map.members (fun record => key (dimension record)) (key (dimension first))
      records).length = records.countP fun record => dimension record = dimension first := by
    rw [length_members]
    exact List.countP_congr fun record _ => by simp [hkey.eq_iff]
  rw [foldl_increment, hlength, countP_members hkey, countP_members hkey]
  simp [rowOf]

theorem mem_values_aggregates (hkey : Function.Injective key) {records : List ApplicationRecord}
    {a : Aggregate δ} (h : a ∈ (aggregates key dimension records).values) :
    a = rowOf dimension records a.dimension := by
  obtain ⟨k, hk⟩ := Map.mem_values.1 h
  obtain ⟨record, -, -, rfl⟩ := of_get?_aggregates hkey hk
  rfl

omit [DecidableEq δ] in
theorem sum_aggregates {f : Aggregate δ → Nat} {weight : ApplicationRecord → Nat}
    (hinitial : ∀ d, f { dimension := d } = 0)
    (hupdate : ∀ (record : ApplicationRecord) a,
      f (a.increment record.isAccepted record.isPending) = f a + weight record)
    (records : List ApplicationRecord) :
    ((aggregates key dimension records).values.map f).sum = (records.map weight).sum :=
  Map.sum_group (fun record => hinitial (dimension record)) hupdate records

theorem tally_aggregates (hkey : Function.Injective key) (records : List ApplicationRecord) :
    Tally records dimension
      ((aggregates key dimension records).values.map fun a => (a.dimension, a.count)) where
  nodup := by
    have hkeys : (aggregates key dimension records).rows.map Entry.key =
        (aggregates key dimension records).rows.map fun e => key e.value.dimension := by
      refine List.map_congr_left fun e he => ?_
      obtain ⟨record, -, hk, ha⟩ := of_get?_aggregates hkey (Map.mem_rows_iff.1 he)
      rw [← hk, ha]
      rfl
    have hnodup := (aggregates key dimension records).nodup
    rw [show (aggregates key dimension records).rows.map Keyed.key = _ from hkeys] at hnodup
    rw [Map.values, List.map_map, List.map_map]
    exact List.Nodup.of_map key (by rwa [List.map_map])
  counts row hrow := by
    obtain ⟨a, ha, rfl⟩ := List.mem_map.1 hrow
    exact congrArg Aggregate.count (mem_values_aggregates hkey ha)
  complete record hrecord := by
    obtain ⟨first, hfirst⟩ : ∃ first, (Map.members (fun record => key (dimension record))
        (key (dimension record)) records).head? = some first := exists_member hrecord
    have hget : (aggregates key dimension records).get? (key (dimension record)) ≠ none := by
      rw [aggregates, Map.get?_group, hfirst]
      nofun
    obtain ⟨a, ha⟩ := Option.ne_none_iff_exists'.1 hget
    obtain ⟨record', -, hk, rfl⟩ := of_get?_aggregates hkey ha
    rw [List.map_map]
    exact List.mem_map.2 ⟨_, Map.mem_values.2 ⟨_, ha⟩, hkey hk⟩
  total := by
    have hsum : ((aggregates key dimension records).values.map Aggregate.count).sum =
        (records.map fun _ => 1).sum := sum_aggregates (fun _ => rfl) (fun _ _ => rfl) records
    rw [List.map_map]
    exact hsum.trans (by simp)

end Aggregates

theorem Filiere.key_injective : Function.Injective Filiere.key := by
  rintro ⟨f, p⟩ ⟨f', p'⟩ h
  have hjson := Json.arr.inj (Json.stringify_injective h)
  simp only [List.cons.injEq, Json.str.injEq, and_true] at hjson
  obtain ⟨rfl, hp⟩ := hjson
  rw [ofOption_injective hp]

theorem SchoolDimension.key_injective : Function.Injective SchoolDimension.key := by
  rintro ⟨s, r, c⟩ ⟨s', r', c'⟩ h
  have hjson := Json.arr.inj (Json.stringify_injective h)
  simp only [List.cons.injEq, Json.str.injEq, and_true] at hjson
  obtain ⟨rfl, rfl, rfl⟩ := hjson
  rfl

theorem SchoolProgramme.key_injective : Function.Injective SchoolProgramme.key := by
  rintro ⟨s, r, c, f, p⟩ ⟨s', r', c', f', p'⟩ h
  have hjson := Json.arr.inj (Json.stringify_injective h)
  simp only [List.cons.injEq, Json.str.injEq, and_true] at hjson
  obtain ⟨rfl, rfl, rfl, rfl, hp⟩ := hjson
  rw [ofOption_injective hp]

theorem Period.period_injective : Function.Injective Period.period := by
  rintro ⟨p⟩ ⟨p'⟩ rfl
  rfl

/-! ## The result -/

/-- The rows of a breakdown count the records with their dimension, in all three counters. -/
structure Conserves {δ : Type} [DecidableEq δ] (limit : Nat) (records : List ApplicationRecord)
    (dimension : ApplicationRecord → δ) (rows : List (Aggregate δ)) : Prop where
  count : Breakdown limit records dimension (rows.map fun row => (row.dimension, row.count))
  acceptedCount : ∀ row ∈ rows, row.acceptedCount =
    records.countP fun record => dimension record = row.dimension ∧ record.isAccepted
  pendingCount : ∀ row ∈ rows, row.pendingCount =
    records.countP fun record => dimension record = row.dimension ∧ record.isPending

section Result

variable (localeCompare : String → String → Int)

theorem breakdown_conserves {δ : Type} [DecidableEq δ] [Dimension δ] {key : δ → String}
    (hkey : Function.Injective key) (dimension : ApplicationRecord → δ) (limit : Nat)
    (records : List ApplicationRecord) : Conserves limit records dimension
      (breakdown localeCompare limit (aggregates key dimension records)) := by
  have hperm : (sortByCount localeCompare Aggregate.toJson Aggregate.count
      (aggregates key dimension records).values).Perm (aggregates key dimension records).values :=
    perm_sortBy _ _
  have hrow : ∀ row ∈ breakdown localeCompare limit (aggregates key dimension records),
      row = rowOf dimension records row.dimension :=
    fun row hrow => mem_values_aggregates hkey (hperm.mem_iff.1 (List.mem_of_mem_take hrow))
  refine ⟨?_, fun row h => congrArg Aggregate.acceptedCount (hrow row h),
    fun row h => congrArg Aggregate.pendingCount (hrow row h)⟩
  rw [breakdown, List.map_take]
  refine ((tally_aggregates hkey records).perm (hperm.map _)).take ?_ limit
  exact List.pairwise_map.2 (pairwise_sortBy_count _ _ _)

/-- A row for each key of a map of counts, sorted. -/
theorem tally_sortByCount {α ρ : Type} (toJson : α → Json Nat) (count : α → Nat)
    (pair : α → String × Nat) (row : Entry String Nat → α)
    (hrow : ∀ e, pair (row e) = (e.key, e.value)) (key : ρ → String) (items : List ρ) :
    Tally items key
      ((sortByCount localeCompare toJson count ((counts key items).rows.map row)).map pair) := by
  have hpairs : ((counts key items).rows.map row).map pair = pairs (counts key items) := by
    rw [List.map_map]
    exact List.map_congr_left fun e _ => hrow e
  refine (tally_counts key items).perm ?_
  rw [← hpairs]
  exact (perm_sortBy _ _).map pair

variable (filters : ResolvedAnalyticsFilters) (records : List ApplicationRecord)

theorem tally_byStatus : Tally records ApplicationRecord.status
    ((collectApplicationAnalytics localeCompare filters records).byStatus.map fun row =>
      (row.status, row.count)) := by
  have h := tally_sortByCount localeCompare StatusCount.toJson StatusCount.count
    (fun row => (row.status, row.count)) (fun e => ⟨e.key, e.value⟩) (fun _ => rfl)
    ApplicationRecord.status records
  rw [← collect_byStatus] at h
  exact h

theorem byRegion_breakdown : Breakdown filters.limit records ApplicationRecord.region
    ((collectApplicationAnalytics localeCompare filters records).byRegion.map fun row =>
      (row.region, row.count)) := by
  have h := tally_sortByCount localeCompare RegionalAggregate.toJson RegionalAggregate.count
    (fun row => (row.region, row.count)) (fun e => ⟨e.key, e.value⟩) (fun _ => rfl)
    ApplicationRecord.region records
  rw [← collect_byRegion] at h
  have htake := h.take (List.pairwise_map.2 (pairwise_sortBy_count _ _ _)) filters.limit
  rw [← List.map_take] at htake
  exact htake

/-- What the rows by month add up to. -/
theorem sum_byPeriod {f : Aggregate Period → Nat} {weight : ApplicationRecord → Nat}
    (hinitial : ∀ d, f { dimension := d } = 0)
    (hupdate : ∀ (record : ApplicationRecord) a,
      f (a.increment record.isAccepted record.isPending) = f a + weight record) :
    ((collectApplicationAnalytics localeCompare filters records).byPeriod.map f).sum =
      (records.map weight).sum := by
  have hperm : (collectApplicationAnalytics localeCompare filters records).byPeriod.Perm
      (collect records).byPeriod.values := perm_sortBy _ _
  rw [(hperm.map f).sum_eq, collect_byPeriod]
  exact sum_aggregates hinitial hupdate records

theorem sum_map_if {ρ : Type} (p : ρ → Bool) (items : List ρ) :
    (items.map fun item => if p item then 1 else 0).sum = items.countP p := by
  induction items with
  | nil => rfl
  | cons item items ih => rw [List.map_cons, List.sum_cons, ih, List.countP_cons, Nat.add_comm]

/-- Every record is counted once in every grouping. -/
structure ConservesCounts (limit : Nat) (records : List ApplicationRecord)
    (result : ApplicationAnalyticsResult) : Prop where
  total : result.total = records.length
  byStatus : (result.byStatus.map StatusCount.count).sum = records.length
  byPeriod : (result.byPeriod.map Aggregate.count).sum = records.length
  accepted : result.acceptedCount = (result.byPeriod.map Aggregate.acceptedCount).sum
  pending : result.pendingCount = (result.byPeriod.map Aggregate.pendingCount).sum
  byRegion : Breakdown limit records ApplicationRecord.region
    (result.byRegion.map fun row => (row.region, row.count))
  byFiliere : Conserves limit records ApplicationRecord.filiere result.byFiliere
  bySchool : Conserves limit records ApplicationRecord.schoolDimension result.bySchool
  bySchoolProgramme : Conserves limit records ApplicationRecord.schoolProgramme
    result.bySchoolProgramme

/-- **Analytics conserve counts.** -/
theorem analytics_conserve_counts : ConservesCounts filters.limit records
    (collectApplicationAnalytics localeCompare filters records) := by
  let result := collectApplicationAnalytics localeCompare filters records
  have hstatus := (tally_byStatus localeCompare filters records).total
  rw [List.map_map] at hstatus
  have hcount : (result.byPeriod.map Aggregate.count).sum = (records.map fun _ => 1).sum :=
    sum_byPeriod localeCompare filters records (fun _ => rfl) fun _ _ => rfl
  have haccepted : (result.byPeriod.map Aggregate.acceptedCount).sum =
      (records.map fun record => if record.isAccepted then 1 else 0).sum := by
    refine sum_byPeriod localeCompare filters records (fun _ => rfl) fun record a => ?_
    simp only [Aggregate.increment]
    split <;> rfl
  have hpending : (result.byPeriod.map Aggregate.pendingCount).sum =
      (records.map fun record => if record.isPending then 1 else 0).sum := by
    refine sum_byPeriod localeCompare filters records (fun _ => rfl) fun record a => ?_
    simp only [Aggregate.increment]
    split <;> rfl
  rw [sum_map_if, ← collect_acceptedCount] at haccepted
  rw [sum_map_if, ← collect_pendingCount] at hpending
  have hfiliere := breakdown_conserves localeCompare Filiere.key_injective (·.filiere)
    filters.limit records
  rw [← collect_byFiliere] at hfiliere
  have hschool := breakdown_conserves localeCompare SchoolDimension.key_injective
    (·.schoolDimension) filters.limit records
  rw [← collect_bySchool] at hschool
  have hprogramme := breakdown_conserves localeCompare SchoolProgramme.key_injective
    (·.schoolProgramme) filters.limit records
  rw [← collect_bySchoolProgramme] at hprogramme
  exact ⟨rfl, hstatus, hcount.trans (by simp), haccepted.symm, hpending.symm,
    byRegion_breakdown localeCompare filters records, hfiliere, hschool, hprogramme⟩

end Result

end GetPlatform.Ministry
