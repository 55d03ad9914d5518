import GetPlatform.Ministry.ReportExporter

set_option autoImplicit false

/-! # The figures of a report

A snapshot is read place by place: its scalars, and the records that its arrays list. A place gives at
most one row, so the rows are those of the places, in the order they are read in. The records of an
array may only hold scalars: what is nested in one is not written. -/

namespace GetPlatform.Ministry

variable {ν : Type}

abbrev Fields (ν : Type) := List (String × Json ν)

/-! ## Scalars -/

def scalar? : Json ν → Option (Scalar ν)
  | .str s => some (.string s)
  | .num n => some (.number n)
  | .bool b => some (.boolean b)
  | _ => none

def Scalar.number? : Scalar ν → Option ν
  | number n => some n
  | _ => none

/-- The fields of a record that hold a scalar. -/
def scalars (record : Fields ν) : List (String × Scalar ν) :=
  record.filterMap fun (key, value) => (scalar? value).map (key, ·)

/-- A string, a number, a boolean or null. -/
def isFlat : Json ν → Bool
  | .arr _ => false
  | .obj _ => false
  | _ => true

def Flat (record : Fields ν) : Prop := ∀ field ∈ record, isFlat field.2 = true

instance (record : Fields ν) : Decidable (Flat record) :=
  inferInstanceAs (Decidable (∀ field ∈ record, isFlat field.2 = true))

/-! ## Reading a snapshot -/

/-- Where a row may come from, with the keys that lead there. A scalar may be a field of a record that
an array lists. -/
inductive Place (ν : Type) where
  | scalar (owner : Option (Fields ν)) (path : List String) (value : Scalar ν)
  | record (path : List String) (fields : Fields ν)

mutual

/-- The places of a value in the order of the document; the value may be the item of an array. -/
def places (item : Bool) (owner : Option (Fields ν)) : Json ν → List String → List (Place ν)
  | .null, _ => []
  | .str s, path => [.scalar owner path (.string s)]
  | .num n, path => [.scalar owner path (.number n)]
  | .bool b, path => [.scalar owner path (.boolean b)]
  | .arr items, path => placesItems owner items path
  | .obj fields, path =>
      if item then .record path fields :: placesFields (some fields) fields path
      else placesFields owner fields path

def placesItems (owner : Option (Fields ν)) : List (Json ν) → List String → List (Place ν)
  | [], _ => []
  | item :: items, path => places true owner item path ++ placesItems owner items path

def placesFields (owner : Option (Fields ν)) : Fields ν → List String → List (Place ν)
  | [], _ => []
  | (key, child) :: fields, path =>
      places false owner child (path ++ [key]) ++ placesFields owner fields path

end

def Place.record? : Place ν → Option (Fields ν)
  | scalar _ _ _ => none
  | record _ fields => some fields

def Place.number? : Place ν → Option ν
  | scalar _ _ value => value.number?
  | record _ _ => none

/-- Records nested to any depth, and arrays of scalars or of flat records. -/
def Snapshot (data : Json ν) : Prop :=
  ∀ fields ∈ (places false none data []).filterMap Place.record?, Flat fields

instance (data : Json ν) : Decidable (Snapshot data) :=
  inferInstanceAs (Decidable (∀ fields ∈ (places false none data []).filterMap Place.record?, Flat fields))

mutual

/-- The numbers of a value in the order of the document. -/
def numbers : Json ν → List ν
  | .num n => [n]
  | .arr items => numbersItems items
  | .obj fields => numbersFields fields
  | _ => []

def numbersItems : List (Json ν) → List ν
  | [] => []
  | item :: items => numbers item ++ numbersItems items

def numbersFields : Fields ν → List ν
  | [] => []
  | (_, child) :: fields => numbers child ++ numbersFields fields

end

/-- Every number has its place. -/
theorem number?_places (j : Json ν) : ∀ item owner path,
    (places item owner j path).filterMap Place.number? = numbers j := by
  have hitems : ∀ items : List (Json ν), (∀ i ∈ items, ∀ item owner path,
      (places item owner i path).filterMap Place.number? = numbers i) → ∀ owner path,
      (placesItems owner items path).filterMap Place.number? = numbersItems items := by
    intro items ih owner path
    induction items with
    | nil => rfl
    | cons i items ihitems =>
        rw [placesItems, numbersItems, List.filterMap_append, ih i (.head _),
          ihitems fun i hi => ih i (.tail _ hi)]
  have hfields : ∀ fields : Fields ν, (∀ field ∈ fields, ∀ item owner path,
      (places item owner field.2 path).filterMap Place.number? = numbers field.2) → ∀ owner path,
      (placesFields owner fields path).filterMap Place.number? = numbersFields fields := by
    intro fields ih owner path
    induction fields with
    | nil => rfl
    | cons field fields ihfields =>
        obtain ⟨key, child⟩ := field
        rw [placesFields, numbersFields, List.filterMap_append, ih (key, child) (.head _),
          ihfields fun field hfield => ih field (.tail _ hfield)]
  induction j using Json.induction with
  | null | bool | num | str => exact fun _ _ _ => rfl
  | arr items ih => exact fun _ owner path => hitems items ih owner path
  | obj fields ih =>
      intro item owner path
      cases item with
      | false => exact hfields fields ih owner path
      | true => exact hfields fields ih (some fields) path

/-! ## The row of a place -/

variable (locale : Locale ν)

/-- Every string and boolean field of a record. -/
def description (record : Fields ν) : String :=
  " · ".intercalate (((scalars record).filter (·.2.number?.isNone)).map fun (key, value) =>
    humanize locale key ++ ": " ++ formatScalar locale value)

/-- A scalar has a row, unless it is the string or the boolean of a record that an array lists: these
describe the numbers of the record, and the record itself when it has none. -/
def Place.row : Place ν → Option ReportRow
  | scalar none path value =>
      let names := path.map (humanize locale)
      some ⟨sectionOf names, indicator names, "", formatScalar locale value⟩
  | scalar (some fields) path value =>
      let names := path.dropLast.map (humanize locale)
      let name := humanize locale (path.getLastD "")
      if value.number?.isSome then
        some ⟨sectionOf names, indicator names ++ " › " ++ name, description locale fields,
          formatScalar locale value⟩
      else none
  | record path fields =>
      let names := path.map (humanize locale)
      if (scalars fields).any (·.2.number?.isSome) then none
      else some ⟨sectionOf names, indicator names, description locale fields, ""⟩

/-! ## The rows of a snapshot -/

theorem dimensions_eq (record : Fields ν) :
    dimensions locale record = ((scalars record).filter (·.2.number?.isNone)).map fun (key, value) =>
      humanize locale key ++ ": " ++ formatScalar locale value := by
  induction record with
  | nil => rfl
  | cons field record ih =>
      obtain ⟨key, value⟩ := field
      cases value with
      | str | bool => exact congrArg (_ :: ·) ih
      | null | num | arr | obj => exact ih

theorem measurements_eq (record : Fields ν) :
    measurements locale record = ((scalars record).filter (·.2.number?.isSome)).map fun (key, value) =>
      (humanize locale key, formatScalar locale value) := by
  induction record with
  | nil => rfl
  | cons field record ih =>
      obtain ⟨key, value⟩ := field
      cases value with
      | num => exact congrArg (_ :: ·) ih
      | null | str | bool | arr | obj => exact ih

/-- A flat record has the places of its scalars. -/
theorem placesFields_flat {fields : Fields ν} (h : Flat fields) (owner : Option (Fields ν))
    (path : List String) : placesFields owner fields path =
      (scalars fields).map fun (key, value) => .scalar owner (path ++ [key]) value := by
  induction fields with
  | nil => rfl
  | cons field fields ih =>
      have hrest := ih fun field hfield => h field (.tail _ hfield)
      have hflat := h field (.head _)
      obtain ⟨key, value⟩ := field
      rw [placesFields, hrest]
      cases value with
      | null | str | num | bool => rfl
      | arr | obj => cases hflat

/-- The row of a field of a record that an array lists. -/
theorem row_field (record : Fields ν) (path : List String) (key : String) (value : Scalar ν) :
    Place.row locale (.scalar (some record) (path ++ [key]) value) =
      if value.number?.isSome then
        some ⟨sectionOf (path.map (humanize locale)),
          indicator (path.map (humanize locale)) ++ " › " ++ humanize locale key,
          description locale record, formatScalar locale value⟩
      else none := by
  simp only [Place.row, List.dropLast_concat, List.getLastD_concat]

/-- The rows of the fields of a record are those of its numbers. -/
theorem rows_fields (record : Fields ν) (path : List String) (fields : List (String × Scalar ν)) :
    (fields.map fun (key, value) => Place.scalar (some record) (path ++ [key]) value).filterMap
        (Place.row locale) =
      (fields.filter (·.2.number?.isSome)).map fun (key, value) =>
        ⟨sectionOf (path.map (humanize locale)),
          indicator (path.map (humanize locale)) ++ " › " ++ humanize locale key,
          description locale record, formatScalar locale value⟩ := by
  induction fields with
  | nil => rfl
  | cons field fields ih =>
      rw [List.map_cons, List.filterMap_cons, row_field, ih]
      by_cases h : field.2.number?.isSome = true
      · rw [if_pos h, List.filter_cons, if_pos h]
        rfl
      · rw [if_neg h, List.filter_cons, if_neg h]

/-- A flat record gives the rows of its places. -/
theorem appendAggregateRow_eq {record : Fields ν} (h : Flat record) (path : List String) :
    appendAggregateRow locale record (path.map (humanize locale)) =
      (Place.record path record :: placesFields (some record) record path).filterMap
        (Place.row locale) := by
  rw [placesFields_flat h, List.filterMap_cons, rows_fields, appendAggregateRow, measurements_eq,
    dimensions_eq, Place.row]
  by_cases hnumber : (scalars record).any (·.2.number?.isSome) = true
  · have hsome : ((scalars record).filter (·.2.number?.isSome)).length ≠ 0 := by
      obtain ⟨field, hmem, hfield⟩ := List.any_eq_true.1 hnumber
      exact (List.length_pos_of_mem (List.mem_filter.2 ⟨hmem, hfield⟩)).ne'
    rw [List.length_map, if_neg hsome, if_pos hnumber, List.map_map]
    rfl
  · have hnone : (scalars record).filter (·.2.number?.isSome) = [] := by
      rw [List.filter_eq_nil_iff]
      exact fun field hmem hfield => hnumber (List.any_eq_true.2 ⟨field, hmem, hfield⟩)
    rw [hnone, if_neg hnumber]
    rfl

/-- The item of an array is read like any other value, unless it is a record. -/
theorem flattenItems_cons {item : Json ν} (h : ∀ fields, item ≠ .obj fields) (items : List (Json ν))
    (path : List String) :
    flattenItems locale (item :: items) path =
      flatten locale item path ++ flattenItems locale items path := by
  cases item with
  | obj fields => exact absurd rfl (h fields)
  | null | str | num | bool | arr => rfl

theorem places_item {item : Json ν} (h : ∀ fields, item ≠ .obj fields) (owner : Option (Fields ν))
    (path : List String) : places true owner item path = places false owner item path := by
  cases item with
  | obj fields => exact absurd rfl (h fields)
  | null | str | num | bool | arr => rfl

/-- The records of the arrays among some places are flat. -/
def FlatRecords (ps : List (Place ν)) : Prop := ∀ fields ∈ ps.filterMap Place.record?, Flat fields

theorem FlatRecords.of_append {ps qs : List (Place ν)} (h : FlatRecords (ps ++ qs)) :
    FlatRecords ps ∧ FlatRecords qs := by
  rw [FlatRecords, List.filterMap_append] at h
  exact ⟨fun fields hfields => h fields (List.mem_append_left _ hfields),
    fun fields hfields => h fields (List.mem_append_right _ hfields)⟩

/-- The code writes the rows of the places of a value. -/
def Written (j : Json ν) : Prop :=
  ∀ path, FlatRecords (places false none j path) →
    flatten locale j (path.map (humanize locale)) =
      (places false none j path).filterMap (Place.row locale)

theorem flattenItems_eq {items : List (Json ν)} (ih : ∀ item ∈ items, Written locale item)
    (path : List String) (h : FlatRecords (placesItems none items path)) :
    flattenItems locale items (path.map (humanize locale)) =
      (placesItems none items path).filterMap (Place.row locale) := by
  induction items with
  | nil => rfl
  | cons item items ihitems =>
      obtain ⟨hitem, hitems⟩ := h.of_append
      have hrest := ihitems (fun item hmem => ih item (.tail _ hmem)) hitems
      by_cases hobj : ∃ fields, item = .obj fields
      · obtain ⟨fields, rfl⟩ := hobj
        have hflat : Flat fields := hitem fields (.head _)
        rw [flattenItems, placesItems, List.filterMap_append, hrest, appendAggregateRow_eq locale hflat]
        rfl
      · have hne : ∀ fields, item ≠ .obj fields := fun fields heq => hobj ⟨fields, heq⟩
        rw [places_item hne] at hitem
        rw [flattenItems_cons locale hne, placesItems, List.filterMap_append, hrest, places_item hne,
          ih item (.head _) path hitem]

theorem flattenFields_eq {fields : Fields ν} (ih : ∀ field ∈ fields, Written locale field.2)
    (path : List String) (h : FlatRecords (placesFields none fields path)) :
    flattenFields locale fields (path.map (humanize locale)) =
      (placesFields none fields path).filterMap (Place.row locale) := by
  induction fields with
  | nil => rfl
  | cons field fields ihfields =>
      obtain ⟨key, child⟩ := field
      obtain ⟨hchild, hfields⟩ := h.of_append
      have hrest := ihfields (fun field hmem => ih field (.tail _ hmem)) hfields
      have hrows := ih (key, child) (.head _) (path ++ [key]) hchild
      rw [List.map_append] at hrows
      rw [flattenFields, placesFields, List.filterMap_append, hrest, ← hrows]
      rfl

theorem flatten_eq (j : Json ν) : Written locale j := by
  induction j using Json.induction with
  | null | bool | num | str => exact fun _ _ => rfl
  | arr items ih => exact fun path h => flattenItems_eq locale ih path h
  | obj fields ih => exact fun path h => flattenFields_eq locale ih path h

/-- **No figure of a report is lost or doubled.** After the metadata stand the rows of the places of the
snapshot, and its numbers are those of the places. -/
theorem toReportRows_conserve (report : ReportForExport ν) (h : Snapshot report.data) :
    toReportRows locale report = metadataRows locale report ++
        (places false none report.data []).filterMap (Place.row locale) ∧
      (places false none report.data []).filterMap Place.number? = numbers report.data :=
  ⟨congrArg (metadataRows locale report ++ ·) (flatten_eq locale report.data [] h),
    number?_places report.data false none []⟩

/-- A summary and a breakdown. -/
def exampleReport : ReportForExport Nat where
  name := "Bilan"
  description := none
  type := "NATIONAL"
  periodStart := ⟨0⟩
  periodEnd := ⟨0⟩
  generatedAt := ⟨0⟩
  data := .obj [("summary", .obj [("totalSchools", .num 2)]),
    ("bySchool", .arr [.obj [("school", .str "A"), ("count", .num 3), ("city", .null)],
      .obj [("school", .str "B")]])]

def exampleLocale : Locale Nat := ⟨toString, Date.toISOString, (·.toUpper.toString)⟩

theorem toReportRows_conserve_example :
    toReportRows exampleLocale exampleReport = metadataRows exampleLocale exampleReport ++
        (places false none exampleReport.data []).filterMap (Place.row exampleLocale) ∧
      (places false none exampleReport.data []).filterMap Place.number? = numbers exampleReport.data :=
  toReportRows_conserve exampleLocale exampleReport (by decide)

example : (flatten exampleLocale exampleReport.data []).map ReportRow.cells =
    [["Summary", "Total Schools", "", "2"],
      ["By School", "By School › Count", "School: A", "3"],
      ["By School", "By School", "School: B", ""]] := by
  decide

end GetPlatform.Ministry
