import GetPlatform.Ministry.Types

set_option autoImplicit false

/-! # `MinistryService`: application analytics

One pass over the records fills the groups and the counters; the groups are then sorted and cut. The
records are what the query returned, in the order it returned them. -/

namespace GetPlatform.Ministry

/-- `text || fallback` -/
def orElse (text : Option String) (fallback : String) : String :=
  match text with
  | some text => if text = "" then fallback else text
  | none => fallback

/-- `text || null` -/
def orNull (text : Option String) : Option String := text.filter (· ≠ "")

structure ResolvedAnalyticsFilters where
  «from» : Option Date
  «to» : Option Date
  limit : Nat

def periodRange (filters : ResolvedAnalyticsFilters) : PeriodRange :=
  ⟨filters.from.map Date.toISOString, filters.to.map Date.toISOString⟩

def toMonthKey (value : Date) : String :=
  toString value.getUTCFullYear ++ "-" ++ Date.padStart (value.getUTCMonth + 1) 2

/-! ## What a record counts for -/

namespace ApplicationRecord

def region (record : ApplicationRecord) : String := orElse record.offer.school.region UNKNOWN_REGION

def city (record : ApplicationRecord) : String := orElse record.offer.school.city UNKNOWN_CITY

def filiere (record : ApplicationRecord) : Filiere :=
  ⟨orElse (some record.offer.title) "Non renseignée", orNull (record.offer.program.map (·.name))⟩

def schoolDimension (record : ApplicationRecord) : SchoolDimension :=
  ⟨record.offer.school.name, record.region, record.city⟩

def schoolProgramme (record : ApplicationRecord) : SchoolProgramme :=
  ⟨record.offer.school.name, record.region, record.city, record.filiere.filiere,
    record.filiere.programme⟩

def period (record : ApplicationRecord) : Period := ⟨toMonthKey record.submittedAt⟩

def isAccepted (record : ApplicationRecord) : Bool :=
  ACCEPTED_APPLICATION_STATUSES.contains record.status

def isPending (record : ApplicationRecord) : Bool :=
  PENDING_APPLICATION_STATUSES.contains record.status

end ApplicationRecord

/-! ## Groups -/

section Increment

variable {δ : Type}

def Aggregate.increment (accepted pending : Bool) (a : Aggregate δ) : Aggregate δ :=
  { a with
    count := a.count + 1
    acceptedCount := if accepted then a.acceptedCount + 1 else a.acceptedCount
    pendingCount := if pending then a.pendingCount + 1 else a.pendingCount }

def incrementAggregate (map : Map String (Aggregate δ)) (key : String) (initial : Aggregate δ)
    (accepted pending : Bool) : Map String (Aggregate δ) :=
  map.set key (((map.get? key).getD initial).increment accepted pending)

end Increment

def Filiere.key (d : Filiere) : String :=
  Json.stringify (.arr [.str d.filiere, ofOption d.programme] : Json Nat)

def SchoolDimension.key (d : SchoolDimension) : String :=
  Json.stringify (.arr [.str d.school, .str d.region, .str d.city] : Json Nat)

def SchoolProgramme.key (d : SchoolProgramme) : String :=
  Json.stringify (.arr [.str d.school, .str d.region, .str d.city, .str d.filiere,
    ofOption d.programme] : Json Nat)

/-- What the pass over the records has collected. -/
structure Collected where
  byStatus : Map String Nat := .empty
  byRegion : Map String Nat := .empty
  byFiliere : Map String (Aggregate Filiere) := .empty
  bySchool : Map String (Aggregate SchoolDimension) := .empty
  bySchoolProgramme : Map String (Aggregate SchoolProgramme) := .empty
  byPeriod : Map String (Aggregate Period) := .empty
  acceptedCount : Nat := 0
  pendingCount : Nat := 0

/-- The body of the loop. -/
def Collected.add (c : Collected) (record : ApplicationRecord) : Collected :=
  let isAccepted := record.isAccepted
  let isPending := record.isPending
  { byStatus := c.byStatus.set record.status ((c.byStatus.get? record.status).getD 0 + 1)
    byRegion := c.byRegion.set record.region ((c.byRegion.get? record.region).getD 0 + 1)
    acceptedCount := if isAccepted then c.acceptedCount + 1 else c.acceptedCount
    pendingCount := if isPending then c.pendingCount + 1 else c.pendingCount
    byFiliere := incrementAggregate c.byFiliere record.filiere.key { dimension := record.filiere }
      isAccepted isPending
    bySchool := incrementAggregate c.bySchool record.schoolDimension.key
      { dimension := record.schoolDimension } isAccepted isPending
    bySchoolProgramme := incrementAggregate c.bySchoolProgramme record.schoolProgramme.key
      { dimension := record.schoolProgramme } isAccepted isPending
    byPeriod := incrementAggregate c.byPeriod record.period.period { dimension := record.period }
      isAccepted isPending }

def collect (records : List ApplicationRecord) : Collected := records.foldl Collected.add {}

/-! ## The result -/

section Sorting

variable (localeCompare : String → String → Int) {α : Type}

/-- By decreasing count, then by the text of the row. -/
def sortByCount (toJson : α → Json Nat) (count : α → Nat) (items : List α) : List α :=
  sortBy (compareByCount count (comparing (fun item => (toJson item).stringify) localeCompare)) items

/-- A breakdown: the rows of a group, sorted and cut. -/
def breakdown {δ : Type} [Dimension δ] (limit : Nat) (map : Map String (Aggregate δ)) :
    List (Aggregate δ) :=
  (sortByCount localeCompare Aggregate.toJson Aggregate.count map.values).take limit

def collectApplicationAnalytics (filters : ResolvedAnalyticsFilters)
    (records : List ApplicationRecord) : ApplicationAnalyticsResult :=
  let c := collect records
  { period := periodRange filters
    total := records.length
    acceptedCount := c.acceptedCount
    pendingCount := c.pendingCount
    byStatus := sortByCount localeCompare StatusCount.toJson StatusCount.count
      (c.byStatus.rows.map fun e => ⟨e.key, e.value⟩)
    byRegion := (sortByCount localeCompare RegionalAggregate.toJson RegionalAggregate.count
      (c.byRegion.rows.map fun e => ⟨e.key, e.value⟩)).take filters.limit
    byFiliere := breakdown localeCompare filters.limit c.byFiliere
    bySchool := breakdown localeCompare filters.limit c.bySchool
    bySchoolProgramme := breakdown localeCompare filters.limit c.bySchoolProgramme
    byPeriod := sortBy (comparing (·.dimension.period) localeCompare) c.byPeriod.values }

end Sorting

end GetPlatform.Ministry
