import GetPlatform.Planning.World

set_option autoImplicit false

/-! # `AcademicYearService`

The academic years of the platform. A year that becomes the current one takes the flag away from the
others first, in a statement of its own. -/

namespace GetPlatform.Planning

def findOne (id : Id) : Call AcademicYear := do
  let some year ← send (.academicYearFindUnique id)
    | throw <| .NotFoundException "Année scolaire introuvable"
  return year

def assertDateOrder (startDate endDate : Int) : Call Unit := do
  if startDate ≥ endDate then
    throw <| .BadRequestException "La date de fin doit être postérieure à la date de début"

def assertLabelAvailable (label : String) : Call Unit := do
  if (← send (.academicYearFindUniqueByLabel (trim label))).isSome then
    throw <| .BadRequestException "Une année scolaire porte déjà ce nom"

/-- A check on a value that a request may leave out. -/
def ifGiven {α : Type} (value : Option α) (check : α → Call Unit) : Call Unit :=
  match value with
  | some a => check a
  | none => pure ()

/-- Take the flag away from the other years, if the request sets it. -/
def clearOthers (isCurrent : Option Bool) (excludedId : Option Id) : Call Unit := do
  if isCurrent = some true then
    let _ ← send (.academicYearUpdateManyCurrent excludedId)

def create (dto : CreateAcademicYearDto) : Call AcademicYear := do
  assertDateOrder dto.startDate dto.endDate
  assertLabelAvailable dto.label
  clearOthers dto.isCurrent none
  send (.academicYearCreate dto)

def update (id : Id) (dto : UpdateAcademicYearDto) : Call AcademicYear := do
  let year ← findOne id
  assertDateOrder (dto.startDate.getD year.startDate) (dto.endDate.getD year.endDate)
  ifGiven dto.label fun label => do
    if label ≠ "" ∧ trim label ≠ year.label then
      assertLabelAvailable label
  clearOthers dto.isCurrent (some id)
  send (.academicYearUpdate id dto)

def delete (id : Id) : Call Unit := do
  let _ ← findOne id
  let dependents ← send (.schoolClassCount id)
  if dependents > 0 then
    throw <| .BadRequestException
      "Impossible de supprimer une année scolaire déjà utilisée par des classes"
  send (.academicYearDelete id)

end GetPlatform.Planning
