import GetPlatform.Profile.EncryptionService
import GetPlatform.Profile.Types

set_option autoImplicit false

/-! # Updating the profile of a student

A request supplies some of the fields. What it supplies is laid over the row to tell whether the profile
is complete, and written to the row by rules of its own: some fields are skipped where they are empty,
and three are encrypted. -/

namespace GetPlatform.Profile

/-! ## Values and objects -/

/-- A value of a property. `date none` is an invalid date. -/
inductive Value where
  | undefined
  | null
  | string (s : String)
  | number (n : Int)
  | date (d : Option Date)
  | strings (l : List String)
  deriving DecidableEq

def Value.truthy : Value → Bool
  | undefined => false
  | null => false
  | string s => s ≠ ""
  | number n => n ≠ 0
  | date _ => true
  | strings _ => true

def Value.ofText : Option String → Value
  | none => null
  | some s => string s

def Value.ofNumber : Option Int → Value
  | none => null
  | some n => number n

def Value.ofDate : Option Date → Value
  | none => null
  | some d => date (some d)

inductive Field where
  | firstName | lastName | phone | birthDate | cin | bacYear | bacType | city | address | region | bio
  | interests | skills | aspirations
  deriving DecidableEq

/-- The properties that an object has of its own. -/
abbrev Object := Field → Option Value

def Object.get (o : Object) (field : Field) : Value := (o field).getD .undefined

/-- `{ ...a, ...b }` -/
def spread (a b : Object) : Object := fun field => (b field).or (a field)

def Student.object (student : Student) : Object
  | .firstName => some (.string student.firstName)
  | .lastName => some (.string student.lastName)
  | .phone => some (.ofText student.phone)
  | .birthDate => some (.ofDate student.birthDate)
  | .cin => some (.ofText student.cin)
  | .bacYear => some (.ofNumber student.bacYear)
  | .bacType => some (.ofText student.bacType)
  | .city => some (.ofText student.city)
  | .address => some (.ofText student.address)
  | .region => some (.ofText student.region)
  | .bio => some (.ofText student.bio)
  | .interests => some (.strings student.interests)
  | .skills => some (.strings student.skills)
  | .aspirations => some (.strings student.aspirations)

/-- An instance of the class. -/
structure UpdateStudentProfileDto where
  value : Field → Value

/-- Every field of the class is a property of the instance, also where it was not supplied. -/
def UpdateStudentProfileDto.object (dto : UpdateStudentProfileDto) : Object :=
  fun field => some (dto.value field)

/-! ## Validation -/

/-- `isLength`, which does not count variation selectors. -/
def isLength (text : String) (min max : Nat) : Bool :=
  let length := (text.toList.filter fun c => c.val ≠ 0xFE0E ∧ c.val ≠ 0xFE0F).length
  min ≤ length ∧ length ≤ max

/-- `@IsOptional()`, then the other checks of the field. -/
def accepts (isDateString : String → Bool) : Field → Value → Bool
  | _, .undefined => true
  | _, .null => true
  | .firstName, .string s => isLength s 2 50
  | .lastName, .string s => isLength s 2 50
  | .birthDate, .string s => isDateString s
  | .bacYear, .number _ => true
  | .interests, .strings _ => true
  | .skills, .strings _ => true
  | .aspirations, .strings _ => true
  | .phone, .string _ => true
  | .cin, .string _ => true
  | .bacType, .string _ => true
  | .city, .string _ => true
  | .address, .string _ => true
  | .region, .string _ => true
  | .bio, .string _ => true
  | _, _ => false

/-- The instance passes validation. -/
def Accepted (isDateString : String → Bool) (dto : UpdateStudentProfileDto) : Prop :=
  ∀ field, accepts isDateString field (dto.value field) = true

/-! ## Completion -/

/-- `f !== null && f !== undefined && f !== ''` -/
def isFilled (value : Value) : Bool := value ≠ .null ∧ value ≠ .undefined ∧ value ≠ .string ""

def completionFields : List Field :=
  [.firstName, .lastName, .phone, .birthDate, .cin, .bacYear, .city, .bio]

def calculateProfileCompletion (student : Object) : Bool :=
  let fields := completionFields.map student.get
  let filled := (fields.filter isFilled).length
  -- filled / fields.length >= 0.7
  7 * fields.length ≤ 10 * filled

/-! ## Writing the row -/

/-- A column that is not written keeps its value, and one that is required cannot be `null`. -/
def requiredText (old : String) : Value → Option String
  | .undefined => some old
  | .string s => some s
  | _ => none

def optionalText (old : Option String) : Value → Option (Option String)
  | .undefined => some old
  | .null => some none
  | .string s => some (some s)
  | _ => none

/-- A column of 32 bits. -/
def optionalInt (old : Option Int) : Value → Option (Option Int)
  | .undefined => some old
  | .null => some none
  | .number n => if -2147483648 ≤ n ∧ n ≤ 2147483647 then some (some n) else none
  | _ => none

def optionalDate (old : Option Date) : Value → Option (Option Date)
  | .undefined => some old
  | .null => some none
  | .date (some d) => some (some d)
  | _ => none

def textList (old : List String) : Value → Option (List String)
  | .undefined => some old
  | .strings l => some l
  | _ => none

/-- `student.update`, which fails where a value does not fit its column. -/
def Student.write (data : Field → Value) (profileCompleted : Bool) (student : Student) :
    Option Student := do
  let firstName ← requiredText student.firstName (data .firstName)
  let lastName ← requiredText student.lastName (data .lastName)
  let phone ← optionalText student.phone (data .phone)
  let birthDate ← optionalDate student.birthDate (data .birthDate)
  let cin ← optionalText student.cin (data .cin)
  let bacYear ← optionalInt student.bacYear (data .bacYear)
  let bacType ← optionalText student.bacType (data .bacType)
  let city ← optionalText student.city (data .city)
  let address ← optionalText student.address (data .address)
  let region ← optionalText student.region (data .region)
  let bio ← optionalText student.bio (data .bio)
  let interests ← textList student.interests (data .interests)
  let skills ← textList student.skills (data .skills)
  let aspirations ← textList student.aspirations (data .aspirations)
  return {
    student with firstName, lastName, phone, birthDate, cin, bacYear, bacType, city, address, region, bio
                 interests, skills, aspirations, profileCompleted }

/-! ## The service -/

inductive Failure where
  | NotFoundException (message : String)
  | BadRequestException (message : String)
  | database
  deriving DecidableEq

/-- The IVs that are drawn, or `none` where the source of randomness fails. -/
structure Draws where
  phone : Option Iv
  cin : Option Iv
  address : Option Iv

variable (cipher : Cipher) (service : EncryptionService) (parseDate : String → Option Date)

/-- `if (value) data.field = encrypt(value)` -/
def secure (iv : Option Iv) (message : String) (value : Value) : Except Failure Value :=
  if value.truthy then
    match iv, value with
    | some iv, .string text => .ok (.string (service.encrypt cipher iv text))
    | _, _ => .error (.BadRequestException message)
  else .ok .undefined

/-- `value ? new Date(value) : undefined` -/
def toDate : Value → Value
  | .string s => if s ≠ "" then .date (parseDate s) else .undefined
  | .number n => if n ≠ 0 then .date (some ⟨n⟩) else .undefined
  | .date d => .date d
  | .strings _ => .date none
  | _ => .undefined

def updateProfile (draws : Draws) (students : Table Student) (userId : String)
    (dto : UpdateStudentProfileDto) : Except Failure (Student × Table Student) := do
  let some student := students.rows.find? fun student => student.userId = userId
    | throw (.NotFoundException "Student not found")
  let profileCompleted := calculateProfileCompletion (spread student.object dto.object)
  let phone ← secure cipher service draws.phone
    "Impossible de sécuriser le numéro de téléphone, réessayez plus tard" (dto.value .phone)
  let cin ← secure cipher service draws.cin "Impossible de sécuriser le CIN, réessayez plus tard"
    (dto.value .cin)
  let address ← secure cipher service draws.address
    "Impossible de sécuriser l’adresse, réessayez plus tard" (dto.value .address)
  let data : Field → Value
    | .phone => phone
    | .cin => cin
    | .address => address
    | .birthDate => toDate parseDate (dto.value .birthDate)
    | field => dto.value field
  let some updatedStudent := student.write data profileCompleted | throw .database
  let stored := students.put updatedStudent
  return (updatedStudent, stored)

end GetPlatform.Profile
