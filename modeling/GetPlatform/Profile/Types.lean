import GetPlatform.Format.Date
import GetPlatform.Store.Table

set_option autoImplicit false

/-! # Profiles of students and teachers

The columns that a student fills in, and the telephone number of a teacher. Telephone number, identity
card number and address are stored encrypted. -/

namespace GetPlatform.Profile

structure Student where
  id : String
  userId : String
  firstName : String
  lastName : String
  phone : Option String
  birthDate : Option Date
  cin : Option String
  bacYear : Option Int
  bacType : Option String
  address : Option String
  city : Option String
  region : Option String
  bio : Option String
  interests : List String
  skills : List String
  aspirations : List String
  profileCompleted : Bool
  deriving DecidableEq

structure Teacher where
  id : String
  phone : Option String
  deriving DecidableEq

instance : Keyed Student String := ⟨(·.id)⟩
instance : Keyed Teacher String := ⟨(·.id)⟩

end GetPlatform.Profile
