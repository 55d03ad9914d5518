import Mathlib.Data.Rat.Floor

set_option autoImplicit false

/-! # Numbers that may not be finite -/

inductive Number where
  | NaN
  | infinity (negative : Bool)
  | finite (value : Rat)
  deriving DecidableEq

namespace Number

end Number
