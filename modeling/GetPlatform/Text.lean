import GetPlatform.Format.Chain
import Mathlib.Data.Fin.Basic
import Mathlib.Order.Fin.Basic
import Mathlib.Data.List.Infix
import Mathlib.Algebra.GroupWithZero.Nat

set_option autoImplicit false

/-! # Texts of the source language -/

namespace GetPlatform

/-- White space and line terminators. -/
def isSpace (c : Char) : Bool :=
  c.val ∈ [0x9, 0xA, 0xB, 0xC, 0xD, 0x20, 0xA0, 0x1680, 0x2028, 0x2029, 0x202F, 0x205F, 0x3000, 0xFEFF]
    ∨ 0x2000 ≤ c.val ∧ c.val ≤ 0x200A

def trim (text : String) : String :=
  .ofList (((text.toList.dropWhile isSpace).reverse.dropWhile isSpace).reverse)

/-- Write a text for every occurrence of a character. -/
def replaceAll (text : String) (c : Char) (replacement : String) : String :=
  .ofList (text.toList.flatMap fun d => if d = c then replacement.toList else [d])

/-- `text.includes(fragment)` -/
def includes (text fragment : String) : Bool := decide (fragment.toList <:+: text.toList)

theorem includes_append {fragment : String} {c : Char} (hc : c ∉ fragment.toList)
    (left right : String) :
    includes (left ++ .singleton c ++ right) fragment =
      (includes left fragment || includes right fragment) := by
  have hinfix : fragment.toList <:+: left.toList ++ c :: right.toList ↔ _ := infix_append_cons _ hc
  simp only [includes, String.toList_append, String.toList_singleton, List.append_assoc,
    List.singleton_append, hinfix, Bool.decide_or]

/-- What follows a prefix: `text.slice(prefix.length)` if `text.startsWith(prefix)`. -/
def afterPrefix (text start : String) : Option String :=
  if start.toList <+: text.toList then some (.ofList (text.toList.drop start.toList.length))
  else none

theorem afterPrefix_eq_some {text start rest : String} :
    afterPrefix text start = some rest ↔ text = start ++ rest := by
  unfold afterPrefix
  constructor
  · intro h
    split at h
    · rename_i hstart
      obtain ⟨tail, htail⟩ := hstart
      rw [← htail, List.drop_left, Option.some.injEq] at h
      rw [← h, ← String.toList_inj, String.toList_append, String.toList_ofList, htail]
    · exact absurd h (by simp)
  · rintro rfl
    rw [String.toList_append, if_pos (List.prefix_append _ _), List.drop_left,
      String.ofList_toList]

/-- `value || fallback` -/
def orDefault (value : Option String) (fallback : String) : String :=
  (value.filter (· ≠ "")).getD fallback

/-- `text.replace(/\/$/, '')` -/
def withoutSlash (text : String) : String :=
  if text.toList.getLast? = some '/' then .ofList text.toList.dropLast else text

/-- A text by its UTF-16 code units, which are what two texts are compared by. -/
abbrev CodeUnits := List (Fin 65536)

instance neZero_codeUnits : NeZero 65536 := ⟨by decide⟩

/-- `':'` -/
def colon : Fin 65536 := 58

end GetPlatform
