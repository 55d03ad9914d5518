import Mathlib.Tactic.IntervalCases
import Mathlib.Logic.Function.Basic

set_option autoImplicit false

/-! # JSON values and their texts

A `Json ν` is a value whose numbers are of type `ν`, with the fields of an object in the order they are
listed in. `stringify` writes it without white space. Two values with the same text are the same
(`stringify_injective`): the text of a value tells where it ends, whatever follows that may follow a
value. -/

inductive Json (ν : Type) where
  | null
  | bool (b : Bool)
  | num (n : ν)
  | str (s : String)
  | arr (items : List (Json ν))
  | obj (fields : List (String × Json ν))

namespace Json

/-! ## Induction -/

section Induction

variable {ν : Type} {P : Json ν → Prop} (null : P .null) (bool : ∀ b, P (.bool b))
  (num : ∀ n, P (.num n)) (str : ∀ s, P (.str s))
  (arr : ∀ items, (∀ item ∈ items, P item) → P (.arr items))
  (obj : ∀ fields, (∀ field ∈ fields, P field.2) → P (.obj fields))

include null bool num str arr obj

mutual

/-- What holds of an array when it does of its items, and of an object when it does of its fields,
holds of every value. -/
theorem induction : (j : Json ν) → P j
  | .null => null
  | .bool b => bool b
  | .num n => num n
  | .str s => str s
  | .arr items => arr items (induction_items items)
  | .obj fields => obj fields (induction_fields fields)

theorem induction_items : (items : List (Json ν)) → ∀ item ∈ items, P item
  | [] => nofun
  | first :: items => by
      intro item hitem
      rcases List.mem_cons.1 hitem with hfirst | hitem
      · exact hfirst ▸ induction first
      · exact induction_items items item hitem

theorem induction_fields : (fields : List (String × Json ν)) → ∀ field ∈ fields, P field.2
  | [] => nofun
  | (key, value) :: fields => by
      intro field hfield
      rcases List.mem_cons.1 hfield with hfirst | hfield
      · exact hfirst ▸ induction value
      · exact induction_fields fields field hfield

end

end Induction

/-! ## Strings -/

def hexDigit (n : Nat) : Char := if n < 10 then .ofNat (48 + n) else .ofNat (87 + n)

/-- A character between quotes. -/
def escape (c : Char) : List Char :=
  if c = '"' then ['\\', '"']
  else if c = '\\' then ['\\', '\\']
  else if c = '\x08' then ['\\', 'b']
  else if c = '\x0c' then ['\\', 'f']
  else if c = '\n' then ['\\', 'n']
  else if c = '\r' then ['\\', 'r']
  else if c = '\t' then ['\\', 't']
  else if c.toNat < 32 then ['\\', 'u', '0', '0', hexDigit (c.toNat / 16), hexDigit (c.toNat % 16)]
  else [c]

def quote (s : String) : List Char := '"' :: (s.toList.flatMap escape ++ ['"'])

/-- Read back what `escape` writes; anything else is not read. -/
def unescape : List Char → Option (Char × List Char)
  | [] => none
  | '"' :: _ => none
  | '\\' :: '"' :: rest => some ('"', rest)
  | '\\' :: '\\' :: rest => some ('\\', rest)
  | '\\' :: 'b' :: rest => some ('\x08', rest)
  | '\\' :: 'f' :: rest => some ('\x0c', rest)
  | '\\' :: 'n' :: rest => some ('\n', rest)
  | '\\' :: 'r' :: rest => some ('\r', rest)
  | '\\' :: 't' :: rest => some ('\t', rest)
  | '\\' :: 'u' :: '0' :: '0' :: a :: b :: rest =>
      ((List.range 32).find? fun n => hexDigit (n / 16) = a ∧ hexDigit (n % 16) = b).map
        (.ofNat ·, rest)
  | '\\' :: _ => none
  | c :: rest => some (c, rest)

theorem unescape_plain {c : Char} (hquote : c ≠ '"') (hslash : c ≠ '\\') (rest : List Char) :
    unescape (c :: rest) = some (c, rest) := by
  unfold unescape
  split <;> simp_all

theorem unescape_control (n : Nat) (h : n < 32) (rest : List Char) :
    unescape ('\\' :: 'u' :: '0' :: '0' :: hexDigit (n / 16) :: hexDigit (n % 16) :: rest) =
      some (.ofNat n, rest) := by
  have hfind : ∀ m < 32, (List.range 32).find? (fun k => hexDigit (k / 16) = hexDigit (m / 16) ∧
      hexDigit (k % 16) = hexDigit (m % 16)) = some m := by decide
  simp only [unescape, hfind n h, Option.map_some]

theorem unescape_escape (c : Char) (rest : List Char) :
    unescape (escape c ++ rest) = some (c, rest) := by
  unfold escape
  split_ifs with hquote hslash hb hf hn hr ht hcontrol
  · rw [hquote]
    rfl
  · rw [hslash]
    rfl
  · rw [hb]
    rfl
  · rw [hf]
    rfl
  · rw [hn]
    rfl
  · rw [hr]
    rfl
  · rw [ht]
    rfl
  · exact (unescape_control c.toNat hcontrol rest).trans (by rw [Char.ofNat_toNat])
  · exact unescape_plain hquote hslash rest

/-- The end of a string is not one of its characters. -/
theorem unescape_end (rest : List Char) : unescape ('"' :: rest) = none := rfl

theorem body_inj {s t u v : List Char}
    (h : s.flatMap escape ++ '"' :: u = t.flatMap escape ++ '"' :: v) : s = t ∧ u = v := by
  induction s generalizing t with
  | nil =>
      cases t with
      | nil => exact ⟨rfl, (List.cons.inj h).2⟩
      | cons d t =>
          rw [List.flatMap_cons, List.append_assoc] at h
          have hread := congrArg unescape h
          rw [unescape_escape] at hread
          cases hread
  | cons c s ih =>
      rw [List.flatMap_cons, List.append_assoc] at h
      have hread := congrArg unescape h
      rw [unescape_escape] at hread
      cases t with
      | nil => cases hread
      | cons d t =>
          rw [List.flatMap_cons, List.append_assoc, unescape_escape] at hread
          obtain ⟨rfl, hrest⟩ := Prod.mk.inj (Option.some.inj hread)
          obtain ⟨rfl, huv⟩ := ih hrest
          exact ⟨rfl, huv⟩

theorem quote_inj {s t : String} {u v : List Char} (h : quote s ++ u = quote t ++ v) :
    s = t ∧ u = v := by
  simp only [quote, List.cons_append, List.append_assoc, List.nil_append, List.cons.injEq,
    true_and] at h
  obtain ⟨hst, huv⟩ := body_inj h
  exact ⟨String.toList_injective hst, huv⟩

/-! ## Numbers -/

/-- The characters of a number. -/
def numeral (c : Char) : Bool := c.isDigit || c = '-' || c = '+' || c = '.' || c = 'e' || c = 'E'

/-- Numbers that have texts. -/
class Numeral (ν : Type) where
  digits : ν → List Char
  nonempty : ∀ n, digits n ≠ []
  numeral : ∀ n, ∀ c ∈ digits n, numeral c = true
  injective : Function.Injective digits

instance : Numeral Nat where
  digits := Nat.toDigits 10
  nonempty _ := Nat.toDigits_ne_nil
  numeral n c h := by
    rw [Json.numeral, Nat.isDigit_of_mem_toDigits (by decide) (by decide) h]
    rfl
  injective m n h := by
    rw [← Nat.ofDigitChars_ten_toDigits (n := m), h, Nat.ofDigitChars_ten_toDigits]

variable {ν : Type} [Numeral ν]

/-- Nothing follows, or what may follow a value. -/
def Ends (u : List Char) : Prop := ∀ c ∈ u.head?, c = ',' ∨ c = ']' ∨ c = '}'

theorem Ends.nil : Ends [] := nofun

theorem Ends.takeWhile {u : List Char} (h : Ends u) (n : ν) :
    (Numeral.digits n ++ u).takeWhile numeral = Numeral.digits n := by
  rw [List.takeWhile_append_of_pos (Numeral.numeral n)]
  cases u with
  | nil => simp
  | cons c u =>
      have hc : numeral c = false := by
        rcases h c rfl with rfl | rfl | rfl <;> rfl
      rw [List.takeWhile_cons_of_neg (by simp [hc]), List.append_nil]

theorem digits_inj {m n : ν} {u v : List Char} (hu : Ends u) (hv : Ends v)
    (h : Numeral.digits m ++ u = Numeral.digits n ++ v) : m = n ∧ u = v := by
  have hdigits : Numeral.digits m = Numeral.digits n := by
    rw [← hu.takeWhile m, h, hv.takeWhile n]
  rw [hdigits] at h
  exact ⟨Numeral.injective hdigits, List.append_cancel_left h⟩

/-! ## Values -/

mutual

def text : Json ν → List Char
  | .null => ['n', 'u', 'l', 'l']
  | .bool true => ['t', 'r', 'u', 'e']
  | .bool false => ['f', 'a', 'l', 's', 'e']
  | .num n => Numeral.digits n
  | .str s => quote s
  | .arr [] => ['[', ']']
  | .arr (item :: items) => '[' :: (text item ++ restItems items)
  | .obj [] => ['{', '}']
  | .obj ((key, value) :: fields) => '{' :: (quote key ++ ':' :: (text value ++ restFields fields))

/-- The items of an array after the first. -/
def restItems : List (Json ν) → List Char
  | [] => [']']
  | item :: items => ',' :: (text item ++ restItems items)

def restFields : List (String × Json ν) → List Char
  | [] => ['}']
  | (key, value) :: fields => ',' :: (quote key ++ ':' :: (text value ++ restFields fields))

end

/-- `JSON.stringify` -/
def stringify (j : Json ν) : String := .ofList j.text

/-! ## A text is the text of one value -/

/-- What a text is about, by its first character. -/
def lead (c : Char) : Nat :=
  if c = 'n' then 0
  else if c = 't' ∨ c = 'f' then 1
  else if c = '"' then 2
  else if c = '[' then 3
  else if c = '{' then 4
  else if c = ']' then 6
  else 5

omit [Numeral ν] in
def kind : Json ν → Nat
  | .null => 0
  | .bool _ => 1
  | .str _ => 2
  | .arr _ => 3
  | .obj _ => 4
  | .num _ => 5

theorem lead_numeral {c : Char} (h : numeral c = true) : lead c = 5 := by
  unfold lead
  split_ifs with hn ht hs ha ho he
  · rw [hn] at h
    cases h
  · rcases ht with rfl | rfl <;> cases h
  · rw [hs] at h
    cases h
  · rw [ha] at h
    cases h
  · rw [ho] at h
    cases h
  · rw [he] at h
    cases h
  · rfl

theorem text_lead (j : Json ν) : ∃ c rest, text j = c :: rest ∧ lead c = kind j := by
  match j with
  | .null => exact ⟨'n', _, rfl, rfl⟩
  | .bool true => exact ⟨'t', _, rfl, rfl⟩
  | .bool false => exact ⟨'f', _, rfl, rfl⟩
  | .str s => exact ⟨'"', _, rfl, rfl⟩
  | .arr [] => exact ⟨'[', _, rfl, rfl⟩
  | .arr (_ :: _) => exact ⟨'[', _, rfl, rfl⟩
  | .obj [] => exact ⟨'{', _, rfl, rfl⟩
  | .obj ((_, _) :: _) => exact ⟨'{', _, rfl, rfl⟩
  | .num n =>
      obtain ⟨c, rest, hdigits⟩ := List.exists_cons_of_ne_nil (Numeral.nonempty n)
      refine ⟨c, rest, by rw [text, hdigits], lead_numeral (Numeral.numeral n c ?_)⟩
      rw [hdigits]
      exact .head _

theorem kind_eq {a b : Json ν} {u v : List Char} (h : text a ++ u = text b ++ v) :
    kind a = kind b := by
  obtain ⟨c, rest, ha, hc⟩ := text_lead a
  obtain ⟨d, rest', hb, hd⟩ := text_lead b
  rw [ha, hb, List.cons_append, List.cons_append] at h
  rw [← hc, ← hd, (List.cons.inj h).1]

theorem ends_restItems (items : List (Json ν)) (u : List Char) : Ends (restItems items ++ u) := by
  rintro c hc
  cases items with
  | nil => exact .inr (.inl (Option.some.inj hc).symm)
  | cons item items =>
      rw [restItems] at hc
      exact .inl (Option.some.inj hc).symm

theorem ends_restFields (fields : List (String × Json ν)) (u : List Char) :
    Ends (restFields fields ++ u) := by
  rintro c hc
  match fields with
  | [] => exact .inr (.inr (Option.some.inj hc).symm)
  | (_, _) :: _ =>
      rw [restFields] at hc
      exact .inl (Option.some.inj hc).symm

/-- The end of an array is not the start of a value. -/
theorem text_ne_end (j : Json ν) (u v : List Char) : text j ++ u ≠ ']' :: v := by
  intro h
  obtain ⟨c, rest, hj, hc⟩ := text_lead j
  rw [hj, List.cons_append] at h
  rw [(List.cons.inj h).1] at hc
  cases j <;> cases hc

mutual

theorem text_inj : (a b : Json ν) → (u v : List Char) → Ends u → Ends v →
    text a ++ u = text b ++ v → a = b ∧ u = v
  | .null, b, u, v, _, _, h => by
      have hkind := kind_eq h
      cases b with
      | null => exact ⟨rfl, List.append_cancel_left h⟩
      | _ => cases hkind
  | .bool x, b, u, v, _, _, h => by
      have hkind := kind_eq h
      cases b with
      | bool y =>
          cases x <;> cases y
          · exact ⟨rfl, List.append_cancel_left h⟩
          · simp [text] at h
          · simp [text] at h
          · exact ⟨rfl, List.append_cancel_left h⟩
      | _ => cases hkind
  | .num m, b, u, v, hu, hv, h => by
      have hkind := kind_eq h
      cases b with
      | num n =>
          rw [text, text] at h
          obtain ⟨rfl, huv⟩ := digits_inj hu hv h
          exact ⟨rfl, huv⟩
      | _ => cases hkind
  | .str s, b, u, v, _, _, h => by
      have hkind := kind_eq h
      cases b with
      | str t =>
          rw [text, text] at h
          obtain ⟨rfl, huv⟩ := quote_inj h
          exact ⟨rfl, huv⟩
      | _ => cases hkind
  | .arr [], b, u, v, _, _, h => by
      have hkind := kind_eq h
      match b with
      | .arr [] => exact ⟨rfl, List.append_cancel_left h⟩
      | .arr (y :: ys) =>
          simp only [text, List.cons_append, List.append_assoc, List.cons.injEq, true_and] at h
          exact absurd h.symm (text_ne_end y _ _)
      | .null | .bool _ | .num _ | .str _ | .obj _ => cases hkind
  | .arr (x :: xs), b, u, v, _, _, h => by
      have hkind := kind_eq h
      match b with
      | .arr [] =>
          simp only [text, List.cons_append, List.append_assoc, List.cons.injEq, true_and] at h
          exact absurd h (text_ne_end x _ _)
      | .arr (y :: ys) =>
          simp only [text, List.cons_append, List.append_assoc, List.cons.injEq, true_and] at h
          obtain ⟨rfl, hrest⟩ := text_inj x y _ _ (ends_restItems xs u) (ends_restItems ys v) h
          obtain ⟨rfl, huv⟩ := restItems_inj xs ys u v hrest
          exact ⟨rfl, huv⟩
      | .null | .bool _ | .num _ | .str _ | .obj _ => cases hkind
  | .obj [], b, u, v, _, _, h => by
      have hkind := kind_eq h
      match b with
      | .obj [] => exact ⟨rfl, List.append_cancel_left h⟩
      | .obj ((_, _) :: _) => simp [text, quote] at h
      | .null | .bool _ | .num _ | .str _ | .arr _ => cases hkind
  | .obj ((k, x) :: xs), b, u, v, _, _, h => by
      have hkind := kind_eq h
      match b with
      | .obj [] => simp [text, quote] at h
      | .obj ((l, y) :: ys) =>
          simp only [text, List.cons_append, List.append_assoc, List.cons.injEq, true_and] at h
          obtain ⟨rfl, hvalue⟩ := quote_inj h
          obtain ⟨rfl, hrest⟩ := text_inj x y _ _ (ends_restFields xs u) (ends_restFields ys v)
            (List.cons.inj hvalue).2
          obtain ⟨rfl, huv⟩ := restFields_inj xs ys u v hrest
          exact ⟨rfl, huv⟩
      | .null | .bool _ | .num _ | .str _ | .arr _ => cases hkind

theorem restItems_inj : (xs ys : List (Json ν)) → (u v : List Char) →
    restItems xs ++ u = restItems ys ++ v → xs = ys ∧ u = v
  | [], [], u, v, h => ⟨rfl, List.append_cancel_left h⟩
  | [], _ :: _, u, v, h => by simp [restItems] at h
  | _ :: _, [], u, v, h => by simp [restItems] at h
  | x :: xs, y :: ys, u, v, h => by
      rw [restItems, restItems, List.cons_append, List.cons_append, List.append_assoc,
        List.append_assoc] at h
      obtain ⟨rfl, hrest⟩ := text_inj x y _ _ (ends_restItems xs u) (ends_restItems ys v)
        (List.cons.inj h).2
      obtain ⟨rfl, huv⟩ := restItems_inj xs ys u v hrest
      exact ⟨rfl, huv⟩

theorem restFields_inj : (xs ys : List (String × Json ν)) → (u v : List Char) →
    restFields xs ++ u = restFields ys ++ v → xs = ys ∧ u = v
  | [], [], u, v, h => ⟨rfl, List.append_cancel_left h⟩
  | [], (_, _) :: _, u, v, h => by simp [restFields] at h
  | (_, _) :: _, [], u, v, h => by simp [restFields] at h
  | (k, x) :: xs, (l, y) :: ys, u, v, h => by
      simp only [restFields, List.cons_append, List.append_assoc, List.cons.injEq, true_and] at h
      obtain ⟨rfl, hvalue⟩ := quote_inj h
      obtain ⟨rfl, hrest⟩ := text_inj x y _ _ (ends_restFields xs u) (ends_restFields ys v)
        (List.cons.inj hvalue).2
      obtain ⟨rfl, huv⟩ := restFields_inj xs ys u v hrest
      exact ⟨rfl, huv⟩

end

theorem stringify_injective : Function.Injective (stringify : Json ν → String) := by
  intro a b h
  have htext : text a ++ [] = text b ++ [] := by
    rw [List.append_nil, List.append_nil]
    exact String.ofList_injective h
  exact (text_inj a b [] [] .nil .nil htext).1

example : stringify (.arr [.str "\"é\"", .null, .num 20] : Json Nat) = "[\"\\\"é\\\"\",null,20]" := by
  decide

end Json
