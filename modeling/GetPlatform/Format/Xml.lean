import Mathlib.Data.List.Basic
import Mathlib.Data.List.Infix

set_option autoImplicit false

/-! # XML documents

A reader of the XML 1.0 documents that are made of elements, attributes, text and the five predefined
entities, after an XML declaration. It takes what a document may hold: the characters of production
`[2]`, and line ends in one spelling. Then the text is cut into tags and what stands between them
(`lex`), and the tags are matched (`build`). -/

namespace Xml

abbrev Text := List Char

/-! ## Characters -/

def inRanges (ranges : List (Nat × Nat)) (c : Char) : Bool :=
  ranges.any fun (low, high) => low ≤ c.toNat && c.toNat ≤ high

/-- Production `[2]`: what a document may hold, in whatever spelling. -/
def isChar : Char → Bool :=
  inRanges [(0x9, 0xA), (0xD, 0xD), (0x20, 0xD7FF), (0xE000, 0xFFFD), (0x10000, 0x10FFFF)]

def isSpace (c : Char) : Bool := c ∈ [' ', '\t', '\n', '\r']

/-- Production `[4]` -/
def isNameStart : Char → Bool :=
  inRanges [(0x3A, 0x3A), (0x41, 0x5A), (0x5F, 0x5F), (0x61, 0x7A), (0xC0, 0xD6), (0xD8, 0xF6),
    (0xF8, 0x2FF), (0x370, 0x37D), (0x37F, 0x1FFF), (0x200C, 0x200D), (0x2070, 0x218F),
    (0x2C00, 0x2FEF), (0x3001, 0xD7FF), (0xF900, 0xFDCF), (0xFDF0, 0xFFFD), (0x10000, 0xEFFFF)]

def isNameChar (c : Char) : Bool :=
  isNameStart c || inRanges [(0x2D, 0x2E), (0x30, 0x39), (0xB7, 0xB7), (0x300, 0x36F), (0x203F, 0x2040)] c

def isName (name : Text) : Bool := name.head?.any isNameStart && name.all isNameChar

/-- A carriage return is read as a line feed, together with the line feed after it. -/
def normalizeAfter (returned : Bool) : Text → Text
  | [] => []
  | c :: rest =>
      if c = '\n' ∧ returned then normalizeAfter false rest
      else if c = '\r' then '\n' :: normalizeAfter true rest
      else c :: normalizeAfter false rest

def normalizeLineEnds (text : Text) : Text := normalizeAfter false text

/-! ## Text between tags -/

def entity (name : Text) : Option Char :=
  if name = ['a', 'm', 'p'] then some '&'
  else if name = ['l', 't'] then some '<'
  else if name = ['g', 't'] then some '>'
  else if name = ['q', 'u', 'o', 't'] then some '"'
  else if name = ['a', 'p', 'o', 's'] then some '\''
  else none

/-- Read references, perhaps from within one. -/
def unescapeFrom : Option Text → Text → Option Text
  | none, [] => some []
  | some _, [] => none
  | none, c :: rest =>
      if c = '&' then unescapeFrom (some []) rest
      else if c = '<' then none
      else (unescapeFrom none rest).map (c :: ·)
  | some name, c :: rest =>
      if c = ';' then (entity name).bind fun d => (unescapeFrom none rest).map (d :: ·)
      else unescapeFrom (some (name ++ [c])) rest

def unescape (text : Text) : Option Text := unescapeFrom none text

/-! ## Tags -/

inductive Token where
  | declaration (attributes : List (Text × Text))
  | «open» (name : Text) (attributes : List (Text × Text))
  | close (name : Text)
  | text (text : Text)
  deriving DecidableEq

/-- What stands between the quotes of an attribute. -/
def attributeValue (value : Text) : Option Text :=
  (unescape value).map (·.map fun c => if isSpace c then ' ' else c)

/-- Attributes, each after white space. -/
def attributes : Nat → Text → Option (List (Text × Text))
  | 0, _ => none
  | fuel + 1, text =>
      let start := text.dropWhile isSpace
      let name := start.takeWhile isNameChar
      if start = [] then some []
      else if start.length = text.length ∨ ¬ isName name then none
      else
        match (start.drop name.length).dropWhile isSpace with
        | '=' :: rest =>
            match rest.dropWhile isSpace with
            | quote :: rest =>
                let value := rest.takeWhile (· ≠ quote)
                if (quote ≠ '"' ∧ quote ≠ '\'') ∨ value.length = rest.length then none
                else do
                  let value' ← attributeValue value
                  let others ← attributes fuel (rest.drop (value.length + 1))
                  if name ∈ others.map (·.1) then none else some ((name, value') :: others)
            | [] => none
        | _ => none

/-- What stands between the brackets of a tag. -/
def tag (body : Text) : Option Token :=
  match body with
  | '/' :: rest =>
      let name := rest.takeWhile isNameChar
      if isName name ∧ (rest.drop name.length).all isSpace then some (.close name) else none
  | '?' :: 'x' :: 'm' :: 'l' :: rest =>
      if rest.getLast? = some '?' then (attributes rest.length rest.dropLast).map .declaration else none
  | _ =>
      let name := body.takeWhile isNameChar
      if isName name then
        (attributes (body.length + 1) (body.drop name.length)).map (.open name)
      else none

/-- The quote that a character leaves open, unless it ends the tag. -/
def tagStep (quote : Option Char) (c : Char) : Option (Option Char) :=
  if c = '<' then none
  else match quote with
    | some q => some (if c = q then none else some q)
    | none => if c = '>' then none else some (if c = '"' ∨ c = '\'' then some c else none)

/-- The text that has been read, if any. What ends a section of raw text may not stand in it. -/
def flush (text : Text) : Option (List Token) :=
  if text = [] then some []
  else if [']', ']', '>'] <:+: text then none
  else (unescape text).map fun text => [.text text]

inductive State where
  | text (read : Text)
  | tag (read : Text) (quote : Option Char)

/-- Cut a text into tags and what stands between them. -/
def lex : State → Text → Option (List Token)
  | .text read, [] => flush read
  | .tag _ _, [] => none
  | .text read, c :: rest =>
      if c = '<' then
        (flush read).bind fun before => (lex (.tag [] none) rest).map (before ++ ·)
      else lex (.text (read ++ [c])) rest
  | .tag read quote, c :: rest =>
      match tagStep quote c with
      | some quote => lex (.tag (read ++ [c]) quote) rest
      | none =>
          if c = '>' then (tag read).bind fun token => (lex (.text []) rest).map (token :: ·) else none

/-! ## Elements -/

inductive Node where
  | text (text : Text)
  | element (name : Text) (attributes : List (Text × Text)) (children : List Node)

/-- An element that is not closed yet. -/
structure Frame where
  name : Text
  attributes : List (Text × Text)
  children : List Node

def Frame.add (frame : Frame) (node : Node) : Frame :=
  { frame with children := frame.children ++ [node] }

def Frame.close (frame : Frame) : Node := .element frame.name frame.attributes frame.children

def Token.isBlank : Token → Bool
  | .text content => content.all isSpace
  | _ => false

/-- Match the tags, the innermost open element first. The document is its one outermost element. -/
def build : List Frame → List Token → Option Node
  | _, [] => none
  | [], .open name attributes :: rest => build [⟨name, attributes, []⟩] rest
  | [], _ :: _ => none
  | frame :: frames, .text text :: rest => build (frame.add (.text text) :: frames) rest
  | frame :: frames, .open name attributes :: rest =>
      build (⟨name, attributes, []⟩ :: frame :: frames) rest
  | [frame], .close name :: rest =>
      if name = frame.name ∧ rest.all Token.isBlank then some frame.close else none
  | frame :: parent :: frames, .close name :: rest =>
      if name = frame.name then build (parent.add frame.close :: frames) rest else none
  | _ :: _, .declaration _ :: _ => none

/-- A declaration may only come first. -/
def document : List Token → Option Node
  | .declaration attributes :: tokens =>
      if ("version".toList, "1.0".toList) ∈ attributes then build [] (tokens.dropWhile Token.isBlank)
      else none
  | tokens => build [] (tokens.dropWhile Token.isBlank)

def readNormalized (text : Text) : Option Node := (lex (.text []) text).bind document

def read (text : Text) : Option Node :=
  if text.all isChar then readNormalized (normalizeLineEnds text) else none

def WellFormed (text : Text) : Prop := (read text).isSome = true

example :
    (read "<?xml version=\"1.0\"?>\n<a b='c>' d=\"e\">&amp;<f></f>\n</a>".toList).isSome = true ∧
      (read "<a>\x01</a>".toList).isSome = false ∧ (read "<a><b></a></b>".toList).isSome = false := by
  decide +kernel

/-! ## Escaped text -/

def escapeChar (c : Char) : Text :=
  if c = '&' then ['&', 'a', 'm', 'p', ';']
  else if c = '<' then ['&', 'l', 't', ';']
  else if c = '>' then ['&', 'g', 't', ';']
  else if c = '"' then ['&', 'q', 'u', 'o', 't', ';']
  else if c = '\'' then ['&', 'a', 'p', 'o', 's', ';']
  else [c]

def escape (text : Text) : Text := text.flatMap escapeChar

/-- What holds of the five entities, and of every other character, holds of every escaped one. -/
theorem escapeChar_cases {P : Char → Text → Prop} (amp : P '&' ['&', 'a', 'm', 'p', ';'])
    (lt : P '<' ['&', 'l', 't', ';']) (gt : P '>' ['&', 'g', 't', ';'])
    (quot : P '"' ['&', 'q', 'u', 'o', 't', ';']) (apos : P '\'' ['&', 'a', 'p', 'o', 's', ';'])
    (plain : ∀ c, c ≠ '&' → c ≠ '<' → c ≠ '>' → P c [c]) (c : Char) : P c (escapeChar c) := by
  unfold escapeChar
  split_ifs with hamp hlt hgt hquot hapos
  · exact hamp ▸ amp
  · exact hlt ▸ lt
  · exact hgt ▸ gt
  · exact hquot ▸ quot
  · exact hapos ▸ apos
  · exact plain c hamp hlt hgt

theorem unescapeFrom_escapeChar (rest : Text) (c : Char) :
    unescapeFrom none (escapeChar c ++ rest) = (unescapeFrom none rest).map (c :: ·) := by
  refine escapeChar_cases (P := fun c text =>
    unescapeFrom none (text ++ rest) = (unescapeFrom none rest).map (c :: ·)) rfl rfl rfl rfl rfl ?_ c
  intro c hamp hlt _
  simp [unescapeFrom, hamp, hlt]

theorem unescape_escape (text : Text) : unescape (escape text) = some text := by
  induction text with
  | nil => rfl
  | cons c text ih =>
      rw [escape, List.flatMap_cons, unescape, unescapeFrom_escapeChar]
      exact congrArg (Option.map (c :: ·)) ih

theorem bracket_of_escapeChar : ∀ d, ∀ c ∈ escapeChar d, c ≠ '<' ∧ c ≠ '>' := by
  refine escapeChar_cases (P := fun _ text => ∀ c ∈ text, c ≠ '<' ∧ c ≠ '>') (by simp) (by simp)
    (by simp) (by simp) (by simp) ?_
  intro d _ hlt hgt c hc
  rw [List.mem_singleton.1 hc]
  exact ⟨hlt, hgt⟩

/-- No bracket stands in escaped text. -/
theorem bracket_of_escape {text : Text} {c : Char} (h : c ∈ escape text) : c ≠ '<' ∧ c ≠ '>' := by
  obtain ⟨d, _, hc⟩ := List.mem_flatMap.1 h
  exact bracket_of_escapeChar d c hc

/-- The token of a text between tags. -/
def content (text : Text) : List Token := if text = [] then [] else [.text text]

theorem escape_eq_nil {text : Text} : escape text = [] ↔ text = [] := by
  constructor
  · intro h
    have hread := unescape_escape text
    rw [h] at hread
    exact (Option.some.inj hread).symm
  · rintro rfl
    rfl

theorem flush_escape (text : Text) : flush (escape text) = some (content text) := by
  have hend : ¬ [']', ']', '>'] <:+: escape text :=
    fun h => (bracket_of_escape (h.subset (by decide : '>' ∈ [']', ']', '>']))).2 rfl
  rw [flush, content, if_neg hend, unescape_escape]
  by_cases h : text = []
  · rw [if_pos (escape_eq_nil.2 h), if_pos h]
  · rw [if_neg fun hnil => h (escape_eq_nil.1 hnil), if_neg h]
    rfl

/-- A document of escaped text holds the characters of the text, and markup. -/
theorem all_isChar_escape (text : Text) : (escape text).all isChar = text.all isChar := by
  have hchar : ∀ c, (escapeChar c).all isChar = isChar c :=
    escapeChar_cases (P := fun c text => text.all isChar = isChar c) (by decide) (by decide)
      (by decide) (by decide) (by decide) fun c _ _ _ => by simp
  rw [escape, List.all_flatMap]
  exact congrArg text.all (funext hchar)

/-! ## Line ends -/

theorem normalizeAfter_append {a b : Text} (hb : b.head? ≠ some '\n') (returned : Bool) :
    normalizeAfter returned (a ++ b) = normalizeAfter returned a ++ normalizeLineEnds b := by
  induction a generalizing returned with
  | nil =>
      cases b with
      | nil => rfl
      | cons c b =>
          have hc : c ≠ '\n' := fun h => hb (congrArg some h)
          simp [normalizeAfter, normalizeLineEnds, hc]
  | cons c a ih =>
      rw [List.cons_append, normalizeAfter, normalizeAfter]
      split_ifs
      · exact ih false
      · exact congrArg (_ :: ·) (ih true)
      · exact congrArg (_ :: ·) (ih false)

theorem normalizeLineEnds_append {a b : Text} (hb : b.head? ≠ some '\n') :
    normalizeLineEnds (a ++ b) = normalizeLineEnds a ++ normalizeLineEnds b :=
  normalizeAfter_append hb false

theorem return_not_mem (returned : Bool) (text : Text) : '\r' ∉ normalizeAfter returned text := by
  induction text generalizing returned with
  | nil => exact List.not_mem_nil
  | cons c text ih =>
      rw [normalizeAfter]
      split_ifs with hfeed hreturn
      · exact ih false
      · intro h
        rcases List.mem_cons.1 h with h | h
        · exact absurd h (by decide)
        · exact ih true h
      · intro h
        rcases List.mem_cons.1 h with h | h
        · exact hreturn h.symm
        · exact ih false h

theorem normalizeAfter_escapeChar (returned : Bool) (c : Char) (rest : Text) :
    normalizeAfter returned (escapeChar c ++ rest) =
      if c = '\n' ∧ returned then normalizeAfter false rest
      else if c = '\r' then '\n' :: normalizeAfter true rest
      else escapeChar c ++ normalizeAfter false rest := by
  refine escapeChar_cases (P := fun c text => normalizeAfter returned (text ++ rest) =
    if c = '\n' ∧ returned then normalizeAfter false rest
    else if c = '\r' then '\n' :: normalizeAfter true rest
    else text ++ normalizeAfter false rest) rfl rfl rfl rfl rfl ?_ c
  exact fun c _ _ _ => rfl

theorem normalizeAfter_escape (returned : Bool) (text : Text) :
    normalizeAfter returned (escape text) = escape (normalizeAfter returned text) := by
  induction text generalizing returned with
  | nil => rfl
  | cons c text ih =>
      rw [escape, List.flatMap_cons, normalizeAfter_escapeChar, normalizeAfter]
      split_ifs
      · exact ih false
      · exact congrArg ('\n' :: ·) (ih true)
      · exact congrArg (escapeChar c ++ ·) (ih false)

/-- A text whose line ends are read as those of another one, whatever follows it. -/
def Normalizes (s t : Text) : Prop :=
  ∀ rest, normalizeLineEnds (s ++ rest) = t ++ normalizeLineEnds rest

theorem Normalizes.of_not_mem {text : Text} (h : '\r' ∉ text) : Normalizes text text := by
  intro rest
  induction text with
  | nil => rfl
  | cons c text ih =>
      have hc : c ≠ '\r' := fun hc => h (hc ▸ .head _)
      rw [List.cons_append, normalizeLineEnds, normalizeAfter, if_neg (by simp), if_neg hc]
      exact congrArg (c :: ·) (ih fun hmem => h (.tail _ hmem))

theorem Normalizes.append {s t u v : Text} (hs : Normalizes s t) (hu : Normalizes u v) :
    Normalizes (s ++ u) (t ++ v) := by
  intro rest
  rw [List.append_assoc, hs, hu, List.append_assoc]

theorem Normalizes.nil : Normalizes [] [] := fun _ => rfl

theorem Normalizes.flatMap {α : Type} {f g : α → Text} (h : ∀ a, Normalizes (f a) (g a)) (l : List α) :
    Normalizes (l.flatMap f) (l.flatMap g) := by
  induction l with
  | nil => exact .nil
  | cons a l ih => exact (h a).append ih

theorem Normalizes.eq {s t : Text} (h : Normalizes s t) : normalizeLineEnds s = t := by
  have hrest := h []
  rw [List.append_nil] at hrest
  rw [hrest]
  exact List.append_nil t

/-- A text without a carriage return is read as it is. -/
theorem normalizeLineEnds_eq_iff (text : Text) : normalizeLineEnds text = text ↔ '\r' ∉ text := by
  constructor
  · intro h
    rw [← h]
    exact return_not_mem false text
  · exact fun h => (Normalizes.of_not_mem h).eq

/-- Escaped text before a tag. -/
theorem Normalizes.content {markup : Text} (h : '\r' ∉ markup) (hhead : markup.head? = some '<')
    (text : Text) :
    Normalizes (escape text ++ markup) (escape (normalizeLineEnds text) ++ markup) := by
  intro rest
  have hnext : (markup ++ rest).head? ≠ some '\n' := by
    rw [List.head?_append, hhead, Option.some_or]
    decide
  rw [List.append_assoc, normalizeLineEnds_append hnext, Normalizes.of_not_mem h, normalizeLineEnds,
    normalizeAfter_escape, List.append_assoc]
  rfl

/-! ## Cutting -/

theorem lex_text {text : Text} (h : ∀ c ∈ text, c ≠ '<') (before rest : Text) :
    lex (.text before) (text ++ '<' :: rest) =
      (flush (before ++ text)).bind fun tokens => (lex (.tag [] none) rest).map (tokens ++ ·) := by
  induction text generalizing before with
  | nil => rw [List.append_nil, List.nil_append, lex, if_pos rfl]
  | cons c text ih =>
      rw [List.cons_append, lex, if_neg (h c (.head _)), ih fun d hd => h d (.tail _ hd),
        List.append_assoc]
      rfl

/-- The quote that a text leaves open within a tag. -/
def scan : Option Char → Text → Option (Option Char)
  | quote, [] => some quote
  | quote, c :: rest => (tagStep quote c).bind (scan · rest)

theorem lex_tag {quote : Option Char} {body : Text} (h : scan quote body = some none)
    (before rest : Text) :
    lex (.tag before quote) (body ++ '>' :: rest) =
      (tag (before ++ body)).bind fun token => (lex (.text []) rest).map (token :: ·) := by
  induction body generalizing quote before with
  | nil =>
      obtain rfl : quote = none := Option.some.inj h
      rw [List.append_nil]
      rfl
  | cons c body ih =>
      obtain ⟨next, hstep, hscan⟩ := Option.bind_eq_some_iff.1 h
      have hrest := ih hscan (before ++ [c])
      rw [List.append_assoc] at hrest
      rw [List.cons_append, lex, hstep]
      exact hrest

/-- A tag with its token. -/
def IsTag (body : Text) (token : Token) : Prop :=
  scan none body = some none ∧ tag body = some token

instance (body : Text) (token : Token) : Decidable (IsTag body token) :=
  inferInstanceAs (Decidable (scan none body = some none ∧ tag body = some token))

/-- A text that is cut into the same tokens whatever follows it. -/
def Lexes (text : Text) (tokens : List Token) : Prop :=
  ∀ rest, lex (.text []) (text ++ rest) = (lex (.text []) rest).map (tokens ++ ·)

theorem Lexes.content {body : Text} {token : Token} (h : IsTag body token) (text : Text) :
    Lexes (escape text ++ '<' :: (body ++ ['>'])) (Xml.content text ++ [token]) := by
  intro rest
  have hopen : ∀ c ∈ escape text, c ≠ '<' := fun c hc => (bracket_of_escape hc).1
  have hflush : flush ([] ++ escape text) = some (Xml.content text) := flush_escape text
  have htag : Xml.tag ([] ++ body) = some token := h.2
  rw [List.append_assoc, List.cons_append, List.append_assoc, List.singleton_append, lex_text hopen,
    hflush, lex_tag h.1, htag]
  simp only [Option.bind_some, Option.map_map]
  congr 1
  funext tokens
  simp

theorem Lexes.tag {body : Text} {token : Token} (h : IsTag body token) :
    Lexes ('<' :: (body ++ ['>'])) [token] := Lexes.content h []

theorem Lexes.append {s t : Text} {ss ts : List Token} (hs : Lexes s ss) (ht : Lexes t ts) :
    Lexes (s ++ t) (ss ++ ts) := by
  intro rest
  rw [List.append_assoc, hs, ht, Option.map_map]
  congr 1
  funext tokens
  simp

theorem Lexes.nil : Lexes [] [] := fun _ => Option.map_id_apply.symm

theorem Lexes.flatMap {α : Type} {f : α → Text} {g : α → List Token} (h : ∀ a, Lexes (f a) (g a))
    (l : List α) : Lexes (l.flatMap f) (l.flatMap g) := by
  induction l with
  | nil => exact .nil
  | cons a l ih => exact (h a).append ih

theorem Lexes.lex_eq {text : Text} {tokens : List Token} (h : Lexes text tokens) :
    lex (.text []) text = some tokens := by
  have hrest := h []
  rw [List.append_nil] at hrest
  rw [hrest]
  exact congrArg some (List.append_nil tokens)

/-! ## Matching -/

mutual

def Node.tokens : Node → List Token
  | .text text => [.text text]
  | .element name attributes children => .open name attributes :: (tokensOf children ++ [.close name])

def tokensOf : List Node → List Token
  | [] => []
  | node :: nodes => node.tokens ++ tokensOf nodes

end

theorem tokensOf_map {α : Type} (f : α → Node) (l : List α) :
    tokensOf (l.map f) = l.flatMap fun a => (f a).tokens := by
  induction l with
  | nil => rfl
  | cons a l ih => rw [List.map_cons, tokensOf, ih, List.flatMap_cons]

/-- The nodes of a text between tags. -/
def textNodes (text : Text) : List Node := if text = [] then [] else [.text text]

theorem tokensOf_textNodes (text : Text) : tokensOf (textNodes text) = content text := by
  unfold textNodes content
  by_cases h : text = []
  · rw [if_pos h, if_pos h]
    rfl
  · rw [if_neg h, if_neg h]
    rfl

def Frame.addAll (frame : Frame) (nodes : List Node) : Frame :=
  { frame with children := frame.children ++ nodes }

mutual

/-- The tokens of a node add it to the element they stand in. -/
theorem build_tokens : (node : Node) → (frame : Frame) → (frames : List Frame) → (rest : List Token) →
    build (frame :: frames) (node.tokens ++ rest) = build (frame.add node :: frames) rest
  | .text _, _, _, _ => by
      rw [Node.tokens, List.singleton_append, build]
  | .element name attributes children, frame, frames, rest => by
      rw [Node.tokens, List.cons_append, List.append_assoc, build, build_tokensOf children,
        List.singleton_append, build, Frame.addAll, if_pos rfl]
      rfl

theorem build_tokensOf : (nodes : List Node) → (frame : Frame) → (frames : List Frame) →
    (rest : List Token) →
    build (frame :: frames) (tokensOf nodes ++ rest) = build (frame.addAll nodes :: frames) rest
  | [], frame, _, _ => by
      rw [tokensOf, Frame.addAll, List.append_nil, List.nil_append]
  | node :: nodes, frame, frames, rest => by
      rw [tokensOf, List.append_assoc, build_tokens node, build_tokensOf nodes, Frame.addAll,
        Frame.addAll, Frame.add, List.append_assoc]
      rfl

end

/-- The outermost element is the document. -/
theorem build_root (name : Text) (attributes : List (Text × Text)) (children : List Node) :
    build [] (Node.element name attributes children).tokens =
      some (.element name attributes children) := by
  rw [Node.tokens, build, build_tokensOf children, build, if_pos ⟨rfl, rfl⟩]
  rfl

/-! ## Contents -/

namespace Node

def children : Node → List Node
  | text _ => []
  | element _ _ children => children

def isElement (name : Text) : Node → Bool
  | text _ => false
  | element name' _ _ => name' = name

def ownText : Node → Text
  | text content => content
  | element _ _ _ => []

/-- The elements of a name that stand in a node. -/
def elements (name : Text) (node : Node) : List Node := node.children.filter (·.isElement name)

def textContent (node : Node) : Text := node.children.flatMap ownText

end Node

theorem textContent_textNodes (name : Text) (attributes : List (Text × Text)) (text : Text) :
    (Node.element name attributes (textNodes text)).textContent = text := by
  rw [Node.textContent, Node.children, textNodes]
  by_cases h : text = []
  · rw [if_pos h, h]
    rfl
  · rw [if_neg h]
    exact List.append_nil text

theorem elements_map {α : Type} {f : α → Node} {name : Text} (h : ∀ a, (f a).isElement name = true)
    (parent : Text) (attributes : List (Text × Text)) (l : List α) :
    (Node.element parent attributes (l.map f)).elements name = l.map f := by
  rw [Node.elements, Node.children, List.filter_eq_self]
  intro node hnode
  obtain ⟨a, _, rfl⟩ := List.mem_map.1 hnode
  exact h a

end Xml
