import GetPlatform.Printing.Documents
import Mathlib.Data.List.Chain

set_option autoImplicit false

/-! # Wrapped lines

A line is closed only by a word that it has no room for, and the line in progress always holds a word: so the
lines that are closed and the one in progress are `Packed` all along. -/

namespace GetPlatform.Printing

open Ministry

/-- `line` has no room for the first word of `next`. -/
def NoRoom (width : Nat) (line next : CodeUnits) : Prop :=
  ∃ first ∈ (words next).head?, width < (line ++ utf16 " " ++ first).length

structure Packed (width : Nat) (lines : List CodeUnits) : Prop where
  worded : ∀ line ∈ lines, words line ≠ []
  fits : ∀ line ∈ lines, line.length ≤ width ∨ words line = [line]
  full : lines.IsChain (NoRoom width)

theorem Packed.nil (width : Nat) : Packed width [] :=
  ⟨fun _ hline => absurd hline List.not_mem_nil, fun _ hline => absurd hline List.not_mem_nil, .nil⟩

theorem Packed.concat {width : Nat} {lines : List CodeUnits} {line : CodeUnits}
    (h : Packed width lines) (hworded : words line ≠ [])
    (hfits : line.length ≤ width ∨ words line = [line])
    (hroom : ∀ last ∈ lines.getLast?, NoRoom width last line) : Packed width (lines ++ [line]) := by
  constructor
  · intro text htext
    rcases List.mem_append.1 htext with htext | htext
    · exact h.worded text htext
    · rw [List.mem_singleton.1 htext]
      exact hworded
  · intro text htext
    rcases List.mem_append.1 htext with htext | htext
    · exact h.fits text htext
    · rw [List.mem_singleton.1 htext]
      exact hfits
  · rw [List.isChain_append]
    refine ⟨h.full, .singleton line, fun last hlast text htext => ?_⟩
    rw [List.head?_cons, Option.mem_some_iff] at htext
    rw [← htext]
    exact hroom last hlast

theorem Packed.left {width : Nat} {lines others : List CodeUnits} (h : Packed width (lines ++ others)) :
    Packed width lines :=
  ⟨fun line hline => h.worded line (List.mem_append_left _ hline),
    fun line hline => h.fits line (List.mem_append_left _ hline), (List.isChain_append.1 h.full).1⟩

theorem Packed.room_last {width : Nat} {lines : List CodeUnits} {line : CodeUnits}
    (h : Packed width (lines ++ [line])) : ∀ last ∈ lines.getLast?, NoRoom width last line :=
  fun last hlast => (List.isChain_append.1 h.full).2.2 last hlast line (Option.mem_some_self line)

/-- A line has no more room for another that is made longer. -/
theorem NoRoom.append {width : Nat} {line next word : CodeUnits} (h : NoRoom width line next) :
    NoRoom width line (next ++ utf16 " " ++ word) := by
  obtain ⟨first, hfirst, hwidth⟩ := h
  refine ⟨first, ?_, hwidth⟩
  rw [words_append_space, List.head?_append, Option.mem_def.1 hfirst]
  rfl

/-- The lines so far, with the one in progress. -/
def linesOf (state : List CodeUnits × CodeUnits) : List CodeUnits :=
  if state.2 ≠ [] then state.1 ++ [state.2] else state.1

structure Wrapping (width : Nat) (state : List CodeUnits × CodeUnits) : Prop where
  start : state.2 = [] → state.1 = []
  packed : Packed width (linesOf state)

theorem Wrapping.addWord {width : Nat} {state : List CodeUnits × CodeUnits} {word : CodeUnits}
    (h : Wrapping width state) (hword : IsWord word) : Wrapping width (addWord width state word) := by
  obtain ⟨lines, current⟩ := state
  have hwords : words word ≠ [] := by
    rw [hword.words_eq]
    exact List.cons_ne_nil _ _
  by_cases hcurrent : current = []
  · -- the first word
    have hlines : lines = [] := h.start hcurrent
    have hadd : Printing.addWord width (lines, current) word = ([], word) := by
      simp [Printing.addWord, hcurrent, hlines]
    rw [hadd]
    refine ⟨fun hnil => absurd hnil hword.ne_nil, ?_⟩
    rw [linesOf, if_pos hword.ne_nil]
    exact (Packed.nil width).concat hwords (.inr hword.words_eq) fun last hlast => by cases hlast
  have hpacked : Packed width (lines ++ [current]) := by
    have hshown := h.packed
    rwa [linesOf, if_pos hcurrent] at hshown
  by_cases hwidth : width < (current ++ utf16 " " ++ word).length
  · -- the line in progress is closed
    have hadd : Printing.addWord width (lines, current) word = (lines ++ [current], word) := by
      simp only [Printing.addWord, if_pos hcurrent]
      rw [if_pos ⟨hwidth, hcurrent⟩]
    rw [hadd]
    refine ⟨fun hnil => absurd hnil hword.ne_nil, ?_⟩
    rw [linesOf, if_pos hword.ne_nil]
    refine hpacked.concat hwords (.inr hword.words_eq) fun last hlast => ?_
    rw [List.getLast?_concat, Option.mem_some_iff] at hlast
    rw [← hlast]
    refine ⟨word, ?_, hwidth⟩
    rw [hword.words_eq]
    rfl
  · -- it has room for the word
    have hadd : Printing.addWord width (lines, current) word = (lines, current ++ utf16 " " ++ word) := by
      simp only [Printing.addWord, if_pos hcurrent]
      rw [if_neg fun hboth => hwidth hboth.1]
    have hne : current ++ utf16 " " ++ word ≠ [] := by
      intro hnil
      exact hword.ne_nil (List.append_eq_nil_iff.1 hnil).2
    rw [hadd]
    refine ⟨fun hnil => absurd hnil hne, ?_⟩
    rw [linesOf, if_pos hne]
    refine hpacked.left.concat ?_ (.inl (Nat.le_of_not_lt hwidth)) fun last hlast =>
      (hpacked.room_last last hlast).append
    rw [words_append_space]
    intro hnil
    exact hwords (List.append_eq_nil_iff.1 hnil).2

theorem Wrapping.foldl {width : Nat} {added : List CodeUnits} {state : List CodeUnits × CodeUnits}
    (h : Wrapping width state) (hadded : ∀ word ∈ added, IsWord word) :
    Wrapping width (added.foldl (Printing.addWord width) state) := by
  induction added generalizing state with
  | nil => exact h
  | cons word added ih =>
    exact ih (h.addWord (hadded word (.head _))) fun next hnext => hadded next (.tail _ hnext)

variable (nfd : CodeUnits → CodeUnits)

theorem wrapPdfLine_of_no_words {line : CodeUnits} (h : words (toAscii nfd line) = []) (width : Nat) :
    wrapPdfLine nfd line width = [[]] := by
  unfold wrapPdfLine
  simp only []
  rw [if_pos (List.length_eq_zero_iff.2 h)]

theorem packed_wrapPdfLine {line : CodeUnits} (h : words (toAscii nfd line) ≠ []) (width : Nat) :
    Packed width (wrapPdfLine nfd line width) := by
  have hstart : Wrapping width ([], []) := ⟨fun _ => rfl, Packed.nil width⟩
  have hend := (hstart.foldl fun word hword => isWord_of_mem_words hword :
    Wrapping width ((words (toAscii nfd line)).foldl (addWord width) ([], []))).packed
  unfold wrapPdfLine
  simp only []
  rw [if_neg fun hnone => h (List.length_eq_zero_iff.1 hnone)]
  exact hend

/-- **Wrapping loses nothing.** The lines have the words of the text; each is within the width or one word;
none has room for the first word of the next one; none is empty unless the text has no word. -/
theorem wrapPdfLine_wraps (line : CodeUnits) (width : Nat) :
    (wrapPdfLine nfd line width).flatMap words = words (toAscii nfd line) ∧
    (∀ text ∈ wrapPdfLine nfd line width,
      text.length ≤ width ∨ width < text.length ∧ words text = [text]) ∧
    (wrapPdfLine nfd line width).IsChain (NoRoom width) ∧
    (words (toAscii nfd line) = [] → wrapPdfLine nfd line width = [[]]) ∧
    (words (toAscii nfd line) ≠ [] → [] ∉ wrapPdfLine nfd line width) := by
  refine ⟨words_wrapPdfLine nfd line width, ?_, ?_, fun h => wrapPdfLine_of_no_words nfd h width, ?_⟩
  · intro text htext
    by_cases hfits : text.length ≤ width
    · exact .inl hfits
    refine .inr ⟨by omega, ?_⟩
    by_cases hnone : words (toAscii nfd line) = []
    · rw [wrapPdfLine_of_no_words nfd hnone, List.mem_singleton] at htext
      rw [htext] at hfits
      exact absurd (Nat.zero_le width) hfits
    · exact ((packed_wrapPdfLine nfd hnone width).fits text htext).resolve_left hfits
  · by_cases hnone : words (toAscii nfd line) = []
    · rw [wrapPdfLine_of_no_words nfd hnone]
      exact .singleton _
    · exact (packed_wrapPdfLine nfd hnone width).full
  · intro hsome hempty
    exact (packed_wrapPdfLine nfd hsome width).worded [] hempty words_nil

end GetPlatform.Printing
