import GetPlatform.Deposits.StudentService
import GetPlatform.Uploads.PublicUrl

set_option autoImplicit false

/-! # Names, keys and URLs of deposited files

A file is named by random digits and an extension, and no slash occurs in either. So a key is made of
one folder, one student and one name only, and the name is the last part of the URL. -/

namespace GetPlatform.Deposits

open Uploads (Id buildKey isUuid extname generateFileName assertSafeEntityId)

/-- One part of a path. -/
def Part (text : String) : Prop := '/' ∉ text.toList

/-- The name starts with these random digits. -/
structure Named (base fileName : String) : Prop where
  random : IsBase base
  starts : base.toList <+: fileName.toList
  part : Part fileName

theorem Named.base_eq {base base' fileName : String} (h : Named base fileName)
    (h' : Named base' fileName) : base = base' := by
  have hlength : base.toList.length = base'.toList.length := h.random.1.trans h'.random.1.symm
  have hbegins : base.toList <+: base'.toList :=
    List.prefix_of_prefix_length_le h.starts h'.starts hlength.le
  exact String.toList_inj.1 (hbegins.eq_of_length hlength)

/-- `toLowerCase` writes no slash where there was none. -/
def KeepsParts (toLowerCase : String → String) : Prop := ∀ text, Part text → Part (toLowerCase text)

/-! ## Parts -/

theorem part_of_isHexDigit {text : String} (h : text.toList.all isHexDigit = true) : Part text := by
  intro hslash
  have hdigit : isHexDigit '/' = true := List.all_eq_true.1 h '/' hslash
  exact absurd hdigit (by decide)

theorem part_of_isUuid {text : String} (h : isUuid text = true) : Part text := by
  unfold isUuid at h
  intro hslash
  have hparts : ['-'].intercalate (text.toList.splitOn '-') = text.toList := List.intercalate_splitOn '-'
  rw [← hparts] at hslash
  split at h
  · next a b v c w d e heq =>
      simp only [decide_eq_true_eq, List.all_eq_true, List.mem_append] at h
      obtain ⟨hdigits, hv, hv', hw, -⟩ := h
      rw [heq] at hslash
      have hnot : ∀ x, isHexDigit x = true → x ≠ '/' := by
        rintro x hx rfl
        exact absurd hx (by decide)
      have hin : ('/' ∈ a ∨ '/' ∈ b ∨ '/' ∈ c ∨ '/' ∈ d ∨ '/' ∈ e) ∨ '/' = v ∨ '/' = w := by
        simp only [List.intercalate, List.intersperse, List.flatten_cons, List.flatten_nil,
          List.mem_append, List.mem_cons, List.not_mem_nil, or_false] at hslash
        grind
      rcases hin with hin | rfl | rfl
      · exact hnot '/' (hdigits '/' (by grind)) rfl
      · exact absurd hv (by decide)
      · exact absurd hw (by decide)
  · cases h

theorem part_of_assertSafeEntityId {id : Id} {u : Unit} (h : assertSafeEntityId (some id) = .ok u) :
    Part id := by
  unfold assertSafeEntityId at h
  split at h
  · next hnone =>
      have hempty : id = "" := by
        by_contra hne
        rw [Option.filter_some, if_pos (decide_eq_true hne)] at hnone
        cases hnone
      subst hempty
      exact List.not_mem_nil
  · next text hsome =>
      obtain ⟨hid, -⟩ := Option.filter_eq_some_iff.1 hsome
      obtain rfl := Option.some.inj hid
      split at h
      · next huuid => exact part_of_isUuid huuid
      · cases h

theorem part_extname (path : String) : Part (extname path) := by
  unfold extname
  dsimp only
  split
  · exact List.not_mem_nil
  · intro hslash
    rw [String.toList_ofList] at hslash
    rcases List.mem_cons.1 hslash with hpoint | hslash
    · exact absurd hpoint (by decide)
    · have hin := List.mem_reverse.1 ((List.takeWhile_prefix _).subset (List.mem_reverse.1 hslash))
      have hpart := List.mem_takeWhile_imp (List.mem_reverse.1 hin)
      simp at hpart

theorem part_append {text text' : String} (h : Part text) (h' : Part text') : Part (text ++ text') := by
  intro hslash
  rw [String.toList_append] at hslash
  rcases List.mem_append.1 hslash with hslash | hslash
  · exact h hslash
  · exact h' hslash

theorem named_generateFileName {toLowerCase : String → String} (hlower : KeepsParts toLowerCase)
    {base : String} (hbase : IsBase base) (originalName : String) :
    Named base (generateFileName toLowerCase base originalName) where
  random := hbase
  starts := by
    rw [generateFileName, String.toList_append]
    exact List.prefix_append _ _
  part := part_append (part_of_isHexDigit hbase.2) (hlower _ (part_extname originalName))

/-! ## Keys -/

theorem toList_key (studentId fileName : String) :
    ("/".intercalate ["documents", studentId, fileName]).toList =
      "documents/".toList ++ (studentId.toList ++ '/' :: fileName.toList) := by
  rw [String.toList_intercalate]
  simp [List.intercalate]

/-- Where a slash stands alone, it is where the parts meet. -/
theorem parts_eq {l r l' r' : List Char} (hl : '/' ∉ l') (hr : '/' ∉ r')
    (h : l ++ '/' :: r = l' ++ '/' :: r') : l = l' ∧ r = r' := by
  rcases List.append_eq_append_iff.1 h with ⟨a, rfl, ha⟩ | ⟨c, rfl, hc⟩
  · cases a with
    | nil => exact ⟨(List.append_nil l).symm, (List.cons.inj ha).2⟩
    | cons x a =>
        obtain ⟨rfl, -⟩ := List.cons.inj ha
        exact absurd (List.mem_append_right l (List.mem_cons_self)) hl
  · cases c with
    | nil => exact ⟨List.append_nil l', (List.cons.inj hc).2.symm⟩
    | cons x c =>
        obtain ⟨rfl, rfl⟩ := List.cons.inj hc
        exact absurd (List.mem_append_right c (List.mem_cons_self)) hr

theorem key_inj {studentId fileName studentId' fileName' : String} (hstudent : Part studentId')
    (hname : Part fileName')
    (h : "/".intercalate ["documents", studentId, fileName] =
      "/".intercalate ["documents", studentId', fileName']) :
    studentId = studentId' ∧ fileName = fileName' := by
  rw [← String.toList_inj, toList_key, toList_key] at h
  obtain ⟨hl, hr⟩ := parts_eq hstudent hname (List.append_cancel_left h)
  exact ⟨String.toList_inj.1 hl, String.toList_inj.1 hr⟩

/-! ## URLs -/

theorem lastPart_of_toList {url fileName : String} {l : List Char} (hname : Part fileName)
    (h : url.toList = l ++ '/' :: fileName.toList) : lastPart url = fileName := by
  unfold lastPart
  have hpart : ∀ c ∈ fileName.toList.reverse, decide (c ≠ '/') = true := fun c hc =>
    decide_eq_true fun hslash => hname (hslash ▸ List.mem_reverse.1 hc)
  rw [h, List.reverse_append, List.reverse_cons, List.append_assoc, List.takeWhile_append_of_pos hpart]
  simp [String.ofList_toList]

theorem toList_protectedObjectUrl (settings : Settings) (studentId fileName : String) :
    ∃ l, (protectedObjectUrl settings ["documents", studentId, fileName]).toList =
      l ++ '/' :: fileName.toList := by
  unfold protectedObjectUrl
  rw [String.toList_append, toList_key]
  exact ⟨_, by simp only [← List.append_assoc]; rfl⟩

theorem lastPart_protectedObjectUrl {settings : Settings} {studentId fileName : String}
    (hname : Part fileName) :
    lastPart (protectedObjectUrl settings ["documents", studentId, fileName]) = fileName := by
  obtain ⟨l, hl⟩ := toList_protectedObjectUrl settings studentId fileName
  exact lastPart_of_toList hname hl

/-- The URL of a file ends as the route of documents expects. -/
theorem suffix_protectedObjectUrl (settings : Settings) (studentId fileName : String) :
    ("documents/" ++ studentId ++ "/" ++ fileName).toList <:+
      (protectedObjectUrl settings ["documents", studentId, fileName]).toList := by
  have hkey : "/".intercalate ["documents", studentId, fileName] =
      "documents/" ++ studentId ++ "/" ++ fileName := by
    rw [← String.toList_inj, toList_key]
    simp [String.toList_append]
  rw [← hkey, protectedObjectUrl, String.toList_append]
  exact List.suffix_append _ _

/-- Only one name ends a URL. -/
theorem eq_lastPart_of_suffix {url studentId fileName : String} (hname : Part fileName)
    (h : ("documents/" ++ studentId ++ "/" ++ fileName).toList <:+ url.toList) :
    lastPart url = fileName := by
  obtain ⟨t, ht⟩ := h
  refine lastPart_of_toList hname (l := t ++ ("documents/" ++ studentId).toList) ?_
  rw [← ht, String.toList_append, String.toList_append, List.append_assoc, List.append_assoc]
  rfl

end GetPlatform.Deposits
