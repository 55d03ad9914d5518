import Mathlib.Data.List.Induction
import GetPlatform.Coursework.Submissions

set_option autoImplicit false

/-! # The chapters of a course

`TeachingService.createChapter` and `deleteChapter`. The position of a new chapter is one more than the
number of chapters, and no two chapters of a course may have the same one. A call is one step here: its
only write is its last statement. -/

namespace GetPlatform.Coursework.Chapters

structure CourseChapter where
  id : Id
  courseId : Id
  title : String
  description : Option String
  position : Nat
  deriving DecidableEq

instance : Keyed CourseChapter Id := ⟨(·.id)⟩

structure ChapterDto where
  title : String
  description : Option String := none

structure World where
  roster : Roster
  chapters : Table CourseChapter

namespace World

/-- The chapters of a course. -/
def chaptersOf (s : World) (courseId : Id) : List CourseChapter :=
  s.chapters.rows.filter (·.courseId = courseId)

/-- `courseChapter.create`, and the two constraints it may break. -/
def insert (s : World) (row : CourseChapter) : Except Err (CourseChapter × World) :=
  if s.chapters.contains row.id ∨ (s.chaptersOf row.courseId).any (·.position = row.position) then
    .error (.failure .database)
  else .ok (row, { s with chapters := s.chapters.put row })

end World

/-! ## The calls -/

def teacher (userId : Id) (s : World) : Except Err Teacher :=
  match s.roster.teachers.find? userId with
  | some teacher => .ok teacher
  | none => .error (.ForbiddenException "Profil professeur introuvable")

/-- The course, if the caller has it and is active in its school. -/
def course (userId courseId : Id) (s : World) : Except Err Course := do
  let teacher ← teacher userId s
  match (s.roster.courses.find? courseId).filter fun course =>
      course.teacherId = some teacher.id ∧
        (s.roster.teacherSchools.find? (teacher.id, course.schoolId)).any (·.isActive) with
  | some course => return course
  | none => throw (.NotFoundException "Cours introuvable")

/-- The choice is the identifier of the new row. -/
def createChapter (userId courseId : Id) (dto : ChapterDto) (id : Id) (s : World) :
    Except Err (CourseChapter × World) := do
  let _ ← course userId courseId s
  let position := (s.chaptersOf courseId).length + 1
  s.insert { id, courseId, position, title := dto.title, description := dto.description }

def deleteChapter (userId courseId chapterId : Id) (s : World) :
    Except Err (CourseChapter × World) := do
  let _ ← course userId courseId s
  match (s.chapters.find? chapterId).filter (·.courseId = courseId) with
  | some chapter => return (chapter, { s with chapters := s.chapters.filter (·.id ≠ chapterId) })
  | none => throw (.NotFoundException "Chapitre introuvable")

/-! ## Runs -/

inductive Op where
  | createChapter (userId courseId : Id) (dto : ChapterDto) (id : Id)
  | deleteChapter (userId courseId chapterId : Id)

def Op.run : Op → World → Except Err (CourseChapter × World)
  | createChapter userId courseId dto id => Chapters.createChapter userId courseId dto id
  | deleteChapter userId courseId chapterId => Chapters.deleteChapter userId courseId chapterId

/-- A call that is refused changes nothing. -/
def World.step (s : World) (o : Op) : World :=
  match o.run s with
  | .ok (_, s') => s'
  | .error _ => s

def World.after (s : World) (ops : List Op) : World := ops.foldl World.step s

/-- Nobody has added a chapter yet. -/
def start (roster : Roster) : World := ⟨roster, .empty⟩

theorem World.after_concat (s : World) (ops : List Op) (o : Op) :
    s.after (ops ++ [o]) = (s.after ops).step o := by
  simp [World.after]

/-! ## What is asked of a run -/

/-- No two chapters of a course have the same position. -/
def Distinct (s : World) : Prop :=
  ∀ a ∈ s.chapters, ∀ b ∈ s.chapters, a.courseId = b.courseId → a.position = b.position → a = b

/-- The teacher of the course adds a chapter, and the identifier drawn for it is new. -/
structure Adds (s : World) (userId courseId id : Id) : Prop where
  teacher : ∃ c, course userId courseId s = .ok c
  fresh : s.chapters.contains id = false

/-- The call succeeds, and puts the chapter after those of the course. -/
def Appends (s : World) (userId courseId : Id) (dto : ChapterDto) (id : Id) : Prop :=
  ∃ chapter s', createChapter userId courseId dto id s = .ok (chapter, s') ∧
    ∀ other ∈ s.chaptersOf courseId, other.position < chapter.position

/-- No chapter of the course stands further than the number of its chapters. -/
def Packed (s : World) (courseId : Id) : Prop :=
  ∀ other ∈ s.chaptersOf courseId, other.position ≤ (s.chaptersOf courseId).length

/-- Positions are distinct throughout a run, and every chapter that is added goes to the end. -/
def AlwaysAdded (roster : Roster) (ops : List Op) : Prop :=
  (∀ before, before <+: ops → Distinct ((start roster).after before)) ∧
    ∀ before userId courseId dto id, before ++ [.createChapter userId courseId dto id] <+: ops →
      Adds ((start roster).after before) userId courseId id →
      Appends ((start roster).after before) userId courseId dto id

/-! ## One call -/

theorem mem_chaptersOf {s : World} {courseId : Id} {chapter : CourseChapter} :
    chapter ∈ s.chaptersOf courseId ↔ chapter ∈ s.chapters ∧ chapter.courseId = courseId := by
  rw [World.chaptersOf, List.mem_filter, decide_eq_true_eq]
  exact Iff.rfl

/-- The row breaks no constraint. -/
structure Fits (s : World) (row : CourseChapter) : Prop where
  fresh : s.chapters.contains row.id = false
  free : ∀ other ∈ s.chaptersOf row.courseId, other.position ≠ row.position

theorem insert_cases (s : World) (row : CourseChapter) :
    (∃ e, s.insert row = .error e) ∨
      s.insert row = .ok (row, { s with chapters := s.chapters.put row }) ∧ Fits s row := by
  unfold World.insert
  split
  · exact .inl ⟨_, rfl⟩
  · next h =>
      rw [not_or, List.any_eq_true, Bool.not_eq_true] at h
      exact .inr ⟨rfl, h.1, fun other hmem heq => h.2 ⟨other, hmem, decide_eq_true heq⟩⟩

theorem insert_of_fits {s : World} {row : CourseChapter} (h : Fits s row) :
    s.insert row = .ok (row, { s with chapters := s.chapters.put row }) := by
  have hfree : ¬(s.chapters.contains row.id = true ∨
      (s.chaptersOf row.courseId).any (·.position = row.position) = true) := by
    rintro (htaken | hclash)
    · cases h.fresh.symm.trans htaken
    · obtain ⟨other, hmem, heq⟩ := List.any_eq_true.1 hclash
      exact h.free other hmem (of_decide_eq_true heq)
  rw [World.insert, if_neg hfree]

/-- What a chapter is added as. -/
def newChapter (s : World) (courseId : Id) (dto : ChapterDto) (id : Id) : CourseChapter :=
  { id, courseId, position := (s.chaptersOf courseId).length + 1, title := dto.title,
    description := dto.description }

theorem createChapter_of_teacher {s : World} {userId courseId id : Id} {dto : ChapterDto} {c : Course}
    (h : course userId courseId s = .ok c) :
    createChapter userId courseId dto id s = s.insert (newChapter s courseId dto id) := by
  rw [createChapter, h]
  rfl

/-- **A chapter goes to the end exactly where the chapters are packed.** -/
theorem appends_iff_packed {s : World} {userId courseId id : Id} {dto : ChapterDto}
    (h : Adds s userId courseId id) : Appends s userId courseId dto id ↔ Packed s courseId := by
  obtain ⟨c, hcourse⟩ := h.teacher
  rw [Appends, createChapter_of_teacher hcourse]
  constructor
  · rintro ⟨chapter, s', hrun, hlast⟩ other hmem
    rcases insert_cases s (newChapter s courseId dto id) with ⟨e, herror⟩ | ⟨hok, -⟩
    · cases herror.symm.trans hrun
    · obtain ⟨rfl, -⟩ := Prod.mk.inj (Except.ok.inj (hok.symm.trans hrun))
      exact Nat.le_of_lt_succ (hlast other hmem)
  · intro hpacked
    have hlast : ∀ other ∈ s.chaptersOf courseId,
        other.position < (newChapter s courseId dto id).position :=
      fun other hmem => Nat.lt_succ_of_le (hpacked other hmem)
    have hfits : Fits s (newChapter s courseId dto id) :=
      ⟨h.fresh, fun other hmem => Nat.ne_of_lt (hlast other hmem)⟩
    exact ⟨_, _, insert_of_fits hfits, hlast⟩

theorem createChapter_ok {s s' : World} {userId courseId id : Id} {dto : ChapterDto}
    {chapter : CourseChapter} (h : createChapter userId courseId dto id s = .ok (chapter, s')) :
    chapter = newChapter s courseId dto id ∧
      s' = { s with chapters := s.chapters.put (newChapter s courseId dto id) } ∧
      Fits s (newChapter s courseId dto id) := by
  cases hcourse : course userId courseId s with
  | error e =>
      rw [createChapter, hcourse] at h
      cases h
  | ok c =>
      rw [createChapter_of_teacher hcourse] at h
      rcases insert_cases s (newChapter s courseId dto id) with ⟨e, herror⟩ | ⟨hok, hfits⟩
      · cases herror.symm.trans h
      · obtain ⟨rfl, rfl⟩ := Prod.mk.inj (Except.ok.inj (hok.symm.trans h))
        exact ⟨rfl, rfl, hfits⟩

theorem deleteChapter_of_teacher {s : World} {userId courseId chapterId : Id} {c : Course}
    (h : course userId courseId s = .ok c) :
    deleteChapter userId courseId chapterId s =
      match (s.chapters.find? chapterId).filter (·.courseId = courseId) with
      | some chapter =>
          .ok (chapter, { s with chapters := s.chapters.filter (·.id ≠ chapterId) })
      | none => .error (.NotFoundException "Chapitre introuvable") := by
  rw [deleteChapter, h]
  rfl

theorem deleteChapter_ok {s s' : World} {userId courseId chapterId : Id} {chapter : CourseChapter}
    (h : deleteChapter userId courseId chapterId s = .ok (chapter, s')) :
    chapter ∈ s.chaptersOf courseId ∧ chapter.id = chapterId ∧
      s' = { s with chapters := s.chapters.filter (·.id ≠ chapterId) } := by
  cases hcourse : course userId courseId s with
  | error e =>
      rw [deleteChapter, hcourse] at h
      cases h
  | ok c =>
      rw [deleteChapter_of_teacher hcourse] at h
      split at h
      · next found hfind =>
          obtain ⟨rfl, rfl⟩ := Prod.mk.inj (Except.ok.inj h)
          obtain ⟨hfind, hcourseId⟩ := Option.filter_eq_some_iff.1 hfind
          exact ⟨mem_chaptersOf.2 ⟨Table.mem_of_find? hfind, of_decide_eq_true hcourseId⟩,
            Table.key_of_find? hfind, rfl⟩
      · cases h

/-- What one call may do to the chapters. -/
theorem step_cases (s : World) (o : Op) :
    s.step o = s ∨
      (∃ userId courseId dto id, o = .createChapter userId courseId dto id ∧
        s.step o = { s with chapters := s.chapters.put (newChapter s courseId dto id) } ∧
        Fits s (newChapter s courseId dto id)) ∨
      ∃ userId courseId, ∃ chapter ∈ s.chaptersOf courseId,
        o = .deleteChapter userId courseId chapter.id ∧
        s.step o = { s with chapters := s.chapters.filter (·.id ≠ chapter.id) } := by
  cases h : o.run s with
  | error e =>
      refine .inl ?_
      rw [World.step, h]
  | ok result =>
      obtain ⟨chapter, s'⟩ := result
      have hstep : s.step o = s' := by rw [World.step, h]
      cases o with
      | createChapter userId courseId dto id =>
          obtain ⟨-, rfl, hfits⟩ := createChapter_ok h
          exact .inr (.inl ⟨userId, courseId, dto, id, rfl, hstep, hfits⟩)
      | deleteChapter userId courseId chapterId =>
          obtain ⟨hmem, rfl, rfl⟩ := deleteChapter_ok h
          exact .inr (.inr ⟨userId, courseId, chapter, hmem, rfl, hstep⟩)

/-! ## Positions are distinct -/

theorem Distinct.step {s : World} (hdistinct : Distinct s) (o : Op) : Distinct (s.step o) := by
  rcases step_cases s o with hsame | ⟨userId, courseId, dto, id, -, hstep, hfits⟩ |
    ⟨userId, courseId, chapter, hmem, -, hstep⟩
  · rw [hsame]
    exact hdistinct
  · rw [hstep]
    intro a ha b hb hcourse hposition
    rcases Table.mem_put.1 ha with rfl | ⟨ha', -⟩ <;> rcases Table.mem_put.1 hb with rfl | ⟨hb', -⟩
    · rfl
    · exact absurd hposition.symm (hfits.free b (mem_chaptersOf.2 ⟨hb', hcourse.symm⟩))
    · exact absurd hposition (hfits.free a (mem_chaptersOf.2 ⟨ha', hcourse⟩))
    · exact hdistinct a ha' b hb' hcourse hposition
  · rw [hstep]
    intro a ha b hb
    exact hdistinct a (Table.mem_filter.1 ha).1 b (Table.mem_filter.1 hb).1

theorem Distinct.after {s : World} (hdistinct : Distinct s) (ops : List Op) :
    Distinct (s.after ops) := by
  induction ops generalizing s with
  | nil => exact hdistinct
  | cons o ops ih => exact ih (hdistinct.step o)

theorem distinct_after_start (roster : Roster) (ops : List Op) :
    Distinct ((start roster).after ops) :=
  Distinct.after (fun a ha => absurd ha (Table.not_mem_empty a)) ops

/-! ## Chapters can always be added -/

/-- **Chapters are always added at the end of the course**, in exactly the runs in which the chapters
    of the course are packed whenever its teacher adds one. -/
theorem always_added_iff (roster : Roster) (ops : List Op) :
    AlwaysAdded roster ops ↔
      ∀ before userId courseId dto id, before ++ [.createChapter userId courseId dto id] <+: ops →
        Adds ((start roster).after before) userId courseId id →
        Packed ((start roster).after before) courseId := by
  constructor
  · rintro ⟨-, hadded⟩ before userId courseId dto id hprefix hadds
    exact (appends_iff_packed hadds).1 (hadded before userId courseId dto id hprefix hadds)
  · intro hpacked
    refine ⟨fun before _ => distinct_after_start roster before, ?_⟩
    intro before userId courseId dto id hprefix hadds
    exact (appends_iff_packed hadds).2 (hpacked before userId courseId dto id hprefix hadds)

/-- A teacher with one course. -/
def oneCourse : Roster where
  students := .empty
  teachers := .ofList [⟨1, 1⟩]
  teacherSchools := .ofList [⟨1, 1, true⟩]
  courses := .ofList [⟨1, 1, some 1⟩]
  courseEnrollments := .empty
  studentEnrollments := .empty
  assignments := .empty

/-- Two chapters are added, and the first one is deleted. -/
def firstDeleted : List Op :=
  [.createChapter 1 1 ⟨"Introduction", none⟩ 1, .createChapter 1 1 ⟨"Logique", none⟩ 2,
    .deleteChapter 1 1 1]

/-- The third chapter is refused: its position is the one of the second. -/
theorem not_always_added : ¬ ∀ roster ops, AlwaysAdded roster ops := by
  intro h
  obtain ⟨-, hadded⟩ := h oneCourse (firstDeleted ++ [.createChapter 1 1 ⟨"Ensembles", none⟩ 3])
  have hadds : Adds ((start oneCourse).after firstDeleted) 1 1 3 := ⟨⟨_, rfl⟩, rfl⟩
  obtain ⟨chapter, s', hrun, -⟩ := hadded firstDeleted 1 1 _ 3 (List.prefix_refl _) hadds
  cases hrun

/-! ## Deleting from the end

Where no chapter but the last is ever deleted, the chapters stay packed, and the condition of
`always_added_iff` is met. -/

/-- The chapters of every course are packed. -/
def AllPacked (s : World) : Prop := ∀ courseId, Packed s courseId

/-- A call deletes a chapter only where no later one is left in the course. -/
def DeletesLast (s : World) : Op → Prop
  | .createChapter .. => True
  | .deleteChapter _ courseId chapterId =>
      ∀ chapter ∈ s.chaptersOf courseId, chapter.id = chapterId →
        ∀ other ∈ s.chaptersOf courseId, other.position ≤ chapter.position

theorem chaptersOf_put {s : World} {row : CourseChapter} (h : s.chapters.contains row.id = false)
    (courseId : Id) : World.chaptersOf { s with chapters := s.chapters.put row } courseId =
      s.chaptersOf courseId ++ if row.courseId = courseId then [row] else [] := by
  rw [World.chaptersOf, Table.rows_put_new h, List.filter_append, World.chaptersOf]
  by_cases hcourse : row.courseId = courseId <;> simp [hcourse]

theorem chaptersOf_delete (s : World) (chapterId courseId : Id) :
    World.chaptersOf { s with chapters := s.chapters.filter (·.id ≠ chapterId) } courseId =
      (s.chaptersOf courseId).filter (·.id ≠ chapterId) := by
  simp only [World.chaptersOf, Table.filter, List.filter_filter, Bool.and_comm]

/-- At most one chapter has the identifier. -/
theorem length_le_delete (s : World) (chapterId courseId : Id) :
    (s.chaptersOf courseId).length ≤
      ((s.chaptersOf courseId).filter (·.id ≠ chapterId)).length + 1 := by
  have hnodup : ((s.chaptersOf courseId).map (·.id)).Nodup :=
    s.chapters.nodup.sublist (List.filter_sublist.map _)
  have hcount := List.nodup_iff_count_le_one.1 hnodup chapterId
  rw [List.count, List.countP_map] at hcount
  have hsplit : (s.chaptersOf courseId).length =
      (s.chaptersOf courseId).countP (fun c => c.id ≠ chapterId) +
        (s.chaptersOf courseId).countP (fun c => ¬ decide (c.id ≠ chapterId) = true) :=
    List.length_eq_countP_add_countP _
  rw [hsplit, List.countP_eq_length_filter]
  refine Nat.add_le_add_left (le_trans (List.countP_mono_left fun c _ h => ?_) hcount) _
  simpa using h

theorem AllPacked.step {s : World} (hpacked : AllPacked s) (hdistinct : Distinct s) {o : Op}
    (hlast : DeletesLast s o) : AllPacked (s.step o) := by
  intro c
  rcases step_cases s o with hsame | ⟨userId, courseId, dto, id, -, hstep, hfits⟩ |
    ⟨userId, courseId, chapter, hmem, rfl, hstep⟩
  · rw [hsame]
    exact hpacked c
  · rw [hstep, Packed, chaptersOf_put hfits.fresh]
    intro other hother
    rcases List.mem_append.1 hother with hother | hnew
    · exact (hpacked c other hother).trans (by simp)
    · by_cases hcourse : (newChapter s courseId dto id).courseId = c
      · rw [if_pos hcourse] at hnew
        obtain rfl := List.mem_singleton.1 hnew
        obtain rfl : courseId = c := hcourse
        simp [newChapter]
      · rw [if_neg hcourse] at hnew
        cases hnew
  · rw [hstep, Packed, chaptersOf_delete]
    intro other hother
    obtain ⟨hother, hne⟩ := List.mem_filter.1 hother
    have hne : other.id ≠ chapter.id := of_decide_eq_true hne
    obtain ⟨hotherMem, rfl⟩ := mem_chaptersOf.1 hother
    by_cases hcourse : courseId = other.courseId
    · subst hcourse
      -- The chapter that goes stood behind this one.
      have hle := hlast chapter hmem rfl other hother
      have hdifferent : other.position ≠ chapter.position := by
        intro heq
        obtain ⟨hchapter, hsame⟩ := mem_chaptersOf.1 hmem
        exact hne (congrArg _ (hdistinct other hotherMem chapter hchapter hsame.symm heq))
      have hchapter := hpacked other.courseId chapter hmem
      have hlength := length_le_delete s chapter.id other.courseId
      omega
    · have hkept : (s.chaptersOf other.courseId).filter (·.id ≠ chapter.id) =
          s.chaptersOf other.courseId := by
        refine List.filter_eq_self.2 fun a ha => decide_eq_true fun heq => hcourse ?_
        obtain ⟨ha, hacourse⟩ := mem_chaptersOf.1 ha
        obtain ⟨hchapter, hchaptercourse⟩ := mem_chaptersOf.1 hmem
        rw [← hacourse, ← hchaptercourse, Table.eq_of_key_eq ha hchapter heq]
      rw [hkept]
      exact hpacked other.courseId other hother

/-- **Chapters can always be added to a course whose chapters are only deleted from the end.** -/
theorem always_added_of_deletesLast {roster : Roster} {ops : List Op}
    (h : ∀ before o, before ++ [o] <+: ops → DeletesLast ((start roster).after before) o) :
    AlwaysAdded roster ops := by
  have hpacked : ∀ before, before <+: ops → AllPacked ((start roster).after before) := by
    intro before
    induction before using List.reverseRecOn with
    | nil => exact fun _ courseId other hmem => absurd hmem List.not_mem_nil
    | append_singleton before o ih =>
        intro hprefix
        rw [World.after_concat]
        exact (ih ((List.prefix_append _ _).trans hprefix)).step (distinct_after_start roster before)
          (h before o hprefix)
  refine (always_added_iff roster ops).2 ?_
  intro before userId courseId dto id hprefix _
  exact hpacked before ((List.prefix_append _ _).trans hprefix) courseId

end GetPlatform.Coursework.Chapters
