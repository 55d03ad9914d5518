import GetPlatform.Teaching.TeachingService

set_option autoImplicit false

/-! # Marking attendance is atomic and idempotent

The records of a call are written in one transaction, and only if all of them name students of the
course. The last record that names a student counts, and a second call finds each row in place. -/

namespace GetPlatform.Teaching

open Prog

variable {collation : String → String → Bool} {parseDate : String → Option Date}

/-! ## Records -/

/-- The status that the last record of a student gives. -/
def lastStatus (records : List AttendanceRecord) (studentId : Id) : Option String :=
  (records.reverse.find? (·.studentId = studentId)).map (·.status)

theorem lastStatus_append (records : List AttendanceRecord) (record : AttendanceRecord)
    (studentId : Id) :
    lastStatus (records ++ [record]) studentId =
      if record.studentId = studentId then some record.status else lastStatus records studentId := by
  unfold lastStatus
  rw [List.reverse_append, List.reverse_singleton, List.singleton_append, List.find?_cons]
  by_cases h : record.studentId = studentId <;> simp [h]

theorem lastStatus_isSome {records : List AttendanceRecord} {record : AttendanceRecord}
    (h : record ∈ records) : (lastStatus records record.studentId).isSome = true := by
  unfold lastStatus
  rw [Option.isSome_map, List.find?_isSome]
  exact ⟨record, by simpa using h, by simp⟩

/-- Every record names a student of the course. -/
def AllEnrolled (s : World) (courseId : Id) (records : List AttendanceRecord) : Prop :=
  ∀ record ∈ records, s.roster.courseEnrollments.contains (courseId, record.studentId) = true

/-- The user teaches the course, and is active in its school. -/
def Teaches (s : World) (userId courseId : Id) (teacher : Teacher) : Prop :=
  s.roster.teachers.find? userId = some teacher ∧
    ∃ course, s.roster.courses.find? courseId = some course ∧ course.teacherId = teacher.id ∧
      (s.roster.teacherSchools.find? (teacher.id, course.schoolId)).any (·.isActive) = true

/-! ## What is written -/

/-- The rows of the students named say what their last records say, and nothing else has changed. -/
structure Marked (courseId : Id) (day : Int) (records : List AttendanceRecord) (s s' : World) : Prop
    where
  roster : s'.roster = s.roster
  named : ∀ studentId status, lastStatus records studentId = some status →
    ∃ row, s'.attendances.find? (courseId, studentId, day) = some row ∧ row.status = status
  others : ∀ k, (∀ record ∈ records, k ≠ (courseId, record.studentId, day)) →
    s'.attendances.find? k = s.attendances.find? k

theorem marked_nil (courseId : Id) (day : Int) (s : World) : Marked courseId day [] s s :=
  ⟨rfl, by simp [lastStatus], fun _ _ => rfl⟩

theorem exec_attendanceUpsert {courseId studentId markedBy id : Id} {day : Int} {status : String}
    {s : World} {row : Attendance}
    (h : exec collation (.attendanceUpsert courseId studentId (some day) status markedBy) id s =
      some row) :
    Keyed.key row = (courseId, studentId, day) ∧ row.status = status := by
  simp only [exec, Option.bind_some] at h
  split at h
  · rename_i a hfind
    have hkey : Keyed.key a = (courseId, studentId, day) := Table.key_of_find? hfind
    obtain rfl := (Option.some.inj h).symm
    exact ⟨hkey, rfl⟩
  · split at h
    · exact absurd h (by simp)
    · obtain rfl := (Option.some.inj h).symm
      exact ⟨rfl, rfl⟩

/-- One more record. -/
theorem Marked.upsert {courseId : Id} {day : Int} {done : List AttendanceRecord} {s s' : World}
    (h : Marked courseId day done s s') {record : AttendanceRecord} {row : Attendance}
    (hkey : Keyed.key row = (courseId, record.studentId, day)) (hstatus : row.status = record.status) :
    Marked courseId day (done ++ [record]) s (World.apply (.attendance row) s') where
  roster := h.roster
  named := by
    intro studentId status hlast
    show ∃ row', (s'.attendances.put row).find? _ = some row' ∧ _
    rw [Table.find?_put, hkey]
    rw [lastStatus_append] at hlast
    by_cases hid : record.studentId = studentId
    · subst hid
      rw [if_pos rfl] at hlast
      exact ⟨row, if_pos rfl, hstatus.trans (Option.some.inj hlast)⟩
    · rw [if_neg hid] at hlast
      have hne : (courseId, studentId, day) ≠ (courseId, record.studentId, day) := by
        intro heq
        simp only [Prod.mk.injEq, true_and, and_true] at heq
        exact hid heq.symm
      rw [if_neg hne]
      exact h.named studentId status hlast
  others := by
    intro k hk
    show (s'.attendances.put row).find? k = _
    rw [Table.find?_put, hkey, if_neg (hk record (by simp))]
    exact h.others k fun r hr => hk r (by simp [hr])

/-! ## Reading a sheet -/

theorem mem_studentsOf {roster : Roster} {courseId studentId : Id}
    (h : roster.courseEnrollments.contains (courseId, studentId) = true) :
    ∃ student ∈ roster.studentsOf courseId, student.id = studentId := by
  obtain ⟨e, he⟩ := Option.isSome_iff_exists.1 h
  obtain ⟨hmem, hkey⟩ := Table.find?_eq_some.1 he
  obtain ⟨hcourse, hstudent⟩ := Prod.mk.inj hkey
  obtain ⟨student, hfind⟩ := Option.isSome_iff_exists.1 (roster.enrolledStudent e hmem)
  refine ⟨student, ?_, (Table.key_of_find? hfind).trans hstudent⟩
  exact List.mem_filterMap.2 ⟨e, List.mem_filter.2 ⟨hmem, by simpa using hcourse⟩, hfind⟩

/-- Among the rows of a course and a day, the one of a student is found by its key. -/
theorem find?_existing (t : Table Attendance) (courseId studentId : Id) (day : Int) :
    (t.rows.filter fun a => a.courseId = courseId ∧ a.date = day).reverse.find?
        (·.studentId = studentId) =
      t.find? (courseId, studentId, day) := by
  cases hrow : t.find? (courseId, studentId, day) with
  | some row =>
    obtain ⟨hmem, hkey⟩ := Table.find?_eq_some.1 hrow
    have hsame : ∀ a, a ∈ (t.rows.filter fun a => a.courseId = courseId ∧ a.date = day).reverse →
        a.studentId = studentId → a = row := by
      intro a ha hid
      obtain ⟨hmem', hwhere⟩ := List.mem_filter.1 (List.mem_reverse.1 ha)
      obtain ⟨hcourse, hdate⟩ := of_decide_eq_true hwhere
      refine Table.eq_of_key_eq hmem' hmem ?_
      rw [hkey, ← hcourse, ← hid, ← hdate]
      rfl
    have hfound : row ∈ (t.rows.filter fun a => a.courseId = courseId ∧ a.date = day).reverse := by
      obtain ⟨hcourse, -, hdate⟩ : row.courseId = courseId ∧ row.studentId = studentId ∧
          row.date = day := by simpa [Keyed.key] using hkey
      exact List.mem_reverse.2 (List.mem_filter.2 ⟨hmem, by simp [hcourse, hdate]⟩)
    cases hfind : (t.rows.filter fun a => a.courseId = courseId ∧ a.date = day).reverse.find?
        (·.studentId = studentId) with
    | some a =>
      exact congrArg some (hsame a (List.mem_of_find?_eq_some hfind) (by
        simpa using List.find?_some hfind))
    | none =>
      have hid : row.studentId = studentId := (Prod.mk.inj (Prod.mk.inj hkey).2).1
      exact absurd hid (by simpa using List.find?_eq_none.1 hfind row hfound)
  | none =>
    rw [List.find?_eq_none]
    intro a ha
    obtain ⟨hmem, hwhere⟩ := List.mem_filter.1 (List.mem_reverse.1 ha)
    obtain ⟨hcourse, hdate⟩ := of_decide_eq_true hwhere
    simp only [decide_eq_true_eq]
    rintro rfl
    exact Table.find?_eq_none.1 hrow a hmem (by rw [← hcourse, ← hdate]; rfl)

/-- The sheet gives the students named the status of their last records. -/
def Reports (records : List AttendanceRecord) (entries : List AttendanceEntry) : Prop :=
  ∀ studentId status, lastStatus records studentId = some status →
    (∃ entry ∈ entries, entry.studentId = studentId) ∧
      ∀ entry ∈ entries, entry.studentId = studentId → entry.status = some status

theorem reports_sheet {courseId : Id} {day : Int} {records : List AttendanceRecord} {s s' : World}
    (hall : AllEnrolled s courseId records) (h : Marked courseId day records s s')
    {students : List Student} (hstudents : students.Perm (s'.roster.studentsOf courseId)) :
    Reports records (sheet students
      (s'.attendances.rows.filter fun a => a.courseId = courseId ∧ a.date = day)) := by
  intro studentId status hlast
  obtain ⟨row, hrow, hstatus⟩ := h.named studentId status hlast
  constructor
  · have hrecord : ∃ record ∈ records, record.studentId = studentId := by
      obtain ⟨record, hfind, -⟩ := Option.map_eq_some_iff.1 hlast
      exact ⟨record, by simpa using List.mem_of_find?_eq_some hfind,
        by simpa using List.find?_some hfind⟩
    obtain ⟨record, hmem, rfl⟩ := hrecord
    obtain ⟨student, hstudent, hid⟩ := mem_studentsOf (hall record hmem)
    rw [← h.roster, ← hstudents.mem_iff] at hstudent
    exact ⟨_, List.mem_map.2 ⟨student, hstudent, rfl⟩, hid⟩
  · intro entry hentry hid
    obtain ⟨student, -, rfl⟩ := List.mem_map.1 hentry
    have hfind := find?_existing s'.attendances courseId student.id day
    rw [show student.id = studentId from hid, hrow] at hfind
    show Option.map _ _ = _
    rw [show student.id = studentId from hid, hfind, Option.map_some, hstatus]

/-! ## A call -/

section Calls

variable {saved : Option World} {s : World} {E : Err → Option World → World → Prop}

theorem teacher_wp {userId : Id} {Q : Teacher → Option World → World → Prop}
    (hE : ∀ e, E e saved s)
    (hQ : ∀ teacher, s.roster.teachers.find? userId = some teacher → Q teacher saved s) :
    (teacher userId).wp (model collation) Q E saved s := by
  refine ⟨fun f => hE _, fun id found hfound => ?_⟩
  obtain rfl := Option.some.inj hfound
  cases h : s.roster.teachers.find? userId with
  | none => exact hE _
  | some teacher => exact hQ teacher h

theorem course_wp {userId courseId : Id} {Q : Course → Option World → World → Prop}
    (hE : ∀ e, E e saved s) (hQ : ∀ course, Q course saved s) :
    (course userId courseId).wp (model collation) Q E saved s := by
  refine (wp_handle _ _ _).2 (teacher_wp hE fun teacher _ => ⟨fun f => hE _, fun id found hfound => ?_⟩)
  cases found with
  | none => exact hE _
  | some course => exact hQ course

theorem getAttendance_wp {userId courseId : Id} {date : String}
    {Q : List AttendanceEntry → Option World → World → Prop} (hE : ∀ e, E e saved s)
    (hQ : ∀ day students, dayOf parseDate date = some day →
      students.Perm (s.roster.studentsOf courseId) →
      Q (sheet students (s.attendances.rows.filter fun a => a.courseId = courseId ∧ a.date = day))
        saved s) :
    (getAttendance parseDate userId courseId date).wp (model collation) Q E saved s := by
  refine (wp_handle _ _ _).2 (course_wp hE fun course => ?_)
  refine ⟨fun f => hE _, fun id students hstudents => ?_⟩
  obtain rfl := Option.some.inj hstudents
  refine ⟨fun f => hE _, fun id existing hexisting => ?_⟩
  obtain ⟨day, hday, rfl⟩ := Option.map_eq_some_iff.1 hexisting
  exact hQ day _ hday (List.mergeSort_perm _ _)

/-- How a call may end, whatever fails on the way. -/
structure Ends (courseId : Id) (day : Int) (records : List AttendanceRecord) (s : World)
    (r : Except Err (List AttendanceEntry)) (s' : World) : Prop where
  refused : ¬ AllEnrolled s courseId records → (∃ e, r = .error e) ∧ s' = s
  atomic : s' = s ∨ Marked courseId day records s s'
  reported : ∀ entries, r = .ok entries → Marked courseId day records s s' ∧ Reports records entries

theorem ends_unchanged {courseId : Id} {day : Int} {records : List AttendanceRecord} (e : Err) :
    Ends courseId day records s (.error e) s :=
  ⟨fun _ => ⟨⟨e, rfl⟩, rfl⟩, .inl rfl, by simp⟩

/-- The check finds a record that names no student of the course, or there is none. -/
theorem find?_unknown (courseId : Id) (records : List AttendanceRecord) :
    (records.find? fun record => record.studentId ∉
        (s.roster.courseEnrollments.rows.filter fun e =>
          e.courseId = courseId ∧ e.studentId ∈ records.map (·.studentId)).map (·.studentId)) = none ↔
      AllEnrolled s courseId records := by
  rw [List.find?_eq_none]
  unfold AllEnrolled
  refine forall₂_congr fun record hrecord => ?_
  rw [Table.contains_iff, decide_eq_true_eq, not_not]
  constructor
  · intro h
    obtain ⟨e, hmem, hstudent⟩ := List.mem_map.1 h
    obtain ⟨hmem, hwhere⟩ := List.mem_filter.1 hmem
    exact List.mem_map.2 ⟨e, hmem, Prod.ext (of_decide_eq_true hwhere).1 hstudent⟩
  · intro h
    obtain ⟨e, hmem, hkey⟩ := List.mem_map.1 h
    obtain ⟨hcourse, hstudent⟩ := Prod.mk.inj hkey
    have hnamed : e.studentId ∈ records.map (·.studentId) :=
      List.mem_map.2 ⟨record, hrecord, hstudent.symm⟩
    refine List.mem_map.2 ⟨e, List.mem_filter.2 ⟨hmem, ?_⟩, hstudent⟩
    exact decide_eq_true ⟨hcourse, hnamed⟩

/-- The transaction writes all records, or nothing. -/
theorem upsertAll_wp {courseId markedBy : Id} {day : Int} {records : List AttendanceRecord}
    {Q : PUnit → Option World → World → Prop} (hE : ∀ e, E e none s)
    (hQ : ∀ s', Marked courseId day records s s' → (∀ e, E e none s) → Q ⟨⟩ none s') :
    (upsertAll courseId (some day) markedBy records).wp (model collation) Q E none s := by
  refine (wp_transaction _ _ _).2 ?_
  have hloop := wp_forM (M := model collation) (E := fun (_ : Err) saved _ => saved = some s)
    records (fun done saved s' => saved = some s ∧ Marked courseId day done s s')
    (f := fun record => do
      let _ ← perform (.attendanceUpsert courseId record.studentId (some day) record.status markedBy))
    ?_ ⟨rfl, marked_nil courseId day s⟩
  · refine wp_mono (fun _ saved s' h => ?_) (fun e saved s' h => ?_) hloop
    · obtain ⟨rfl, hmarked⟩ := h
      exact ⟨fun f => hE _, hQ s' hmarked hE⟩
    · subst h
      exact hE e
  · rintro done record - saved s' ⟨rfl, h⟩
    refine ⟨fun f => rfl, fun id row hrow => ?_⟩
    have hwritten : exec collation (.attendanceUpsert courseId record.studentId (some day)
        record.status markedBy) id s' = some row := hrow
    obtain ⟨hkey, hstatus⟩ := exec_attendanceUpsert hwritten
    exact ⟨rfl, h.upsert hkey hstatus⟩

theorem markAttendance_wp {userId courseId : Id} {date : String} {day : Int}
    (hday : dayOf parseDate date = some day) (records : List AttendanceRecord) :
    (markAttendance parseDate userId courseId date records).wp (model collation)
      (fun entries _ s' => Ends courseId day records s (.ok entries) s')
      (fun e _ s' => Ends courseId day records s (.error e) s') none s := by
  refine (wp_handle _ _ _).2 (teacher_wp (fun e => ends_unchanged e) fun teacher _ => ?_)
  refine (wp_handle _ _ _).2 (course_wp (fun e => ends_unchanged e) fun course => ?_)
  refine ⟨fun f => ends_unchanged _, fun id enrolledIds henrolled => ?_⟩
  obtain rfl := Option.some.inj henrolled
  have hcheck := find?_unknown (s := s) courseId records
  dsimp only
  rw [handle_ret]
  split
  · exact ends_unchanged _
  · rename_i hnone
    have hall := hcheck.1 hnone
    rw [hday]
    refine (wp_handle _ _ _).2 (upsertAll_wp (fun e => ends_unchanged e) fun s' hmarked _ => ?_)
    refine getAttendance_wp (fun e => ?_) fun day' students hday' hstudents => ?_
    · exact ⟨fun h => absurd hall h, .inr hmarked, by simp⟩
    · obtain rfl : day = day' := Option.some.inj (hday.symm.trans hday')
      refine ⟨fun h => absurd hall h, .inr hmarked, fun entries hentries => ⟨hmarked, ?_⟩⟩
      obtain rfl := Except.ok.inj hentries
      exact reports_sheet hall hmarked hstudents

end Calls

/-! ## A call over a reliable database -/

section Reliable

variable {saved : Option World} {s : World} {E : Err → Option World → World → Prop}

theorem perform_reliably {q : Stmt} {a : Ans q} {Q : Ans q → Option World → World → Prop}
    (ha : ∀ id, exec collation q id s = some a)
    (hQ : Q a saved ((model collation).applyAll (writes q a) s)) :
    (perform q).reliably (model collation) Q E saved s :=
  (reliably_answer (M := model collation) _ ha).2 hQ

theorem teacher_reliably {userId : Id} {found : Teacher} {Q : Teacher → Option World → World → Prop}
    (h : s.roster.teachers.find? userId = some found) (hQ : Q found saved s) :
    (teacher userId).reliably (model collation) Q E saved s := by
  refine (reliably_handle _ _ _).2 (perform_reliably (a := some found) (fun _ => congrArg some h) ?_)
  exact hQ

theorem course_reliably {userId courseId : Id} {found : Teacher}
    {Q : Course → Option World → World → Prop} (h : Teaches s userId courseId found)
    (hQ : ∀ course, Q course saved s) :
    (course userId courseId).reliably (model collation) Q E saved s := by
  obtain ⟨hteacher, course, hcourse, hown, hactive⟩ := h
  refine (reliably_handle _ _ _).2 (teacher_reliably hteacher ?_)
  have hfind : (s.roster.courses.find? courseId).filter (fun course => course.teacherId = found.id ∧
      (s.roster.teacherSchools.find? (found.id, course.schoolId)).any (·.isActive)) = some course := by
    rw [hcourse]
    exact Option.filter_eq_some_iff.2 ⟨rfl, decide_eq_true ⟨hown, hactive⟩⟩
  refine (reliably_handle _ _ _).2
    (perform_reliably (a := some course) (fun _ => congrArg some hfind) ?_)
  exact hQ course

theorem getAttendance_reliably {userId courseId : Id} {date : String} {day : Int} {found : Teacher}
    {Q : List AttendanceEntry → Option World → World → Prop}
    (hday : dayOf parseDate date = some day) (h : Teaches s userId courseId found)
    (hQ : ∀ students, students.Perm (s.roster.studentsOf courseId) →
      Q (sheet students (s.attendances.rows.filter fun a => a.courseId = courseId ∧ a.date = day))
        saved s) :
    (getAttendance parseDate userId courseId date).reliably (model collation) Q E saved s := by
  refine (reliably_handle _ _ _).2 (course_reliably h fun course => ?_)
  refine (reliably_handle _ _ _).2 (perform_reliably (fun _ => rfl) ?_)
  rw [hday]
  refine (reliably_handle _ _ _).2 (perform_reliably (fun _ => rfl) ?_)
  exact hQ _ (List.mergeSort_perm _ _)

/-- A record of a valid date can always be written: a new row finds an id. -/
theorem not_refused_upsert (courseId studentId markedBy : Id) (day : Int) (status : String) :
    ¬ (model collation).Refused (.attendanceUpsert courseId studentId (some day) status markedBy) s := by
  intro h
  obtain ⟨id, hfresh⟩ := Infinite.exists_notMem_finset (s.attendances.rows.map (·.id)).toFinset
  have hexec := h id
  simp only [exec, Option.bind_some] at hexec
  split at hexec
  · exact absurd hexec (by simp)
  · rw [if_neg] at hexec
    · exact absurd hexec (by simp)
    · simpa using hfresh

theorem upsertAll_reliably {courseId markedBy : Id} {day : Int} {records : List AttendanceRecord}
    {Q : PUnit → Option World → World → Prop} (hQ : ∀ s', s'.roster = s.roster → Q ⟨⟩ none s') :
    (upsertAll courseId (some day) markedBy records).reliably (model collation) Q E none s := by
  refine (reliably_transaction _ _ _).2 ?_
  have hloop : (records.forM fun record => do
      let _ ← perform (.attendanceUpsert courseId record.studentId (some day) record.status
        markedBy)).reliably (model collation) (fun _ _ s' => s'.roster = s.roster)
        (fun (_ : Err) _ _ => False) (some s) s := by
    apply reliably_forM records
    · intro record _ saved s' h
      exact ⟨fun hrefused => absurd hrefused (not_refused_upsert _ _ _ _ _), fun id row _ => h⟩
    · rfl
  exact reliably_mono (fun _ _ s' h => hQ s' h) (fun _ _ _ h => h.elim) hloop

theorem markAttendance_reliably {userId courseId : Id} {date : String} {day : Int} {found : Teacher}
    {records : List AttendanceRecord} (hday : dayOf parseDate date = some day)
    (h : Teaches s userId courseId found) (hall : AllEnrolled s courseId records) :
    (markAttendance parseDate userId courseId date records).reliably (model collation)
      (fun _ _ _ => True) (fun _ _ _ => False) none s := by
  refine (reliably_handle _ _ _).2 (teacher_reliably h.1 ?_)
  refine (reliably_handle _ _ _).2 (course_reliably h fun course => ?_)
  refine (reliably_handle _ _ _).2 (perform_reliably (fun _ => rfl) ?_)
  have hcheck := (find?_unknown (s := s) courseId records).2 hall
  split
  · rename_i unknown hunknown
    exact absurd (hunknown.symm.trans hcheck) (by simp)
  · rw [hday]
    refine (reliably_handle _ _ _).2 (upsertAll_reliably fun s' hroster => ?_)
    have hteaches : Teaches s' userId courseId found := by
      unfold Teaches
      rw [hroster]
      exact h
    exact getAttendance_reliably hday hteaches fun _ _ => trivial

end Reliable

/-! ## Twice the same call -/

theorem Teaches.of_roster {s s' : World} {userId courseId : Id} {teacher : Teacher}
    (h : Teaches s userId courseId teacher) (hroster : s'.roster = s.roster) :
    Teaches s' userId courseId teacher := by
  unfold Teaches
  rw [hroster]
  exact h

theorem AllEnrolled.of_roster {s s' : World} {courseId : Id} {records : List AttendanceRecord}
    (h : AllEnrolled s courseId records) (hroster : s'.roster = s.roster) :
    AllEnrolled s' courseId records := by
  unfold AllEnrolled
  rw [hroster]
  exact h

/-- The status of a row, if there is one. -/
def statusAt (s : World) (k : Id × Id × Int) : Option String :=
  (s.attendances.find? k).map (·.status)

/-- Marking the same again leaves every status as it is. -/
theorem Marked.again {courseId : Id} {day : Int} {records : List AttendanceRecord}
    {s s' s'' : World} (h : Marked courseId day records s s')
    (h' : Marked courseId day records s' s'') (k : Id × Id × Int) :
    statusAt s'' k = statusAt s' k := by
  unfold statusAt
  by_cases hk : ∃ record ∈ records, k = (courseId, record.studentId, day)
  · obtain ⟨record, hrecord, rfl⟩ := hk
    obtain ⟨status, hlast⟩ := Option.isSome_iff_exists.1 (lastStatus_isSome hrecord)
    obtain ⟨row, hrow, hstatus⟩ := h.named _ _ hlast
    obtain ⟨row', hrow', hstatus'⟩ := h'.named _ _ hlast
    rw [hrow, hrow', Option.map_some, Option.map_some, hstatus, hstatus']
  · have hother : ∀ record ∈ records, k ≠ (courseId, record.studentId, day) :=
      fun record hrecord heq => hk ⟨record, hrecord, heq⟩
    rw [h'.others k hother]

theorem markAttendance_ran {s s' : World} {userId courseId : Id} {date : String} {day : Int}
    {found : Teacher} {records : List AttendanceRecord} {r : Except Err (List AttendanceEntry)}
    (hday : dayOf parseDate date = some day) (h : Teaches s userId courseId found)
    (hall : AllEnrolled s courseId records)
    (hrun : Ran (model collation) (markAttendance parseDate userId courseId date records) none s r
      s') : ∃ entries, r = .ok entries ∧ Marked courseId day records s s' ∧ Reports records entries := by
  have hends : Ends courseId day records s r s' :=
    hrun.holds (P := Ends courseId day records s) (reliably_of_wp (markAttendance_wp hday records))
  have hok := hrun.holds (P := fun r _ => ∃ entries, r = .ok entries)
    (reliably_mono (fun entries _ _ _ => ⟨entries, rfl⟩) (fun _ _ _ h => h.elim)
      (markAttendance_reliably hday h hall))
  obtain ⟨entries, rfl⟩ := hok
  exact ⟨entries, rfl, hends.reported entries rfl⟩

theorem getAttendance_ran {s s' s'' : World} {userId courseId : Id} {date : String} {day : Int}
    {found : Teacher} {records : List AttendanceRecord} {r : Except Err (List AttendanceEntry)}
    (hday : dayOf parseDate date = some day) (h : Teaches s userId courseId found)
    (hall : AllEnrolled s courseId records) (hmarked : Marked courseId day records s s')
    (hrun : Ran (model collation) (getAttendance parseDate userId courseId date) none s' r s'') :
    s'' = s' ∧ ∃ entries, r = .ok entries ∧ Reports records entries := by
  refine hrun.holds (P := fun r s'' => s'' = s' ∧ ∃ entries, r = .ok entries ∧ Reports records entries)
    (getAttendance_reliably hday (h.of_roster hmarked.roster) fun students hstudents => ?_)
  exact ⟨rfl, _, rfl, reports_sheet hall hmarked hstudents⟩

/-- On a valid date, whatever fails on the way, a call writes all its records or nothing, and nothing if
    one of them names no student of the course. By a teacher of the course, over a reliable database
    and with students of the course only, it marks them all; the sheet that is read then reports what
    was marked, and the same call once more leaves every status as it is. -/
theorem attendance_atomic_idempotent {date : String} {day : Int}
    (hday : dayOf parseDate date = some day) (userId courseId : Id)
    (records : List AttendanceRecord) (s : World) :
    (∀ cs r s', (markAttendance parseDate userId courseId date records).alone
        (M := model collation) none s cs = some (r, s') → Ends courseId day records s r s') ∧
    ∀ found, Teaches s userId courseId found → AllEnrolled s courseId records → ∀ r s',
      Ran (model collation) (markAttendance parseDate userId courseId date records) none s r s' →
      (∃ entries, r = .ok entries ∧ Marked courseId day records s s' ∧ Reports records entries) ∧
      (∀ r' s'', Ran (model collation) (getAttendance parseDate userId courseId date) none s' r' s'' →
        s'' = s' ∧ ∃ entries, r' = .ok entries ∧ Reports records entries) ∧
      ∀ r' s'', Ran (model collation) (markAttendance parseDate userId courseId date records) none
          s' r' s'' →
        (∃ entries, r' = .ok entries) ∧ ∀ k, statusAt s'' k = statusAt s' k := by
  refine ⟨fun cs r s' hrun => wp_alone (P := Ends courseId day records s)
    (markAttendance_wp hday records) hrun, ?_⟩
  intro found hteaches hall r s' hrun
  obtain ⟨entries, hr, hmarked, hreports⟩ := markAttendance_ran hday hteaches hall hrun
  refine ⟨⟨entries, hr, hmarked, hreports⟩, ?_, ?_⟩
  · intro r' s'' hread
    exact getAttendance_ran hday hteaches hall hmarked hread
  · intro r' s'' hagain
    obtain ⟨entries', hr', hmarked', -⟩ := markAttendance_ran hday
      (hteaches.of_roster hmarked.roster) (hall.of_roster hmarked.roster) hagain
    exact ⟨⟨entries', hr'⟩, hmarked.again hmarked'⟩

/-- A teacher, and a student of the one course. -/
def sampleRoster : Roster where
  students := .ofList [⟨1, 11, "Jean", "Rakoto"⟩]
  teachers := .ofList [⟨2, 12⟩]
  teacherSchools := .ofList [⟨2, 3, true⟩]
  courses := .ofList [⟨4, 3, 2, "INF101", "Logique"⟩]
  courseEnrollments := .ofList [⟨4, 1⟩]
  studentEnrollments := .ofList [⟨1, 3, .ACTIVE⟩]
  courseSlots := .empty
  userIds := by decide
  enrolledStudent := by decide
  enrolledCourse := by decide

/-- The student is marked absent, and then present. -/
def sampleCall : Call (List AttendanceEntry) :=
  markAttendance (fun _ => some ⟨1767571200000⟩) 12 4 "2026-01-05" [⟨1, "ABSENT"⟩, ⟨1, "PRESENT"⟩]

def sampleRun : Option (Except Err (List AttendanceEntry) × World) :=
  sampleCall.alone (M := model fun a b => a ≤ b) none ⟨sampleRoster, .empty⟩
    ((List.replicate 11 9).map .ok)

theorem attendance_atomic_idempotent_present :
    ∃ entries s', sampleRun = some (.ok entries, s') ∧ statusAt s' (4, 1, 20458) = some "PRESENT" ∧
      Reports [⟨1, "ABSENT"⟩, ⟨1, "PRESENT"⟩] entries := by
  have hsome : sampleRun.isSome = true := by decide +kernel
  have hrun := ran_get hsome
  have hday : dayOf (fun _ => some ⟨1767571200000⟩) "2026-01-05" = some 20458 := by decide
  have hteaches : Teaches ⟨sampleRoster, .empty⟩ 12 4 ⟨2, 12⟩ :=
    ⟨by decide, ⟨4, 3, 2, "INF101", "Logique"⟩, by decide, rfl, by decide⟩
  have hall : AllEnrolled ⟨sampleRoster, .empty⟩ 4 [⟨1, "ABSENT"⟩, ⟨1, "PRESENT"⟩] := by
    intro record hrecord
    rcases List.mem_pair.1 hrecord with rfl | rfl
    · decide
    · decide
  obtain ⟨⟨entries, hr, hmarked, hreports⟩, -, -⟩ :=
    (attendance_atomic_idempotent hday 12 4 _ _).2 _ hteaches hall _ _ hrun
  obtain ⟨row, hrow, hstatus⟩ := hmarked.named 1 "PRESENT" (by decide)
  refine ⟨entries, (sampleRun.get hsome).2, ?_, ?_, hreports⟩
  · rw [← hr]
    exact (Option.some_get hsome).symm
  · exact (congrArg (Option.map Attendance.status) hrow).trans (congrArg some hstatus)

end GetPlatform.Teaching
