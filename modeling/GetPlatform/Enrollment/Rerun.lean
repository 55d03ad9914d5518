import GetPlatform.Enrollment.Backfill

set_option autoImplicit false

/-! # What the backfill builds, and what it overwrites

The script takes the application that the query gives last, and writes its enrolment whether there is
one already or not. An application without a decision comes last, not first; and an enrolment that has
moved on is put back. -/

namespace GetPlatform.Enrollment

variable {db : Database} {applications : List Application} {k : Id × Id}

/-! ## The last application of a pair -/

/-- The applications of a student to a school, in the order of the query. -/
abbrev ofPair (k : Id × Id) (applications : List Application) : List Application :=
  Map.members Application.pair k applications

/-- The application that the script goes by. -/
def latestOf (applications : List Application) (k : Id × Id) : Option Application :=
  (ofPair k applications).getLast?

theorem get?_latestByStudentSchool (applications : List Application) (k : Id × Id) :
    (latestByStudentSchool applications).get? k = latestOf applications k := by
  induction applications using List.reverseRecOn with
  | nil => rfl
  | append_singleton applications a ih =>
    unfold latestByStudentSchool latestOf ofPair at *
    rw [List.foldl_append, List.foldl_cons, List.foldl_nil, Map.get?_set, ih, Map.members_concat]
    by_cases hk : a.pair = k
    · rw [if_pos hk.symm, if_pos hk, List.getLast?_concat]
    · rw [if_neg (Ne.symm hk), if_neg hk, List.append_nil]

theorem mem_ofPair {a : Application} :
    a ∈ ofPair k applications ↔ a ∈ applications ∧ a.pair = k := by
  unfold ofPair Map.members
  rw [List.mem_filter, decide_eq_true_eq]

theorem mem_of_latestOf {a : Application} (h : latestOf applications k = some a) :
    a ∈ ofPair k applications :=
  List.mem_of_getLast? h

theorem pair_of_entry {e : Entry (Id × Id) Application}
    (he : e ∈ (latestByStudentSchool applications).rows) : e.value.pair = e.key := by
  have hget := Map.mem_rows_iff.1 he
  rw [get?_latestByStudentSchool] at hget
  exact (mem_ofPair.1 (mem_of_latestOf hget)).2

theorem nodup_latest (applications : List Application) :
    ((latestByStudentSchool applications).values.map Application.pair).Nodup := by
  have hkeys : (latestByStudentSchool applications).values.map Application.pair =
      (latestByStudentSchool applications).rows.map Keyed.key := by
    unfold Map.values
    rw [List.map_map]
    exact List.map_congr_left fun e he => pair_of_entry he
  rw [hkeys]
  exact (latestByStudentSchool applications).nodup

theorem find?_latest (applications : List Application) (k : Id × Id) :
    (latestByStudentSchool applications).values.find? (fun a => a.pair = k) =
      latestOf applications k := by
  rw [← get?_latestByStudentSchool]
  cases hfind : (latestByStudentSchool applications).values.find? (fun a => a.pair = k) with
  | some a =>
    obtain ⟨k', hk'⟩ := Map.mem_values.1 (List.mem_of_find?_eq_some hfind)
    have hpair : a.pair = k := by simpa using List.find?_some hfind
    have hkey : a.pair = k' := by
      rw [get?_latestByStudentSchool] at hk'
      exact (mem_ofPair.1 (mem_of_latestOf hk')).2
    rw [← hpair, hkey, hk']
  | none =>
    cases hget : (latestByStudentSchool applications).get? k with
    | none => rfl
    | some a =>
      have hmem : a ∈ (latestByStudentSchool applications).values := Map.mem_values.2 ⟨k, hget⟩
      rw [get?_latestByStudentSchool] at hget
      have hno := List.find?_eq_none.1 hfind a hmem
      exact absurd (decide_eq_true (mem_ofPair.1 (mem_of_latestOf hget)).2) hno

/-! ## What the script leaves -/

theorem enrollmentFor_eq_some {a : Application} {e : StudentEnrollment}
    (h : enrollmentFor db a = some e) :
    Keyed.key e = a.pair ∧ a.offer.programId = some e.programId := by
  unfold enrollmentFor at h
  obtain ⟨programId, hprogramId, h⟩ := Option.bind_eq_some_iff.1 h
  obtain ⟨program, hprogram, h⟩ := Option.bind_eq_some_iff.1 h
  obtain ⟨year, -, h⟩ := Option.bind_eq_some_iff.1 h
  obtain rfl := Option.some.inj h
  have hid : program.id = programId :=
    Table.key_of_find? (Option.mem_filter_iff.1 hprogram).1
  exact ⟨rfl, hid ▸ hprogramId⟩

/-- The enrolment depends on the student, the school and the programme alone. -/
theorem enrollmentFor_congr {a b : Application} (hpair : a.pair = b.pair)
    (hprogram : a.offer.programId = b.offer.programId) :
    enrollmentFor db a = enrollmentFor db b := by
  obtain ⟨hstudent, hschool⟩ := Prod.mk.inj hpair
  unfold enrollmentFor
  rw [hstudent, hschool, hprogram]

/-- A pair has the enrolment for its last application, if there is one, and else what it had. -/
theorem find?_backfill (applications : List Application) (db : Database) (k : Id × Id) :
    (backfill applications db).studentEnrollments.find? k =
      ((latestOf applications k).bind (enrollmentFor db)).or (db.studentEnrollments.find? k) := by
  rw [← find?_latest]
  exact Table.find?_putAll _ (fun a e he => (enrollmentFor_eq_some he).1) (nodup_latest applications)
    _ _

/-! ## Which application is the most recent -/

/-- The accepted applications of a student to a school. -/
def candidates (db : Database) (k : Id × Id) : List Application :=
  (db.applications.rows.filter isAccepted).filter (·.pair = k)

/-- By the date of the decision, an application without one ranking below any with one, and then by the
    date it was submitted. -/
def Application.RanksAtMost (a b : Application) : Prop :=
  match a.decisionDate, b.decisionDate with
  | some d, some e => d.ms < e.ms ∨ d.ms = e.ms ∧ a.submittedAt.ms ≤ b.submittedAt.ms
  | some _, none => False
  | none, some _ => True
  | none, none => a.submittedAt.ms ≤ b.submittedAt.ms

def MostRecent (db : Database) (k : Id × Id) (a : Application) : Prop :=
  a ∈ candidates db k ∧ ∀ b ∈ candidates db k, b.RanksAtMost a

theorem Answers.mem_ofPair (h : Answers db applications) {a : Application} :
    a ∈ ofPair k applications ↔ a ∈ candidates db k := by
  rw [Enrollment.mem_ofPair, h.perm.mem_iff]
  unfold candidates
  rw [List.mem_filter (p := fun a : Application => a.pair = k), decide_eq_true_eq]

theorem comesBefore_refl (a : Application) : comesBefore a a = true := by
  unfold comesBefore
  cases a.decisionDate <;> simp

/-- The query gives the other applications of the pair before the last. -/
theorem Answers.comesBefore_latest (h : Answers db applications) {a : Application}
    (ha : latestOf applications k = some a) :
    ∀ b ∈ candidates db k, comesBefore b a = true := by
  intro b hb
  obtain ⟨before, hbefore⟩ := List.getLast?_eq_some_iff.1 ha
  have hsorted : (ofPair k applications).Pairwise fun a b => comesBefore a b = true :=
    h.sorted.sublist List.filter_sublist
  have hmem := h.mem_ofPair.2 hb
  rw [hbefore] at hsorted hmem
  rcases List.mem_append.1 hmem with hb | hb
  · exact (List.pairwise_append.1 hsorted).2.2 b hb a (by simp)
  · rw [List.mem_singleton.1 hb]
    exact comesBefore_refl a

/-- With and without a decision is what the two orders disagree about. -/
theorem ranksAtMost_iff_comesBefore {a b : Application}
    (h : a.decisionDate.isSome = b.decisionDate.isSome) :
    a.RanksAtMost b ↔ comesBefore a b = true := by
  unfold Application.RanksAtMost comesBefore
  cases ha : a.decisionDate <;> cases hb : b.decisionDate <;> simp_all

theorem Answers.latest_mostRecent (h : Answers db applications) {a : Application}
    (ha : latestOf applications k = some a)
    (hsame : (∀ b ∈ candidates db k, b.decisionDate.isSome = true) ∨
      ∀ b ∈ candidates db k, b.decisionDate.isSome = false) :
    MostRecent db k a := by
  have hmem := h.mem_ofPair.1 (mem_of_latestOf ha)
  refine ⟨hmem, fun b hb => (ranksAtMost_iff_comesBefore ?_).2 (h.comesBefore_latest ha b hb)⟩
  rcases hsame with hdated | hundated
  · rw [hdated a hmem, hdated b hb]
  · rw [hundated a hmem, hundated b hb]

/-! ## What the header of the script promises -/

/-- There is one enrolment at most for a student and a school. -/
def OnePerPair (db : Database) : Prop :=
  ∀ e ∈ db.studentEnrollments, ∀ e' ∈ db.studentEnrollments, Keyed.key e = Keyed.key e' → e = e'

/-- Every new enrolment is the one for a most recent application of its pair. -/
def BuiltFromMostRecent (db db' : Database) : Prop :=
  ∀ e ∈ db'.studentEnrollments, db.studentEnrollments.contains (Keyed.key e) = false →
    ∃ a, MostRecent db (Keyed.key e) a ∧ enrollmentFor db a = some e

/-- No enrolment is changed. -/
def Kept (db db' : Database) : Prop :=
  ∀ e ∈ db.studentEnrollments, e ∈ db'.studentEnrollments

theorem kept_backfill_iff :
    Kept db (backfill applications db) ↔
      ∀ e ∈ db.studentEnrollments, ∀ a, latestOf applications (Keyed.key e) = some a →
        ∀ e', enrollmentFor db a = some e' → e' = e := by
  unfold Kept
  refine forall₂_congr fun e he => ?_
  have hfind := find?_backfill applications db (Keyed.key e)
  rw [Table.find?_key he] at hfind
  constructor
  · intro hmem a ha e' he'
    rw [Table.find?_key hmem, ha, Option.bind_some, he', Option.some_or] at hfind
    exact (Option.some.inj hfind).symm
  · intro h
    have hsame : ((latestOf applications (Keyed.key e)).bind (enrollmentFor db)).or (some e) =
        some e := by
      cases ha : latestOf applications (Keyed.key e) with
      | none => rfl
      | some a =>
        cases he' : enrollmentFor db a with
        | none => simp [he']
        | some e' => simp [he', h a ha e' he']
    exact Table.mem_of_find? (hfind.trans hsame)

/-- Where the script makes a new enrolment, all applications of the pair have a decision, or none has
    one, or a most recent one is for the same programme as the last of the query. -/
def DatesAgree (db : Database) (applications : List Application) : Prop :=
  ∀ k, db.studentEnrollments.contains k = false → ∀ a, latestOf applications k = some a →
    (enrollmentFor db a).isSome = true →
    (∀ b ∈ candidates db k, b.decisionDate.isSome = true) ∨
    (∀ b ∈ candidates db k, b.decisionDate.isSome = false) ∨
    ∃ b, MostRecent db k b ∧ b.offer.programId = a.offer.programId

theorem pair_of_mostRecent {a : Application} (h : MostRecent db k a) : a.pair = k :=
  of_decide_eq_true (List.mem_filter.1 h.1).2

theorem builtFromMostRecent_backfill_iff (h : Answers db applications) :
    BuiltFromMostRecent db (backfill applications db) ↔ DatesAgree db applications := by
  constructor
  · intro hbuilt k hnew a ha hsome
    obtain ⟨e, he⟩ := Option.isSome_iff_exists.1 hsome
    have hfind := find?_backfill applications db k
    rw [ha, Option.bind_some, he, Option.some_or] at hfind
    obtain ⟨hmem, hkey⟩ := Table.find?_eq_some.1 hfind
    obtain ⟨b, hb, hbe⟩ := hbuilt e hmem (hkey ▸ hnew)
    rw [hkey] at hb
    refine .inr (.inr ⟨b, hb, ?_⟩)
    rw [(enrollmentFor_eq_some hbe).2, (enrollmentFor_eq_some he).2]
  · intro hagree e hmem hnew
    have hfind := find?_backfill applications db (Keyed.key e)
    rw [Table.find?_key hmem, Option.not_isSome_iff_eq_none.1 (Bool.eq_false_iff.1 hnew),
      Option.or_none] at hfind
    obtain ⟨a, ha, hae⟩ := Option.bind_eq_some_iff.1 hfind.symm
    rcases hagree _ hnew a ha (hae ▸ rfl) with hdated | hundated | ⟨b, hb, hprogram⟩
    · exact ⟨a, h.latest_mostRecent ha (.inl hdated), hae⟩
    · exact ⟨a, h.latest_mostRecent ha (.inr hundated), hae⟩
    · have hpair : b.pair = a.pair :=
        (pair_of_mostRecent hb).trans (mem_ofPair.1 (mem_of_latestOf ha)).2.symm
      exact ⟨b, hb, (enrollmentFor_congr hpair hprogram).trans hae⟩

theorem onePerPair (db : Database) : OnePerPair db :=
  fun _ he _ he' hkey => Table.eq_of_key_eq he he' hkey

/-- A run of the script builds new enrolments from most recent applications, and one more run later,
    whatever has become of the rows, changes no enrolment, exactly when the dates agree in the first
    run, and the later run finds every enrolment that it writes as it would write it. -/
theorem backfill_safe_iff (h : Answers db applications) (later : Database)
    (applications' : List Application) :
    OnePerPair (backfill applications db) ∧
      BuiltFromMostRecent db (backfill applications db) ∧
      Kept later (backfill applications' later) ↔
    DatesAgree db applications ∧
      ∀ e ∈ later.studentEnrollments, ∀ a, latestOf applications' (Keyed.key e) = some a →
        ∀ e', enrollmentFor later a = some e' → e' = e := by
  rw [builtFromMostRecent_backfill_iff h, kept_backfill_iff]
  exact and_iff_right (onePerPair _)

/-! ## One student -/

def dated : Application := ⟨1, 7, ⟨5, 3, some 8⟩, .ENROLLED, some ⟨10⟩, ⟨1⟩, none⟩

/-- For another programme of the school, and without the date of a decision. -/
def undated : Application := ⟨2, 7, ⟨6, 3, some 9⟩, .ACCEPTED, none, ⟨1⟩, none⟩

/-- A student's applications and enrolments. -/
def oneStudent (applications : List Application) (enrollments : List StudentEnrollment) :
    Database where
  applications := .ofList applications
  programs := .ofList [⟨8, 3, "Informatique"⟩, ⟨9, 3, "Mathématiques"⟩]
  academicYears := .ofList [⟨4, 3, "2026-2027", true⟩]
  studentEnrollments := .ofList enrollments

/-- The enrolment that the script writes for the dated application, and what may become of it. -/
def enrolled (level : Int) (status : Teaching.EnrollmentStatus) : StudentEnrollment :=
  ⟨7, 3, 8, level, 4, enrollmentLabel "Informatique" 1 "2026-2027", status⟩

theorem backfill_safe_iff_unchanged :
    OnePerPair (backfill [dated] (oneStudent [dated] [])) ∧
      BuiltFromMostRecent (oneStudent [dated] []) (backfill [dated] (oneStudent [dated] [])) ∧
      Kept (oneStudent [dated] [enrolled 1 .ACTIVE])
        (backfill [dated] (oneStudent [dated] [enrolled 1 .ACTIVE])) := by
  have hanswers : Answers (oneStudent [dated] []) [dated] := ⟨by decide, by simp⟩
  refine (backfill_safe_iff hanswers (oneStudent [dated] [enrolled 1 .ACTIVE]) [dated]).2 ⟨?_, ?_⟩
  · intro k _ a _ _
    refine .inl fun b hb => ?_
    obtain rfl : b = dated := List.mem_singleton.1 (List.mem_filter.1 hb).1
    rfl
  · intro e he a ha e' he'
    obtain rfl : e = enrolled 1 .ACTIVE := List.mem_singleton.1 he
    obtain rfl : dated = a := Option.some.inj ha
    exact (Option.some.inj he').symm

/-- The enrolment is built from the application without a decision; and a student who has withdrawn
    is enrolled again. -/
theorem backfill_unsafe :
    ¬ BuiltFromMostRecent (oneStudent [dated, undated] [])
        (backfill [dated, undated] (oneStudent [dated, undated] [])) ∧
      ¬ Kept (oneStudent [dated] [enrolled 1 .WITHDRAWN])
        (backfill [dated] (oneStudent [dated] [enrolled 1 .WITHDRAWN])) := by
  constructor
  · have hanswers : Answers (oneStudent [dated, undated] []) [dated, undated] :=
      ⟨by decide, by decide⟩
    rw [builtFromMostRecent_backfill_iff hanswers]
    intro hagree
    rcases hagree (7, 3) rfl undated rfl rfl with hdated | hundated | ⟨b, hb, hprogram⟩
    · exact absurd (hdated undated (by decide)) (by decide)
    · exact absurd (hundated dated (by decide)) (by decide)
    · have hmem : b ∈ [dated, undated] := (List.mem_filter.1 hb.1).1
      rcases List.mem_cons.1 hmem with rfl | hmem
      · exact absurd hprogram (by decide)
      · obtain rfl := List.mem_singleton.1 hmem
        exact absurd (hb.2 dated (by decide)) (by simp [Application.RanksAtMost, dated, undated])
  · rw [kept_backfill_iff]
    intro hkept
    have hsame := hkept (enrolled 1 .WITHDRAWN) (List.mem_singleton.2 rfl) dated rfl
      (enrolled 1 .ACTIVE) rfl
    exact absurd hsame (by decide)

end GetPlatform.Enrollment
