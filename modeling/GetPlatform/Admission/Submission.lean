import GetPlatform.Admission.Timeline
import GetPlatform.Order.Distinct

set_option autoImplicit false

/-! # What a submission for a list of offers comes to

The offers of a request are gone through one after the other, and each application that is created
changes what the rest of the list meets. `Filed` is what holds after a part of the list: it says all of
the results in terms of the state before the call (`submissions_partitioned`). -/

namespace GetPlatform.Admission

open Prog

/-! ## Lists -/

section Lists

variable {α : Type} {l a b c : List α}

/-- A list is dealt out to three lists, each of which keeps its order. -/
structure Dealt (l a b c : List α) : Prop where
  perm : (a ++ b ++ c).Perm l
  first : a.Sublist l
  second : b.Sublist l
  third : c.Sublist l

theorem Dealt.nil : Dealt ([] : List α) [] [] [] := ⟨.refl _, .slnil, .slnil, .slnil⟩

theorem Dealt.concat_first (h : Dealt l a b c) (x : α) : Dealt (l ++ [x]) (a ++ [x]) b c := by
  refine ⟨?_, h.first.append_right _, h.second.trans (List.sublist_append_left _ _),
    h.third.trans (List.sublist_append_left _ _)⟩
  refine List.Perm.trans ?_ (h.perm.append_right [x])
  rw [List.append_assoc, List.append_assoc, List.append_assoc, List.append_assoc]
  exact ((@List.perm_append_comm _ [x] _).trans (by rw [List.append_assoc])).append_left a

theorem Dealt.concat_second (h : Dealt l a b c) (x : α) : Dealt (l ++ [x]) a (b ++ [x]) c := by
  refine ⟨?_, h.first.trans (List.sublist_append_left _ _), h.second.append_right _,
    h.third.trans (List.sublist_append_left _ _)⟩
  refine List.Perm.trans ?_ (h.perm.append_right [x])
  rw [← List.append_assoc, List.append_assoc (a ++ b), List.append_assoc (a ++ b)]
  exact List.perm_append_comm.append_left (a ++ b)

theorem Dealt.concat_third (h : Dealt l a b c) (x : α) : Dealt (l ++ [x]) a b (c ++ [x]) := by
  refine ⟨?_, h.first.trans (List.sublist_append_left _ _),
    h.second.trans (List.sublist_append_left _ _), h.third.append_right _⟩
  rw [← List.append_assoc]
  exact h.perm.append_right [x]

end Lists

/-! ## What the results say -/

/-- The offer takes applications: it is open and not deleted, and its deadline has not passed. -/
def World.takes (s : World) (offerId : Id) : Bool :=
  (s.offers.find? offerId).any fun o =>
    o.isOpen && o.deletedAt.isNone && !o.applicationDeadline.any (· < s.clock)

/-- The student has an application for the offer. -/
def World.applied (s : World) (studentId offerId : Id) : Bool :=
  s.applications.rows.any fun a => a.studentId = studentId ∧ a.offerId = offerId

/-- The entry that an application starts with. -/
def firstEntry (app : Application) : TimelineEntry :=
  { applicationId := app.id, status := .PENDING, note := .submitted, createdBy := none }

/-- The unique index on the student and the offer of an application. -/
def OneApplication (s : World) : Prop :=
  ∀ app ∈ s.applications, ∀ app' ∈ s.applications, app.studentId = app'.studentId →
    app.offerId = app'.offerId → app = app'

/-- What has become of a list of offers. -/
structure Filed (s s' : World) (studentId : Id) (offerIds : List Id) (results : Submissions) :
    Prop where
  dealt : Dealt offerIds results.submitted results.failed results.alreadyApplied
  submitted : results.submitted =
    (offerIds.filter fun id => s.takes id && !s.applied studentId id).eraseDups
  failed : results.failed = offerIds.filter fun id => !s.takes id
  created : ∃ rows, s'.applications.rows = s.applications.rows ++ rows ∧
    s'.timeline = s.timeline ++ rows.map firstEntry ∧ rows.map (·.offerId) = results.submitted ∧
    ∀ app ∈ rows, app.studentId = studentId ∧ app.status = .PENDING
  kept : s' = { s with applications := s'.applications, timeline := s'.timeline }

section Filing

variable {s s' : World} {studentId offerId : Id} {offerIds : List Id} {results : Submissions}

theorem Filed.nil (s : World) (studentId : Id) : Filed s s studentId [] {} :=
  ⟨.nil, rfl, rfl, ⟨[], (List.append_nil _).symm, (List.append_nil _).symm, rfl, by simp⟩, rfl⟩

/-- An offer takes applications as before, and the new applications are those that were submitted. -/
theorem Filed.takes (h : Filed s s' studentId offerIds results) (id : Id) :
    s'.takes id = s.takes id := by
  rw [h.kept]
  rfl

theorem Filed.applied (h : Filed s s' studentId offerIds results) (id : Id) :
    s'.applied studentId id = true ↔ s.applied studentId id = true ∨ id ∈ results.submitted := by
  obtain ⟨rows, happs, -, hsubmitted, hrows⟩ := h.created
  rw [World.applied, happs, List.any_append, Bool.or_eq_true, ← hsubmitted]
  refine or_congr Iff.rfl ?_
  rw [List.any_eq_true, List.mem_map]
  constructor
  · rintro ⟨app, happ, hsame⟩
    exact ⟨app, happ, (of_decide_eq_true hsame).2⟩
  · rintro ⟨app, happ, rfl⟩
    exact ⟨app, happ, decide_eq_true ⟨(hrows app happ).1, rfl⟩⟩

theorem Filed.mem_submitted (h : Filed s s' studentId offerIds results) {id : Id} :
    id ∈ results.submitted ↔ id ∈ offerIds ∧ s.takes id = true ∧ s.applied studentId id = false := by
  rw [h.submitted, List.mem_eraseDups, List.mem_filter, Bool.and_eq_true, Bool.not_eq_true']

/-- The next offer takes no application. -/
theorem Filed.fail (h : Filed s s' studentId offerIds results) (htakes : s.takes offerId = false) :
    Filed s s' studentId (offerIds ++ [offerId])
      { results with failed := results.failed ++ [offerId] } := by
  refine ⟨h.dealt.concat_second offerId, ?_, ?_, h.created, h.kept⟩
  · rw [List.filter_append, List.filter_singleton, htakes]
    simpa using h.submitted
  · rw [List.filter_append, List.filter_singleton, htakes, h.failed]
    rfl

/-- The student has applied for the next offer, before the call or in it. -/
theorem Filed.skip (h : Filed s s' studentId offerIds results) (htakes : s.takes offerId = true)
    (happlied : s'.applied studentId offerId = true) :
    Filed s s' studentId (offerIds ++ [offerId])
      { results with alreadyApplied := results.alreadyApplied ++ [offerId] } := by
  refine ⟨h.dealt.concat_third offerId, ?_, ?_, h.created, h.kept⟩
  · rw [List.filter_append, List.filter_singleton, htakes, Bool.true_and, h.submitted]
    rcases (h.applied offerId).1 happlied with hbefore | hsubmitted
    · simp [hbefore]
    · obtain ⟨hmem, -, hnot⟩ := h.mem_submitted.1 hsubmitted
      rw [hnot, Bool.not_false, cond_true, eraseDups_concat, if_pos]
      simp [hmem, htakes, hnot]
  · rw [List.filter_append, List.filter_singleton, htakes, h.failed]
    simp

/-- An application is created for the next offer. -/
theorem Filed.submit (h : Filed s s' studentId offerIds results) (htakes : s.takes offerId = true)
    (happlied : s'.applied studentId offerId = false) {row : Application}
    (hnew : s'.applications.contains row.id = false) (hstudent : row.studentId = studentId)
    (hoffer : row.offerId = offerId) (hstatus : row.status = .PENDING) :
    Filed s { s' with
        applications := s'.applications.insert row, timeline := s'.timeline ++ [firstEntry row] }
      studentId (offerIds ++ [offerId])
      { results with submitted := results.submitted ++ [offerId] } := by
  have hnot : s.applied studentId offerId = false ∧ offerId ∉ results.submitted := by
    rw [← Bool.not_eq_true, ← not_or, ← h.applied, happlied]
    exact Bool.false_ne_true
  refine ⟨h.dealt.concat_first offerId, ?_, ?_, ?_, ?_⟩
  · have hfirst : offerId ∉ offerIds.filter fun id => s.takes id && !s.applied studentId id := by
      rw [← List.mem_eraseDups, ← h.submitted]
      exact hnot.2
    rw [List.filter_append, List.filter_singleton, htakes, hnot.1, Bool.not_false, Bool.and_true,
      cond_true, eraseDups_concat, if_neg hfirst, ← h.submitted]
  · rw [List.filter_append, List.filter_singleton, htakes, h.failed]
    simp
  · obtain ⟨rows, happs, htimeline, hsubmitted, hrows⟩ := h.created
    refine ⟨rows ++ [row], ?_, ?_, ?_, ?_⟩
    · rw [← List.append_assoc, ← happs]
      exact Table.rows_insert hnew
    · rw [List.map_append, ← List.append_assoc, ← htimeline]
      rfl
    · rw [List.map_append, hsubmitted, List.map_singleton, hoffer]
    · intro app happ
      rcases List.mem_append.1 happ with happ | happ
      · exact hrows app happ
      · rw [List.mem_singleton.1 happ]
        exact ⟨hstudent, hstatus⟩
  · rw [h.kept]

/-! ## What a list of offers comes to -/

/-- The new applications are for different offers, and for none that was applied for. -/
theorem Filed.once (h : Filed s s' studentId offerIds results) (hone : OneApplication s) :
    OneApplication s' := by
  obtain ⟨rows, happs, -, hsubmitted, hrows⟩ := h.created
  have hcases : ∀ app ∈ s'.applications, app ∈ s.applications ∨ app ∈ rows := by
    intro app happ
    rw [Table.mem_def, happs, List.mem_append] at happ
    exact happ
  have hnot : ∀ app ∈ rows, s.applied studentId app.offerId = false := fun app happ =>
    (h.mem_submitted.1 (hsubmitted ▸ List.mem_map_of_mem happ)).2.2
  have hnew : ∀ app ∈ rows, ∀ app' ∈ s.applications, app'.studentId = studentId →
      app'.offerId ≠ app.offerId := by
    intro app happ app' happ' hstudent hoffer
    refine Bool.eq_false_iff.1 (hnot app happ) (List.any_eq_true.2 ⟨app', happ', ?_⟩)
    exact decide_eq_true ⟨hstudent, hoffer⟩
  intro app happ app' happ' hstudent hoffer
  rcases hcases app happ with hold | hadded <;> rcases hcases app' happ' with hold' | hadded'
  · exact hone app hold app' hold' hstudent hoffer
  · exact absurd hoffer (hnew app' hadded' app hold (hstudent.trans (hrows app' hadded').1))
  · exact absurd hoffer.symm
      (hnew app hadded app' hold' (hstudent.symm.trans (hrows app hadded).1))
  · refine List.inj_on_of_nodup_map (?_ : (rows.map (·.offerId)).Nodup) hadded hadded' hoffer
    rw [hsubmitted, h.submitted]
    exact nodup_eraseDups _

theorem filter_eq_singleton {β : Type} [DecidableEq β] {f : Application → β} {rows : List Application}
    (hnodup : (rows.map f).Nodup) {app : Application} (happ : app ∈ rows) :
    rows.filter (fun other => f other = f app) = [app] := by
  induction rows with
  | nil => cases happ
  | cons row rows ih =>
      obtain ⟨hrow, hnodup⟩ := List.nodup_cons.1 hnodup
      by_cases heq : f row = f app
      · obtain rfl : app = row := by
          rcases List.mem_cons.1 happ with rfl | hmem
          · rfl
          · exact absurd (List.mem_map.2 ⟨app, hmem, heq.symm⟩) hrow
        have hrest : rows.filter (fun other => f other = f app) = [] :=
          List.filter_eq_nil_iff.2 fun other hother hsame =>
            hrow (List.mem_map.2 ⟨other, hother, of_decide_eq_true hsame⟩)
        rw [List.filter_cons_of_pos (by simp), hrest]
      · rw [List.filter_cons_of_neg (by simpa using heq)]
        refine ih hnodup ((List.mem_cons.1 happ).resolve_left ?_)
        rintro rfl
        exact heq rfl

/-- A new application has one entry. -/
theorem Filed.entries (h : Filed s s' studentId offerIds results)
    (hreferenced : ∀ e ∈ s.timeline, s.applications.contains e.applicationId = true)
    {app : Application} (happ : app ∈ s'.applications) (hnew : app ∉ s.applications) :
    s'.timeline.filter (·.applicationId = app.id) = [firstEntry app] := by
  obtain ⟨rows, happs, htimeline, -, -⟩ := h.created
  have hnodup := s'.applications.nodup
  rw [happs, List.map_append, List.nodup_append] at hnodup
  obtain ⟨-, hrows, hdisjoint⟩ := hnodup
  rw [Table.mem_def, happs, List.mem_append] at happ
  replace happ : app ∈ rows := happ.resolve_left hnew
  have hold : s.timeline.filter (·.applicationId = app.id) = [] := by
    refine List.filter_eq_nil_iff.2 fun e he heq => ?_
    obtain ⟨other, hother⟩ := Option.isSome_iff_exists.1 (hreferenced e he)
    refine hdisjoint _ (List.mem_map_of_mem (Table.mem_of_find? hother)) _
      (List.mem_map_of_mem happ) ?_
    exact (Table.key_of_find? hother).trans (of_decide_eq_true heq)
  rw [htimeline, List.filter_append, hold, List.nil_append, List.filter_map,
    show ((fun e : TimelineEntry => decide (e.applicationId = app.id)) ∘ firstEntry) =
      fun other => decide (other.id = app.id) from rfl,
    filter_eq_singleton (f := fun other => other.id) hrows happ, List.map_singleton]

end Filing

/-! ## The call -/

section Calls

variable {s s' : World} {student : Student} {results : Submissions}
  {E : Err → Option World → World → Prop} {saved : Option World}

theorem isPast_wp_eq {deadline : Option Nat} {Q : Bool → Option World → World → Prop}
    (hE : ∀ e, E e saved s) (hQ : Q (deadline.any (· < s.clock)) saved s) :
    (isPast deadline).wp model Q E saved s := by
  cases deadline with
  | none => exact hQ
  | some deadline =>
      simp only [isPast, bind_eq, pure_eq, wp_handle, wp_send, wp_fail, wp_ret]
      refine ⟨fun _ => hE _, fun _ now hnow => ?_⟩
      obtain rfl := Option.some.inj hnow
      exact hQ

theorem createApplication_wp {studentId offerId : Id} {Q : Application → Option World → World → Prop}
    (hE : ∀ e s', E e saved s')
    (hQ : ∀ row, s.applications.contains row.id = false → row.studentId = studentId →
      row.offerId = offerId → row.status = .PENDING →
      Q row saved { s with
        applications := s.applications.insert row, timeline := s.timeline ++ [firstEntry row] }) :
    (createApplication studentId offerId).wp desk Q E saved s := by
  simp only [createApplication, bind_eq, pure_eq, wp_handle, wp_file, wp_usual, wp_send, wp_fail,
    wp_ret]
  refine ⟨fun _ => hE _ _, fun c row hrow => ⟨fun _ => hE _ _, fun _ _ _ => ?_⟩⟩
  cases c <;> simp only [deskExec, reduceCtorEq] at hrow
  split at hrow
  · cases hrow
  · next id hno =>
      obtain rfl := Option.some.inj hrow
      refine hQ _ (Bool.eq_false_iff.2 fun hold => hno (.inl ?_)) rfl rfl rfl
      obtain ⟨old, hold⟩ := Option.isSome_iff_exists.1 hold
      refine List.any_eq_true.2 ⟨old, Table.mem_of_find? hold, ?_⟩
      exact decide_eq_true (.inl (Table.key_of_find? hold))

theorem takes_of_open {offerId : Id}
    {found : Option Offer} (hfound : (s.offers.find? offerId).filter
      (fun o => o.isOpen && o.deletedAt.isNone) = found) : s.takes offerId =
      found.any fun o => !o.applicationDeadline.any (· < s.clock) := by
  rw [World.takes, ← hfound]
  cases s.offers.find? offerId with
  | none => rfl
  | some o =>
      rw [Option.any_some, Option.filter_some]
      split
      · next hopen => rw [hopen, Bool.true_and, Option.any_some]
      · next hclosed => rw [Bool.eq_false_iff.2 hclosed, Bool.false_and, Option.any_none]

/-- A submission for one offer adds it to the list that it belongs to. -/
theorem submitTo_files {offerIds : List Id} {offerId : Id}
    {Q : Submissions → Option World → World → Prop}
    (h : Filed s s' student.id offerIds results) (hE : ∀ e s, E e none s)
    (hQ : ∀ results s', Filed s s' student.id (offerIds ++ [offerId]) results →
      Q results none s') :
    (submitTo student offerId results).wp desk Q E none s' := by
  simp only [submitTo, bind_eq, pure_eq, wp_handle, wp_file, wp_fail]
  refine ⟨fun _ => hE _ _, fun _ found hfound => ?_⟩
  have htakes := takes_of_open (Option.some.inj hfound)
  rw [h.takes] at htakes
  cases found with
  | none => exact hQ _ _ (h.fail htakes)
  | some offer =>
      simp only [wp_handle, wp_usual]
      refine isPast_wp_eq (fun _ => hE _ _) ?_
      simp only [wp_ite, wp_ret, wp_handle, wp_file, wp_fail]
      refine ⟨fun hpast => hQ _ _ (h.fail (htakes.trans (congrArg not hpast))),
        fun hopen => ⟨fun _ => hE _ _, fun _ existing hexisting => ?_⟩⟩
      replace htakes : s.takes offerId = true :=
        htakes.trans (congrArg not (Bool.eq_false_iff.2 hopen))
      have happlied : existing.isSome = s'.applied student.id offerId := by
        rw [← Option.some.inj hexisting, List.isSome_find?]
        rfl
      rw [happlied]
      refine ⟨fun hagain => hQ _ _ (h.skip htakes hagain), fun hnew => (wp_transaction ..).2 ?_⟩
      refine createApplication_wp (fun _ _ => hE _ _) fun row hfresh hstudent hoffer hstatus =>
        ⟨fun _ => hE _ _, ?_⟩
      simp only [wp_handle, wp_usual]
      refine notifyStatusChange_wp (hQ _ _ ?_)
      exact h.submit htakes (Bool.eq_false_iff.2 hnew) hfresh hstudent hoffer hstatus

theorem submitToAll_files {done : List Id} (offerIds : List Id)
    {Q : Submissions → Option World → World → Prop} (h : Filed s s' student.id done results)
    (hE : ∀ e s, E e none s)
    (hQ : ∀ results s', Filed s s' student.id (done ++ offerIds) results → Q results none s') :
    (submitToAll student offerIds results).wp desk Q E none s' := by
  induction offerIds generalizing s' done results with
  | nil => exact hQ _ _ (by rwa [List.append_nil])
  | cons offerId offerIds ih =>
      simp only [submitToAll, bind_eq, wp_handle]
      refine submitTo_files h hE fun results s' h => ih h fun results s' h => ?_
      rw [List.append_assoc] at h
      exact hQ _ _ h

/-! ## Over a reliable database -/

instance : Inhabited Choice := ⟨.nat 0⟩

@[simp] theorem reliably_usual {α : Type} {Q : α → Option World → World → Prop} (p : Call α) :
    @Prog.reliably deskInterface Err α desk (usual p) Q E saved s ↔ p.reliably model Q E saved s :=
  reliably_lift (N := deskStatements) p saved s

theorem reliably_send {q : Stmt} {a : Ans q} (ha : ∀ c, exec q c s = some a)
    {Q : Ans q → Option World → World → Prop} :
    @Prog.reliably interface Err (no_index (Ans q)) model (send q) Q E saved s ↔
      Q a saved (model.applyAll (writes q a) s) :=
  reliably_answer (M := model) _ ha

/-- A statement of the desk that reads. -/
theorem reliably_read {q : DeskStmt} {a : DeskAns q} (ha : ∀ c, deskExec q c s = some a)
    (hwrites : deskWrites q a = []) {Q : DeskAns q → Option World → World → Prop} :
    @Prog.reliably deskInterface Err (no_index (DeskAns q)) desk (file q) Q E saved s ↔
      Q a saved s := by
  refine (reliably_answer (M := desk) (q := .inr q) Err.database ha).trans ?_
  show Q a saved (desk.applyAll ((deskWrites q a).map .inr) s) ↔ _
  rw [hwrites]
  rfl

/-- An application is created, if there is none for the student and the offer. -/
theorem createApplication_reliably {studentId offerId : Id}
    {Q : Application → Option World → World → Prop} (hstudent : s.students.contains studentId = true)
    (hoffer : s.offers.contains offerId = true) (hnew : s.applied studentId offerId = false)
    (hQ : ∀ row s', s'.students = s.students → Q row saved s') :
    (createApplication studentId offerId).reliably desk Q E saved s := by
  simp only [createApplication, bind_eq, pure_eq, reliably_handle]
  refine ⟨fun hrefused => ?_, fun c row _ => ?_⟩
  · -- Some identifier is new, so the statement is answered.
    obtain ⟨id, hid, -⟩ := s.applications.exists_fresh []
    have hnone := hrefused (.nat id)
    simp only [deskExec] at hnone
    rw [if_neg] at hnone
    · cases hnone
    · rintro (hany | hmissing | hmissing)
      · obtain ⟨app, happ, hsame⟩ := List.any_eq_true.1 hany
        rcases of_decide_eq_true hsame with rfl | hsame
        · exact Bool.eq_false_iff.1 hid (Option.isSome_iff_exists.2 ⟨app, Table.find?_key happ⟩)
        · exact Bool.eq_false_iff.1 hnew (List.any_eq_true.2 ⟨app, happ, decide_eq_true hsame⟩)
      · exact hmissing hstudent
      · exact hmissing hoffer
  · refine (reliably_handle (M := desk) (usual (send _)) _ _).2 ((reliably_usual _).2 ?_)
    exact (reliably_send fun _ => rfl).2 (hQ _ _ rfl)

theorem isPast_reliably {deadline : Option Nat} {Q : Bool → Option World → World → Prop}
    (hQ : ∀ b, Q b saved s) : (isPast deadline).reliably model Q E saved s := by
  cases deadline with
  | none => exact hQ false
  | some deadline =>
      simp only [isPast, bind_eq, pure_eq, reliably_handle]
      exact (reliably_send fun _ => rfl).2 (hQ _)

theorem notifyStatusChange_reliably {userId applicationId : Id} {status : ApplicationStatus}
    {Q : Unit → Option World → World → Prop} (hQ : Q () saved s) :
    (notifyStatusChange userId applicationId status).reliably model Q E saved s := by
  simp only [notifyStatusChange, tryCatch_eq, pure_eq, reliably_handle]
  exact (reliably_send fun _ => rfl).2 hQ

theorem submitTo_reliably {offerId : Id} {Q : Submissions → Option World → World → Prop}
    (hstudent : s.students.contains student.id = true)
    (hQ : ∀ results s', s'.students = s.students → Q results none s') :
    (submitTo student offerId results).reliably desk Q E none s := by
  simp only [submitTo, bind_eq, pure_eq, reliably_handle]
  refine (reliably_read (fun _ => rfl) rfl).2 ?_
  cases hfound : (s.offers.find? offerId).filter fun o => o.isOpen && o.deletedAt.isNone with
  | none => exact hQ _ _ rfl
  | some offer =>
      have hoffer : s.offers.contains offerId = true :=
        Option.isSome_iff_exists.2 ⟨offer, (Option.filter_eq_some_iff.1 hfound).1⟩
      simp only [reliably_handle, reliably_usual]
      refine isPast_reliably fun past => ?_
      rw [reliably_ite, reliably_handle]
      refine ⟨fun _ => hQ _ _ rfl, fun _ => (reliably_read (fun _ => rfl) rfl).2 ?_⟩
      rw [reliably_ite, reliably_handle, reliably_transaction]
      refine ⟨fun _ => hQ _ _ rfl, fun hnone => ?_⟩
      refine createApplication_reliably hstudent hoffer ?_ fun row s' hs' => ?_
      · rw [List.isSome_find?] at hnone
        exact Bool.eq_false_iff.2 hnone
      · simp only [reliably_handle, reliably_usual]
        exact notifyStatusChange_reliably (hQ _ _ hs')

theorem submitToAll_reliably (offerIds : List Id) {Q : Submissions → Option World → World → Prop}
    (hstudent : s.students.contains student.id = true) (hQ : ∀ results s', Q results none s') :
    (submitToAll student offerIds results).reliably desk Q E none s := by
  induction offerIds generalizing s results with
  | nil => exact hQ _ _
  | cons offerId offerIds ih =>
      simp only [submitToAll, bind_eq, reliably_handle]
      exact submitTo_reliably hstudent fun _ _ hs' => ih (hs' ▸ hstudent)

end Calls

section Requests

variable {s : World} {studentId : Id} {offerIds : List Id}

/-- **Submitting applications partitions the request**: whatever statements fail, a call that returns
    has filed each offer in its list; and it returns, unless a statement fails that could have been
    answered. -/
theorem submissions_partitioned (hone : OneApplication s)
    (hreferenced : ∀ e ∈ s.timeline, s.applications.contains e.applicationId = true)
    (hstudent : s.students.contains studentId = true) :
    (∀ cs results s', (submitApplications studentId offerIds).alone (M := desk) none s cs =
        some (.ok results, s') →
      Filed s s' studentId offerIds results ∧ OneApplication s' ∧
        ∀ app ∈ s'.applications, app ∉ s.applications →
          s'.timeline.filter (·.applicationId = app.id) = [firstEntry app]) ∧
    ∀ r s', Ran desk (submitApplications studentId offerIds) none s r s' →
      ∃ results, r = .ok results := by
  obtain ⟨student, hfound⟩ := Option.isSome_iff_exists.1 hstudent
  obtain rfl : student.id = studentId := Table.key_of_find? hfound
  constructor
  · intro cs results s' hrun
    have hfiled : ∀ results', Except.ok (ε := Err) results = .ok results' →
        Filed s s' student.id offerIds results' := by
      refine wp_alone (M := desk) (P := fun r s' => ∀ results', r = .ok results' →
        Filed s s' student.id offerIds results') ?_ hrun
      simp only [submitApplications, bind_eq, throw_eq, wp_handle, wp_usual, wp_send, wp_fail]
      refine ⟨fun _ _ h => (by cases h), fun _ found hread => ?_⟩
      obtain rfl : some student = found := hfound.symm.trans (Option.some.inj hread)
      exact submitToAll_files offerIds (Filed.nil s student.id) (fun _ _ _ h => by cases h)
        fun _ _ hfiled _ heq => Except.ok.inj heq ▸ hfiled
    have hfiled := hfiled results rfl
    exact ⟨hfiled, hfiled.once hone, fun app happ hnew => hfiled.entries hreferenced happ hnew⟩
  · intro r s' hrun
    refine hrun.holds (P := fun r _ => ∃ results, r = .ok results) ?_
    simp only [submitApplications, bind_eq, throw_eq, reliably_handle, reliably_usual]
    refine (reliably_send fun _ => rfl).2 ?_
    rw [hfound]
    exact submitToAll_reliably offerIds hstudent fun results _ => ⟨results, rfl⟩

end Requests

/-- Student 11 has applied for offer 8; offer 6 is closed, and offer 7 was open until instant 100. -/
def requested : World :=
  { openOffer with
    offers := .ofList
      [⟨5, 7, none, 100, none, none, true, none⟩, ⟨6, 7, none, 100, none, none, false, none⟩,
       ⟨7, 7, none, 100, none, some 100, true, none⟩, ⟨8, 7, none, 100, none, none, true, none⟩]
    applications := .ofList [⟨1, 11, 8, .PENDING, none, none, none, none, none, none, 0⟩]
    clock := 200 }

theorem submissions_partitioned_requested : ∃ cs results s',
    (submitApplications 11 [5, 6, 5, 8, 7]).alone (M := desk) none requested cs =
      some (.ok results, s') ∧
    results = { submitted := [5], failed := [6, 7], alreadyApplied := [5, 8] } ∧
    Filed requested s' 11 [5, 6, 5, 8, 7] results ∧ OneApplication s' := by
  have hend : ((submitApplications 11 [5, 6, 5, 8, 7]).alone (M := desk) none requested
      (List.replicate 14 (.ok (.nat 2)))).any (fun (r, _) => match r with
        | .ok results => results = { submitted := [5], failed := [6, 7], alreadyApplied := [5, 8] }
        | .error _ => False) = true := by decide +kernel
  obtain ⟨⟨r, s'⟩, hrun, hresults⟩ := (Option.any_eq_true _ _).1 hend
  cases r with
  | error e => cases of_decide_eq_true hresults
  | ok results =>
      have hone : OneApplication requested := by
        intro app happ app' happ' _ _
        rw [List.mem_singleton.1 happ, List.mem_singleton.1 happ']
      obtain ⟨hfiled, hone', -⟩ :=
        (submissions_partitioned hone (by rintro e ⟨⟩) (by decide)).1 _ results s' hrun
      exact ⟨_, results, s', hrun, of_decide_eq_true hresults, hfiled, hone'⟩

end GetPlatform.Admission
