import GetPlatform.Integration.IntegrationService

set_option autoImplicit false

/-! # At most one reminder in a window

A run of the automation asks which applications are to be reminded of, sends a mail for each, and only then writes
down that it has. The list leaves out what was written down within the window. So a second mail within the window
is one whose predecessor was not on record when the list was made: the runs overlapped, or a run failed between
the mail and the record. -/

namespace GetPlatform.Integration

open Notifications (Id)
open Pool Prog

abbrev Ev := Event interface
abbrev Log := Trace interface Op

/-! ## Reminders and records -/

/-- The instant at which an event reminds of an application. -/
def reminder (subject : Id × Id) : Nat × Ev → Option Int
  | (_, ⟨.sendEmail dto _, .ok departure⟩) => if dto.subject = subject then some departure.sentAt else none
  | _ => none

/-- The instant that an event writes down for an application. -/
def noted (subject : Id × Id) : Nat × Ev → Option Int
  | (_, ⟨.applicationUpdate _ lastReminderSentAt, row⟩) =>
      if row.subject = subject then some lastReminderSentAt else none
  | _ => none

/-- What is on record of the reminders of an application. -/
def onRecord (subject : Id × Id) (h : History interface) : Option Int := h.findSome? (noted subject)

/-- What had happened when the run at place `i` listed the applications. -/
def beforeListing (i : Nat) : History interface → History interface
  | [] => []
  | (j, ⟨.applicationFindMany .., _⟩) :: h => if j = i then h else beforeListing i h
  | _ :: h => beforeListing i h

/-- No application is sent two reminders within a window. -/
def AtMostOne (staleDays : Nat) (h : History interface) : Prop :=
  ∀ subject, (h.filterMap (reminder subject)).Pairwise fun later earlier => earlier + window staleDays < later

/-- The reminder that a run is about to send. -/
def reminding (t : Thread interface Op Err Unit) : Option ReminderDto :=
  match t.next? with
  | some (.sendEmail dto _) => some dto
  | _ => none

/-- When a reminder leaves, every reminder of the application within the window was on record when the run made
    its list. -/
def ListedOnRecord (staleDays : Nat) (h : History interface) (p : Platform) : Step model Op → Prop
  | .exec i (.sent _) => ∀ t ∈ p.threads[i]?, ∀ dto ∈ reminding t, ∀ sentAt ∈ h.filterMap (reminder dto.subject),
      p.db.now ≤ sentAt + window staleDays → ∃ r ∈ onRecord dto.subject (beforeListing i h), sentAt ≤ r
  | _ => True

instance (staleDays : Nat) (h : History interface) (p : Platform) (a : Step model Op) :
    Decidable (ListedOnRecord staleDays h p a) := by
  unfold ListedOnRecord
  split <;> infer_instance

/-! ## What a run guarantee of its statements -/

/-- The run has listed this application. -/
def Listed (done : List Ev) (id : Id) : Prop :=
  ∃ staleBefore openAt rows, (⟨.applicationFindMany staleBefore openAt, rows⟩ : Ev) ∈ done ∧
    ∃ x ∈ rows, x.1.id = id

def isListing : Ev → Bool
  | ⟨.applicationFindMany .., _⟩ => true
  | _ => false

/-- A run lists once, and reminds of the applications that it has listed and read again. -/
def reminderGuard (staleDays : Nat) (done : List Ev) : Stmt → Prop
  | .applicationFindMany staleBefore _ => (∀ e ∈ done, isListing e = false) ∧
      ∃ now, (⟨.now, now⟩ : Ev) ∈ done ∧ staleBefore = now - window staleDays
  | .sendEmail dto _ => ∃ id, Listed done id ∧
      ∃ x, (⟨.applicationFindUnique id, some x⟩ : Ev) ∈ done ∧ dto.subject = x.1.subject
  | _ => True

def reminderGuards (staleDays : Nat) : Guards interface Op where
  stmt l q := l.tx = none ∧ reminderGuard staleDays l.done q
  commit _ := False

section Conformance

variable {staleDays : Nat} {toLocaleDateString : Int → String} {o : Op} {d : List Ev}

@[simp] theorem only_perform_handle {β : Type} {P : Stmt → Prop} {q : Stmt} (f : Ans q → Call β) (g : Err → Call β) :
    (@handle interface Err Err (no_index (Ans q)) β (perform q) f g).Only P ↔
      P q ∧ (∀ a, (f a).Only P) ∧ ∀ e, (g (.failure e)).Only P := only_query_handle _ _ _ _

@[simp] theorem reminder_perform {l : Log} {q : Stmt} {Q : Log → Ans q → Prop} {E : Log → Err → Prop} :
    @Conforms interface model Err (no_index (Ans q)) Op (reminderGuards staleDays) (perform q) Q E l ↔
      (l.tx = none ∧ reminderGuard staleDays l.done q) ∧ (∀ f, E l (.failure f)) ∧
        ∀ a, model.Possible q a → Q (l.push ⟨q, a⟩) a := Iff.rfl

/-- The call has gone on outside of transactions. -/
def Further (o : Op) (d : List Ev) (l : Log) : Prop := ∃ d', l = ⟨o, d ++ d', none⟩

theorem further_refl : Further o d ⟨o, d, none⟩ := ⟨[], by rw [List.append_nil]⟩

theorem Further.trans {d' : List Ev} {l : Log} (h : Further o (d ++ d') l) : Further o d l := by
  obtain ⟨d'', rfl⟩ := h
  exact ⟨d' ++ d'', by rw [List.append_assoc]⟩

theorem further_of_only {α : Type} {P : Stmt → Prop} {p : Call α} {d' : List Ev}
    (hP : ∀ d'' q, P q → reminderGuard staleDays (d ++ d' ++ d'') q) (hp : p.Only P) :
    p.Conforms model (reminderGuards staleDays) (fun l _ => Further o d l) (fun l _ => Further o d l)
      ⟨o, d ++ d', none⟩ :=
  hp.conforms_outside (fun d'' _ q hq => ⟨rfl, hP d'' q hq⟩)
    (fun d'' _ _ => ⟨d' ++ d'', by rw [List.append_assoc]⟩) fun d'' _ _ => ⟨d' ++ d'', by rw [List.append_assoc]⟩

/-- Statements that list nothing, and remind of nothing but this application. -/
def RemindsOf (subject : Id × Id) : Stmt → Prop
  | .applicationFindMany .. => False
  | .sendEmail dto _ => dto.subject = subject
  | _ => True

theorem send_remindsOf (dto : ReminderDto) : (send dto).Only (RemindsOf dto.subject) := by
  simp only [send, bind_eq, pure_eq, throw_eq, only_perform_handle, only_fail, implies_true, and_true]
  refine ⟨trivial, fun found => ?_⟩
  cases found with
  | none => trivial
  | some user =>
      simp only [only_perform_handle, only_ite, only_fail, only_ret, implies_true, and_true]
      refine ⟨trivial, fun preferences _ => ⟨rfl, fun answer => ?_⟩⟩
      cases answer with
      | error failureReason => 
          simp only [only_perform_handle, only_fail, implies_true, and_true]
          trivial
      | ok departure =>
          simp only [only_perform_handle, only_fail, only_ret, implies_true, and_true]
          exact ⟨trivial, fun _ => trivial⟩

theorem sendReminder_reminds {applicationId : Id} (hlisted : Listed d applicationId) :
    (sendReminder toLocaleDateString applicationId).Conforms model (reminderGuards staleDays)
      (fun l _ => Further o d l) (fun l _ => Further o d l) ⟨o, d, none⟩ := by
  simp only [sendReminder, bind_eq, pure_eq, throw_eq, conforms_handle, reminder_perform, conforms_fail,
    Trace.push_outside]
  refine ⟨⟨trivial, trivial⟩, fun _ => further_refl, fun found _ => ?_⟩
  cases found with
  | none => exact further_refl.trans
  | some x =>
      -- Whatever follows reminds of the application that was just read.
      have hguard : ∀ d'' q, RemindsOf x.1.subject q →
          reminderGuard staleDays (d ++ [⟨.applicationFindUnique applicationId, some x⟩] ++ d'') q := by
        intro d'' q hq
        cases q with
        | applicationFindMany => exact hq.elim
        | sendEmail dto user =>
            obtain ⟨staleBefore, openAt, rows, hrows, hx⟩ := hlisted
            exact ⟨applicationId, ⟨staleBefore, openAt, rows, by simp [hrows], hx⟩, x, by simp, hq⟩
        | _ => trivial
      refine further_of_only hguard ?_
      refine Only.handle ?_ (fun deadline => ?_) fun _ => trivial
      · cases x.2.applicationDeadline with
        | none => exact (only_query (S := interface) _ _).2 trivial
        | some deadline => trivial
      · refine Only.handle (send_remindsOf _) (fun result => ?_) fun _ => trivial
        simp only [only_perform_handle, only_ret, only_fail, implies_true, and_true]
        exact ⟨trivial, fun _ => trivial⟩

theorem remindAll_reminds {listed : List PendingReminder} (hlisted : ∀ x ∈ listed, Listed d x.applicationId) :
    (remindAll toLocaleDateString listed).Conforms model (reminderGuards staleDays)
      (fun _ _ => True) (fun _ _ => True) ⟨o, d, none⟩ := by
  induction listed generalizing d with
  | nil => trivial
  | cons x rest ih =>
      -- The reminder ends, one way or the other, with more done than before.
      have hrest : ∀ l, Further o d l → (remindAll toLocaleDateString rest).Conforms model
          (reminderGuards staleDays) (fun _ _ => True) (fun _ _ => True) l := by
        rintro l ⟨d', rfl⟩
        refine ih fun y hy => ?_
        obtain ⟨staleBefore, openAt, rows, hrows, hy⟩ := hlisted y (.tail _ hy)
        exact ⟨staleBefore, openAt, rows, by simp [hrows], hy⟩
      simp only [remindAll, bind_eq, pure_eq, tryCatch_eq, conforms_handle, conforms_ret]
      exact conforms_mono (fun l _ h => hrest l h) (fun l _ h => hrest l h)
        (sendReminder_reminds (hlisted x (.head _)))

theorem prog_reminds (staleDays : Nat) (toLocaleDateString : Int → String) (o : Op) :
    (prog toLocaleDateString staleDays o).Conforms model (reminderGuards staleDays) (fun _ _ => True)
      (fun _ _ => True) (.start o) := by
  cases o
  simp only [prog, automation, listApplicationsPendingReminder, bind_eq, pure_eq, conforms_handle,
    reminder_perform, conforms_fail, conforms_ret, Trace.start_eq, Trace.push_outside, implies_true, true_and]
  refine ⟨trivial, fun now _ => ⟨trivial, fun openAt _ => ⟨⟨?_, now, by simp, rfl⟩, fun rows _ => ?_⟩⟩⟩
  · simp [isListing]
  · refine remindAll_reminds fun y hy => ?_
    obtain ⟨x, hx, rfl⟩ := List.mem_map.1 hy
    exact ⟨now - window staleDays, openAt, rows, by simp, x, hx, rfl⟩

end Conformance

/-! ## What the database and the runs know -/

/-- Every application is still there, under its identifier. -/
def Kept (s s' : World) : Prop :=
  ∀ a ∈ s.applications, ∃ a' ∈ s'.applications, a'.id = a.id ∧ a'.subject = a.subject

theorem kept_refl (s : World) : Kept s s := fun a ha => ⟨a, ha, rfl, rfl⟩

theorem kept_modify {s s' : World} {id : Id} (f : Application → Application) (hf : ∀ r, Keyed.key (f r) = Keyed.key r)
    (h : s'.applications = s.applications.modify id f hf) (hsubject : ∀ a, (f a).subject = a.subject) :
    Kept s s' := by
  intro a ha
  rw [h]
  refine ⟨_, Table.mem_modify.2 ⟨a, ha, rfl⟩, ?_⟩
  split
  · exact ⟨hf a, hsubject a⟩
  · exact ⟨rfl, rfl⟩

/-- The database holds what is on record, once for each application. -/
structure Filed (h : History interface) (s : World) : Prop where
  distinct : ∀ a ∈ s.applications, ∀ b ∈ s.applications, a.subject = b.subject → a.id = b.id
  column : ∀ a ∈ s.applications, ∀ r ∈ onRecord a.subject h, a.lastReminderSentAt = some r
  kept : ∀ subject, ∀ r ∈ onRecord subject h, ∃ a ∈ s.applications, a.subject = subject

/-- An application keeps its subject, and what is on record of it. -/
theorem Filed.modify {h : History interface} {s s' : World} (hfiled : Filed h s) {id : Id}
    (f : Application → Application) (hf : ∀ r, Keyed.key (f r) = Keyed.key r)
    (hs' : s'.applications = s.applications.modify id f hf) (hsubject : ∀ a, (f a).subject = a.subject)
    {h' : History interface}
    (hcolumn : ∀ a ∈ s.applications, ∀ r ∈ onRecord a.subject h',
      (if Keyed.key a = id then f a else a).lastReminderSentAt = some r)
    (hkept : ∀ subject, ∀ r ∈ onRecord subject h', ∃ a ∈ s.applications, a.subject = subject) :
    Filed h' s' := by
  have hback : ∀ a' ∈ s'.applications, ∃ a ∈ s.applications, a' = if Keyed.key a = id then f a else a := by
    intro a' ha'
    rw [hs'] at ha'
    exact Table.mem_modify.1 ha'
  have hsame : ∀ a : Application, (if Keyed.key a = id then f a else a).subject = a.subject ∧
      (if Keyed.key a = id then f a else a).id = a.id := by
    intro a
    split
    · exact ⟨hsubject a, hf a⟩
    · exact ⟨rfl, rfl⟩
  refine ⟨fun a' ha' b' hb' heq => ?_, fun a' ha' r hr => ?_, fun subject r hr => ?_⟩
  · obtain ⟨a, ha, rfl⟩ := hback a' ha'
    obtain ⟨b, hb, rfl⟩ := hback b' hb'
    rw [(hsame a).1, (hsame b).1] at heq
    rw [(hsame a).2, (hsame b).2]
    exact hfiled.distinct a ha b hb heq
  · obtain ⟨a, ha, rfl⟩ := hback a' ha'
    rw [(hsame a).1] at hr
    exact hcolumn a ha r hr
  · obtain ⟨a, ha, rfl⟩ := hkept subject r hr
    obtain ⟨a', ha', -, heq⟩ := kept_modify f hf hs' hsubject a ha
    exact ⟨a', ha', heq⟩

/-- What goes on elsewhere keeps the applications and what is on record of them. -/
theorem Filed.elsewhere {h : History interface} {s : World} (hfiled : Filed h s) (e : Elsewhere) :
    Filed h (s.elsewhere e) ∧ Kept s (s.elsewhere e) := by
  cases e with
  | application id userId offerId status =>
      simp only [World.elsewhere]
      split
      · exact ⟨hfiled, kept_refl s⟩
      · next hfree =>
          have hfree : ∀ a ∈ s.applications, a.subject ≠ (userId, offerId) := by
            intro a ha heq
            exact hfree (List.any_eq_true.2 ⟨a, ha, decide_eq_true heq⟩)
          refine ⟨⟨fun a ha b hb heq => ?_, fun a ha r hr => ?_, fun subject r hr => ?_⟩, fun a ha =>
            ⟨a, Table.mem_insert_of_mem ha, rfl, rfl⟩⟩
          · rcases Table.mem_of_mem_insert ha with ha | ha <;> rcases Table.mem_of_mem_insert hb with hb | hb
            · exact hfiled.distinct a ha b hb heq
            · exact absurd (heq.trans (congrArg Application.subject hb)) (hfree a ha)
            · exact absurd (heq.symm.trans (congrArg Application.subject ha)) (hfree b hb)
            · rw [ha, hb]
          · rcases Table.mem_of_mem_insert ha with ha | rfl
            · exact hfiled.column a ha r hr
            · -- Nothing is on record of an application that is new.
              obtain ⟨b, hb, heq⟩ := hfiled.kept _ r hr
              exact absurd heq (hfree b hb)
          · obtain ⟨a, ha, heq⟩ := hfiled.kept subject r hr
            exact ⟨a, Table.mem_insert_of_mem ha, heq⟩
  | status id status =>
      let set (a : Application) := { a with status, updatedAt := s.now }
      refine ⟨hfiled.modify set (fun _ => rfl) rfl (fun _ => rfl) (fun a ha r hr => ?_) hfiled.kept,
        kept_modify set (fun _ => rfl) rfl fun _ => rfl⟩
      split
      · exact hfiled.column a ha r hr
      · exact hfiled.column a ha r hr
  | _ => exact ⟨⟨hfiled.distinct, hfiled.column, hfiled.kept⟩, kept_refl s⟩

theorem onRecord_cons (subject : Id × Id) (x : Nat × Ev) (h : History interface) :
    onRecord subject (x :: h) = (noted subject x).or (onRecord subject h) := by
  unfold onRecord
  rw [List.findSome?_cons]
  cases noted subject x <;> rfl

theorem Filed.call {h : History interface} {s : World} (hfiled : Filed h s) {i : Nat} {q : Stmt} {a : Ans q}
    {c : Choice} (hexec : exec q c s = some a) :
    Filed ((i, ⟨q, a⟩) :: h) (model.applyAll (writes q a) s) ∧ Kept s (model.applyAll (writes q a) s) := by
  cases q with
  | applicationUpdate id lastReminderSentAt =>
      obtain ⟨row, hrow, rfl⟩ := Option.map_eq_some_iff.1 hexec
      have hmem := Table.mem_of_find? hrow
      have hid : row.id = id := Table.key_of_find? hrow
      let set (a : Application) := { a with lastReminderSentAt := some lastReminderSentAt, updatedAt := s.now }
      refine ⟨hfiled.modify set (fun _ => rfl) rfl (fun _ => rfl) (fun b hb r hr => ?_) fun subject r hr => ?_,
        kept_modify set (fun _ => rfl) rfl fun _ => rfl⟩
      · rw [onRecord_cons, noted] at hr
        split at hr
        · next heq =>
            -- This is the application that was updated.
            obtain rfl : lastReminderSentAt = r := Option.some.inj hr
            have hb : Keyed.key b = id := (hfiled.distinct b hb row hmem heq.symm).trans hid
            rw [if_pos hb]
        · next hne =>
            have hother : Keyed.key b ≠ id := by
              intro heq
              obtain rfl : row = b := Table.eq_of_key_eq hmem hb (hid.trans heq.symm)
              exact hne rfl
            rw [if_neg hother]
            exact hfiled.column b hb r hr
      · rw [onRecord_cons, noted] at hr
        split at hr
        · next heq => exact ⟨row, hmem, heq⟩
        · exact hfiled.kept subject r hr
  | _ => exact ⟨⟨hfiled.distinct, hfiled.column, hfiled.kept⟩, kept_refl s⟩

/-- The applications that an event has read. -/
def seen : Ev → List Application
  | ⟨.applicationFindMany .., rows⟩ => rows.map (·.1)
  | ⟨.applicationFindUnique _, found⟩ => (found.map (·.1)).toList
  | _ => []

/-- What the run at place `i` knows: the applications it has read are there, and those it has listed were not
    reminded of within the window, as far as was on record then. -/
structure Knows (staleDays : Nat) (h : History interface) (i : Nat) (s : World) (done : List Ev) : Prop where
  seen : ∀ e ∈ done, ∀ a ∈ seen e, ∃ b ∈ s.applications, b.id = a.id ∧ b.subject = a.subject
  read : ∀ id x, (⟨.applicationFindUnique id, some x⟩ : Ev) ∈ done → x.1.id = id
  clock : ∀ now, (⟨.now, now⟩ : Ev) ∈ done → now ≤ s.now
  listed : ∀ staleBefore openAt rows, (⟨.applicationFindMany staleBefore openAt, rows⟩ : Ev) ∈ done →
    staleBefore ≤ s.now - window staleDays ∧
      ∀ x ∈ rows, ∀ r ∈ onRecord x.1.subject (beforeListing i h), r < staleBefore

variable {staleDays : Nat} {toLocaleDateString : Int → String}

theorem knows_nil (staleDays : Nat) (h : History interface) (i : Nat) (s : World) : Knows staleDays h i s [] :=
  ⟨by simp, by simp, by simp, by simp⟩

theorem Knows.mono {h h' : History interface} {i : Nat} {s s' : World} {done : List Ev}
    (hknows : Knows staleDays h i s done) (hkept : Kept s s') (hnow : s.now ≤ s'.now)
    (hbefore : beforeListing i h' = beforeListing i h) : Knows staleDays h' i s' done := by
  refine ⟨fun e he a ha => ?_, hknows.read, fun now he => (hknows.clock now he).trans hnow,
    fun staleBefore openAt rows he => ?_⟩
  · obtain ⟨b, hb, hid, hsubject⟩ := hknows.seen e he a ha
    obtain ⟨b', hb', hid', hsubject'⟩ := hkept b hb
    exact ⟨b', hb', hid'.trans hid, hsubject'.trans hsubject⟩
  · obtain ⟨hstale, hrows⟩ := hknows.listed staleBefore openAt rows he
    rw [hbefore]
    exact ⟨by omega, hrows⟩

theorem beforeListing_cons {i : Nat} {x : Nat × Ev} (hx : x.1 = i → isListing x.2 = false) (h : History interface) :
    beforeListing i (x :: h) = beforeListing i h := by
  obtain ⟨j, q, a⟩ := x
  cases q with
  | applicationFindMany staleBefore openAt =>
      have hj : j ≠ i := fun heq => absurd (hx heq) (by simp [isListing])
      simp only [beforeListing, if_neg hj]
  | _ => rfl

/-- What a list says of the applications on it. -/
theorem of_applicationFindMany {staleBefore openAt : Int} {c : Choice} {s : World}
    {rows : List (Application × Offer)} (h : exec (.applicationFindMany staleBefore openAt) c s = some rows)
    {x : Application × Offer} (hx : x ∈ rows) :
    x.1 ∈ s.applications ∧ ∀ r, x.1.lastReminderSentAt = some r → r < staleBefore := by
  cases c <;> simp only [exec, reduceCtorEq] at h
  next l =>
    split at h
    · next hl =>
        obtain rfl := Option.some.inj h
        obtain ⟨a, ha, hoffer⟩ := List.mem_filterMap.1 hx
        obtain ⟨offer, -, rfl⟩ := Option.map_eq_some_iff.1 hoffer
        obtain ⟨hmem, hpending⟩ := List.mem_filter.1 (hl.1.subset ha)
        refine ⟨hmem, fun r hr => ?_⟩
        have hlast := (of_decide_eq_true hpending).2.2.2
        rw [hr] at hlast
        simpa using hlast
    · cases h

/-- One more statement, and what the run knows by it. -/
theorem Knows.push {h : History interface} {i : Nat} {s : World} {done : List Ev}
    (hknows : Knows staleDays h i s done) (hfiled : Filed h s) {q : Stmt} {a : Ans q} {c : Choice}
    (hguard : reminderGuard staleDays done q) (hexec : exec q c s = some a) :
    Knows staleDays ((i, ⟨q, a⟩) :: h) i s (done ++ [⟨q, a⟩]) := by
  refine ⟨fun e he b hb => ?_, fun id x he => ?_, fun now he => ?_, fun staleBefore openAt rows he => ?_⟩
  · rcases List.mem_append.1 he with he | he
    · exact hknows.seen e he b hb
    · -- What is read now is there now.
      obtain rfl := List.mem_singleton.1 he
      refine ⟨b, ?_, rfl, rfl⟩
      cases q with
      | applicationFindMany staleBefore openAt =>
          obtain ⟨x, hx, rfl⟩ := List.mem_map.1 hb
          exact (of_applicationFindMany hexec hx).1
      | applicationFindUnique id =>
          obtain rfl := Option.some.inj hexec
          obtain ⟨x, hx, rfl⟩ := Option.map_eq_some_iff.1 (Option.mem_toList.1 hb)
          obtain ⟨row, hrow, hx⟩ := Option.bind_eq_some_iff.1 hx
          obtain ⟨offer, -, rfl⟩ := Option.map_eq_some_iff.1 hx
          exact Table.mem_of_find? hrow
      | _ => cases hb
  · rcases List.mem_append.1 he with he | he
    · exact hknows.read id x he
    · obtain ⟨rfl, heq⟩ := Event.mk.inj (List.mem_singleton.1 he)
      obtain rfl := eq_of_heq heq
      obtain ⟨row, hrow, hx⟩ := Option.bind_eq_some_iff.1 (Option.some.inj hexec)
      obtain ⟨offer, -, rfl⟩ := Option.map_eq_some_iff.1 hx
      exact Table.key_of_find? hrow
  · rcases List.mem_append.1 he with he | he
    · exact hknows.clock now he
    · obtain ⟨rfl, heq⟩ := Event.mk.inj (List.mem_singleton.1 he)
      obtain rfl := eq_of_heq heq
      exact (Option.some.inj hexec).ge
  · rcases List.mem_append.1 he with hold | he
    · have hother : isListing ⟨q, a⟩ = false := by
        cases q with
        | applicationFindMany => exact absurd (hguard.1 _ hold) (by simp [isListing])
        | _ => rfl
      rw [beforeListing_cons fun _ => hother]
      exact hknows.listed staleBefore openAt rows hold
    · -- The list is made now.
      obtain ⟨rfl, heq⟩ := Event.mk.inj (List.mem_singleton.1 he)
      obtain rfl := eq_of_heq heq
      obtain ⟨-, now, hnow, rfl⟩ := hguard
      refine ⟨Int.sub_le_sub_right (hknows.clock now hnow) _, fun x hx r hr => ?_⟩
      obtain ⟨hmem, hlast⟩ := of_applicationFindMany hexec hx
      simp only [beforeListing, if_true] at hr
      exact hlast r (hfiled.column x.1 hmem r hr)

/-! ## Every run -/

/-- What holds of a run with its history. -/
structure Orderly (staleDays : Nat) (h : History interface) (p : Platform) : Prop where
  filed : Filed h p.db
  knows : ∀ (i : Nat) (t : Thread interface Op Err Unit), p.threads[i]? = some t →
    Knows staleDays h i p.db t.trace.done

/-- A step by which no statement is answered. -/
theorem Orderly.quiet {h : History interface} {p p' : Platform} (horderly : Orderly staleDays h p)
    (hfiled : Filed h p'.db) (hkept : Kept p.db p'.db) (hnow : p.db.now ≤ p'.db.now)
    (hback : ∀ (i : Nat) (t' : Thread interface Op Err Unit), p'.threads[i]? = some t' →
      t'.trace.done = [] ∨ ∃ t, p.threads[i]? = some t ∧ t'.trace.done = t.trace.done) :
    Orderly staleDays h p' := by
  refine ⟨hfiled, fun i t' ht' => ?_⟩
  obtain hnil | ⟨t, ht, hdone⟩ := hback i t' ht'
  · rw [hnil]
    exact knows_nil ..
  · rw [hdone]
    exact (horderly.knows i t ht).mono hkept hnow rfl

theorem now_applyAll (ws : List Write) (s : World) : (model.applyAll ws s).now = s.now :=
  @Model.applyAll_keeps _ model (fun t => t.now = s.now) ws (fun w _ t ht => by cases w <;> exact ht) s rfl

theorem now_elsewhere (e : Elsewhere) (s : World) : s.now ≤ (s.elsewhere e).now := by
  cases e with
  | time ms => exact Int.le_add_of_nonneg_right (Int.natCast_nonneg ms)
  | application => 
      simp only [World.elsewhere]
      split <;> exact le_rfl
  | _ => exact le_rfl

theorem orderly {s₀ : World} (hdistinct : ∀ a ∈ s₀.applications, ∀ b ∈ s₀.applications,
      a.subject = b.subject → a.id = b.id) {R : History interface → Platform → Step model Op → Prop}
    {h : History interface} {p : Platform}
    (hrec : Recorded (prog toLocaleDateString staleDays) R (idle s₀) h p) : Orderly staleDays h p := by
  induction hrec with
  | refl => exact ⟨⟨hdistinct, by simp [onRecord], by simp [onRecord]⟩, by simp [idle]⟩
  | @step h p p' a hrec hR hs ih =>
      have hsound := hrec.run.sound (prog_reminds staleDays toLocaleDateString)
      cases taken_of_step hs with
      | spawn o =>
          refine ih.quiet ih.filed (kept_refl _) le_rfl fun i t' ht' => ?_
          rcases thread_append ht' with rfl | ht
          · exact .inl rfl
          · exact .inr ⟨t', ht, rfl⟩
      | env e =>
          obtain ⟨hfiled, hkept⟩ := ih.filed.elsewhere e
          exact ih.quiet hfiled hkept (now_elsewhere e _) fun i t' ht' => .inr ⟨t', ht', rfl⟩
      | turn hans ht _ hdone =>
          rw [hans]
          refine ih.quiet ih.filed (kept_refl _) le_rfl fun j t' ht' => ?_
          rcases thread_set ht ht' with ⟨rfl, rfl⟩ | ⟨-, hj⟩
          · exact .inr ⟨_, ht, hdone⟩
          · exact .inr ⟨t', hj, rfl⟩
      | commit ht hk => exact (hsound.conforms _ _ ht _ hk).2.1.elim
      | callTx ht hk htx hx => exact absurd (hsound.guard ht (next_of_call hk)).1 htx
      | @call i t q k c x ht hk htx hx =>
          rw [answering_exec ht hk (by rwa [Trace.view_of_none htx])]
          have hguard := (hsound.guard ht (next_of_call hk)).2
          obtain ⟨hfiled, hkept⟩ := ih.filed.call (i := i) hx
          refine ⟨hfiled, fun j t' ht' => ?_⟩
          rcases thread_set ht ht' with ⟨rfl, rfl⟩ | ⟨hj, hother⟩
          · rw [Trace.push_of_none htx]
            exact ((ih.knows j t ht).push ih.filed hguard hx).mono hkept (now_applyAll ..).ge rfl
          · exact (ih.knows j t' hother).mono hkept (now_applyAll ..).ge
              (beforeListing_cons (fun heq => absurd heq.symm hj) h)

/-- A reminder that is about to be sent comes after the window of every other. -/
theorem Orderly.spaced {h : History interface} {p : Platform} (horderly : Orderly staleDays h p) {i : Nat}
    {t : Thread interface Op Err Unit} (ht : p.threads[i]? = some t) {dto : ReminderDto} {user : User}
    (hguard : reminderGuard staleDays t.trace.done (.sendEmail dto user))
    (hrecord : ∀ sentAt ∈ h.filterMap (reminder dto.subject), p.db.now ≤ sentAt + window staleDays →
      ∃ r ∈ onRecord dto.subject (beforeListing i h), sentAt ≤ r) :
    ∀ sentAt ∈ h.filterMap (reminder dto.subject), sentAt + window staleDays < p.db.now := by
  intro sentAt hsent
  by_contra hwithin
  obtain ⟨r, hr, hle⟩ := hrecord sentAt hsent (by omega)
  obtain ⟨id, ⟨staleBefore, openAt, rows, hrows, x, hx, hid⟩, y, hy, hsubject⟩ := hguard
  have hknows := horderly.knows i t ht
  -- What was listed is what was read again.
  obtain ⟨b, hb, hbid, hbsubject⟩ := hknows.seen _ hrows x.1 (List.mem_map.2 ⟨x, hx, rfl⟩)
  obtain ⟨b', hb', hbid', hbsubject'⟩ := hknows.seen _ hy y.1 (by simp [seen])
  have hkeys : Keyed.key b = Keyed.key b' :=
    (hbid.trans hid).trans ((hbid'.trans (hknows.read id y hy)).symm)
  obtain rfl := Table.eq_of_key_eq hb hb' hkeys
  have hx' : x.1.subject = dto.subject := hbsubject.symm.trans (hbsubject'.trans hsubject.symm)
  -- The list left out what was on record within the window.
  obtain ⟨hstale, hlisted⟩ := hknows.listed staleBefore openAt rows hrows
  have := hlisted x hx r (hx' ▸ hr)
  omega

theorem reminding_eq {t : Thread interface Op Err Unit} {dto : ReminderDto} {user : User}
    (h : t.next? = some (.sendEmail dto user)) : reminding t = some dto := by
  simp [reminding, h]

/-- **At most one reminder in a window**, in every run in which each reminder that is sent finds the ones before it
    on record when its list was made. -/
theorem at_most_one_reminder {s₀ : World} (hdistinct : ∀ a ∈ s₀.applications, ∀ b ∈ s₀.applications,
      a.subject = b.subject → a.id = b.id) {h : History interface} {p : Platform}
    (hrec : Recorded (prog toLocaleDateString staleDays) (ListedOnRecord staleDays) (idle s₀) h p) :
    AtMostOne staleDays h := by
  induction hrec with
  | refl => exact fun _ => .nil
  | @step h p p' a hrec hR hs ih =>
      intro subject
      cases hans : p.answering a with
      | none => exact ih subject
      | some x =>
          obtain ⟨i, e⟩ := x
          have horderly := orderly hdistinct hrec
          rw [Option.toList_some, List.singleton_append, List.filterMap_cons]
          cases hreminder : reminder subject (i, e) with
          | none => exact ih subject
          | some sentAt =>
              refine List.pairwise_cons.2 ⟨fun earlier hearlier => ?_, ih subject⟩
              obtain ⟨c, t, k, rfl, ht, hk, hx⟩ := of_answering hans
              have hnext := next_of_call hk
              have hguard := ((hrec.run.sound (prog_reminds staleDays toLocaleDateString)).guard ht hnext)
              rw [Trace.view_of_none hguard.1] at hx
              obtain ⟨q, ans⟩ := e
              cases q with
              | sendEmail dto user =>
                  cases ans with
                  | error reason => cases hreminder
                  | ok departure =>
                      simp only [reminder, Option.ite_none_right_eq_some, Option.some.injEq] at hreminder
                      obtain ⟨rfl, rfl⟩ := hreminder
                      cases c <;> simp only [exec, reduceCtorEq, Option.some.injEq, Except.ok.injEq] at hx
                      rw [← hx]
                      exact horderly.spaced ht hguard.2 (hR t ht dto (reminding_eq hnext)) earlier hearlier
              | _ => cases hreminder

/-! ## Two runs -/

/-- Four days. -/
def fourDays : Int := 4 * 24 * 60 * 60 * 1000

/-- An application that nobody has touched for four days, for an offer that is open. -/
def oneApplication : World where
  now := fourDays
  applications := .ofList [⟨1, 1, 1, "PENDING", 0, none⟩]
  offers := .ofList [⟨1, 1, some (10 * fourDays)⟩]
  users := .ofList [⟨1, "jean@get.mg"⟩]
  preferences := .empty
  notifications := .empty

def isoDate (ms : Int) : String := Date.toISOString ⟨ms⟩

/-- The run at place `i` makes its list. -/
def listCommands (i : Nat) (a : Application) : List (Step model Op) :=
  [.exec i .none, .exec i .none, .exec i (.rows [a])]

/-- It sends the reminder. -/
def sendCommands (i : Nat) : List (Step model Op) :=
  [.exec i .none, .exec i .none, .exec i .none, .exec i (.sent "SENT")]

/-- It writes down that it has. -/
def noteCommands (i : Nat) : List (Step model Op) :=
  [.exec i .none, .exec i (.id i), .exec i .none, .exec i .none]

/-- Two runs, four days apart, remind of the application once each. -/
theorem at_most_one_reminder_twice : ∃ (h : History interface) (p : Platform),
    Recorded (prog isoDate 3) (ListedOnRecord 3) (idle oneApplication) h p ∧
      h.filterMap (reminder (1, 1)) = [2 * fourDays, fourDays] ∧ AtMostOne 3 h := by
  have hplay : (playOn (prog isoDate 3) (ListedOnRecord 3) ([], idle oneApplication)
      (.spawn .automation :: listCommands 0 ⟨1, 1, 1, "PENDING", 0, none⟩ ++ sendCommands 0 ++ noteCommands 0 ++
        .env (.time fourDays.toNat) :: .spawn .automation ::
          listCommands 1 ⟨1, 1, 1, "PENDING", fourDays, some fourDays⟩ ++ sendCommands 1)).any
        (fun hp => hp.1.filterMap (reminder (1, 1)) = [2 * fourDays, fourDays]) = true := by
    decide +kernel
  obtain ⟨⟨h, p⟩, hp, hsent⟩ := (Option.any_eq_true ..).1 hplay
  have hstart : Recorded (prog isoDate 3) (ListedOnRecord 3) (idle oneApplication : Platform) []
      (idle oneApplication) := .refl
  have hrec := hstart.onward (Onward.of_playOn hp)
  exact ⟨h, p, hrec, of_decide_eq_true hsent, at_most_one_reminder (by decide) hrec⟩

/-- Two runs overlap: both list the application, and both remind of it. -/
theorem not_at_most_one_reminder : ¬ ∀ (h : History interface) (p : Platform),
    Recorded (prog isoDate 3) (fun _ _ _ => True) (idle oneApplication) h p → AtMostOne 3 h := by
  intro h
  have hplay : (playOn (prog isoDate 3) (fun _ _ _ => True) ([], idle oneApplication)
      (.spawn .automation :: .spawn .automation :: listCommands 0 ⟨1, 1, 1, "PENDING", 0, none⟩ ++
        listCommands 1 ⟨1, 1, 1, "PENDING", 0, none⟩ ++ sendCommands 0 ++ sendCommands 1)).any
        (fun hp => hp.1.filterMap (reminder (1, 1)) = [fourDays, fourDays]) = true := by
    decide +kernel
  obtain ⟨⟨h', p⟩, hp, hsent⟩ := (Option.any_eq_true ..).1 hplay
  have hstart : Recorded (prog isoDate 3) (fun _ _ _ => True) (idle oneApplication : Platform) []
      (idle oneApplication) := .refl
  have hspaced := h h' p (hstart.onward (Onward.of_playOn hp)) (1, 1)
  rw [of_decide_eq_true hsent] at hspaced
  revert hspaced
  decide

end GetPlatform.Integration
