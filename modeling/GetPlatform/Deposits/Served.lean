import GetPlatform.Deposits.Writes
import GetPlatform.Uploads.ProtectedUploads

set_option autoImplicit false

/-! # What is served of what was deposited

In every run of overlapping calls, with failures and crashes anywhere, the route of documents serves
the documents that are not deleted, to those who may have them, and nothing else: no file of a deleted
document, and no file of a submission. -/

namespace GetPlatform.Deposits

open Uploads (Id Site File Document StoredObject Payload Request Response Route User Viewer Authenticated
  requireUser requireUser_eq redirectToFile_eq_redirect hasApplicationAtThisSchool)
open Pool Prog

variable {settings : Settings}

/-! ## Runs -/

theorem documentFindFirst_eq_some {s : World} {id studentId : Id} {c : Choice} {document : Document}
    (h : exec (.documentFindFirst id studentId) c s = some (some document)) :
    ∃ d ∈ s.site.documents, d.id = id ∧ d.studentId = studentId ∧ d.fileUrl = document.fileUrl := by
  obtain ⟨hfind, hwhere⟩ := Option.filter_eq_some_iff.1 (Option.some.inj h)
  exact ⟨document, Table.mem_of_find? hfind, Table.key_of_find? hfind,
    (of_decide_eq_true hwhere).1, rfl⟩

theorem submissionUpsert_eq_some {s : World} {assignmentId studentId : Id} {contentUrl : String}
    {submittedAt : Date} {c : Choice} {row : AssignmentSubmission}
    (h : exec (.submissionUpsert assignmentId studentId contentUrl submittedAt) c s = some row) :
    row.studentId = studentId ∧ row.contentUrl = some contentUrl := by
  cases c with
  | row id now =>
      simp only [exec] at h
      split at h
      · next x hx =>
          obtain rfl := Option.some.inj h
          have hkey : (x.assignmentId, x.studentId) = (assignmentId, studentId) := Table.key_of_find? hx
          exact ⟨(Prod.mk.inj hkey).2, rfl⟩
      · split at h
        · cases h
        · obtain rfl := Option.some.inj h
          exact ⟨rfl, rfl⟩
  | _ => cases h

/-- A statement that writes nothing, and whose answer nothing is known of. -/
theorem leaves_read {s : World} {done : List Ev} (hkept : Kept settings s) (htold : Told settings s done)
    {e : Ev} (hdraw : ∀ base, e ≠ ⟨.randomBytes, base⟩) (hput : ¬ Storing e.stmt)
    (hfound : ∀ id studentId document, e = ⟨.documentFindFirst id studentId, some document⟩ →
      ∃ d ∈ s.site.documents, d.id = id ∧ d.studentId = studentId ∧ d.fileUrl = document.fileUrl)
    (hupdate : ∀ id deletedAt row, e ≠ ⟨.documentUpdate id deletedAt, row⟩) :
    Leaves settings done e s s :=
  ⟨hkept, htold.push (fun base he => absurd he (hdraw base))
    (fun _ _ _ he => absurd (he ▸ trivial : Storing e.stmt) hput) hfound
    fun id deletedAt row he => absurd he (hupdate id deletedAt row), fun _ htold' _ => htold'⟩

theorem leaves_of_exec {s : World} {done : List Ev} (hkept : Kept settings s)
    (htold : Told settings s done) {q : Stmt} {a : Ans q} {c : Choice} (hexec : exec q c s = some a)
    (hallowed : Allowed settings done q) :
    Leaves settings done ⟨q, a⟩ s (model.applyAll (writes q a) s) := by
  cases q with
  | randomBytes =>
      cases c with
      | bytes base =>
          simp only [exec] at hexec
          split at hexec
          · next hnew =>
              obtain rfl := Option.some.inj hexec
              exact leaves_randomBytes hkept htold hnew.2
          · cases hexec
      | _ => cases hexec
  | putObject bucket key file => exact leaves_putObject hkept htold hallowed
  | deleteObject bucket key => exact leaves_deleteObject hkept htold hallowed
  | documentCreate data =>
      cases c with
      | row id now =>
          simp only [exec] at hexec
          split at hexec
          · cases hexec
          · next hnew =>
              obtain rfl := Option.some.inj hexec
              exact leaves_documentCreate hkept htold (Bool.eq_false_iff.2 fun h => hnew (.inl h)) hallowed
      | _ => cases hexec
  | documentUpdate id deletedAt =>
      obtain ⟨d, hd, rfl⟩ := Option.map_eq_some_iff.1 hexec
      exact leaves_documentUpdate hkept htold hd
  | submissionUpsert assignmentId studentId contentUrl submittedAt =>
      exact leaves_submissionUpsert hkept htold (submissionUpsert_eq_some hexec) hallowed
  | documentFindFirst id studentId =>
      refine leaves_read hkept htold (by simp) (fun h => h) (fun id' studentId' document he => ?_) (by simp)
      cases he
      exact documentFindFirst_eq_some hexec
  | _ => exact leaves_read hkept htold (by simp) (fun h => h) (by simp) (by simp)

theorem apart_push {done done' : List Ev} {e : Ev} (h : Apart done done')
    (hnew : ∀ base, e = ⟨.randomBytes, base⟩ → ¬ Drew done' base) : Apart (done ++ [e]) done' :=
  fun base hdrew => (drew_push.1 hdrew).elim (h base) (hnew base)

/-- A name that is drawn now was drawn by no call. -/
theorem fresh_of_exec {s : World} {done : List Ev} (htold : Told settings s done) {q : Stmt} {a : Ans q}
    {c : Choice} (hexec : exec q c s = some a) {base : String}
    (he : (⟨q, a⟩ : Ev) = ⟨.randomBytes, base⟩) : ¬ Drew done base := by
  cases he
  cases c with
  | bytes base' =>
      simp only [exec] at hexec
      split at hexec
      · next hnew =>
          obtain rfl := Option.some.inj hexec
          exact fun hdrew => hnew.2 (htold.drawn _ hdrew)
      · cases hexec
  | _ => cases hexec

theorem kept_rules (settings : Settings) {R : Platform → Step model Op → Prop} :
    Rules (guards settings) R (Kept settings) (fun s (l : Log) => Told settings s l.done)
      (fun l u : Log => Apart l.done u.done) where
  symm _ _ h base hdrew hdrew' := h base hdrew' hdrew
  start _ _ _ _ := told_nil
  start_pair _ _ _ _ _ _ hdrew := absurd hdrew List.not_mem_nil
  env p e _ hkept := ⟨(hkept.elsewhere e).1, fun l => (hkept.elsewhere e).2 l.done⟩
  drop _ _ h := h
  drop_pair _ _ h := h
  openTx _ _ _ _ h := h
  openTx_pair _ _ _ _ h := h
  call p i c t q a hholds hcalls htx := by
    have hexec := hcalls.exec
    rw [Trace.view_of_none htx] at hexec
    have hleaves := leaves_of_exec hholds.db (hholds.thread i t hcalls.here) hexec hcalls.guard.2
    refine ⟨hleaves.kept, ?_, fun u hu => ⟨hleaves.others u.done (hholds.other hu)
      (hholds.other_pair hcalls.here hu), ?_⟩⟩
    · rw [Trace.push_of_none htx]
      exact hleaves.own
    · rw [Trace.push_of_none htx]
      exact apart_push (hholds.other_pair hcalls.here hu) fun base he =>
        fresh_of_exec (hholds.other hu) hexec he
  callTx p i c t q a x _ hcalls htx := by
    have hnone := hcalls.guard.1
    rw [htx] at hnone
    cases hnone
  commit p i c t x _ hcommits := hcommits.guard.elim

/-! ## The route -/

/-- The viewer is the student, supervises the platform, or administers a school that the student has
    applied to, where the application is neither rejected nor cancelled. -/
def MayHave (s : Site) (user : Viewer) (studentId : Id) : Prop :=
  user.role ≠ .MINISTRY ∧ (user.student.any (·.id = studentId) = true ∨ user.role = .ADMIN_GET ∨
    user.role = .SCHOOL_ADMIN ∧ ∃ admin, user.schoolAdmin = some admin ∧
      hasApplicationAtThisSchool s studentId admin.schoolId = true)

/-- The route asks for a row whose URL ends in this. -/
def IsRowOf (studentId fileName : String) (d : Document) : Prop :=
  d.studentId = studentId ∧
    ("documents/" ++ studentId ++ "/" ++ fileName).toList <:+ d.fileUrl.toList ∧ d.deletedAt = none

section Route

variable {verify : String → Option Payload} {config : Uploads.Config} {s : Site} {request : Request}
  {user : Viewer} {studentId fileName key : String}

theorem documents_eq_redirect :
    Uploads.documents config s user studentId fileName = .ok (.redirect key) ↔
      MayHave s user studentId ∧ (∃ d ∈ s.documents, IsRowOf studentId fileName d) ∧
        Uploads.redirectToFile config s ["documents", studentId, fileName] = .ok (.redirect key) := by
  have hrow : (s.documents.rows.find? fun d => d.studentId = studentId ∧
      ("documents/" ++ studentId ++ "/" ++ fileName).toList <:+ d.fileUrl.toList ∧ d.deletedAt = none) = none ↔
        ¬ ∃ d ∈ s.documents, IsRowOf studentId fileName d := by
    simp only [List.find?_eq_none, decide_eq_true_eq, not_exists, not_and, IsRowOf]
    exact Iff.rfl
  have hmay : (¬ user.student.any (·.id = studentId) ∧ ¬ (user.role = .ADMIN_GET ||
      (user.role = .SCHOOL_ADMIN && user.schoolAdmin.any fun admin =>
        hasApplicationAtThisSchool s studentId admin.schoolId))) ↔
      ¬ (user.student.any (·.id = studentId) = true ∨ user.role = .ADMIN_GET ∨
        user.role = .SCHOOL_ADMIN ∧ ∃ admin, user.schoolAdmin = some admin ∧
          hasApplicationAtThisSchool s studentId admin.schoolId = true) := by
    simp [Option.any_eq_true]
  unfold Uploads.documents MayHave
  dsimp only
  by_cases hministry : user.role = .MINISTRY
  · simp [hministry]
  · rw [if_neg hministry]
    by_cases hno : ¬ user.student.any (·.id = studentId) ∧ ¬ (user.role = .ADMIN_GET ||
        (user.role = .SCHOOL_ADMIN && user.schoolAdmin.any fun admin =>
          hasApplicationAtThisSchool s studentId admin.schoolId))
    · rw [if_pos hno]
      simp [hmay.1 hno]
    · rw [if_neg hno]
      have hyes := not_not.1 fun h => hno (hmay.2 h)
      split
      · next hnone => simp [hrow.1 hnone]
      · next hsome =>
          have hthere := not_not.1 fun h => hsome (hrow.2 h)
          exact ⟨fun h => ⟨⟨hministry, hyes⟩, hthere, h⟩, fun h => h.2.2⟩

/-- Whoever is turned away is not redirected. -/
theorem requireUser_eq_error {response : Response} (h : requireUser verify s request = .error response) :
    response ≠ .redirect key := by
  unfold requireUser at h
  split at h
  · split at h
    · split at h
      · split at h
        · cases h
          simp
        · cases h
      · cases h
        simp
    · cases h
      simp
  · cases h
    simp

theorem answer_eq_redirect :
    Route.documents.answer verify config s request studentId fileName = .ok (.redirect key) ↔
      ∃ user, requireUser verify s request = .ok user ∧
        Uploads.documents config s user studentId fileName = .ok (.redirect key) := by
  unfold Route.answer
  cases huser : requireUser verify s request with
  | error response => simp [requireUser_eq_error huser]
  | ok user => simp

end Route

/-! ## What is served -/

section Serving

variable {verify : String → Option Payload} {s : World} {request : Request}

/-- The object of a document is the file of one of the student's uploads. -/
theorem Kept.built (hkept : Kept settings s) {o : StoredObject} (ho : o ∈ s.site.objects)
    {studentId fileName : String}
    (hkey : Keyed.key o = (settings.privateBucket, fileKey studentId fileName)) :
    Part fileName ∧ Uploads.buildKey ["documents", studentId, fileName] =
      .ok (fileKey studentId fileName) ∧
        ∃ file, assertSafeDocument false file = .ok () ∧ o.body = file.buffer ∧
          o.contentType = file.mimetype := by
  obtain ⟨base, -, studentId', fileName', file, hnamed, hpart, hsafe, hbuilt, rfl⟩ := hkept.object o ho
  obtain ⟨rfl, rfl⟩ := key_inj hpart hnamed.part (Prod.mk.inj hkey).2.symm
  exact ⟨hnamed.part, hbuilt, file, hsafe, rfl, rfl⟩

theorem contains_iff {bucket key : String} : s.site.objects.contains (bucket, key) = true ↔
    ∃ o ∈ s.site.objects, Keyed.key o = (bucket, key) :=
  Table.contains_iff.trans List.mem_map

/-- A redirection leads to the object of a document that is not deleted. -/
theorem Kept.of_redirect (hkept : Kept settings s) {studentId fileName key : String}
    (h : Route.documents.answer verify settings.toConfig s.site request studentId fileName =
      .ok (.redirect key)) :
    ∃ d ∈ s.site.documents, d.deletedAt = none ∧ d.studentId = studentId ∧
      lastPart d.fileUrl = fileName ∧ key = fileKey studentId fileName := by
  obtain ⟨user, -, hdocuments⟩ := answer_eq_redirect.1 h
  obtain ⟨-, ⟨d, hd, hstudent, hsuffix, hlive⟩, hfile⟩ := documents_eq_redirect.1 hdocuments
  obtain ⟨hbuilt, hthere⟩ := redirectToFile_eq_redirect.1 hfile
  obtain rfl := Uploads.buildKey_eq_ok hbuilt
  obtain ⟨o, ho, hkey⟩ := contains_iff.1 hthere
  exact ⟨d, hd, hlive, hstudent, eq_lastPart_of_suffix (hkept.built ho hkey).1 hsuffix, rfl⟩

/-- What the route of documents serves, and to whom. -/
structure Served (verify : String → Option Payload) (settings : Settings) (s : World) : Prop where
  /-- The owner of a document that is not deleted is redirected to its object. -/
  owner : ∀ d ∈ s.site.documents, d.deletedAt = none → ∀ user request,
    Authenticated verify s.site request user → user.role ≠ some .MINISTRY →
    ∀ student, s.site.students.find? user.id = some student → student.id = d.studentId →
    Route.documents.answer verify settings.toConfig s.site request d.studentId (lastPart d.fileUrl) =
      .ok (.redirect (fileKey d.studentId (lastPart d.fileUrl)))
  /-- Whoever is redirected may have the documents of the student, and is redirected to the object of
      one that is not deleted: a file that was checked, of the type that the document says. -/
  only : ∀ request studentId fileName key,
    Route.documents.answer verify settings.toConfig s.site request studentId fileName =
      .ok (.redirect key) →
    (∃ user, requireUser verify s.site request = .ok user ∧ MayHave s.site user studentId) ∧
    ∃ d ∈ s.site.documents, d.deletedAt = none ∧ d.studentId = studentId ∧
      d.fileUrl = fileUrl settings studentId fileName ∧
      ∃ o ∈ s.site.objects, Keyed.key o = (settings.privateBucket, key) ∧ o.contentType = d.mimeType ∧
        ∃ file, assertSafeDocument false file = .ok () ∧ o.body = file.buffer ∧
          o.contentType = file.mimetype
  /-- Nobody is redirected to the file of a deleted document. -/
  deleted : ∀ d ∈ s.site.documents, d.deletedAt ≠ none → ∀ request key,
    Route.documents.answer verify settings.toConfig s.site request d.studentId (lastPart d.fileUrl) ≠
      .ok (.redirect key)
  /-- Nobody is redirected to the file of a submission. -/
  submission : ∀ x ∈ s.submissions, ∀ url, x.contentUrl = some url → ∀ request key,
    Route.documents.answer verify settings.toConfig s.site request x.studentId (lastPart url) ≠
      .ok (.redirect key)

theorem Kept.served (hkept : Kept settings s) : Served verify settings s where
  owner d hd hlive user request hauth hrole student hstudent hid := by
    obtain ⟨o, ho, hkey, -⟩ := hkept.there d hd hlive
    refine answer_eq_redirect.2 ⟨s.site.viewer user, requireUser_eq hauth,
      documents_eq_redirect.2 ⟨⟨fun hministry => ?_, .inl ?_⟩, ⟨d, hd, rfl, ?_, hlive⟩, ?_⟩⟩
    · cases hr : user.role with
      | none => simp [Site.viewer, hr] at hministry
      | some role =>
          simp only [Site.viewer, hr, Option.getD_some] at hministry
          exact hrole (hministry ▸ hr)
    · simp [Site.viewer, hstudent, hid]
    · have hsuffix : ("documents/" ++ d.studentId ++ "/" ++ lastPart d.fileUrl).toList <:+
          (fileUrl settings d.studentId (lastPart d.fileUrl)).toList := suffix_protectedObjectUrl ..
      rwa [← (hkept.document d hd).url] at hsuffix
    · exact redirectToFile_eq_redirect.2 ⟨(hkept.built ho hkey).2.1, contains_iff.2 ⟨o, ho, hkey⟩⟩
  only request studentId fileName key h := by
    obtain ⟨d, hd, hlive, rfl, rfl, rfl⟩ := hkept.of_redirect h
    obtain ⟨user, huser, hdocuments⟩ := answer_eq_redirect.1 h
    obtain ⟨o, ho, hkey, htype⟩ := hkept.there d hd hlive
    exact ⟨⟨user, huser, (documents_eq_redirect.1 hdocuments).1⟩, d, hd, hlive, rfl,
      (hkept.document d hd).url, o, ho, hkey, htype, (hkept.built ho hkey).2.2⟩
  deleted d hd hat request key h := by
    obtain ⟨d', hd', hlive, -, hname, -⟩ := hkept.of_redirect h
    exact hat (hkept.apart d' hd' d hd hname ▸ hlive)
  submission x hx url hurl request key h := by
    obtain ⟨d, hd, -, -, hname, -⟩ := hkept.of_redirect h
    exact hkept.aside d hd x hx url hurl hname.symm

/-- **What is served.** Whatever is uploaded, deleted and submitted in calls that overlap, wherever they
    fail or are cut, and whatever other services do: the route of documents serves the documents that are
    not deleted, and nothing else. -/
theorem documents_served {toLowerCase : String → String} (hlower : KeepsParts toLowerCase) {s₀ : World}
    (hdocuments : s₀.site.documents = .empty) (hsubmissions : s₀.submissions = .empty)
    (hobjects : s₀.site.objects = .empty) {R : Platform → Step model Op → Prop} {p : Platform}
    (hrun : Run (program toLowerCase settings) R (idle s₀) p) : Served verify settings p.db := by
  have hkept : Kept settings s₀ := by
    refine ⟨fun d hd => ?_, fun x hx => ?_, fun d hd => ?_, fun d hd => ?_, fun d hd => ?_, fun o ho => ?_⟩
    · exact absurd (hdocuments ▸ hd) (Table.not_mem_empty d)
    · exact absurd (hsubmissions ▸ hx) (Table.not_mem_empty x)
    · exact absurd (hdocuments ▸ hd) (Table.not_mem_empty d)
    · exact absurd (hdocuments ▸ hd) (Table.not_mem_empty d)
    · exact absurd (hdocuments ▸ hd) (Table.not_mem_empty d)
    · exact absurd (hobjects ▸ ho) (Table.not_mem_empty o)
  exact ((kept_rules settings).holds (fun _ o _ => program_conforms hlower o) hkept hrun).2.db.served

end Serving

/-! ## Two uploads -/

/-- A student, and an administrator of the platform. -/
def oneStudent : World where
  site :=
    { users := .ofList [⟨"u1", true, 0, some .STUDENT⟩], teachers := .empty
      students := .ofList [⟨"00000000-0000-4000-8000-000000000001", "u1"⟩]
      schoolAdmins := .empty, offers := .empty, applications := .empty, documents := .empty
      courses := .empty, courseEnrollments := .empty, studentEnrollments := .empty
      messages := .empty, objects := .empty }
  assignments := .empty
  submissions := .empty
  drawn := []

def pdf (name : String) : File := ⟨name, "application/pdf", [0x25, 0x50, 0x44, 0x46, 0x2d], 5⟩

def plainSettings : Settings := ⟨⟨none, none, none, none⟩, none⟩

/-- Two uploads that interleave, and the deletion of one of the documents. -/
def uploadedTwice : List (Step model Op) :=
  [.spawn (.uploadDocument "u1" (pdf "cv.PDF") ⟨"CV", none⟩),
    .spawn (.uploadDocument "u1" (pdf "bac.pdf") ⟨"BAC", none⟩),
    .exec 0 .none, .exec 1 .none, .exec 0 (.bytes "00112233445566778899aabbccddeeff"),
    .exec 1 (.bytes "ffeeddccbbaa99887766554433221100"), .exec 1 .none, .exec 0 .none,
    .exec 0 (.row "d1" ⟨0⟩), .exec 1 (.row "d2" ⟨1⟩),
    .spawn (.deleteDocument "u1" "d1"), .exec 2 .none, .exec 2 .none, .exec 2 (.date ⟨2⟩),
    .exec 2 .none, .exec 2 .none]

theorem documents_served_uploadedTwice : ∃ p : Platform,
    Run (program id plainSettings) anyStep (idle oneStudent) p ∧
      p.db.site.documents.rows.map (fun d => (d.id, d.deletedAt)) = [("d2", none), ("d1", some ⟨2⟩)] ∧
      p.db.site.objects.rows.length = 1 ∧
      Served (fun token => if token = "t" then some ⟨"u1", 0⟩ else none) plainSettings p.db := by
  have hplay : ((idle oneStudent : Platform).play (program id plainSettings) anyStep uploadedTwice).any
      (fun p => p.db.site.documents.rows.map (fun d => (d.id, d.deletedAt)) =
        [("d2", none), ("d1", some ⟨2⟩)] ∧ p.db.site.objects.rows.length = 1) = true := by
    decide +kernel
  obtain ⟨p, hrun, hp⟩ := exists_run_of_play hplay
  obtain ⟨hdocuments, hobjects⟩ := of_decide_eq_true hp
  exact ⟨p, hrun, hdocuments, hobjects, documents_served (fun _ h => h) rfl rfl rfl hrun⟩

end GetPlatform.Deposits
