import GetPlatform.Deposits.FileNames

set_option autoImplicit false

/-! # What a call has done before it writes

A row with a URL is written by the call that has drawn the name and stored the object, and once only. An
object is deleted by a call that has found its document and marked it as deleted. -/

namespace GetPlatform.Deposits

open Uploads (Id File Document assertSafeEntityId buildKey generateFileName)
open Pool Prog

abbrev Log := Trace interface Op
abbrev Ev := Event interface
abbrev Platform := Pool model Op Err Reply

/-! ## Traces -/

/-- The statement writes the URL of a file in a row. -/
def Claiming : Stmt → Prop
  | .documentCreate _ => True
  | .submissionUpsert .. => True
  | _ => False

def Storing : Stmt → Prop
  | .putObject .. => True
  | _ => False

def Claims (done : List Ev) : Prop := ∃ e ∈ done, Claiming e.stmt

def Drew (done : List Ev) (base : String) : Prop := (⟨.randomBytes, base⟩ : Ev) ∈ done

abbrev fileKey (studentId : Id) (fileName : String) : String :=
  "/".intercalate ["documents", studentId, fileName]

abbrev fileUrl (settings : Settings) (studentId : Id) (fileName : String) : String :=
  protectedObjectUrl settings ["documents", studentId, fileName]

/-- The call has drawn the name for the file, and checked the file. -/
structure Prepares (done : List Ev) (studentId : Id) (fileName : String) (file : File) : Prop where
  drew : ∃ base, Drew done base ∧ Named base fileName
  part : Part studentId
  safe : assertSafeDocument false file = .ok ()
  built : buildKey ["documents", studentId, fileName] = .ok (fileKey studentId fileName)

/-- The call has stored the file. -/
structure Stores (settings : Settings) (done : List Ev) (studentId : Id) (fileName : String)
    (file : File) : Prop extends Prepares done studentId fileName file where
  put : (⟨.putObject settings.privateBucket (fileKey studentId fileName) file, ()⟩ : Ev) ∈ done

theorem Prepares.mono {done done' : List Ev} (h : done ⊆ done') {studentId : Id} {fileName : String}
    {file : File} (hprepares : Prepares done studentId fileName file) :
    Prepares done' studentId fileName file :=
  ⟨hprepares.drew.imp fun _ hbase => ⟨h hbase.1, hbase.2⟩, hprepares.part, hprepares.safe,
    hprepares.built⟩

theorem Stores.mono {settings : Settings} {done done' : List Ev} (h : done ⊆ done') {studentId : Id}
    {fileName : String} {file : File} (hstores : Stores settings done studentId fileName file) :
    Stores settings done' studentId fileName file :=
  ⟨hstores.toPrepares.mono h, h hstores.put⟩

/-- What a statement requires of the call that sends it. -/
def Allowed (settings : Settings) (done : List Ev) : Stmt → Prop
  | .putObject bucket key file =>
      (∀ e ∈ done, ¬ Claiming e.stmt ∧ ¬ Storing e.stmt) ∧ bucket = settings.privateBucket ∧
        ∃ studentId fileName, key = fileKey studentId fileName ∧ Prepares done studentId fileName file
  | .documentCreate data =>
      ¬ Claims done ∧ ∃ fileName file, data.fileUrl = fileUrl settings data.studentId fileName ∧
        data.mimeType = file.mimetype ∧ Stores settings done data.studentId fileName file
  | .submissionUpsert _ studentId contentUrl _ =>
      ¬ Claims done ∧ ∃ fileName file, contentUrl = fileUrl settings studentId fileName ∧
        Stores settings done studentId fileName file
  | .deleteObject bucket key =>
      bucket = settings.privateBucket ∧ ∃ id studentId document deletedAt row,
        (⟨.documentFindFirst id studentId, some document⟩ : Ev) ∈ done ∧
        (⟨.documentUpdate id deletedAt, row⟩ : Ev) ∈ done ∧
        key = fileKey studentId (lastPart document.fileUrl)
  | _ => True

def guards (settings : Settings) : Guards interface Op where
  stmt l q := l.tx = none ∧ Allowed settings l.done q
  commit _ := False

/-! ## Programs -/

@[simp] theorem conforms_perform {q : Stmt} {Q : Log → Ans q → Prop} {E : Log → Err → Prop} {l : Log}
    {G : Guards interface Op} :
    @Prog.Conforms interface model Err (no_index (Ans q)) Op G (perform q) Q E l ↔
      G.stmt l q ∧ (∀ f, E l (.failure f)) ∧ ∀ a, model.Possible q a → Q (l.push ⟨q, a⟩) a :=
  Iff.rfl

section Conformance

variable {settings : Settings} {o : Op} {d : List Ev} {α : Type}

/-- No statement on the record stores or writes a file. -/
def Quiet (done : List Ev) : Prop := ∀ e ∈ done, ¬ Claiming e.stmt ∧ ¬ Storing e.stmt

theorem quiet_nil : Quiet [] := fun _ he => absurd he List.not_mem_nil

theorem Quiet.push {e : Ev} (hd : Quiet d) (he : ¬ Claiming e.stmt ∧ ¬ Storing e.stmt) :
    Quiet (d ++ [e]) := by
  intro e' he'
  rcases List.mem_append.1 he' with hold | hnew
  · exact hd e' hold
  · exact List.mem_singleton.1 hnew ▸ he

theorem Quiet.not_claims (hd : Quiet d) : ¬ Claims d := fun ⟨e, he, hclaiming⟩ => (hd e he).1 hclaiming

theorem not_claims_push {e : Ev} (hd : ¬ Claims d) (he : ¬ Claiming e.stmt) : ¬ Claims (d ++ [e]) := by
  rintro ⟨e', he', hclaiming⟩
  rcases List.mem_append.1 he' with hold | hnew
  · exact hd ⟨e', hold, hclaiming⟩
  · exact he (List.mem_singleton.1 hnew ▸ hclaiming)

theorem conforms_check {G : Guards interface Op} {x : Except Uploads.Failure α} {Q : Log → α → Prop}
    {E : Log → Err → Prop} {l : Log} (hQ : ∀ a, x = .ok a → Q l a) (hE : ∀ e, E l e) :
    (check x).Conforms model G Q E l := by
  cases x with
  | ok a => exact hQ a rfl
  | error e => cases e <;> exact hE _

theorem isBase_of_possible {base : String} (h : model.Possible .randomBytes base) : IsBase base := by
  obtain ⟨c, s, hexec⟩ := h
  cases c with
  | bytes base' =>
      simp only [exec] at hexec
      split at hexec
      · next hbase => exact Option.some.inj hexec ▸ hbase.1
      · cases hexec
  | _ => cases hexec

theorem storeDocument_conforms {toLowerCase : String → String} (hlower : KeepsParts toLowerCase)
    {file : File} {studentId : Id} {Q : Log → String → Prop} {E : Log → Err → Prop} (hd : Quiet d)
    (hE : ∀ l e, E l e) (hQ : ∀ d' fileName, ¬ Claims d' →
      Stores settings d' studentId fileName file →
      Q ⟨o, d', none⟩ (fileUrl settings studentId fileName)) :
    (storeDocument toLowerCase settings file studentId).Conforms model (guards settings) Q E
      ⟨o, d, none⟩ := by
  unfold storeDocument
  simp only [bind_eq, pure_eq, conforms_handle, conforms_perform, conforms_ret]
  refine conforms_check (fun _ hsafe => conforms_check (fun _ hid => ?_) (hE _)) (hE _)
  refine ⟨⟨rfl, trivial⟩, fun _ => hE _ _, fun base hbase => ?_⟩
  refine conforms_check (fun key hkey => ?_) (hE _)
  have hquiet : Quiet (d ++ [⟨.randomBytes, base⟩]) := hd.push ⟨id, id⟩
  obtain rfl := Uploads.buildKey_eq_ok hkey
  have hprepares : Prepares (d ++ [⟨.randomBytes, base⟩]) studentId
      (generateFileName toLowerCase base file.originalname) file :=
    ⟨⟨base, List.mem_append_right _ (List.mem_singleton_self _),
      named_generateFileName hlower (isBase_of_possible hbase) _⟩,
      part_of_assertSafeEntityId hid, hsafe, hkey⟩
  refine ⟨⟨rfl, hquiet, rfl, studentId, _, rfl, hprepares⟩, fun _ => hE _ _, fun u _ => ?_⟩
  refine hQ _ _ (not_claims_push hquiet.not_claims id)
    ⟨hprepares.mono (List.subset_append_left _ _), ?_⟩
  cases u
  exact List.mem_append_right _ (List.mem_singleton_self _)

theorem uploadDocument_conforms {toLowerCase : String → String} (hlower : KeepsParts toLowerCase)
    (userId : Id) (file : File) (dto : UploadDocumentDto) :
    (uploadDocument toLowerCase settings userId file dto).Conforms model (guards settings)
      (fun _ _ => True) (fun _ _ => True) ⟨o, [], none⟩ := by
  unfold uploadDocument
  simp only [bind_eq, conforms_handle, conforms_perform, Trace.push_outside, List.nil_append]
  refine ⟨⟨rfl, trivial⟩, fun _ => trivial, fun student _ => ?_⟩
  cases student with
  | none => trivial
  | some student =>
      rw [conforms_handle]
      refine storeDocument_conforms hlower (quiet_nil.push ⟨id, id⟩) (fun _ _ => trivial)
        fun d' fileName hclaims hstores => ?_
      exact ⟨⟨rfl, hclaims, fileName, file, rfl, rfl, hstores⟩, fun _ => trivial, fun _ _ => trivial⟩

theorem deleteObject_conforms {studentId : Id} {document : Document}
    (hd : ∃ id deletedAt row, (⟨.documentFindFirst id studentId, some document⟩ : Ev) ∈ d ∧
      (⟨.documentUpdate id deletedAt, row⟩ : Ev) ∈ d) :
    (deleteObject settings ["documents", studentId, lastPart document.fileUrl]).Conforms model
      (guards settings) (fun _ _ => True) (fun _ _ => True) ⟨o, d, none⟩ := by
  obtain ⟨id, deletedAt, row, hfound, hdeleted⟩ := hd
  unfold deleteObject
  simp only [bind_eq, tryCatch_eq, pure_eq, conforms_handle, conforms_perform, conforms_ret]
  refine conforms_check (fun key hkey => ?_) fun _ => trivial
  obtain rfl := Uploads.buildKey_eq_ok hkey
  exact ⟨⟨rfl, rfl, id, studentId, document, deletedAt, row, hfound, hdeleted, rfl⟩,
    fun _ => trivial, fun _ _ => trivial⟩

theorem deleteDocument_conforms (userId documentId : Id) :
    (deleteDocument settings userId documentId).Conforms model (guards settings) (fun _ _ => True)
      (fun _ _ => True) ⟨o, [], none⟩ := by
  unfold deleteDocument
  simp only [bind_eq, conforms_handle, conforms_perform, Trace.push_outside, List.nil_append]
  refine ⟨⟨rfl, trivial⟩, fun _ => trivial, fun student _ => ?_⟩
  cases student with
  | none => trivial
  | some student =>
      simp only [conforms_handle, conforms_perform, Trace.push_outside]
      refine ⟨⟨rfl, trivial⟩, fun _ => trivial, fun document _ => ?_⟩
      cases document with
      | none => trivial
      | some document =>
          simp only [conforms_handle, conforms_perform, Trace.push_outside, conforms_ite, conforms_ret,
            pure_eq]
          refine ⟨⟨rfl, trivial⟩, fun _ => trivial, fun now _ => ⟨⟨rfl, trivial⟩, fun _ => trivial,
            fun row _ => ⟨fun _ => ?_, fun _ => trivial⟩⟩⟩
          exact deleteObject_conforms ⟨documentId, now, row, by simp, by simp⟩

/-- A program that neither stores nor writes leaves the record quiet. -/
theorem courseEnrollment_conforms {studentId courseId : Id} {Q : Log → Unit → Prop}
    {E : Log → Err → Prop} (hd : Quiet d) (hE : ∀ l e, E l e)
    (hQ : ∀ d', Quiet d' → Q ⟨o, d', none⟩ ()) :
    (courseEnrollment studentId courseId).Conforms model (guards settings) Q E ⟨o, d, none⟩ := by
  unfold courseEnrollment
  simp only [bind_eq, conforms_handle, conforms_perform, Trace.push_outside]
  refine ⟨⟨rfl, trivial⟩, fun _ => hE _ _, fun schoolId _ => ?_⟩
  cases schoolId with
  | none => exact hE _ _
  | some schoolId =>
      simp only [conforms_handle, conforms_perform, Trace.push_outside, conforms_ite, throw_eq,
        conforms_fail, pure_eq, conforms_ret]
      exact ⟨⟨rfl, trivial⟩, fun _ => hE _ _, fun status _ => ⟨fun _ => hE _ _, fun _ =>
        hQ _ ((hd.push ⟨id, id⟩).push ⟨id, id⟩)⟩⟩

theorem submitAssignment_conforms {toLowerCase : String → String} (hlower : KeepsParts toLowerCase)
    (userId assignmentId : Id) (file : File) :
    (submitAssignment toLowerCase settings userId assignmentId file).Conforms model (guards settings)
      (fun _ _ => True) (fun _ _ => True) ⟨o, [], none⟩ := by
  unfold submitAssignment
  simp only [bind_eq, conforms_handle, conforms_perform, Trace.push_outside, List.nil_append]
  refine ⟨⟨rfl, trivial⟩, fun _ => trivial, fun student _ => ?_⟩
  cases student with
  | none => trivial
  | some student =>
      simp only [conforms_handle, conforms_perform, Trace.push_outside]
      refine ⟨⟨rfl, trivial⟩, fun _ => trivial, fun assignment _ => ?_⟩
      cases assignment with
      | none => trivial
      | some assignment =>
          simp only [conforms_handle, conforms_perform, conforms_ite, throw_eq, conforms_fail]
          refine ⟨fun _ => trivial, fun _ => courseEnrollment_conforms
            ((quiet_nil.push ⟨id, id⟩).push ⟨id, id⟩) (fun _ _ => trivial) fun d' hd' => ?_⟩
          refine ⟨⟨rfl, trivial⟩, fun _ => trivial, fun existing _ => ⟨fun _ => trivial, fun _ => ?_⟩⟩
          refine storeDocument_conforms hlower (hd'.push ⟨id, id⟩) (fun _ _ => trivial)
            fun d'' fileName hclaims hstores => ?_
          refine ⟨⟨rfl, trivial⟩, fun _ => trivial, fun now _ =>
            ⟨⟨rfl, not_claims_push hclaims id, fileName, file, rfl,
              hstores.mono (List.subset_append_left _ _)⟩, fun _ => trivial, fun _ _ => trivial⟩⟩

/-- **Every call keeps to the guards.** -/
theorem program_conforms {toLowerCase : String → String} (hlower : KeepsParts toLowerCase) (o : Op) :
    (program toLowerCase settings o).Conforms model (guards settings) (fun _ _ => True)
      (fun _ _ => True) (.start o) := by
  cases o with
  | uploadDocument userId file dto =>
      exact (conforms_handle _ _ _ _).2 (uploadDocument_conforms hlower userId file dto)
  | deleteDocument userId documentId =>
      exact (conforms_handle _ _ _ _).2 (deleteDocument_conforms userId documentId)
  | submitAssignment userId assignmentId file =>
      exact (conforms_handle _ _ _ _).2 (submitAssignment_conforms hlower userId assignmentId file)

end Conformance

end GetPlatform.Deposits
