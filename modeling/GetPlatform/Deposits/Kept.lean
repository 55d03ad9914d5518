import GetPlatform.Deposits.Guards

set_option autoImplicit false

/-! # What stands in the storage and in the rows

A name is drawn by one call and goes into one row at most, so two rows never share an object. An object
is stored before its row is written and deleted after the row is marked, so a document that is not
deleted has its object. -/

namespace GetPlatform.Deposits

open Uploads (Id File Document StoredObject buildKey)
open Pool Prog

variable {settings : Settings} {s s' : World}

/-! ## The state -/

/-- The URL is that of a file of the student, whose name was drawn. -/
structure Addressed (settings : Settings) (s : World) (studentId : Id) (url : String) : Prop where
  drawn : ∃ base ∈ s.drawn, Named base (lastPart url)
  part : Part studentId
  url : url = fileUrl settings studentId (lastPart url)

/-- The object is a file of a student that was checked, under a name that was drawn. -/
def Checked (settings : Settings) (s : World) (o : StoredObject) : Prop :=
  ∃ base ∈ s.drawn, ∃ studentId fileName file, Named base fileName ∧ Part studentId ∧
    assertSafeDocument false file = .ok () ∧
    buildKey ["documents", studentId, fileName] = .ok (fileKey studentId fileName) ∧
    o = ⟨settings.privateBucket, fileKey studentId fileName, file.buffer, file.mimetype⟩

/-- The object of a document, with the type of the document. -/
def Document.HasObject (settings : Settings) (s : World) (d : Document) : Prop :=
  ∃ o ∈ s.site.objects, Keyed.key o = (settings.privateBucket, fileKey d.studentId (lastPart d.fileUrl)) ∧
    o.contentType = d.mimeType

/-- Every row has a file of its own, which is there unless the document is deleted. -/
structure Kept (settings : Settings) (s : World) : Prop where
  document : ∀ d ∈ s.site.documents, Addressed settings s d.studentId d.fileUrl
  submission : ∀ x ∈ s.submissions, ∀ url, x.contentUrl = some url →
    Addressed settings s x.studentId url
  apart : ∀ d ∈ s.site.documents, ∀ d' ∈ s.site.documents, lastPart d.fileUrl = lastPart d'.fileUrl →
    d = d'
  aside : ∀ d ∈ s.site.documents, ∀ x ∈ s.submissions, ∀ url, x.contentUrl = some url →
    lastPart url ≠ lastPart d.fileUrl
  there : ∀ d ∈ s.site.documents, d.deletedAt = none → Document.HasObject settings s d
  object : ∀ o ∈ s.site.objects, Checked settings s o

/-- A row has the URL of a file with this name. -/
def Claimed (s : World) (base : String) : Prop :=
  (∃ d ∈ s.site.documents, Named base (lastPart d.fileUrl)) ∨
    ∃ x ∈ s.submissions, ∃ url, x.contentUrl = some url ∧ Named base (lastPart url)

theorem Kept.drawn_of_claimed (h : Kept settings s) {base : String} (hclaimed : Claimed s base) :
    base ∈ s.drawn := by
  rcases hclaimed with ⟨d, hd, hnamed⟩ | ⟨x, hx, url, hurl, hnamed⟩
  · obtain ⟨base', hdrawn, hnamed'⟩ := (h.document d hd).drawn
    exact hnamed.base_eq hnamed' ▸ hdrawn
  · obtain ⟨base', hdrawn, hnamed'⟩ := (h.submission x hx url hurl).drawn
    exact hnamed.base_eq hnamed' ▸ hdrawn

/-! ## One call -/

/-- The rows of documents stay, and stay deleted. -/
def Lasts (s s' : World) : Prop :=
  ∀ d ∈ s.site.documents, ∃ d' ∈ s'.site.documents, d'.id = d.id ∧ d'.studentId = d.studentId ∧
    d'.fileUrl = d.fileUrl ∧ (d.deletedAt ≠ none → d'.deletedAt ≠ none)

theorem Lasts.of_eq (h : s'.site.documents = s.site.documents) : Lasts s s' :=
  fun d hd => ⟨d, h ▸ hd, rfl, rfl, rfl, id⟩

/-- A name that the call has drawn, and not written in a row. -/
def Owns (done : List Ev) (base : String) : Prop := Drew done base ∧ ¬ Claims done

/-- What a call can rely on. -/
structure Told (settings : Settings) (s : World) (done : List Ev) : Prop where
  drawn : ∀ base, Drew done base → base ∈ s.drawn
  unclaimed : ∀ base, Owns done base → ¬ Claimed s base
  addressed : ∀ bucket key file, (⟨.putObject bucket key file, ()⟩ : Ev) ∈ done →
    bucket = settings.privateBucket ∧ ∃ base studentId fileName, Drew done base ∧
      Named base fileName ∧ Part studentId ∧ key = fileKey studentId fileName
  stored : ¬ Claims done → ∀ bucket key file, (⟨.putObject bucket key file, ()⟩ : Ev) ∈ done →
    (⟨bucket, key, file.buffer, file.mimetype⟩ : StoredObject) ∈ s.site.objects
  found : ∀ id studentId document, (⟨.documentFindFirst id studentId, some document⟩ : Ev) ∈ done →
    ∃ d ∈ s.site.documents, d.id = id ∧ d.studentId = studentId ∧ d.fileUrl = document.fileUrl
  deleted : ∀ id deletedAt row, (⟨.documentUpdate id deletedAt, row⟩ : Ev) ∈ done →
    ∃ d ∈ s.site.documents, d.id = id ∧ d.deletedAt ≠ none

/-- No name is drawn by two calls. -/
def Apart (done done' : List Ev) : Prop := ∀ base, Drew done base → ¬ Drew done' base

/-- An object stays if the call has stored it, and not written its URL in a row. -/
def StaysFor (done : List Ev) (s s' : World) : Prop :=
  ∀ base studentId fileName, Owns done base → Named base fileName → Part studentId →
    ∀ o ∈ s.site.objects, o.key = fileKey studentId fileName → o ∈ s'.site.objects

section Call

variable {done : List Ev} {e : Ev}

/-- What leaves a call what it relies on. -/
theorem Told.mono (h : Told settings s done) (hdrawn : s.drawn ⊆ s'.drawn) (hlasts : Lasts s s')
    (hclaimed : ∀ base, Owns done base → Claimed s' base → Claimed s base)
    (hstays : StaysFor done s s') : Told settings s' done where
  drawn base hdrew := hdrawn (h.drawn base hdrew)
  unclaimed base hbase hnow := h.unclaimed base hbase (hclaimed base hbase hnow)
  addressed := h.addressed
  stored hclaims bucket key file hput := by
    obtain ⟨-, base, studentId, fileName, hdrew, hnamed, hpart, hkey⟩ := h.addressed _ _ _ hput
    exact hstays base studentId fileName ⟨hdrew, hclaims⟩ hnamed hpart _
      (h.stored hclaims _ _ _ hput) hkey
  found id studentId document hfound := by
    obtain ⟨d, hd, hid, hstudent, hurl⟩ := h.found id studentId document hfound
    obtain ⟨d', hd', hid', hstudent', hurl', -⟩ := hlasts d hd
    exact ⟨d', hd', hid'.trans hid, hstudent'.trans hstudent, hurl'.trans hurl⟩
  deleted id deletedAt row hdeleted := by
    obtain ⟨d, hd, hid, hat⟩ := h.deleted id deletedAt row hdeleted
    obtain ⟨d', hd', hid', -, -, hat'⟩ := hlasts d hd
    exact ⟨d', hd', hid'.trans hid, hat' hat⟩

theorem told_nil : Told settings s [] := by
  refine ⟨?_, ?_, ?_, ?_, ?_, ?_⟩ <;> simp [Drew, Owns]

theorem drew_push {base : String} :
    Drew (done ++ [e]) base ↔ Drew done base ∨ e = ⟨.randomBytes, base⟩ := by
  simp [Drew, eq_comm]

theorem not_claims_of_push (h : ¬ Claims (done ++ [e])) : ¬ Claims done :=
  fun ⟨e', he', hclaiming⟩ => h ⟨e', List.mem_append_left _ he', hclaiming⟩

/-- One more statement, which writes no URL in a row. -/
theorem Told.push (h : Told settings s done)
    (hdraw : ∀ base, e = ⟨.randomBytes, base⟩ → base ∈ s.drawn ∧ ¬ Claimed s base)
    (hput : ∀ bucket key file, e = ⟨.putObject bucket key file, ()⟩ →
      (bucket = settings.privateBucket ∧ ∃ base studentId fileName, Drew done base ∧
        Named base fileName ∧ Part studentId ∧ key = fileKey studentId fileName) ∧
      (⟨bucket, key, file.buffer, file.mimetype⟩ : StoredObject) ∈ s.site.objects)
    (hfound : ∀ id studentId document, e = ⟨.documentFindFirst id studentId, some document⟩ →
      ∃ d ∈ s.site.documents, d.id = id ∧ d.studentId = studentId ∧ d.fileUrl = document.fileUrl)
    (hdeleted : ∀ id deletedAt row, e = ⟨.documentUpdate id deletedAt, row⟩ →
      ∃ d ∈ s.site.documents, d.id = id ∧ d.deletedAt ≠ none) : Told settings s (done ++ [e]) where
  drawn base hdrew := (drew_push.1 hdrew).elim (h.drawn base) fun he => (hdraw base he).1
  unclaimed base hbase := (drew_push.1 hbase.1).elim
    (fun hdrew => h.unclaimed base ⟨hdrew, not_claims_of_push hbase.2⟩) fun he => (hdraw base he).2
  addressed bucket key file hin := by
    have hold : bucket = settings.privateBucket ∧ ∃ base studentId fileName, Drew done base ∧
        Named base fileName ∧ Part studentId ∧ key = fileKey studentId fileName := by
      rcases List.mem_append.1 hin with hin | hin
      · exact h.addressed _ _ _ hin
      · exact (hput _ _ _ (List.mem_singleton.1 hin).symm).1
    obtain ⟨hbucket, base, studentId, fileName, hdrew, hrest⟩ := hold
    exact ⟨hbucket, base, studentId, fileName, drew_push.2 (.inl hdrew), hrest⟩
  stored hclaims bucket key file hin := by
    rcases List.mem_append.1 hin with hin | hin
    · exact h.stored (not_claims_of_push hclaims) _ _ _ hin
    · exact (hput _ _ _ (List.mem_singleton.1 hin).symm).2
  found id studentId document hin := by
    rcases List.mem_append.1 hin with hin | hin
    · exact h.found _ _ _ hin
    · exact hfound _ _ _ (List.mem_singleton.1 hin).symm
  deleted id deletedAt row hin := by
    rcases List.mem_append.1 hin with hin | hin
    · exact h.deleted _ _ _ hin
    · exact hdeleted _ _ _ (List.mem_singleton.1 hin).symm

/-- A statement that writes a URL in a row is the last that needs the name. -/
theorem Told.claim (h : Told settings s done) (hdrawn : s.drawn ⊆ s'.drawn) (hlasts : Lasts s s')
    (he : Claiming e.stmt) : Told settings s' (done ++ [e]) := by
  have hclaims : Claims (done ++ [e]) := ⟨e, List.mem_append_right _ (List.mem_singleton_self _), he⟩
  have hold : ∀ {e' : Ev}, e' ∈ done ++ [e] → ¬ Claiming e'.stmt → e' ∈ done := by
    intro e' he' hnot
    rcases List.mem_append.1 he' with he' | he'
    · exact he'
    · exact absurd (List.mem_singleton.1 he' ▸ he) hnot
  refine ⟨fun base hdrew => hdrawn (h.drawn base (hold hdrew id)), fun base hbase => absurd hclaims hbase.2,
    fun bucket key file hput => ?_, fun hnot => absurd hclaims hnot,
    fun id studentId document hfound => ?_, fun id deletedAt row hdeleted => ?_⟩
  · obtain ⟨hbucket, base, studentId, fileName, hdrew, hrest⟩ := h.addressed _ _ _ (hold hput id)
    exact ⟨hbucket, base, studentId, fileName, drew_push.2 (.inl hdrew), hrest⟩
  · obtain ⟨d, hd, hid, hstudent, hurl⟩ := h.found _ _ _ (hold hfound fun hnot => hnot)
    obtain ⟨d', hd', hid', hstudent', hurl', -⟩ := hlasts d hd
    exact ⟨d', hd', hid'.trans hid, hstudent'.trans hstudent, hurl'.trans hurl⟩
  · obtain ⟨d, hd, hid, hat⟩ := h.deleted _ _ _ (hold hdeleted fun hnot => hnot)
    obtain ⟨d', hd', hid', -, -, hat'⟩ := hlasts d hd
    exact ⟨d', hd', hid'.trans hid, hat' hat⟩

end Call

end GetPlatform.Deposits
