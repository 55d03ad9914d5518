import GetPlatform.Deposits.Kept

set_option autoImplicit false

/-! # What each statement leaves

One lemma for each statement that writes: the rows and the objects are in order after it, the call that
has sent it relies on what it has done, and every other call on what it did before. -/

namespace GetPlatform.Deposits

open Uploads (Id File Document StoredObject)
open Pool Prog

variable {settings : Settings} {s s' : World} {done : List Ev}

/-- What a statement of the call with record `done` leaves. -/
structure Leaves (settings : Settings) (done : List Ev) (e : Ev) (s s' : World) : Prop where
  kept : Kept settings s'
  own : Told settings s' (done ++ [e])
  others : ∀ done', Told settings s done' → Apart done done' → Told settings s' done'

/-! ## Names -/

theorem Addressed.mono {studentId : Id} {url : String} (h : Addressed settings s studentId url)
    (hdrawn : s.drawn ⊆ s'.drawn) : Addressed settings s' studentId url :=
  ⟨h.drawn.imp fun _ hbase => ⟨hdrawn hbase.1, hbase.2⟩, h.part, h.url⟩

theorem Checked.mono {o : StoredObject} (h : Checked settings s o) (hdrawn : s.drawn ⊆ s'.drawn) :
    Checked settings s' o :=
  h.imp fun _ hbase => ⟨hdrawn hbase.1, hbase.2⟩

/-- Rows that have the same URLs for the same students claim the same names. -/
theorem Claimed.of_rows {base : String} (h : Claimed s' base)
    (hdocuments : ∀ d' ∈ s'.site.documents, ∃ d ∈ s.site.documents, d.fileUrl = d'.fileUrl)
    (hsubmissions : ∀ x' ∈ s'.submissions, ∃ x ∈ s.submissions, x.contentUrl = x'.contentUrl) :
    Claimed s base := by
  rcases h with ⟨d', hd', hnamed⟩ | ⟨x', hx', url, hurl, hnamed⟩
  · obtain ⟨d, hd, heq⟩ := hdocuments d' hd'
    exact .inl ⟨d, hd, heq ▸ hnamed⟩
  · obtain ⟨x, hx, heq⟩ := hsubmissions x' hx'
    exact .inr ⟨x, hx, url, heq.trans hurl, hnamed⟩

/-- Drawing a name. -/
theorem leaves_randomBytes (hkept : Kept settings s) (htold : Told settings s done) {base : String}
    (hnew : base ∉ s.drawn) :
    Leaves settings done ⟨.randomBytes, base⟩ s { s with drawn := base :: s.drawn } := by
  have hdrawn : s.drawn ⊆ base :: s.drawn := List.subset_cons_self ..
  have hmono : ∀ done', Told settings s done' →
      Told settings { s with drawn := base :: s.drawn } done' := fun done' htold' =>
    htold'.mono hdrawn (.of_eq rfl) (fun _ _ => id) fun _ _ _ _ _ _ _ ho _ => ho
  refine ⟨⟨fun d hd => (hkept.document d hd).mono hdrawn,
    fun x hx url hurl => (hkept.submission x hx url hurl).mono hdrawn, hkept.apart, hkept.aside,
    hkept.there, fun o ho => (hkept.object o ho).mono hdrawn⟩,
    (hmono done htold).push (fun base' he => ?_) (by simp) (by simp) (by simp),
    fun done' htold' _ => hmono done' htold'⟩
  obtain rfl : base = base' := by simpa using he
  exact ⟨List.mem_cons_self, fun hclaimed => hnew (hkept.drawn_of_claimed hclaimed)⟩

/-! ## Objects -/

/-- The objects of a row and of a call that has not claimed its name are two. -/
theorem Told.key_ne {base studentId fileName : String} (htold : Told settings s done)
    (howns : Owns done base) (hnamed : Named base fileName) {d : Document} (hd : d ∈ s.site.documents)
    (hkept : Kept settings s) :
    fileKey studentId fileName ≠ fileKey d.studentId (lastPart d.fileUrl) := by
  intro hkey
  have haddressed := hkept.document d hd
  obtain ⟨base', -, hnamed'⟩ := haddressed.drawn
  obtain ⟨-, rfl⟩ := key_inj haddressed.part hnamed'.part hkey
  exact htold.unclaimed base howns (.inl ⟨d, hd, hnamed⟩)

/-- Storing a file under a name that the call has drawn. -/
theorem leaves_putObject (hkept : Kept settings s) (htold : Told settings s done) {bucket key : String}
    {file : File} (hallowed : Allowed settings done (.putObject bucket key file)) :
    Leaves settings done ⟨.putObject bucket key file, ()⟩ s
      { s with site := { s.site with
        objects := s.site.objects.put ⟨bucket, key, file.buffer, file.mimetype⟩ } } := by
  obtain ⟨hquiet, rfl, studentId, fileName, rfl, ⟨base, hdrew, hnamed⟩, hpart, hsafe, hbuilt⟩ := hallowed
  have howns : Owns done base := ⟨hdrew, Quiet.not_claims hquiet⟩
  have hmem : ∀ o, o ∈ s.site.objects.put
      ⟨settings.privateBucket, fileKey studentId fileName, file.buffer, file.mimetype⟩ ↔
        o = ⟨settings.privateBucket, fileKey studentId fileName, file.buffer, file.mimetype⟩ ∨
          (o ∈ s.site.objects ∧ Keyed.key o ≠ (settings.privateBucket, fileKey studentId fileName)) :=
    fun _ => Table.mem_put
  refine ⟨⟨fun d hd => (hkept.document d hd).mono fun _ => id,
    fun x hx url hurl => (hkept.submission x hx url hurl).mono fun _ => id, hkept.apart, hkept.aside,
    fun d hd hlive => ?_, fun o ho => ?_⟩, ?_, fun done' htold' hapart => ?_⟩
  · obtain ⟨o, ho, hkey, htype⟩ := hkept.there d hd hlive
    refine ⟨o, (hmem o).2 (.inr ⟨ho, fun hsame => ?_⟩), hkey, htype⟩
    exact htold.key_ne howns hnamed hd hkept (Prod.mk.inj (hsame.symm.trans hkey)).2
  · rcases (hmem o).1 ho with rfl | ⟨ho, -⟩
    · exact ⟨base, htold.drawn base hdrew, studentId, fileName, file, hnamed, hpart, hsafe, hbuilt, rfl⟩
    · exact hkept.object o ho
  · -- The call has stored nothing before.
    have hnone : ∀ bucket key file, (⟨.putObject bucket key file, ()⟩ : Ev) ∉ done :=
      fun _ _ _ hput => (hquiet _ hput).2 trivial
    have htold' : Told settings { s with site := { s.site with
        objects := s.site.objects.put
          ⟨settings.privateBucket, fileKey studentId fileName, file.buffer, file.mimetype⟩ } } done :=
      ⟨htold.drawn, htold.unclaimed, htold.addressed, fun _ _ _ _ hput => absurd hput (hnone _ _ _),
        htold.found, htold.deleted⟩
    refine htold'.push (by simp) (fun bucket' key' file' he => ?_) (by simp) (by simp)
    obtain ⟨rfl, rfl, rfl⟩ : settings.privateBucket = bucket' ∧ fileKey studentId fileName = key' ∧
        file = file' := by simpa using he
    exact ⟨⟨rfl, base, studentId, fileName, hdrew, hnamed, hpart, rfl⟩, (hmem _).2 (.inl rfl)⟩
  · refine htold'.mono (fun _ => id) (.of_eq rfl) (fun _ _ => id)
      fun base' studentId' fileName' howns' hnamed' hpart' o ho hkey => ?_
    refine (hmem o).2 (.inr ⟨ho, fun hsame => ?_⟩)
    obtain ⟨-, hname⟩ := key_inj hpart' hnamed'.part ((Prod.mk.inj hsame).2.symm.trans hkey)
    obtain rfl := (hname ▸ hnamed).base_eq hnamed'
    exact hapart base hdrew howns'.1

/-- Deleting the object of a document that is marked as deleted. -/
theorem leaves_deleteObject (hkept : Kept settings s) (htold : Told settings s done)
    {bucket key : String} (hallowed : Allowed settings done (.deleteObject bucket key)) :
    Leaves settings done ⟨.deleteObject bucket key, ()⟩ s
      { s with site := { s.site with
        objects := s.site.objects.filter fun o => Keyed.key o ≠ (bucket, key) } } := by
  obtain ⟨rfl, id, studentId, document, deletedAt, row, hfound, hdeleted, rfl⟩ := hallowed
  obtain ⟨d, hd, hid, rfl, hurl⟩ := htold.found id studentId document hfound
  obtain ⟨d', hd', hid', hat⟩ := htold.deleted id deletedAt row hdeleted
  obtain rfl : d = d' := Table.eq_of_key_eq hd hd' (hid.trans hid'.symm)
  have hmem : ∀ o, o ∈ s.site.objects.filter (fun o => Keyed.key o ≠
      (settings.privateBucket, fileKey d.studentId (lastPart document.fileUrl))) ↔
      o ∈ s.site.objects ∧ Keyed.key o ≠ (settings.privateBucket, fileKey d.studentId (lastPart d.fileUrl)) := by
    intro o
    rw [Table.mem_filter, decide_eq_true_eq, hurl]
  have hmono : ∀ done', Told settings s done' → Told settings { s with site := { s.site with
      objects := s.site.objects.filter fun o => Keyed.key o ≠
        (settings.privateBucket, fileKey d.studentId (lastPart document.fileUrl)) } } done' := by
    intro done' htold'
    refine htold'.mono (fun _ h => h) (.of_eq rfl) (fun _ _ h => h)
      fun base studentId fileName howns hnamed _ o ho hkey => (hmem o).2 ⟨ho, fun hsame => ?_⟩
    exact htold'.key_ne howns hnamed hd hkept (hkey.symm.trans (Prod.mk.inj hsame).2)
  refine ⟨⟨fun d hd => (hkept.document d hd).mono fun _ h => h,
    fun x hx url hurl => (hkept.submission x hx url hurl).mono fun _ h => h, hkept.apart, hkept.aside,
    fun d₁ hd₁ hlive => ?_, fun o ho => hkept.object o ((hmem o).1 ho).1⟩,
    (hmono done htold).push (by simp) (by simp) (by simp) (by simp), fun done' htold' _ => hmono done' htold'⟩
  obtain ⟨o, ho, hkey, htype⟩ := hkept.there d₁ hd₁ hlive
  refine ⟨o, (hmem o).2 ⟨ho, fun hsame => ?_⟩, hkey, htype⟩
  have haddressed := hkept.document d hd
  obtain ⟨base, -, hnamed⟩ := haddressed.drawn
  obtain ⟨-, hname⟩ := key_inj haddressed.part hnamed.part (Prod.mk.inj (hkey.symm.trans hsame)).2
  exact hat (hkept.apart d₁ hd₁ d hd hname ▸ hlive)

/-! ## Rows -/

/-- No row has the name yet that the call has stored a file under. -/
theorem Stores.ne_document {fileName studentId : String} {file : File} (htold : Told settings s done)
    (hclaims : ¬ Claims done) (hstores : Stores settings done studentId fileName file) {d : Document}
    (hd : d ∈ s.site.documents) : fileName ≠ lastPart d.fileUrl := by
  obtain ⟨base, hdrew, hnamed⟩ := hstores.drew
  rintro rfl
  exact htold.unclaimed base ⟨hdrew, hclaims⟩ (.inl ⟨d, hd, hnamed⟩)

theorem Stores.ne_submission {fileName studentId : String} {file : File} (htold : Told settings s done)
    (hclaims : ¬ Claims done) (hstores : Stores settings done studentId fileName file)
    {x : AssignmentSubmission} (hx : x ∈ s.submissions) {url : String} (hurl : x.contentUrl = some url) :
    fileName ≠ lastPart url := by
  obtain ⟨base, hdrew, hnamed⟩ := hstores.drew
  rintro rfl
  exact htold.unclaimed base ⟨hdrew, hclaims⟩ (.inr ⟨x, hx, url, hurl, hnamed⟩)

theorem Stores.lastPart {fileName studentId : String} {file : File}
    (hstores : Stores settings done studentId fileName file) :
    Deposits.lastPart (fileUrl settings studentId fileName) = fileName := by
  obtain ⟨base, -, hnamed⟩ := hstores.drew
  exact lastPart_protectedObjectUrl hnamed.part

theorem Stores.addressed {fileName studentId : String} {file : File} (htold : Told settings s done)
    (hstores : Stores settings done studentId fileName file) :
    Addressed settings s studentId (fileUrl settings studentId fileName) := by
  obtain ⟨base, hdrew, hnamed⟩ := hstores.drew
  refine ⟨⟨base, htold.drawn base hdrew, ?_⟩, hstores.part, ?_⟩
  · rw [hstores.lastPart]
    exact hnamed
  · rw [hstores.lastPart]

/-- What a call has drawn, no other call draws, so it never sees it claimed. -/
theorem Stores.not_named {fileName studentId : String} {file : File} {done' : List Ev}
    (hstores : Stores settings done studentId fileName file) (hapart : Apart done done') {base : String}
    (howns : Owns done' base) : ¬ Named base fileName := by
  obtain ⟨base', hdrew, hnamed⟩ := hstores.drew
  intro hnamed'
  exact hapart base' hdrew (hnamed.base_eq hnamed' ▸ howns.1)

theorem leaves_documentCreate (hkept : Kept settings s) (htold : Told settings s done)
    {data : DocumentCreate} {id : Id} {now : Date} (hnew : s.site.documents.contains id = false)
    (hallowed : Allowed settings done (.documentCreate data)) :
    Leaves settings done ⟨.documentCreate data, data.row id now⟩ s
      { s with site := { s.site with documents := s.site.documents.put (data.row id now) } } := by
  obtain ⟨hclaims, fileName, file, hurl, htype, hstores⟩ := hallowed
  have hurl : (data.row id now).fileUrl = fileUrl settings data.studentId fileName := hurl
  have hname : lastPart (data.row id now).fileUrl = fileName := by rw [hurl, hstores.lastPart]
  have hmem : ∀ d, d ∈ s.site.documents.put (data.row id now) ↔
      d = data.row id now ∨ (d ∈ s.site.documents ∧ Keyed.key d ≠ id) := fun _ => Table.mem_put
  have hlasts : Lasts s { s with site := { s.site with
      documents := s.site.documents.put (data.row id now) } } := by
    refine fun d hd => ⟨d, (hmem d).2 (.inr ⟨hd, fun hsame => ?_⟩), rfl, rfl, rfl, fun h => h⟩
    exact Bool.eq_false_iff.1 hnew (Table.contains_iff.2 (List.mem_map.2 ⟨d, hd, hsame⟩))
  refine ⟨⟨fun d hd => ?_, fun x hx url hurl => (hkept.submission x hx url hurl).mono fun _ h => h,
    fun d hd d' hd' hsame => ?_, fun d hd x hx url hcontent => ?_, fun d hd hlive => ?_,
    fun o ho => (hkept.object o ho).mono fun _ h => h⟩, htold.claim (fun _ h => h) hlasts trivial,
    fun done' htold' hapart => ?_⟩
  · rcases (hmem d).1 hd with rfl | ⟨hd, -⟩
    · rw [hurl]
      exact (hstores.addressed htold).mono fun _ h => h
    · exact (hkept.document d hd).mono fun _ h => h
  · rcases (hmem d).1 hd with rfl | ⟨hd, -⟩
    · rcases (hmem d').1 hd' with rfl | ⟨hd', -⟩
      · rfl
      · exact absurd (hname.symm.trans hsame) (hstores.ne_document htold hclaims hd')
    · rcases (hmem d').1 hd' with rfl | ⟨hd', -⟩
      · exact absurd (hname.symm.trans hsame.symm) (hstores.ne_document htold hclaims hd)
      · exact hkept.apart d hd d' hd' hsame
  · rcases (hmem d).1 hd with rfl | ⟨hd, -⟩
    · exact hname ▸ (hstores.ne_submission htold hclaims hx hcontent).symm
    · exact hkept.aside d hd x hx url hcontent
  · rcases (hmem d).1 hd with rfl | ⟨hd, -⟩
    · refine ⟨_, htold.stored hclaims _ _ _ hstores.put, ?_, htype.symm⟩
      rw [hname]
      rfl
    · exact hkept.there d hd hlive
  · refine htold'.mono (fun _ h => h) hlasts (fun base howns hclaimed => ?_) fun _ _ _ _ _ _ o ho _ => ho
    rcases hclaimed with ⟨d, hd, hnamed⟩ | hclaimed
    · rcases (hmem d).1 hd with rfl | ⟨hd, -⟩
      · exact absurd (hname ▸ hnamed) (hstores.not_named hapart howns)
      · exact .inl ⟨d, hd, hnamed⟩
    · exact .inr hclaimed

/-- Marking a document as deleted. -/
theorem leaves_documentUpdate (hkept : Kept settings s) (htold : Told settings s done) {id : Id}
    {deletedAt : Date} {d₀ : Document} (hd₀ : s.site.documents.find? id = some d₀) :
    Leaves settings done ⟨.documentUpdate id deletedAt, { d₀ with deletedAt := some deletedAt }⟩ s
      { s with site := { s.site with
        documents := s.site.documents.put { d₀ with deletedAt := some deletedAt } } } := by
  have hd₀mem : d₀ ∈ s.site.documents := Table.mem_of_find? hd₀
  have hid : d₀.id = id := Table.key_of_find? hd₀
  have hmem : ∀ d, d ∈ s.site.documents.put { d₀ with deletedAt := some deletedAt } ↔
      d = { d₀ with deletedAt := some deletedAt } ∨ (d ∈ s.site.documents ∧ Keyed.key d ≠ d₀.id) :=
    fun _ => Table.mem_put
  -- The row before it was marked.
  have hbefore : ∀ d' ∈ s.site.documents.put { d₀ with deletedAt := some deletedAt },
      ∃ d ∈ s.site.documents, d.id = d'.id ∧ d.studentId = d'.studentId ∧ d.fileUrl = d'.fileUrl ∧
        d.mimeType = d'.mimeType ∧ (d'.deletedAt = none → d.deletedAt = none) := by
    intro d' hd'
    rcases (hmem d').1 hd' with rfl | ⟨hd', -⟩
    · exact ⟨d₀, hd₀mem, rfl, rfl, rfl, rfl, fun hnone => by cases hnone⟩
    · exact ⟨d', hd', rfl, rfl, rfl, rfl, fun h => h⟩
  have hlasts : Lasts s { s with site := { s.site with
      documents := s.site.documents.put { d₀ with deletedAt := some deletedAt } } } := by
    intro d hd
    by_cases hsame : d.id = d₀.id
    · obtain rfl : d = d₀ := Table.eq_of_key_eq hd hd₀mem hsame
      exact ⟨_, (hmem _).2 (.inl rfl), rfl, rfl, rfl, fun _ => by simp⟩
    · exact ⟨d, (hmem d).2 (.inr ⟨hd, hsame⟩), rfl, rfl, rfl, fun h => h⟩
  have hmono : ∀ done', Told settings s done' → Told settings { s with site := { s.site with
      documents := s.site.documents.put { d₀ with deletedAt := some deletedAt } } } done' := by
    refine fun done' htold' => htold'.mono (fun _ h => h) hlasts (fun base _ hclaimed => ?_)
      fun _ _ _ _ _ _ o ho _ => ho
    exact hclaimed.of_rows (fun d' hd' => (hbefore d' hd').imp fun _ h => ⟨h.1, h.2.2.2.1⟩)
      fun x hx => ⟨x, hx, rfl⟩
  refine ⟨⟨fun d' hd' => ?_, fun x hx url hurl => (hkept.submission x hx url hurl).mono fun _ h => h,
    fun d₁ hd₁ d₂ hd₂ hsame => ?_, fun d' hd' x hx url hcontent => ?_, fun d' hd' hlive => ?_,
    fun o ho => (hkept.object o ho).mono fun _ h => h⟩,
    (hmono done htold).push (by simp) (by simp) (by simp) fun id' deletedAt' row he => ?_,
    fun done' htold' _ => hmono done' htold'⟩
  · obtain ⟨d, hd, -, hstudent, hurl, -, -⟩ := hbefore d' hd'
    exact hstudent ▸ hurl ▸ (hkept.document d hd).mono fun _ h => h
  · obtain ⟨d, hd, hidd, -, hurl, -, -⟩ := hbefore d₁ hd₁
    obtain ⟨d', hd', hidd', -, hurl', -, -⟩ := hbefore d₂ hd₂
    obtain rfl := hkept.apart d hd d' hd' (by rw [hurl, hurl', hsame])
    exact Table.eq_of_key_eq hd₁ hd₂ (hidd.symm.trans hidd')
  · obtain ⟨d, hd, -, -, hurl, -, -⟩ := hbefore d' hd'
    exact hurl ▸ hkept.aside d hd x hx url hcontent
  · obtain ⟨d, hd, -, hstudent, hurl, htype, hat⟩ := hbefore d' hd'
    obtain ⟨o, ho, hkey, hcontent⟩ := hkept.there d hd (hat hlive)
    exact ⟨o, ho, hstudent ▸ hurl ▸ hkey, hcontent.trans htype⟩
  · obtain ⟨rfl, -⟩ : id = id' ∧ deletedAt = deletedAt' := by
      simpa using congrArg Event.stmt he
    exact ⟨_, (hmem _).2 (.inl rfl), hid, by simp⟩

/-- Writing the URL of a file in a submission. -/
theorem leaves_submissionUpsert (hkept : Kept settings s) (htold : Told settings s done)
    {assignmentId studentId : Id} {contentUrl : String} {submittedAt : Date} {row : AssignmentSubmission}
    (hrow : row.studentId = studentId ∧ row.contentUrl = some contentUrl)
    (hallowed : Allowed settings done (.submissionUpsert assignmentId studentId contentUrl submittedAt)) :
    Leaves settings done ⟨.submissionUpsert assignmentId studentId contentUrl submittedAt, row⟩ s
      { s with submissions := s.submissions.put row } := by
  obtain ⟨hclaims, fileName, file, rfl, hstores⟩ := hallowed
  obtain ⟨rfl, hcontent⟩ := hrow
  have hmem : ∀ x, x ∈ s.submissions.put row ↔
      x = row ∨ (x ∈ s.submissions ∧ Keyed.key x ≠ Keyed.key row) := fun _ => Table.mem_put
  refine ⟨⟨fun d hd => (hkept.document d hd).mono fun _ h => h, fun x hx url hurl => ?_, hkept.apart,
    fun d hd x hx url hurl => ?_, hkept.there, fun o ho => (hkept.object o ho).mono fun _ h => h⟩,
    htold.claim (fun _ h => h) (.of_eq rfl) trivial, fun done' htold' hapart => ?_⟩
  · rcases (hmem x).1 hx with rfl | ⟨hx, -⟩
    · obtain rfl := Option.some.inj (hcontent.symm.trans hurl)
      exact (hstores.addressed htold).mono fun _ h => h
    · exact (hkept.submission x hx url hurl).mono fun _ h => h
  · rcases (hmem x).1 hx with rfl | ⟨hx, -⟩
    · obtain rfl := Option.some.inj (hcontent.symm.trans hurl)
      rw [hstores.lastPart]
      exact hstores.ne_document htold hclaims hd
    · exact hkept.aside d hd x hx url hurl
  · refine htold'.mono (fun _ h => h) (.of_eq rfl) (fun base howns hclaimed => ?_)
      fun _ _ _ _ _ _ o ho _ => ho
    rcases hclaimed with hclaimed | ⟨x, hx, url, hurl, hnamed⟩
    · exact .inl hclaimed
    · rcases (hmem x).1 hx with rfl | ⟨hx, -⟩
      · obtain rfl := Option.some.inj (hcontent.symm.trans hurl)
        rw [hstores.lastPart] at hnamed
        exact absurd hnamed (hstores.not_named hapart howns)
      · exact .inr ⟨x, hx, url, hurl, hnamed⟩

/-! ## Other services -/

theorem Kept.elsewhere (hkept : Kept settings s) (e : Elsewhere) : Kept settings (s.elsewhere e) ∧
    ∀ done, Told settings s done → Told settings (s.elsewhere e) done := by
  cases e with
  | site site assignments =>
      exact ⟨⟨fun d hd => (hkept.document d hd).mono fun _ h => h,
        fun x hx url hurl => (hkept.submission x hx url hurl).mono fun _ h => h, hkept.apart,
        hkept.aside, hkept.there, fun o ho => (hkept.object o ho).mono fun _ h => h⟩,
        fun done htold => htold.mono (fun _ h => h) (.of_eq rfl) (fun _ _ h => h)
          fun _ _ _ _ _ _ o ho _ => ho⟩
  | graded assignmentId studentId grade =>
      have hbefore : ∀ x' ∈ (s.elsewhere (.graded assignmentId studentId grade)).submissions,
          ∃ x ∈ s.submissions, x.studentId = x'.studentId ∧ x.contentUrl = x'.contentUrl := by
        intro x' hx'
        have hmem : x' ∈ s.submissions.modify (assignmentId, studentId)
            (fun x => { x with grade := some grade }) fun _ => rfl := hx'
        obtain ⟨x, hx, rfl⟩ := Table.mem_modify.1 hmem
        refine ⟨x, hx, ?_⟩
        split <;> exact ⟨rfl, rfl⟩
      refine ⟨⟨fun d hd => (hkept.document d hd).mono fun _ h => h, fun x' hx' url hurl => ?_, hkept.apart,
        fun d hd x' hx' url hurl => ?_, hkept.there, fun o ho => (hkept.object o ho).mono fun _ h => h⟩,
        fun done htold => htold.mono (fun _ h => h) (.of_eq rfl) (fun _ _ hclaimed => ?_)
          fun _ _ _ _ _ _ o ho _ => ho⟩
      · obtain ⟨x, hx, hstudent, hcontent⟩ := hbefore x' hx'
        exact hstudent ▸ (hkept.submission x hx url (hcontent.trans hurl)).mono fun _ h => h
      · obtain ⟨x, hx, -, hcontent⟩ := hbefore x' hx'
        exact hkept.aside d hd x hx url (hcontent.trans hurl)
      · exact hclaimed.of_rows (fun d hd => ⟨d, hd, rfl⟩) fun x' hx' =>
          (hbefore x' hx').imp fun _ h => ⟨h.1, h.2.2⟩

end GetPlatform.Deposits
