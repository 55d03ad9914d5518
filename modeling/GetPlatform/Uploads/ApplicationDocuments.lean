import GetPlatform.Uploads.ProtectedUploads

set_option autoImplicit false

/-! # Documents that are listed and documents that are served

`ApplicationService.getApplicationDocuments` lists the documents of an applicant for the administrators
of the school, whatever has become of the application. The router serves them while an application is
neither rejected nor cancelled. -/

namespace GetPlatform.Uploads

inductive Err where
  | NotFoundException (message : String)
  | ForbiddenException (message : String)
  deriving DecidableEq

/-! ## `ApplicationService` -/

def ensureCanAccessApplication (s : Site) (application : Application) (userId : Id)
    (role : RoleName) : Except Err Unit :=
  let isStudent := (s.students.find? userId).any (·.id = application.studentId)
  let isSchoolAdmin := (s.schoolAdmins.find? userId).any fun admin =>
    (s.offers.find? application.offerId).any (·.schoolId = admin.schoolId)
  if role = .ADMIN_GET then .ok ()
  else if role = .STUDENT ∧ isStudent then .ok ()
  else if role = .SCHOOL_ADMIN ∧ isSchoolAdmin then .ok ()
  else .error (.ForbiddenException "Vous n’êtes pas autorisé à consulter ce dossier")

/-- The documents of a student that are not deleted. -/
def Site.documentsOf (s : Site) (studentId : Id) : List Document :=
  s.documents.rows.filter fun d => d.studentId = studentId ∧ d.deletedAt = none

def getApplicationDocuments (s : Site) (applicationId userId : Id) (role : RoleName) :
    Except Err (List Document) := do
  let some application := s.applications.find? applicationId
    | throw <| .NotFoundException "Application not found"
  ensureCanAccessApplication s application userId role
  return (s.documentsOf application.studentId).mergeSort fun a b => b.uploadedAt.ms ≤ a.uploadedAt.ms

/-! ## What is listed -/

variable {verify : String → Option Payload} {config : Config} {s : Site} {request : Request}
  {arrive : String → Option (Route × String × String)}

/-- The school is the one that the application is to. -/
def Site.isTo (s : Site) (a : Application) (schoolId : Id) : Prop :=
  ∃ offer, s.offers.find? a.offerId = some offer ∧ offer.schoolId = schoolId

theorem mem_getApplicationDocuments {admin : SchoolAdmin}
    (hadmin : s.schoolAdmins.find? admin.userId = some admin) {application : Application}
    (happlication : application ∈ s.applications) {d : Document} :
    (∃ docs, getApplicationDocuments s application.id admin.userId .SCHOOL_ADMIN = .ok docs ∧
        d ∈ docs) ↔
      s.isTo application admin.schoolId ∧ d ∈ s.documentsOf application.studentId := by
  have hfind : s.applications.find? application.id = some application :=
    Table.find?_key happlication
  unfold getApplicationDocuments ensureCanAccessApplication Site.isTo
  rw [hfind, hadmin]
  cases hoffer : s.offers.find? application.offerId with
  | none => simp [bind, Except.bind, hoffer]
  | some offer =>
    by_cases hschool : offer.schoolId = admin.schoolId <;>
      simp [bind, Except.bind, pure, Except.pure, hoffer, hschool]

/-! ## What is served -/

/-- The key of a file of a student. -/
def documentKey (studentId fileName : String) : String := "documents/" ++ studentId ++ "/" ++ fileName

/-- The URL of the document leads to its object: a request for it comes to the route of documents with
    the student and the file that the URL ends in, and the object is there. -/
def Reachable (arrive : String → Option (Route × String × String)) (config : Config) (s : Site)
    (d : Document) (fileName : String) : Prop :=
  arrive d.fileUrl = some (.documents, d.studentId, fileName) ∧
    (documentKey d.studentId fileName).toList <:+ d.fileUrl.toList ∧
    buildKey ["documents", d.studentId, fileName] = .ok (documentKey d.studentId fileName) ∧
    s.objects.contains (config.privateBucket, documentKey d.studentId fileName) = true

/-- The router serves the document: the request for its URL is redirected to its object. -/
def Serves (arrive : String → Option (Route × String × String)) (verify : String → Option Payload)
    (config : Config) (s : Site) (request : Request) (d : Document) : Prop :=
  ∃ fileName, arrive d.fileUrl = some (.documents, d.studentId, fileName) ∧
    (documentKey d.studentId fileName).toList <:+ d.fileUrl.toList ∧
    Route.documents.answer verify config s { request with url := d.fileUrl } d.studentId fileName =
      .ok (.redirect (documentKey d.studentId fileName))

/-- The administrator may read the documents of the student: an application to the school stands, or
    they are the student's own. -/
def MayRead (s : Site) (admin : SchoolAdmin) (studentId : Id) : Prop :=
  hasApplicationAtThisSchool s studentId admin.schoolId = true ∨
    (s.students.find? admin.userId).any (·.id = studentId) = true

variable {user : User} {admin : SchoolAdmin} {d : Document}

theorem documents_redirects_iff (hrole : user.role = some .SCHOOL_ADMIN)
    (hadmin : s.schoolAdmins.find? user.id = some admin) (hid : admin.userId = user.id)
    (hlive : d ∈ s.documentsOf d.studentId) {fileName : String}
    (hname : (documentKey d.studentId fileName).toList <:+ d.fileUrl.toList) :
    documents config s (s.viewer user) d.studentId fileName =
        .ok (.redirect (documentKey d.studentId fileName)) ↔
      MayRead s admin d.studentId ∧
        redirectToFile config s ["documents", d.studentId, fileName] =
          .ok (.redirect (documentKey d.studentId fileName)) := by
  obtain ⟨hmem, hwhere⟩ := List.mem_filter.1 hlive
  obtain ⟨-, hdeleted⟩ := of_decide_eq_true hwhere
  have hfound : s.documents.rows.find? (fun d' => d'.studentId = d.studentId ∧
      ("documents/" ++ d.studentId ++ "/" ++ fileName).toList <:+ d'.fileUrl.toList ∧
        d'.deletedAt = none) ≠ none := by
    intro hnone
    have hno := List.find?_eq_none.1 hnone d hmem
    exact hno (decide_eq_true ⟨rfl, hname, hdeleted⟩)
  have hviewer : s.viewer user = ⟨user.id, .SCHOOL_ADMIN, s.students.find? user.id,
      s.teachers.find? user.id, some admin⟩ := by
    unfold Site.viewer
    rw [hrole, hadmin]
    rfl
  unfold documents MayRead
  rw [hviewer, hid]
  simp only [if_neg hfound, reduceCtorEq, if_false, decide_false, decide_true, Bool.false_or,
    Bool.true_and, Option.any_some]
  cases hasApplicationAtThisSchool s d.studentId admin.schoolId <;>
    cases (s.students.find? user.id).any (·.id = d.studentId) <;> simp

theorem serves_iff (hauth : Authenticated verify s request user)
    (hrole : user.role = some .SCHOOL_ADMIN)
    (hadmin : s.schoolAdmins.find? user.id = some admin) (hlive : d ∈ s.documentsOf d.studentId) :
    Serves arrive verify config s request d ↔
      MayRead s admin d.studentId ∧ ∃ fileName, Reachable arrive config s d fileName := by
  have hid : admin.userId = user.id := Table.key_of_find? hadmin
  have hanswer : ∀ fileName,
      Route.documents.answer verify config s { request with url := d.fileUrl } d.studentId fileName =
        documents config s (s.viewer user) d.studentId fileName := by
    intro fileName
    have hfor : Authenticated verify s { request with url := d.fileUrl } user :=
      ⟨hauth.known, hauth.active, hauth.token⟩
    unfold Route.answer
    rw [requireUser_eq hfor]
  unfold Serves Reachable
  constructor
  · rintro ⟨fileName, harrive, hname, hredirect⟩
    rw [hanswer, documents_redirects_iff hrole hadmin hid hlive hname, redirectToFile_eq_redirect]
      at hredirect
    exact ⟨hredirect.1, fileName, harrive, hname, hredirect.2⟩
  · rintro ⟨hmay, fileName, harrive, hname, hobject⟩
    refine ⟨fileName, harrive, hname, ?_⟩
    rw [hanswer, documents_redirects_iff hrole hadmin hid hlive hname, redirectToFile_eq_redirect]
    exact ⟨hmay, hobject⟩

/-! ## Both -/

/-- Every document of the student that is listed for the administrator, under whatever application, is
    served to the same administrator. -/
def ListedAreServed (arrive : String → Option (Route × String × String))
    (verify : String → Option Payload) (config : Config) (s : Site) (request : Request) (userId : Id)
    (studentId : Id) : Prop :=
  ∀ application ∈ s.applications, application.studentId = studentId →
    ∀ docs, getApplicationDocuments s application.id userId .SCHOOL_ADMIN = .ok docs →
      ∀ d ∈ docs, Serves arrive verify config s request d

/-- This is so exactly when the student has not applied to the school or has no documents, or else an
    application to the school still stands (or the administrator is the student) and the URL of every
    document leads to its object. -/
theorem listedAreServed_iff (hauth : Authenticated verify s request user)
    (hrole : user.role = some .SCHOOL_ADMIN)
    (hadmin : s.schoolAdmins.find? user.id = some admin) (studentId : Id) :
    ListedAreServed arrive verify config s request user.id studentId ↔
      ∀ application ∈ s.applications, application.studentId = studentId →
        s.isTo application admin.schoolId → ∀ d ∈ s.documentsOf studentId,
          MayRead s admin studentId ∧ ∃ fileName, Reachable arrive config s d fileName := by
  have hid : admin.userId = user.id := Table.key_of_find? hadmin
  have hadmin' : s.schoolAdmins.find? admin.userId = some admin := hid ▸ hadmin
  have hstudent : ∀ d ∈ s.documentsOf studentId, d.studentId = studentId :=
    fun d hd => (of_decide_eq_true (List.mem_filter.1 hd).2).1
  unfold ListedAreServed
  refine forall₂_congr fun application happlication => forall_congr' fun hof => ?_
  subst hof
  have hlisted := fun d => mem_getApplicationDocuments hadmin' happlication (d := d)
  rw [hid] at hlisted
  constructor
  · intro h hto d hd
    obtain ⟨docs, hdocs, hmem⟩ := (hlisted d).2 ⟨hto, hd⟩
    have hlive : d ∈ s.documentsOf d.studentId := (hstudent d hd).symm ▸ hd
    have hserves := (serves_iff hauth hrole hadmin hlive).1 (h docs hdocs d hmem)
    rwa [hstudent d hd] at hserves
  · intro h docs hdocs d hmem
    obtain ⟨hto, hd⟩ := (hlisted d).1 ⟨docs, hdocs, hmem⟩
    have hlive : d ∈ s.documentsOf d.studentId := (hstudent d hd).symm ▸ hd
    have hserves := h hto d hd
    rw [← hstudent d hd] at hserves
    exact (serves_iff hauth hrole hadmin hlive).2 hserves

/-! ## An applicant -/

def oneDocument : Document :=
  { id := "d1", studentId := "s1", type := "BAC", name := "Diplôme"
    fileUrl := "http://localhost:3001/uploads/documents/s1/f.pdf", fileSize := 4
    mimeType := "application/pdf", uploadedAt := ⟨0⟩, deletedAt := none }

/-- A student with a document has applied to a school, and this has become of the application. -/
def oneApplication (status : Admission.ApplicationStatus) : Site where
  users := .ofList [⟨"u1", true, 0, some .SCHOOL_ADMIN⟩, ⟨"u2", true, 0, some .STUDENT⟩]
  students := .ofList [⟨"s1", "u2"⟩]
  teachers := .empty
  schoolAdmins := .ofList [⟨"u1", "e1"⟩]
  offers := .ofList [⟨"o1", "e1"⟩]
  applications := .ofList [⟨"a1", "s1", "o1", status⟩]
  documents := .ofList [oneDocument]
  courses := .empty
  courseEnrollments := .empty
  studentEnrollments := .empty
  messages := .empty
  objects := .ofList [⟨"get-poc-uploads", "documents/s1/f.pdf", [], "application/pdf"⟩]

def arriveAtFile (url : String) : Option (Route × String × String) :=
  if url = oneDocument.fileUrl then some (.documents, "s1", "f.pdf") else none

def verifyAdmin (token : String) : Option Payload := if token = "t" then some ⟨"u1", 0⟩ else none

def adminRequest : Request := ⟨some "Bearer t", none, ""⟩

theorem authenticated_admin (status : Admission.ApplicationStatus) :
    Authenticated verifyAdmin (oneApplication status) adminRequest
      ⟨"u1", true, 0, some .SCHOOL_ADMIN⟩ where
  known := rfl
  active := rfl
  token := ⟨"t", by decide +kernel, by decide, rfl⟩

theorem admin_oneApplication (status : Admission.ApplicationStatus) :
    (oneApplication status).schoolAdmins.find? "u1" = some ⟨"u1", "e1"⟩ := rfl

theorem oneDocument_live (status : Admission.ApplicationStatus) :
    oneDocument ∈ (oneApplication status).documentsOf "s1" :=
  List.mem_filter.2 ⟨List.mem_singleton.2 rfl, rfl⟩

theorem listedAreServed_iff_accepted :
    ListedAreServed arriveAtFile verifyAdmin ⟨none, none, none, none⟩ (oneApplication .ACCEPTED)
      adminRequest "u1" "s1" := by
  refine (listedAreServed_iff (authenticated_admin .ACCEPTED) rfl (admin_oneApplication _) "s1").2 ?_
  intro _ _ _ _ d hd
  obtain rfl : d = oneDocument := List.mem_singleton.1 (List.mem_filter.1 hd).1
  exact ⟨.inl (by decide +kernel), "f.pdf", rfl, by decide +kernel, by decide +kernel, by decide +kernel⟩

theorem rejected_listed_not_served :
    ¬ ListedAreServed arriveAtFile verifyAdmin ⟨none, none, none, none⟩ (oneApplication .REJECTED)
      adminRequest "u1" "s1" := by
  intro h
  have happlication : (⟨"a1", "s1", "o1", .REJECTED⟩ : Application) ∈
      (oneApplication .REJECTED).applications := List.mem_singleton.2 rfl
  have hadmin : (oneApplication .REJECTED).schoolAdmins.find? (⟨"u1", "e1"⟩ : SchoolAdmin).userId =
      some ⟨"u1", "e1"⟩ := admin_oneApplication _
  obtain ⟨docs, hdocs, hmem⟩ := (mem_getApplicationDocuments hadmin happlication).2
    ⟨⟨_, rfl, rfl⟩, oneDocument_live .REJECTED⟩
  have hserves := h _ happlication rfl docs hdocs oneDocument hmem
  obtain ⟨hmay, -⟩ := (serves_iff (authenticated_admin .REJECTED) rfl hadmin
    (oneDocument_live .REJECTED)).1 hserves
  unfold MayRead at hmay
  exact absurd hmay (by decide +kernel)

end GetPlatform.Uploads
