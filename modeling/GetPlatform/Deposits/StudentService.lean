import GetPlatform.Deposits.World

set_option autoImplicit false

/-! # What students deposit

`StudentService.uploadDocument`, `deleteDocument` and `submitAssignment`, with the functions of
`StorageService` that they call. -/

namespace GetPlatform.Deposits

open Uploads (Id Config File Student Document assertSafeImage assertSafeEntityId buildKey
  generateFileName)

/-- The exceptions a call can end with. -/
inductive Err where
  | BadRequestException (message : String)
  | NotFoundException (message : String)
  | ConflictException (message : String)
  | failure (f : Failure)
  deriving DecidableEq

abbrev Call (α : Type) := Prog interface Err α

def perform (q : Stmt) : Call (Ans q) := @Prog.query interface Err .failure q

/-- A check of the storage, which sends no statement. -/
def check {α : Type} : Except Uploads.Failure α → Call α
  | .ok a => return a
  | .error (.BadRequestException message) => throw <| .BadRequestException message
  | .error .database => throw <| .failure .database

/-! ## `StorageService` -/

structure Settings extends Config where
  APP_URL : Option String
  deriving DecidableEq

def imageMimes : List String := ["image/jpeg", "image/png", "image/webp"]

def docx : String := "application/vnd.openxmlformats-officedocument.wordprocessingml.document"

/-- The archives that are allowed for course materials. -/
def materialMimes : List String :=
  ["application/vnd.openxmlformats-officedocument.presentationml.presentation",
    "application/vnd.openxmlformats-officedocument.spreadsheetml.sheet", "application/zip",
    "application/x-zip-compressed"]

/-- The type that is declared is allowed, and the first bytes are those of this type. -/
def assertSafeDocument (allowCourseMaterials : Bool) (file : File) : Except Uploads.Failure Unit := do
  let allowedMimes := ["application/pdf", "image/jpeg", "image/png", "application/msword", docx] ++
    if allowCourseMaterials then "image/webp" :: materialMimes else []
  if file.mimetype ∉ allowedMimes then throw (.BadRequestException "Format de document non autorisé")
  let bytes := file.buffer
  let isPdf := bytes.take 5 = [0x25, 0x50, 0x44, 0x46, 0x2d]
  if file.mimetype ∈ imageMimes then assertSafeImage file
  else
    let isDoc := bytes.take 8 = [0xd0, 0xcf, 0x11, 0xe0, 0xa1, 0xb1, 0x1a, 0xe1]
    let isDocx := bytes.take 4 = [0x50, 0x4b, 0x03, 0x04]
    let contentMatchesMime :=
      file.mimetype = "application/pdf" ∧ isPdf ∨
        file.mimetype = "application/msword" ∧ isDoc ∨
        file.mimetype = docx ∧ isDocx ∨
        allowCourseMaterials ∧ file.mimetype ∈ materialMimes ∧ isDocx
    if ¬ contentMatchesMime then
      throw (.BadRequestException "Le contenu du fichier ne correspond pas à son format déclaré")

def protectedObjectUrl (settings : Settings) (segments : List String) : String :=
  orDefault settings.APP_URL "http://localhost:3001" ++ "/uploads/" ++ "/".intercalate segments

section Calls

variable (toLowerCase : String → String) (settings : Settings)

/-- `StorageService.uploadDocument` -/
def storeDocument (file : File) (studentId : Id) : Call String := do
  check (assertSafeDocument false file)
  check (assertSafeEntityId studentId)
  let base ← perform .randomBytes
  let fileName := generateFileName toLowerCase base file.originalname
  let key ← check (buildKey ["documents", studentId, fileName])
  perform (.putObject settings.privateBucket key file)
  return protectedObjectUrl settings ["documents", studentId, fileName]

/-- An object that cannot be deleted stays. -/
def deleteObject (segments : List String) : Call Unit := do
  let key ← check (buildKey segments)
  tryCatch (perform (.deleteObject settings.privateBucket key)) fun _ => return

/-! ## `StudentService` -/

structure UploadDocumentDto where
  type : String
  name : Option String

def uploadDocument (userId : Id) (file : File) (dto : UploadDocumentDto) : Call Document := do
  let some student ← perform (.studentFindUnique userId)
    | throw <| .NotFoundException "Student not found"
  let fileUrl ← storeDocument toLowerCase settings file student.id
  perform <| .documentCreate
    { studentId := student.id, type := dto.type, name := orDefault dto.name file.originalname, fileUrl,
      fileSize := file.size, mimeType := file.mimetype }

/-- `url.split('/').pop()` -/
def lastPart (url : String) : String :=
  .ofList ((url.toList.reverse.takeWhile (· ≠ '/')).reverse)

def deleteDocument (userId documentId : Id) : Call Unit := do
  let some student ← perform (.studentFindUnique userId)
    | throw <| .NotFoundException "Student not found"
  let some document ← perform (.documentFindFirst documentId student.id)
    | throw <| .NotFoundException "Document not found"
  let now ← perform .now
  let _ ← perform (.documentUpdate documentId now)
  let fileName := lastPart document.fileUrl
  if fileName ≠ "" then deleteObject settings ["documents", student.id, fileName]

/-- An enrolment counts while the one in the school of the course is active. -/
def courseEnrollment (studentId courseId : Id) : Call Unit := do
  let some schoolId ← perform (.courseEnrollmentFindUnique courseId studentId)
    | throw <| .NotFoundException "Cours introuvable"
  let status ← perform (.studentEnrollmentFindUnique studentId schoolId)
  if status ≠ some .ACTIVE then throw <| .NotFoundException "Cours introuvable"

def submitAssignment (userId assignmentId : Id) (file : File) : Call AssignmentSubmission := do
  let some student ← perform (.studentFindUnique userId)
    | throw <| .NotFoundException "Student not found"
  let some assignment ← perform (.assignmentFindUnique assignmentId)
    | throw <| .NotFoundException "Devoir introuvable"
  if assignment.publishedAt = none then throw <| .NotFoundException "Devoir introuvable"
  courseEnrollment student.id assignment.courseId
  let existingSubmission ← perform (.submissionFindUnique assignmentId student.id)
  if (existingSubmission.bind (·.grade)).isSome then
    throw <| .ConflictException
      "Cette soumission a déjà été notée et ne peut plus être remplacée"
  let contentUrl ← storeDocument toLowerCase settings file student.id
  let now ← perform .now
  perform (.submissionUpsert assignmentId student.id contentUrl now)

/-! ## Calls -/

inductive Op where
  | uploadDocument (userId : Id) (file : File) (dto : UploadDocumentDto)
  | deleteDocument (userId documentId : Id)
  | submitAssignment (userId assignmentId : Id) (file : File)

inductive Reply where
  | document (row : Document)
  | success
  | submission (row : AssignmentSubmission)

def program : Op → Call Reply
  | .uploadDocument userId file dto => .document <$> uploadDocument toLowerCase settings userId file dto
  | .deleteDocument userId documentId =>
      (fun _ => .success) <$> deleteDocument settings userId documentId
  | .submitAssignment userId assignmentId file =>
      .submission <$> submitAssignment toLowerCase settings userId assignmentId file

end Calls

end GetPlatform.Deposits
