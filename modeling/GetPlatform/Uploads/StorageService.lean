import GetPlatform.Format.Bytes
import GetPlatform.Text
import GetPlatform.Store.Table

set_option autoImplicit false

/-! # Storage of files

Files live in two buckets of an S3-compatible storage. Those of the public bucket are reached by their
URL, which depends on the configuration; those of the private bucket through the platform only. -/

namespace GetPlatform.Uploads

/-- What the service reads of its configuration. -/
structure Config where
  S3_ENDPOINT : Option String
  S3_PUBLIC_URL : Option String
  S3_PUBLIC_BUCKET : Option String
  S3_BUCKET : Option String
  deriving DecidableEq

def Config.publicBucket (config : Config) : String :=
  orDefault config.S3_PUBLIC_BUCKET "get-poc-public"

def Config.privateBucket (config : Config) : String :=
  orDefault config.S3_BUCKET "get-poc-uploads"

structure File where
  originalname : String
  mimetype : String
  buffer : List UInt8
  size : Nat
  deriving DecidableEq

inductive ImageEntityType where
  | STUDENT | TEACHER | SCHOOL | ADMIN | MINISTRY | OFFER | SYSTEM | ANNOUNCEMENT | LANDING_NEWS
  | FINANCIAL_PARTNER
  deriving DecidableEq

inductive ImageType where
  | AVATAR | LOGO | ILLUSTRATION | BANNER
  deriving DecidableEq

/-- `entityType.toLowerCase()` -/
def ImageEntityType.folder : ImageEntityType → String
  | STUDENT => "student"
  | TEACHER => "teacher"
  | SCHOOL => "school"
  | ADMIN => "admin"
  | MINISTRY => "ministry"
  | OFFER => "offer"
  | SYSTEM => "system"
  | ANNOUNCEMENT => "announcement"
  | LANDING_NEWS => "landing_news"
  | FINANCIAL_PARTNER => "financial_partner"

/-- `type.toLowerCase()` -/
def ImageType.folder : ImageType → String
  | AVATAR => "avatar"
  | LOGO => "logo"
  | ILLUSTRATION => "illustration"
  | BANNER => "banner"

structure ImageOptions where
  entityType : ImageEntityType
  entityId : Option String
  type : ImageType
  deriving DecidableEq

structure Image where
  id : String
  url : String
  type : ImageType
  entityType : ImageEntityType
  entityId : Option String
  mimeType : String
  size : Nat
  deriving DecidableEq

/-- What is stored under a key of a bucket. -/
structure StoredObject where
  bucket : String
  key : String
  body : List UInt8
  contentType : String
  deriving DecidableEq

instance : Keyed Image String := ⟨(·.id)⟩
instance : Keyed StoredObject (String × String) := ⟨fun o => (o.bucket, o.key)⟩

structure Storage where
  images : Table Image
  objects : Table StoredObject

inductive Failure where
  | BadRequestException (message : String)
  | database
  deriving DecidableEq

/-! ## Checks -/

def pngSignature : List UInt8 := [0x89, 0x50, 0x4e, 0x47, 0x0d, 0x0a, 0x1a, 0x0a]

/-- The type that is declared is allowed, and the first bytes are those of an image. -/
def assertSafeImage (file : File) : Except Failure Unit := do
  if file.mimetype ∉ ["image/jpeg", "image/png", "image/webp"] then
    throw (.BadRequestException "Format image non autorisé")
  let bytes := file.buffer
  let isPng := bytes.take 8 = pngSignature
  let isJpeg := bytes.take 3 = [0xff, 0xd8, 0xff]
  let isWebp := 12 ≤ bytes.length ∧ bytes.take 4 = [0x52, 0x49, 0x46, 0x46] ∧
    (bytes.drop 8).take 4 = [0x57, 0x45, 0x42, 0x50]
  if ¬ (isPng ∨ isJpeg ∨ isWebp) then
    throw (.BadRequestException "Le contenu du fichier ne correspond pas à une image valide")

/-- The five groups of a UUID, with the version and the variant where they stand. -/
def isUuid (text : String) : Bool :=
  match text.toList.splitOn '-' with
  | [a, b, v :: c, w :: d, e] =>
      (a ++ b ++ c ++ d ++ e).all isHexDigit ∧ '1' ≤ v ∧ v ≤ '8' ∧ w ∈ ['8', '9', 'a', 'b', 'A', 'B'] ∧
        a.length = 8 ∧ b.length = 4 ∧ c.length = 3 ∧ d.length = 3 ∧ e.length = 12
  | _ => false

def assertSafeEntityId (entityId : Option String) : Except Failure Unit :=
  match entityId.filter (· ≠ "") with
  | none => .ok ()
  | some entityId =>
      if isUuid entityId then .ok ()
      else .error (.BadRequestException "Identifiant de dossier invalide")

/-! ## Keys and URLs -/

/-- `path.extname`: the last point of the last part and what follows it, unless the part begins there
    or is two points. -/
def extname (path : String) : String :=
  let part := ((path.toList.reverse.dropWhile (· = '/')).takeWhile (· ≠ '/')).reverse
  let afterPoint := (part.reverse.takeWhile (· ≠ '.')).reverse
  let before := part.take (part.length - afterPoint.length - 1)
  if part = ['.', '.'] ∨ '.' ∉ part ∨ before = [] then "" else .ofList ('.' :: afterPoint)

/-- A random name with the extension of the original. -/
def generateFileName (toLowerCase : String → String) (base originalName : String) : String :=
  base ++ toLowerCase (extname originalName)

def buildKey (segments : List String) : Except Failure String :=
  if segments.any fun segment => includes segment ".." || segment.toList.head? = some '/' then
    .error (.BadRequestException "Chemin de stockage invalide")
  else .ok ("/".intercalate segments)

def publicObjectUrl (config : Config) (key : String) : String :=
  match config.S3_PUBLIC_URL.filter (· ≠ "") with
  | some publicUrl => withoutSlash publicUrl ++ "/" ++ key
  | none =>
      let endpoint := orDefault config.S3_ENDPOINT ""
      withoutSlash endpoint ++ "/" ++ config.publicBucket ++ "/" ++ key

def keyFromPublicUrl (config : Config) (url : String) : Option String :=
  let fromEndpoint :=
    let endpoint := orDefault config.S3_ENDPOINT ""
    if endpoint ≠ "" then afterPrefix url (withoutSlash endpoint ++ "/" ++ config.publicBucket ++ "/")
    else none
  match config.S3_PUBLIC_URL.filter (· ≠ "") with
  | some publicUrl =>
      match afterPrefix url (withoutSlash publicUrl ++ "/") with
      | some key => some key
      | none => fromEndpoint
  | none => fromEndpoint

/-! ## Images -/

/-- The key of a new image, whose name ends in `fileName`. -/
def imageKey (options : ImageOptions) (fileName : String) : Except Failure String :=
  buildKey [options.entityType.folder, options.type.folder, orDefault options.entityId "system",
    fileName]

/-- `uploadImage`, with the random name of the file and the id of the row. -/
def uploadImage (toLowerCase : String → String) (config : Config) (file : File)
    (options : ImageOptions) (base id : String) (s : Storage) : Except Failure (Image × Storage) := do
  assertSafeImage file
  assertSafeEntityId options.entityId
  let fileName := generateFileName toLowerCase base file.originalname
  let key ← imageKey options fileName
  let objects := s.objects.put ⟨config.publicBucket, key, file.buffer, file.mimetype⟩
  let image : Image :=
    { id, url := publicObjectUrl config key, type := options.type, entityType := options.entityType,
      entityId := options.entityId, mimeType := file.mimetype, size := file.size }
  if s.images.contains id then throw .database
  return (image, { s with objects, images := s.images.insert image })

/-- `deleteImage`. Where the storage does not accept the deletion of the object, the row goes all the
    same. -/
def deleteImage (config : Config) (accepted : Bool) (imageId : String) (s : Storage) : Storage :=
  match s.images.find? imageId with
  | none => s
  | some image =>
      let objects :=
        match (keyFromPublicUrl config image.url).filter (· ≠ "") with
        | some key =>
            if accepted then s.objects.filter fun o => Keyed.key o ≠ (config.publicBucket, key)
            else s.objects
        | none => s.objects
      { objects, images := s.images.filter fun row => row.id ≠ imageId }

end GetPlatform.Uploads
