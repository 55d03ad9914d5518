import GetPlatform.Profile.EncryptionService
import GetPlatform.Profile.Types
import GetPlatform.Store.Sweep

set_option autoImplicit false

/-! # The remediation of personal data stored in plain text

A script encrypts every telephone number and identity card number that is not encrypted yet. It reads the
key and writes a value as `EncryptionService` does, with code of its own, and tells what is encrypted
by its shape. No value is lost, and a second run finds nothing to do. -/

namespace GetPlatform.Profile

structure Database where
  students : Table Student
  teachers : Table Teacher

namespace Remediation

/-- The random IV for each value that a run may encrypt. -/
structure Ivs where
  studentPhone : String → Iv
  studentCin : String → Iv
  teacherPhone : String → Iv

variable (cipher : Cipher)

/-! ## The script -/

def loadKey (ENCRYPTION_KEY : Option String) : Except String Key :=
  let configured := ENCRYPTION_KEY.map fun text =>
    withoutHexPrefix (withoutQuotes (trim text).toList)
  match configured.filter (· ≠ []) with
  | none => .error "ENCRYPTION_KEY must be a 32-byte hexadecimal key"
  | some configured =>
      if h : isHexKey configured = true then
        .ok ⟨fromHex configured, length_fromHex_of_isHexKey h⟩
      else .error "ENCRYPTION_KEY must be a 32-byte hexadecimal key"

def encrypt (key : Key) (iv : Iv) (text : String) : String :=
  let enciphered := cipher.encipher key.bytes iv.bytes (utf8 text)
  format iv.bytes enciphered.authTag enciphered.encrypted

def looksAlreadyEncrypted (value : String) : Bool :=
  match parts value with
  | [iv, authTag, encrypted] =>
      iv.length = 32 ∧ authTag.length = 32 ∧
        [iv, authTag, encrypted].all fun part => part ≠ [] ∧ part.all isHexDigit
  | _ => false

/-- The new value of a column that is filled in and not encrypted. -/
def remedy (key : Key) (iv : Iv) (value : Option String) : Option String :=
  match value.filter (· ≠ "") with
  | some text => if looksAlreadyEncrypted text then none else some (encrypt cipher key iv text)
  | none => none

/-- The `data` of an update of a student. -/
structure StudentData where
  phone : Option String
  cin : Option String

def StudentData.write (data : StudentData) (student : Student) : Student :=
  { student with phone := data.phone.or student.phone, cin := data.cin.or student.cin }

def studentData (key : Key) (ivs : Ivs) (student : Student) : Option StudentData :=
  let data : StudentData :=
    { phone := remedy cipher key (ivs.studentPhone student.id) student.phone
      cin := remedy cipher key (ivs.studentCin student.id) student.cin }
  if data.phone.isSome ∨ data.cin.isSome then some data else none

def writePhone (phone : String) (teacher : Teacher) : Teacher := { teacher with phone := some phone }

def teacherData (key : Key) (ivs : Ivs) (teacher : Teacher) : Option String :=
  remedy cipher key (ivs.teacherPhone teacher.id) teacher.phone

def main (ENCRYPTION_KEY : Option String) (ivs : Ivs) (db : Database) : Except String Database := do
  let key ← loadKey ENCRYPTION_KEY
  let students := db.students.rows.filter fun student =>
    student.phone.isSome || student.cin.isSome
  let teachers := db.teachers.rows.filter fun teacher => teacher.phone.isSome
  return {
    students := Table.sweep (studentData cipher key ivs) StudentData.write (fun _ _ => rfl) students
      db.students
    teachers := Table.sweep (teacherData cipher key ivs) writePhone (fun _ _ => rfl) teachers
      db.teachers }

/-! ## The key and the format are those of the service -/

theorem loadKey_eq {configured : Option String} {service : EncryptionService}
    (h : EncryptionService.new configured = .ok service) : loadKey configured = .ok service.key := by
  unfold EncryptionService.new at h
  unfold loadKey
  dsimp only at h ⊢
  cases hsecret : (configured.map fun text => withoutHexPrefix (withoutQuotes (trim text).toList)).filter
      (· ≠ []) with
  | none =>
    rw [hsecret] at h
    exact absurd h (by simp)
  | some secret =>
    rw [hsecret] at h
    by_cases hkey : isHexKey secret = true
    · simp only [hkey, dif_pos] at h ⊢
      rw [← Except.ok.inj h]
    · simp only [hkey] at h
      exact absurd h (by simp)

variable {cipher}

theorem looksAlreadyEncrypted_encrypt (hcipher : cipher.Inverts) (key : Key) (iv : Iv) {text : String}
    (htext : text ≠ "") : looksAlreadyEncrypted (encrypt cipher key iv text) = true := by
  have hdigits : ∀ bytes : List UInt8, (toHex bytes).all isHexDigit = true :=
    fun bytes => List.all_eq_true.2 fun c hc => isHexDigit_of_mem_toHex hc
  have hne : ∀ bytes : List UInt8, bytes ≠ [] → toHex bytes ≠ [] := by
    intro bytes hbytes hnil
    have hlen := length_toHex bytes
    rw [hnil, List.length_nil] at hlen
    exact hbytes (List.length_eq_zero_iff.1 (by omega))
  have htag := hcipher.length_authTag key iv (utf8 text)
  have hbody := hcipher.length_encrypted key iv (utf8 text)
  have hutf8 : (utf8 text).length ≠ 0 := mt List.length_eq_zero_iff.1 (utf8_ne_nil htext)
  have hiv := iv.length_bytes
  unfold looksAlreadyEncrypted encrypt
  rw [parts_format]
  simp only [List.all_cons, List.all_nil, hdigits, length_toHex, htag, hiv]
  have hbytes : ∀ bytes : List UInt8, bytes.length ≠ 0 → toHex bytes ≠ [] :=
    fun bytes hlen => hne bytes fun hnil => hlen (by rw [hnil]; rfl)
  simp [hbytes, htag, hbody, hutf8, hiv]

theorem encrypt_eq (service : EncryptionService) (iv : Iv) (text : String) :
    encrypt cipher service.key iv text = service.encrypt cipher iv text := rfl

/-! ## One column -/

variable (cipher) in
/-- What becomes of a column: nothing happens to `null`, to the empty text and to what the service
    encrypted, and another text is replaced by one that the service decrypts to it. -/
structure Kept (service : EncryptionService) (before after : Option String) : Prop where
  null : before = none → after = none
  empty : before = some "" → after = some ""
  encrypted : ∀ iv text, text ≠ "" → before = some (service.encrypt cipher iv text) →
    after = before ∧ service.decrypt cipher (service.encrypt cipher iv text) = .ok text
  plaintext : ∀ text, text ≠ "" → looksAlreadyEncrypted text = false → before = some text →
    ∃ stored, after = some stored ∧ service.decrypt cipher stored = .ok text

theorem remedy_of_encrypted {key : Key} {iv : Iv} {value : String}
    (h : looksAlreadyEncrypted value = true) : remedy cipher key iv (some value) = none := by
  unfold remedy
  by_cases hvalue : value = "" <;> simp [Option.filter, hvalue, h]

theorem remedy_of_plaintext {key : Key} {iv : Iv} {value : String} (hvalue : value ≠ "")
    (h : looksAlreadyEncrypted value = false) :
    remedy cipher key iv (some value) = some (encrypt cipher key iv value) := by
  unfold remedy
  simp [Option.filter, hvalue, h]

theorem kept_remedy (hcipher : cipher.Inverts) (service : EncryptionService) (iv : Iv)
    (value : Option String) :
    Kept cipher service value ((remedy cipher service.key iv value).or value) where
  null := by
    rintro rfl
    rfl
  empty := by
    rintro rfl
    rfl
  encrypted := by
    rintro iv' text htext rfl
    have hshape := looksAlreadyEncrypted_encrypt hcipher service.key iv' htext
    rw [encrypt_eq] at hshape
    rw [remedy_of_encrypted hshape, Option.none_or]
    exact ⟨rfl, service.decrypt_encrypt hcipher iv' text⟩
  plaintext := by
    rintro text htext hshape rfl
    rw [remedy_of_plaintext htext hshape, Option.some_or, encrypt_eq]
    exact ⟨_, rfl, service.decrypt_encrypt hcipher iv text⟩

/-- A column that has been seen to once is left alone. -/
theorem remedy_remedy (hcipher : cipher.Inverts) (key : Key) (iv iv' : Iv) (value : Option String) :
    remedy cipher key iv' ((remedy cipher key iv value).or value) = none := by
  cases value with
  | none => rfl
  | some value =>
    by_cases hvalue : value = ""
    · subst hvalue
      rfl
    cases hshape : looksAlreadyEncrypted value with
    | true =>
      rw [remedy_of_encrypted hshape, Option.none_or, remedy_of_encrypted hshape]
    | false =>
      rw [remedy_of_plaintext hvalue hshape, Option.some_or]
      exact remedy_of_encrypted (looksAlreadyEncrypted_encrypt hcipher key iv hvalue)

/-! ## A run -/

variable (cipher) in
/-- A student after a run. -/
def remedied (key : Key) (ivs : Ivs) (student : Student) : Student :=
  { student with
    phone := (remedy cipher key (ivs.studentPhone student.id) student.phone).or student.phone
    cin := (remedy cipher key (ivs.studentCin student.id) student.cin).or student.cin }

variable (cipher) in
def remediedTeacher (key : Key) (ivs : Ivs) (teacher : Teacher) : Teacher :=
  { teacher with
    phone := (remedy cipher key (ivs.teacherPhone teacher.id) teacher.phone).or teacher.phone }

theorem write_studentData (key : Key) (ivs : Ivs) (student : Student) :
    (studentData cipher key ivs student).elim student (StudentData.write · student) =
      remedied cipher key ivs student := by
  unfold studentData remedied
  dsimp only
  split
  · rfl
  · rename_i hnone
    simp only [not_or, Bool.not_eq_true, Option.isSome_eq_false_iff, Option.isNone_iff_eq_none] at hnone
    rw [hnone.1, hnone.2]
    rfl

theorem write_teacherData (key : Key) (ivs : Ivs) (teacher : Teacher) :
    (teacherData cipher key ivs teacher).elim teacher (writePhone · teacher) =
      remediedTeacher cipher key ivs teacher := by
  unfold teacherData remediedTeacher
  cases remedy cipher key (ivs.teacherPhone teacher.id) teacher.phone <;> rfl

theorem main_eq_ok {configured : Option String} {service : EncryptionService} {ivs : Ivs}
    {db db' : Database} (hservice : EncryptionService.new configured = .ok service)
    (h : main cipher configured ivs db = .ok db') :
    (∀ id, db'.students.find? id = (db.students.find? id).map (remedied cipher service.key ivs)) ∧
      ∀ id, db'.teachers.find? id =
        (db.teachers.find? id).map (remediedTeacher cipher service.key ivs) := by
  unfold main at h
  rw [loadKey_eq hservice] at h
  obtain rfl := Except.ok.inj h
  constructor
  · intro id
    have hrest : ∀ student : Student, (student.phone.isSome || student.cin.isSome) = false →
        studentData cipher service.key ivs student = none := by
      intro student hnone
      simp only [Bool.or_eq_false_iff, Option.isSome_eq_false_iff, Option.isNone_iff_eq_none] at hnone
      unfold studentData
      rw [hnone.1, hnone.2]
      rfl
    have hsweep := Table.find?_sweep_filter (studentData cipher service.key ivs) StudentData.write
      (fun _ _ => rfl) (t := db.students) hrest id
    simpa only [write_studentData] using hsweep
  · intro id
    have hrest : ∀ teacher : Teacher, teacher.phone.isSome = false →
        teacherData cipher service.key ivs teacher = none := by
      intro teacher hnone
      simp only [Option.isSome_eq_false_iff, Option.isNone_iff_eq_none] at hnone
      unfold teacherData
      rw [hnone]
      rfl
    have hsweep := Table.find?_sweep_filter (teacherData cipher service.key ivs) writePhone
      (fun _ _ => rfl) (t := db.teachers) hrest id
    simpa only [write_teacherData] using hsweep

theorem studentData_remedied (hcipher : cipher.Inverts) (key : Key) (ivs ivs' : Ivs)
    (student : Student) : studentData cipher key ivs' (remedied cipher key ivs student) = none := by
  unfold studentData remedied
  simp only [remedy_remedy hcipher]
  rfl

theorem teacherData_remedied (hcipher : cipher.Inverts) (key : Key) (ivs ivs' : Ivs)
    (teacher : Teacher) :
    teacherData cipher key ivs' (remediedTeacher cipher key ivs teacher) = none :=
  remedy_remedy hcipher _ _ _ _

/-- A run over rows that have all been seen to changes nothing. -/
theorem main_eq_self {configured : Option String} {key : Key} {ivs : Ivs} {db : Database}
    (hkey : loadKey configured = .ok key)
    (hstudents : ∀ student ∈ db.students, studentData cipher key ivs student = none)
    (hteachers : ∀ teacher ∈ db.teachers, teacherData cipher key ivs teacher = none) :
    main cipher configured ivs db = .ok db := by
  unfold main
  rw [hkey]
  refine congrArg Except.ok (congrArg₂ Database.mk ?_ ?_)
  · apply Table.sweep_eq_self
    intro student hmem
    exact hstudents student (List.mem_of_mem_filter hmem)
  · apply Table.sweep_eq_self
    intro teacher hmem
    exact hteachers teacher (List.mem_of_mem_filter hmem)

variable (cipher) in
/-- What a run makes of a student: telephone number and identity card number are kept, and nothing else
    changes. -/
def StudentKept (service : EncryptionService) (before after : Student) : Prop :=
  Kept cipher service before.phone after.phone ∧ Kept cipher service before.cin after.cin ∧
    after = { before with phone := after.phone, cin := after.cin }

variable (cipher) in
def TeacherKept (service : EncryptionService) (before after : Teacher) : Prop :=
  Kept cipher service before.phone after.phone ∧ after = { before with phone := after.phone }

/-- Where the service starts, a run keeps every value of every row, and another run after it changes
    nothing. -/
theorem remediation_lossless (hcipher : cipher.Inverts) {configured : Option String}
    {service : EncryptionService} (hservice : EncryptionService.new configured = .ok service)
    (ivs : Ivs) (db : Database) :
    ∃ db', main cipher configured ivs db = .ok db' ∧
      (∀ id, Option.Rel (StudentKept cipher service) (db.students.find? id)
        (db'.students.find? id)) ∧
      (∀ id, Option.Rel (TeacherKept cipher service) (db.teachers.find? id)
        (db'.teachers.find? id)) ∧
      ∀ ivs', main cipher configured ivs' db' = .ok db' := by
  obtain ⟨db', hrun⟩ : ∃ db', main cipher configured ivs db = .ok db' := by
    unfold main
    rw [loadKey_eq hservice]
    exact ⟨_, rfl⟩
  obtain ⟨hstudents, hteachers⟩ := main_eq_ok hservice hrun
  refine ⟨db', hrun, ?_, ?_, ?_⟩
  · intro id
    rw [hstudents id]
    cases db.students.find? id with
    | none => exact .none
    | some student =>
      exact .some ⟨kept_remedy hcipher service _ _, kept_remedy hcipher service _ _, rfl⟩
  · intro id
    rw [hteachers id]
    cases db.teachers.find? id with
    | none => exact .none
    | some teacher => exact .some ⟨kept_remedy hcipher service _ _, rfl⟩
  · intro ivs'
    apply main_eq_self (loadKey_eq hservice)
    · intro student hstudent
      have hfind := hstudents (Keyed.key student)
      rw [Table.find?_key hstudent] at hfind
      obtain ⟨before, -, rfl⟩ := Option.map_eq_some_iff.1 hfind.symm
      exact studentData_remedied hcipher _ _ _ _
    · intro teacher hteacher
      have hfind := hteachers (Keyed.key teacher)
      rw [Table.find?_key hteacher] at hfind
      obtain ⟨before, -, rfl⟩ := Option.map_eq_some_iff.1 hfind.symm
      exact teacherData_remedied hcipher _ _ _ _

/-! ## One number -/

/-- Combine bytes with a key stream, as far as it goes. -/
def combine : List UInt8 → List UInt8 → List UInt8
  | b :: bytes, k :: stream => (b ^^^ k) :: combine bytes stream
  | bytes, _ => bytes

theorem combine_combine (bytes stream : List UInt8) :
    combine (combine bytes stream) stream = bytes := by
  induction bytes generalizing stream with
  | nil => rfl
  | cons b bytes ih =>
    cases stream with
    | nil => rfl
    | cons k stream =>
      show (b ^^^ k ^^^ k) :: combine (combine bytes stream) stream = _
      rw [ih, UInt8.xor_assoc, UInt8.xor_self, UInt8.xor_zero]

theorem length_combine (bytes stream : List UInt8) : (combine bytes stream).length = bytes.length := by
  induction bytes generalizing stream with
  | nil => rfl
  | cons b bytes ih =>
    cases stream with
    | nil => rfl
    | cons k stream => exact congrArg (· + 1) (ih stream)

/-- AES-256-GCM for one number, under the key `00112233445566778899aabbccddeeff` written twice and the
    IV `000102030405060708090a0b0c0d0e0f`. -/
def recorded : Cipher :=
  let stream := [0xe4, 0x81, 0x81, 0x99, 0xdf, 0xb7, 0x29, 0x3c, 0xa5, 0x6e, 0x20, 0x35, 0x5f]
  let tag (bytes : List UInt8) : List UInt8 :=
    if bytes = utf8 "+261341234567" then
      [0x07, 0xa2, 0xc2, 0x56, 0x98, 0x57, 0xeb, 0xf6, 0x1b, 0x6f, 0x96, 0x13, 0xa6, 0x16, 0xbb, 0x6f]
    else List.replicate 16 0
  { encipher := fun _ _ bytes => ⟨combine bytes stream, tag bytes⟩
    decipher := fun _ _ authTag encrypted =>
      if tag (combine encrypted stream) = authTag then some (combine encrypted stream) else none }

theorem recorded_inverts : recorded.Inverts where
  decipher_encipher := by
    intro key iv bytes
    simp [recorded, combine_combine]
  length_authTag := by
    intro key iv bytes
    simp only [recorded]
    split <;> rfl
  length_encrypted := fun _ _ _ => length_combine _ _

def sampleIv : Iv := ⟨(List.range 16).map UInt8.ofNat, by decide⟩

/-- A student whose number is in plain text and whose card number is empty. -/
def sampleStudent : Student :=
  { id := "s1", userId := "u1", firstName := "Jean", lastName := "Rakoto"
    phone := some "+261341234567", birthDate := none, cin := some "", bacYear := none
    bacType := none, address := none, city := none, region := none, bio := none, interests := []
    skills := [], aspirations := [], profileCompleted := false }

def sampleDatabase : Database := ⟨.ofList [sampleStudent], .empty⟩

/-- The key may be quoted, and written with `0x`. -/
def sampleKey : String := " '0X00112233445566778899AABBCCDDEEFF00112233445566778899aabbccddeeff'"

/-- The number of the student is encrypted, and decrypts to what it was. -/
theorem remediation_lossless_number :
    ∃ db' service student stored,
      main recorded (some sampleKey) ⟨fun _ => sampleIv, fun _ => sampleIv, fun _ => sampleIv⟩
          sampleDatabase = .ok db' ∧
        EncryptionService.new (some sampleKey) = .ok service ∧
        db'.students.find? "s1" = some student ∧ student.cin = some "" ∧
        student.phone = some stored ∧ service.decrypt recorded stored = .ok "+261341234567" := by
  have hstarts : (EncryptionService.new (some sampleKey)).toOption.isSome = true := by
    decide +kernel
  cases hservice : EncryptionService.new (some sampleKey) with
  | error e =>
    rw [hservice] at hstarts
    exact absurd hstarts (by simp [Except.toOption])
  | ok service =>
    obtain ⟨db', hrun, hstudents, -, -⟩ := remediation_lossless recorded_inverts hservice
      ⟨fun _ => sampleIv, fun _ => sampleIv, fun _ => sampleIv⟩ sampleDatabase
    have hkept := hstudents "s1"
    have hfind : sampleDatabase.students.find? "s1" = some sampleStudent := by decide +kernel
    rw [hfind] at hkept
    cases hafter : db'.students.find? "s1" with
    | none =>
      rw [hafter] at hkept
      cases hkept
    | some student =>
      rw [hafter] at hkept
      obtain ⟨hphone, hcin, -⟩ := Option.rel_some_some.1 hkept
      obtain ⟨stored, hstored, hdecrypt⟩ :=
        hphone.plaintext "+261341234567" (by decide) (by decide +kernel) rfl
      exact ⟨db', service, student, stored, hrun, rfl, hafter, hcin.empty rfl, hstored, hdecrypt⟩

end Remediation

end GetPlatform.Profile
