import GetPlatform.Format.Bytes
import GetPlatform.Text

set_option autoImplicit false

/-! # Encryption of personal data

A value is stored as `iv:authTag:encrypted`, all in hexadecimal. AES-256-GCM is a parameter. -/

namespace GetPlatform.Profile

structure Key where
  bytes : List UInt8
  length_bytes : bytes.length = 32

/-- `crypto.randomBytes(16)` -/
structure Iv where
  bytes : List UInt8
  length_bytes : bytes.length = 16

structure Enciphered where
  encrypted : List UInt8
  authTag : List UInt8
  deriving DecidableEq

/-- `aes-256-gcm`: `decipher` takes the key, the IV, the tag and the encrypted bytes, and fails where the
    tag does not match. -/
structure Cipher where
  encipher : List UInt8 → List UInt8 → List UInt8 → Enciphered
  decipher : List UInt8 → List UInt8 → List UInt8 → List UInt8 → Option (List UInt8)

/-- What is documented of the cipher: what was enciphered is deciphered with the same key and IV, the tag has 16
    bytes, and as many bytes are encrypted as were given. -/
structure Cipher.Inverts (cipher : Cipher) : Prop where
  decipher_encipher : ∀ (key : Key) (iv : Iv) (bytes : List UInt8),
    cipher.decipher key.bytes iv.bytes (cipher.encipher key.bytes iv.bytes bytes).authTag
      (cipher.encipher key.bytes iv.bytes bytes).encrypted = some bytes
  length_authTag : ∀ (key : Key) (iv : Iv) (bytes : List UInt8),
    (cipher.encipher key.bytes iv.bytes bytes).authTag.length = 16
  length_encrypted : ∀ (key : Key) (iv : Iv) (bytes : List UInt8),
    (cipher.encipher key.bytes iv.bytes bytes).encrypted.length = bytes.length

/-! ## The key -/

def isQuote (c : Char) : Bool := c = '\'' ∨ c = '"'

/-- `text.replace(/^['"]|['"]$/g, '')` -/
def withoutQuotes (text : List Char) : List Char :=
  let tail := if text.head?.any isQuote then text.tail else text
  if tail.getLast?.any isQuote then tail.dropLast else tail

/-- `text.replace(/^0x/i, '')` -/
def withoutHexPrefix : List Char → List Char
  | '0' :: 'x' :: rest => rest
  | '0' :: 'X' :: rest => rest
  | text => text

/-- `/^[a-fA-F0-9]{64}$/` -/
def isHexKey (text : List Char) : Bool := text.length = 64 ∧ text.all isHexDigit

theorem length_fromHex_of_isHexKey {text : List Char} (h : isHexKey text = true) :
    (fromHex text).length = 32 := by
  simp only [isHexKey, Bool.decide_and, decide_eq_true_eq, Bool.and_eq_true, List.all_eq_true] at h
  exact length_fromHex 32 text h.1 h.2

structure EncryptionService where
  key : Key

/-- The constructor, with the `ENCRYPTION_KEY` of the configuration. -/
def EncryptionService.new (configuredSecret : Option String) : Except String EncryptionService :=
  let secret := configuredSecret.map fun text =>
    withoutHexPrefix (withoutQuotes (trim text).toList)
  match secret.filter (· ≠ []) with
  | none => .error "ENCRYPTION_KEY is not defined in environment variables"
  | some secret =>
      if h : isHexKey secret = true then .ok ⟨⟨fromHex secret, length_fromHex_of_isHexKey h⟩⟩
      else .error "ENCRYPTION_KEY must be a 32-byte hexadecimal key"

/-! ## Encryption -/

variable (cipher : Cipher)

/-- The three parts of a stored value. -/
def format (iv authTag encrypted : List UInt8) : String :=
  .ofList ([':'].intercalate [toHex iv, toHex authTag, toHex encrypted])

/-- `text.split(':')` -/
def parts (text : String) : List (List Char) := text.toList.splitOn ':'

namespace EncryptionService

variable (service : EncryptionService)

def encrypt (iv : Iv) (text : String) : String :=
  let enciphered := cipher.encipher service.key.bytes iv.bytes (utf8 text)
  format iv.bytes enciphered.authTag enciphered.encrypted

def decrypt (encryptedData : String) : Except String String :=
  match parts encryptedData with
  | [ivHex, authTagHex, encryptedText] =>
      match cipher.decipher service.key.bytes (fromHex ivHex) (fromHex authTagHex) (fromHex encryptedText) with
      | some bytes => .ok (fromUtf8 bytes)
      | none => .error "Unsupported state or unable to authenticate data"
  | _ => .error "Invalid encrypted data format"

end EncryptionService

/-! ## What is written is read -/

theorem parts_format (iv authTag encrypted : List UInt8) :
    parts (format iv authTag encrypted) = [toHex iv, toHex authTag, toHex encrypted] := by
  have hcolon : ∀ bytes : List UInt8, ':' ∉ toHex bytes := by
    intro bytes hmem
    exact absurd (isHexDigit_of_mem_toHex hmem) (by decide)
  unfold parts format
  rw [String.toList_ofList]
  exact List.splitOn_intercalate ':' (by simp [hcolon]) (by simp)

namespace EncryptionService

variable {cipher : Cipher} (service : EncryptionService)

theorem decrypt_encrypt (hcipher : cipher.Inverts) (iv : Iv) (text : String) :
    service.decrypt cipher (service.encrypt cipher iv text) = .ok text := by
  unfold decrypt encrypt
  rw [parts_format]
  simp only [fromHex_toHex, hcipher.decipher_encipher, fromUtf8_utf8]

end EncryptionService

end GetPlatform.Profile
