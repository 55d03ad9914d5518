import GetPlatform.Profile.StudentService

set_option autoImplicit false

/-! # When the completion of a profile is exact

A field that a request does not supply is a property of the request all the same, so what is laid over
the row is the request alone: the flag counts what was supplied, and the row holds that and what was
left as it was. -/

namespace GetPlatform.Profile

/-! ## One column -/

theorem isFilled_requiredText {old new : String} {value : Value}
    (h : requiredText old value = some new) :
    isFilled (.string new) = (isFilled value || (value = .undefined && isFilled (.string old))) := by
  unfold requiredText at h
  split at h <;> simp_all [isFilled]

theorem isFilled_optionalText {old new : Option String} {value : Value}
    (h : optionalText old value = some new) :
    isFilled (.ofText new) = (isFilled value || (value = .undefined && isFilled (.ofText old))) := by
  unfold optionalText at h
  split at h <;> simp at h <;> subst h <;> simp [isFilled, Value.ofText]

theorem isFilled_optionalInt {old new : Option Int} {value : Value}
    (h : optionalInt old value = some new) :
    isFilled (.ofNumber new) =
      (isFilled value || (value = .undefined && isFilled (.ofNumber old))) := by
  unfold optionalInt at h
  split at h
  · simp at h
    subst h
    simp [isFilled]
  · simp at h
    subst h
    simp [isFilled, Value.ofNumber]
  · split at h
    · simp at h
      subst h
      simp [isFilled, Value.ofNumber]
    · simp at h
  · simp at h

theorem isFilled_optionalDate {old new : Option Date} {value : Value}
    (h : optionalDate old value = some new) :
    isFilled (.ofDate new) = (isFilled value || (value = .undefined && isFilled (.ofDate old))) := by
  unfold optionalDate at h
  split at h <;> simp at h <;> subst h <;> simp [isFilled, Value.ofDate]

/-! ## What is written -/

variable {cipher : Cipher} {service : EncryptionService} {parseDate : String → Option Date}
variable {isDateString : String → Bool}

theorem encrypt_ne_empty (iv : Iv) (text : String) : service.encrypt cipher iv text ≠ "" := by
  intro h
  have hparts := parts_format iv.bytes (cipher.encipher service.key.bytes iv.bytes (utf8 text)).authTag
    (cipher.encipher service.key.bytes iv.bytes (utf8 text)).encrypted
  change parts (service.encrypt cipher iv text) = _ at hparts
  have hlength := congrArg List.length hparts
  rw [h, show (parts "").length = 1 by decide +kernel] at hlength
  simp at hlength

/-- A value that is not empty is written encrypted, and another one is not written. -/
theorem isFilled_secure {iv : Option Iv} {message : String} {value stored : Value}
    (hvalue : value = .undefined ∨ value = .null ∨ ∃ s, value = .string s)
    (h : secure cipher service iv message value = .ok stored) :
    isFilled stored = isFilled value ∧ decide (stored = .undefined) = !value.truthy := by
  unfold secure at h
  by_cases ht : value.truthy = true
  · rw [if_pos ht] at h
    split at h
    · rename_i iv text
      obtain rfl := (Except.ok.inj h).symm
      have hne : text ≠ "" := by simpa [Value.truthy] using ht
      simp [isFilled, encrypt_ne_empty, Value.truthy, hne]
    · exact absurd h (by simp)
  · rw [if_neg ht] at h
    obtain rfl := (Except.ok.inj h).symm
    rcases hvalue with rfl | rfl | ⟨s, rfl⟩
    · simp [Value.truthy]
    · simp [isFilled, Value.truthy]
    · have hs : s = "" := by simpa [Value.truthy] using ht
      simp [isFilled, Value.truthy, hs]

theorem isFilled_toDate (parseDate : String → Option Date) {value : Value}
    (hvalue : value = .undefined ∨ value = .null ∨ ∃ s, value = .string s) :
    isFilled (toDate parseDate value) = isFilled value ∧
      decide (toDate parseDate value = .undefined) = !value.truthy := by
  rcases hvalue with rfl | rfl | ⟨s, rfl⟩
  · simp [toDate, Value.truthy]
  · simp [toDate, isFilled, Value.truthy]
  · by_cases hs : s = ""
    · simp [toDate, isFilled, Value.truthy, hs]
    · simp [toDate, isFilled, Value.truthy, hs]

/-- A field of text is supplied as a text, as `null` or not at all. -/
theorem Accepted.text {dto : UpdateStudentProfileDto} (h : Accepted isDateString dto) {field : Field}
    (hfield : field = .phone ∨ field = .cin ∨ field = .birthDate) :
    dto.value field = .undefined ∨ dto.value field = .null ∨ ∃ s, dto.value field = .string s := by
  have hvalue := h field
  cases hv : dto.value field with
  | undefined => exact .inl rfl
  | null => exact .inr (.inl rfl)
  | string s => exact .inr (.inr ⟨s, rfl⟩)
  | _ =>
    rw [hv] at hvalue
    rcases hfield with rfl | rfl | rfl <;> exact absurd hvalue (by simp [accepts])

theorem updateProfile_eq_ok {draws : Draws} {students students' : Table Student} {userId : String}
    {dto : UpdateStudentProfileDto} {before after : Student}
    (hfind : students.rows.find? (fun student => student.userId = userId) = some before)
    (h : updateProfile cipher service parseDate draws students userId dto = .ok (after, students')) :
    ∃ phone cin address message message',
      secure cipher service draws.phone message (dto.value .phone) = .ok phone ∧
      secure cipher service draws.cin message' (dto.value .cin) = .ok cin ∧
      before.write (fun
        | .phone => phone
        | .cin => cin
        | .address => address
        | .birthDate => toDate parseDate (dto.value .birthDate)
        | field => dto.value field)
        (calculateProfileCompletion (spread before.object dto.object)) = some after ∧
      students' = students.put after := by
  unfold updateProfile at h
  rw [hfind] at h
  simp only [bind, Except.bind] at h
  split at h
  · exact absurd h (by simp)
  rename_i phone hphone
  split at h
  · exact absurd h (by simp)
  rename_i cin hcin
  split at h
  · exact absurd h (by simp)
  rename_i address haddress
  split at h
  · rename_i updated hwrite
    obtain ⟨rfl, rfl⟩ := Prod.mk.inj (Except.ok.inj h)
    exact ⟨phone, cin, address, _, _, hphone, hcin, hwrite, rfl⟩
  · exact absurd h (by simp [throw, throwThe, MonadExceptOf.throw])

/-! ## The flag and the row -/

/-- The request leaves the column as it is. -/
def leaves (dto : UpdateStudentProfileDto) : Field → Bool
  | .phone => !(dto.value .phone).truthy
  | .birthDate => !(dto.value .birthDate).truthy
  | .cin => !(dto.value .cin).truthy
  | field => dto.value field = .undefined

/-- How many of the fields that count the request supplies. -/
def supplied (dto : UpdateStudentProfileDto) : Nat :=
  completionFields.countP fun field => isFilled (dto.value field)

/-- How many it supplies, or leaves as they are in a row where they are filled. -/
def suppliedOrLeft (before : Student) (dto : UpdateStudentProfileDto) : Nat :=
  completionFields.countP fun field =>
    isFilled (dto.value field) || (leaves dto field && isFilled (before.object.get field))

theorem calculateProfileCompletion_eq (student : Object) :
    calculateProfileCompletion student =
      decide (6 ≤ completionFields.countP fun field => isFilled (student.get field)) := by
  unfold calculateProfileCompletion
  dsimp only
  have hlength : completionFields.length = 8 := rfl
  rw [List.length_map, ← List.countP_eq_length_filter, List.countP_map, hlength, decide_eq_decide]
  simp only [Function.comp_def]
  omega

theorem supplied_le (before : Student) (dto : UpdateStudentProfileDto) :
    supplied dto ≤ suppliedOrLeft before dto := by
  apply List.countP_mono_left
  intro field _ hfilled
  rw [hfilled, Bool.true_or]

/-- A column that counts is filled after the update if it was supplied, or left where it was filled. -/
theorem isFilled_write {dto : UpdateStudentProfileDto} (hdto : Accepted isDateString dto)
    {draws : Draws} {before after : Student} {phone cin address : Value} {message message' : String}
    {profileCompleted : Bool}
    (hphone : secure cipher service draws.phone message (dto.value .phone) = .ok phone)
    (hcin : secure cipher service draws.cin message' (dto.value .cin) = .ok cin)
    (hwrite : before.write (fun
        | .phone => phone
        | .cin => cin
        | .address => address
        | .birthDate => toDate parseDate (dto.value .birthDate)
        | field => dto.value field) profileCompleted = some after) :
    after.id = before.id ∧ after.profileCompleted = profileCompleted ∧
      ∀ field ∈ completionFields, isFilled (after.object.get field) =
        (isFilled (dto.value field) || (leaves dto field && isFilled (before.object.get field))) := by
  unfold Student.write at hwrite
  obtain ⟨firstName, hfirstName, hwrite⟩ := Option.bind_eq_some_iff.1 hwrite
  obtain ⟨lastName, hlastName, hwrite⟩ := Option.bind_eq_some_iff.1 hwrite
  obtain ⟨phone', hphone', hwrite⟩ := Option.bind_eq_some_iff.1 hwrite
  obtain ⟨birthDate, hbirthDate, hwrite⟩ := Option.bind_eq_some_iff.1 hwrite
  obtain ⟨cin', hcin', hwrite⟩ := Option.bind_eq_some_iff.1 hwrite
  obtain ⟨bacYear, hbacYear, hwrite⟩ := Option.bind_eq_some_iff.1 hwrite
  obtain ⟨bacType, -, hwrite⟩ := Option.bind_eq_some_iff.1 hwrite
  obtain ⟨city, hcity, hwrite⟩ := Option.bind_eq_some_iff.1 hwrite
  obtain ⟨address', -, hwrite⟩ := Option.bind_eq_some_iff.1 hwrite
  obtain ⟨region, -, hwrite⟩ := Option.bind_eq_some_iff.1 hwrite
  obtain ⟨bio, hbio, hwrite⟩ := Option.bind_eq_some_iff.1 hwrite
  obtain ⟨interests, -, hwrite⟩ := Option.bind_eq_some_iff.1 hwrite
  obtain ⟨skills, -, hwrite⟩ := Option.bind_eq_some_iff.1 hwrite
  obtain ⟨aspirations, -, hwrite⟩ := Option.bind_eq_some_iff.1 hwrite
  obtain rfl := (Option.some.inj hwrite).symm
  obtain ⟨hphoneFilled, hphoneLeft⟩ := isFilled_secure (hdto.text (.inl rfl)) hphone
  obtain ⟨hcinFilled, hcinLeft⟩ := isFilled_secure (hdto.text (.inr (.inl rfl))) hcin
  obtain ⟨hdateFilled, hdateLeft⟩ :=
    isFilled_toDate parseDate (hdto.text (.inr (.inr rfl)))
  refine ⟨rfl, rfl, ?_⟩
  intro field hfield
  cases field with
  | firstName => exact isFilled_requiredText hfirstName
  | lastName => exact isFilled_requiredText hlastName
  | phone =>
    have h := isFilled_optionalText hphone'
    rw [hphoneFilled, hphoneLeft] at h
    exact h
  | birthDate =>
    have h := isFilled_optionalDate hbirthDate
    rw [hdateFilled, hdateLeft] at h
    exact h
  | cin =>
    have h := isFilled_optionalText hcin'
    rw [hcinFilled, hcinLeft] at h
    exact h
  | bacYear => exact isFilled_optionalInt hbacYear
  | city => exact isFilled_optionalText hcity
  | bio => exact isFilled_optionalText hbio
  | _ => exact absurd hfield (by decide)

/-- After an update the flag is exact if and only if the request alone supplies enough of the fields, or
    too few are supplied or left filled in. -/
theorem profileCompleted_exact_iff {draws : Draws} {students students' : Table Student}
    {userId : String} {dto : UpdateStudentProfileDto} {before after : Student}
    (hdto : Accepted isDateString dto)
    (hfind : students.rows.find? (fun student => student.userId = userId) = some before)
    (h : updateProfile cipher service parseDate draws students userId dto = .ok (after, students')) :
    students'.find? before.id = some after ∧
      (after.profileCompleted = calculateProfileCompletion after.object ↔
        6 ≤ supplied dto ∨ suppliedOrLeft before dto < 6) := by
  obtain ⟨phone, cin, address, message, message', hphone, hcin, hwrite, rfl⟩ :=
    updateProfile_eq_ok hfind h
  obtain ⟨hid, hflag, hfilled⟩ := isFilled_write hdto hphone hcin hwrite
  have hflag' : after.profileCompleted = decide (6 ≤ supplied dto) :=
    hflag.trans (calculateProfileCompletion_eq _)
  have hrow : calculateProfileCompletion after.object = decide (6 ≤ suppliedOrLeft before dto) := by
    rw [calculateProfileCompletion_eq]
    unfold suppliedOrLeft
    rw [List.countP_congr fun field hfield => by rw [hfilled field hfield]]
  constructor
  · rw [← hid]
    exact (Table.find?_put students after after.id).trans (if_pos rfl)
  · have hle := supplied_le before dto
    rw [hflag', hrow, decide_eq_decide]
    omega

/-- A request that supplies six fields, the date of birth among them. -/
def sixFields : UpdateStudentProfileDto where
  value
    | .firstName => .string "Jean"
    | .lastName => .string "Rakoto"
    | .birthDate => .string "1998-05-15"
    | .bacYear => .number 2016
    | .city => .string "Antananarivo"
    | .bio => .string "Finance"
    | _ => .undefined

/-- A request that supplies only a biography. -/
def bioOnly : UpdateStudentProfileDto where
  value
    | .bio => .string "Finance"
    | _ => .undefined

/-- A profile with six of the eight fields. -/
def completeStudent : Student :=
  { id := "s1", userId := "u1", firstName := "Jean", lastName := "Rakoto", phone := none
    birthDate := some ⟨895190400000⟩, cin := none, bacYear := some 2016, bacType := none
    address := none, city := some "Antananarivo", region := none, bio := some "Gestion"
    interests := [], skills := [], aspirations := [], profileCompleted := true }

def sampleService : EncryptionService := ⟨⟨List.replicate 32 0, rfl⟩⟩

/-- A cipher that changes nothing, for requests that encrypt nothing. -/
def idle : Cipher := ⟨fun _ _ bytes => ⟨bytes, []⟩, fun _ _ _ bytes => some bytes⟩

/-- How the dates of the samples are read. -/
def sampleDates (text : String) : Option Date :=
  if text = "1998-05-15" then some ⟨895190400000⟩ else none

def updateSample (dto : UpdateStudentProfileDto) : Except Failure (Student × Table Student) :=
  updateProfile idle sampleService sampleDates ⟨none, none, none⟩ (.ofList [completeStudent]) "u1" dto

theorem profileCompleted_exact_iff_sixFields :
    ∃ after students', updateSample sixFields = .ok (after, students') ∧
      after.profileCompleted = calculateProfileCompletion after.object := by
  have hdto : Accepted (fun text => text = "1998-05-15") sixFields := by
    intro field
    cases field <;> decide +kernel
  have hsome : (updateSample sixFields).toOption.isSome = true := by decide +kernel
  cases h : updateSample sixFields with
  | error e =>
    rw [h] at hsome
    exact absurd hsome (by simp [Except.toOption])
  | ok result =>
    have hfind : (Table.ofList [completeStudent]).rows.find? (fun student => student.userId = "u1") =
        some completeStudent := by decide +kernel
    have hexact := profileCompleted_exact_iff hdto hfind h
    exact ⟨result.1, result.2, rfl, hexact.2.2 (.inl (by decide +kernel))⟩

/-- A complete profile is marked incomplete when only its biography is changed. -/
theorem not_profileCompleted_exact :
    ¬ ∀ (cipher : Cipher) (service : EncryptionService) (isDateString : String → Bool)
      (parseDate : String → Option Date) (draws : Draws) (students students' : Table Student)
      (userId : String) (dto : UpdateStudentProfileDto) (after : Student),
      Accepted isDateString dto →
      updateProfile cipher service parseDate draws students userId dto = .ok (after, students') →
      after.profileCompleted = calculateProfileCompletion after.object := by
  intro h
  have hdto : Accepted (fun _ => false) bioOnly := by
    intro field
    cases field <;> decide +kernel
  have hsome : ((updateSample bioOnly).toOption.map fun result =>
      (result.1.profileCompleted, calculateProfileCompletion result.1.object)) =
      some (false, true) := by decide +kernel
  cases hrun : updateSample bioOnly with
  | error e =>
    rw [hrun] at hsome
    exact absurd hsome (by simp [Except.toOption])
  | ok result =>
    have hexact := h idle sampleService _ sampleDates _ _ result.2 "u1" bioOnly result.1 hdto hrun
    rw [hrun] at hsome
    obtain ⟨hflag, hrow⟩ := Prod.mk.inj (Option.some.inj hsome)
    rw [hexact, hrow] at hflag
    exact absurd hflag (by simp)

end GetPlatform.Profile
