import GetPlatform.Uploads.StorageService

set_option autoImplicit false

/-! # The way back from a public URL

An image is deleted by the key that is read off its URL. A URL starts with `S3_PUBLIC_URL`, or with the
endpoint and the bucket where that is not set; a key is found again where the first known prefix of
the URL is the one it was made with. -/

namespace GetPlatform.Uploads

/-! ## Prefixes -/

def publicPrefix (config : Config) : Option String :=
  (config.S3_PUBLIC_URL.filter (· ≠ "")).map fun publicUrl => withoutSlash publicUrl ++ "/"

def endpointPrefix (config : Config) : String :=
  withoutSlash (orDefault config.S3_ENDPOINT "") ++ "/" ++ config.publicBucket ++ "/"

/-- Is an endpoint configured? -/
def hasEndpoint (config : Config) : Bool := orDefault config.S3_ENDPOINT "" ≠ ""

theorem publicObjectUrl_eq (config : Config) (key : String) :
    publicObjectUrl config key = (publicPrefix config).getD (endpointPrefix config) ++ key := by
  unfold publicObjectUrl publicPrefix endpointPrefix
  cases config.S3_PUBLIC_URL.filter (· ≠ "") <;> rfl

theorem keyFromPublicUrl_eq (config : Config) (url : String) :
    keyFromPublicUrl config url = ((publicPrefix config).bind (afterPrefix url)).or
      (if hasEndpoint config then afterPrefix url (endpointPrefix config) else none) := by
  unfold keyFromPublicUrl publicPrefix hasEndpoint endpointPrefix
  simp only [decide_eq_true_eq]
  cases config.S3_PUBLIC_URL.filter (· ≠ "") with
  | none => rfl
  | some publicUrl =>
    simp only [Option.map_some, Option.bind_some]
    cases afterPrefix url (withoutSlash publicUrl ++ "/") <;> rfl

theorem afterPrefix_append (start key : String) : afterPrefix (start ++ key) start = some key :=
  afterPrefix_eq_some.2 rfl

/-- The key is cut off by another prefix only if that is the same. -/
theorem afterPrefix_append_iff {start start' key : String} :
    afterPrefix (start ++ key) start' = some key ↔ start' = start := by
  rw [afterPrefix_eq_some]
  constructor
  · intro h
    rw [← String.toList_inj, String.toList_append, String.toList_append] at h
    exact String.toList_inj.1 (List.append_cancel_right h.symm)
  · rintro rfl
    rfl

/-! ## Two configurations -/

/-- The configuration is the same, or `S3_PUBLIC_URL` was not set and may be since. -/
def Evolves (config config' : Config) : Prop :=
  config' = config ∨
    publicPrefix config = none ∧ ∃ url, config' = { config with S3_PUBLIC_URL := url }

/-- The URL can be told: it was made with `S3_PUBLIC_URL`, or an endpoint is configured and the
    prefix that is tried before its own does not stand there, or is the same. -/
def Recognised (config config' : Config) (key : String) : Prop :=
  match publicPrefix config, publicPrefix config' with
  | some _, _ => True
  | none, none => hasEndpoint config
  | none, some start =>
      start = endpointPrefix config ∨
        hasEndpoint config ∧ afterPrefix (endpointPrefix config ++ key) start = none

theorem Evolves.endpoint {config config' : Config} (h : Evolves config config') :
    hasEndpoint config' = hasEndpoint config ∧ endpointPrefix config' = endpointPrefix config ∧
      config'.publicBucket = config.publicBucket := by
  rcases h with rfl | ⟨-, url, rfl⟩
  · exact ⟨rfl, rfl, rfl⟩
  · exact ⟨rfl, rfl, rfl⟩

theorem keyFromPublicUrl_publicObjectUrl {config config' : Config} (h : Evolves config config')
    (key : String) :
    keyFromPublicUrl config' (publicObjectUrl config key) = some key ↔
      Recognised config config' key := by
  obtain ⟨hhas, hprefix, -⟩ := h.endpoint
  rw [publicObjectUrl_eq, keyFromPublicUrl_eq, hhas, hprefix]
  unfold Recognised
  cases hset : publicPrefix config with
  | some start =>
    have hsame : publicPrefix config' = some start := by
      rcases h with rfl | ⟨hnone, -⟩
      · exact hset
      · exact absurd (hnone.symm.trans hset) (by simp)
    simp [hsame, afterPrefix_append]
  | none =>
    cases publicPrefix config' with
    | none => simp [afterPrefix_append]
    | some start =>
      simp only [Option.getD_none, Option.bind_some, afterPrefix_append]
      cases hcut : afterPrefix (endpointPrefix config ++ key) start with
      | none =>
        have hne : start ≠ endpointPrefix config := by
          rintro rfl
          rw [afterPrefix_append] at hcut
          exact absurd hcut (by simp)
        simp [hne]
      | some rest =>
        rw [Option.some_or, ← hcut, afterPrefix_append_iff]
        simp [hcut]

/-! ## Deletion of an image -/

theorem buildKey_eq_ok {segments : List String} {key : String} (h : buildKey segments = .ok key) :
    key = "/".intercalate segments := by
  unfold buildKey at h
  split at h
  · exact absurd h (by simp)
  · exact (Except.ok.inj h).symm

/-- The key of an image has parts. -/
theorem imageKey_ne_empty {options : ImageOptions} {fileName key : String}
    (h : imageKey options fileName = .ok key) : key ≠ "" := by
  have hkey := buildKey_eq_ok h
  have hslash : '/' ∈ key.toList := by
    rw [hkey, String.toList_intercalate]
    simp [List.intercalate]
  rintro rfl
  simp at hslash

theorem uploadImage_eq_ok {toLowerCase : String → String} {config : Config} {file : File}
    {options : ImageOptions} {base id : String} {s s' : Storage} {image : Image}
    (h : uploadImage toLowerCase config file options base id s = .ok (image, s')) :
    ∃ key, imageKey options (generateFileName toLowerCase base file.originalname) = .ok key ∧
      image.id = id ∧ image.url = publicObjectUrl config key ∧
      s'.images.find? id = some image ∧
      s'.objects = s.objects.put ⟨config.publicBucket, key, file.buffer, file.mimetype⟩ := by
  unfold uploadImage at h
  simp only [bind, Except.bind] at h
  split at h
  · exact absurd h (by simp)
  split at h
  · exact absurd h (by simp)
  cases hkey : imageKey options (generateFileName toLowerCase base file.originalname) with
  | error e => rw [hkey] at h; exact absurd h (by simp)
  | ok key =>
    rw [hkey] at h
    simp only at h
    by_cases hid : s.images.contains id = true
    · rw [if_pos hid] at h
      exact absurd h (by simp [throw, throwThe, MonadExceptOf.throw])
    · rw [if_neg hid] at h
      obtain ⟨himage, hs'⟩ := Prod.mk.inj (Except.ok.inj h)
      subst himage hs'
      have hnew : s.images.contains id = false := Bool.eq_false_iff.2 hid
      refine ⟨key, rfl, rfl, rfl, ?_, rfl⟩
      exact Table.find?_key (Table.mem_insert hnew |>.2 (.inr rfl))

theorem objects_deleteImage {config : Config} {imageId : String} {s : Storage} {image : Image}
    (h : s.images.find? imageId = some image) :
    (deleteImage config true imageId s).objects =
      match (keyFromPublicUrl config image.url).filter (· ≠ "") with
      | some key => s.objects.filter fun o => Keyed.key o ≠ (config.publicBucket, key)
      | none => s.objects := by
  unfold deleteImage
  rw [h]
  rfl

/-- The object of an image is the one that goes exactly when its key is read off the URL. -/
theorem objects_deleteImage_iff {config : Config} {imageId key : String} {s : Storage}
    {image : Image} {o : StoredObject} (h : s.images.find? imageId = some image) (hkey : key ≠ "")
    (ho : o ∈ s.objects) (hat : Keyed.key o = (config.publicBucket, key)) :
    (deleteImage config true imageId s).objects =
        s.objects.filter (fun o => Keyed.key o ≠ (config.publicBucket, key)) ↔
      keyFromPublicUrl config image.url = some key := by
  rw [objects_deleteImage h]
  constructor
  · intro hgone
    by_contra hne
    have hstays : o ∈ s.objects.filter fun o => Keyed.key o ≠ (config.publicBucket, key) := by
      rw [← hgone]
      split
      · rename_i key' hkey'
        have hother : key ≠ key' := by
          rintro rfl
          exact hne (Option.filter_eq_some_iff.1 hkey').1
        rw [Table.mem_filter, hat]
        simpa [ho] using hother
      · exact ho
    rw [Table.mem_filter, hat] at hstays
    simp at hstays
  · intro hread
    rw [hread]
    simp [Option.filter, hkey]

/-- Under the same configuration, and after `S3_PUBLIC_URL` is set, a URL leads back to its key, and the
    deletion of an image takes the object that was uploaded, exactly when the URL is recognised. -/
theorem storage_round_trip_iff {config config' : Config} (h : Evolves config config') :
    (∀ segments key, buildKey segments = .ok key →
      (keyFromPublicUrl config' (publicObjectUrl config key) = some key ↔
        Recognised config config' key)) ∧
    ∀ toLowerCase file options base id s s' image key,
      uploadImage toLowerCase config file options base id s = .ok (image, s') →
      imageKey options (generateFileName toLowerCase base file.originalname) = .ok key →
      ((deleteImage config' true image.id s').objects =
          s'.objects.filter (fun o => Keyed.key o ≠ (config.publicBucket, key)) ↔
        Recognised config config' key) := by
  constructor
  · intro segments key _
    exact keyFromPublicUrl_publicObjectUrl h key
  · intro toLowerCase file options base id s s' image key hupload hkey
    obtain ⟨key', hkey', hid, hurl, hrow, hobjects⟩ := uploadImage_eq_ok hupload
    obtain rfl : key = key' := Except.ok.inj (hkey.symm.trans hkey')
    have hstored : (⟨config.publicBucket, key, file.buffer, file.mimetype⟩ : StoredObject) ∈
        s'.objects := by
      rw [hobjects]
      exact Table.mem_put.2 (.inl rfl)
    rw [← h.endpoint.2.2, hid,
      objects_deleteImage_iff hrow (imageKey_ne_empty hkey) hstored (by rw [h.endpoint.2.2]; rfl),
      hurl]
    exact keyFromPublicUrl_publicObjectUrl h key

/-- `S3_PUBLIC_URL` is set, beside an endpoint, to an address of its own. -/
theorem storage_round_trip_iff_cdn :
    keyFromPublicUrl ⟨some "https://s3.get.mg", some "https://cdn.get.mg/", some "images", none⟩
        (publicObjectUrl ⟨some "https://s3.get.mg", none, some "images", none⟩ "student/a.png") =
      some "student/a.png" := by
  have hevolves : Evolves ⟨some "https://s3.get.mg", none, some "images", none⟩
      ⟨some "https://s3.get.mg", some "https://cdn.get.mg/", some "images", none⟩ :=
    .inr ⟨by decide +kernel, some "https://cdn.get.mg/", rfl⟩
  refine ((storage_round_trip_iff hevolves).1 ["student", "a.png"] "student/a.png"
    (by decide +kernel)).2 (.inr ⟨by decide +kernel, by decide +kernel⟩)

/-- Without an endpoint a URL begins with the bucket, and no key is read off it. -/
theorem not_storage_round_trip :
    ¬ ∀ config config', Evolves config config' → ∀ segments key, buildKey segments = .ok key →
      keyFromPublicUrl config' (publicObjectUrl config key) = some key := by
  intro h
  have hread := h ⟨none, none, none, none⟩ ⟨none, none, none, none⟩ (.inl rfl)
    ["student", "avatar", "system", "a.png"] "student/avatar/system/a.png" (by decide +kernel)
  revert hread
  decide +kernel

end GetPlatform.Uploads
