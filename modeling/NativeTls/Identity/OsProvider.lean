import NativeTls.EngineString

/-!
# `Identity::from_pkcs12` and `Identity::from_os_provider`

Three ways to an identity pick a certificate out of a store the platform opens:

* `from_pkcs12` imports a PKCS #12 archive and takes the first certificate whose private key the
  platform acquires; the file branch of `from_os_provider` does the same with a certificate file.
  `identityFromStore` is that shared loop, and `identityFromStore_spec` says what it returns.
* The store branch of `from_os_provider` opens a system store and looks for the first certificate
  whose fingerprint is the thumbprint.  Inside the loop it picks the hash from the thumbprint's
  length, fingerprints the certificate (with `?`) and, on a match, requires its private key.

`findByThumbprint_append` is the loop's run lemma: certificates that fingerprint to something
else are passed over.  From it,

* `fromOsProvider_store`: the outcome is decided by the first certificate that does not
  fingerprint to something else — it is returned if it matches and has a key, its key or
  fingerprinting error is reported otherwise — and by none, "No identity found in provided store";
* `fromOsProvider_thumbprint_length`: a thumbprint of another length than 20 or 32 bytes is
  reported at the first certificate, so an empty store reports that no identity was found;
* `fromPkcs12_fromOsProvider_file`: the archive and the file give the first certificate with a
  key, and fail exactly when there is none;
* `fromOsProvider_file_lossy`: the file opened is not the path the caller gave but its
  `to_string_lossy`, which differs from it exactly when the path holds an unpaired surrogate.
-/

namespace NativeTls

/-! ### The loop shared by `from_pkcs12` and the file branch -/

/-- Import or open a store, then take the first certificate whose private key is acquired
(`private_key().silent(true).compare_key(true).acquire().is_ok()`), or fail with `noIdentity`. -/
def identityFromStore (plat : Platform) (store : Except Error (List CertContext))
    (noIdentity : String) : Except Error Identity := do
  let certs ← store
  match certs.find? plat.acquirePrivateKey with
  | some cert => .ok ⟨cert, certs⟩
  | none => .error (.new .invalidInput noIdentity)

/-- `Identity::from_pkcs12`. -/
def Identity.fromPkcs12 (plat : Platform) (buf : List UInt8) (pass : List Char) :
    Except Error Identity :=
  identityFromStore plat (plat.pfxImport buf pass) "No identity found in PKCS #12 archive"

/-- `cert` is the first certificate of `certs` whose private key the platform acquires. -/
def FirstWithPrivateKey (plat : Platform) (certs : List CertContext) (cert : CertContext) : Prop :=
  ∃ pre post, certs = pre ++ cert :: post ∧ (∀ c ∈ pre, plat.acquirePrivateKey c = false) ∧
    plat.acquirePrivateKey cert = true

/-- **The shared loop takes the first certificate with a key**, in enumeration order, and fails
with its message exactly when no certificate has one. -/
theorem identityFromStore_spec (plat : Platform) {store : Except Error (List CertContext)}
    {certs : List CertContext} (hstore : store = .ok certs) (noIdentity : String) :
    (∀ id, identityFromStore plat store noIdentity = .ok id ↔
      id.store = certs ∧ FirstWithPrivateKey plat certs id.cert) ∧
    (∀ e, identityFromStore plat store noIdentity = .error e ↔
      e = .new .invalidInput noIdentity ∧ ∀ c ∈ certs, plat.acquirePrivateKey c = false) := by
  subst hstore
  have hfirst : ∀ cert, certs.find? plat.acquirePrivateKey = some cert ↔
      FirstWithPrivateKey plat certs cert := fun cert => by
    simp only [List.find?_eq_some, FirstWithPrivateKey, Bool.not_eq_true']
    exact ⟨fun ⟨hc, pre, post, h, hpre⟩ => ⟨pre, post, h, hpre, hc⟩,
      fun ⟨pre, post, h, hpre, hc⟩ => ⟨hc, pre, post, h, hpre⟩⟩
  simp only [identityFromStore, bind, Except.bind]
  rcases hfind : certs.find? plat.acquirePrivateKey with _ | cert
  · have hnone : ∀ c ∈ certs, plat.acquirePrivateKey c = false := by
      simpa using List.find?_eq_none.mp hfind
    refine ⟨fun id => iff_of_false (by simp) fun ⟨_, hc⟩ => ?_, fun e => ?_⟩
    · rw [← hfirst, hfind] at hc
      cases hc
    · exact ⟨fun h => ⟨(Except.error.inj h).symm, hnone⟩, fun ⟨he, _⟩ => he ▸ rfl⟩
  · obtain ⟨-, -, -, -, hkey⟩ := (hfirst cert).mp hfind
    refine ⟨fun id => ?_, fun e => iff_of_false (by simp) fun ⟨_, hall⟩ => ?_⟩
    · rw [← hfirst, hfind]
      cases id
      simp [eq_comm, and_comm]
    · simp [hall cert (List.mem_of_find?_eq_some hfind)] at hkey

/-! ### The store branch -/

/-- The error of line 178. -/
def invalidHexThumbprint : Error := .new .invalidInput "Invalid hex thumbprint"

/-- Lines 174–179: the hash a thumbprint's length calls for. -/
def thumbprintAlgorithm (decodedHex : List UInt8) : Except Error HashAlgorithm :=
  match decodedHex.length with
  | 20 => .ok .sha1
  | 32 => .ok .sha256
  | _ => .error invalidHexThumbprint

/-- **A thumbprint of 40 hex digits is looked up by SHA-1, one of 64 by SHA-256**, and any other
length is invalid: every two digits decode to one byte. -/
theorem thumbprintAlgorithm_of_hexDecode {t : List Char} {h : List UInt8}
    (hhex : hexDecode t = some h) :
    thumbprintAlgorithm h =
      if t.length = 40 then .ok .sha1
      else if t.length = 64 then .ok .sha256
      else .error invalidHexThumbprint := by
  have hlen := hexDecode_length hhex
  by_cases h40 : t.length = 40
  · rw [if_pos h40, thumbprintAlgorithm, show h.length = 20 by omega]
  by_cases h64 : t.length = 64
  · rw [if_neg h40, if_pos h64, thumbprintAlgorithm, show h.length = 32 by omega]
  rw [if_neg h40, if_neg h64, thumbprintAlgorithm]
  split <;> first | rfl | omega

/-- The error of line 191. -/
def missingPrivateKey : Error := .new .invalidInput "Missing or invalid private key property"

/-- The error of lines 199 and 222. -/
def noIdentityInStore : Error := .new .invalidInput "No identity found in provided store"

/-- The loop of lines 172–195: the certificate found, if any. -/
def findByThumbprint (plat : Platform) (decodedHex : List UInt8) :
    List CertContext → Except Error (Option CertContext)
  | [] => .ok none
  | cert :: certs => do
    let algo ← thumbprintAlgorithm decodedHex
    let hash ← plat.fingerprint cert algo
    if hash = decodedHex then
      if !plat.acquirePrivateKey cert then .error missingPrivateKey
      else .ok (some cert)
    else findByThumbprint plat decodedHex certs

/-- `Identity::from_os_provider`. -/
def Identity.fromOsProvider (plat : Platform) (_pem : List UInt8) (providerName : OsStr)
    (osEngineString : OsStr) : Except Error Identity := do
  if providerName ≠ OsStr.ofChars "ncrypt".toList ∧
      providerName ≠ OsStr.ofChars "e_ncrypt".toList then
    throw (.new .invalidInput "`provider_name` must be either ncrypt or e_ncypt")
  let osProvider ← (parseEngineString osEngineString).mapError
    fun _ => .new .invalidInput "Invalid `os_engine_string`"
  match osProvider with
  | .contextFromStore storeName isMachine decodedHex =>
    let certs ← plat.openStore isMachine storeName
    match ← findByThumbprint plat decodedHex certs with
    | some cert => .ok ⟨cert, certs⟩
    | none => .error noIdentityInStore
  | .contextFromFile filePath =>
    identityFromStore plat (plat.openFile filePath) "No identity found in provided store"

/-- `provider_name` is `"ncrypt"` or `"e_ncrypt"`. -/
def ValidProviderName (providerName : OsStr) : Prop :=
  providerName = OsStr.ofChars "ncrypt".toList ∨ providerName = OsStr.ofChars "e_ncrypt".toList

/-- A valid provider name passes the check of line 159. -/
theorem providerName_check {providerName : OsStr} (h : ValidProviderName providerName) :
    ¬ (providerName ≠ OsStr.ofChars "ncrypt".toList ∧
      providerName ≠ OsStr.ofChars "e_ncrypt".toList) := by
  rcases h with rfl | rfl <;> decide

/-- The store branch, once the provider name has passed and the store has opened. -/
theorem fromOsProvider_store_eq {plat : Platform} {pem : List UInt8} {providerName engine : OsStr}
    {storeName : List Char} {isMachine : Bool} {h : List UInt8} {certs : List CertContext}
    (hprov : ValidProviderName providerName)
    (hparse : parseEngineString engine = .ok (.contextFromStore storeName isMachine h))
    (hstore : plat.openStore isMachine storeName = .ok certs) :
    Identity.fromOsProvider plat pem providerName engine =
      match findByThumbprint plat h certs with
      | .ok (some cert) => .ok ⟨cert, certs⟩
      | .ok none => .error noIdentityInStore
      | .error e => .error e := by
  simp only [Identity.fromOsProvider, providerName_check hprov, ↓reduceIte, hparse,
    Except.mapError, hstore, bind, Except.bind, pure, Except.pure]
  cases findByThumbprint plat h certs with
  | error e => rfl
  | ok r => cases r <;> rfl

/-- The file branch, once the provider name has passed. -/
theorem fromOsProvider_file_eq {plat : Platform} {pem : List UInt8} {providerName engine : OsStr}
    {filePath : OsStr} (hprov : ValidProviderName providerName)
    (hparse : parseEngineString engine = .ok (.contextFromFile filePath)) :
    Identity.fromOsProvider plat pem providerName engine =
      identityFromStore plat (plat.openFile filePath) "No identity found in provided store" := by
  simp only [Identity.fromOsProvider, providerName_check hprov, ↓reduceIte, hparse,
    Except.mapError, bind, Except.bind, pure, Except.pure]

/-- One turn of the loop, once the hash is known. -/
theorem findByThumbprint_cons {plat : Platform} {h : List UInt8} {algo : HashAlgorithm}
    (halgo : thumbprintAlgorithm h = .ok algo) (cert : CertContext) (certs : List CertContext) :
    findByThumbprint plat h (cert :: certs) =
      match plat.fingerprint cert algo with
      | .error e => .error e
      | .ok hash =>
        if hash = h then
          if plat.acquirePrivateKey cert then .ok (some cert) else .error missingPrivateKey
        else findByThumbprint plat h certs := by
  simp only [findByThumbprint, halgo, bind, Except.bind]
  cases plat.fingerprint cert algo with
  | error e => rfl
  | ok hash => by_cases hh : hash = h <;> cases plat.acquirePrivateKey cert <;> simp [hh]

/-- The loop passes over every certificate that fingerprints to something else. -/
theorem findByThumbprint_append {plat : Platform} {h : List UInt8} {algo : HashAlgorithm}
    (halgo : thumbprintAlgorithm h = .ok algo) {pre : List CertContext}
    (hpre : ∀ c ∈ pre, ∃ d, plat.fingerprint c algo = .ok d ∧ d ≠ h)
    (rest : List CertContext) :
    findByThumbprint plat h (pre ++ rest) = findByThumbprint plat h rest := by
  induction pre with
  | nil => rfl
  | cons c pre ih =>
    obtain ⟨d, hd, hne⟩ := hpre c (.head _)
    rw [List.cons_append, findByThumbprint_cons halgo, hd]
    simp only [hne, ↓reduceIte]
    exact ih fun c hc => hpre c (.tail _ hc)

theorem thumbprintAlgorithm_eq_ok {h : List UInt8} {algo : HashAlgorithm}
    (halgo : h.length = 20 ∧ algo = .sha1 ∨ h.length = 32 ∧ algo = .sha256) :
    thumbprintAlgorithm h = .ok algo := by
  rcases halgo with ⟨hl, rfl⟩ | ⟨hl, rfl⟩ <;> simp [thumbprintAlgorithm, hl]

/-- **The store branch reports on the first certificate that does not fingerprint to something
else**: if that certificate matches, it is returned when its private key is acquired and
`missingPrivateKey` is reported otherwise; if fingerprinting it fails, that error is reported;
and when every certificate fingerprints to something else, no identity is found. -/
theorem fromOsProvider_store {plat : Platform} {pem : List UInt8} {providerName engine : OsStr}
    {storeName : List Char} {isMachine : Bool} {h : List UInt8} {algo : HashAlgorithm}
    {certs : List CertContext} (hprov : ValidProviderName providerName)
    (hparse : parseEngineString engine = .ok (.contextFromStore storeName isMachine h))
    (halgo : h.length = 20 ∧ algo = .sha1 ∨ h.length = 32 ∧ algo = .sha256)
    (hstore : plat.openStore isMachine storeName = .ok certs) :
    (∀ pre cert post, certs = pre ++ cert :: post →
      (∀ c ∈ pre, ∃ d, plat.fingerprint c algo = .ok d ∧ d ≠ h) →
      (plat.fingerprint cert algo = .ok h →
        Identity.fromOsProvider plat pem providerName engine =
          if plat.acquirePrivateKey cert then .ok ⟨cert, certs⟩ else .error missingPrivateKey) ∧
      (∀ e, plat.fingerprint cert algo = .error e →
        Identity.fromOsProvider plat pem providerName engine = .error e)) ∧
    ((∀ c ∈ certs, ∃ d, plat.fingerprint c algo = .ok d ∧ d ≠ h) →
      Identity.fromOsProvider plat pem providerName engine = .error noIdentityInStore) := by
  have halgo := thumbprintAlgorithm_eq_ok halgo
  rw [fromOsProvider_store_eq hprov hparse hstore]
  refine ⟨fun pre cert post hcerts hpre => ⟨fun hfp => ?_, fun e hfp => ?_⟩, fun hall => ?_⟩
  · rw [hcerts, findByThumbprint_append halgo hpre, findByThumbprint_cons halgo, hfp]
    cases plat.acquirePrivateKey cert <;> simp
  · rw [hcerts, findByThumbprint_append halgo hpre, findByThumbprint_cons halgo, hfp]
  · have := findByThumbprint_append halgo hall []
    rw [List.append_nil] at this
    rw [this]
    rfl

/-- A certificate of the store, by a one-byte encoding. -/
def storeCert (n : UInt8) : CertContext := ⟨⟨[n]⟩, none⟩

/-- Twenty zero bytes, and the engine string `user:my:` naming them in hex. -/
def zeroThumbprint : List UInt8 := List.replicate 20 0

def zeroThumbprintEngine : OsStr := OsStr.ofChars ("user:my:".toList ++ List.replicate 40 '0')

/-- A store of two certificates that both have a key; the first cannot be fingerprinted, the
second has the thumbprint. -/
def fingerprintErrorPlatform : Platform :=
  { okPlatform with
    openStore := fun _ _ => .ok [storeCert 1, storeCert 2]
    fingerprint := fun c _ => if c = storeCert 1 then .error (.os 1) else .ok zeroThumbprint }

theorem parseEngineString_zeroThumbprintEngine :
    parseEngineString zeroThumbprintEngine = .ok (.contextFromStore "my".toList false zeroThumbprint) :=
  rfl

theorem fromOsProvider_store_fingerprint_error :
    Identity.fromOsProvider fingerprintErrorPlatform [] (OsStr.ofChars "ncrypt".toList)
      zeroThumbprintEngine = .error (.os 1) :=
  ((fromOsProvider_store (.inl rfl) parseEngineString_zeroThumbprintEngine (.inl ⟨rfl, rfl⟩)
    rfl).1 [] (storeCert 1) [storeCert 2] rfl (by simp)).2 _ rfl

theorem fromOsProvider_store_skips_fingerprint_error :
    ¬ ∀ (plat : Platform) (engine : OsStr) (storeName : List Char) (isMachine : Bool)
      (h : List UInt8) (certs pre post : List CertContext) (cert : CertContext),
      parseEngineString engine = .ok (.contextFromStore storeName isMachine h) →
      h.length = 20 → plat.openStore isMachine storeName = .ok certs →
      certs = pre ++ cert :: post → (∀ c ∈ pre, plat.fingerprint c .sha1 ≠ .ok h) →
      plat.fingerprint cert .sha1 = .ok h → plat.acquirePrivateKey cert = true →
      Identity.fromOsProvider plat [] (OsStr.ofChars "ncrypt".toList) engine = .ok ⟨cert, certs⟩ := by
  intro hclaim
  have hok := hclaim fingerprintErrorPlatform _ _ _ _ _ [storeCert 1] [] (storeCert 2)
    parseEngineString_zeroThumbprintEngine rfl rfl rfl (by simp [fingerprintErrorPlatform]) rfl rfl
  have herr : Identity.fromOsProvider fingerprintErrorPlatform [] (OsStr.ofChars "ncrypt".toList)
      zeroThumbprintEngine = .error (.os 1) := by
    rw [fromOsProvider_store_eq (.inl rfl) parseEngineString_zeroThumbprintEngine rfl]
    rfl
  rw [herr] at hok
  cases hok

/-! ### The thumbprint's length -/

/-- **A thumbprint of the wrong length is caught only inside the loop**: it is reported at the
first certificate, and an empty store reports that no identity was found. -/
theorem fromOsProvider_thumbprint_length {plat : Platform} {pem : List UInt8}
    {providerName engine : OsStr} {storeName : List Char} {isMachine : Bool} {h : List UInt8}
    {certs : List CertContext} (hprov : ValidProviderName providerName)
    (hparse : parseEngineString engine = .ok (.contextFromStore storeName isMachine h))
    (hlen : h.length ≠ 20 ∧ h.length ≠ 32)
    (hstore : plat.openStore isMachine storeName = .ok certs) :
    Identity.fromOsProvider plat pem providerName engine =
      .error (if certs = [] then noIdentityInStore else invalidHexThumbprint) := by
  have halgo : thumbprintAlgorithm h = .error invalidHexThumbprint := by
    unfold thumbprintAlgorithm
    split <;> first | rfl | omega
  rw [fromOsProvider_store_eq hprov hparse hstore]
  cases certs with
  | nil => rfl
  | cons cert certs => simp [findByThumbprint, halgo, bind, Except.bind]

def oneByteThumbprintEngine : OsStr := OsStr.ofChars "user:my:00".toList

theorem fromOsProvider_thumbprint_length_empty_store :
    Identity.fromOsProvider okPlatform [] (OsStr.ofChars "ncrypt".toList)
      oneByteThumbprintEngine = .error noIdentityInStore := by
  rw [@fromOsProvider_thumbprint_length okPlatform [] (OsStr.ofChars "ncrypt".toList)
    oneByteThumbprintEngine "my".toList false [0] [] (.inl rfl) rfl (by decide) rfl]
  rfl

/-! ### The archive and the file -/

/-- **`from_pkcs12` and the file branch take the first certificate with a private key**, in
enumeration order, wherever it stands and however many there are, and fail with their
no-identity error exactly when no certificate has a key. -/
theorem fromPkcs12_fromOsProvider_file {plat : Platform} {certs : List CertContext} :
    (∀ buf pass, plat.pfxImport buf pass = .ok certs →
      (∀ id, Identity.fromPkcs12 plat buf pass = .ok id ↔
        id.store = certs ∧ FirstWithPrivateKey plat certs id.cert) ∧
      (∀ e, Identity.fromPkcs12 plat buf pass = .error e ↔
        e = .new .invalidInput "No identity found in PKCS #12 archive" ∧
          ∀ c ∈ certs, plat.acquirePrivateKey c = false)) ∧
    (∀ pem providerName engine filePath, ValidProviderName providerName →
      parseEngineString engine = .ok (.contextFromFile filePath) →
      plat.openFile filePath = .ok certs →
      (∀ id, Identity.fromOsProvider plat pem providerName engine = .ok id ↔
        id.store = certs ∧ FirstWithPrivateKey plat certs id.cert) ∧
      (∀ e, Identity.fromOsProvider plat pem providerName engine = .error e ↔
        e = noIdentityInStore ∧ ∀ c ∈ certs, plat.acquirePrivateKey c = false)) :=
  ⟨fun _ _ h => identityFromStore_spec plat h _, fun _ _ _ _ hprov hparse h => by
    rw [fromOsProvider_file_eq hprov hparse]
    exact identityFromStore_spec plat h _⟩

/-- An archive of two certificates where only the second has a key. -/
def secondKeyPlatform : Platform :=
  { okPlatform with
    pfxImport := fun _ _ => .ok [storeCert 1, storeCert 2]
    acquirePrivateKey := fun c => c == storeCert 2 }

theorem fromPkcs12_second_key :
    Identity.fromPkcs12 secondKeyPlatform [] [] = .ok ⟨storeCert 2, [storeCert 1, storeCert 2]⟩ :=
  ((fromPkcs12_fromOsProvider_file.1 [] [] rfl).1 _).mpr
    ⟨rfl, [storeCert 1], [], rfl, by decide, rfl⟩

/-! ### The path of the file -/

/-- **The file branch opens the lossy conversion of the path.**  For every `OsStr` path, `file:`
followed by it parses to the path with each unpaired surrogate turned into `U+FFFD`; that is the
path itself exactly when it holds no unpaired surrogate; and `from_os_provider` opens that
file. -/
theorem fromOsProvider_file_lossy (p : OsStr) :
    parseEngineString (OsStr.ofChars "file:".toList ++ p) =
        .ok (.contextFromFile (OsStr.ofChars (toStringLossy p))) ∧
      (OsStr.ofChars (toStringLossy p) = p ↔ ∀ u, OsChar.surrogate u ∉ p) ∧
      ∀ plat pem providerName, ValidProviderName providerName →
        Identity.fromOsProvider plat pem providerName (OsStr.ofChars "file:".toList ++ p) =
          identityFromStore plat (plat.openFile (OsStr.ofChars (toStringLossy p)))
            "No identity found in provided store" :=
  ⟨parseEngineString_file p, ofChars_toStringLossy_eq_iff p,
    fun _ _ _ hprov => fromOsProvider_file_eq hprov (parseEngineString_file p)⟩

/-- A path of one unpaired surrogate, `U+D800`. -/
def surrogatePath : OsStr := [.surrogate 0xD800]

/-- A platform where only the file `surrogatePath` opens, holding one certificate with its key;
every other path is `ERROR_FILE_NOT_FOUND`. -/
def surrogateFilePlatform : Platform :=
  { okPlatform with
    openFile := fun path => if path = surrogatePath then .ok [storeCert 1] else .error (.os 2)
    acquirePrivateKey := fun _ => true }

/-- The file the caller names holds an identity, yet `from_os_provider` opens `U+FFFD`, which is
not there. -/
theorem fromOsProvider_file_surrogate :
    OsStr.ofChars (toStringLossy surrogatePath) ≠ surrogatePath ∧
      identityFromStore surrogateFilePlatform (surrogateFilePlatform.openFile surrogatePath)
        "No identity found in provided store" = .ok ⟨storeCert 1, [storeCert 1]⟩ ∧
      Identity.fromOsProvider surrogateFilePlatform [] (OsStr.ofChars "ncrypt".toList)
        (OsStr.ofChars "file:".toList ++ surrogatePath) = .error (.os 2) := by
  obtain ⟨-, hpath, hopen⟩ := fromOsProvider_file_lossy surrogatePath
  refine ⟨fun h => hpath.mp h 0xD800 (List.mem_singleton_self _), rfl, ?_⟩
  rw [hopen surrogateFilePlatform [] _ (.inl rfl)]
  rfl

end NativeTls
