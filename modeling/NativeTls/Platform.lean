import NativeTls.Utf8
import Mathlib.Algebra.Group.Nat.Basic

/-!
# The platform: certificate stores and the key provider

`schannel.rs` leaves the certificates, the stores and the private keys to the platform, through
the `schannel` crate.  This file models what the code sees of them.

* `Error` is `imp::Error(io::Error)`: an error the code raises with `io::Error::new(kind, msg)`,
  or one the platform reports.
* A `CertContext` is a certificate and the key-provider property set on it; a store is the list
  of its contexts in enumeration order; `CertStore.addCert` is `add_cert` under `CertAdd::Always`
  and `CertAdd::ReplaceExisting`.
* `KeyProvider` is the provider's key containers by name, shared by every thread and every process
  of the user; `openOrCreate` and `importKey` are what `from_pkcs8` does to it.
* `Platform` gathers the outcomes of every other call into the platform as functions of their
  arguments: a theorem over all `Platform`s holds whatever the platform does.
-/

namespace NativeTls

/-- `io::ErrorKind`, the two kinds the code raises. -/
inductive ErrorKind
  | invalidInput
  | other
  deriving DecidableEq, Repr

/-- `imp::Error`. -/
inductive Error
  | new (kind : ErrorKind) (msg : String)
  | os (code : Nat)
  deriving DecidableEq, Repr

/-- Peeling a `?`: a bound computation succeeds when its first step does and the rest does. -/
theorem bind_eq_ok {ε α β : Type} {x : Except ε α} {f : α → Except ε β} {b : β} :
    x >>= f = .ok b ↔ ∃ a, x = .ok a ∧ f a = .ok b := by
  cases x <;> simp [bind, Except.bind]

theorem map_eq_ok {ε α β : Type} {x : Except ε α} {f : α → β} {b : β} :
    x.map f = .ok b ↔ ∃ a, x = .ok a ∧ f a = b := by
  cases x <;> simp [Except.map]

/-- A bound computation fails when its first step does, or when that succeeds and the rest fails. -/
theorem bind_eq_error {ε α β : Type} {x : Except ε α} {f : α → Except ε β} {e : ε} :
    x >>= f = .error e ↔ x = .error e ∨ ∃ a, x = .ok a ∧ f a = .error e := by
  cases x <;> simp [bind, Except.bind]

theorem map_eq_error {ε α β : Type} {x : Except ε α} {f : α → β} {e : ε} :
    x.map f = .error e ↔ x = .error e := by
  cases x <;> simp [Except.map]

/-- `NTE_EXISTS`: `new_keyset` on a container that already exists. -/
def nteExists : Error := .os 0x8009000F

/-- A certificate, by its DER encoding: `CertContext`'s `==` compares `to_der()`. -/
structure Cert where
  der : List UInt8
  deriving DecidableEq, Repr

/-- `CRYPT_KEY_PROV_INFO` as `from_pkcs8` sets it: the container's name (the provider type,
`keep_open` and `KeySpec::key_exchange()` are the same on every call). -/
structure KeyProvInfo where
  container : String
  deriving DecidableEq, Repr

/-- A `CertContext`: the certificate and the key-provider property set on it. -/
structure CertContext where
  cert : Cert
  keyProvInfo : Option KeyProvInfo
  deriving DecidableEq, Repr

/-- `CertAdd`, the two dispositions the code uses. -/
inductive CertAdd
  | always
  | replaceExisting
  deriving DecidableEq, Repr

/-- `cert_context::HashAlgorithm`. -/
inductive HashAlgorithm
  | sha1
  | sha256
  | sha384
  | sha512
  deriving DecidableEq, Repr

/-- A private key, as the provider stores it. -/
structure Key where
  material : List UInt8
  deriving DecidableEq, Repr

/-- A UTF-16 unit of a Windows `OsStr`: a Unicode scalar value, or an unpaired surrogate. -/
inductive OsChar
  | scalar (c : Char)
  | surrogate (unit : Nat)
  deriving DecidableEq, Repr

/-- `OsStr` / `PathBuf`. -/
abbrev OsStr := List OsChar

/-- The `&str` `s` as an `OsStr`. -/
def OsStr.ofChars (s : List Char) : OsStr := s.map .scalar

/-- Everything the platform decides that `schannel.rs` does not: each call's outcome, as a
function of what the call is given. -/
structure Platform where
  /-- `usize::BITS`. -/
  usizeBits : Nat
  /-- `Memory::new()`. -/
  memoryNew : Except Error Unit
  /-- Whether `CertAddCertificateContextToStore` succeeds, given the store's contents. -/
  addCert : List CertContext → CertContext → Except Error Unit
  /-- `CertContext::from_pem`. -/
  certFromPem : List UInt8 → Except Error Cert
  /-- The key `import_pkcs8_pem` decodes from a PKCS#8 PEM blob. -/
  importPkcs8Pem : List UInt8 → Except Error Key
  /-- `set_key_prov_info()...set()`. -/
  setKeyProvInfo : CertContext → Except Error Unit
  /-- `private_key().silent(true).compare_key(true).acquire().is_ok()`. -/
  acquirePrivateKey : CertContext → Bool
  /-- `fingerprint(algo)`. -/
  fingerprint : CertContext → HashAlgorithm → Except Error (List UInt8)
  /-- `sign_hash_algorithms()`: the certificate's signature and hash algorithms, as text. -/
  signHashAlgorithms : CertContext → Except Error (List Char)
  /-- `CertStore::open_local_machine` (`true`) or `open_current_user` (`false`): the store's
  certificates in enumeration order. -/
  openStore : Bool → List Char → Except Error (List CertContext)
  /-- `CertStore::open_file`. -/
  openFile : OsStr → Except Error (List CertContext)
  /-- `PfxImportOptions::new().password(pass).import(buf)`. -/
  pfxImport : List UInt8 → List Char → Except Error (List CertContext)

/-- `store.add_cert(cert, how)` on a store holding `store`: the context added, and the store
after.  `ReplaceExisting` first drops the contexts of the same certificate. -/
def CertStore.addCert (plat : Platform) (store : List CertContext) (ctx : CertContext) :
    CertAdd → Except Error (CertContext × List CertContext)
  | .always => (plat.addCert store ctx).map fun _ => (ctx, store ++ [ctx])
  | .replaceExisting =>
    (plat.addCert store ctx).map fun _ => (ctx, store.filter (·.cert ≠ ctx.cert) ++ [ctx])

theorem CertStore.addCert_always_eq_ok {plat : Platform} {store : List CertContext}
    {ctx : CertContext} {r : CertContext × List CertContext} :
    CertStore.addCert plat store ctx .always = .ok r ↔
      plat.addCert store ctx = .ok () ∧ r = (ctx, store ++ [ctx]) := by
  simp only [CertStore.addCert, map_eq_ok]
  constructor
  · rintro ⟨⟨⟩, h, rfl⟩; exact ⟨h, rfl⟩
  · rintro ⟨h, rfl⟩; exact ⟨(), h, rfl⟩

/-- A platform on which every call succeeds: a certificate is its PEM text, a key its blob, and
every store is empty. -/
def okPlatform : Platform where
  usizeBits := 64
  memoryNew := .ok ()
  addCert _ _ := .ok ()
  certFromPem pem := .ok ⟨pem⟩
  importPkcs8Pem key := .ok ⟨key⟩
  setKeyProvInfo _ := .ok ()
  acquirePrivateKey _ := true
  fingerprint _ _ := .ok []
  signHashAlgorithms _ := .ok "RSA/SHA256".toList
  openStore _ _ := .ok []
  openFile _ := .ok []
  pfxImport _ _ := .ok []

/-! ### The key provider -/

/-- The provider's key containers: absent, or present with the key imported into it, if any. -/
structure KeyProvider where
  containers : String → Option (Option Key)

namespace KeyProvider

/-- `name` now maps to `c`; every other container is as it was. -/
def set (p : KeyProvider) (name : String) (c : Option Key) : KeyProvider :=
  ⟨fun n => if n = name then some c else p.containers n⟩

@[simp] theorem set_containers_self (p : KeyProvider) (name : String) (c : Option Key) :
    (p.set name c).containers name = some c := by
  simp [set]

@[simp] theorem set_containers_of_ne (p : KeyProvider) {name n : String} (c : Option Key)
    (h : n ≠ name) : (p.set name c).containers n = p.containers n := by
  simp [set, h]

/-- `AcquireOptions::acquire`: opens the named container, if there is one.  Only an absent
container makes it fail: the provider's other failures of this call are not modelled. -/
def acquire (p : KeyProvider) (name : String) : Bool := (p.containers name).isSome

/-- `new_keyset(true).acquire`: creates the named container, empty; fails only when it exists
(the provider's other failures of this call are not modelled). -/
def newKeyset (p : KeyProvider) (name : String) : Except Error KeyProvider :=
  if p.acquire name then .error nteExists else .ok (p.set name none)

/-- The container `from_pkcs8` binds to: `acquire`, and `new_keyset` when that fails. -/
def openOrCreate (p : KeyProvider) (name : String) : Except Error KeyProvider :=
  if p.acquire name then .ok p else p.newKeyset name

/-- `container.import().import_pkcs8_pem(key)`: the key replaces what the container held. -/
def importKey (p : KeyProvider) (name : String) (k : Key) : KeyProvider := p.set name (some k)

/-- In one call with no other in between, `acquire` failing means `new_keyset` succeeds. -/
theorem openOrCreate_ok (p : KeyProvider) (name : String) :
    p.openOrCreate name = .ok (if p.acquire name then p else p.set name none) := by
  unfold openOrCreate newKeyset
  split_ifs <;> rfl

end KeyProvider

/-! ### The crate's wrappers -/

/-- `Identity { cert }`.  `store` is the store `cert` lives in (a `CertContext` keeps its store
open), with what it holds when the identity is returned. -/
structure Identity where
  cert : CertContext
  store : List CertContext
  deriving DecidableEq, Repr

/-- `Certificate::from_pem`. -/
def Certificate.fromPem (plat : Platform) (buf : List UInt8) : Except Error Cert :=
  match fromUtf8 buf with
  | some s => plat.certFromPem s.bytes
  | none => .error (.new .invalidInput "PEM representation contains non-UTF-8 bytes")

end NativeTls
