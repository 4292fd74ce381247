import NativeTls.Platform

/-!
# `TlsConnector` and `TlsAcceptor`: protocols, trust roots and the check on the peer

`TlsConnector::new` copies the builder's settings and adds its root certificates to a memory
store, each with `CertAdd::ReplaceExisting`.  `connect` hands the handshake to the platform with
those roots as its certificate store and, depending on two flags, a callback that decides on the
peer's certificate:

* with `accept_invalid_certs`, accept whatever the platform's validation said;
* else with `disable_built_in_roots`, pass the platform's error on unchanged, and otherwise accept
  only a chain that holds one of the roots, byte for byte;
* else install nothing, and the platform's validation stands.

`VerifyCallback.verify` is that decision.  `roots_new` says what the store of roots holds after
`new`: the builder's certificates, compared by their DER, whatever their order and repetitions.
`connect_verify` then reads the decision off the builder alone.

`TlsAcceptor::accept` hands the platform only the protocols and the identity's certificate.  Both
ends enable the protocols `convert_protocols` picks, and `convertProtocols_range` says which: the
range of `PROTOCOLS` between the bounds, and, when `min` lies above `max`, not an error but a list
that ignores one of them.
-/

namespace NativeTls

/-- Modelled from the spec: the crate's `Protocol`, declared in `lib.rs`, in the order of §6. -/
inductive Protocol
  | sslv3
  | tlsv10
  | tlsv11
  | tlsv12
  deriving DecidableEq, Repr

/-- `p as usize`. -/
def Protocol.toNat : Protocol → Nat
  | .sslv3 => 0
  | .tlsv10 => 1
  | .tlsv11 => 2
  | .tlsv12 => 3

/-- `schannel_cred::Protocol`. -/
inductive SchannelProtocol
  | ssl3
  | tls10
  | tls11
  | tls12
  deriving DecidableEq, Repr

/-- `PROTOCOLS`. -/
def protocols : List SchannelProtocol := [.ssl3, .tls10, .tls11, .tls12]

/-- `convert_protocols`: `slice.get(..=max)`, then `slice.get(min..)`, each kept only when it is
in range. -/
def convertProtocols (min max : Option Protocol) : List SchannelProtocol :=
  let protocols := (max.bind fun max =>
    if max.toNat < protocols.length then some (protocols.take (max.toNat + 1)) else none).getD
      protocols
  (min.bind fun min =>
    if min.toNat ≤ protocols.length then some (protocols.drop min.toNat) else none).getD protocols

/-- **The enabled protocols are the range from `min` to `max`** when `min ≤ max`, an absent bound
reaching to that end of `PROTOCOLS`.  A `min` above `max` raises no error: right above it, no
protocol is left; further above, `min` is ignored. -/
theorem convertProtocols_range (min max : Option Protocol) :
    let lo := (min.map Protocol.toNat).getD 0
    let hi := (max.map Protocol.toNat).getD (protocols.length - 1)
    (lo ≤ hi → convertProtocols min max = (protocols.drop lo).take (hi + 1 - lo)) ∧
    (lo = hi + 1 → convertProtocols min max = []) ∧
    (hi + 1 < lo → convertProtocols min max = protocols.take (hi + 1)) := by
  rcases min with _ | ⟨_ | _ | _ | _⟩ <;> rcases max with _ | ⟨_ | _ | _ | _⟩ <;> decide

example : convertProtocols (some .tlsv10) (some .tlsv11) = [.tls10, .tls11] := by decide

/-- Modelled from the spec: the fields of `TlsConnectorBuilder` (declared in `lib.rs`) that
`TlsConnector::new` reads. -/
structure TlsConnectorBuilder where
  identity : Option Identity
  rootCertificates : List CertContext
  minProtocol : Option Protocol
  maxProtocol : Option Protocol
  useSni : Bool
  acceptInvalidHostnames : Bool
  acceptInvalidCerts : Bool
  disableBuiltInRoots : Bool
  alpn : List String

/-- `TlsConnector`. -/
structure TlsConnector where
  cert : Option CertContext
  roots : List CertContext
  minProtocol : Option Protocol
  maxProtocol : Option Protocol
  useSni : Bool
  acceptInvalidHostnames : Bool
  acceptInvalidCerts : Bool
  disableBuiltInRoots : Bool
  alpn : List String

/-- Adding one root, as line 375 does. -/
def addRoot (plat : Platform) (roots : List CertContext) (cert : CertContext) :
    Except Error (List CertContext) :=
  (CertStore.addCert plat roots cert .replaceExisting).map (·.2)

/-- `TlsConnector::new`. -/
def TlsConnector.new (plat : Platform) (builder : TlsConnectorBuilder) :
    Except Error TlsConnector := do
  let cert := builder.identity.map (·.cert)
  plat.memoryNew
  let roots ← builder.rootCertificates.foldlM (addRoot plat) []
  pure { cert, roots
         minProtocol := builder.minProtocol
         maxProtocol := builder.maxProtocol
         useSni := builder.useSni
         acceptInvalidHostnames := builder.acceptInvalidHostnames
         acceptInvalidCerts := builder.acceptInvalidCerts
         disableBuiltInRoots := builder.disableBuiltInRoots
         alpn := builder.alpn }

/-- The check `connect` installs on the peer's certificate. -/
inductive VerifyCallback
  /-- `|_| Ok(())`. -/
  | acceptAll
  /-- No callback: the platform's validation stands. -/
  | builtIn
  /-- The closure of lines 412–431, over a copy of the roots. -/
  | userRoots (roots : List CertContext)

/-- The error of line 427. -/
def untrustedRoot : Error :=
  .new .other "unable to find any user-specified roots in the final cert chain"

/-- What the handshake decides, given the platform's validation `res.result()` and the chain it
built, `res.chain()`. -/
def VerifyCallback.verify : VerifyCallback → Except Error Unit → Option (List CertContext) →
    Except Error Unit
  | .acceptAll, _, _ => .ok ()
  | .builtIn, result, _ => result
  | .userRoots roots, result, chain =>
    match result with
    | .error err => .error err
    | .ok () =>
      match chain with
      | some chain =>
        if chain.any fun cert => roots.any fun rootCert => rootCert.cert == cert.cert then .ok ()
        else .error untrustedRoot
      | none => .error untrustedRoot

/-- What `connect` hands the platform's handshake (lines 396–440): the outbound credential's
protocols and certificate, and `tls_stream::Builder`'s settings. -/
structure HandshakeRequest where
  enabledProtocols : List SchannelProtocol
  cert : Option CertContext
  certStore : List CertContext
  domain : List Char
  useSni : Bool
  acceptInvalidHostnames : Bool
  verifyCallback : VerifyCallback
  applicationProtocols : List String

/-- `TlsConnector::connect` up to `builder.connect(cred, stream)`, which is the platform's. -/
def TlsConnector.connect (self : TlsConnector) (domain : List Char) : HandshakeRequest where
  enabledProtocols := convertProtocols self.minProtocol self.maxProtocol
  cert := self.cert
  certStore := self.roots
  domain := domain
  useSni := self.useSni
  acceptInvalidHostnames := self.acceptInvalidHostnames
  verifyCallback :=
    if self.acceptInvalidCerts then .acceptAll
    else if self.disableBuiltInRoots then .userRoots self.roots
    else .builtIn
  applicationProtocols := self.alpn

/-- Modelled from the spec: the fields of `TlsAcceptorBuilder` (declared in `lib.rs`) that
`TlsAcceptor::new` reads; the server always has an identity. -/
structure TlsAcceptorBuilder where
  identity : Identity
  minProtocol : Option Protocol
  maxProtocol : Option Protocol

/-- `TlsAcceptor`. -/
structure TlsAcceptor where
  cert : CertContext
  minProtocol : Option Protocol
  maxProtocol : Option Protocol

/-- `TlsAcceptor::new`: the identity's certificate, without the rest of its store. -/
def TlsAcceptor.new (builder : TlsAcceptorBuilder) : Except Error TlsAcceptor :=
  .ok { cert := builder.identity.cert
        minProtocol := builder.minProtocol
        maxProtocol := builder.maxProtocol }

/-- What `accept` hands the platform (lines 467–473): the inbound credential. -/
structure AcceptRequest where
  enabledProtocols : List SchannelProtocol
  cert : CertContext

/-- `TlsAcceptor::accept` up to `tls_stream::Builder::new().accept(cred, stream)`. -/
def TlsAcceptor.accept (self : TlsAcceptor) : AcceptRequest where
  enabledProtocols := convertProtocols self.minProtocol self.maxProtocol
  cert := self.cert

/-! ### The store of roots -/

/-- What `new` can do: with `Memory::new` and every add succeeding, it copies the builder's
settings, with the store the adds leave. -/
theorem TlsConnector.new_eq_ok {plat : Platform} {builder : TlsConnectorBuilder}
    {conn : TlsConnector} (h : TlsConnector.new plat builder = .ok conn) :
    ∃ roots, builder.rootCertificates.foldlM (addRoot plat) [] = .ok roots ∧
      conn = { cert := builder.identity.map (·.cert), roots
               minProtocol := builder.minProtocol
               maxProtocol := builder.maxProtocol
               useSni := builder.useSni
               acceptInvalidHostnames := builder.acceptInvalidHostnames
               acceptInvalidCerts := builder.acceptInvalidCerts
               disableBuiltInRoots := builder.disableBuiltInRoots
               alpn := builder.alpn } := by
  obtain ⟨⟨⟩, -, h⟩ := bind_eq_ok.mp h
  obtain ⟨roots, hroots, h⟩ := bind_eq_ok.mp h
  exact ⟨roots, hroots, (Except.ok.inj h).symm⟩

/-- One `ReplaceExisting` add drops the copies of the certificate and appends it: the
certificates the store holds gain exactly that one. -/
theorem addRoot_certs {plat : Platform} {roots r : List CertContext} {cert : CertContext}
    (h : addRoot plat roots cert = .ok r) (c : Cert) :
    (∃ x ∈ r, x.cert = c) ↔ (∃ x ∈ roots, x.cert = c) ∨ cert.cert = c := by
  obtain ⟨⟨_, r'⟩, hadd, rfl⟩ := map_eq_ok.mp h
  obtain ⟨⟨⟩, -, hr⟩ := map_eq_ok.mp hadd
  cases hr
  simp only [List.mem_append, List.mem_filter, List.mem_singleton, decide_eq_true_eq]
  constructor
  · rintro ⟨x, ⟨hx, -⟩ | rfl, rfl⟩
    · exact .inl ⟨x, hx, rfl⟩
    · exact .inr rfl
  · rintro (⟨x, hx, rfl⟩ | rfl)
    · by_cases hc : x.cert = cert.cert
      · exact ⟨cert, .inr rfl, hc.symm⟩
      · exact ⟨x, .inl ⟨hx, hc⟩, rfl⟩
    · exact ⟨cert, .inr rfl, rfl⟩

theorem foldlM_addRoot_certs {plat : Platform} :
    ∀ (certs roots r : List CertContext), certs.foldlM (addRoot plat) roots = .ok r →
      ∀ c, (∃ x ∈ r, x.cert = c) ↔ (∃ x ∈ roots, x.cert = c) ∨ ∃ x ∈ certs, x.cert = c
  | [], roots, r, h, c => by cases h; simp
  | cert :: certs, roots, r, h, c => by
    obtain ⟨roots', h₁, h₂⟩ := bind_eq_ok.mp h
    rw [foldlM_addRoot_certs certs roots' r h₂ c, addRoot_certs h₁ c]
    simp only [List.mem_cons, exists_eq_or_imp, or_assoc]

/-- **The store of roots holds the builder's roots**, compared by DER. -/
theorem roots_new {plat : Platform} {builder : TlsConnectorBuilder} {conn : TlsConnector}
    (h : TlsConnector.new plat builder = .ok conn) (c : Cert) :
    (∃ x ∈ conn.roots, x.cert = c) ↔ ∃ x ∈ builder.rootCertificates, x.cert = c := by
  obtain ⟨roots, hroots, rfl⟩ := TlsConnector.new_eq_ok h
  simpa using foldlM_addRoot_certs _ [] roots hroots c

/-- A builder that pins one root and turns the built-in roots off. -/
def pinnedBuilder : TlsConnectorBuilder where
  identity := none
  rootCertificates := [⟨⟨[1]⟩, none⟩]
  minProtocol := none
  maxProtocol := none
  useSni := true
  acceptInvalidHostnames := false
  acceptInvalidCerts := false
  disableBuiltInRoots := true
  alpn := []

theorem roots_new_pinned :
    ∃ conn, TlsConnector.new okPlatform pinnedBuilder = .ok conn ∧
      ∃ x ∈ conn.roots, x.cert = ⟨[1]⟩ :=
  ⟨_, rfl, (@roots_new okPlatform pinnedBuilder _ rfl ⟨[1]⟩).mpr
    ⟨_, List.mem_singleton_self _, rfl⟩⟩

/-! ### The decision on the peer's certificate -/

/-- Under `disable_built_in_roots` the callback passes the platform's error on, accepts exactly
a validated chain holding one of the roots, and otherwise answers with `untrustedRoot`. -/
theorem VerifyCallback.verify_userRoots (roots : List CertContext) (result : Except Error Unit)
    (chain : Option (List CertContext)) :
    let decision := (VerifyCallback.userRoots roots).verify result chain
    (∀ e, result = .error e → decision = .error e) ∧
    (decision = .ok () ↔
      result = .ok () ∧ ∃ cs, chain = some cs ∧ ∃ c ∈ cs, ∃ r ∈ roots, r.cert = c.cert) ∧
    (result = .ok () → decision = .ok () ∨ decision = .error untrustedRoot) := by
  rcases result with e | ⟨⟩
  · simp [verify]
  · rcases chain with _ | cs
    · simp [verify]
    · simp only [verify, List.any_eq_true, beq_iff_eq]
      split_ifs with hany <;> simp [hany]

/-- **The decision `connect` installs**, read off the builder given to `new`: accept everything
under `accept_invalid_certs`; else under `disable_built_in_roots` pass the platform's error on and
accept exactly a validated chain holding one of the builder's roots, byte for byte, rejecting
every other with `untrustedRoot`; else the platform's validation stands.  Without
`accept_invalid_certs` no peer the platform rejected is accepted. -/
theorem connect_verify {plat : Platform} {builder : TlsConnectorBuilder} {conn : TlsConnector}
    (h : TlsConnector.new plat builder = .ok conn) (domain : List Char)
    (result : Except Error Unit) (chain : Option (List CertContext)) :
    let decision := (conn.connect domain).verifyCallback.verify result chain
    (builder.acceptInvalidCerts → decision = .ok ()) ∧
    (builder.acceptInvalidCerts = false → builder.disableBuiltInRoots →
      (∀ e, result = .error e → decision = .error e) ∧
      (decision = .ok () ↔ result = .ok () ∧
        ∃ cs, chain = some cs ∧ ∃ c ∈ cs, ∃ r ∈ builder.rootCertificates, r.cert = c.cert) ∧
      (result = .ok () → decision = .ok () ∨ decision = .error untrustedRoot)) ∧
    (builder.acceptInvalidCerts = false → builder.disableBuiltInRoots = false →
      decision = result) ∧
    (builder.acceptInvalidCerts = false → result ≠ .ok () → decision ≠ .ok ()) := by
  obtain ⟨roots, hroots, rfl⟩ := TlsConnector.new_eq_ok h
  have hmem c : (∃ r ∈ roots, r.cert = c) ↔ ∃ r ∈ builder.rootCertificates, r.cert = c := by
    simpa using foldlM_addRoot_certs _ [] roots hroots c
  intro decision
  cases hacc : builder.acceptInvalidCerts
  case true => simp [decision, TlsConnector.connect, hacc, VerifyCallback.verify]
  case false =>
    cases hdis : builder.disableBuiltInRoots
    case false => simp [decision, TlsConnector.connect, hacc, hdis, VerifyCallback.verify]
    case true =>
      have hdec : decision = (VerifyCallback.userRoots roots).verify result chain := by
        simp [decision, TlsConnector.connect, hacc, hdis]
      obtain ⟨herr, hok, hother⟩ := VerifyCallback.verify_userRoots roots result chain
      rw [hdec]
      refine ⟨by simp, fun _ _ => ⟨herr, ?_, hother⟩, by simp,
        fun _ hne hd => hne (hok.mp hd).1⟩
      simp only [hok, hmem]

theorem connect_verify_pinned :
    ∃ conn, TlsConnector.new okPlatform pinnedBuilder = .ok conn ∧
      (conn.connect []).verifyCallback.verify (.ok ()) (some pinnedBuilder.rootCertificates) =
        .ok () :=
  ⟨_, rfl, ((@connect_verify okPlatform pinnedBuilder _ rfl [] (.ok ()) _).2.1 rfl rfl).2.1.mpr
    ⟨rfl, _, rfl, _, List.mem_singleton_self _, _, List.mem_singleton_self _, rfl⟩⟩

end NativeTls
