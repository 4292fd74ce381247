import NativeTls.Platform

/-!
# The established session: `peer_certificate` and `tls_server_end_point`

After the handshake `schannel.rs` asks the platform's stream three things: whether it is the
server's end, its own certificate and the peer's.  Both certificate reads may fail with
`SEC_E_NO_CREDENTIALS`, which the code takes to mean that there is no certificate, not that
something went wrong (`noCredentials`).

`tls_server_end_point` is the channel-binding token: the fingerprint of the server's certificate
under the hash its signature algorithm calls for, SHA-256 standing in for anything weaker.  The
code finds that hash in the last `/`-separated field of `sign_hash_algorithms()`, with
`rsplit('/').next().unwrap()`.

* `rsplitFirst_append` and `rsplitFirst_of_not_mem`: that field is the text after the last `/`,
  or all of it, and the `unwrap` never panics;
* `tlsServerEndPoint_spec`: the token is read from the server's certificate, is none when there
  is no certificate, and otherwise is its fingerprint under the hash the algorithm's last field
  names, by the table of lines 530–535.
-/

namespace NativeTls

/-- `SEC_E_NO_CREDENTIALS`. -/
def secENoCredentials : Nat := 0x8009030E

/-- `tls_stream::TlsStream`, through what `schannel.rs` asks of it. -/
structure InnerTlsStream where
  /-- `is_server()`. -/
  isServer : Bool
  /-- `certificate()`: the certificate this end presented. -/
  certificate : Except Error CertContext
  /-- `peer_certificate()`. -/
  peerCertificate : Except Error CertContext

/-- `TlsStream<S>(tls_stream::TlsStream<S>)`. -/
structure TlsStream where
  inner : InnerTlsStream

/-- The match of lines 505–508 and 523–527: `SEC_E_NO_CREDENTIALS` is no certificate. -/
def noCredentials (cert : Except Error CertContext) : Except Error (Option CertContext) :=
  match cert with
  | .ok cert => .ok (some cert)
  | .error e => if e = .os secENoCredentials then .ok none else .error e

/-- `TlsStream::peer_certificate`. -/
def TlsStream.peerCertificate (self : TlsStream) : Except Error (Option CertContext) :=
  noCredentials self.inner.peerCertificate

/-- `s.rsplit(c).next()`: the text after the last `c`, or all of it. -/
def rsplitFirst (c : Char) (s : List Char) : Option (List Char) := (s.splitOn c).getLast?

/-- Lines 530–535: the hash of the channel binding, for the last field of the certificate's
signature algorithms. -/
def hashForSignature (alg : List Char) : Option HashAlgorithm :=
  if alg = "MD5".toList ∨ alg = "SHA1".toList ∨ alg = "SHA256".toList then some .sha256
  else if alg = "SHA384".toList then some .sha384
  else if alg = "SHA512".toList then some .sha512
  else none

/-- Lines 517–521: the server's certificate, this end's own on the server and the peer's on the
client. -/
def TlsStream.serverCertificate (self : TlsStream) : Except Error CertContext :=
  if self.inner.isServer then self.inner.certificate else self.inner.peerCertificate

/-- `TlsStream::tls_server_end_point`; `none` is a panic of `unwrap`. -/
def TlsStream.tlsServerEndPoint (plat : Platform) (self : TlsStream) :
    Option (Except Error (Option (List UInt8))) :=
  match noCredentials self.serverCertificate with
  | .error e => some (.error e)
  | .ok none => some (.ok none)
  | .ok (some cert) =>
    match plat.signHashAlgorithms cert with
    | .error e => some (.error e)
    | .ok signatureAlgorithms =>
      (rsplitFirst '/' signatureAlgorithms).map fun alg =>
        match hashForSignature alg with
        | none => .ok none
        | some hash => (plat.fingerprint cert hash).map some

/-! ### The last field -/

/-- Splitting at a separator splits the two sides apart. -/
theorem splitOn_append_cons (c : Char) (xs ys : List Char) :
    (xs ++ c :: ys).splitOn c = xs.splitOn c ++ ys.splitOn c := by
  induction xs with
  | nil => simp [List.splitOn]
  | cons a xs ih =>
    simp only [List.splitOn] at ih ⊢
    rw [List.cons_append, List.splitOnP_cons, List.splitOnP_cons, ih]
    split_ifs
    · rfl
    · obtain ⟨hd, tl, hs⟩ := List.exists_cons_of_ne_nil (List.splitOnP_ne_nil (· == c) xs)
      rw [hs]
      rfl

theorem rsplitFirst_of_not_mem {c : Char} {s : List Char} (h : c ∉ s) :
    rsplitFirst c s = some s := by
  have hn : ∀ y ∈ s, ¬ (y == c) := fun y hy hyc => h (beq_iff_eq.mp hyc ▸ hy)
  rw [rsplitFirst, List.splitOn, List.splitOnP_eq_single _ s hn]
  rfl

/-- **`rsplit('/').next()` is the text after the last `/`**, so its `unwrap` never panics. -/
theorem rsplitFirst_append {c : Char} (pre : List Char) {alg : List Char} (h : c ∉ alg) :
    rsplitFirst c (pre ++ c :: alg) = some alg := by
  have hs := rsplitFirst_of_not_mem h
  rw [rsplitFirst] at hs ⊢
  rw [splitOn_append_cons, List.getLast?_append, hs]
  rfl

theorem rsplitFirst_isSome (c : Char) (s : List Char) : (rsplitFirst c s).isSome := by
  rw [rsplitFirst, List.getLast?_isSome]
  exact List.splitOnP_ne_nil _ s

/-! ### The channel binding -/

theorem tlsServerEndPoint_isSome (plat : Platform) (st : TlsStream) :
    (st.tlsServerEndPoint plat).isSome := by
  unfold TlsStream.tlsServerEndPoint
  split
  · rfl
  · rfl
  · split
    · rfl
    · rw [Option.isSome_map']; exact rsplitFirst_isSome _ _

/-- With a certificate whose signature algorithms end in the field `alg`, the token is what
`hashForSignature alg` calls for. -/
theorem tlsServerEndPoint_of_field {plat : Platform} {st : TlsStream} {c : CertContext}
    {alg : List Char} (hcert : st.serverCertificate = .ok c) (hslash : '/' ∉ alg)
    (halg : plat.signHashAlgorithms c = .ok alg ∨
      ∃ pre, plat.signHashAlgorithms c = .ok (pre ++ '/' :: alg)) :
    st.tlsServerEndPoint plat = some (match hashForSignature alg with
      | none => .ok none
      | some hash => (plat.fingerprint c hash).map some) := by
  obtain ⟨algs, halgs, hsplit⟩ : ∃ algs, plat.signHashAlgorithms c = .ok algs ∧
      rsplitFirst '/' algs = some alg := by
    rcases halg with halg | ⟨pre, halg⟩
    · exact ⟨_, halg, rsplitFirst_of_not_mem hslash⟩
    · exact ⟨_, halg, rsplitFirst_append pre hslash⟩
  simp only [TlsStream.tlsServerEndPoint, noCredentials, hcert, halgs, hsplit, Option.map_some']

theorem hashForSignature_of_not_mem {alg : List Char}
    (h : alg ∉ ["MD5".toList, "SHA1".toList, "SHA256".toList, "SHA384".toList, "SHA512".toList]) :
    hashForSignature alg = none := by
  simp only [List.mem_cons, List.mem_singleton, not_or, List.not_mem_nil] at h
  obtain ⟨h₁, h₂, h₃, h₄, h₅, -⟩ := h
  rw [hashForSignature, if_neg (not_or.mpr ⟨h₁, not_or.mpr ⟨h₂, h₃⟩⟩), if_neg h₄, if_neg h₅]

/-- **The channel binding is the fingerprint of the server's certificate**, its own on the server
and the peer's on the client, under the hash the last `/`-field of its signature algorithms names:
SHA-256 for MD5, SHA1 and SHA256, SHA-384 for SHA384 and SHA-512 for SHA512; any other field gives
none.  No certificate (`SEC_E_NO_CREDENTIALS`) gives none, the other errors of the two reads are
returned as they are, and the `unwrap` never panics. -/
theorem tlsServerEndPoint_spec (plat : Platform) (st : TlsStream) :
    let cert := if st.inner.isServer then st.inner.certificate else st.inner.peerCertificate
    (cert = .error (.os secENoCredentials) → st.tlsServerEndPoint plat = some (.ok none)) ∧
    (∀ e, cert = .error e → e ≠ .os secENoCredentials →
      st.tlsServerEndPoint plat = some (.error e)) ∧
    (∀ c e, cert = .ok c → plat.signHashAlgorithms c = .error e →
      st.tlsServerEndPoint plat = some (.error e)) ∧
    (∀ c alg, cert = .ok c → '/' ∉ alg →
      (plat.signHashAlgorithms c = .ok alg ∨
        ∃ pre, plat.signHashAlgorithms c = .ok (pre ++ '/' :: alg)) →
      (alg ∈ ["MD5".toList, "SHA1".toList, "SHA256".toList] →
        st.tlsServerEndPoint plat = some ((plat.fingerprint c .sha256).map some)) ∧
      (alg = "SHA384".toList →
        st.tlsServerEndPoint plat = some ((plat.fingerprint c .sha384).map some)) ∧
      (alg = "SHA512".toList →
        st.tlsServerEndPoint plat = some ((plat.fingerprint c .sha512).map some)) ∧
      (alg ∉ ["MD5".toList, "SHA1".toList, "SHA256".toList, "SHA384".toList, "SHA512".toList] →
        st.tlsServerEndPoint plat = some (.ok none))) ∧
    (st.tlsServerEndPoint plat).isSome := by
  intro cert
  have hcert : st.serverCertificate = cert := rfl
  refine ⟨fun h => ?_, fun e h hne => ?_, fun c e h he => ?_,
    fun c alg h hslash halg => ?_, tlsServerEndPoint_isSome plat st⟩
  · simp [TlsStream.tlsServerEndPoint, noCredentials, hcert, h]
  · simp [TlsStream.tlsServerEndPoint, noCredentials, hcert, h, hne]
  · simp [TlsStream.tlsServerEndPoint, noCredentials, hcert, h, he]
  rw [tlsServerEndPoint_of_field (hcert.trans h) hslash halg]
  refine ⟨fun hmem => ?_, fun h => by rw [h]; rfl, fun h => by rw [h]; rfl,
    fun hmem => by rw [hashForSignature_of_not_mem hmem]⟩
  simp only [List.mem_cons, List.mem_singleton, List.not_mem_nil, or_false] at hmem
  rcases hmem with rfl | rfl | rfl <;> rfl

end NativeTls
