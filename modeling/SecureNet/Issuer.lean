import SecureNet.Models

/-!
# Certificate issuance

`vault-service/src/issuer.rs`. What `rcgen` computes (name parsing, PEM parsing, signatures) is
a parameter; the certificate it returns carries the parameters that it signed.
-/

namespace SecureNet

/-- Lifetime of a leaf certificate in seconds (`CERT_TTL_SECS`). -/
def certTtlSecs : ℕ := 300

structure KeyPair where
  pem : String
  deriving DecidableEq

inductive SanType
  | dnsName (name : String)
  | ipAddress (address : String)
  deriving DecidableEq

inductive KeyUsagePurpose
  | digitalSignature
  | keyEncipherment
  | keyCertSign
  | crlSign
  deriving DecidableEq

inductive ExtendedKeyUsagePurpose
  | serverAuth
  | clientAuth
  deriving DecidableEq

structure CertificateParams where
  subjectAltNames : List SanType
  commonName : String
  organizationName : String
  notBefore : ℤ
  notAfter : ℤ
  isCa : Bool
  keyUsages : List KeyUsagePurpose
  extendedKeyUsages : List ExtendedKeyUsagePurpose
  /-- The x509 serial number, an integer: `SerialNumber::from(u64)` keeps its value. -/
  serialNumber : Option ℕ
  deriving DecidableEq

structure Certificate where
  params : CertificateParams
  pem : String
  deriving DecidableEq

/-- The calls into `rcgen` that can fail. -/
structure Rcgen where
  newParams : List String → Option (List SanType)
  fromCaCertPem : String → Option CertificateParams
  selfSigned : CertificateParams → KeyPair → Option String
  signedBy : CertificateParams → KeyPair → Certificate → KeyPair → Option String

/-- `anyhow`'s `context`: the outermost text is what `to_string` shows. -/
def context {α : Type} (result : Option α) (text : String) : Except String α :=
  match result with
  | some a => .ok a
  | none => .error text

lemma context_ok_iff {α : Type} {result : Option α} {text : String} {a : α} :
    context result text = .ok a ↔ result = some a := by
  cases result with
  | none => simp [context]
  | some b => simp [context]

structure Issuer where
  caCertPem : String
  caKeyPair : KeyPair

/-- The leaf certificate together with the bundle that is sent out. -/
structure Issued where
  certificate : Certificate
  bundle : CertBundle
  deriving DecidableEq

namespace Issuer

def leafParams (serviceName : String) (subjectAltNames : List SanType) (serial : UInt64)
    (now : ℤ) : CertificateParams where
  subjectAltNames := subjectAltNames ++ [.ipAddress "127.0.0.1"]
  commonName := serviceName ++ ".securenet"
  organizationName := "SecureNet"
  notBefore := now
  notAfter := now + seconds certTtlSecs
  isCa := false
  keyUsages := [.digitalSignature, .keyEncipherment]
  extendedKeyUsages := [.serverAuth, .clientAuth]
  serialNumber := some serial.toNat

/-- `format!("{serial:016x}")`: sixteen digits hold every `u64`. -/
def serialHex (serial : UInt64) : String := Hex.numeral 16 serial.toNat

/-- `issue` after `SERIAL_COUNTER.fetch_add` returned `serial`. `now` is the first clock reading,
`utcNow` the one after signing, `leafKey` what `KeyPair::generate` returns. -/
def issue (rc : Rcgen) (self : Issuer) (serviceName : String) (serial : UInt64)
    (now : ℤ) (leafKey : Option KeyPair) (utcNow : ℤ) : Except String Issued := do
  let names ← context
    (rc.newParams [serviceName, serviceName ++ ".securenet.svc.cluster.local", "localhost"])
    "failed to build cert params"
  let params := leafParams serviceName names serial now
  let leafKey ← context leafKey "failed to generate leaf key pair"
  let caParams ← context (rc.fromCaCertPem self.caCertPem) "failed to parse CA cert PEM"
  let caPem ← context (rc.selfSigned caParams self.caKeyPair) "failed to reconstruct CA cert"
  let leafPem ← context (rc.signedBy params leafKey ⟨caParams, caPem⟩ self.caKeyPair)
    "CA signing failed"
  return {
    certificate := ⟨params, leafPem⟩
    bundle := {
      certPem := leafPem
      keyPem := leafKey.pem
      caPem := self.caCertPem
      expiresAt := utcNow + seconds certTtlSecs
      serial := serialHex serial } }

theorem issue_ok {rc : Rcgen} {self : Issuer} {serviceName : String} {serial : UInt64}
    {now utcNow : ℤ} {leafKey : Option KeyPair} {c : Issued}
    (h : issue rc self serviceName serial now leafKey utcNow = .ok c) :
    (∃ names, c.certificate.params = leafParams serviceName names serial now) ∧
      c.bundle.serial = serialHex serial ∧ c.bundle.certPem = c.certificate.pem ∧
      c.bundle.expiresAt = utcNow + seconds certTtlSecs := by
  unfold issue at h
  obtain ⟨names, -, h⟩ := except_bind_ok.mp h
  obtain ⟨key, -, h⟩ := except_bind_ok.mp h
  obtain ⟨caParams, -, h⟩ := except_bind_ok.mp h
  obtain ⟨caPem, -, h⟩ := except_bind_ok.mp h
  obtain ⟨leafPem, -, h⟩ := except_bind_ok.mp h
  cases h
  exact ⟨⟨names, rfl⟩, rfl, rfl, rfl⟩

def canIssue (rc : Rcgen) (self : Issuer) (serviceName : String) (serial : UInt64) (now : ℤ)
    (leafKey : Option KeyPair) : Bool :=
  Option.isSome do
    let names ← rc.newParams
      [serviceName, serviceName ++ ".securenet.svc.cluster.local", "localhost"]
    let key ← leafKey
    let caParams ← rc.fromCaCertPem self.caCertPem
    let caPem ← rc.selfSigned caParams self.caKeyPair
    rc.signedBy (leafParams serviceName names serial now) key ⟨caParams, caPem⟩ self.caKeyPair

lemma issue_of_canIssue {rc : Rcgen} {self : Issuer} {serviceName : String} {serial : UInt64}
    {now : ℤ} {leafKey : Option KeyPair}
    (h : canIssue rc self serviceName serial now leafKey = true) (utcNow : ℤ) :
    ∃ c, issue rc self serviceName serial now leafKey utcNow = .ok c := by
  obtain ⟨leafPem, h⟩ := Option.isSome_iff_exists.mp h
  simp only [Option.bind_eq_bind, Option.bind_eq_some_iff] at h
  obtain ⟨names, hnames, key, hkey, caParams, hca, caPem, hself, hleaf⟩ := h
  unfold issue
  rw [hnames, hkey, hca]
  simp only [context, bind, Except.bind, hself, hleaf]
  exact ⟨_, rfl⟩

lemma issue_serialNumber {rc : Rcgen} {self : Issuer} {serviceName : String} {serial : UInt64}
    {now utcNow : ℤ} {leafKey : Option KeyPair} {c : Issued}
    (h : issue rc self serviceName serial now leafKey utcNow = .ok c) :
    c.certificate.params.serialNumber = some serial.toNat := by
  obtain ⟨⟨names, hp⟩, -⟩ := issue_ok h
  rw [hp, leafParams]

lemma serialHex_inj {m n : UInt64} (h : serialHex m = serialHex n) : m = n :=
  UInt64.toNat_inj.mp (Hex.numeral_inj m.toNat_lt n.toNat_lt h)

end Issuer

end SecureNet
