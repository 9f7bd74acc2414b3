import SecureNet.Library.Sections
import SecureNet.Tls

/-!
# The chain of outbound connections

`client_config` of `shared/src/tls.rs` parses the text of the leaf with the text of the CA behind
it. No line break is put between the two.
-/

namespace SecureNet

open Hex (Bytes)
open Sections

def certSections (newline : Char → Bool) (decode : List (List Char) → Except String Bytes)
    (unclosed : String) : Format Char String Bytes where
  newline := newline
  start := "-----BEGIN CERTIFICATE-----".toList
  finish := "-----END CERTIFICATE-----".toList
  decode := decode
  unclosed := unclosed
  start_not_finish := by decide
  finish_not_start := by decide

/-- The line rule of `rustls_pemfile`. What breaks a line is left open, and so is how the lines of
a section decode, among them another opening line. A section that is not closed is an error. -/
structure PemRule (T : Rustls) where
  newline : Char → Bool
  decode : List (List Char) → Except String Bytes
  unclosed : String
  certs : ∀ pem, T.certs pem = (certSections newline decode unclosed).read pem.toList

variable {T : Rustls}

abbrev PemRule.format (P : PemRule T) : Format Char String Bytes :=
  certSections P.newline P.decode P.unclosed

/-- The line that the end of `certPem` makes with the first line of `caPem` opens a section exactly
if the latter does. Otherwise the first section of `caPem` has to be opened twice. -/
def PemRule.Joins (P : PemRule T) (certPem caPem : String) : Prop :=
  (P.format.Opens (P.format.lastLine certPem.toList ++ P.format.firstLine caPem.toList) ↔
      P.format.Opens (P.format.firstLine caPem.toList)) ∨
    P.format.Reopened (P.format.laterLines caPem.toList)

lemma mapM_mapErr_ok {results : List (Except String Bytes)} {certs : List Bytes}
    {f : String → AppError} :
    results.mapM (fun r => mapErr r f) = .ok certs ↔ results = certs.map .ok := by
  induction results generalizing certs with
  | nil => cases certs <;> simp [pure, Except.pure]
  | cons r results ih =>
    rw [List.mapM_cons, except_bind_ok]
    constructor
    · rintro ⟨cert, hcert, h⟩
      obtain ⟨rest, hrest, h⟩ := except_bind_ok.mp h
      cases h
      cases r with
      | error e => cases hcert
      | ok b =>
        cases hcert
        rw [ih.mp hrest]
        rfl
    · intro h
      cases certs with
      | nil => cases h
      | cons cert rest =>
        obtain ⟨rfl, hrest⟩ := List.cons.inj h
        exact ⟨cert, rfl, except_bind_ok.mpr ⟨rest, ih.mpr hrest, rfl⟩⟩

lemma parseCertChain_iff (P : PemRule T) {pem : String} {certs : List Bytes} :
    parseCertChain T pem = .ok certs ↔ P.format.read pem.toList = certs.map .ok := by
  unfold parseCertChain
  rw [mapM_mapErr_ok, P.certs]

/-- Nothing is lost behind a text that is empty or ends with a line break. -/
lemma PemRule.joins_of_newline (P : PemRule T) {certPem caPem : String}
    (h : certPem = "" ∨ ∃ text c, certPem.toList = text ++ [c] ∧ P.newline c = true) :
    P.Joins certPem caPem := by
  have hlast : P.format.lastLine certPem.toList = [] := by
    obtain rfl | ⟨text, c, htext, hc⟩ := h
    · rfl
    · rw [htext]
      exact lastLine_of_newline text hc
  left
  rw [hlast, List.nil_append]

/-- Whatever the texts are, the leaf comes first. -/
theorem clientConfig_leaf_first (P : PemRule T) {bundle : CertBundle} {A : List Bytes}
    {config : ClientConfig} (hcert : parseCertChain T bundle.certPem = .ok A)
    (hconfig : clientConfig T bundle = .ok config) : A <+: config.certChain := by
  have hchain := (parseCertChain_iff P).mp (clientConfig_ok hconfig)
  rw [String.toList_append, read_append_of_ok ((parseCertChain_iff P).mp hcert)] at hchain
  obtain ⟨A', rest, hsplit, hA, -⟩ := List.append_eq_map_iff.mp hchain
  have hinj : Function.Injective (Except.ok : Bytes → Except String Bytes) := fun _ _ => Except.ok.inj
  rw [hsplit, ← List.map_injective_iff.mpr hinj hA]
  exact List.prefix_append A' rest

/-- The chain of `client_config` is the leaf chain of `server_config` with the CA list behind it
exactly if the two texts join. -/
theorem clientConfig_chain_iff (P : PemRule T) {bundle : CertBundle} {A B : List Bytes}
    (hcert : parseCertChain T bundle.certPem = .ok A)
    (hca : parseCertChain T bundle.caPem = .ok B) :
    (parseCertChain T (bundle.certPem ++ bundle.caPem) = .ok (A ++ B) ↔
        P.Joins bundle.certPem bundle.caPem) ∧
      (∀ config, clientConfig T bundle = .ok config →
        (config.certChain = A ++ B ↔ P.Joins bundle.certPem bundle.caPem)) ∧
      ∀ server, serverConfig T bundle = .ok server → server.certChain = A := by
  have hjoins : parseCertChain T (bundle.certPem ++ bundle.caPem) = .ok (A ++ B) ↔
      P.Joins bundle.certPem bundle.caPem := by
    rw [parseCertChain_iff P, String.toList_append]
    exact read_append_iff ((parseCertChain_iff P).mp hcert) ((parseCertChain_iff P).mp hca)
  refine ⟨hjoins, ?_, ?_⟩
  · intro config hconfig
    rw [← hjoins, clientConfig_ok hconfig, Except.ok.injEq]
  · intro server hserver
    have hchain := (serverConfig_ok hserver).1
    rw [hcert] at hchain
    exact (Except.ok.inj hchain).symm

section Sample

/-- Two certificates of one byte each. -/
def sampleDecode (body : List (List Char)) : Except String Bytes :=
  if body = ["AQ==".toList] then .ok [1]
  else if body = ["Ag==".toList] then .ok [2]
  else .error "invalid base64"

def samplePem : Rustls :=
  { sampleRustls with
    certs := fun pem =>
      (certSections (fun c => c == '\n' || c == '\r') sampleDecode "section not closed").read
        pem.toList }

def samplePemRule : PemRule samplePem := ⟨_, _, _, fun _ => rfl⟩

/-- A bundle whose leaf ends with the given text. -/
def samplePemBundle (last : String) : CertBundle where
  certPem := "-----BEGIN CERTIFICATE-----\nAQ==\n-----END CERTIFICATE-----" ++ last
  keyPem := "K"
  caPem := "-----BEGIN CERTIFICATE-----\nAg==\n-----END CERTIFICATE-----\n"
  expiresAt := seconds 300
  serial := "0A"

end Sample

theorem clientConfig_chain_iff_terminated :
    ∃ config, clientConfig samplePem (samplePemBundle "\n") = .ok config ∧
      config.certChain = [[1]] ++ [[2]] := by
  have hcert : parseCertChain samplePem (samplePemBundle "\n").certPem = .ok [[1]] := by
    decide +kernel
  have hca : parseCertChain samplePem (samplePemBundle "\n").caPem = .ok [[2]] := by
    decide +kernel
  have hjoins : samplePemRule.Joins (samplePemBundle "\n").certPem (samplePemBundle "\n").caPem :=
    samplePemRule.joins_of_newline (.inr ⟨_, '\n', String.toList_append, rfl⟩)
  have hconfig : clientConfig samplePem (samplePemBundle "\n") =
      .ok ⟨[[2]], [[1], [2]], [75]⟩ := by
    decide +kernel
  refine ⟨⟨[[2]], [[1], [2]], [75]⟩, hconfig, ?_⟩
  exact ((clientConfig_chain_iff samplePemRule hcert hca).2.1 _ hconfig).mpr hjoins

/-- The leaf ends without a line break: the configuration is built, and its chain has lost the
certificate of the CA. -/
theorem clientConfig_chain_unterminated :
    parseCertChain samplePem (samplePemBundle "").certPem = .ok [[1]] ∧
      parseCertChain samplePem (samplePemBundle "").caPem = .ok [[2]] ∧
      clientConfig samplePem (samplePemBundle "") = .ok ⟨[[2]], [[1]], [75]⟩ ∧
      serverConfig samplePem (samplePemBundle "") = .ok ⟨[[1]], [75], some [[2]]⟩ := by
  decide +kernel

end SecureNet
