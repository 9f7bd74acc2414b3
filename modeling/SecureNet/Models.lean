import Mathlib.Data.Int.Notation
import SecureNet.Library.Hex

/-!
# Wire types

The types of `shared/src/models.rs` and `shared/src/errors.rs` that cross service boundaries,
and the JSON values of the vault's untyped bodies. Times are nanoseconds: integers since the Unix
epoch for `chrono::DateTime<Utc>` and `time::OffsetDateTime`, natural numbers for the monotonic
clock `std::time::Instant`.
-/

namespace SecureNet

/-- `Duration::from_secs` in nanoseconds. -/
def seconds (n : ℕ) : ℕ := n * 1000000000

structure CertBundle where
  certPem : String
  keyPem : String
  caPem : String
  expiresAt : ℤ
  serial : String
  deriving DecidableEq

/-- Whole seconds until expiry, truncated towards zero, or 0 once expired. -/
def CertBundle.ttlSecs (b : CertBundle) (now : ℤ) : ℕ :=
  (max ((b.expiresAt - now).tdiv (seconds 1)) 0).toNat

lemma CertBundle.ttlSecs_of_expiresAt {b : CertBundle} {now : ℤ} {k : ℕ}
    (h : b.expiresAt = now + seconds k) : b.ttlSecs now = k := by
  unfold ttlSecs seconds at *
  have hdiff : b.expiresAt - now = k * ((1 * 1000000000 : ℕ) : ℤ) := by omega
  rw [hdiff, Int.mul_tdiv_cancel _ (by decide)]
  omega

lemma CertBundle.expiresAt_of_ttlSecs {b : CertBundle} {now : ℤ} (h : 0 < b.ttlSecs now) :
    now + seconds (b.ttlSecs now) ≤ b.expiresAt ∧
      b.expiresAt < now + seconds (b.ttlSecs now + 1) := by
  unfold ttlSecs seconds at *
  have hpos : 0 ≤ b.expiresAt - now := by
    by_contra hneg
    have hle : 0 ≤ (-(b.expiresAt - now)).tdiv ((1 * 1000000000 : ℕ) : ℤ) :=
      Int.tdiv_nonneg (by omega) (by omega)
    rw [Int.neg_tdiv] at hle
    omega
  rw [Int.tdiv_eq_ediv_of_nonneg hpos] at *
  omega

lemma CertBundle.ttlSecs_pos_iff {b : CertBundle} {now : ℤ} :
    0 < b.ttlSecs now ↔ now + seconds 1 ≤ b.expiresAt := by
  constructor
  · intro hpos
    have hexpires := (CertBundle.expiresAt_of_ttlSecs hpos).1
    have hsecond : seconds 1 ≤ seconds (b.ttlSecs now) := Nat.mul_le_mul_right _ hpos
    omega
  · intro hle
    have hnonneg : 0 ≤ b.expiresAt - now := by
      unfold seconds at hle
      omega
    unfold ttlSecs seconds at *
    rw [Int.tdiv_eq_ediv_of_nonneg hnonneg]
    omega

structure UnsealRequest where
  serviceName : String
  machineId : String
  tpmQuote : String
  nonce : String
  akPub : String
  deriving DecidableEq

structure UnsealResponse where
  bundle : CertBundle
  deriving DecidableEq

structure IssuanceLogEntry where
  timestamp : ℤ
  serviceName : String
  machineId : String
  certSerial : String
  expiresAt : ℤ
  granted : Bool
  reason : Option String
  deriving DecidableEq

inductive AppError
  | authMissingToken
  | authInvalidToken (reason : String)
  | authBadCredentials
  | tlsConfig (reason : String)
  | certParse (reason : String)
  | vaultUnreachable (reason : String)
  | vaultRejected (reason : String)
  | serviceSealed
  | tpmError (reason : String)
  | notFound (what : String)
  | upstream (reason : String)
  | internal (reason : String)
  deriving DecidableEq

inductive Value
  | null
  | bool (b : Bool)
  | number (q : Rat)
  | string (s : String)
  | array (vs : List Value)
  | object (fields : List (String × Value))

/-- `Value::get` with a string index: only objects have fields. -/
def Value.get (v : Value) (key : String) : Option Value :=
  match v with
  | .object fields => fields.lookup key
  | _ => none

def Value.asStr : Value → Option String
  | .string s => some s
  | _ => none

lemma except_bind_ok {ε α β : Type} {x : Except ε α} {f : α → Except ε β} {b : β} :
    (x >>= f) = .ok b ↔ ∃ a, x = .ok a ∧ f a = .ok b := by
  cases x <;> simp [bind, Except.bind]

end SecureNet
