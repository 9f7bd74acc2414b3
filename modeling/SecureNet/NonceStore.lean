import SecureNet.Library.KeyedStore
import SecureNet.Models

/-!
# Allowlist and nonce store

The state behind attestation in `vault-service/src/attestation_verifier.rs`. Every critical
section of the store's mutex is one function here; the clock readings it takes are arguments.
-/

namespace SecureNet

open Hex (Bytes)
open KeyedStore

structure Allowlist where
  machineIds : List String

/-- The entry "dev" admits every machine. -/
def Allowlist.contains (self : Allowlist) (machineId : String) : Bool :=
  if self.machineIds.any (fun id => id == "dev") then true
  else self.machineIds.any (fun id => id == machineId)

def nonceLifetime : ℕ := seconds 30

abbrev NonceStore := Store Bytes ℕ

namespace NonceStore

def new : NonceStore := ∅

/-- Prunes the expired entries and inserts the nonce. `elapsedAt` is the clock when `retain`
looks at the entry of a nonce, `now` the clock at the insertion. -/
def register (self : NonceStore) (elapsedAt : Bytes → ℕ) (nonce : Bytes)
    (now : ℕ) : NonceStore :=
  (retain (fun n issuedAt => decide (elapsedAt n - issuedAt < nonceLifetime)) self).insert nonce now

def consume (self : NonceStore) (nonce : Bytes) (now : ℕ) : Bool × NonceStore :=
  (match self.lookup nonce with
    | some issuedAt => decide (now - issuedAt < nonceLifetime)
    | none => false,
   self.erase nonce)

lemma lookup_register_self (self : NonceStore) (elapsedAt : Bytes → ℕ) (nonce : Bytes)
    (now : ℕ) : (self.register elapsedAt nonce now).lookup nonce = some now :=
  AList.lookup_insert _

lemma lookup_register_ne {self : NonceStore} {elapsedAt : Bytes → ℕ} {nonce k : Bytes}
    {now t : ℕ} (hk : k ≠ nonce) :
    (self.register elapsedAt nonce now).lookup k = some t ↔
      self.lookup k = some t ∧ elapsedAt k - t < nonceLifetime := by
  rw [register, AList.lookup_insert_ne hk, lookup_retain]
  simp

lemma consume_accepts {self : NonceStore} {nonce : Bytes} {now : ℕ} :
    (self.consume nonce now).1 = true ↔
      ∃ issuedAt, self.lookup nonce = some issuedAt ∧ now - issuedAt < nonceLifetime := by
  unfold consume
  cases self.lookup nonce with
  | none => simp
  | some issuedAt => simp

lemma lookup_consume_self (self : NonceStore) (nonce : Bytes) (now : ℕ) :
    (self.consume nonce now).2.lookup nonce = none := AList.lookup_erase _ _

lemma lookup_consume_ne {self : NonceStore} {nonce k : Bytes} {now : ℕ} (hk : k ≠ nonce) :
    (self.consume nonce now).2.lookup k = self.lookup k := AList.lookup_erase_ne hk

end NonceStore

end SecureNet
