import SecureNet.ServiceBoot

/-!
# The user service

The state and the boot of `user-service/src/main.rs`, which calls no other service, and the health
answers of all three services.
-/

namespace SecureNet

/-- The answer of `GET /health`. -/
structure HealthResponse where
  status : String
  service : String
  version : String
  isSealed : Bool
  certSerial : Option String
  deriving DecidableEq

namespace UserService

/-- A user with the id in its hyphenated form. -/
structure User where
  id : String
  name : String
  email : String
  deriving DecidableEq

def seedUsers : List User :=
  [⟨"550e8400-e29b-41d4-a716-446655440001", "Alice Chen", "alice@securenet.dev"⟩,
    ⟨"550e8400-e29b-41d4-a716-446655440002", "Bob Santos", "bob@securenet.dev"⟩,
    ⟨"550e8400-e29b-41d4-a716-446655440003", "Carol White", "carol@securenet.dev"⟩]

structure AppState where
  users : List User
  certSerial : String
  isSealed : Bool

structure Service where
  boot : BootResult
  state : AppState

def main (T : Rustls) (host : Host) : Except String Service := do
  let vaultUrl := (host.var "VAULT_URL").getD "http://localhost:8003"
  let boot ← run T host vaultUrl
  return ⟨boot, { users := seedUsers, certSerial := boot.bundle.serial, isSealed := false }⟩

def health (state : AppState) : HealthResponse :=
  ⟨"ok", "user-service", "0.1.0", state.isSealed, some state.certSerial⟩

end UserService

def OrderService.health (state : OrderService.AppState) : HealthResponse :=
  ⟨"ok", "order-service", "0.1.0", false, some state.certSerial⟩

def ApiGateway.health (state : ApiGateway.AppState) : Value :=
  .object [("status", .string "ok"), ("service", .string "api-gateway"), ("sealed", .bool false),
    ("cert_serial", .string state.certSerial)]

end SecureNet
