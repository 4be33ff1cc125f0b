import Strongroom.Ledger.Bootstrap
import Strongroom.Service.Basic
import Strongroom.Text.Decimal
import Strongroom.Text.Quoted

/-!
# Configuration

The service is configured by variables. A variable with a blank value counts as unset. Numbers that
cannot be read give way to their defaults, while half a certificate or half a bootstrap is an error.
-/

namespace Strongroom

/-- The data directory unless another one is configured. -/
def dataRoot : String := "/data"

/-- The path of a file in a directory. -/
def joinPath (directory file : String) : String :=
  if directory.isEmpty || directory.toList.getLast? = some '/' then directory ++ file
  else directory ++ "/" ++ file

/-- The path of the ledger in a data directory. -/
def ledgerPath (root : String) : String :=
  joinPath root "ledger.redb"

/-- Why a configuration is refused. -/
inductive ConfigError where
  /-- The variable is not base64. -/
  | notBase64 (name : String)
  /-- The variable is unset although another one is set. -/
  | missing (name other : String)
  deriving DecidableEq, Repr

/-- An error in words. -/
def ConfigError.describe : ConfigError → String
  | notBase64 name => name ++ " must be base64"
  | missing name other => name ++ " is required when " ++ other ++ " is set"

/-- Where the certificate of the service and its key are. -/
structure TlsPaths where
  /-- The path of the certificate. -/
  cert : String
  /-- The path of the key. -/
  key : String
  deriving DecidableEq, Repr

/-- The first administrator. -/
structure AdminSettings where
  name : String
  password : String
  publicKey : Bytes
  /-- The private key of the supergroup, sealed for it. -/
  groupKey : Bytes
  deriving DecidableEq, Repr

/-- The settings of an administrator for the eyes of a developer: its name only. -/
def AdminSettings.debug (a : AdminSettings) : String :=
  "AdminSettings \x7b name: " ++ Text.quoted a.name ++ ", .. \x7d"

/-- What the ledger is bootstrapped with. -/
structure BootstrapSettings where
  /-- The public key of the supergroup. -/
  superPublicKey : Bytes
  /-- The private key of the supergroup, sealed by its creator. -/
  superSealedKey : Bytes
  /-- The first administrator, if there is to be one. -/
  admin : Option AdminSettings
  deriving DecidableEq, Repr

namespace BootstrapSettings

/-- The first administrator with the hash of its password. -/
def bootstrapAdmin (hash : Bytes → Except CryptoError Bytes) (a : AdminSettings) :
    Except CryptoError BootstrapAdmin := do
  let passwordHash ← hash (utf8 a.password)
  .ok ⟨⟨a.name, .admin, a.publicKey, passwordHash⟩, a.groupKey⟩

/-- The bootstrap that the settings stand for. -/
def toBootstrap (hash : Bytes → Except CryptoError Bytes) (b : BootstrapSettings) :
    Except CryptoError Bootstrap := do
  match b.admin with
  | none => .ok ⟨b.superPublicKey, b.superSealedKey, none⟩
  | some a =>
    let admin ← bootstrapAdmin hash a
    .ok ⟨b.superPublicKey, b.superSealedKey, some admin⟩

end BootstrapSettings

/-- A configuration. -/
structure Config where
  dataDirectory : String
  /-- The address that the service listens at. -/
  host : String
  /-- The port that the service listens at. -/
  port : Nat
  /-- The time limits of sessions. -/
  session : SessionConfig
  /-- The certificate, if connections are to be encrypted. -/
  tls : Option TlsPaths
  /-- What the ledger is bootstrapped with, if it is to be. -/
  bootstrap : Option BootstrapSettings
  deriving DecidableEq, Repr

/-- A source of variables. -/
abbrev Variables := String → Option String

namespace Variables

variable (vars : Variables)

/-- The value of a variable that is set and not blank. -/
def value (name : String) : Option String :=
  (vars name).filter fun v => !(Text.trim v).isEmpty

/-- The duration in milliseconds that a variable gives in seconds; zero is none. -/
def duration (name : String) (default : Nat) : Nat :=
  match (vars.value name).bind (Decimal.ofTrimmed? UInt64.size) with
  | some (seconds + 1) => 1000 * (seconds + 1)
  | _ => default

/-- The bytes that a variable gives in base64. -/
def base64 (name : String) : Except ConfigError (Option Bytes) :=
  match vars.value name with
  | none => .ok none
  | some text =>
    match Base64.decode? (Text.trim text) with
    | some bytes => .ok (some bytes)
    | none => .error (.notBase64 name)

/-- What must be given because another variable is set. -/
def needed {α : Type} (name other : String) : Option α → Except ConfigError α
  | some a => .ok a
  | none => .error (.missing name other)

/-- The time limits of sessions. -/
def session : SessionConfig :=
  let standard : SessionConfig := {}
  { idleTimeout := vars.duration "SESSION_IDLE_TIMEOUT_SECS" standard.idleTimeout
    sweepInterval := vars.duration "SESSION_SWEEP_INTERVAL_SECS" standard.sweepInterval
    lookupTimeout := vars.duration "CREDENTIAL_LOOKUP_TIMEOUT_SECS" standard.lookupTimeout }

/-- The port. -/
def port : Nat :=
  ((vars.value "PORT").bind (Decimal.ofTrimmed? UInt16.size)).getD 8080

/-- The certificate and its key, which must be given together. -/
def tls : Except ConfigError (Option TlsPaths) :=
  match vars.value "TLS_CERT_PATH", vars.value "TLS_KEY_PATH" with
  | some cert, some key => .ok (some ⟨cert, key⟩)
  | some _, none => .error (.missing "TLS_KEY_PATH" "TLS_CERT_PATH")
  | none, some _ => .error (.missing "TLS_CERT_PATH" "TLS_KEY_PATH")
  | none, none => .ok none

/-- The first administrator, with everything that belongs to it. -/
def admin : Except ConfigError (Option AdminSettings) :=
  match vars.value "BOOTSTRAP_ADMIN_NAME" with
  | none => .ok none
  | some name => do
    let password ← needed "BOOTSTRAP_ADMIN_PASSWORD" "BOOTSTRAP_ADMIN_NAME"
      (vars.value "BOOTSTRAP_ADMIN_PASSWORD")
    let publicKey ← needed "BOOTSTRAP_ADMIN_PUBLIC_KEY" "BOOTSTRAP_ADMIN_NAME"
      (← vars.base64 "BOOTSTRAP_ADMIN_PUBLIC_KEY")
    let groupKey ← needed "BOOTSTRAP_ADMIN_GROUP_KEY" "BOOTSTRAP_ADMIN_NAME"
      (← vars.base64 "BOOTSTRAP_ADMIN_GROUP_KEY")
    .ok (some ⟨name, password, publicKey, groupKey⟩)

/-- What the ledger is bootstrapped with; without a public key of the supergroup nothing is. -/
def bootstrap : Except ConfigError (Option BootstrapSettings) := do
  match ← vars.base64 "SUPER_GROUP_PUBLIC_KEY" with
  | none => .ok none
  | some superPublicKey =>
    let superSealedKey ← needed "SUPER_GROUP_SEALED_KEY" "SUPER_GROUP_PUBLIC_KEY"
      (← vars.base64 "SUPER_GROUP_SEALED_KEY")
    let admin ← vars.admin
    .ok (some ⟨superPublicKey, superSealedKey, admin⟩)

end Variables

namespace Config

/-- The configuration that variables describe. -/
def load (vars : Variables) : Except ConfigError Config := do
  let tls ← vars.tls
  let bootstrap ← vars.bootstrap
  .ok {
    dataDirectory := (vars.value "DATA_DIR").getD dataRoot
    host := (vars.value "HOST").getD "0.0.0.0"
    port := vars.port
    session := vars.session
    tls, bootstrap }

/-- The address that the service binds to. -/
def bindAddress (c : Config) : String :=
  c.host ++ ":" ++ toString c.port

end Config

end Strongroom
