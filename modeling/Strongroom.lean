import Strongroom.Access.Authorizer
import Strongroom.Access.Error
import Strongroom.Access.Header
import Strongroom.Access.Policy
import Strongroom.Bytes
import Strongroom.Config
import Strongroom.Crypto.Aead
import Strongroom.Crypto.Argon2
import Strongroom.Crypto.Argon2Block
import Strongroom.Crypto.Blake2b
import Strongroom.Crypto.ChaCha20
import Strongroom.Crypto.Error
import Strongroom.Crypto.Hmac
import Strongroom.Crypto.Poly1305
import Strongroom.Crypto.Sha256
import Strongroom.Crypto.X25519
import Strongroom.Document.Basic
import Strongroom.Document.Operations
import Strongroom.Document.Schemas
import Strongroom.Envelope
import Strongroom.Http.ContentType
import Strongroom.Http.Percent
import Strongroom.Http.Reply
import Strongroom.Http.Request
import Strongroom.Http.Route
import Strongroom.Http.Target
import Strongroom.Identity
import Strongroom.Json.Magnitude
import Strongroom.Json.Reader
import Strongroom.Json.Record
import Strongroom.Json.Writer
import Strongroom.Ledger.Basic
import Strongroom.Ledger.Bootstrap
import Strongroom.Ledger.Error
import Strongroom.Ledger.Groups
import Strongroom.Ledger.Principals
import Strongroom.Ledger.Record
import Strongroom.Ledger.Secrets
import Strongroom.Ledger.Table
import Strongroom.Message
import Strongroom.Password
import Strongroom.Proofs.Access.Header
import Strongroom.Proofs.Config
import Strongroom.Proofs.Crypto.Aead
import Strongroom.Proofs.Envelope
import Strongroom.Proofs.Envelope.Honest
import Strongroom.Proofs.History
import Strongroom.Proofs.Http.Body
import Strongroom.Proofs.Json.Grammar
import Strongroom.Proofs.Json.Messages
import Strongroom.Proofs.Json.Number
import Strongroom.Proofs.Json.Object
import Strongroom.Proofs.Json.Rendered
import Strongroom.Proofs.Json.Renderings
import Strongroom.Proofs.Json.Skipped
import Strongroom.Proofs.Json.Spelled
import Strongroom.Proofs.Json.Values
import Strongroom.Proofs.Json.Written
import Strongroom.Proofs.Ledger.Accessible
import Strongroom.Proofs.Ledger.Alike
import Strongroom.Proofs.Ledger.Bootstrapped
import Strongroom.Proofs.Ledger.Cascades
import Strongroom.Proofs.Ledger.Command
import Strongroom.Proofs.Ledger.Commuting
import Strongroom.Proofs.Ledger.Effects
import Strongroom.Proofs.Ledger.Escrow
import Strongroom.Proofs.Ledger.Immutable
import Strongroom.Proofs.Ledger.Integrity
import Strongroom.Proofs.Ledger.Lifetimes
import Strongroom.Proofs.Ledger.Membership
import Strongroom.Proofs.Ledger.NamedRows
import Strongroom.Proofs.Ledger.Noninterference
import Strongroom.Proofs.Ledger.Plain
import Strongroom.Proofs.Ledger.ReadPaths
import Strongroom.Proofs.Ledger.Readable
import Strongroom.Proofs.Ledger.Records
import Strongroom.Proofs.Ledger.Refinement
import Strongroom.Proofs.Ledger.Removal
import Strongroom.Proofs.Ledger.Represents
import Strongroom.Proofs.Ledger.Revocation
import Strongroom.Proofs.Ledger.Row
import Strongroom.Proofs.Ledger.SoundRows
import Strongroom.Proofs.Ledger.Transaction
import Strongroom.Proofs.Ledger.Uncorrupted
import Strongroom.Proofs.Ledger.WrapKey
import Strongroom.Proofs.Ledger.WrapNumbers
import Strongroom.Proofs.Ledger.WrapRanges
import Strongroom.Proofs.Ledger.WrapRows
import Strongroom.Proofs.Ledger.Wraps
import Strongroom.Proofs.NameMap
import Strongroom.Proofs.RequestMac
import Strongroom.Proofs.Service.Admission
import Strongroom.Proofs.Service.Answers
import Strongroom.Proofs.Service.Authority
import Strongroom.Proofs.Service.Delivery
import Strongroom.Proofs.Service.Dispatch
import Strongroom.Proofs.Service.Failure
import Strongroom.Proofs.Service.Fields
import Strongroom.Proofs.Service.GroupKeys
import Strongroom.Proofs.Service.Newcomers
import Strongroom.Proofs.Service.Reception
import Strongroom.Proofs.Service.Requests
import Strongroom.Proofs.Service.Rotation
import Strongroom.Proofs.Service.Secrecy
import Strongroom.Proofs.Session.Independence
import Strongroom.Proofs.Session.Keys
import Strongroom.Proofs.Session.Locality
import Strongroom.Proofs.Session.Sweeping
import Strongroom.Proofs.Session.Trace
import Strongroom.Proofs.Session.Validity
import Strongroom.Proofs.Text.Ascii
import Strongroom.Proofs.Text.Base64
import Strongroom.Proofs.Text.Blank
import Strongroom.Proofs.Text.Decimal
import Strongroom.Proofs.Text.Timestamp
import Strongroom.Proofs.Wipe
import Strongroom.RequestMac
import Strongroom.Role
import Strongroom.Service.Basic
import Strongroom.Service.Endpoints
import Strongroom.Service.Handle
import Strongroom.Service.Health
import Strongroom.Service.Login
import Strongroom.Session.Basic
import Strongroom.Session.Timeline
import Strongroom.Text.Base64
import Strongroom.Text.Blank
import Strongroom.Text.Decimal
import Strongroom.Text.Hidden
import Strongroom.Text.Quoted
import Strongroom.Text.Timestamp
import Strongroom.View
import Strongroom.Wipe
