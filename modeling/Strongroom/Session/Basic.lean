import Strongroom.Crypto.Error
import Strongroom.Identity
import Strongroom.Ledger.Table
import Strongroom.RequestMac

/-!
# Sessions

A session is opened by a password and kept up by keys that serve once. A request that is
authenticated under the live key retires it, and no further request is accepted until the next key
has been drawn. A session that has been idle for the timeout is expired: it accepts nothing any more
and goes away at its next request or at the next sweep.

Times are milliseconds of a clock that never goes back. Random values are drawn outside and handed
in; a draw that collides with a value it must differ from moves on to a neighbouring one.
-/

namespace Strongroom

/-- A key that authenticates one request. -/
abbrev SessionKey := Octets 32

/-- A key for the eyes of a developer, who must not see it. -/
def SessionKey.debug (_ : SessionKey) : String := "SessionKey(..)"

/-- Why the sessions refuse. -/
inductive SessionError where
  /-- The principal is unknown or the password is wrong, nobody learns which. -/
  | authenticationFailed
  /-- The session is unknown or expired, or the code does not fit. -/
  | sessionInvalid
  /-- The credentials could not be looked up; a later attempt may succeed. -/
  | credentialsUnavailable
  deriving DecidableEq, Repr

/-- An error in words. -/
def SessionError.describe : SessionError → String
  | authenticationFailed => "authentication failed"
  | sessionInvalid => "session invalid"
  | credentialsUnavailable => "credential verifier unavailable"

/-- The time limits of sessions, in milliseconds. -/
structure SessionConfig where
  /-- The idle time after which a session is expired. -/
  idleTimeout : Nat := 300000
  /-- The time between two sweeps. -/
  sweepInterval : Nat := 60000
  /-- The longest time that a look-up of credentials may take. -/
  lookupTimeout : Nat := 5000
  deriving DecidableEq, Repr, Inhabited

/-- A session. -/
structure Session where
  /-- Who opened it. -/
  identity : Identity
  /-- The key of the next request; none after a request until the next key has been drawn. -/
  key : Option SessionKey
  /-- The key that was live before. -/
  retired : Option SessionKey
  /-- When the session was opened, used or given a key for the last time. -/
  lastActive : Nat
  deriving DecidableEq

namespace Session

/-- Whether a session has been idle for the timeout. -/
def isExpired (s : Session) (now idleTimeout : Nat) : Bool :=
  idleTimeout ≤ now - s.lastActive

/-- The `n`-th neighbour of a key: its first byte is `n` higher. -/
def neighbour (key : SessionKey) (n : Nat) : SessionKey :=
  ⟨key.bytes.modifyHead (· + UInt8.ofNat n), by simp [key.length_eq]⟩

/-- The key that a draw stands for: the first of the drawn key and its two neighbours that is
neither the live nor the retired one. -/
def freshKey (s : Session) (draw : SessionKey) : SessionKey :=
  let taken (key : SessionKey) : Bool := s.key = some key || s.retired = some key
  if !taken (neighbour draw 0) then neighbour draw 0
  else if !taken (neighbour draw 1) then neighbour draw 1
  else neighbour draw 2

/-- Replaces the live key by a fresh one. -/
def rotate (s : Session) (now : Nat) (draw : SessionKey) : SessionKey × Session :=
  let key := s.freshKey draw
  (key, { s with key := some key, retired := s.key <|> s.retired, lastActive := now })

/-- Retires the live key. -/
def retire (s : Session) (now : Nat) : Session :=
  { s with key := none, retired := s.key, lastActive := now }

/-- Whether a code is that of a request under the live key. -/
def accepts (s : Session) (mac context body : Bytes) : Bool :=
  s.key.any fun key => RequestMac.verify key.bytes mac context body

/-- The session of someone who has just shown the credentials; it has no key yet. -/
def opened (identity : Identity) (now : Nat) : Session :=
  ⟨identity, none, none, now⟩

end Session

/-- All sessions by their ids. -/
structure Sessions where
  /-- The sessions. -/
  table : Table UInt64 Session
  /-- The time limits. -/
  config : SessionConfig

/-- How a look-up of credentials ended. -/
inductive Lookup where
  /-- It failed or took too long. -/
  | unavailable
  /-- It was answered; there may be no such principal. -/
  | answered (credentials : Option Credentials)

/-- A look-up that would take `delay` and then end as `outcome`, cut off at a time limit: the time
that it takes and how it ends. -/
def Lookup.within (limit delay : Nat) (outcome : Lookup) : Nat × Lookup :=
  if limit < delay then (limit, .unavailable) else (delay, outcome)

/-- What a new session is known by. -/
structure NewSession where
  id : UInt64
  /-- Its first key. -/
  key : SessionKey
  /-- Who opened it. -/
  identity : Identity
  deriving DecidableEq

/-- Whether a password fits a stored hash; the hash may be malformed. -/
abbrev PasswordCheck := (password stored : Bytes) → Except CryptoError Bool

namespace Sessions

/-- No sessions. -/
def empty (config : SessionConfig) : Sessions := ⟨.empty, config⟩

/-- The number of sessions. -/
def size (s : Sessions) : Nat := s.table.size

/-- The hash that a password is checked against when there is no such principal, so that the check
takes as long as any. -/
def decoyHash : Bytes := List.replicate 48 0x5a

/-- The id that a draw stands for: the first number from the draw on that is not zero and not the id
of a session. -/
def freshId (s : Sessions) (draw : UInt64) : UInt64 :=
  let candidates := (List.range (s.table.size + 2)).map fun i => draw + UInt64.ofNat i
  (candidates.find? fun id => id ≠ 0 && !s.table.contains id).getD draw

/-- Opens a session for an identity. -/
def start (s : Sessions) (now : Nat) (identity : Identity) (drawnId : UInt64)
    (drawnKey : SessionKey) : NewSession × Sessions :=
  let id := s.freshId drawnId
  let (key, session) := (Session.opened identity now).rotate now drawnKey
  (⟨id, key, identity⟩, { s with table := s.table.insert id session })

/-- Opens a session for someone whose password fits. An unknown principal, a wrong password and a
malformed hash are refused alike. -/
def authenticate (s : Sessions) (check : PasswordCheck) (now : Nat) (lookup : Lookup)
    (password : Bytes) (drawnId : UInt64) (drawnKey : SessionKey) :
    Except SessionError NewSession × Sessions :=
  match lookup with
  | .unavailable => (.error .credentialsUnavailable, s)
  | .answered credentials =>
    let stored := (credentials.map (·.passwordHash)).getD decoyHash
    match credentials, check password stored with
    | some c, .ok true =>
      let (new, s) := s.start now c.identity drawnId drawnKey
      (.ok new, s)
    | _, _ => (.error .authenticationFailed, s)

/-- Draws the next key of a session. -/
def nextKey (s : Sessions) (now : Nat) (id : UInt64) (drawnKey : SessionKey) :
    Except SessionError SessionKey × Sessions :=
  match s.table.get? id with
  | none => (.error .sessionInvalid, s)
  | some session =>
    let (key, session) := session.rotate now drawnKey
    (.ok key, { s with table := s.table.insert id session })

/-- Authenticates a request by its code under the live key of a session. If the code fits, the key
is retired, or, if the session is expired, the session is removed. If it does not, nothing changes.
-/
def validate (s : Sessions) (now : Nat) (id : UInt64) (mac context body : Bytes) :
    Except SessionError Identity × Sessions :=
  match s.table.get? id with
  | none => (.error .sessionInvalid, s)
  | some session =>
    if !session.accepts mac context body then (.error .sessionInvalid, s)
    else if session.isExpired now s.config.idleTimeout then
      (.error .sessionInvalid, { s with table := s.table.erase id })
    else (.ok session.identity, { s with table := s.table.insert id (session.retire now) })

/-- Closes a session and tells whether it was there. -/
def logout (s : Sessions) (id : UInt64) : Bool × Sessions :=
  (s.table.contains id, { s with table := s.table.erase id })

/-- Removes the expired sessions and counts them. -/
def sweep (s : Sessions) (now : Nat) : Nat × Sessions :=
  let kept := s.table.filter fun _ session => !session.isExpired now s.config.idleTimeout
  (s.table.size - kept.size, { s with table := kept })

end Sessions

end Strongroom
