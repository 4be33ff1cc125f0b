import Strongroom.Ledger.Principals
import Strongroom.Service.Basic

/-!
# Logging in
-/

namespace Strongroom.Service

/-- What the ledger answers when it is asked for the credentials of a principal. -/
def credentialsOf (l : Ledger) (name : String) : Lookup :=
  match l.lookup name with
  | .ok credentials => .answered credentials
  | .error _ => .unavailable

/-- Looks up the credentials of a principal, but not for longer than the sessions wait. -/
def lookup (w : Surroundings) (s : Service) (name : String) : Lookup :=
  ((credentialsOf s.ledger name).within s.sessions.config.lookupTimeout w.lookupTime).2

/-- The reply to a login that has opened a session: the id of the session and its first key. -/
def welcome (new : NewSession) : Http.Reply :=
  { Http.Reply.messages [Message.Response.toJson ⟨"authenticated"⟩] with
    sessionId := some new.id, sessionKey := some new.key }

/-- Opens a session for whoever shows a name and the password that belongs to it. -/
def login (w : Surroundings) (s : Service) (r : Http.Request) : Http.Reply × Service :=
  match messageOf r Message.Auth.layout with
  | .error reply => (reply, s)
  | .ok m =>
    if m.name.isEmpty || m.password.isEmpty then
      ((Http.Failure.badRequest "name and password are required").reply, s)
    else
      match s.sessions.authenticate w.passwords.verify w.now (s.lookup w m.name)
        (utf8 m.password) w.sessionId w.sessionKey with
      | (.error e, sessions) => ((Http.Failure.ofSession e).reply, { s with sessions })
      | (.ok new, sessions) => (welcome new, { s with sessions })

end Strongroom.Service
