import Strongroom.Http.Reply
import Strongroom.Ledger.Bootstrap
import Strongroom.Service.Basic

/-!
# Health

What the probes report. The service is alive as long as it replies, and it is ready if its ledger
has been set up and its data directory is there.
-/

namespace Strongroom.Service

/-- The outcome of all checks. -/
structure Health where
  /-- Whether the data directory is there, if one is configured. -/
  dataDirectory : Option Bool
  /-- Whether the ledger has been set up. -/
  initialized : Bool
  /-- The number of sessions. -/
  sessions : Nat
  deriving DecidableEq, Repr

/-- Checks the service. -/
def checkHealth (w : Surroundings) (s : Service) : Health :=
  ⟨w.dataDirectory, s.ledger.isInitialized, s.sessions.size⟩

namespace Health

/-- Whether all is well. -/
def isReady (h : Health) : Bool :=
  h.dataDirectory.getD true && h.initialized

/-- The word for the state of the service. -/
def word (h : Health) : String :=
  if h.isReady then "ok" else "degraded"

/-- The outcome of all checks as JSON; the data directory is left out if none is configured. -/
def toJson (h : Health) : Bytes :=
  let checks := [("service", Json.text "ok")] ++
    (h.dataDirectory.toList.map fun there =>
      ("data_dir", Json.text (if there then "ok" else "missing"))) ++
    [("ledger", Json.text (if h.initialized then "ok" else "uninitialized")),
      ("sessions", Json.number h.sessions)]
  Json.object [("status", Json.text h.word), ("checks", Json.object checks)]

/-- The reply to a probe for readiness. -/
def reply (h : Health) : Http.Reply :=
  .json (if h.isReady then 200 else 503) h.toJson

end Health

/-- The reply to a probe for life. -/
def alive : Http.Reply :=
  .json 200 (Json.object [("status", Json.text "ok")])

end Strongroom.Service
