import Strongroom.Document.Schemas

/-!
# The operations of the service

One operation for every method of every route, but for the document itself.
-/

namespace Strongroom.Document

/-- The name in a path. -/
def pathName (what : String) : Parameter := ⟨"name", .path, .text, what ++ " name"⟩

/-- A reply that carries a plain text. -/
def plainAnswer (status : Nat) (description : String) : Answer :=
  ⟨status, .one "Response", description⟩

/-- The operations on sessions. -/
def sessionOperations : List Operation :=
  [{ route := .auth, method := "POST", tag := "Session", name := "authenticate"
     summary := some "Open a session."
     details := some ("The reply carries the session id in \x60Session-ID\x60 and the first " ++
       "session key\nin \x60X-AUTH-KEY\x60. Unknown principals and wrong passwords are " ++
       "reported\nidentically.")
     request := some "Auth"
     answers := [plainAnswer 200 "Session opened", plainAnswer 400 "Name or password missing",
       plainAnswer 401 "Authentication failed", plainAnswer 503 "Credential lookup unavailable"] },
   { route := .logout, method := "POST", tag := "Session", name := "logout"
     summary := some "Close the caller's session immediately."
     answers := [plainAnswer 200 "", plainAnswer 401 ""] }]

/-- The operations on secrets. -/
def secretOperations : List Operation :=
  [{ route := .keys, method := "GET", tag := "Keys", name := "list_accessible"
     summary := some "Every secret the caller can open, one message per wrap."
     answers := [⟨200, .many "Key", ""⟩, plainAnswer 401 ""] },
   { route := .keys, method := "POST", tag := "Keys", name := "create_secret"
     summary := some "Store a new secret."
     details := some ("\x60secret\x60 is the sealed payload, \x60key\x60 the per-secret key " ++
       "sealed for the\nsupergroup and \x60userKey\x60 the same key sealed for the caller. " ++
       "\x60userKey\x60 may\nonly be omitted by supergroup members.")
     request := some "Key"
     answers := [plainAnswer 200 "", plainAnswer 400 "", plainAnswer 409 ""] },
   { route := .key, method := "GET", tag := "Keys", name := "fetch_secret"
     summary := some "One secret, if the caller holds a wrap of it."
     parameters := [pathName "Secret"]
     answers := [⟨200, .many "Key", ""⟩, plainAnswer 403 "Caller holds no wrap of this secret"] },
   { route := .key, method := "DELETE", tag := "Keys", name := "delete_secret"
     parameters := [pathName "Secret"]
     answers := [plainAnswer 200 "", plainAnswer 404 ""] },
   { route := .keyGroup, method := "PUT", tag := "Keys", name := "assign_to_group"
     summary := some "Grant a group access. \x60key\x60 is the per-secret key sealed for the group."
     parameters := [pathName "Secret", ⟨"group", .path, .text, "Group name"⟩]
     request := some "Key"
     answers := [plainAnswer 200 "", plainAnswer 404 ""] },
   { route := .keyGroup, method := "DELETE", tag := "Keys", name := "revoke_from_group"
     parameters := [pathName "Secret", ⟨"group", .path, .text, "Group name"⟩]
     answers := [plainAnswer 200 "", plainAnswer 404 ""] },
   { route := .keyUser, method := "PUT", tag := "Keys", name := "assign_to_principal"
     summary := some "Grant one principal access. Any holder of the secret may share it."
     parameters := [pathName "Secret", ⟨"user", .path, .text, "Principal name"⟩]
     request := some "Key"
     answers := [plainAnswer 200 "", plainAnswer 403 ""] },
   { route := .keyUser, method := "DELETE", tag := "Keys", name := "revoke_from_principal"
     parameters := [pathName "Secret", ⟨"user", .path, .text, "Principal name"⟩]
     answers := [plainAnswer 200 "", plainAnswer 404 ""] },
   { route := .adminKeys, method := "GET", tag := "Keys", name := "list_secrets"
     summary := some "Every secret and its recipients."
     answers := [⟨200, .many "Listing", ""⟩, plainAnswer 403 ""] }]

/-- The operations on groups. -/
def groupOperations : List Operation :=
  [{ route := .groups, method := "GET", tag := "Groups", name := "list_groups"
     summary := some "Group names and public keys."
     answers := [⟨200, .many "Key", ""⟩] },
   { route := .groups, method := "POST", tag := "Groups", name := "create_group"
     summary := some "Create a group from a client-generated key pair."
     details := some ("\x60groupPub\x60 is the public key, \x60groupPriv\x60 the private key " ++
       "sealed for the\nsupergroup.")
     parameters := [⟨"admin", .query, .flag, "Create an administrator group."⟩]
     request := some "Key"
     answers := [plainAnswer 200 "", plainAnswer 400 "", plainAnswer 409 ""] },
   { route := .group, method := "GET", tag := "Groups", name := "get_group"
     summary := some "A group's public key."
     details := some ("\x60groupPriv\x60 holds the group private key sealed for the caller when " ++
       "the\ncaller is a member, or sealed for the supergroup when the caller is a\nsupergroup " ++
       "member. Everyone else only sees the public key.")
     parameters := [pathName "Group"]
     answers := [⟨200, .one "Key", ""⟩, plainAnswer 404 ""] },
   { route := .group, method := "DELETE", tag := "Groups", name := "delete_group"
     parameters := [pathName "Group"]
     answers := [plainAnswer 200 "", plainAnswer 403 "Built-in group", plainAnswer 404 ""] }]

/-- The operations on principals. -/
def principalOperations : List Operation :=
  [{ route := .users, method := "POST", tag := "Users", name := "register"
     summary := some "Register an administrator or client. New principals join \x60default\x60."
     request := some "User"
     answers := [plainAnswer 200 "", plainAnswer 400 "", plainAnswer 409 ""] },
   { route := .user, method := "GET", tag := "Users", name := "get_user"
     summary := some "A principal's profile and public key."
     parameters := [pathName "Principal"]
     answers := [⟨200, .one "User", ""⟩, plainAnswer 404 ""] },
   { route := .user, method := "DELETE", tag := "Users", name := "delete_user"
     summary := some "Delete a principal and its direct wraps. Callers cannot delete themselves."
     parameters := [pathName "Principal"]
     answers := [plainAnswer 200 "", plainAnswer 403 "", plainAnswer 404 ""] },
   { route := .userGroup, method := "PUT", tag := "Users", name := "reassign"
     summary := some "Move a principal to another group."
     details := some ("\x60name\x60 is the target group and \x60groupPriv\x60 the group private " ++
       "key sealed\nfor the principal. \x60groupPriv\x60 is ignored for \x60default\x60.")
     parameters := [pathName "Principal"]
     request := some "Key"
     answers := [plainAnswer 200 "", plainAnswer 400 "", plainAnswer 404 ""] }]

/-- The probes. -/
def healthOperations : List Operation :=
  [{ route := .health, method := "GET", tag := "Health", name := "health"
     summary := some "Health check endpoint handler."
     details := some "Returns 200 if all checks pass, 503 if any check fails."
     answers := [⟨200, .one "ReadyResponse", "Service is healthy"⟩,
       ⟨503, .one "ReadyResponse", "Service is unhealthy"⟩] },
   { route := .live, method := "GET", tag := "Health", name := "liveness"
     summary := some "Liveness probe handler."
     details := some ("Always returns 200 if the process is running.\nDoes not check " ++
       "dependencies - use readiness for that.")
     answers := [⟨200, .one "HealthResponse", "Service is alive"⟩] },
   { route := .ready, method := "GET", tag := "Health", name := "readiness"
     summary := some "Readiness probe handler."
     details := some "Returns 200 only if the ledger is open and bootstrapped."
     answers := [⟨200, .one "ReadyResponse", "Service is ready"⟩,
       ⟨503, .one "ReadyResponse", "Service is not ready"⟩] }]

/-- All operations. -/
def operations : List Operation :=
  sessionOperations ++ secretOperations ++ groupOperations ++ principalOperations ++
    healthOperations

/-- Every method of every route is documented, but for the document itself. -/
theorem operations_cover_routes :
    operations.map (fun o => (o.route, o.method)) ++ [(.document, "GET")] =
      Http.Route.all.flatMap fun r => r.actions.map fun (method, _) => (r, method) := by
  rfl

/-- The parts of the interface. -/
def tags : List Tag :=
  [⟨"Session", "Login and logout"⟩, ⟨"Keys", "Secret storage, grants and revocations"⟩,
    ⟨"Groups", "Group key pairs"⟩, ⟨"Users", "Principal administration"⟩,
    ⟨"Health", "Liveness and readiness probes"⟩]

/-- The name of the service. -/
def title : String := "keyhaven-server"

/-- The version of the service. -/
def version : String := "0.1.0"

/-- What the service is. -/
def description : String :=
  "Session authentication and sealed-key distribution for group-shared secrets."

/-- The operations under a pattern. -/
def operationsAt (pattern : String) : List Operation :=
  operations.filter fun o => o.route.pattern = pattern

/-- The patterns that have operations, in order. -/
def patterns : List String :=
  sortedBy id ((Http.Route.all.filter fun r => operations.any (·.route = r)).map (·.pattern))

/-- The operations under a pattern as a member, in the order that methods have in such documents. -/
def pathMember (pattern : String) : String × Bytes :=
  let present := operationsAt pattern
  let ordered := ["GET", "PUT", "POST", "DELETE"].flatMap fun m => present.filter (·.method = m)
  (pattern, Json.object (ordered.map (·.toMember)))

/-- The document. -/
def toJson : Bytes :=
  Json.object [("openapi", Json.text "3.1.0"),
    ("info", Json.object [("title", Json.text title), ("description", Json.text description),
      ("version", Json.text version)]),
    ("paths", Json.object (patterns.map pathMember)),
    ("components", Json.object
      [("schemas", Json.object ((sortedBy (·.name) schemas).map (·.toMember)))]),
    ("tags", Json.list (tags.map (·.toJson)))]

end Strongroom.Document
