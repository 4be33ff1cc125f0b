import Strongroom.Document.Basic

/-!
# The schemas of the messages
-/

namespace Strongroom.Document

/-- The schemas of the messages and of what the probes report. -/
def schemas : List Schema :=
  [{ name := "Auth"
     description := "Login request."
     form := .record [{ name := "name" }, { name := "password" }] },
   { name := "HealthChecks"
     description := "Individual health check results."
     form := .record [
       { name := "service", description := some "Whether the service process is running.",
         required := true },
       { name := "data_dir", shape := .optionalText,
         description := some "Data directory availability (if configured)." },
       { name := "ledger", required := true,
         description := some "Ledger status (\"ok\", \"uninitialized\" or \"unavailable\")." },
       { name := "sessions", shape := .count, description := some "Number of live sessions.",
         required := true }] },
   { name := "HealthResponse"
     description := "Simple health check response for liveness probes."
     form := .record [{ name := "status", required := true }] },
   { name := "Key"
     description := ("Secret and group key material.\n\nDepending on the route this carries a " ++
       "new secret, a wrap for an existing\nsecret, or a group's key pair.")
     form := .record [
       { name := "name", description := some "Secret or group name." },
       { name := "secret", description := some "Secret payload sealed under the per-secret key." },
       { name := "key", description := some ("Per-secret key sealed for the supergroup, or for " ++
         "the recipient of a grant.") },
       { name := "userKey",
         description := some "Per-secret key sealed for the creating principal." },
       { name := "groupPub", description := some "Group public key." },
       { name := "groupPriv", description := some ("Group private key, sealed for the " ++
         "supergroup or for a principal.") },
       { name := "path", description := some "Optional client-side path metadata." }] },
   { name := "Listing"
     description := "Admin view of one secret and who it is wrapped for."
     form := .record [{ name := "name" }, { name := "createdBy" },
       { name := "groups", shape := .texts }, { name := "users", shape := .texts }] },
   { name := "ReadyResponse"
     description := "Health check response with individual component status."
     form := .record [
       { name := "status", description := some "Overall health status (\"ok\" or \"degraded\").",
         required := true },
       { name := "checks", shape := .schema "HealthChecks", required := true,
         description := some "Individual health checks and their results." }] },
   { name := "Response"
     description := "Plain status message, used for acknowledgements and errors."
     form := .record [{ name := "string" }] },
   { name := "Role"
     description := ("Kind of a principal or group.\n\n## Role Hierarchy\n\n- \x60Admin\x60 - " ++
       "Manages principals, grants and revocations\n- \x60Client\x60 - Holds and fetches the " ++
       "secrets granted to it")
     form := .choice ["admin", "client"] },
   { name := "User"
     description := "Principal profile. Also used to register administrators and clients."
     form := .record [{ name := "name" }, { name := "admin", shape := .flag }, { name := "group" },
       { name := "password", description := some "Only ever present in registration requests." },
       { name := "key", description := some "Principal public key." }] }]

end Strongroom.Document
