import Strongroom.Ledger.Secrets
import Strongroom.Message
import Strongroom.Text.Base64

/-!
# What messages show of the ledger
-/

namespace Strongroom

/-- The profile of a principal: neither its password hash nor its sealed group key. -/
def Principal.toMessage (p : Principal) : Message.User :=
  { name := p.name, admin := p.kind.isAdmin, group := p.group, key := Base64.encode p.publicKey }

/-- An accessible secret with the key of its wrap. -/
def AccessibleSecret.toMessage (s : AccessibleSecret) : Message.Key :=
  { name := s.name, secret := Base64.encode s.payload, key := Base64.encode s.sealedKey,
    path := s.path.getD "" }

/-- The name of a recipient that is a group. -/
def Recipient.groupName? : Recipient → Option String
  | group name => some name
  | principal _ => none

/-- The name of a recipient that is a principal. -/
def Recipient.principalName? : Recipient → Option String
  | principal name => some name
  | group _ => none

/-- The listing of a secret: its recipients, groups and principals apart. -/
def SecretSummary.toMessage (s : SecretSummary) : Message.Listing :=
  { name := s.name, createdBy := s.createdBy, groups := s.recipients.filterMap (·.groupName?),
    users := s.recipients.filterMap (·.principalName?) }

/-- The name and the public key of a group. -/
def Group.toPublicMessage (g : Group) : Message.Key :=
  { name := g.name, groupPub := Base64.encode g.publicKey }

end Strongroom
