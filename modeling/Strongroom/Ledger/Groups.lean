import Strongroom.Ledger.Basic

/-!
# Groups

Groups are created from key pairs that clients have made. Deleting a group deletes its wraps and
moves its members to the default group.
-/

namespace Strongroom.Ledger

/-- Creates a group. -/
def createGroup (l : Ledger) (now : Timestamp) (name : String) (kind : Role)
    (publicKey sealedPrivateKey : Bytes) : Except Error Ledger := do
  checkName "group" name
  checkPublicKey "group" publicKey
  require (!sealedPrivateKey.isEmpty) .groupPrivateKeyRequired
  require (!(isReserved name || has l.groups name)) (.duplicate (.group name))
  let group : Group := ⟨name, kind, publicKey, sealedPrivateKey, false, now⟩
  .ok { l with groups := l.groups.insert (utf8 name) group.toJson }

/-- A principal back in the default group. -/
def inDefaultGroup (p : Principal) : Principal :=
  { p with group := defaultGroup, sealedGroupKey := none }

/-- Deletes a group and its wraps, and moves its members to the default group. -/
def deleteGroup (l : Ledger) (name : String) : Except Error Ledger := do
  require (!isReserved name) (.builtinGroup name)
  require (has l.groups name) (.notFound (.group name))
  let l := { l with groups := l.groups.erase (utf8 name) }
  let (_, l) ← l.removeWraps none fun wrap => wrap.recipient = .group name
  let principals ← all Principal.layout l.principals
  let members := principals.filter fun p => p.group = name
  .ok { l with
    principals := members.foldl (fun table p =>
      table.insert (utf8 p.name) (inDefaultGroup p).toJson) l.principals }

/-- A group. -/
def getGroup (l : Ledger) (name : String) : Except Error Group :=
  row Group.layout l.groups name (.group name)

/-- All groups. -/
def listGroups (l : Ledger) : Except Error (List Group) :=
  all Group.layout l.groups

end Strongroom.Ledger
