import Strongroom.Proofs.Ledger.Command

/-!
# Operations as transactions

The operations of the ledger are defined as functions that give the changed ledger or an error.
What they stand for is finer.  An operation opens a transaction on a store, reads and writes one row
after another in a working copy, may fail between any two of these steps, and makes its writes last
only by committing them at the end.  Here the operations are written out as such programs
(`Command.steps`), with every check and every write in its place; what has been written before a
failure stays behind in the working copy.

Main statement: running the program of a command on a store, and dropping the working copy behind
it, is executing the command (`perform_steps`),

    perform c.steps l  =  attempt Ledger.execute l c,

so a command that fails leaves the store as it was, however much it had written by then.  The ledger
is arbitrary: none of its rows need be readable.
-/

namespace Strongroom

open Ledger (require has row all checkName checkPublicKey given wrapCounter wrapKey addRow
  inDefaultGroup)

/-! ### Stores and steps -/

/-- What is stored, and the copy that a transaction works on. -/
structure Store where
  /-- The ledger as it was committed last. -/
  committed : Ledger
  /-- The ledger as the transaction sees it. -/
  working : Ledger

/-- A step of a program: it may change the store, and it may fail and leave its changes behind. -/
abbrev Step (α : Type) := ExceptT Ledger.Error (StateM Store) α

namespace Step

/-- Goes on with the result of a check. -/
def check {α : Type} (x : Except Ledger.Error α) : Step α := ExceptT.mk (pure x)

/-- Opens a transaction. -/
def begin : Step Unit := modify fun s => { s with working := s.committed }

/-- The ledger as the transaction sees it. -/
def look : Step Ledger := do return (← get).working

/-- Writes to the working copy. -/
def write (f : Ledger → Ledger) : Step Unit := modify fun s => { s with working := f s.working }

/-- Makes the writes of the transaction last. -/
def commit : Step Unit := modify fun s => { s with committed := s.working }

/-- Runs a program on a store and drops the working copy behind it. -/
def perform {α : Type} (p : Step α) (l : Ledger) : Except Ledger.Error α × Ledger :=
  let (result, s) := p.run.run ⟨l, l⟩
  (result, s.committed)

/-! ### The operations step by step -/

/-- Adds a wrap: first the counter goes up, then the row is written under the new number. -/
def addWrap (w : Wrap) : Step Unit := do
  let number := (← look).lastWrap + 1
  write fun l => { l with counters := l.counters.insert wrapCounter number }
  write fun l => { l with wraps := l.wraps.insert (wrapKey w.secret number) w.toJson }

/-- Removes the rows of some wraps one by one.  After each of them a hook is told which wraps are
gone by now, and it may stop the removal. -/
def removeEach (hook : List Wrap → Except Ledger.Error Unit) (gone : List Wrap) :
    List (Bytes × Wrap) → Step Unit
  | [] => pure ()
  | (key, w) :: doomed => do
    write fun l => { l with wraps := l.wraps.erase key }
    check (hook (gone ++ [w]))
    removeEach hook (gone ++ [w]) doomed

/-- Removes the wraps that pass a test and counts them. -/
def removeWraps (secret : Option String) (remove : Wrap → Bool) : Step Nat := do
  let wraps ← check ((← look).scanWraps secret)
  let doomed := wraps.filter fun (_, wrap) => remove wrap
  removeEach (fun _ => .ok ()) [] doomed
  return doomed.length

/-- Writes principals back in the default group, one by one. -/
def moveMembers : List Principal → Step Unit
  | [] => pure ()
  | p :: members => do
    write fun l => { l with
      principals := l.principals.insert (utf8 p.name) (inDefaultGroup p).toJson }
    moveMembers members

/-- The built-in groups are written before the administrator is looked at. -/
def bootstrap (now : Timestamp) (setup : Bootstrap) : Step Unit := do
  check (checkPublicKey "supergroup" setup.superPublicKey)
  check (require (!setup.superSealedPrivateKey.isEmpty) .supergroupPrivateKeyRequired)
  begin
  let default : Group := ⟨defaultGroup, .client, [], [], true, now⟩
  write fun l => { l with groups := addRow l.groups defaultGroup default.toJson }
  let super : Group :=
    ⟨superGroup, .admin, setup.superPublicKey, setup.superSealedPrivateKey, true, now⟩
  write fun l => { l with groups := addRow l.groups superGroup super.toJson }
  match setup.admin with
  | none => commit
  | some admin =>
    let new := admin.principal
    check (checkName "principal" new.name)
    check (checkPublicKey "principal" new.publicKey)
    let p : Principal := ⟨new.name, .admin, new.publicKey, superGroup,
      given (some admin.sealedGroupKey), new.passwordHash, now⟩
    write fun l => { l with principals := addRow l.principals new.name p.toJson }
    commit

def registerPrincipal (now : Timestamp) (new : NewPrincipal) : Step Unit := do
  check (checkName "principal" new.name)
  check (checkPublicKey "principal" new.publicKey)
  check (require (!new.passwordHash.isEmpty) .passwordRequired)
  begin
  check (require (!has (← look).principals new.name) (.duplicate (.principal new.name)))
  let p : Principal :=
    ⟨new.name, new.kind, new.publicKey, defaultGroup, none, new.passwordHash, now⟩
  write fun l => { l with principals := l.principals.insert (utf8 new.name) p.toJson }
  commit

def createGroup (now : Timestamp) (name : String) (kind : Role)
    (publicKey sealedPrivateKey : Bytes) : Step Unit := do
  check (checkName "group" name)
  check (checkPublicKey "group" publicKey)
  check (require (!sealedPrivateKey.isEmpty) .groupPrivateKeyRequired)
  begin
  check (require (!(isReserved name || has (← look).groups name)) (.duplicate (.group name)))
  let group : Group := ⟨name, kind, publicKey, sealedPrivateKey, false, now⟩
  write fun l => { l with groups := l.groups.insert (utf8 name) group.toJson }
  commit

/-- The group and its wraps are gone before the principals are read. -/
def deleteGroup (name : String) : Step Unit := do
  check (require (!isReserved name) (.builtinGroup name))
  begin
  check (require (has (← look).groups name) (.notFound (.group name)))
  write fun l => { l with groups := l.groups.erase (utf8 name) }
  let _ ← removeWraps none fun wrap => wrap.recipient = .group name
  let principals ← check (all Principal.layout (← look).principals)
  moveMembers (principals.filter fun p => p.group = name)
  commit

/-- The secret is written before its wraps, and each wrap on its own. -/
def createSecret (now : Timestamp) (caller : Identity) (new : NewSecret) : Step Unit := do
  check (checkName "secret" new.name)
  check (require (!isReserved new.name) (.reservedSecret new.name))
  check (require (!new.payload.isEmpty) .payloadRequired)
  check (require (!new.superKey.isEmpty) .supergroupKeyRequired)
  let creatorKey := given new.creatorKey
  check (require (caller.superuser || creatorKey.isSome) .creatorKeyRequired)
  begin
  check (require (!has (← look).secrets new.name) (.duplicate (.secret new.name)))
  let secret : Secret := ⟨new.name, new.payload, caller.name, now⟩
  write fun l => { l with secrets := l.secrets.insert (utf8 new.name) secret.toJson }
  addWrap ⟨new.name, .group superGroup, new.superKey, new.path, now⟩
  match creatorKey with
  | none => commit
  | some key =>
    addWrap ⟨new.name, .principal caller.name, key, new.path, now⟩
    commit

def grant (now : Timestamp) (secret : String) (recipient : Recipient) (sealedKey : Bytes)
    (path : Option String) : Step Unit := do
  check (require (!sealedKey.isEmpty) .sealedKeyRequired)
  begin
  check (require (has (← look).secrets secret) (.notFound (.secret secret)))
  check ((← look).checkRecipient recipient)
  addWrap ⟨secret, recipient, sealedKey, path, now⟩
  commit

def assignToGroup (now : Timestamp) (secret group : String) (sealedKey : Bytes)
    (path : Option String) : Step Unit := do
  check (require (group ≠ defaultGroup) .defaultGroupHoldsNothing)
  grant now secret (.group group) sealedKey path

/-- The wraps are gone before it is seen whether there were any. -/
def revoke (secret : String) (recipient : Recipient) : Step Nat := do
  check (checkName "secret" secret)
  begin
  check (require (has (← look).secrets secret) (.notFound (.secret secret)))
  let removed ← removeWraps (some secret) fun wrap =>
    wrap.secret = secret && wrap.recipient = recipient
  check (require (removed ≠ 0) (.notFound (.wrap secret recipient)))
  commit
  return removed

def revokeFromGroup (secret group : String) : Step Nat := do
  check (require (group ≠ superGroup) .supergroupWrapPermanent)
  revoke secret (.group group)

/-- Deletes a secret after its wraps, with a hook behind the removal of each of them. -/
def deleteSecretWith (hook : List Wrap → Except Ledger.Error Unit) (name : String) :
    Step Unit := do
  check (require (!isReserved name) (.secretNameReserved name))
  begin
  check (require (has (← look).secrets name) (.notFound (.secret name)))
  let doomed ← check ((← look).scanWraps (some name))
  removeEach hook [] doomed
  write fun l => { l with secrets := l.secrets.erase (utf8 name) }
  commit

def reassignPrincipal (principal group : String) (sealedGroupKey : Option Bytes) : Step Unit := do
  let sealedGroupKey := if group = defaultGroup then none else given sealedGroupKey
  check (require (group = defaultGroup || sealedGroupKey.isSome) .sealedGroupKeyRequired)
  begin
  check (require (has (← look).groups group) (.notFound (.group group)))
  let p ← check (row Principal.layout (← look).principals principal (.principal principal))
  let p := { p with group, sealedGroupKey }
  write fun l => { l with principals := l.principals.insert (utf8 principal) p.toJson }
  commit

/-- The row is taken out before it is seen whether there was one. -/
def deletePrincipal (name : String) : Step Unit := do
  begin
  let before ← look
  write fun l => { l with principals := l.principals.erase (utf8 name) }
  check (require (has before.principals name) (.notFound (.principal name)))
  let _ ← removeWraps none fun wrap => wrap.recipient = .principal name
  commit

/-- A transaction that only reads is never committed. -/
def read {α : Type} (f : Ledger → Except Ledger.Error α) : Step α := do
  begin
  check (f (← look))

end Step

/-- The program of a command. -/
def Command.steps : Command → Step Answer
  | .bootstrap now setup => do Step.bootstrap now.1 setup; return .done
  | .registerPrincipal now new => do Step.registerPrincipal now.1 new; return .done
  | .createGroup now name kind publicKey sealedPrivateKey => do
    Step.createGroup now.1 name kind publicKey sealedPrivateKey; return .done
  | .deleteGroup name => do Step.deleteGroup name; return .done
  | .createSecret now caller new => do Step.createSecret now.1 caller new; return .done
  | .assignToGroup now secret group sealedKey path => do
    Step.assignToGroup now.1 secret group sealedKey path; return .done
  | .assignToPrincipal now secret principal sealedKey path => do
    Step.grant now.1 secret (.principal principal) sealedKey path; return .done
  | .revokeFromGroup secret group => return .removed (← Step.revokeFromGroup secret group)
  | .revokeFromPrincipal secret principal =>
    return .removed (← Step.revoke secret (.principal principal))
  | .deleteSecret name => do Step.deleteSecretWith (fun _ => .ok ()) name; return .done
  | .reassignPrincipal principal group sealedGroupKey => do
    Step.reassignPrincipal principal group sealedGroupKey; return .done
  | .deletePrincipal name => do Step.deletePrincipal name; return .done
  | .isInitialized => return .flag (← Step.read fun l => .ok l.isInitialized)
  | .getPrincipal name => return .principal (← Step.read (·.getPrincipal name))
  | .lookup name => return .credentials (← Step.read (·.lookup name))
  | .getGroup name => return .group (← Step.read (·.getGroup name))
  | .listGroups => return .groups (← Step.read (·.listGroups))
  | .fetchAccessible principal => return .accessible (← Step.read (·.fetchAccessible principal))
  | .fetchSecret principal secret =>
    return .accessible (← Step.read (·.fetchSecret principal secret))
  | .canRead principal secret => return .flag (← Step.read (·.canRead principal secret))
  | .listSecrets => return .secrets (← Step.read (·.listSecrets))

/-! ### What a program comes to -/

/-- What is shown of a result and what is committed with it; an error leaves the ledger as it
was. -/
def outcome {β ρ : Type} (base : Ledger) (shows : ρ → β × Ledger) :
    Except Ledger.Error ρ → Except Ledger.Error β × Ledger
  | .ok r => (.ok (shows r).1, (shows r).2)
  | .error e => (.error e, base)

theorem attempt_eq_outcome (l : Ledger) (c : Command) :
    attempt Ledger.execute l c = outcome l id (l.execute c) := by
  rw [attempt]
  cases l.execute c with
  | ok x => rfl
  | error e => rfl

/-- What a hook comes to that is called once for each of some wraps, in turn. -/
def hooked (hook : List Wrap → Except Ledger.Error Unit) (gone : List Wrap) :
    List Wrap → Except Ledger.Error Unit
  | [] => .ok ()
  | w :: doomed => do
    hook (gone ++ [w])
    hooked hook (gone ++ [w]) doomed

theorem hooked_ok (gone doomed : List Wrap) : hooked (fun _ => .ok ()) gone doomed = .ok () := by
  induction doomed generalizing gone with
  | nil => rfl
  | cons w doomed ih => exact ih _

/-- Deletes a secret and its wraps unless a hook stops the deletion. -/
def Ledger.deleteSecretWith (l : Ledger) (hook : List Wrap → Except Error Unit) (name : String) :
    Except Error Ledger := do
  require (!isReserved name) (.secretNameReserved name)
  require (has l.secrets name) (.notFound (.secret name))
  let wraps ← l.scanWraps (some name)
  hooked hook [] (wraps.map (·.2))
  .ok { l with
    wraps := l.wraps.eraseAll (wraps.map (·.1))
    secrets := l.secrets.erase (utf8 name) }

/-- With a hook that never stops it, a secret is deleted as without a hook. -/
theorem Ledger.deleteSecretWith_ok (l : Ledger) (name : String) :
    l.deleteSecretWith (fun _ => .ok ()) name = l.deleteSecret name := by
  rw [deleteSecretWith, deleteSecret]
  refine congrArg _ (funext fun _ => congrArg _ (funext fun _ => ?_))
  rw [removeWraps]
  cases l.scanWraps (some name) with
  | error e => rfl
  | ok wraps =>
    have hall : (wraps.filter fun _ => true) = wraps := List.filter_eq_self.2 fun _ _ => rfl
    simp only [bind, Except.bind, hooked_ok, hall]

theorem Table.eraseAll_nil (t : Table Bytes Bytes) : t.eraseAll [] = t := by
  cases t
  simp [eraseAll, filter]

/-- Removing one row and then others is removing them all. -/
theorem Table.eraseAll_erase (t : Table Bytes Bytes) (key : Bytes) (keys : List Bytes) :
    (t.erase key).eraseAll keys = t.eraseAll (key :: keys) := by
  simp only [eraseAll, erase, filter, List.filter_filter, Table.mk.injEq]
  refine List.filter_congr fun row _ => ?_
  by_cases hkey : row.1 = key
  · simp [hkey]
  · simp [hkey]

/-- A program that goes on in the middle of a transaction comes to an outcome.  What it has written
without committing it is left in the working copy. -/
def Runs {β ρ : Type} (base working : Ledger) (p : Step β) (shows : ρ → β × Ledger)
    (x : Except Ledger.Error ρ) : Prop :=
  ∃ left, p.run.run ⟨base, working⟩ =
    ((outcome base shows x).1, ⟨(outcome base shows x).2, left⟩)

namespace Runs

variable {α β γ ρ : Type} {base working : Ledger} {shows : ρ → β × Ledger}
variable {x : Except Ledger.Error ρ}

theorem perform {p : Step β} (h : Runs base base p shows x) :
    p.perform base = outcome base shows x := by
  obtain ⟨left, h⟩ := h
  rw [Step.perform, h]

/-- A check that fails ends the program, with nothing committed. -/
theorem check {x : Except Ledger.Error α} {q : α → Step β} {y : α → Except Ledger.Error ρ}
    (h : ∀ a, x = .ok a → Runs base working (q a) shows (y a)) :
    Runs base working (Step.check x >>= q) shows (x >>= y) := by
  cases x with
  | ok a => exact h a rfl
  | error e => exact ⟨working, rfl⟩

theorem begin {q : Unit → Step β} (h : Runs base base (q ()) shows x) :
    Runs base working (Step.begin >>= q) shows x :=
  h

theorem look {q : Ledger → Step β} (h : Runs base working (q working) shows x) :
    Runs base working (Step.look >>= q) shows x :=
  h

theorem write {f : Ledger → Ledger} {q : Unit → Step β}
    (h : Runs base (f working) (q ()) shows x) :
    Runs base working (Step.write f >>= q) shows x :=
  h

theorem commit {r : ρ} {shows : ρ → Unit × Ledger} (h : (shows r).2 = working) :
    Runs base working Step.commit shows (.ok r) := by
  subst h
  exact ⟨_, rfl⟩

theorem commit_return {b : β} {r : ρ} (h : shows r = (b, working)) :
    Runs base working (Step.commit >>= fun _ => pure b) shows (.ok r) := by
  refine ⟨working, ?_⟩
  rw [outcome, h]
  rfl

/-- What a program gives back may be dressed up behind it. -/
theorem map {p : Step β} (f : β → γ) (h : Runs base working p shows x) :
    Runs base working (p >>= fun b => pure (f b)) id
      (x.map fun r => (f (shows r).1, (shows r).2)) := by
  obtain ⟨left, h⟩ := h
  refine ⟨left, ?_⟩
  rw [ExceptT.run_bind, StateT.run_bind, h]
  cases x with
  | ok r => rfl
  | error e => rfl

/-! ### Many writes -/

theorem addWrap {w : Wrap} {q : Unit → Step β}
    (h : Runs base (working.addWrap w) (q ()) shows x) :
    Runs base working (Step.addWrap w >>= q) shows x :=
  h

theorem moveMembers {members : List Principal} {q : Unit → Step β}
    (h : Runs base { working with
      principals := members.foldl (fun table p =>
        table.insert (utf8 p.name) (inDefaultGroup p).toJson) working.principals } (q ()) shows x) :
    Runs base working (Step.moveMembers members >>= q) shows x := by
  induction members generalizing working with
  | nil => exact h
  | cons p members ih =>
    rw [Step.moveMembers, bind_assoc]
    exact write (ih h)

theorem removeEach (hook : List Wrap → Except Ledger.Error Unit) (gone : List Wrap)
    {doomed : List (Bytes × Wrap)} {q : Unit → Step β}
    (h : Runs base { working with wraps := working.wraps.eraseAll (doomed.map (·.1)) } (q ())
      shows x) :
    Runs base working (Step.removeEach hook gone doomed >>= q) shows
      (hooked hook gone (doomed.map (·.2)) >>= fun _ => x) := by
  induction doomed generalizing working gone with
  | nil =>
    rw [List.map_nil, Table.eraseAll_nil] at h
    exact h
  | cons row doomed ih =>
    obtain ⟨key, w⟩ := row
    rw [Step.removeEach, bind_assoc]
    refine write ?_
    rw [bind_assoc, List.map_cons, hooked, bind_assoc]
    refine check fun _ _ => ih _ ?_
    rwa [List.map_cons, ← Table.eraseAll_erase] at h

theorem removeWraps {secret : Option String} {remove : Wrap → Bool} {q : Nat → Step β}
    {y : Nat × Ledger → Except Ledger.Error ρ}
    (h : ∀ n l, working.removeWraps secret remove = .ok (n, l) →
      Runs base l (q n) shows (y (n, l))) :
    Runs base working (Step.removeWraps secret remove >>= q) shows
      (working.removeWraps secret remove >>= y) := by
  let doomed (wraps : List (Bytes × Wrap)) := wraps.filter fun x => remove x.2
  let rest (wraps : List (Bytes × Wrap)) : Ledger :=
    { working with wraps := working.wraps.eraseAll ((doomed wraps).map (·.1)) }
  have hremove : working.removeWraps secret remove =
      working.scanWraps secret >>= fun wraps => .ok ((doomed wraps).length, rest wraps) := by
    simp [Ledger.removeWraps, rest, doomed]
  have hscanned : ∀ wraps, working.scanWraps secret = .ok wraps →
      Runs base (rest wraps) (q (doomed wraps).length) shows
        (y ((doomed wraps).length, rest wraps)) := by
    intro wraps hwraps
    exact h _ _ (by rw [hremove, hwraps]; rfl)
  rw [hremove, Step.removeWraps, bind_assoc]
  refine look ?_
  rw [bind_assoc, bind_assoc]
  refine check fun wraps hwraps => ?_
  rw [bind_assoc]
  have hremoved := removeEach (fun _ => .ok ()) []
    (q := fun _ => q (doomed wraps).length) (hscanned wraps hwraps)
  rwa [hooked_ok] at hremoved

/-! ### The operations -/

/-- An operation that gives nothing but the changed ledger. -/
def ledgerOnly (l : Ledger) : Unit × Ledger := ((), l)

theorem bootstrap (now : Timestamp) (setup : Bootstrap) :
    Runs base working (Step.bootstrap now setup) ledgerOnly (base.bootstrap now setup) := by
  rw [Step.bootstrap, Ledger.bootstrap]
  refine check fun _ _ => check fun _ _ => begin (write (write ?_))
  cases setup.admin with
  | none => exact commit rfl
  | some admin =>
    simp only [Ledger.addAdmin]
    exact check fun _ _ => check fun _ _ => write (commit rfl)

theorem registerPrincipal (now : Timestamp) (new : NewPrincipal) :
    Runs base working (Step.registerPrincipal now new) ledgerOnly
      (base.registerPrincipal now new) := by
  rw [Step.registerPrincipal, Ledger.registerPrincipal]
  exact check fun _ _ => check fun _ _ => check fun _ _ => begin <| look <| check fun _ _ =>
    write (commit rfl)

theorem createGroup (now : Timestamp) (name : String) (kind : Role)
    (publicKey sealedPrivateKey : Bytes) :
    Runs base working (Step.createGroup now name kind publicKey sealedPrivateKey) ledgerOnly
      (base.createGroup now name kind publicKey sealedPrivateKey) := by
  rw [Step.createGroup, Ledger.createGroup]
  exact check fun _ _ => check fun _ _ => check fun _ _ => begin <| look <| check fun _ _ =>
    write (commit rfl)

theorem deleteGroup (name : String) :
    Runs base working (Step.deleteGroup name) ledgerOnly (base.deleteGroup name) := by
  rw [Step.deleteGroup, Ledger.deleteGroup]
  exact check fun _ _ => begin <| look <| check fun _ _ => write <| removeWraps fun _ _ _ =>
    look <| check fun _ _ => moveMembers (commit rfl)

theorem createSecret (now : Timestamp) (caller : Identity) (new : NewSecret) :
    Runs base working (Step.createSecret now caller new) ledgerOnly
      (base.createSecret now caller new) := by
  rw [Step.createSecret, Ledger.createSecret]
  refine check fun _ _ => check fun _ _ => check fun _ _ => check fun _ _ => check fun _ _ =>
    begin <| look <| check fun _ _ => write <| addWrap ?_
  cases given new.creatorKey with
  | none => exact commit rfl
  | some key => exact addWrap (commit rfl)

theorem grant (now : Timestamp) (secret : String) (recipient : Recipient) (sealedKey : Bytes)
    (path : Option String) :
    Runs base working (Step.grant now secret recipient sealedKey path) ledgerOnly
      (base.grant now secret recipient sealedKey path) := by
  rw [Step.grant, Ledger.grant]
  exact check fun _ _ => begin <| look <| check fun _ _ => look <| check fun _ _ =>
    addWrap (commit rfl)

theorem assignToGroup (now : Timestamp) (secret group : String) (sealedKey : Bytes)
    (path : Option String) :
    Runs base working (Step.assignToGroup now secret group sealedKey path) ledgerOnly
      (base.assignToGroup now secret group sealedKey path) := by
  rw [Step.assignToGroup, Ledger.assignToGroup]
  exact check fun _ _ => grant _ _ _ _ _

theorem revoke (secret : String) (recipient : Recipient) :
    Runs base working (Step.revoke secret recipient) id (base.revoke secret recipient) := by
  rw [Step.revoke, Ledger.revoke]
  exact check fun _ _ => begin <| look <| check fun _ _ => removeWraps fun _ _ _ =>
    check fun _ _ => commit_return rfl

theorem revokeFromGroup (secret group : String) :
    Runs base working (Step.revokeFromGroup secret group) id
      (base.revokeFromGroup secret group) := by
  rw [Step.revokeFromGroup, Ledger.revokeFromGroup]
  exact check fun _ _ => revoke _ _

theorem reassignPrincipal (principal group : String) (sealedGroupKey : Option Bytes) :
    Runs base working (Step.reassignPrincipal principal group sealedGroupKey) ledgerOnly
      (base.reassignPrincipal principal group sealedGroupKey) := by
  rw [Step.reassignPrincipal, Ledger.reassignPrincipal]
  exact check fun _ _ => begin <| look <| check fun _ _ => look <| check fun _ _ =>
    write (commit rfl)

theorem deletePrincipal (name : String) :
    Runs base working (Step.deletePrincipal name) ledgerOnly (base.deletePrincipal name) := by
  rw [Step.deletePrincipal, Ledger.deletePrincipal]
  exact begin <| look <| write <| check fun _ _ => removeWraps fun _ _ _ => commit rfl

theorem read (f : Ledger → Except Ledger.Error β) :
    Runs base working (Step.read f) (·, base) (f base) := by
  rw [Step.read]
  refine begin (look ⟨base, ?_⟩)
  cases f base with
  | ok b => rfl
  | error e => rfl

theorem deleteSecretWith (hook : List Wrap → Except Ledger.Error Unit) (name : String) :
    Runs base working (Step.deleteSecretWith hook name) ledgerOnly
      (base.deleteSecretWith hook name) := by
  rw [Step.deleteSecretWith, Ledger.deleteSecretWith]
  exact check fun _ _ => begin <| look <| check fun _ _ => look <| check fun _ _ =>
    removeEach _ _ <| write (commit rfl)

theorem deleteSecret (name : String) :
    Runs base working (Step.deleteSecretWith (fun _ => .ok ()) name) ledgerOnly
      (base.deleteSecret name) := by
  rw [← Ledger.deleteSecretWith_ok]
  exact deleteSecretWith _ _

end Runs

/-! ### Failure -/

/-- The program of a command comes to what executing the command gives. -/
theorem runs_steps (c : Command) (l : Ledger) : Runs l l c.steps id (l.execute c) := by
  cases c with
  | bootstrap now setup => exact (Runs.bootstrap now.1 setup).map _
  | registerPrincipal now new => exact (Runs.registerPrincipal now.1 new).map _
  | createGroup now name kind publicKey sealedPrivateKey =>
    exact (Runs.createGroup now.1 name kind publicKey sealedPrivateKey).map _
  | deleteGroup name => exact (Runs.deleteGroup name).map _
  | createSecret now caller new => exact (Runs.createSecret now.1 caller new).map _
  | assignToGroup now secret group sealedKey path =>
    exact (Runs.assignToGroup now.1 secret group sealedKey path).map _
  | assignToPrincipal now secret principal sealedKey path =>
    exact (Runs.grant now.1 secret (.principal principal) sealedKey path).map _
  | revokeFromGroup secret group => exact (Runs.revokeFromGroup secret group).map _
  | revokeFromPrincipal secret principal =>
    exact (Runs.revoke secret (.principal principal)).map _
  | deleteSecret name => exact (Runs.deleteSecret name).map _
  | reassignPrincipal principal group sealedGroupKey =>
    exact (Runs.reassignPrincipal principal group sealedGroupKey).map _
  | deletePrincipal name => exact (Runs.deletePrincipal name).map _
  | isInitialized => exact (Runs.read fun l => .ok l.isInitialized).map _
  | getPrincipal name => exact (Runs.read (·.getPrincipal name)).map _
  | lookup name => exact (Runs.read (·.lookup name)).map _
  | getGroup name => exact (Runs.read (·.getGroup name)).map _
  | listGroups => exact (Runs.read (·.listGroups)).map _
  | fetchAccessible principal => exact (Runs.read (·.fetchAccessible principal)).map _
  | fetchSecret principal secret => exact (Runs.read (·.fetchSecret principal secret)).map _
  | canRead principal secret => exact (Runs.read (·.canRead principal secret)).map _
  | listSecrets => exact (Runs.read (·.listSecrets)).map _

/-- **Running the program of a command on a store is executing the command.** -/
theorem perform_steps (c : Command) (l : Ledger) :
    c.steps.perform l = attempt Ledger.execute l c := by
  rw [(runs_steps c l).perform, attempt_eq_outcome]

theorem outcome_of_error {β ρ : Type} {base : Ledger} {shows : ρ → β × Ledger}
    {x : Except Ledger.Error ρ} {e : Ledger.Error} (h : (outcome base shows x).1 = .error e) :
    (outcome base shows x).2 = base := by
  cases x with
  | ok r => cases h
  | error e => rfl

/-- A program that comes to an outcome leaves the store as it was if it fails. -/
theorem Runs.perform_of_error {β ρ : Type} {base : Ledger} {shows : ρ → β × Ledger} {p : Step β}
    {x : Except Ledger.Error ρ} (h : Runs base base p shows x) {e : Ledger.Error}
    (he : (p.perform base).1 = .error e) : (p.perform base).2 = base := by
  rw [h.perform] at he ⊢
  exact outcome_of_error he

-- A group is deleted while the row of a principal cannot be read: the group is gone from the
-- working copy when this is found out, and is still there afterwards.
example :
    let l : Ledger := { Ledger.empty with
      groups := Table.empty.insert (utf8 "ops") []
      principals := Table.empty.insert (utf8 "bob") [] }
    let steps := (Command.deleteGroup "ops").steps
    has (steps.run.run ⟨l, l⟩).2.working.groups "ops" = false ∧
      (steps.perform l).1 = .error .corruptRow ∧ has (steps.perform l).2.groups "ops" = true := by
  decide +kernel

end Strongroom
