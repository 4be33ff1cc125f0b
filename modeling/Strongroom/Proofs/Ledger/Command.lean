import Strongroom.Proofs.Ledger.Plain

/-!
# Runs of the ledger

The public operations as data, so that one can speak of every finite sequence of them.  A command is
executed on the ledger (`Ledger.execute`) or on the plain ledger (`PlainLedger.execute`).  A run
executes commands one after another and writes down each with its reply; a command that fails
leaves the state as it is,

    run execute s (cs ++ cs') = run execute (state after cs) cs'     (behind the events of cs).

A command that needs the time is given a moment of the calendar, which is all that a clock can show.
-/

namespace Strongroom

/-- A moment of the calendar. -/
abbrev Moment := { t : Timestamp // t.IsValid }

/-- A call of a public operation of the ledger. -/
inductive Command where
  | bootstrap (now : Moment) (setup : Bootstrap)
  | registerPrincipal (now : Moment) (new : NewPrincipal)
  | createGroup (now : Moment) (name : String) (kind : Role) (publicKey sealedPrivateKey : Bytes)
  | deleteGroup (name : String)
  | createSecret (now : Moment) (caller : Identity) (new : NewSecret)
  | assignToGroup (now : Moment) (secret group : String) (sealedKey : Bytes)
      (path : Option String)
  | assignToPrincipal (now : Moment) (secret principal : String) (sealedKey : Bytes)
      (path : Option String)
  | revokeFromGroup (secret group : String)
  | revokeFromPrincipal (secret principal : String)
  | deleteSecret (name : String)
  | reassignPrincipal (principal group : String) (sealedGroupKey : Option Bytes)
  | deletePrincipal (name : String)
  | isInitialized
  | getPrincipal (name : String)
  | lookup (name : String)
  | getGroup (name : String)
  | listGroups
  | fetchAccessible (principal : String)
  | fetchSecret (principal secret : String)
  | canRead (principal secret : String)
  | listSecrets

/-- What an operation that succeeds gives back. -/
inductive Answer where
  | done
  | flag (b : Bool)
  | removed (count : Nat)
  | principal (p : Principal)
  | credentials (c : Option Credentials)
  | group (g : Group)
  | groups (gs : List Group)
  | accessible (found : List AccessibleSecret)
  | secrets (summaries : List SecretSummary)
  deriving DecidableEq

/-- The outcome of an operation that gives only the changed state. -/
def changed {σ : Type} (r : Except Ledger.Error σ) : Except Ledger.Error (Answer × σ) :=
  r.map fun s => (.done, s)

/-- The outcome of an operation that also counts what it has removed. -/
def counted {σ : Type} (r : Except Ledger.Error (Nat × σ)) : Except Ledger.Error (Answer × σ) :=
  r.map fun (n, s) => (.removed n, s)

/-- The outcome of an operation that only reads. -/
def shown {σ α : Type} (s : σ) (answer : α → Answer) (r : Except Ledger.Error α) :
    Except Ledger.Error (Answer × σ) :=
  r.map fun a => (answer a, s)

/-- Executes a command on the ledger. -/
def Ledger.execute (l : Ledger) : Command → Except Error (Answer × Ledger)
  | .bootstrap now setup => changed (l.bootstrap now.1 setup)
  | .registerPrincipal now new => changed (l.registerPrincipal now.1 new)
  | .createGroup now name kind publicKey sealedPrivateKey =>
    changed (l.createGroup now.1 name kind publicKey sealedPrivateKey)
  | .deleteGroup name => changed (l.deleteGroup name)
  | .createSecret now caller new => changed (l.createSecret now.1 caller new)
  | .assignToGroup now secret group sealedKey path =>
    changed (l.assignToGroup now.1 secret group sealedKey path)
  | .assignToPrincipal now secret principal sealedKey path =>
    changed (l.assignToPrincipal now.1 secret principal sealedKey path)
  | .revokeFromGroup secret group => counted (l.revokeFromGroup secret group)
  | .revokeFromPrincipal secret principal => counted (l.revokeFromPrincipal secret principal)
  | .deleteSecret name => changed (l.deleteSecret name)
  | .reassignPrincipal principal group sealedGroupKey =>
    changed (l.reassignPrincipal principal group sealedGroupKey)
  | .deletePrincipal name => changed (l.deletePrincipal name)
  | .isInitialized => shown l .flag (.ok l.isInitialized)
  | .getPrincipal name => shown l .principal (l.getPrincipal name)
  | .lookup name => shown l .credentials (l.lookup name)
  | .getGroup name => shown l .group (l.getGroup name)
  | .listGroups => shown l .groups l.listGroups
  | .fetchAccessible principal => shown l .accessible (l.fetchAccessible principal)
  | .fetchSecret principal secret => shown l .accessible (l.fetchSecret principal secret)
  | .canRead principal secret => shown l .flag (l.canRead principal secret)
  | .listSecrets => shown l .secrets l.listSecrets

/-- Executes a command on the plain ledger. -/
def PlainLedger.execute (l : PlainLedger) : Command → Except Ledger.Error (Answer × PlainLedger)
  | .bootstrap now setup => changed (l.bootstrap now.1 setup)
  | .registerPrincipal now new => changed (l.registerPrincipal now.1 new)
  | .createGroup now name kind publicKey sealedPrivateKey =>
    changed (l.createGroup now.1 name kind publicKey sealedPrivateKey)
  | .deleteGroup name => changed (l.deleteGroup name)
  | .createSecret _ caller new => changed (l.createSecret caller new)
  | .assignToGroup _ secret group sealedKey path =>
    changed (l.assignToGroup secret group sealedKey path)
  | .assignToPrincipal _ secret principal sealedKey path =>
    changed (l.grant secret (.principal principal) sealedKey path)
  | .revokeFromGroup secret group => counted (l.revokeFromGroup secret group)
  | .revokeFromPrincipal secret principal => counted (l.revoke secret (.principal principal))
  | .deleteSecret name => changed (l.deleteSecret name)
  | .reassignPrincipal principal group sealedGroupKey =>
    changed (l.reassignPrincipal principal group sealedGroupKey)
  | .deletePrincipal name => changed (l.deletePrincipal name)
  | .isInitialized => shown l .flag (.ok l.isInitialized)
  | .getPrincipal name => shown l .principal (l.principals.get name (.principal name))
  | .lookup name => shown l .credentials (.ok (l.lookup name))
  | .getGroup name => shown l .group (l.groups.get name (.group name))
  | .listGroups => shown l .groups (.ok (l.groups.list.map (·.2)))
  | .fetchAccessible principal => shown l .accessible (l.fetchAccessible principal)
  | .fetchSecret principal secret => shown l .accessible (l.fetchSecret principal secret)
  | .canRead principal secret => shown l .flag (.ok (l.canRead principal secret))
  | .listSecrets => shown l .secrets (.ok l.listSecrets)

/-! ### What succeeds -/

theorem of_bind_eq_ok {ε α β : Type} {x : Except ε α} {f : α → Except ε β} {b : β}
    (h : x >>= f = .ok b) : ∃ a, x = .ok a ∧ f a = .ok b := by
  cases x with
  | ok a => exact ⟨a, rfl, h⟩
  | error e => cases h

theorem of_changed_eq_ok {σ : Type} {r : Except Ledger.Error σ} {a : Answer} {s : σ}
    (h : changed r = .ok (a, s)) : r = .ok s := by
  cases r with
  | ok s' =>
    cases h
    rfl
  | error e => cases h

theorem of_counted_eq_ok {σ : Type} {r : Except Ledger.Error (Nat × σ)} {a : Answer} {s : σ}
    (h : counted r = .ok (a, s)) : ∃ n, r = .ok (n, s) := by
  cases r with
  | ok x =>
    cases h
    exact ⟨_, rfl⟩
  | error e => cases h

theorem of_shown_eq_ok {σ α : Type} {r : Except Ledger.Error α} {answer : α → Answer} {a : Answer}
    {s s' : σ} (h : shown s answer r = .ok (a, s')) : s' = s := by
  cases r with
  | ok x =>
    cases h
    rfl
  | error e => cases h

/-! ### Runs -/

/-- A command and the reply to it. -/
structure Event where
  command : Command
  /-- What it gave back, or why it failed. -/
  reply : Except Ledger.Error Answer

/-- The number of wraps that a command makes when it succeeds. -/
def Command.wraps : Command → Nat
  | .createSecret _ _ new => if (Ledger.given new.creatorKey).isSome then 2 else 1
  | .assignToGroup .. => 1
  | .assignToPrincipal .. => 1
  | _ => 0

theorem Command.wraps_le (c : Command) : c.wraps ≤ 2 := by
  rw [Command.wraps.eq_def]
  split
  · split
    · decide
    · decide
  · decide
  · decide
  · decide

/-- The number of wraps that were made in an event. -/
def Event.wraps (e : Event) : Nat :=
  match e.reply with
  | .ok _ => e.command.wraps
  | .error _ => 0

/-- The number of wraps that were ever made. -/
def wrapsMade : List Event → Nat
  | [] => 0
  | e :: es => e.wraps + wrapsMade es

/-- The reply to a command and the state after it. -/
def attempt {σ : Type} (execute : σ → Command → Except Ledger.Error (Answer × σ)) (s : σ)
    (c : Command) : Except Ledger.Error Answer × σ :=
  match execute s c with
  | .ok (a, s') => (.ok a, s')
  | .error e => (.error e, s)

/-- Executes commands one after another. -/
def run {σ : Type} (execute : σ → Command → Except Ledger.Error (Answer × σ)) :
    σ → List Command → List Event × σ
  | s, [] => ([], s)
  | s, c :: cs =>
    let (reply, s') := attempt execute s c
    let (es, t) := run execute s' cs
    (⟨c, reply⟩ :: es, t)

section

variable {σ : Type} {execute : σ → Command → Except Ledger.Error (Answer × σ)}

theorem attempt_of_ok {s s' : σ} {c : Command} {a : Answer} (h : execute s c = .ok (a, s')) :
    attempt execute s c = (.ok a, s') := by
  rw [attempt, h]

theorem attempt_of_error {s : σ} {c : Command} {e : Ledger.Error} (h : execute s c = .error e) :
    attempt execute s c = (.error e, s) := by
  rw [attempt, h]

@[simp] theorem run_nil (s : σ) : run execute s [] = ([], s) := rfl

theorem run_cons (s : σ) (c : Command) (cs : List Command) :
    run execute s (c :: cs) =
      (⟨c, (attempt execute s c).1⟩ :: (run execute (attempt execute s c).2 cs).1,
        (run execute (attempt execute s c).2 cs).2) := rfl

theorem run_append (s : σ) (cs cs' : List Command) :
    run execute s (cs ++ cs') =
      ((run execute s cs).1 ++ (run execute (run execute s cs).2 cs').1,
        (run execute (run execute s cs).2 cs').2) := by
  induction cs generalizing s with
  | nil => rfl
  | cons c cs ih =>
    rw [List.cons_append, run_cons, ih, run_cons]
    rfl

theorem run_concat (s : σ) (cs : List Command) (c : Command) :
    run execute s (cs ++ [c]) =
      ((run execute s cs).1 ++ [⟨c, (attempt execute (run execute s cs).2 c).1⟩],
        (attempt execute (run execute s cs).2 c).2) := by
  rw [run_append, run_cons, run_nil]

end

theorem wrapsMade_cons (e : Event) (es : List Event) :
    wrapsMade (e :: es) = e.wraps + wrapsMade es := rfl

theorem wrapsMade_append (es es' : List Event) :
    wrapsMade (es ++ es') = wrapsMade es + wrapsMade es' := by
  induction es with
  | nil => rw [List.nil_append, wrapsMade, Nat.zero_add]
  | cons e es ih => rw [List.cons_append, wrapsMade_cons, wrapsMade_cons, ih, Nat.add_assoc]

end Strongroom
