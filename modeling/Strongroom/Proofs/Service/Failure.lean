import Strongroom.Proofs.Ledger.Transaction
import Strongroom.Proofs.Service.Requests

/-!
# Failure changes nothing

An operation of the ledger that fails leaves the store as it was, although it may have written rows
by then; and a request that is not answered with success leaves the ledger as it was
(`failure_changes_nothing`).  The first is about the programs of the operations
(`Strongroom.Proofs.Ledger.Transaction`).  The second follows the way of a request: only an endpoint
that replies with messages hands on a new ledger, and such a reply has the status of success.
-/

namespace Strongroom

open Http (Action Parameters Reply Request Route)

namespace Service

variable {w : Surroundings} {s : Service} {r : Request}

/-! ### The way of a request -/

/-- A service answers with success or keeps its ledger. -/
def KeepsLedger (s : Service) (answered : Reply × Service) : Prop :=
  answered.1.status ≠ 200 → answered.2.ledger = s.ledger

theorem keepsLedger_rotateKey {id : UInt64} {answered : Reply × Service}
    (h : s.KeepsLedger answered) : s.KeepsLedger (rotateKey w id answered) := by
  rw [KeepsLedger, status_rotateKey, ledger_rotateKey]
  exact h

theorem keepsLedger_serveCaller (caller : Access.Caller) (ps : Parameters)
    (action : Option Action) : s.KeepsLedger (s.serveCaller w caller ps r action) := by
  cases action with
  | none => exact fun _ => rfl
  | some action =>
    cases action with
    | login => exact fun _ => rfl
    | forAll endpoint => exact fun _ => rfl
    | forCaller endpoint =>
      rw [serveCaller]
      split
      · exact fun hfailed => absurd rfl hfailed
      · exact fun _ => rfl

theorem keepsLedger_authorize (policy : Policy) (ps : Parameters) (action : Option Action) :
    s.KeepsLedger (s.authorize w policy ps r action) := by
  rw [authorize]
  split
  · exact fun _ => rfl
  · simp only
    refine keepsLedger_rotateKey ?_
    split
    · exact fun _ => rfl
    · exact keepsLedger_serveCaller (s := { s with sessions := _ }) _ _ _

theorem keepsLedger_serveGuarded (route : Route) (raw : List (String × Bytes)) :
    s.KeepsLedger (s.serveGuarded w route raw r) := by
  rw [serveGuarded]
  split
  · exact fun _ => rfl
  · simp only
    split
    · exact keepsLedger_authorize _ _ _
    · exact fun _ => ledger_login w s r

theorem keepsLedger_serveRoute (route : Route) (raw : List (String × Bytes)) :
    s.KeepsLedger (s.serveRoute w route raw r) := by
  have hanswered : s.KeepsLedger (if route.isGuarded then s.serveGuarded w route raw r
      else (s.serveOpen w (route.action? r.method), s)) := by
    split
    · exact keepsLedger_serveGuarded route raw
    · exact fun _ => rfl
  rw [serveRoute]
  simp only
  split
  · exact hanswered
  · exact hanswered

/-- **A request that is not answered with success leaves the ledger as it was.** -/
theorem keepsLedger_handle (w : Surroundings) (s : Service) (r : Request) :
    s.KeepsLedger (s.handle w r) := by
  have hserved : s.KeepsLedger (s.serve w r) := by
    rw [serve]
    split
    · exact fun _ => rfl
    · exact keepsLedger_serveRoute _ _
  rw [handle]
  split
  · exact fun _ => rfl
  · simp only
    split
    · exact hserved
    · exact hserved

end Service

/-- **Failure changes nothing.**  Each command is executed by running its program, and a program
that fails leaves the ledger, whatever its rows are, as it was; so does the deletion of a secret
that is stopped half-way.  And for every service, request and surroundings, a reply other than
success comes with the ledger as it was. -/
theorem failure_changes_nothing :
    (∀ (c : Command) (l : Ledger), c.steps.perform l = attempt Ledger.execute l c ∧
      ∀ e, (c.steps.perform l).1 = .error e → (c.steps.perform l).2 = l) ∧
    (∀ (hook : List Wrap → Except Ledger.Error Unit) (name : String) (l : Ledger) e,
      ((Step.deleteSecretWith hook name).perform l).1 = .error e →
        ((Step.deleteSecretWith hook name).perform l).2 = l) ∧
    ∀ (w : Surroundings) (s : Service) (r : Request),
      (s.handle w r).1.status ≠ 200 → (s.handle w r).2.ledger = s.ledger :=
  ⟨fun c l => ⟨perform_steps c l, fun _ => (runs_steps c l).perform_of_error⟩,
    fun hook name _ _ => (Runs.deleteSecretWith hook name).perform_of_error,
    Service.keepsLedger_handle⟩

end Strongroom
