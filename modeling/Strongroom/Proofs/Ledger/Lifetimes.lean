import Strongroom.Proofs.Ledger.WrapRows

/-!
# How long things last

Along a run a principal lasts until it is deleted, and nothing touches what it was registered with
but the group that it is in (`Intact.principal?_run`).  A secret lasts until it is deleted and stays
as it is (`Intact.secret?_run`).  A wrap lasts until its grant is ended (`Intact.wrap?_run`); here
the run must not use up the numbers of wraps.
-/

namespace Strongroom.Ledger

variable {l l' : Ledger} {c : Command} {a : Answer} {cs : List Command}

/-! ### Records -/

/-- What every command keeps, unless it is of some kind, a run keeps in which no command of the kind
succeeds. -/
theorem Intact.run_keeps {P : Ledger → Prop} (kind : Command → Prop)
    (hstep : ∀ {l l' : Ledger} {c : Command} {a : Answer}, l.Intact → P l →
      l.execute c = .ok (a, l') → ¬kind c → P l')
    (h : l.Intact) (hl : P l) (hnone : ∀ e ∈ (run Ledger.execute l cs).1, e.Succeeds →
      ¬kind e.command) : P (run Ledger.execute l cs).2 := by
  induction cs generalizing l with
  | nil => exact hl
  | cons c cs ih =>
    rw [run_cons] at hnone ⊢
    cases hc : l.execute c with
    | error e =>
      rw [attempt_of_error hc] at hnone ⊢
      exact ih h hl fun e he => hnone e (List.mem_cons_of_mem _ he)
    | ok x =>
      obtain ⟨a, l'⟩ := x
      rw [attempt_of_ok hc] at hnone ⊢
      have hkind : ¬kind c := hnone ⟨c, .ok a⟩ List.mem_cons_self ⟨a, rfl⟩
      exact ih (h.execute hc) (hstep h hl hc hkind) fun e he =>
        hnone e (List.mem_cons_of_mem _ he)

/-- **Nothing but its deletion touches what a principal was registered with.** -/
theorem Intact.principal?_run (h : l.Intact) {name : String} {p : Principal}
    (hp : l.principal? name = some p) (hstays : ∀ e ∈ (run Ledger.execute l cs).1, e.Succeeds →
      e.command ≠ .deletePrincipal name) :
    ∃ group sealedGroupKey,
      (run Ledger.execute l cs).2.principal? name = some { p with group, sealedGroupKey } := by
  refine h.run_keeps (P := fun l => ∃ group sealedGroupKey,
    l.principal? name = some { p with group, sealedGroupKey }) (· = .deletePrincipal name) ?_
    ⟨p.group, p.sealedGroupKey, hp⟩ hstays
  rintro l l' c a h ⟨group, sealedGroupKey, hp⟩ hok hdelete
  obtain ⟨group', sealedGroupKey', hp'⟩ := h.principal?_execute_of_ne hok hp hdelete
  exact ⟨group', sealedGroupKey', hp'⟩

/-- **A secret stays as it is until it is deleted.** -/
theorem Intact.secret?_run (h : l.Intact) {name : String} {s : Secret}
    (hs : l.secret? name = some s) (hstays : ∀ e ∈ (run Ledger.execute l cs).1, e.Succeeds →
      e.command ≠ .deleteSecret name) :
    (run Ledger.execute l cs).2.secret? name = some s :=
  h.run_keeps (P := fun l => l.secret? name = some s) (· = .deleteSecret name)
    (fun h hs hok hdelete => h.secret?_execute_of_ne hok hs hdelete) hs hstays

/-! ### Wraps -/

/-- The wrap under a key, if there is one and it can be read. -/
def wrap? (l : Ledger) (key : Bytes) : Option Wrap :=
  (l.wraps.get? key).bind fun row => (decode Wrap.layout row).toOption

theorem wrap?_eq_some_iff {key : Bytes} {w : Wrap} :
    l.wrap? key = some w ↔
      ∃ bytes, (key, bytes) ∈ l.wraps.rows ∧ decode Wrap.layout bytes = .ok w := by
  rw [wrap?, Option.bind_eq_some_iff]
  refine exists_congr fun bytes => and_congr Table.get?_eq_some_iff ?_
  cases decode Wrap.layout bytes with
  | error e => simp [Except.toOption]
  | ok w' => simp [Except.toOption]

theorem Intact.fits_of_wrap? (h : l.Intact) {key : Bytes} {w : Wrap} (hw : l.wrap? key = some w) :
    WrapFits l.groups l.secrets key w := by
  obtain ⟨bytes, hrow, hdecode⟩ := wrap?_eq_some_iff.1 hw
  obtain ⟨w', hw', hfit⟩ := h.wraps _ hrow
  rw [hdecode] at hw'
  cases hw'
  exact hfit

/-- **A wrap stays as it is until its grant is ended.** -/
theorem Intact.wrap?_run {p : PlainLedger} {count : Nat} (h : l.Intact)
    (hrep : Represents l p count)
    (hcount : count + wrapsMade (run Ledger.execute l cs).1 < 2 ^ 64 - 1) {key : Bytes} {w : Wrap}
    (hw : l.wrap? key = some w)
    (hstays : ∀ e ∈ (run Ledger.execute l cs).1, ¬e.Ends w.secret w.recipient) :
    (run Ledger.execute l cs).2.wrap? key = some w := by
  induction cs generalizing l p count with
  | nil => exact hw
  | cons c cs ih =>
    rw [run_cons] at hcount hstays ⊢
    simp only [wrapsMade_cons] at hcount
    have hnext := (hrep.attempt c).2 (by omega)
    have hlater : ∀ e ∈ (run Ledger.execute (attempt Ledger.execute l c).2 cs).1,
        ¬e.Ends w.secret w.recipient := fun e he => hstays e (List.mem_cons_of_mem _ he)
    refine ih ?_ hnext (by omega) ?_ hlater
    · exact intact_run h [c]
    · cases hc : l.execute c with
      | error e =>
        rw [attempt_of_error hc]
        exact hw
      | ok x =>
        obtain ⟨a, l'⟩ := x
        rw [attempt_of_ok hc] at hstays ⊢
        have hends : ¬c.Ends w.secret w.recipient := fun hends =>
          hstays ⟨c, .ok a⟩ List.mem_cons_self ⟨⟨a, rfl⟩, hends⟩
        obtain ⟨bytes, hrow, hdecode⟩ := wrap?_eq_some_iff.1 hw
        exact wrap?_eq_some_iff.2 ⟨bytes, h.mem_wraps_of_not_ends (hrep.nextFree (by omega)) hc hrow
          hdecode hends, hdecode⟩

end Strongroom.Ledger
