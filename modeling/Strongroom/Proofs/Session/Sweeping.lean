import Strongroom.Proofs.Session.Validity

/-!
# How long dead sessions stay

A session that has idled out is of no use, but it stays in the table until a request or a sweep
finds it.  A sweep removes just those sessions (`Sessions.sweep_removes_iff`) and tells how many
they were, and every session that is in the table has been active less than one idle timeout before
the last sweep (`SessionTrace.lastSweep_lt`):

    last sweep < last active + idle timeout,    last active ≤ now.

A session that is opened or used becomes active at the time of that step, which is not before the
last sweep; and what a sweep leaves was not idle for the timeout when it swept.  So the time since
the last sweep is all by which a session can outstay its timeout.
-/

namespace Strongroom

/-! ### What a sweep removes -/

/-- The keys of the rows that do not pass a test are as many as the table loses with them. -/
theorem Table.exists_keys_filter {κ α : Type} [LT κ] [DecidableEq κ] [LE κ] [Std.IsLinearOrder κ]
    [Std.LawfulOrderLT κ] (t : Table κ α) (keep : κ → α → Bool) :
    ∃ keys : List κ, keys.Nodup ∧
      (∀ key, key ∈ keys ↔ t.get? key ≠ none ∧ (t.filter keep).get? key = none) ∧
      t.size - (t.filter keep).size = keys.length := by
  refine ⟨(t.rows.filter fun row => !keep row.1 row.2).map (·.1), ?_, ?_, ?_⟩
  · rw [List.nodup_iff_pairwise_ne, List.pairwise_map]
    refine (t.ordered.filter _).imp ?_
    intro x y hlt heq
    rw [heq] at hlt
    exact Std.lt_irrefl hlt
  · intro key
    rw [get?_filter, List.mem_map]
    constructor
    · rintro ⟨⟨k, a⟩, hrow, rfl⟩
      obtain ⟨hrow, hkeep⟩ := List.mem_filter.1 hrow
      rw [get?_eq_some_iff.2 hrow]
      simpa using hkeep
    · rintro ⟨hthere, hgone⟩
      obtain ⟨a, ha⟩ := Option.ne_none_iff_exists'.1 hthere
      refine ⟨(key, a), List.mem_filter.2 ⟨get?_eq_some_iff.1 ha, ?_⟩, rfl⟩
      simpa [ha] using hgone
  · have hlength := List.length_eq_length_filter_add (l := t.rows) fun row => keep row.1 row.2
    rw [List.length_map]
    show t.rows.length - (t.rows.filter fun row => keep row.1 row.2).length = _
    omega

theorem Session.isExpired_iff {session : Session} {now limit : Nat} (hlimit : 0 < limit) :
    session.isExpired now limit = true ↔ session.lastActive + limit ≤ now := by
  rw [isExpired, decide_eq_true_eq]
  omega

namespace SessionEvent

variable {e : SessionEvent}

/-- **A sweep removes the sessions that have idled out, and leaves the others as they are.** -/
theorem left?_of_sweep (hstep : e.step = .sweep) (id : UInt64) :
    e.left? id = (e.session? id).filter fun session =>
      !session.isExpired e.before.now e.before.sessions.config.idleTimeout := by
  rw [left?, hstep]
  exact Table.get?_filter _ _ _

theorem removes_iff_of_sweep (hstep : e.step = .sweep)
    (htimeout : 0 < e.before.sessions.config.idleTimeout) (id : UInt64) :
    e.Removes id ↔ ∃ session, e.session? id = some session ∧
      session.lastActive + e.before.sessions.config.idleTimeout ≤ e.before.now := by
  rw [Removes, left?_of_sweep hstep]
  cases hthere : e.session? id with
  | none => simp
  | some session => simp [← Session.isExpired_iff htimeout]

theorem left?_of_not_removes (hstep : e.step = .sweep) {id : UInt64} (hstays : ¬ e.Removes id) :
    e.left? id = e.session? id := by
  rw [Removes, left?_of_sweep hstep] at hstays
  rw [left?_of_sweep hstep]
  cases hthere : e.session? id with
  | none => rfl
  | some session =>
    rw [hthere] at hstays
    simpa using hstays

/-- A sweep tells how many sessions it removes. -/
theorem exists_removed_of_sweep (hreply : e.reply = (e.step.take e.before).1)
    (hstep : e.step = .sweep) : ∃ removed : List UInt64, removed.Nodup ∧
      (∀ id, id ∈ removed ↔ e.Removes id) ∧ e.reply = .swept removed.length := by
  obtain ⟨removed, hnodup, hmem, hlength⟩ := e.before.sessions.table.exists_keys_filter
    fun _ session => !session.isExpired e.before.now e.before.sessions.config.idleTimeout
  refine ⟨removed, hnodup, ?_, ?_⟩
  · intro id
    rw [hmem, Removes, left?, hstep]
    rfl
  · rw [hreply, hstep, ← hlength]
    rfl

end SessionEvent

/-! ### The last sweep -/

/-- Whether the step is a sweep. -/
def SessionEvent.isSweep (e : SessionEvent) : Bool :=
  match e.step with
  | .sweep => true
  | _ => false

/-- The time of the last sweep in a history that ends at `now`, or the time at which the history
begins if there is none. -/
def lastSweep (es : List SessionEvent) (now : Nat) : Nat :=
  ((es.filter (·.isSweep)).getLast? <|> es.head?).elim now (·.before.now)

theorem SessionEvent.isSweep_iff {e : SessionEvent} : e.isSweep = true ↔ e.step = .sweep := by
  rw [isSweep]
  split
  · next heq => simp [heq]
  · next hne => simpa using hne

theorem lastSweep_concat (es : List SessionEvent) (e : SessionEvent) (now : Nat) :
    lastSweep (es ++ [e]) now = if e.isSweep then e.before.now else lastSweep es e.before.now := by
  rw [lastSweep, lastSweep, List.filter_append]
  split
  · next hsweep => simp [hsweep]
  · next hsweep =>
    rw [List.filter_cons_of_neg hsweep, List.filter_nil, List.append_nil]
    cases hlast : (es.filter (·.isSweep)).getLast? with
    | some last => rfl
    | none =>
      cases es with
      | nil => rfl
      | cons first es => rfl

namespace SessionTrace

variable {config : SessionConfig} {es : List SessionEvent} {s : SessionClock}

theorem lastSweep_le (h : SessionTrace config es s) : lastSweep es s.now ≤ s.now := by
  induction h with
  | start now => exact Nat.le_refl _
  | @step es s prior request step ih =>
    have hnow := le_now_take s step
    rw [lastSweep_concat]
    split
    · exact hnow
    · exact Nat.le_trans ih hnow

/-- What a session in the table has for its last activity is when it was used last. -/
theorem lastActive_of_get? (h : SessionTrace config es s) {id : UInt64} {session : Session}
    (hsession : s.sessions.table.get? id = some session) :
    LastActive es id session.lastActive := by
  have hremembers := h.remembers id
  rw [hsession] at hremembers
  exact (hremembers.active _).2 rfl

/-- **No session was idle for the timeout at the last sweep.** -/
theorem lastSweep_lt (h : SessionTrace config es s) (htimeout : 0 < config.idleTimeout)
    {id : UInt64} {session : Session} (hsession : s.sessions.table.get? id = some session) :
    lastSweep es s.now < session.lastActive + config.idleTimeout ∧ session.lastActive ≤ s.now := by
  induction h generalizing session with
  | start now => simp [Sessions.empty, Table.get?, Table.empty] at hsession
  | @step es s prior request step ih =>
    have hnow := le_now_take s step
    have hused : lastSweep (es ++ [⟨request, step, s, (step.take s).1⟩]) (step.take s).2.now <
        s.now + config.idleTimeout := by
      rw [lastSweep_concat]
      split
      · exact Nat.lt_add_of_pos_right htimeout
      · exact Nat.lt_of_le_of_lt prior.lastSweep_le (Nat.lt_add_of_pos_right htimeout)
    have heffect := SessionEvent.effect request step s id
    rw [hsession] at heffect
    cases heffect with
    | opens => exact ⟨hused, hnow⟩
    | draws => exact ⟨hused, hnow⟩
    | accepts => exact ⟨hused, hnow⟩
    | keeps hbefore =>
      obtain ⟨hbound, hactive⟩ := ih hbefore
      refine ⟨?_, Nat.le_trans hactive hnow⟩
      rw [lastSweep_concat]
      split
      · next hsweep =>
        -- what a sweep has left was not idle for the timeout
        have hleft := SessionEvent.left?_of_sweep (SessionEvent.isSweep_iff.1 hsweep) id
        rw [SessionEvent.left?, hsession, hbefore, eq_comm, Option.filter_eq_some_iff,
          Bool.not_eq_true', prior.config_eq, ← Bool.not_eq_true,
          Session.isExpired_iff htimeout, Nat.not_le] at hleft
        exact hleft.2
      · exact hbound

end SessionTrace

/-! ### Sweeping -/

/-- **Sweeping is exact and bounds how long dead sessions stay.**  In every trace with an idle
timeout above zero, a sweep removes exactly the sessions that were active for the last time one
timeout before it or longer ago, leaves the others as they are, and tells how many it has removed.
At the end of every trace each session has been idle for less than the timeout and the time since
the last sweep, so that it has not outstayed the timeout by one interval if no more than an interval
has passed since then. -/
theorem sweep_exact_and_bounding {config : SessionConfig} {es : List SessionEvent}
    {s : SessionClock} (h : SessionTrace config es s) (htimeout : 0 < config.idleTimeout) :
    (∀ before e after, es = before ++ e :: after → e.step = .sweep →
      (∀ id, e.Removes id ↔ ∃ session, e.session? id = some session ∧
        LastActive before id session.lastActive ∧
        session.lastActive + config.idleTimeout ≤ e.before.now) ∧
      (∀ id, ¬ e.Removes id → e.left? id = e.session? id) ∧
      ∃ removed : List UInt64, removed.Nodup ∧ (∀ id, id ∈ removed ↔ e.Removes id) ∧
        e.reply = .swept removed.length) ∧
    ∀ id session, s.sessions.table.get? id = some session →
      LastActive es id session.lastActive ∧ session.lastActive ≤ s.now ∧
      s.now - session.lastActive < config.idleTimeout + (s.now - lastSweep es s.now) ∧
      (s.now - lastSweep es s.now ≤ config.sweepInterval →
        s.now < session.lastActive + config.idleTimeout + config.sweepInterval) := by
  refine ⟨?_, ?_⟩
  · rintro before e after rfl hstep
    obtain ⟨hbefore, hreply⟩ := h.of_append
    have hconfig := hbefore.config_eq
    refine ⟨?_, ?_, SessionEvent.exists_removed_of_sweep hreply hstep⟩
    · intro id
      rw [SessionEvent.removes_iff_of_sweep hstep (hconfig ▸ htimeout), hconfig]
      constructor
      · rintro ⟨session, hthere, hidle⟩
        exact ⟨session, hthere, hbefore.lastActive_of_get? hthere, hidle⟩
      · rintro ⟨session, hthere, -, hidle⟩
        exact ⟨session, hthere, hidle⟩
    · intro id hstays
      exact SessionEvent.left?_of_not_removes hstep hstays
  · intro id session hsession
    obtain ⟨hlast, hactive⟩ := h.lastSweep_lt htimeout hsession
    have hsweep := h.lastSweep_le
    refine ⟨h.lastActive_of_get? hsession, hactive, ?_, ?_⟩
    · omega
    · intro hinterval
      omega

/-- A session is opened, and swept two milliseconds later, when its timeout is three. -/
theorem sweep_exact_and_bounding_sampleLogin :
    let config : SessionConfig := { idleTimeout := 3, sweepInterval := 2 }
    ∃ before e s, SessionTrace config (before ++ [e]) s ∧ e.step = .sweep ∧ e.before.now = 2 ∧
      e.left? 7 = e.session? 7 ∧ ∃ session, s.sessions.table.get? 7 = some session ∧
        s.now < session.lastActive + 5 := by
  intro config
  have h : SessionTrace config (([_] ++ [_]) ++ [_]) _ :=
    (((SessionTrace.start 0).step 0 sampleLogin).step 0 (.advance 2)).step 0 .sweep
  obtain ⟨hsweep, hbound⟩ := sweep_exact_and_bounding h (by decide)
  obtain ⟨hremoves, hleft, -⟩ := hsweep _ _ [] rfl rfl
  refine ⟨_, _, _, h, rfl, rfl, hleft 7 ?_, ?_⟩
  · rw [hremoves]
    rintro ⟨session, -, -, hidle⟩
    have htime : session.lastActive + 3 ≤ 2 := hidle
    omega
  · have hthere : (SessionStep.sweep.take ((SessionStep.advance 2).take
        (sampleLogin.take ⟨.empty config, 0⟩).2).2).2.sessions.table.contains 7 = true := by
      decide +kernel
    obtain ⟨session, hsession⟩ := Option.isSome_iff_exists.1 hthere
    exact ⟨session, hsession, (hbound 7 session hsession).2.2.2 (by decide)⟩

end Strongroom
