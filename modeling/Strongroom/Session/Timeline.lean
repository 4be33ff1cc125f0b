import Strongroom.Session.Basic

/-!
# Sessions in time

Sessions together with the clock and the sweepers. A sweeper is a task that removes expired sessions
again and again, each time one interval after the last. The clock may run or jump. A sweeper gets
its turn when the others wait or give way. So the sweeps that fall due while the clock runs happen
in their time, but for one that falls due at the very end, which happens when the others wait again
or give way; and a sweep that has fallen due in a jump happens once, behind the jump.
-/

namespace Strongroom

/-- Sessions, the time, and the times at which the sweepers that run sweep next. -/
structure Timeline where
  sessions : Sessions
  /-- The time. -/
  now : Nat
  /-- When the sweeper that was started last sweeps next, while it runs. -/
  nextSweep : Option Nat
  /-- When the sweepers sweep next that ran while another one was started. Nobody can stop them any
  more. -/
  olderSweeps : List Nat

namespace Timeline

/-- No sessions, at time zero and without a sweeper. -/
def empty (config : SessionConfig) : Timeline := ⟨.empty config, 0, none, []⟩

/-- The time between two sweeps of one sweeper. -/
def interval (t : Timeline) : Nat := t.sessions.config.sweepInterval

/-- The times of the next sweeps. -/
def sweeps (t : Timeline) : List Nat := t.nextSweep.toList ++ t.olderSweeps

/-- Gives every sweeper the next time to sweep. -/
def reschedule (t : Timeline) (next : Nat → Nat) : Timeline :=
  { t with nextSweep := t.nextSweep.map next, olderSweeps := t.olderSweeps.map next }

/-- Gives way to the sweepers: those that are due sweep, and wait for one interval. -/
def giveWay (t : Timeline) : Timeline :=
  let due (tick : Nat) : Bool := tick ≤ t.now
  let swept := if t.sweeps.any due then (t.sessions.sweep t.now).2 else t.sessions
  { t with sessions := swept }.reschedule fun tick =>
    if due tick then t.now + t.interval else tick

/-- The last of the times `tick`, `tick + interval`, … that is before `stop`. -/
def lastBefore (stop interval tick : Nat) : Nat :=
  tick + (stop - 1 - tick) / interval * interval

/-- Waits while the clock runs for some time. The sweeps that fall due before the end happen on the
way. What has expired at one sweep of a sweeper has expired at the next, so they come to the last of
them. -/
def wait (t : Timeline) (duration : Nat) : Timeline :=
  let stop := t.now + duration
  let last := lastBefore stop t.interval
  let swept := (t.sweeps.filter (· < stop)).foldl (fun s tick => (s.sweep (last tick)).2) t.sessions
  { t with sessions := swept, now := stop }.reschedule fun tick =>
    if tick < stop then last tick + t.interval else tick

/-- Lets the clock run for some time and then gives way to the sweepers. -/
def run (t : Timeline) (duration : Nat) : Timeline :=
  (t.wait duration).giveWay

/-- Lets the clock jump by some time and then gives way to the sweepers. -/
def jump (t : Timeline) (duration : Nat) : Timeline :=
  { t with now := t.now + duration }.giveWay

/-- Starts a sweeper. One that runs goes on. -/
def startSweeper (t : Timeline) : Timeline :=
  { t with nextSweep := some (t.now + t.interval), olderSweeps := t.sweeps }.giveWay

/-- Stops the sweeper that was started last and tells whether it was running. -/
def stopSweeper (t : Timeline) : Bool × Timeline :=
  match t.nextSweep with
  | some _ => (true, { t with nextSweep := none }.giveWay)
  | none => (false, t)

/-- Opens a session after a look-up of credentials that would take `delay` and then end as
`outcome`. The look-up is waited for, and while a password is checked the sweepers have their turn.
-/
def authenticate (t : Timeline) (check : PasswordCheck) (delay : Nat) (outcome : Lookup)
    (password : Bytes) (drawnId : UInt64) (drawnKey : SessionKey) :
    Except SessionError NewSession × Timeline :=
  let (waited, lookup) := outcome.within t.sessions.config.lookupTimeout delay
  let t := t.wait waited
  let t := match lookup with
    | .unavailable => t
    | .answered _ => t.giveWay
  let (result, sessions) := t.sessions.authenticate check t.now lookup password drawnId drawnKey
  (result, { t with sessions })

/-- Draws the next key of a session. -/
def nextKey (t : Timeline) (id : UInt64) (drawnKey : SessionKey) :
    Except SessionError SessionKey × Timeline :=
  let (result, sessions) := t.sessions.nextKey t.now id drawnKey
  (result, { t with sessions })

/-- Authenticates a request. -/
def validate (t : Timeline) (id : UInt64) (mac context body : Bytes) :
    Except SessionError Identity × Timeline :=
  let (result, sessions) := t.sessions.validate t.now id mac context body
  (result, { t with sessions })

/-- Closes a session. -/
def logout (t : Timeline) (id : UInt64) : Bool × Timeline :=
  let (result, sessions) := t.sessions.logout id
  (result, { t with sessions })

/-- Removes the expired sessions. -/
def sweep (t : Timeline) : Nat × Timeline :=
  let (result, sessions) := t.sessions.sweep t.now
  (result, { t with sessions })

end Timeline

end Strongroom
