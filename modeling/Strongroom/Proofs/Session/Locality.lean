import Strongroom.Proofs.Session.Trace

/-!
# Steps on one session

The sessions share one table, but what an operation on one of them does depends on that session and
on nothing else in the table (`AgreeOn.take`), and it leaves all others as they are
(`get?_take_of_not_isOn`).  What a session has in common with the others is the time and the sweeps,
and a sweep removes it only if it has idled out (`get?_take_sweep`).
-/

namespace Strongroom

/-! ### Runs -/

/-- What steps lead to. -/
def SessionClock.after (s : SessionClock) : List (Nat × SessionStep) → SessionClock
  | [] => s
  | (_, step) :: steps => (step.take s).2.after steps

/-- What happens when a request takes a step. -/
abbrev SessionClock.event (s : SessionClock) (request : Nat) (step : SessionStep) : SessionEvent :=
  ⟨request, step, s, (step.take s).1⟩

theorem SessionClock.after_append (s : SessionClock) (xs ys : List (Nat × SessionStep)) :
    s.after (xs ++ ys) = (s.after xs).after ys := by
  induction xs generalizing s with
  | nil => rfl
  | cons x xs ih => exact ih _

theorem eventsOf_append (s : SessionClock) (xs ys : List (Nat × SessionStep)) :
    eventsOf s (xs ++ ys) = eventsOf s xs ++ eventsOf (s.after xs) ys := by
  induction xs generalizing s with
  | nil => rfl
  | cons x xs ih => exact congrArg _ (ih _)

theorem config_take (s : SessionClock) (step : SessionStep) :
    (step.take s).2.sessions.config = s.sessions.config := by
  cases step with
  | authenticate check lookup password drawnId drawnKey =>
    rw [SessionStep.take]
    rcases s.sessions.authenticate_cases check s.now lookup password drawnId drawnKey with
      ⟨new, heq⟩ | ⟨error, heq⟩ <;> rw [heq]
  | validate i mac context body =>
    rw [SessionStep.take]
    rcases s.sessions.validate_cases s.now i mac context body with
      ⟨session, key, -, -, -, heq⟩ | heq | heq <;> rw [heq]
  | nextKey i drawnKey =>
    rw [SessionStep.take]
    rcases s.sessions.nextKey_cases s.now i drawnKey with
      ⟨session, key, -, -, -, heq⟩ | ⟨-, heq⟩ <;> rw [heq]
  | logout i => rfl
  | sweep => rfl
  | advance duration => rfl

/-! ### Operations on one session -/

namespace Sessions

variable {s t : Sessions} {now : Nat} {id : UInt64}

/-- A number is drawn as it is if it is not zero and no session has it. -/
theorem freshId_of_free (hid : id ≠ 0) (hfree : s.table.get? id = none) : s.freshId id = id := by
  have hfirst : (id ≠ 0 && !s.table.contains id) = true := by simp [Table.contains, hid, hfree]
  rw [freshId, List.range_succ_eq_map]
  simp only [List.map_cons, List.find?_cons]
  have hzero : id + UInt64.ofNat 0 = id := UInt64.add_zero id
  rw [hzero, hfirst]
  rfl

/-- A login that has opened a session opens the same session among other sessions, if its id is
drawn there. -/
theorem authenticate_redrawn {check : PasswordCheck} {lookup : Lookup} {password : Bytes}
    {drawnId : UInt64} {drawnKey : SessionKey} {new : NewSession}
    (h : (s.authenticate check now lookup password drawnId drawnKey).1 = .ok new)
    (hid : new.id ≠ 0) (hfree : t.table.get? new.id = none) :
    t.authenticate check now lookup password new.id drawnKey = (.ok new, { t with
      table := t.table.insert new.id ⟨new.identity, some new.key, none, now⟩ }) := by
  cases lookup with
  | unavailable => cases h
  | answered credentials =>
    simp only [authenticate] at h ⊢
    split at h
    · next c hcheck =>
      cases h
      have hsame : t.freshId (s.freshId drawnId) = s.freshId drawnId := freshId_of_free hid hfree
      simp only [start, hsame]
      rfl
    · cases h

theorem validate_congr (hsession : t.table.get? id = s.table.get? id)
    (hconfig : t.config = s.config) (mac context body : Bytes) :
    (t.validate now id mac context body).1 = (s.validate now id mac context body).1 ∧
      (t.validate now id mac context body).2.table.get? id =
        (s.validate now id mac context body).2.table.get? id := by
  rw [validate, validate, hsession, hconfig]
  cases hthere : s.table.get? id with
  | none => exact ⟨rfl, hsession⟩
  | some session =>
    simp only
    split
    · exact ⟨rfl, hsession⟩
    · split
      · exact ⟨rfl, by rw [Table.get?_erase, Table.get?_erase, if_pos rfl, if_pos rfl]⟩
      · exact ⟨rfl, by rw [Table.get?_insert, Table.get?_insert, if_pos rfl, if_pos rfl]⟩

theorem nextKey_congr (hsession : t.table.get? id = s.table.get? id) (drawnKey : SessionKey) :
    (t.nextKey now id drawnKey).1 = (s.nextKey now id drawnKey).1 ∧
      (t.nextKey now id drawnKey).2.table.get? id =
        (s.nextKey now id drawnKey).2.table.get? id := by
  rw [nextKey, nextKey, hsession]
  cases hthere : s.table.get? id with
  | none => exact ⟨rfl, hsession⟩
  | some session =>
    exact ⟨rfl, by rw [Table.get?_insert, Table.get?_insert, if_pos rfl, if_pos rfl]⟩

/-- A session that has idled out accepts nothing, and it stays as it is or goes away. -/
theorem validate_of_isExpired {session : Session} (hsession : s.table.get? id = some session)
    (hexpired : session.isExpired now s.config.idleTimeout = true) (mac context body : Bytes) :
    (s.validate now id mac context body).1 = .error .sessionInvalid ∧
      ((s.validate now id mac context body).2.table.get? id = none ∨
        (s.validate now id mac context body).2.table.get? id = some session) := by
  rw [validate, hsession]
  simp only [hexpired, if_true]
  split
  · exact ⟨rfl, .inr hsession⟩
  · exact ⟨rfl, .inl (by rw [Table.get?_erase, if_pos rfl])⟩

end Sessions

theorem Session.isExpired_mono {session : Session} {now now' limit : Nat} (hle : now ≤ now')
    (h : session.isExpired now limit = true) : session.isExpired now' limit = true := by
  simp only [Session.isExpired, decide_eq_true_eq] at h ⊢
  omega

/-! ### Steps that have to do with a session -/

/-- Whether a step has to do with a session that is there: it is an operation on the session, or
time goes by. -/
def SessionStep.isOn (id : UInt64) : SessionStep → Bool
  | .validate i _ _ _ | .nextKey i _ | .logout i => i = id
  | .advance _ => true
  | .authenticate .. | .sweep => false

namespace SessionEvent

variable {id : UInt64}

theorem accepts_of_not_isOn {e : SessionEvent} (h : e.step.isOn id = false) :
    e.accepts id = false := by
  rw [accepts]
  split
  · next heq _ =>
    rw [heq] at h
    exact h
  · rfl

/-- Only a login opens a session, and it is a step on none. -/
theorem opened?_of_isOn {s : SessionClock} {request : Nat} {step : SessionStep}
    (h : step.isOn id = true) : (s.event request step).opened? = none := by
  cases step with
  | authenticate check lookup password drawnId drawnKey => cases h
  | _ => rfl

end SessionEvent


/-- Two clocks show the same time, and a session is the same for both. -/
structure AgreeOn (id : UInt64) (s t : SessionClock) : Prop where
  now : t.now = s.now
  config : t.sessions.config = s.sessions.config
  session : t.sessions.table.get? id = s.sessions.table.get? id

/-- **What a step on a session does depends on that session only.** -/
theorem AgreeOn.take {id : UInt64} {s t : SessionClock} (h : AgreeOn id s t) {step : SessionStep}
    (hstep : step.isOn id = true) :
    (step.take t).1 = (step.take s).1 ∧ AgreeOn id (step.take s).2 (step.take t).2 := by
  have hconfig : (step.take t).2.sessions.config = (step.take s).2.sessions.config := by
    rw [config_take, config_take, h.config]
  cases step with
  | authenticate check lookup password drawnId drawnKey => cases hstep
  | validate i mac context body =>
    obtain rfl : i = id := of_decide_eq_true hstep
    obtain ⟨hreply, hsession⟩ := Sessions.validate_congr h.session h.config mac context body
    simp only [SessionStep.take, h.now] at hconfig ⊢
    exact ⟨congrArg _ hreply, rfl, hconfig, hsession⟩
  | nextKey i drawnKey =>
    obtain rfl : i = id := of_decide_eq_true hstep
    obtain ⟨hreply, hsession⟩ := Sessions.nextKey_congr h.session drawnKey
    simp only [SessionStep.take, h.now] at hconfig ⊢
    exact ⟨congrArg _ hreply, rfl, hconfig, hsession⟩
  | logout i =>
    obtain rfl : i = id := of_decide_eq_true hstep
    refine ⟨?_, h.now, hconfig, ?_⟩
    · simp only [SessionStep.take, Sessions.logout, Table.contains, h.session]
    · simp only [SessionStep.take, Sessions.logout, Table.get?_erase, if_true]
  | sweep => cases hstep
  | advance duration => exact ⟨rfl, congrArg (· + duration) h.now, hconfig, h.session⟩

/-- A step on a session finds it, if it is there afterwards, and the session is then active at the
time of the step or as active as it was. -/
theorem get?_of_get?_take {id : UInt64} {s : SessionClock} {step : SessionStep}
    (hstep : step.isOn id = true) {session : Session}
    (h : (step.take s).2.sessions.table.get? id = some session) :
    ∃ found, s.sessions.table.get? id = some found ∧
      (session.lastActive = s.now ∨ session = found) := by
  have heffect := SessionEvent.effect 0 step s id
  rw [h] at heffect
  cases heffect with
  | opens hopened =>
    rw [SessionEvent.opened?_of_isOn hstep] at hopened
    cases hopened
  | draws hbefore => exact ⟨_, hbefore, .inl rfl⟩
  | accepts hbefore => exact ⟨_, hbefore, .inl rfl⟩
  | keeps hbefore => exact ⟨_, hbefore, .inr rfl⟩

/-- A step that has nothing to do with a session, and is no sweep and no login that opens it, leaves
it as it is. -/
theorem get?_take_of_not_isOn {id : UInt64} {s : SessionClock} {request : Nat} {step : SessionStep}
    (hstep : step.isOn id = false) (hsweep : step ≠ .sweep)
    (hopened : ∀ new, (s.event request step).opened? = some new → new.id ≠ id) :
    (step.take s).2.sessions.table.get? id = s.sessions.table.get? id := by
  cases step with
  | authenticate check lookup password drawnId drawnKey =>
    rw [SessionStep.take]
    rcases s.sessions.authenticate_cases check s.now lookup password drawnId drawnKey with
      ⟨new, heq⟩ | ⟨error, heq⟩
    · have hne : new.id ≠ id := hopened new (by
        rw [SessionClock.event, SessionStep.take, heq]
        rfl)
      rw [heq]
      exact (Table.get?_insert _ _ _ _).trans (if_neg hne.symm)
    · rw [heq]
  | validate i mac context body =>
    have hne : ¬id = i := Ne.symm (of_decide_eq_false hstep)
    rw [SessionStep.take]
    rcases s.sessions.validate_cases s.now i mac context body with
      ⟨session, key, -, -, -, heq⟩ | heq | heq
    · rw [heq]
      exact (Table.get?_insert _ _ _ _).trans (if_neg hne)
    · rw [heq]
      exact (Table.get?_erase _ _ _).trans (if_neg hne)
    · rw [heq]
  | nextKey i drawnKey =>
    have hne : ¬id = i := Ne.symm (of_decide_eq_false hstep)
    rw [SessionStep.take]
    rcases s.sessions.nextKey_cases s.now i drawnKey with ⟨session, key, -, -, -, heq⟩ | ⟨-, heq⟩
    · rw [heq]
      exact (Table.get?_insert _ _ _ _).trans (if_neg hne)
    · rw [heq]
  | logout i =>
    have hne : ¬id = i := Ne.symm (of_decide_eq_false hstep)
    exact (Table.get?_erase _ _ _).trans (if_neg hne)
  | sweep => exact absurd rfl hsweep
  | advance duration => cases hstep

/-- A sweep removes a session only if it has idled out. -/
theorem get?_take_sweep (s : SessionClock) (id : UInt64) :
    (SessionStep.sweep.take s).2.sessions.table.get? id = s.sessions.table.get? id ∨
      (SessionStep.sweep.take s).2.sessions.table.get? id = none ∧ ∀ session,
        s.sessions.table.get? id = some session →
          session.isExpired s.now s.sessions.config.idleTimeout = true := by
  simp only [SessionStep.take, Sessions.sweep, Table.get?_filter]
  cases hthere : s.sessions.table.get? id with
  | none => exact .inl rfl
  | some session =>
    cases hexpired : session.isExpired s.now s.sessions.config.idleTimeout with
    | false => exact .inl (by simp [hexpired])
    | true => exact .inr ⟨by simp [hexpired], fun _ heq => Option.some.inj heq ▸ hexpired⟩

theorem now_take {s t : SessionClock} (h : t.now = s.now) (step : SessionStep) :
    (step.take t).2.now = (step.take s).2.now := by
  cases step with
  | advance duration => exact congrArg (· + duration) h
  | _ => exact h

theorem le_now_take (s : SessionClock) (step : SessionStep) : s.now ≤ (step.take s).2.now := by
  cases step with
  | advance duration => exact Nat.le_add_right _ _
  | _ => exact Nat.le_refl _

/-- A session that has just accepted a request is active. -/
theorem SessionEvent.Effect.of_accepts {e : SessionEvent} {id : UInt64} {left : Option Session}
    (h : e.Effect id left) (haccepts : e.accepts id = true) :
    ∃ session, left = some session ∧ session.lastActive = e.before.now := by
  cases h with
  | accepts => exact ⟨_, rfl, rfl⟩
  | opens _ _ _ hrejects => exact absurd haccepts (by simp [hrejects])
  | draws _ _ _ _ hrejects => exact absurd haccepts (by simp [hrejects])
  | removes _ hrejects => exact absurd haccepts (by simp [hrejects])
  | keeps _ _ hrejects => exact absurd haccepts (by simp [hrejects])

end Strongroom
