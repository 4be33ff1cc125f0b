import Strongroom.Proofs.History
import Strongroom.Session.Basic

/-!
# Traces of the sessions

Requests that are served at the same time share the sessions.  The sessions are behind a lock, so
that their operations happen one after another, in whatever order the requests get at them.  A step
is one operation, or the clock going on; a trace is any sequence of steps from the time when there
are no sessions (`SessionTrace`).  It says of each step which request took it, what the sessions
were just before, and what the reply was.  Nothing is assumed about which request takes which step
when, so a statement about all traces is one about all interleavings.

What one step can do to one session is said once, in `SessionEvent.Effect`: it opens the session,
draws its next key, accepts a request, removes it, or leaves it as it is.
-/

namespace Strongroom

/-! ### Keys that are drawn -/

namespace Session

theorem neighbour_ne {key : SessionKey} {m n : Nat} (hm : m < 256) (hn : n < 256) (h : m ≠ n) :
    neighbour key m ≠ neighbour key n := by
  intro heq
  have hbytes := congrArg Octets.bytes heq
  have hlen := key.length_eq
  rw [neighbour, neighbour] at hbytes
  cases hkey : key.bytes with
  | nil => simp [hkey] at hlen
  | cons b bs =>
    simp only [hkey, List.modifyHead_cons, List.cons.injEq, and_true] at hbytes
    have hoffset := congrArg UInt8.toNat ((UInt8.add_right_inj b).1 hbytes)
    rw [UInt8.toNat_ofNat', UInt8.toNat_ofNat'] at hoffset
    omega

/-- A key that is drawn is neither the live nor the retired one. -/
theorem freshKey_ne (s : Session) (draw : SessionKey) :
    s.key ≠ some (s.freshKey draw) ∧ s.retired ≠ some (s.freshKey draw) := by
  have h01 : neighbour draw 0 ≠ neighbour draw 1 := neighbour_ne (by decide) (by decide) (by decide)
  have h02 : neighbour draw 0 ≠ neighbour draw 2 := neighbour_ne (by decide) (by decide) (by decide)
  have h12 : neighbour draw 1 ≠ neighbour draw 2 := neighbour_ne (by decide) (by decide) (by decide)
  simp only [freshKey, Bool.not_eq_true', Bool.or_eq_false_iff, decide_eq_false_iff_not]
  split
  · next h => exact h
  · next h0 =>
    split
    · next h => exact h
    · next h1 =>
      -- two keys are taken, and both are in front of the third neighbour
      by_cases hlive : s.key = some (neighbour draw 0)
      · have hretired : s.retired = some (neighbour draw 1) := by
          by_contra hr
          exact h1 ⟨by simpa [hlive] using h01, hr⟩
        exact ⟨by simpa [hlive] using h02, by simpa [hretired] using h12⟩
      · have hretired : s.retired = some (neighbour draw 0) := by
          by_contra hr
          exact h0 ⟨hlive, hr⟩
        have hkey : s.key = some (neighbour draw 1) := by
          by_contra hk
          exact h1 ⟨hk, by simpa [hretired] using h01⟩
        exact ⟨by simpa [hkey] using h12, by simpa [hretired] using h02⟩

end Session

/-! ### Operations -/

namespace Sessions

/-- A login opens one session, with a key, or changes nothing. -/
theorem authenticate_cases (s : Sessions) (check : PasswordCheck) (now : Nat) (lookup : Lookup)
    (password : Bytes) (drawnId : UInt64) (drawnKey : SessionKey) :
    (∃ new, s.authenticate check now lookup password drawnId drawnKey = (.ok new, { s with
      table := s.table.insert new.id ⟨new.identity, some new.key, none, now⟩ })) ∨
    ∃ e, s.authenticate check now lookup password drawnId drawnKey = (.error e, s) := by
  cases lookup with
  | unavailable => exact .inr ⟨_, rfl⟩
  | answered credentials =>
    simp only [authenticate]
    split
    · exact .inl ⟨_, rfl⟩
    · exact .inr ⟨_, rfl⟩

/-- A request is accepted under the live key, which is then retired; or the session, if it is
expired, is removed; or nothing changes. -/
theorem validate_cases (s : Sessions) (now : Nat) (id : UInt64) (mac context body : Bytes) :
    (∃ session key, s.table.get? id = some session ∧ session.key = some key ∧
      RequestMac.verify key.bytes mac context body = true ∧
      s.validate now id mac context body = (.ok session.identity, { s with
        table := s.table.insert id
          { session with key := none, retired := some key, lastActive := now } })) ∨
    s.validate now id mac context body =
      (.error .sessionInvalid, { s with table := s.table.erase id }) ∨
    s.validate now id mac context body = (.error .sessionInvalid, s) := by
  rw [validate]
  cases hsession : s.table.get? id with
  | none => exact .inr (.inr rfl)
  | some session =>
    simp only
    by_cases haccepts : session.accepts mac context body = true
    · rw [haccepts, if_neg (by decide)]
      by_cases hexpired : session.isExpired now s.config.idleTimeout = true
      · rw [if_pos hexpired]
        exact .inr (.inl rfl)
      · rw [if_neg hexpired]
        obtain ⟨key, hkey, hverify⟩ := (Option.any_eq_true _ _).1 haccepts
        refine .inl ⟨session, key, rfl, hkey, hverify, ?_⟩
        rw [Session.retire, hkey]
    · rw [Bool.not_eq_true] at haccepts
      rw [haccepts, if_pos (by decide)]
      exact .inr (.inr rfl)

/-- The next key of a session is neither its live nor its retired key, and the live key, if there is
one, is retired. -/
theorem nextKey_cases (s : Sessions) (now : Nat) (id : UInt64) (drawnKey : SessionKey) :
    (∃ session key, s.table.get? id = some session ∧ session.key ≠ some key ∧
      session.retired ≠ some key ∧ s.nextKey now id drawnKey = (.ok key, { s with
        table := s.table.insert id { session with
          key := some key, retired := session.key <|> session.retired, lastActive := now } })) ∨
    s.table.get? id = none ∧ s.nextKey now id drawnKey = (.error .sessionInvalid, s) := by
  rw [nextKey]
  cases hsession : s.table.get? id with
  | none => exact .inr ⟨rfl, rfl⟩
  | some session =>
    obtain ⟨hlive, hretired⟩ := session.freshKey_ne drawnKey
    exact .inl ⟨session, _, rfl, hlive, hretired, rfl⟩

end Sessions

/-! ### Steps -/

/-- The sessions and the time. -/
structure SessionClock where
  sessions : Sessions
  /-- The time. -/
  now : Nat

/-- An operation on the sessions, or the clock going on. -/
inductive SessionStep where
  | authenticate (check : PasswordCheck) (lookup : Lookup) (password : Bytes) (drawnId : UInt64)
      (drawnKey : SessionKey)
  | validate (id : UInt64) (mac context body : Bytes)
  | nextKey (id : UInt64) (drawnKey : SessionKey)
  | logout (id : UInt64)
  | sweep
  | advance (duration : Nat)

/-- The reply to a step. -/
inductive SessionReply where
  | opened (r : Except SessionError NewSession)
  | validated (r : Except SessionError Identity)
  | drawn (r : Except SessionError SessionKey)
  | closed (wasThere : Bool)
  | swept (count : Nat)
  | passed

/-- Takes a step. -/
def SessionStep.take (s : SessionClock) : SessionStep → SessionReply × SessionClock
  | .authenticate check lookup password drawnId drawnKey =>
    let (r, sessions) := s.sessions.authenticate check s.now lookup password drawnId drawnKey
    (.opened r, { s with sessions })
  | .validate id mac context body =>
    let (r, sessions) := s.sessions.validate s.now id mac context body
    (.validated r, { s with sessions })
  | .nextKey id drawnKey =>
    let (r, sessions) := s.sessions.nextKey s.now id drawnKey
    (.drawn r, { s with sessions })
  | .logout id =>
    let (r, sessions) := s.sessions.logout id
    (.closed r, { s with sessions })
  | .sweep =>
    let (r, sessions) := s.sessions.sweep s.now
    (.swept r, { s with sessions })
  | .advance duration => (.passed, { s with now := s.now + duration })

/-! ### Traces -/

/-- A step that a request has taken. -/
structure SessionEvent where
  request : Nat
  step : SessionStep
  /-- What it found. -/
  before : SessionClock
  /-- The reply to it. -/
  reply : SessionReply

/-- The traces from the time when there are no sessions, and what they lead to. -/
inductive SessionTrace (config : SessionConfig) : List SessionEvent → SessionClock → Prop where
  | start (now : Nat) : SessionTrace config [] ⟨.empty config, now⟩
  | step {es : List SessionEvent} {s : SessionClock} (prior : SessionTrace config es s)
      (request : Nat) (step : SessionStep) :
      SessionTrace config (es ++ [⟨request, step, s, (step.take s).1⟩]) (step.take s).2

namespace SessionEvent

/-- The session under an id, just before the step. -/
def session? (e : SessionEvent) (id : UInt64) : Option Session := e.before.sessions.table.get? id

/-- The live key of the session under an id, just before the step. -/
def liveKey? (e : SessionEvent) (id : UInt64) : Option SessionKey := (e.session? id).bind (·.key)

/-- The session that the step has opened. -/
def opened? (e : SessionEvent) : Option NewSession :=
  match e.reply with
  | .opened (.ok new) => some new
  | _ => none

/-- Whether the step asks for the next key of a session. -/
def asksKey (e : SessionEvent) (id : UInt64) : Bool :=
  match e.step with
  | .nextKey i _ => i = id
  | _ => false

/-- The key that the step has drawn for a session. -/
def drawn? (e : SessionEvent) (id : UInt64) : Option SessionKey :=
  match e.reply with
  | .drawn (.ok key) => if e.asksKey id then some key else none
  | _ => none

/-- Whether the step has accepted a request in a session. -/
def accepts (e : SessionEvent) (id : UInt64) : Bool :=
  match e.step, e.reply with
  | .validate i _ _ _, .validated (.ok _) => i = id
  | _, _ => false

/-- The step has accepted a request in a session, under a key that its code fits. -/
def AcceptsUnder (e : SessionEvent) (id : UInt64) (key : SessionKey) : Prop :=
  e.accepts id = true ∧ e.liveKey? id = some key ∧ ∃ mac context body,
    e.step = .validate id mac context body ∧ RequestMac.verify key.bytes mac context body = true

/-- The key that the step has consumed, by accepting a request, or replaced, by drawing the next. -/
def spent? (e : SessionEvent) (id : UInt64) : Option SessionKey :=
  if e.accepts id || (e.drawn? id).isSome then e.liveKey? id else none

end SessionEvent

/-- The events of requests that take their steps one after another. -/
def eventsOf (s : SessionClock) : List (Nat × SessionStep) → List SessionEvent
  | [] => []
  | (request, step) :: steps =>
    ⟨request, step, s, (step.take s).1⟩ :: eventsOf (step.take s).2 steps

/-- Any steps make a trace. -/
theorem SessionTrace.append_eventsOf {config : SessionConfig} {es : List SessionEvent}
    {s : SessionClock} (h : SessionTrace config es s) (steps : List (Nat × SessionStep)) :
    ∃ t, SessionTrace config (es ++ eventsOf s steps) t := by
  induction steps generalizing es s with
  | nil =>
    refine ⟨s, ?_⟩
    rw [eventsOf, List.append_nil]
    exact h
  | cons x steps ih =>
    obtain ⟨t, ht⟩ := ih (h.step x.1 x.2)
    refine ⟨t, ?_⟩
    rw [List.append_assoc] at ht
    exact ht

/-- No id is drawn for a new session that was one of an earlier session. -/
def FreshIds (es : List SessionEvent) : Prop :=
  (es.filterMap fun e => e.opened?.map (·.id)).Nodup

theorem FreshIds.of_append {es es' : List SessionEvent} (h : FreshIds (es ++ es')) :
    FreshIds es := by
  rw [FreshIds, List.filterMap_append, List.nodup_append] at h
  exact h.1

theorem FreshIds.of_concat {es : List SessionEvent} {e : SessionEvent} (h : FreshIds (es ++ [e])) :
    FreshIds es ∧ ∀ new, e.opened? = some new → ∀ e' ∈ es, ∀ new', e'.opened? = some new' →
      new'.id ≠ new.id := by
  rw [FreshIds, List.filterMap_append, List.nodup_append] at h
  obtain ⟨hes, -, hne⟩ := h
  refine ⟨hes, fun new hnew e' he' new' hnew' => ?_⟩
  refine hne _ (List.mem_filterMap.2 ⟨e', he', ?_⟩) _ ?_
  · rw [hnew']
    rfl
  · simp [hnew]

/-! ### What a step does to a session -/

namespace SessionEvent

/-- What a step can do to the session under an id, by what is there behind the step. -/
inductive Effect (e : SessionEvent) (id : UInt64) : Option Session → Prop where
  /-- The session is new and has its first key. -/
  | opens {new : NewSession} (hopened : e.opened? = some new) (hid : new.id = id)
      (hdrawn : e.drawn? id = none) (haccepts : e.accepts id = false)
      (hasks : e.asksKey id = false) :
      Effect e id (some ⟨new.identity, some new.key, none, e.before.now⟩)
  /-- The session has its next key, and the live key, if there was one, is retired. -/
  | draws {session : Session} {key : SessionKey} (hbefore : e.session? id = some session)
      (hdrawn : e.drawn? id = some key) (hlive : session.key ≠ some key)
      (hretired : session.retired ≠ some key) (haccepts : e.accepts id = false)
      (hasks : e.asksKey id = true) (hopened : e.opened? = none) :
      Effect e id (some { session with
        key := some key, retired := session.key <|> session.retired, lastActive := e.before.now })
  /-- The session has accepted a request, and its live key is retired. -/
  | accepts {session : Session} {key : SessionKey} (hbefore : e.session? id = some session)
      (haccepts : e.AcceptsUnder id key) (hlive : session.key = some key)
      (hdrawn : e.drawn? id = none) (hasks : e.asksKey id = false) (hopened : e.opened? = none) :
      Effect e id (some { session with
        key := none, retired := some key, lastActive := e.before.now })
  /-- There is no such session behind the step. -/
  | removes (hdrawn : e.drawn? id = none) (haccepts : e.accepts id = false) : Effect e id none
  /-- Nothing has happened to the session. -/
  | keeps {session : Session} (hbefore : e.session? id = some session)
      (hdrawn : e.drawn? id = none) (haccepts : e.accepts id = false)
      (hasks : e.asksKey id = false) : Effect e id (some session)

/-- What is left as it was may be no session at all. -/
theorem Effect.unchanged {e : SessionEvent} {id : UInt64} (hdrawn : e.drawn? id = none)
    (haccepts : e.accepts id = false) (hasks : e.session? id ≠ none → e.asksKey id = false) :
    Effect e id (e.session? id) := by
  cases hsession : e.session? id with
  | none => exact .removes hdrawn haccepts
  | some session => exact .keeps hsession hdrawn haccepts (hasks (by simp [hsession]))

/-- **What a step can do to a session.** -/
theorem effect (request : Nat) (step : SessionStep) (s : SessionClock) (id : UInt64) :
    Effect ⟨request, step, s, (step.take s).1⟩ id ((step.take s).2.sessions.table.get? id) := by
  cases step with
  | authenticate check lookup password drawnId drawnKey =>
    rw [SessionStep.take]
    rcases s.sessions.authenticate_cases check s.now lookup password drawnId drawnKey with
      ⟨new, heq⟩ | ⟨error, heq⟩
    · simp only [heq, Table.get?_insert]
      by_cases hid : id = new.id
      · rw [if_pos hid]
        exact .opens rfl hid.symm rfl rfl rfl
      · rw [if_neg hid]
        exact .unchanged rfl rfl fun _ => rfl
    · simp only [heq]
      exact .unchanged rfl rfl fun _ => rfl
  | validate i mac context body =>
    rw [SessionStep.take]
    rcases s.sessions.validate_cases s.now i mac context body with
      ⟨session, key, hsession, hkey, hverify, heq⟩ | heq | heq
    · simp only [heq, Table.get?_insert]
      by_cases hid : id = i
      · subst hid
        rw [if_pos rfl]
        have hlive : (s.sessions.table.get? id).bind (·.key) = some key := by
          rw [hsession, Option.bind_some, hkey]
        exact .accepts hsession ⟨decide_eq_true rfl, hlive, mac, context, body, rfl, hverify⟩ hkey
          rfl rfl rfl
      · rw [if_neg hid]
        exact .unchanged rfl (decide_eq_false (Ne.symm hid)) fun _ => rfl
    · simp only [heq, Table.get?_erase]
      by_cases hid : id = i
      · rw [if_pos hid]
        exact .removes rfl rfl
      · rw [if_neg hid]
        exact .unchanged rfl rfl fun _ => rfl
    · simp only [heq]
      exact .unchanged rfl rfl fun _ => rfl
  | nextKey i drawnKey =>
    rw [SessionStep.take]
    rcases s.sessions.nextKey_cases s.now i drawnKey with
      ⟨session, key, hsession, hlive, hretired, heq⟩ | ⟨hsession, heq⟩
    · simp only [heq, Table.get?_insert]
      by_cases hid : id = i
      · subst hid
        rw [if_pos rfl]
        exact .draws hsession (if_pos (decide_eq_true rfl)) hlive hretired rfl
          (decide_eq_true rfl) rfl
      · rw [if_neg hid]
        have hasks : decide (i = id) = false := decide_eq_false (Ne.symm hid)
        exact .unchanged (if_neg (by simp [asksKey, hasks])) rfl fun _ => hasks
    · simp only [heq]
      refine .unchanged rfl rfl fun hne => decide_eq_false fun hid => hne ?_
      rw [← hid]
      exact hsession
  | logout i =>
    rw [SessionStep.take, Sessions.logout]
    simp only [Table.get?_erase]
    by_cases hid : id = i
    · rw [if_pos hid]
      exact .removes rfl rfl
    · rw [if_neg hid]
      exact .unchanged rfl rfl fun _ => rfl
  | sweep =>
    rw [SessionStep.take, Sessions.sweep]
    simp only [Table.get?_filter]
    cases hsession : s.sessions.table.get? id with
    | none => exact .removes rfl rfl
    | some session =>
      rw [Option.filter_some]
      split
      · exact .keeps hsession rfl rfl rfl
      · exact .removes rfl rfl
  | advance duration => exact .unchanged rfl rfl fun _ => rfl

end SessionEvent

namespace SessionTrace

variable {config : SessionConfig} {es : List SessionEvent} {s : SessionClock}

/-- In front of each of its events, a trace is the trace of what the event found. -/
theorem of_append {before after : List SessionEvent} {e : SessionEvent}
    (h : SessionTrace config (before ++ e :: after) s) :
    SessionTrace config before e.before ∧ e.reply = (e.step.take e.before).1 := by
  generalize hes : before ++ e :: after = es at h
  induction h generalizing after with
  | start now => simp at hes
  | @step es s prior request step ih =>
    rcases List.eq_nil_or_concat after with rfl | ⟨after, e', rfl⟩
    · obtain ⟨rfl, he⟩ := List.append_inj' hes rfl
      obtain rfl : e = _ := by simpa using he
      exact ⟨prior, rfl⟩
    · rw [List.concat_eq_append, ← List.cons_append, ← List.append_assoc] at hes
      exact ih (List.append_inj' hes rfl).1

/-- What an event of a trace has done to the session under an id. -/
theorem effect_of_append {before after : List SessionEvent} {e : SessionEvent}
    (h : SessionTrace config (before ++ e :: after) s) (id : UInt64) :
    ∃ left, e.Effect id left := by
  have heffect := SessionEvent.effect e.request e.step e.before id
  rw [← h.of_append.2] at heffect
  exact ⟨_, heffect⟩

/-- A request is accepted under a live key. -/
theorem of_accepts {before after : List SessionEvent} {e : SessionEvent} {id : UInt64}
    (h : SessionTrace config (before ++ e :: after) s) (haccepts : e.accepts id = true) :
    ∃ session key, e.session? id = some session ∧ session.key = some key ∧
      e.AcceptsUnder id key := by
  obtain ⟨left, heffect⟩ := h.effect_of_append id
  cases heffect with
  | accepts hbefore hunder hlive => exact ⟨_, _, hbefore, hlive, hunder⟩
  | opens _ _ _ hrejects => exact absurd haccepts (by simp [hrejects])
  | draws _ _ _ _ hrejects => exact absurd haccepts (by simp [hrejects])
  | removes _ hrejects => exact absurd haccepts (by simp [hrejects])
  | keeps _ _ hrejects => exact absurd haccepts (by simp [hrejects])

/-- A key is drawn for a session that is there, and it is neither its live nor its retired key. -/
theorem of_drawn {before after : List SessionEvent} {e : SessionEvent} {id : UInt64}
    {key : SessionKey} (h : SessionTrace config (before ++ e :: after) s)
    (hdrawn : e.drawn? id = some key) :
    ∃ session, e.session? id = some session ∧ session.key ≠ some key ∧
      session.retired ≠ some key := by
  obtain ⟨left, heffect⟩ := h.effect_of_append id
  cases heffect with
  | draws hbefore hdraws hlive hretired =>
    obtain rfl := Option.some.inj (hdrawn.symm.trans hdraws)
    exact ⟨_, hbefore, hlive, hretired⟩
  | opens _ _ hnone => exact absurd hdrawn (by simp [hnone])
  | accepts _ _ _ hnone => exact absurd hdrawn (by simp [hnone])
  | removes hnone => exact absurd hdrawn (by simp [hnone])
  | keeps _ hnone => exact absurd hdrawn (by simp [hnone])

/-- A session that is there has been opened. -/
theorem opened (h : SessionTrace config es s) {id : UInt64} {session : Session}
    (hsession : s.sessions.table.get? id = some session) :
    ∃ e ∈ es, ∃ new, e.opened? = some new ∧ new.id = id := by
  induction h generalizing session with
  | start now => simp [Sessions.empty, Table.get?, Table.empty] at hsession
  | @step es s prior request step ih =>
    have hmore : ∀ {session}, s.sessions.table.get? id = some session →
        ∃ e ∈ es ++ [⟨request, step, s, (step.take s).1⟩],
          ∃ new, SessionEvent.opened? e = some new ∧ new.id = id := by
      intro session hbefore
      obtain ⟨e, he, hopened⟩ := ih hbefore
      exact ⟨e, List.mem_append_left _ he, hopened⟩
    have heffect := SessionEvent.effect request step s id
    rw [hsession] at heffect
    cases heffect with
    | @opens new hopened hid => exact ⟨_, List.mem_append_right _ (by simp), new, hopened, hid⟩
    | draws hbefore => exact hmore hbefore
    | accepts hbefore => exact hmore hbefore
    | keeps hbefore => exact hmore hbefore

/-- Nothing has happened to a session that was never opened. -/
theorem session?_eq_none (h : SessionTrace config es s) {id : UInt64}
    (hnew : ∀ e ∈ es, ∀ new, e.opened? = some new → new.id ≠ id) {e : SessionEvent} (he : e ∈ es) :
    e.session? id = none := by
  obtain ⟨before, after, rfl⟩ := List.append_of_mem he
  cases hsession : e.session? id with
  | none => rfl
  | some session =>
    obtain ⟨e', he', new, hopened, hid⟩ := h.of_append.1.opened hsession
    exact absurd hid (hnew e' (by simp [he']) new hopened)

end SessionTrace

end Strongroom
