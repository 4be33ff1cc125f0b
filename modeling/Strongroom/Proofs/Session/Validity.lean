import Strongroom.Proofs.Session.Locality

/-!
# Which requests are accepted

Whether a request is accepted can be told from the history alone, without a look at the table.  A
session has been opened under its id and not been removed since (`OpenFor`), the code fits the key
that was issued for it last, and that key has not been consumed (`CodeFits`), and it has been used
less than one idle timeout ago (`LastActive`).  Each of these is a fact about what stands in the
history, and the session in the table keeps just these facts (`Remembers`): a step changes the one
as it changes the other.

To be removed is to be in the table before a step and not behind it.  This can be told from the
history too (`removes_iff`), so nothing here rests on what the table holds in between.
-/

namespace Strongroom

/-! ### What an event does to a session -/

namespace SessionEvent

/-- The session under an id, just behind the step. -/
def left? (e : SessionEvent) (id : UInt64) : Option Session :=
  (e.step.take e.before).2.sessions.table.get? id

/-- The session that the step has opened under an id. -/
def opens? (e : SessionEvent) (id : UInt64) : Option NewSession :=
  e.opened?.filter fun new => new.id = id

/-- The key that the step has issued for a session: the first one or the next. -/
def issued? (e : SessionEvent) (id : UInt64) : Option SessionKey :=
  (e.opens? id).map (·.key) <|> e.drawn? id

/-- Whether the step has opened a session, accepted a request in it or drawn a key for it. -/
def uses (e : SessionEvent) (id : UInt64) : Bool :=
  (e.opens? id).isSome || e.accepts id || (e.drawn? id).isSome

/-- The session was there just before the step, and is not there behind it. -/
def Removes (e : SessionEvent) (id : UInt64) : Prop :=
  e.session? id ≠ none ∧ e.left? id = none

end SessionEvent

/-! ### What stands in the history -/

/-- A session has been opened under an id for an identity, and has not been removed since. -/
def OpenFor (es : List SessionEvent) (id : UInt64) (identity : Identity) : Prop :=
  Standing (fun e => (e.opens? id).map (·.identity) = some identity)
    (fun e => e.Removes id ∨ e.opens? id ≠ none) es

/-- The key that was issued last for a session. -/
def LastIssued (es : List SessionEvent) (id : UInt64) (key : SessionKey) : Prop :=
  Standing (fun e => e.issued? id = some key) (fun e => e.issued? id ≠ none) es

/-- A request has been accepted in a session since the last key was issued for it. -/
def Consumed (es : List SessionEvent) (id : UInt64) : Prop :=
  Standing (fun e => e.accepts id = true) (fun e => e.issued? id ≠ none) es

/-- The time at which a session was opened, accepted a request or was given a key for the last
time. -/
def LastActive (es : List SessionEvent) (id : UInt64) (time : Nat) : Prop :=
  Standing (fun e => e.uses id = true ∧ e.before.now = time) (fun e => e.uses id = true) es

section Concat

variable {es : List SessionEvent} {e : SessionEvent} {id : UInt64}

theorem openFor_concat {identity : Identity} : OpenFor (es ++ [e]) id identity ↔
    (e.opens? id).map (·.identity) = some identity ∨
      OpenFor es id identity ∧ ¬ e.Removes id ∧ e.opens? id = none := by
  rw [OpenFor, standing_concat, not_or, not_not]
  rfl

theorem openFor_concat_of_opens {identity : Identity} (hopens : e.opens? id = none) :
    OpenFor (es ++ [e]) id identity ↔ OpenFor es id identity ∧ ¬ e.Removes id := by
  rw [openFor_concat, hopens, and_iff_left rfl]
  refine or_iff_right fun hnew => ?_
  cases hnew

theorem lastIssued_concat {key : SessionKey} : LastIssued (es ++ [e]) id key ↔
    e.issued? id = some key ∨ LastIssued es id key ∧ e.issued? id = none := by
  rw [LastIssued, standing_concat, not_not]
  rfl

theorem consumed_concat : Consumed (es ++ [e]) id ↔
    e.accepts id = true ∨ Consumed es id ∧ e.issued? id = none := by
  rw [Consumed, standing_concat, not_not]
  rfl

theorem lastActive_concat {time : Nat} : LastActive (es ++ [e]) id time ↔
    e.uses id = true ∧ e.before.now = time ∨ LastActive es id time ∧ ¬ e.uses id = true :=
  standing_concat

theorem lastActive_concat_of_uses {time : Nat} (huses : e.uses id = true) :
    LastActive (es ++ [e]) id time ↔ e.before.now = time := by
  rw [lastActive_concat, and_iff_right huses]
  exact or_iff_left fun hold => hold.2 huses

end Concat

/-- A code is that of a request under the key that was issued last, and the key is not consumed. -/
def CodeFits (es : List SessionEvent) (id : UInt64) (mac context body : Bytes) : Prop :=
  ¬ Consumed es id ∧ ∃ key, LastIssued es id key ∧
    mac = (RequestMac.compute key.bytes context body).bytes

/-- A session has been idle for some time or longer. -/
def IdleFor (es : List SessionEvent) (id : UInt64) (now limit : Nat) : Prop :=
  ∃ time, LastActive es id time ∧ limit ≤ now - time

/-! ### What a session remembers -/

/-- What a session in the table says about its past. -/
structure Recorded (es : List SessionEvent) (id : UInt64) (session : Session) : Prop where
  identity : ∀ identity, OpenFor es id identity ↔ identity = session.identity
  key : ∀ key, session.key = some key ↔ LastIssued es id key ∧ ¬ Consumed es id
  active : ∀ time, LastActive es id time ↔ time = session.lastActive

/-- A session in the table tells its past, and one that is not there is not open. -/
def Remembers (es : List SessionEvent) (id : UInt64) : Option Session → Prop
  | some session => Recorded es id session
  | none => ∀ identity, ¬ OpenFor es id identity

namespace Recorded

variable {es : List SessionEvent} {id : UInt64} {session : Session}

theorem codeFits_iff (h : Recorded es id session) (mac context body : Bytes) :
    CodeFits es id mac context body ↔ session.accepts mac context body = true := by
  rw [Session.accepts, Option.any_eq_true]
  constructor
  · rintro ⟨hunused, key, hissued, hmac⟩
    exact ⟨key, (h.key key).2 ⟨hissued, hunused⟩, decide_eq_true hmac⟩
  · rintro ⟨key, hkey, hverify⟩
    obtain ⟨hissued, hunused⟩ := (h.key key).1 hkey
    exact ⟨hunused, key, hissued, of_decide_eq_true hverify⟩

theorem idleFor_iff (h : Recorded es id session) (now limit : Nat) :
    IdleFor es id now limit ↔ session.isExpired now limit = true := by
  rw [Session.isExpired, decide_eq_true_eq]
  constructor
  · rintro ⟨time, hactive, hlong⟩
    rwa [(h.active time).1 hactive] at hlong
  · intro hlong
    exact ⟨session.lastActive, (h.active _).2 rfl, hlong⟩

/-- What has just been opened tells that it has. -/
theorem of_opens {e : SessionEvent} {new : NewSession} (hopens : e.opens? id = some new)
    (haccepts : e.accepts id = false) :
    Recorded (es ++ [e]) id ⟨new.identity, some new.key, none, e.before.now⟩ := by
  have hissued : e.issued? id = some new.key := by rw [SessionEvent.issued?, hopens]; rfl
  have huses : e.uses id = true := by rw [SessionEvent.uses, hopens]; rfl
  refine ⟨fun identity => ?_, fun key => ?_, fun time => ?_⟩
  · have hnot : ¬ (OpenFor es id identity ∧ ¬ e.Removes id ∧ e.opens? id = none) := by
      rintro ⟨-, -, hnone⟩
      rw [hopens] at hnone
      cases hnone
    rw [openFor_concat, or_iff_left hnot, hopens, Option.map_some, Option.some_inj, eq_comm]
  · rw [lastIssued_concat, consumed_concat, hissued, haccepts]
    simp
  · rw [lastActive_concat_of_uses huses]
    exact eq_comm

variable {e : SessionEvent}

/-- A session that has been given a key, or has accepted a request, tells that too. -/
theorem of_uses (h : Recorded es id session) (hopens : e.opens? id = none)
    (hstays : ¬ e.Removes id) (huses : e.uses id = true) {key : Option SessionKey}
    (hkey : ∀ k, key = some k ↔ LastIssued (es ++ [e]) id k ∧ ¬ Consumed (es ++ [e]) id)
    (retired : Option SessionKey) :
    Recorded (es ++ [e]) id ⟨session.identity, key, retired, e.before.now⟩ := by
  refine ⟨fun identity => ?_, hkey, fun time => ?_⟩
  · rw [openFor_concat_of_opens hopens, and_iff_left hstays, h.identity]
  · rw [lastActive_concat_of_uses huses]
    exact eq_comm

/-- A session to which nothing has happened tells the same as before. -/
theorem of_keeps (h : Recorded es id session) (hopens : e.opens? id = none)
    (hstays : ¬ e.Removes id) (hdrawn : e.drawn? id = none) (haccepts : e.accepts id = false) :
    Recorded (es ++ [e]) id session := by
  have hissued : e.issued? id = none := by rw [SessionEvent.issued?, hopens, hdrawn]; rfl
  have huses : e.uses id = false := by rw [SessionEvent.uses, hopens, hdrawn, haccepts]; rfl
  refine ⟨fun identity => ?_, fun key => ?_, fun time => ?_⟩
  · rw [openFor_concat_of_opens hopens, and_iff_left hstays, h.identity]
  · rw [lastIssued_concat, consumed_concat, hissued, haccepts, h.key]
    simp
  · rw [lastActive_concat, huses, ← h.active]
    simp

end Recorded

/-! ### Steps and traces -/

/-- A request removes a session only if it is in that session, its code fits, and the session has
idled out. -/
theorem Sessions.get?_validate_eq_none_iff {s : Sessions} {now : Nat} {id i : UInt64}
    {session : Session} (hthere : s.table.get? id = some session) {mac context body : Bytes} :
    (s.validate now i mac context body).2.table.get? id = none ↔ i = id ∧
      session.accepts mac context body = true ∧
      session.isExpired now s.config.idleTimeout = true := by
  by_cases hid : i = id
  · subst hid
    rw [validate, hthere]
    simp only
    cases haccepts : session.accepts mac context body with
    | false => simp [hthere]
    | true =>
      cases hexpired : session.isExpired now s.config.idleTimeout with
      | false => simp [Table.get?_insert]
      | true => simp [Table.get?_erase]
  · refine iff_of_false ?_ fun hsame => hid hsame.1
    have hother : ¬ id = i := fun heq => hid heq.symm
    rcases s.validate_cases now i mac context body with ⟨found, key, -, -, -, heq⟩ | heq | heq
    · rw [heq, Table.get?_insert, if_neg hother, hthere]
      simp
    · rw [heq, Table.get?_erase, if_neg hother, hthere]
      simp
    · rw [heq, hthere]
      simp

namespace SessionEvent

variable {e : SessionEvent} {id : UInt64} {es : List SessionEvent}

theorem effect_left? (hreply : e.reply = (e.step.take e.before).1) (id : UInt64) :
    e.Effect id (e.left? id) := by
  have heffect := effect e.request e.step e.before id
  rw [← hreply] at heffect
  exact heffect

theorem left?_of_opens? (hreply : e.reply = (e.step.take e.before).1) {new : NewSession}
    (hopens : e.opens? id = some new) :
    e.left? id = some ⟨new.identity, some new.key, none, e.before.now⟩ ∧
      e.accepts id = false := by
  obtain ⟨request, step, before, reply⟩ := e
  dsimp only at hreply
  subst hreply
  obtain ⟨hopened, hid⟩ := Option.filter_eq_some_iff.1 hopens
  obtain rfl : new.id = id := of_decide_eq_true hid
  cases step with
  | authenticate check lookup password drawnId drawnKey =>
    refine ⟨?_, rfl⟩
    rw [left?, SessionStep.take]
    rw [opened?, SessionStep.take] at hopened
    rcases before.sessions.authenticate_cases check before.now lookup password drawnId drawnKey with
      ⟨new', heq⟩ | ⟨error, heq⟩
    · rw [heq] at hopened ⊢
      obtain rfl := Option.some.inj hopened
      exact (Table.get?_insert _ _ _ _).trans (if_pos rfl)
    · rw [heq] at hopened
      cases hopened
  | _ => cases hopened

/-- A session is opened by a login, for the one whose credentials have been looked up. -/
theorem login_of_opens? (hreply : e.reply = (e.step.take e.before).1) {new : NewSession}
    (hopens : e.opens? id = some new) :
    ∃ check credentials password drawnId drawnKey,
      e.step = .authenticate check (.answered (some credentials)) password drawnId drawnKey ∧
        new.identity = credentials.identity := by
  obtain ⟨request, step, before, reply⟩ := e
  dsimp only at hreply
  subst hreply
  obtain ⟨hopened, -⟩ := Option.filter_eq_some_iff.1 hopens
  cases step with
  | authenticate check lookup password drawnId drawnKey =>
    cases lookup with
    | unavailable => cases hopened
    | answered credentials =>
      simp only [opened?, SessionStep.take, Sessions.authenticate] at hopened
      split at hopened
      · next heq =>
        split at heq
        · next c hcheck =>
          obtain rfl := Option.some.inj hopened
          cases heq
          exact ⟨check, c, password, drawnId, drawnKey, rfl, rfl⟩
        · cases heq
      · cases hopened
  | _ => cases hopened

/-- **A step changes the session as it changes what stands in the history.** -/
theorem remembers (hreply : e.reply = (e.step.take e.before).1)
    (h : Remembers es id (e.session? id)) : Remembers (es ++ [e]) id (e.left? id) := by
  cases hopens : e.opens? id with
  | some new =>
    obtain ⟨hleft, haccepts⟩ := left?_of_opens? hreply hopens
    rw [hleft]
    exact .of_opens hopens haccepts
  | none =>
    have hstays : ∀ {session}, e.left? id = some session → ¬ e.Removes id := by
      intro session hleft hremoves
      rw [hremoves.2] at hleft
      cases hleft
    have heffect := effect_left? hreply id
    generalize hleft : e.left? id = left at heffect
    cases heffect with
    | opens hopened hid =>
      rw [opens?, hopened, Option.filter_some, if_pos (decide_eq_true hid)] at hopens
      cases hopens
    | @draws session key hbefore hdrawn hlive hretired haccepts hasks hopened =>
      rw [hbefore] at h
      refine h.of_uses hopens (hstays hleft) (by simp [uses, hdrawn]) (fun k => ?_) _
      have hissued : e.issued? id = some key := by rw [issued?, hopens, hdrawn]; rfl
      rw [lastIssued_concat, consumed_concat, hissued, haccepts]
      simp
    | @accepts session key hbefore hunder hlive hdrawn hasks hopened =>
      rw [hbefore] at h
      refine h.of_uses hopens (hstays hleft) (by simp [uses, hunder.1]) (fun k => ?_) _
      rw [consumed_concat, hunder.1]
      simp
    | removes hdrawn haccepts =>
      intro identity hopen
      rw [openFor_concat_of_opens hopens] at hopen
      cases hbefore : e.session? id with
      | none =>
        rw [hbefore] at h
        exact h identity hopen.1
      | some session => exact hopen.2 ⟨by rw [hbefore]; simp, hleft⟩
    | keeps hbefore hdrawn haccepts hasks =>
      rw [hbefore] at h
      exact h.of_keeps hopens (hstays hleft) hdrawn haccepts

/-- **Which steps remove a session**, by what stands in the history: a logout always, and a sweep
or a request whose code fits if the session has idled out. -/
theorem removes_iff (h : Remembers es id (e.session? id)) :
    e.Removes id ↔ (∃ identity, OpenFor es id identity) ∧ (e.step = .logout id ∨
      IdleFor es id e.before.now e.before.sessions.config.idleTimeout ∧ (e.step = .sweep ∨
        ∃ mac context body, e.step = .validate id mac context body ∧
          CodeFits es id mac context body)) := by
  rw [Removes]
  cases hbefore : e.session? id with
  | none =>
    rw [hbefore] at h
    refine iff_of_false (fun hthere => hthere.1 rfl) ?_
    rintro ⟨⟨identity, hopen⟩, -⟩
    exact h identity hopen
  | some session =>
    rw [hbefore] at h
    have hopen : ∃ identity, OpenFor es id identity := ⟨_, (h.identity _).2 rfl⟩
    have hidle := h.idleFor_iff e.before.now e.before.sessions.config.idleTimeout
    rw [session?] at hbefore
    rw [and_iff_right (by simp), and_iff_right hopen, left?, hidle]
    cases hstep : e.step with
    | authenticate check lookup password drawnId drawnKey =>
      refine iff_of_false ?_ (by simp)
      rw [SessionStep.take]
      rcases e.before.sessions.authenticate_cases check e.before.now lookup password drawnId
        drawnKey with ⟨new, heq⟩ | ⟨error, heq⟩
      · simp only [heq, Table.get?_insert]
        split
        · simp
        · simp [hbefore]
      · simp [heq, hbefore]
    | validate i mac context body =>
      have hfits := h.codeFits_iff mac context body
      rw [SessionStep.take, Sessions.get?_validate_eq_none_iff hbefore]
      constructor
      · rintro ⟨rfl, haccepts, hexpired⟩
        exact .inr ⟨hexpired, .inr ⟨mac, context, body, rfl, hfits.2 haccepts⟩⟩
      · rintro (hlogout | ⟨hexpired, hsweep | ⟨mac', context', body', heq, hfits'⟩⟩)
        · cases hlogout
        · cases hsweep
        · cases heq
          exact ⟨rfl, hfits.1 hfits', hexpired⟩
    | nextKey i drawnKey =>
      refine iff_of_false ?_ (by simp)
      rw [SessionStep.take]
      rcases e.before.sessions.nextKey_cases e.before.now i drawnKey with
        ⟨found, key, -, -, -, heq⟩ | ⟨-, heq⟩
      · simp only [heq, Table.get?_insert]
        split
        · simp
        · simp [hbefore]
      · simp [heq, hbefore]
    | logout i =>
      simp only [SessionStep.take, Sessions.logout, Table.get?_erase]
      by_cases hid : i = id
      · simp [hid]
      · rw [if_neg fun heq => hid heq.symm]
        simp [hid, hbefore]
    | sweep =>
      simp only [SessionStep.take, Sessions.sweep, Table.get?_filter, hbefore, Option.filter_some]
      cases session.isExpired e.before.now e.before.sessions.config.idleTimeout with
      | false => simp
      | true => simp
    | advance duration => simp [SessionStep.take, hbefore]

end SessionEvent

namespace SessionTrace

variable {config : SessionConfig} {es : List SessionEvent} {s : SessionClock}

theorem config_eq (h : SessionTrace config es s) : s.sessions.config = config := by
  induction h with
  | start now => rfl
  | step prior request step ih => rw [config_take, ih]

/-- **The table keeps what stands in the history.** -/
theorem remembers (h : SessionTrace config es s) (id : UInt64) :
    Remembers es id (s.sessions.table.get? id) := by
  induction h with
  | start now => exact fun identity hopen => not_standing_nil hopen
  | @step es s prior request step ih =>
    exact SessionEvent.remembers (e := ⟨request, step, s, (step.take s).1⟩) rfl ih

end SessionTrace

/-! ### Requests -/

namespace Sessions

variable {s : Sessions} {now : Nat} {id : UInt64} {es : List SessionEvent}

theorem validate_eq_ok_iff (h : Remembers es id (s.table.get? id)) (mac context body : Bytes)
    (identity : Identity) :
    (s.validate now id mac context body).1 = .ok identity ↔ OpenFor es id identity ∧
      CodeFits es id mac context body ∧
      ∃ time, LastActive es id time ∧ now - time < s.config.idleTimeout := by
  cases hthere : s.table.get? id with
  | none =>
    rw [hthere] at h
    rw [validate, hthere]
    refine iff_of_false (fun hok => ?_) fun hopen => h identity hopen.1
    cases hok
  | some session =>
    rw [hthere] at h
    have hactive : (∃ time, LastActive es id time ∧ now - time < s.config.idleTimeout) ↔
        session.isExpired now s.config.idleTimeout = false := by
      simp only [h.active, exists_eq_left, Session.isExpired, decide_eq_false_iff_not, Nat.not_le]
    rw [h.identity, h.codeFits_iff, hactive, validate, hthere]
    simp only
    cases haccepts : session.accepts mac context body with
    | false => simp
    | true =>
      cases hexpired : session.isExpired now s.config.idleTimeout with
      | false => simp [eq_comm]
      | true => simp

/-- A request is refused and removes a session that has idled out if its code fits, and it is
refused and changes nothing if there is no open session or the code does not fit. -/
theorem validate_eq_error (h : Remembers es id (s.table.get? id)) (mac context body : Bytes)
    (hrefused : ∀ identity, (s.validate now id mac context body).1 ≠ .ok identity) :
    ((∃ identity, OpenFor es id identity) ∧ CodeFits es id mac context body ∧
        IdleFor es id now s.config.idleTimeout ∧
        s.validate now id mac context body =
          (.error .sessionInvalid, { s with table := s.table.erase id })) ∨
      ¬ ((∃ identity, OpenFor es id identity) ∧ CodeFits es id mac context body ∧
        IdleFor es id now s.config.idleTimeout) ∧
        s.validate now id mac context body = (.error .sessionInvalid, s) := by
  cases hthere : s.table.get? id with
  | none =>
    rw [hthere] at h
    refine .inr ⟨?_, ?_⟩
    · rintro ⟨⟨identity, hopen⟩, -⟩
      exact h identity hopen
    · rw [validate, hthere]
  | some session =>
    rw [hthere] at h
    have hopen : ∃ identity, OpenFor es id identity := ⟨_, (h.identity _).2 rfl⟩
    have hvalidate := hrefused session.identity
    rw [h.codeFits_iff, h.idleFor_iff]
    rw [validate, hthere] at hvalidate ⊢
    simp only at hvalidate ⊢
    cases haccepts : session.accepts mac context body with
    | false => exact .inr ⟨fun hall => Bool.noConfusion hall.2.1, rfl⟩
    | true =>
      cases hexpired : session.isExpired now s.config.idleTimeout with
      | false =>
        rw [haccepts, hexpired] at hvalidate
        exact absurd rfl hvalidate
      | true => exact .inl ⟨hopen, rfl, rfl, rfl⟩

end Sessions

/-- **A request is accepted exactly if the history says so.**  In every trace, a session under the
id has been opened for the identity and not been removed since, the code fits the key that was
issued last and has not been consumed since, and the session has been used less than one idle
timeout ago.  A request that is refused changes nothing, unless only the last of these fails: then
the session is removed, and nothing else.  What opens a session is a login, and what removes it is
a logout, or a sweep or such a request once it has idled out. -/
theorem validate_exact_in_history {config : SessionConfig} {es : List SessionEvent}
    {s : SessionClock} (h : SessionTrace config es s) (id : UInt64) (mac context body : Bytes) :
    (∀ identity, (s.sessions.validate s.now id mac context body).1 = .ok identity ↔
        OpenFor es id identity ∧ CodeFits es id mac context body ∧
        ∃ time, LastActive es id time ∧ s.now - time < config.idleTimeout) ∧
      ((∀ identity, (s.sessions.validate s.now id mac context body).1 ≠ .ok identity) →
        ((∃ identity, OpenFor es id identity) ∧ CodeFits es id mac context body ∧
            IdleFor es id s.now config.idleTimeout ∧
            s.sessions.validate s.now id mac context body = (.error .sessionInvalid,
              { s.sessions with table := s.sessions.table.erase id })) ∨
          ¬ ((∃ identity, OpenFor es id identity) ∧ CodeFits es id mac context body ∧
            IdleFor es id s.now config.idleTimeout) ∧
            s.sessions.validate s.now id mac context body = (.error .sessionInvalid, s.sessions)) ∧
      ∀ before e after, es = before ++ e :: after →
        (∀ new, e.opens? id = some new → ∃ check credentials password drawnId drawnKey,
          e.step = .authenticate check (.answered (some credentials)) password drawnId drawnKey ∧
            new.identity = credentials.identity) ∧
        (e.Removes id ↔ (∃ identity, OpenFor before id identity) ∧ (e.step = .logout id ∨
          IdleFor before id e.before.now config.idleTimeout ∧ (e.step = .sweep ∨
            ∃ mac context body, e.step = .validate id mac context body ∧
              CodeFits before id mac context body))) := by
  have hremembers := h.remembers id
  refine ⟨fun identity => ?_, fun hrefused => ?_, fun before e after hes => ?_⟩
  · rw [← h.config_eq]
    exact Sessions.validate_eq_ok_iff hremembers mac context body identity
  · rw [← h.config_eq]
    exact Sessions.validate_eq_error hremembers mac context body hrefused
  · subst hes
    obtain ⟨hbefore, hreply⟩ := h.of_append
    rw [← hbefore.config_eq]
    exact ⟨fun new hopens => SessionEvent.login_of_opens? hreply hopens,
      SessionEvent.removes_iff (hbefore.remembers id)⟩

/-- A login that opens session 7 with a key that is all zeros. -/
def sampleLogin : SessionStep :=
  .authenticate (fun _ _ => .ok true) (.answered (some ⟨"ann", "default", false, []⟩)) [] 7
    (Octets.zero 32)

theorem validate_exact_in_history_sampleLogin :
    let mac := (RequestMac.compute (List.replicate 32 0) [] []).bytes
    let s := (SessionStep.advance 299999).take (sampleLogin.take ⟨.empty {}, 0⟩).2
    ∃ es, SessionTrace {} es s.2 ∧ ∃ identity,
      (s.2.sessions.validate s.2.now 7 mac [] []).1 = .ok identity ∧
        OpenFor es 7 identity ∧ CodeFits es 7 mac [] [] ∧
        ∃ time, LastActive es 7 time ∧ s.2.now - time < 300000 := by
  intro mac s
  have h : SessionTrace {} _ s.2 :=
    ((SessionTrace.start 0).step 0 sampleLogin).step 0 (.advance 299999)
  have hok : ∃ identity, (s.2.sessions.validate s.2.now 7 mac [] []).1 = .ok identity := by
    cases hreply : (s.2.sessions.validate s.2.now 7 mac [] []).1 with
    | ok identity => exact ⟨identity, rfl⟩
    | error e =>
      have hisOk : (s.2.sessions.validate s.2.now 7 mac [] []).1.isOk = true := by decide +kernel
      rw [hreply] at hisOk
      cases hisOk
  obtain ⟨identity, hok⟩ := hok
  exact ⟨_, h, identity, hok, ((validate_exact_in_history h 7 mac [] []).1 identity).1 hok⟩

end Strongroom
