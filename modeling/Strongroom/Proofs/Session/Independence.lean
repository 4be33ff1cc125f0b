import Mathlib.Data.List.Induction
import Strongroom.Proofs.Session.Locality

/-!
# Sessions do not depend on one another

A session answers as if it were alone (`outcomes_eq_outcomes_alone`).  From any steps that share the
sessions, take away the sweeps, all operations on other sessions and the logins that have not opened
the one that is looked at; what is left gets the same replies from it.

The two runs do not keep the same table.  A sweep may have removed a session that has idled out,
while in the run without sweeps it is still there; the run that is left shadows the full one in the
sense that this is the only difference (`Shadows`).  To a request that brings a code the difference
does not show, for a session that has idled out is as good as none.  A request that asks for the
next key could show it, since that would revive the session.  But it asks no later than one idle
timeout after it was accepted, and so long no sweep removes the session.
-/

namespace Strongroom

/-! ### What is left of a run -/

/-- A step with another id drawn for the session that it opens, if it is a login. -/
def SessionStep.redraw (id : UInt64) : SessionStep → SessionStep
  | .authenticate check lookup password _ drawnKey =>
    .authenticate check lookup password id drawnKey
  | step => step

theorem isOn_redraw (id i : UInt64) (step : SessionStep) :
    (step.redraw i).isOn id = step.isOn id := by
  cases step <;> rfl

namespace SessionEvent

/-- What is left of an event when a session is alone: the steps that have to do with the session,
and the login that has opened it, for which its id is drawn. -/
def alone? (id : UInt64) (e : SessionEvent) : Option (Nat × SessionStep) :=
  if e.step.isOn id then some (e.request, e.step)
  else if e.opened?.map (·.id) = some id then some (e.request, e.step.redraw id)
  else none

/-- What a request has got from a session: whether its code was accepted, or the next key. -/
def outcome? (id : UInt64) (e : SessionEvent) : Option (Nat × SessionStep × SessionReply) :=
  if e.step.isOn id then
    match e.reply with
    | .validated _ | .drawn _ => some (e.request, e.step, e.reply)
    | _ => none
  else none

end SessionEvent

/-- The steps that are left of some events when a session is alone. -/
def aloneSteps (id : UInt64) (es : List SessionEvent) : List (Nat × SessionStep) :=
  es.filterMap (·.alone? id)

/-- What requests have got from a session, in order. -/
def outcomes (id : UInt64) (es : List SessionEvent) : List (Nat × SessionStep × SessionReply) :=
  es.filterMap (·.outcome? id)

theorem aloneSteps_append (id : UInt64) (es es' : List SessionEvent) :
    aloneSteps id (es ++ es') = aloneSteps id es ++ aloneSteps id es' :=
  List.filterMap_append

theorem outcomes_append (id : UInt64) (es es' : List SessionEvent) :
    outcomes id (es ++ es') = outcomes id es ++ outcomes id es' :=
  List.filterMap_append

/-- A request has been accepted in a session less than one idle timeout ago. -/
def AcceptedLately (es : List SessionEvent) (id : UInt64) (request : Nat) (s : SessionClock) :
    Prop :=
  ∃ v ∈ es, v.request = request ∧ v.accepts id = true ∧
    s.now - v.before.now < s.sessions.config.idleTimeout

instance (es : List SessionEvent) (id : UInt64) (request : Nat) (s : SessionClock) :
    Decidable (AcceptedLately es id request s) :=
  inferInstanceAs (Decidable (∃ v ∈ es, _))

/-- The next key of a session is asked for only by a request that has lately been accepted in it. -/
def AsksPromptly (es : List SessionEvent) (id : UInt64) : Prop :=
  ∀ before e after, es = before ++ e :: after → e.asksKey id = true →
    AcceptedLately before id e.request e.before

theorem AsksPromptly.of_concat {es : List SessionEvent} {e : SessionEvent} {id : UInt64}
    (h : AsksPromptly (es ++ [e]) id) :
    AsksPromptly es id ∧ (e.asksKey id = true → AcceptedLately es id e.request e.before) := by
  refine ⟨fun before x after hes => h before x (after ++ [e]) ?_, h es e [] rfl⟩
  rw [hes]
  simp

/-- Promptness can be checked event by event. -/
instance (es : List SessionEvent) (id : UInt64) : Decidable (AsksPromptly es id) :=
  decidable_of_iff (∀ i, (h : i < es.length) → es[i].asksKey id = true →
    AcceptedLately (es.take i) id es[i].request es[i].before) <| by
    constructor
    · rintro h before e after rfl hasks
      simpa [hasks] using h before.length (by simp)
    · intro h i hi hasks
      exact h (es.take i) es[i] (es.drop (i + 1)) (by simp) hasks

/-! ### The run that is left shadows the full one -/

/-- A session is the same for two clocks, or it has idled out and is gone for the first. -/
def SameOrIdle (id : UInt64) (s t : SessionClock) : Prop :=
  t.sessions.table.get? id = s.sessions.table.get? id ∨
    s.sessions.table.get? id = none ∧ ∃ session, t.sessions.table.get? id = some session ∧
      session.isExpired s.now s.sessions.config.idleTimeout = true

/-- Behind some events of the full run, the clock of the run in which a session is alone shows the
same time, and the session is the same but for what sweeps have removed.  It has been active since
it last accepted a request, and it has been opened in the full run. -/
structure Shadows (id : UInt64) (es : List SessionEvent) (s t : SessionClock) : Prop where
  now : t.now = s.now
  config : t.sessions.config = s.sessions.config
  session : SameOrIdle id s t
  recent : ∀ v ∈ es, v.accepts id = true → v.before.now ≤ s.now ∧
    ∀ session, t.sessions.table.get? id = some session → v.before.now ≤ session.lastActive
  opened : t.sessions.table.get? id ≠ none → ∃ e ∈ es, ∃ new, e.opened? = some new ∧ new.id = id

namespace Shadows

variable {id : UInt64} {es : List SessionEvent} {s t : SessionClock} {request : Nat}
variable {step : SessionStep}

theorem start (h : s.sessions.table.get? id = none) : Shadows id [] s s :=
  ⟨rfl, rfl, .inl rfl, by simp, fun hthere => absurd h hthere⟩

/-- What is to be shown of a step: behind it the session is the same but for what sweeps have
removed, it has been active in the step or is left as it was, and there is none that was not there
before or opened by the step. -/
theorem extend (h : Shadows id es s t) {s' t' : SessionClock} (hlater : s.now ≤ s'.now)
    (hnow : t'.now = s'.now) (hconfig : t'.sessions.config = s'.sessions.config)
    (hsession : SameOrIdle id s' t')
    (hactive : ∀ session, t'.sessions.table.get? id = some session → session.lastActive = s.now ∨
      (s.event request step).accepts id = false ∧ t.sessions.table.get? id = some session)
    (hopened : t'.sessions.table.get? id ≠ none → t.sessions.table.get? id ≠ none ∨
      ∃ new, (s.event request step).opened? = some new ∧ new.id = id) :
    Shadows id (es ++ [s.event request step]) s' t' := by
  refine ⟨hnow, hconfig, hsession, fun v hv haccepts => ?_, fun hthere => ?_⟩
  · rcases List.mem_append.1 hv with hv | hv
    · obtain ⟨hle, hrecent⟩ := h.recent v hv haccepts
      refine ⟨Nat.le_trans hle hlater, fun session hthere => ?_⟩
      rcases hactive session hthere with hused | ⟨-, hkept⟩
      · rwa [hused]
      · exact hrecent session hkept
    · obtain rfl := List.mem_singleton.1 hv
      refine ⟨hlater, fun session hthere => ?_⟩
      rcases hactive session hthere with hused | ⟨hrejects, -⟩
      · exact Nat.le_of_eq hused.symm
      · rw [hrejects] at haccepts
        cases haccepts
  · rcases hopened hthere with hbefore | ⟨new, hnew, hid⟩
    · obtain ⟨e, he, hopened⟩ := h.opened hbefore
      exact ⟨e, List.mem_append_left _ he, hopened⟩
    · exact ⟨_, List.mem_append_right _ (List.mem_singleton_self _), new, hnew, hid⟩

/-- A request that asks for the next key in time finds the session as it is in the full run. -/
theorem agreeOn (h : Shadows id es s t)
    (hasked : AcceptedLately es id request s) : AgreeOn id s t := by
  rcases h.session with hsame | ⟨-, session, hthere, hexpired⟩
  · exact ⟨h.now, h.config, hsame⟩
  · obtain ⟨v, hv, -, haccepts, hsoon⟩ := hasked
    have hactive := (h.recent v hv haccepts).2 session hthere
    simp only [Session.isExpired, decide_eq_true_eq] at hexpired
    omega

/-- A step on a session gives the same in both runs, and leaves the session the same but for what
sweeps have removed. -/
theorem outcome_eq (h : Shadows id es s t) (hstep : step.isOn id = true)
    (hasks : (s.event request step).asksKey id = true → AcceptedLately es id request s) :
    (t.event request step).outcome? id = (s.event request step).outcome? id ∧
      SameOrIdle id (step.take s).2 (step.take t).2 := by
  have hagree : AgreeOn id s t →
      (t.event request step).outcome? id = (s.event request step).outcome? id ∧
        SameOrIdle id (step.take s).2 (step.take t).2 := by
    intro hagree
    obtain ⟨hreply, hafter⟩ := hagree.take hstep
    refine ⟨?_, .inl hafter.session⟩
    rw [SessionClock.event, hreply]
    rfl
  rcases h.session with hsame | ⟨hgone, session, hthere, hexpired⟩
  · exact hagree ⟨h.now, h.config, hsame⟩
  · cases step with
    | authenticate check lookup password drawnId drawnKey => cases hstep
    | validate i mac context body =>
      obtain rfl : i = id := of_decide_eq_true hstep
      have hnone : s.sessions.validate s.now i mac context body =
          (.error .sessionInvalid, s.sessions) := by rw [Sessions.validate, hgone]
      rw [← h.now, ← h.config] at hexpired
      obtain ⟨hreply, hafter⟩ := Sessions.validate_of_isExpired hthere hexpired mac context body
      refine ⟨?_, ?_⟩
      · simp only [SessionEvent.outcome?, SessionStep.take, hnone, hreply]
      · simp only [SameOrIdle, SessionStep.take, hnone]
        rcases hafter with hremoved | hkept
        · exact .inl (hremoved.trans hgone.symm)
        · exact .inr ⟨hgone, session, hkept, by rwa [h.now, h.config] at hexpired⟩
    | nextKey i drawnKey =>
      -- here the session would be revived, but whoever asks in time does not meet this case
      exact hagree (h.agreeOn (hasks hstep))
    | logout i =>
      obtain rfl : i = id := of_decide_eq_true hstep
      refine ⟨rfl, .inl ?_⟩
      simp only [SessionStep.take, Sessions.logout, Table.get?_erase, if_true]
    | sweep => cases hstep
    | advance duration =>
      exact ⟨rfl, .inr ⟨hgone, session, hthere,
        Session.isExpired_mono (Nat.le_add_right _ _) hexpired⟩⟩

/-- Behind a step on the session, the run in which it is alone shadows the full one again. -/
theorem take_isOn (h : Shadows id es s t) (hstep : step.isOn id = true)
    (hsession : SameOrIdle id (step.take s).2 (step.take t).2) :
    Shadows id (es ++ [s.event request step]) (step.take s).2 (step.take t).2 := by
  refine h.extend (le_now_take s step) (now_take h.now step)
    (by rw [config_take, config_take, h.config]) hsession (fun session hthere => ?_)
    fun hthere => .inl fun hnone => ?_
  · cases haccepts : (s.event request step).accepts id with
    | true =>
      obtain ⟨left, hleft, hactive⟩ := (SessionEvent.effect request step s id).of_accepts haccepts
      rcases hsession with hsame | ⟨hnone, -⟩
      · rw [hsame, hleft] at hthere
        cases hthere
        exact .inl hactive
      · rw [hleft] at hnone
        cases hnone
    | false =>
      obtain ⟨found, hfound, hactive | rfl⟩ := get?_of_get?_take hstep hthere
      · exact .inl (hactive.trans h.now)
      · exact .inr ⟨rfl, hfound⟩
  · obtain ⟨session, hthere⟩ := Option.ne_none_iff_exists'.1 hthere
    obtain ⟨found, hfound, -⟩ := get?_of_get?_take hstep hthere
    rw [hnone] at hfound
    cases hfound

/-- A step that takes no time and accepts nothing in the session, and at most removes it when it has
idled out, need not be taken. -/
theorem skip (h : Shadows id es s t) (hnow : (step.take s).2.now = s.now)
    (haccepts : (s.event request step).accepts id = false)
    (hsession : (step.take s).2.sessions.table.get? id = s.sessions.table.get? id ∨
      (step.take s).2.sessions.table.get? id = none ∧ ∀ session,
        s.sessions.table.get? id = some session →
          session.isExpired s.now s.sessions.config.idleTimeout = true) :
    Shadows id (es ++ [s.event request step]) (step.take s).2 t := by
  -- the session that is alone has not moved, so only the comparison with the full run is left
  refine h.extend (le_now_take s step) (h.now.trans hnow.symm) (by rw [config_take, h.config]) ?_
    (fun session hthere => .inr ⟨haccepts, hthere⟩) .inl
  rw [SameOrIdle, hnow, config_take]
  rcases hsession with hsame | ⟨hgone, hidle⟩
  · rw [hsame]
    exact h.session
  · rcases h.session with hsame | ⟨-, hexpired⟩
    · rw [hgone, hsame]
      cases hthere : s.sessions.table.get? id with
      | none => exact .inl rfl
      | some session => exact .inr ⟨rfl, session, rfl, hidle session hthere⟩
    · exact .inr ⟨hgone, hexpired⟩

/-- The login that opens the session opens it in both runs, with the same key. -/
theorem take_login (h : Shadows id es s t) (hid : id ≠ 0) {new : NewSession}
    (hopened : (s.event request step).opened? = some new) (hnew : new.id = id)
    (hfresh : ∀ e ∈ es, ∀ new', e.opened? = some new' → new'.id ≠ id) :
    Shadows id (es ++ [s.event request step]) (step.take s).2 ((step.redraw id).take t).2 := by
  subst hnew
  have hfree : t.sessions.table.get? new.id = none := by
    by_contra hthere
    obtain ⟨e, he, new', hopened', hsame⟩ := h.opened hthere
    exact hfresh e he new' hopened' hsame
  cases step with
  | authenticate check lookup password drawnId drawnKey =>
    rcases s.sessions.authenticate_cases check s.now lookup password drawnId drawnKey with
      ⟨new', heq⟩ | ⟨error, heq⟩
    · obtain rfl : new' = new := by
        rw [SessionClock.event, SessionStep.take, heq] at hopened
        exact Option.some.inj hopened
      have hredrawn := Sessions.authenticate_redrawn (congrArg Prod.fst heq) hid hfree
      have hthere : (SessionStep.take s
          (.authenticate check lookup password drawnId drawnKey)).2.sessions.table.get? new'.id =
            some ⟨new'.identity, some new'.key, none, s.now⟩ := by
        rw [SessionStep.take, heq]
        exact (Table.get?_insert _ _ _ _).trans (if_pos rfl)
      have hthere' : (SessionStep.take t
          (.authenticate check lookup password new'.id drawnKey)).2.sessions.table.get? new'.id =
            some ⟨new'.identity, some new'.key, none, s.now⟩ := by
        rw [SessionStep.take, h.now, hredrawn]
        exact (Table.get?_insert _ _ _ _).trans (if_pos rfl)
      refine h.extend (le_now_take s _) h.now (by rw [config_take, config_take, h.config])
        (.inl (hthere'.trans hthere.symm)) (fun session hsession => .inl ?_)
        fun _ => .inr ⟨new', hopened, rfl⟩
      obtain rfl := Option.some.inj (hthere'.symm.trans hsession)
      rfl
    · rw [SessionClock.event, SessionStep.take, heq] at hopened
      cases hopened
  | _ => cases hopened

/-- **The shadow follows every step.** -/
theorem follow (h : Shadows id es s t) (hid : id ≠ 0)
    (hnew : ∀ new, (s.event request step).opened? = some new → ∀ e ∈ es, ∀ new',
      e.opened? = some new' → new'.id ≠ new.id)
    (hasks : (s.event request step).asksKey id = true → AcceptedLately es id request s) :
    Shadows id (es ++ [s.event request step]) (step.take s).2
        (t.after (aloneSteps id [s.event request step])) ∧
      outcomes id (eventsOf t (aloneSteps id [s.event request step])) =
        outcomes id [s.event request step] := by
  by_cases hstep : step.isOn id = true
  · have halone : aloneSteps id [s.event request step] = [(request, step)] := by
      simp [aloneSteps, SessionEvent.alone?, hstep]
    obtain ⟨hgets, hsession⟩ := h.outcome_eq hstep hasks
    rw [halone]
    refine ⟨h.take_isOn hstep hsession, ?_⟩
    show outcomes id [t.event request step] = _
    rw [outcomes, outcomes, List.filterMap_cons, List.filterMap_cons, hgets]
  · rw [Bool.not_eq_true] at hstep
    have hnothing : outcomes id [s.event request step] = [] := by
      simp [outcomes, SessionEvent.outcome?, hstep]
    by_cases hlogin : ∃ new, (s.event request step).opened? = some new ∧ new.id = id
    · obtain ⟨new, hopened, hsame⟩ := hlogin
      have halone : aloneSteps id [s.event request step] = [(request, step.redraw id)] := by
        simp [aloneSteps, SessionEvent.alone?, hstep, hopened, hsame]
      rw [halone, hnothing]
      refine ⟨h.take_login hid hopened hsame fun e he new' hopened' => ?_, ?_⟩
      · exact hsame ▸ hnew new hopened e he new' hopened'
      · simp [eventsOf, outcomes, SessionEvent.outcome?, isOn_redraw, hstep]
    · have hother : ∀ new, (s.event request step).opened? = some new → new.id ≠ id :=
        fun new hopened hsame => hlogin ⟨new, hopened, hsame⟩
      have halone : aloneSteps id [s.event request step] = [] := by
        simpa [aloneSteps, SessionEvent.alone?, hstep] using hother
      rw [halone, hnothing]
      refine ⟨h.skip ?_ (SessionEvent.accepts_of_not_isOn hstep) ?_, rfl⟩
      · cases step with
        | advance duration => cases hstep
        | _ => rfl
      · by_cases hsweep : step = .sweep
        · subst hsweep
          exact get?_take_sweep s id
        · exact .inl (get?_take_of_not_isOn hstep hsweep hother)

end Shadows

/-- Every run is shadowed by what is left of it when a session is alone. -/
theorem shadows_run {id : UInt64} (hid : id ≠ 0) {s : SessionClock}
    (hs : s.sessions.table.get? id = none) (steps : List (Nat × SessionStep))
    (hfresh : FreshIds (eventsOf s steps)) (hprompt : AsksPromptly (eventsOf s steps) id) :
    Shadows id (eventsOf s steps) (s.after steps)
        (s.after (aloneSteps id (eventsOf s steps))) ∧
      outcomes id (eventsOf s (aloneSteps id (eventsOf s steps))) =
        outcomes id (eventsOf s steps) := by
  induction steps using List.reverseRecOn with
  | nil => exact ⟨.start hs, rfl⟩
  | append_singleton steps x ih =>
    obtain ⟨request, step⟩ := x
    have hconcat : eventsOf s (steps ++ [(request, step)]) =
        eventsOf s steps ++ [(s.after steps).event request step] := eventsOf_append _ _ _
    rw [hconcat] at hfresh hprompt ⊢
    obtain ⟨hfresh, hnew⟩ := hfresh.of_concat
    obtain ⟨hprompt, hasks⟩ := hprompt.of_concat
    obtain ⟨hshadows, houtcomes⟩ := ih hfresh hprompt
    obtain ⟨hnext, hgets⟩ := hshadows.follow hid hnew hasks
    rw [aloneSteps_append, outcomes_append, eventsOf_append, outcomes_append, houtcomes, hgets,
      SessionClock.after_append, SessionClock.after_append]
    exact ⟨hnext, rfl⟩

/-- **A session answers as if it were alone.**  Take any run from the time when there are no
sessions in which no id is drawn twice, and any session whose next key is asked for only by a
request that it has accepted less than one idle timeout ago; zero is the id of no session.  The
sweeps, all operations on other sessions and all other logins can be taken away, and every request
gets from the session what it has got before. -/
theorem outcomes_eq_outcomes_alone (config : SessionConfig) (now : Nat)
    (steps : List (Nat × SessionStep)) {id : UInt64} (hid : id ≠ 0)
    (hfresh : FreshIds (eventsOf ⟨.empty config, now⟩ steps))
    (hprompt : AsksPromptly (eventsOf ⟨.empty config, now⟩ steps) id) :
    let es := eventsOf ⟨.empty config, now⟩ steps
    outcomes id (eventsOf ⟨.empty config, now⟩ (aloneSteps id es)) = outcomes id es :=
  (shadows_run hid rfl steps hfresh hprompt).2

/-- The session of the example is used, idles out and is swept, while there is another one. -/
def sampleCrowd : List (Nat × SessionStep) :=
  let login (name : String) (id : UInt64) : SessionStep :=
    .authenticate (fun _ _ => .ok true) (.answered (some ⟨name, "default", false, []⟩)) [] id
      (Octets.zero 32)
  let request : SessionStep :=
    .validate 7 (RequestMac.compute (List.replicate 32 0) [] []).bytes [] []
  [(0, login "ann" 7), (1, login "bob" 7), (2, request), (3, .logout 8),
    (2, .nextKey 7 (Octets.zero 32)), (4, .advance 300000), (5, .sweep), (6, request)]

theorem outcomes_eq_outcomes_alone_sampleCrowd :
    let es := eventsOf ⟨.empty {}, 0⟩ sampleCrowd
    FreshIds es ∧ AsksPromptly es 7 ∧ (aloneSteps 7 es).length = 5 ∧ (outcomes 7 es).length = 3 ∧
      outcomes 7 (eventsOf ⟨.empty {}, 0⟩ (aloneSteps 7 es)) = outcomes 7 es := by
  intro es
  obtain ⟨hfresh, hprompt, halone, houtcomes⟩ :
      (es.filterMap fun e => e.opened?.map (·.id)).Nodup ∧ AsksPromptly es 7 ∧
        (aloneSteps 7 es).length = 5 ∧ (outcomes 7 es).length = 3 := by
    decide +kernel
  exact ⟨hfresh, hprompt, halone, houtcomes,
    outcomes_eq_outcomes_alone {} 0 sampleCrowd (by decide) hfresh hprompt⟩

end Strongroom
