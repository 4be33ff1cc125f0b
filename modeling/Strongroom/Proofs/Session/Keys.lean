import Strongroom.Proofs.Session.Trace

/-!
# A session key serves once

The two slots of a session say just enough about its past.  The retired key is the key that was
consumed or replaced last, and while there is a live key no request has been accepted since the last
key was drawn (`KeyHistory`).  So between two requests that are accepted a key is drawn, whatever
other requests, sweeps and logouts come in between, and a key that is drawn differs from the live
key and from the one that was spent last.

Two keys one draw apart may be the same, for a draw only looks at two keys.  But if a request draws
a key only after it has been accepted, and once, then a request that is accepted holds the only
right to draw (`Turns`), and the key that it has used is still the retired one when that draw
happens.
-/

namespace Strongroom

/-- The key of a session that was consumed or replaced last. -/
def LastSpent (es : List SessionEvent) (id : UInt64) (key : SessionKey) : Prop :=
  Standing (fun e => e.spent? id = some key) (fun e => e.spent? id ≠ none) es

theorem lastSpent_concat {es : List SessionEvent} {e : SessionEvent} {id : UInt64}
    {key : SessionKey} : LastSpent (es ++ [e]) id key ↔
      e.spent? id = some key ∨ LastSpent es id key ∧ e.spent? id = none := by
  rw [LastSpent, standing_concat, not_not]
  rfl

/-- What the slots of a session say about its past. -/
structure KeyHistory (es : List SessionEvent) (id : UInt64) (session : Session) : Prop where
  retired : ∀ key, session.retired = some key ↔ LastSpent es id key
  renewed : session.key ≠ none →
    ¬ Standing (fun e => e.accepts id = true) (fun e => e.drawn? id ≠ none) es

namespace SessionEvent

variable {e : SessionEvent} {id : UInt64}

theorem spent?_of_drawn {key : SessionKey} (h : e.drawn? id = some key) :
    e.spent? id = e.liveKey? id := by
  rw [spent?, h]
  simp

theorem spent?_of_accepts (h : e.accepts id = true) : e.spent? id = e.liveKey? id := by
  rw [spent?, h]
  simp

theorem spent?_eq_none (hdrawn : e.drawn? id = none) (haccepts : e.accepts id = false) :
    e.spent? id = none := by
  rw [spent?, hdrawn, haccepts]
  simp

theorem liveKey?_eq {session : Session} (h : e.session? id = some session) :
    e.liveKey? id = session.key := by
  rw [liveKey?, h]
  rfl

end SessionEvent

namespace SessionTrace

variable {config : SessionConfig} {es : List SessionEvent} {s : SessionClock} {id : UInt64}

theorem accepts_eq_false (h : SessionTrace config es s)
    (hnew : ∀ e ∈ es, ∀ new, e.opened? = some new → new.id ≠ id) {e : SessionEvent} (he : e ∈ es) :
    e.accepts id = false := by
  have hnone := h.session?_eq_none hnew he
  obtain ⟨before, after, rfl⟩ := List.append_of_mem he
  rw [← Bool.not_eq_true]
  intro haccepts
  obtain ⟨session, key, hsession, -⟩ := h.of_accepts haccepts
  rw [hnone] at hsession
  cases hsession

theorem spent?_eq_none (h : SessionTrace config es s)
    (hnew : ∀ e ∈ es, ∀ new, e.opened? = some new → new.id ≠ id) {e : SessionEvent} (he : e ∈ es) :
    e.spent? id = none := by
  rw [SessionEvent.spent?, SessionEvent.liveKey?, h.session?_eq_none hnew he]
  simp

/-- **The slots of every session tell its past.** -/
theorem keyHistory (h : SessionTrace config es s) (hfresh : FreshIds es) {session : Session}
    (hsession : s.sessions.table.get? id = some session) : KeyHistory es id session := by
  induction h generalizing session with
  | start now => simp [Sessions.empty, Table.get?, Table.empty] at hsession
  | @step es s prior request step ih =>
    obtain ⟨hfresh, hnew⟩ := hfresh.of_concat
    have heffect := SessionEvent.effect request step s id
    rw [hsession] at heffect
    have hprior : ∀ {session}, SessionEvent.session? ⟨request, step, s, (step.take s).1⟩ id =
        some session → KeyHistory es id session := fun hbefore => ih hfresh hbefore
    generalize (⟨request, step, s, (step.take s).1⟩ : SessionEvent) = e at heffect hnew hprior ⊢
    cases heffect with
    | @opens new hopened hid hdrawn haccepts hasks =>
      have hearlier : ∀ e ∈ es, ∀ new, e.opened? = some new → new.id ≠ id := by
        intro e' he' new' hnew'
        rw [← hid]
        exact hnew new hopened e' he' new' hnew'
      refine ⟨fun key => ?_, fun _ => ?_⟩
      · rw [lastSpent_concat, SessionEvent.spent?_eq_none hdrawn haccepts]
        refine iff_of_false (by simp) ?_
        rintro (hnone | ⟨hstanding, -⟩)
        · cases hnone
        · obtain ⟨e', he', hspent⟩ := exists_mem_of_standing hstanding
          rw [prior.spent?_eq_none hearlier he'] at hspent
          cases hspent
      · rw [standing_concat, haccepts]
        rintro (hfalse | ⟨hstanding, -⟩)
        · cases hfalse
        · obtain ⟨e', he', haccepted⟩ := exists_mem_of_standing hstanding
          rw [prior.accepts_eq_false hearlier he'] at haccepted
          cases haccepted
    | @draws session key hbefore hdrawn hlive hretired haccepts hasks hopened =>
      have hspent := (SessionEvent.spent?_of_drawn hdrawn).trans (SessionEvent.liveKey?_eq hbefore)
      refine ⟨fun key' => ?_, fun _ => ?_⟩
      · rw [lastSpent_concat, hspent]
        show (session.key <|> session.retired) = some key' ↔ _
        cases hkey : session.key with
        | none => simpa using (hprior hbefore).retired key'
        | some old => simp
      · rw [standing_concat, haccepts, hdrawn]
        simp
    | @accepts session key hbefore hunder hlive hdrawn hasks hopened =>
      have haccepts := hunder.1
      have hspent := (SessionEvent.spent?_of_accepts haccepts).trans
        (SessionEvent.liveKey?_eq hbefore)
      refine ⟨fun key' => ?_, fun hnone => absurd rfl hnone⟩
      rw [lastSpent_concat, hspent, hlive]
      simp
    | keeps hbefore hdrawn haccepts hasks =>
      have hspent := SessionEvent.spent?_eq_none hdrawn haccepts
      refine ⟨fun key' => ?_, fun hkey => ?_⟩
      · rw [lastSpent_concat, hspent]
        simpa using (hprior hbefore).retired key'
      · rw [standing_concat, haccepts, hdrawn]
        simpa using (hprior hbefore).renewed hkey

/-! ### Taking turns -/

end SessionTrace

/-- A request has been accepted in a session and has not asked for the next key since. -/
def Waits (es : List SessionEvent) (id : UInt64) (request : Nat) : Prop :=
  Standing (fun e => e.request = request ∧ e.accepts id = true)
    (fun e => e.request = request ∧ e.asksKey id = true) es

/-- The next key of a session is asked for only by a request that has been accepted in it, and once
for each time. -/
def AsksInTurn (es : List SessionEvent) : Prop :=
  ∀ before e after id, es = before ++ e :: after → e.asksKey id = true → Waits before id e.request

theorem AsksInTurn.of_append {es es' : List SessionEvent} (h : AsksInTurn (es ++ es')) :
    AsksInTurn es := by
  intro before x after id hes hasks
  refine h before x (after ++ es') id ?_ hasks
  rw [hes]
  simp

theorem AsksInTurn.of_concat {es : List SessionEvent} {e : SessionEvent}
    (h : AsksInTurn (es ++ [e])) :
    AsksInTurn es ∧ ∀ id, e.asksKey id = true → Waits es id e.request :=
  ⟨h.of_append, fun id hasks => h es e [] id rfl hasks⟩

theorem waits_concat {es : List SessionEvent} {e : SessionEvent} {id : UInt64} {request : Nat} :
    Waits (es ++ [e]) id request ↔ e.request = request ∧ e.accepts id = true ∨
      Waits es id request ∧ ¬ (e.request = request ∧ e.asksKey id = true) :=
  standing_concat

/-- A request has been accepted under a key, and none has been accepted since. -/
def LastUsed (es : List SessionEvent) (id : UInt64) (key : SessionKey) : Prop :=
  Standing (fun e => e.accepts id = true ∧ e.liveKey? id = some key)
    (fun e => e.accepts id = true) es

theorem lastUsed_concat {es : List SessionEvent} {e : SessionEvent} {id : UInt64}
    {key : SessionKey} : LastUsed (es ++ [e]) id key ↔
      e.accepts id = true ∧ e.liveKey? id = some key ∨
        LastUsed es id key ∧ ¬ e.accepts id = true :=
  standing_concat

/-- What the slots of a session say about its past if requests take turns. -/
structure Turns (es : List SessionEvent) (id : UInt64) (session : Session) : Prop where
  nobody : session.key ≠ none → ∀ request, ¬ Waits es id request
  alone : ∀ r r', Waits es id r → Waits es id r' → r = r'
  used : ∀ key, LastUsed es id key → session.retired = some key ∧ session.key ≠ some key

namespace SessionTrace

variable {config : SessionConfig} {es : List SessionEvent} {s : SessionClock} {id : UInt64}

/-- **If requests take turns, the key that was used last is the retired one.** -/
theorem turns (h : SessionTrace config es s) (hfresh : FreshIds es) (hturns : AsksInTurn es)
    {session : Session} (hsession : s.sessions.table.get? id = some session) :
    Turns es id session := by
  induction h generalizing session with
  | start now => simp [Sessions.empty, Table.get?, Table.empty] at hsession
  | @step es s prior request step ih =>
    obtain ⟨hfresh, hnew⟩ := hfresh.of_concat
    obtain ⟨hturns, hasked⟩ := hturns.of_concat
    have heffect := SessionEvent.effect request step s id
    rw [hsession] at heffect
    have hprior : ∀ {session}, SessionEvent.session? ⟨request, step, s, (step.take s).1⟩ id =
        some session → Turns es id session := fun hbefore => ih hfresh hturns hbefore
    generalize (⟨request, step, s, (step.take s).1⟩ : SessionEvent) = e
      at heffect hnew hprior hasked ⊢
    cases heffect with
    | @opens new hopened hid hdrawn haccepts hasks =>
      have hearlier : ∀ e ∈ es, ∀ new, e.opened? = some new → new.id ≠ id := by
        intro e' he' new' hnew'
        rw [← hid]
        exact hnew new hopened e' he' new' hnew'
      have hnobody : ∀ r, ¬ Waits (es ++ [e]) id r := by
        intro r
        rw [waits_concat, haccepts]
        rintro (⟨-, hfalse⟩ | ⟨hwaits, -⟩)
        · cases hfalse
        · obtain ⟨e', he', -, haccepted⟩ := exists_mem_of_standing hwaits
          rw [prior.accepts_eq_false hearlier he'] at haccepted
          cases haccepted
      refine ⟨fun _ => hnobody, fun r r' hr => absurd hr (hnobody r), fun key hused => ?_⟩
      rw [lastUsed_concat, haccepts] at hused
      rcases hused with ⟨hfalse, -⟩ | ⟨hused, -⟩
      · cases hfalse
      · obtain ⟨e', he', haccepted, -⟩ := exists_mem_of_standing hused
        rw [prior.accepts_eq_false hearlier he'] at haccepted
        cases haccepted
    | @draws session key hbefore hdrawn hlive hretired haccepts hasks hopened =>
      have hwaits := hasked id hasks
      have hkey : session.key = none := by
        by_contra hkey
        exact (hprior hbefore).nobody hkey e.request hwaits
      have hnobody : ∀ r, ¬ Waits (es ++ [e]) id r := by
        intro r
        rw [waits_concat, haccepts]
        rintro (⟨-, hfalse⟩ | ⟨hr, hothers⟩)
        · cases hfalse
        · exact hothers ⟨(hprior hbefore).alone _ _ hwaits hr, hasks⟩
      refine ⟨fun _ => hnobody, fun r r' hr => absurd hr (hnobody r), fun used hused => ?_⟩
      rw [lastUsed_concat, haccepts] at hused
      rcases hused with ⟨hfalse, -⟩ | ⟨hused, -⟩
      · cases hfalse
      · obtain ⟨hold, -⟩ := (hprior hbefore).used used hused
        rw [hold] at hretired
        exact ⟨by simp [hkey, hold], fun heq => hretired heq.symm⟩
    | @accepts session key hbefore hunder hlive hdrawn hasks hopened =>
      have haccepts := hunder.1
      have hnobody := (hprior hbefore).nobody (by simp [hlive])
      have honly : ∀ r, Waits (es ++ [e]) id r → e.request = r := by
        intro r hr
        rcases waits_concat.1 hr with ⟨hr, -⟩ | ⟨hr, -⟩
        · exact hr
        · exact absurd hr (hnobody r)
      refine ⟨fun hnone => absurd rfl hnone, fun r r' hr hr' => ?_, fun used hused => ?_⟩
      · rw [← honly r hr, honly r' hr']
      · rw [lastUsed_concat, haccepts, SessionEvent.liveKey?_eq hbefore, hlive] at hused
        obtain rfl : key = used := by simpa using hused
        exact ⟨rfl, by simp⟩
    | keeps hbefore hdrawn haccepts hasks =>
      have hsame : ∀ r, Waits (es ++ [e]) id r ↔ Waits es id r := by
        intro r
        rw [waits_concat, haccepts, hasks]
        simp
      have hold := hprior hbefore
      refine ⟨fun hkey r => ?_, fun r r' hr hr' => ?_, fun used hused => hold.used used ?_⟩
      · rw [hsame]
        exact hold.nobody hkey r
      · exact hold.alone r r' ((hsame r).1 hr) ((hsame r').1 hr')
      · rw [lastUsed_concat, haccepts] at hused
        simpa using hused

/-! ### What follows for keys -/

/-- Between two requests that are accepted in a session, a key is drawn for it. -/
theorem exists_drawn {before between after : List SessionEvent} {e e' : SessionEvent}
    (h : SessionTrace config (before ++ e :: (between ++ e' :: after)) s)
    (hfresh : FreshIds (before ++ e :: (between ++ e' :: after)))
    (haccepts : e.accepts id = true) (haccepts' : e'.accepts id = true) :
    ∃ d ∈ between, ∃ key, d.drawn? id = some key := by
  rw [← List.cons_append, ← List.append_assoc] at h hfresh
  obtain ⟨session, key, hsession, hkey, -⟩ := h.of_accepts haccepts'
  have hrenewed := (h.of_append.1.keyHistory hfresh.of_append hsession).renewed (by simp [hkey])
  by_contra hnone
  refine hrenewed ⟨before, e, between, rfl, haccepts, fun d hd hdrawn => hnone ⟨d, hd, ?_⟩⟩
  exact Option.ne_none_iff_exists'.1 hdrawn

/-- While no key is drawn for a session, at most one request is accepted in it. -/
theorem countP_accepts_le_one {before stretch after : List SessionEvent}
    (h : SessionTrace config (before ++ stretch ++ after) s)
    (hfresh : FreshIds (before ++ stretch ++ after))
    (hnone : ∀ e ∈ stretch, e.drawn? id = none) :
    (stretch.countP fun e => e.accepts id) ≤ 1 := by
  rw [List.countP_eq_length_filter]
  by_contra hmore
  obtain ⟨e, e', rest, hfilter⟩ : ∃ e e' rest,
      (stretch.filter fun e => e.accepts id) = e :: e' :: rest := by
    match hfilter : stretch.filter fun e => e.accepts id with
    | [] => simp [hfilter] at hmore
    | [_] => simp [hfilter] at hmore
    | e :: e' :: rest => exact ⟨e, e', rest, hfilter⟩
  obtain ⟨left, tail, rfl, -, haccepts, htail⟩ := List.filter_eq_cons_iff.1 hfilter
  obtain ⟨between, right, rfl, -, haccepts', -⟩ := List.filter_eq_cons_iff.1 htail
  have hsplit : before ++ (left ++ e :: (between ++ e' :: right)) ++ after =
      (before ++ left) ++ e :: (between ++ e' :: (right ++ after)) := by simp
  rw [hsplit] at h hfresh
  obtain ⟨d, hd, key, hdrawn⟩ := h.exists_drawn hfresh haccepts haccepts'
  rw [hnone d (by simp [hd])] at hdrawn
  cases hdrawn

/-- A key that is drawn is neither the live key nor the one that was spent last. -/
theorem drawn_ne {before after : List SessionEvent} {d : SessionEvent} {key : SessionKey}
    (h : SessionTrace config (before ++ d :: after) s) (hfresh : FreshIds (before ++ d :: after))
    (hdrawn : d.drawn? id = some key) :
    d.liveKey? id ≠ some key ∧ ∀ spent, LastSpent before id spent → spent ≠ key := by
  obtain ⟨session, hsession, hlive, hretired⟩ := h.of_drawn hdrawn
  have hhistory := h.of_append.1.keyHistory hfresh.of_append hsession
  refine ⟨?_, fun spent hspent heq => hretired ?_⟩
  · rw [SessionEvent.liveKey?_eq hsession]
    exact hlive
  · rw [← heq]
    exact (hhistory.retired spent).2 hspent

/-- If requests take turns, two requests that are accepted one after the other have used different
keys. -/
theorem keys_ne {before between after : List SessionEvent} {e e' : SessionEvent}
    (h : SessionTrace config (before ++ e :: (between ++ e' :: after)) s)
    (hfresh : FreshIds (before ++ e :: (between ++ e' :: after)))
    (hturns : AsksInTurn (before ++ e :: (between ++ e' :: after)))
    (haccepts : e.accepts id = true) (haccepts' : e'.accepts id = true)
    (hbetween : ∀ x ∈ between, x.accepts id = false) :
    ∃ key key', e.AcceptsUnder id key ∧ e'.AcceptsUnder id key' ∧ key ≠ key' := by
  obtain ⟨-, key, -, -, hunder⟩ := h.of_accepts haccepts
  rw [← List.cons_append, ← List.append_assoc] at h hfresh hturns
  obtain ⟨session, key', hsession, hkey', hunder'⟩ := h.of_accepts haccepts'
  have hlast : LastUsed (before ++ e :: between) id key :=
    ⟨before, e, between, rfl, ⟨haccepts, hunder.2.1⟩, fun x hx => by simp [hbetween x hx]⟩
  have hused := ((h.of_append.1.turns hfresh.of_append hturns.of_append hsession).used key hlast).2
  refine ⟨key, key', hunder, hunder', fun heq => hused ?_⟩
  rw [hkey', heq]

end SessionTrace

/-- **A session key authenticates at most one request, in every interleaving.**  If no id is drawn
twice, a key is drawn between any two requests that are accepted in a session, so that of those
that come in between two draws at most one is accepted; a key that is drawn is neither the live key
nor the one that was spent last; and if requests ask for a key only in turn, two requests that are
accepted one after the other have used different keys. -/
theorem sessionKey_serves_once {config : SessionConfig} {es : List SessionEvent} {s : SessionClock}
    (h : SessionTrace config es s) (hfresh : FreshIds es) (id : UInt64) :
    (∀ before e between e' after, es = before ++ e :: (between ++ e' :: after) →
        e.accepts id = true → e'.accepts id = true →
        ∃ d ∈ between, ∃ key, d.drawn? id = some key) ∧
      (∀ before stretch after, es = before ++ stretch ++ after →
        (∀ e ∈ stretch, e.drawn? id = none) → (stretch.countP fun e => e.accepts id) ≤ 1) ∧
      (∀ before d after key, es = before ++ d :: after → d.drawn? id = some key →
        d.liveKey? id ≠ some key ∧ ∀ spent, LastSpent before id spent → spent ≠ key) ∧
      (AsksInTurn es → ∀ before e between e' after, es = before ++ e :: (between ++ e' :: after) →
        e.accepts id = true → e'.accepts id = true → (∀ x ∈ between, x.accepts id = false) →
        ∃ key key', e.AcceptsUnder id key ∧ e'.AcceptsUnder id key' ∧ key ≠ key') := by
  refine ⟨?_, ?_, ?_, ?_⟩
  · rintro before e between e' after rfl haccepts haccepts'
    exact h.exists_drawn hfresh haccepts haccepts'
  · rintro before stretch after rfl hnone
    exact h.countP_accepts_le_one hfresh hnone
  · rintro before d after key rfl hdrawn
    exact h.drawn_ne hfresh hdrawn
  · rintro hturns before e between e' after rfl haccepts haccepts' hbetween
    exact h.keys_ne hfresh hturns haccepts haccepts' hbetween

/-! ### An example -/

/-- A key for examples. -/
def zeroKey : SessionKey := Octets.zero 32

/-- A request in session 7 whose code fits a key. -/
def sampleRequest (key : SessionKey) : SessionStep :=
  .validate 7 (RequestMac.compute key.bytes [] []).bytes [] []

/-- Two requests that are accepted one after the other, while all draws give one key. -/
def sampleSteps : List (Nat × SessionStep) :=
  [(0, .authenticate (fun _ _ => .ok true) (.answered (some ⟨"ann", "default", false, []⟩)) [] 7
      zeroKey),
    (1, sampleRequest zeroKey), (1, .nextKey 7 zeroKey),
    (2, sampleRequest (Session.neighbour zeroKey 1))]

/-- What happens in these steps. -/
def sampleEvents : List SessionEvent := eventsOf ⟨.empty {}, 0⟩ sampleSteps

theorem asksInTurn_of_four {e₀ e₁ e₂ e₃ : SessionEvent} (h₀ : ∀ id, e₀.asksKey id = false)
    (h₁ : ∀ id, e₁.asksKey id = false)
    (h₂ : ∀ id, e₂.asksKey id = true → e₁.request = e₂.request ∧ e₁.accepts id = true)
    (h₃ : ∀ id, e₃.asksKey id = false) : AsksInTurn [e₀, e₁, e₂, e₃] := by
  intro before e after id hes hasks
  match before with
  | [] =>
    obtain ⟨rfl, -⟩ := List.cons.inj hes
    simp [h₀] at hasks
  | [_] =>
    simp only [List.cons_append, List.nil_append, List.cons.injEq] at hes
    obtain ⟨rfl, rfl, -⟩ := hes
    simp [h₁] at hasks
  | [_, _] =>
    simp only [List.cons_append, List.nil_append, List.cons.injEq] at hes
    obtain ⟨rfl, rfl, rfl, -⟩ := hes
    exact ⟨[_], _, [], rfl, h₂ id hasks, by simp⟩
  | [_, _, _] =>
    simp only [List.cons_append, List.nil_append, List.cons.injEq] at hes
    obtain ⟨rfl, rfl, rfl, rfl, -⟩ := hes
    simp [h₃] at hasks
  | _ :: _ :: _ :: _ :: _ => simp at hes

theorem sessionKey_serves_once_sampleEvents :
    ∃ s, SessionTrace {} sampleEvents s ∧ FreshIds sampleEvents ∧ AsksInTurn sampleEvents ∧
      ∃ e ∈ sampleEvents, ∃ e' ∈ sampleEvents, ∃ key key',
        e.AcceptsUnder 7 key ∧ e'.AcceptsUnder 7 key' ∧ key ≠ key' := by
  have hevents : (sampleEvents.map fun e => (e.accepts 7, e.opened?.map (·.id))) =
      [(false, some 7), (true, none), (false, none), (true, none)] := by decide +kernel
  obtain ⟨s, h⟩ := (SessionTrace.start 0 : SessionTrace {} [] _).append_eventsOf sampleSteps
  have hfresh : FreshIds sampleEvents := by
    have hids := congrArg (List.filterMap fun x => x.2) hevents
    rw [List.filterMap_map] at hids
    show (sampleEvents.filterMap fun e => e.opened?.map (·.id)).Nodup
    rw [show (sampleEvents.filterMap fun e => e.opened?.map (·.id)) = [7] from hids]
    decide
  have hsplit : ∃ e₀ e₁ e₂ e₃, sampleEvents = [e₀, e₁, e₂, e₃] ∧ (∀ id, e₀.asksKey id = false) ∧
      (∀ id, e₁.asksKey id = false) ∧ (∀ id, e₃.asksKey id = false) ∧
      (∀ id, e₂.asksKey id = true → e₁.request = e₂.request ∧ id = 7) := by
    refine ⟨_, _, _, _, rfl, fun _ => rfl, fun _ => rfl, fun _ => rfl, fun id hid => ⟨rfl, ?_⟩⟩
    exact (of_decide_eq_true hid).symm
  obtain ⟨e₀, e₁, e₂, e₃, heq, h₀, h₁, h₃, h₂⟩ := hsplit
  rw [heq] at hevents hfresh ⊢
  simp only [List.map_cons, List.map_nil, List.cons.injEq, Prod.mk.injEq] at hevents
  obtain ⟨⟨hnot₀, -⟩, ⟨haccepts₁, -⟩, ⟨hnot₂, -⟩, ⟨haccepts₃, -⟩, -⟩ := hevents
  have hturns : AsksInTurn [e₀, e₁, e₂, e₃] := by
    refine asksInTurn_of_four h₀ h₁ (fun id hasks => ?_) h₃
    obtain ⟨hrequest, rfl⟩ := h₂ id hasks
    exact ⟨hrequest, haccepts₁⟩
  have htrace : SessionTrace {} [e₀, e₁, e₂, e₃] s := heq ▸ h
  obtain ⟨key, key', hkey, hkey', hne⟩ := (sessionKey_serves_once htrace hfresh 7).2.2.2 hturns
    [e₀] e₁ [e₂] e₃ [] rfl haccepts₁ haccepts₃ (by simp [hnot₂])
  exact ⟨s, htrace, hfresh, hturns, e₁, by simp, e₃, by simp, key, key', hkey, hkey', hne⟩

end Strongroom
