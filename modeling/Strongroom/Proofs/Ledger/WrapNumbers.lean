import Strongroom.Proofs.Ledger.Immutable

/-!
# The numbers of wraps

One counter gives every wrap its number, whatever secret it is for.  The counter stands in another
table than the wraps, and wraps come and go while the counter only rises; so what ties the two
together is the history.  The wraps that were ever made are a list (`madeWraps`), the counter is the
length of the list, and what is stored are some of its members, each under its place in it
(`NumbersWraps`):

    counter = (madeWraps es).length,   stored ⊆ [(key of w₁ and 1, w₁), (key of w₂ and 2, w₂), …].

A place is never taken twice, so no number is used again, and an insertion always adds a row
(`NumbersWraps.add`).  A command that makes wraps makes them one after another
(`of_execute_newWraps`), one that takes wraps away leaves the counter as it is, and one that fails
leaves everything (`NumbersWraps.attempt`).  The one thing that could spoil this is a counter that
comes round to zero.
-/

namespace Strongroom

/-! ### The wraps that were ever made -/

/-- The wraps that were made in an event. -/
def Event.newWraps (e : Event) : List Wrap :=
  match e.reply with
  | .ok _ => e.command.newWraps
  | .error _ => []

/-- The wraps that were ever made, in the order in which they were made. -/
def madeWraps (es : List Event) : List Wrap := es.flatMap Event.newWraps

theorem madeWraps_cons (e : Event) (es : List Event) :
    madeWraps (e :: es) = e.newWraps ++ madeWraps es := rfl

theorem madeWraps_append (es es' : List Event) :
    madeWraps (es ++ es') = madeWraps es ++ madeWraps es' :=
  List.flatMap_append

theorem madeWraps_concat (es : List Event) (e : Event) :
    madeWraps (es ++ [e]) = madeWraps es ++ e.newWraps := by
  rw [madeWraps_append, madeWraps_cons]
  exact congrArg _ (List.append_nil _)

theorem length_madeWraps_le_append (es es' : List Event) :
    (madeWraps es).length ≤ (madeWraps (es ++ es')).length := by
  rw [madeWraps_append, List.length_append]
  exact Nat.le_add_right _ _

theorem isValid_of_mem_madeWraps {es : List Event} {w : Wrap} (hw : w ∈ madeWraps es) :
    w.createdAt.IsValid := by
  obtain ⟨e, -, hw⟩ := List.mem_flatMap.1 hw
  unfold Event.newWraps at hw
  cases hreply : e.reply with
  | ok a =>
    rw [hreply] at hw
    exact Command.isValid_of_mem_newWraps hw
  | error err =>
    rw [hreply] at hw
    cases hw

theorem Event.length_newWraps (e : Event) : e.newWraps.length = e.wraps := by
  unfold newWraps wraps
  cases e.reply with
  | ok a => exact e.command.length_newWraps
  | error err => rfl

theorem length_madeWraps (es : List Event) : (madeWraps es).length = wrapsMade es := by
  induction es with
  | nil => rfl
  | cons e es ih =>
    rw [madeWraps_cons, List.length_append, ih, e.length_newWraps, wrapsMade_cons]

/-- Wraps under numbers that go on from `n`. -/
def numberedFrom (n : Nat) (ws : List Wrap) : List NumberedWrap :=
  (ws.zipIdx n).map fun x => ⟨UInt64.ofNat x.2, x.1⟩

theorem numberedFrom_nil (n : Nat) : numberedFrom n [] = [] := rfl

theorem numberedFrom_cons (n : Nat) (w : Wrap) (ws : List Wrap) :
    numberedFrom n (w :: ws) = ⟨UInt64.ofNat n, w⟩ :: numberedFrom (n + 1) ws := rfl

theorem numberedFrom_append (n : Nat) (ws ws' : List Wrap) :
    numberedFrom n (ws ++ ws') = numberedFrom n ws ++ numberedFrom (n + ws.length) ws' := by
  unfold numberedFrom
  rw [List.zipIdx_append, List.map_append]

theorem mem_numberedFrom_one {made : List Wrap} {x : NumberedWrap} (hx : x ∈ numberedFrom 1 made) :
    ∃ i, made[i]? = some x.wrap ∧ x.number = UInt64.ofNat (i + 1) := by
  obtain ⟨⟨w, n⟩, hmem, rfl⟩ := List.mem_map.1 hx
  obtain ⟨hle, hget⟩ := List.mk_mem_zipIdx_iff_le_and_getElem?_sub.1 hmem
  exact ⟨n - 1, hget, congrArg UInt64.ofNat (by dsimp only; omega)⟩

namespace Ledger

/-! ### One insertion after another -/

/-- The counter shows how many wraps were made, and what is stored of them stands under their
places in the order in which they were made. -/
structure NumbersWraps (l : Ledger) (made : List Wrap) : Prop where
  counter : l.lastWrap.toNat = made.length
  stored : l.wraps.rows ⊆ (numberedFrom 1 made).map NumberedWrap.row

namespace NumbersWraps

variable {l l' : Ledger} {made : List Wrap} {c : Command} {a : Answer}

theorem empty : Ledger.empty.NumbersWraps [] :=
  ⟨rfl, List.nil_subset _⟩

/-- A ledger that has only lost wraps. -/
theorem of_subset (h : l.NumbersWraps made) (hcounter : l'.lastWrap = l.lastWrap)
    (hrows : l'.wraps.rows ⊆ l.wraps.rows) : l'.NumbersWraps made :=
  ⟨hcounter ▸ h.counter, List.Subset.trans hrows h.stored⟩

/-- A row stands under its secret and its place, which the counter has passed. -/
theorem exists_of_mem (h : l.NumbersWraps made) {row : Bytes × Bytes} (hrow : row ∈ l.wraps.rows) :
    ∃ w n, row = (wrapKey w.secret n, w.toJson) ∧ 1 ≤ n ∧ n ≤ l.lastWrap ∧
      made[n.toNat - 1]? = some w := by
  obtain ⟨⟨n, w⟩, hx, rfl⟩ := List.mem_map.1 (h.stored hrow)
  obtain ⟨i, hget, rfl⟩ := mem_numberedFrom_one hx
  have hi : i < made.length := (List.getElem?_eq_some_iff.1 hget).1
  have hlow : i + 1 < 2 ^ 64 := by
    have hcounter := l.lastWrap.toNat_lt
    rw [h.counter] at hcounter
    omega
  have hnumber : (UInt64.ofNat (i + 1)).toNat = i + 1 := UInt64.toNat_ofNat_of_lt' hlow
  refine ⟨w, UInt64.ofNat (i + 1), rfl, ?_, ?_, ?_⟩
  · rw [UInt64.le_iff_toNat_le, hnumber]
    exact Nat.le_add_left 1 i
  · rw [UInt64.le_iff_toNat_le, hnumber, h.counter]
    exact hi
  · rw [hnumber]
    exact hget

/-- A number is in use for one secret only. -/
theorem eq_of_mem (h : l.NumbersWraps made) {s t : String} {n : UInt64} {bytes bytes' : Bytes}
    (hs : (wrapKey s n, bytes) ∈ l.wraps.rows) (ht : (wrapKey t n, bytes') ∈ l.wraps.rows) :
    s = t ∧ bytes = bytes' := by
  obtain ⟨w, m, hrow, -, -, hget⟩ := h.exists_of_mem hs
  obtain ⟨w', m', hrow', -, -, hget'⟩ := h.exists_of_mem ht
  obtain ⟨hkey, rfl⟩ := Prod.mk.inj hrow
  obtain ⟨hkey', rfl⟩ := Prod.mk.inj hrow'
  obtain ⟨rfl, rfl⟩ := wrapKey_inj hkey
  obtain ⟨rfl, rfl⟩ := wrapKey_inj hkey'
  -- both are the wrap that was made in this place
  obtain rfl : w = w' := Option.some.inj (hget.symm.trans hget')
  exact ⟨rfl, rfl⟩

theorem lastWrap_add_one (h : l.NumbersWraps made) :
    l.lastWrap + 1 = UInt64.ofNat (made.length + 1) := by
  rw [← h.counter, UInt64.ofNat_add, UInt64.ofNat_toNat]
  rfl

/-- The next number is in use for no secret. -/
theorem nextFree (h : l.NumbersWraps made) (hroom : made.length + 1 < 2 ^ 64) : l.NextFree := by
  intro secret
  rw [Table.get?_eq_none_iff]
  intro row hrow hkey
  obtain ⟨w, n, rfl, -, hle, -⟩ := h.exists_of_mem hrow
  obtain rfl : n = l.lastWrap + 1 := (wrapKey_inj hkey).2
  rw [UInt64.le_iff_toNat_le, h.lastWrap_add_one, UInt64.toNat_ofNat_of_lt' hroom, h.counter] at hle
  omega

/-- **An insertion takes the next place and adds one row.** -/
theorem add (h : l.NumbersWraps made) (hroom : made.length + 1 < 2 ^ 64) (w : Wrap) :
    (l.addWrap w).NumbersWraps (made ++ [w]) ∧
      (l.addWrap w).wraps.rows.Perm
        (l.wraps.rows ++ [NumberedWrap.row ⟨UInt64.ofNat (made.length + 1), w⟩]) := by
  have hnumber := h.lastWrap_add_one
  have hfree := h.nextFree hroom w.secret
  have hperm : (l.addWrap w).wraps.rows.Perm
      (l.wraps.rows ++ [NumberedWrap.row ⟨UInt64.ofNat (made.length + 1), w⟩]) := by
    obtain ⟨before, after, hold, hnew, -, -⟩ := Table.rows_insert_of_get?_eq_none hfree w.toJson
    rw [hnumber] at hnew
    unfold addWrap
    rw [hnumber, hnew, hold, List.append_assoc]
    exact (List.perm_append_singleton _ after).symm.append_left before
  refine ⟨⟨?_, ?_⟩, hperm⟩
  · rw [lastWrap_addWrap, hnumber, UInt64.toNat_ofNat_of_lt' hroom, List.length_append]
    rfl
  · intro row hrow
    rw [numberedFrom_append, List.map_append]
    rcases List.mem_append.1 (hperm.subset hrow) with hrow | hrow
    · exact List.mem_append_left _ (h.stored hrow)
    · apply List.mem_append_right
      rw [Nat.add_comm 1]
      exact hrow

/-- Insertions one after another take one place each. -/
theorem addAll (h : l.NumbersWraps made) (ws : List Wrap)
    (hroom : made.length + ws.length < 2 ^ 64) :
    (ws.foldl addWrap l).NumbersWraps (made ++ ws) ∧
      (ws.foldl addWrap l).wraps.rows.Perm
        (l.wraps.rows ++ (numberedFrom (made.length + 1) ws).map NumberedWrap.row) := by
  induction ws generalizing l made with
  | nil =>
    rw [List.append_nil, numberedFrom_nil, List.map_nil, List.append_nil]
    exact ⟨h, .refl _⟩
  | cons w ws ih =>
    rw [List.length_cons] at hroom
    obtain ⟨hnext, hone⟩ := h.add (by omega) w
    have hlength : (made ++ [w]).length = made.length + 1 := by simp
    obtain ⟨hlast, hrest⟩ := ih hnext (by omega)
    rw [hlength] at hrest
    constructor
    · rwa [List.append_assoc, List.singleton_append] at hlast
    · rw [numberedFrom_cons, List.map_cons, List.append_cons]
      exact hrest.trans (hone.append_right _)

end NumbersWraps

/-! ### Commands -/

/-- What an event does to the wraps and to their counter: the counter rises by the number of wraps
that were made, each of them has a new row under a number of its own, and the other rows stay unless
the event makes no wraps.  What fails changes nothing. -/
structure GivesNumbers (l : Ledger) (e : Event) (l' : Ledger) : Prop where
  counter : l'.lastWrap.toNat = l.lastWrap.toNat + e.newWraps.length
  failed : ¬e.Succeeds → l' = l
  adds : e.newWraps ≠ [] → l'.wraps.rows.Perm
    (l.wraps.rows ++ (numberedFrom (l.lastWrap.toNat + 1) e.newWraps).map NumberedWrap.row)
  removes : e.newWraps = [] → l'.wraps.rows ⊆ l.wraps.rows

namespace NumbersWraps

variable {l l' : Ledger} {p : PlainLedger} {made : List Wrap} {c : Command} {a : Answer}

theorem execute (h : l.NumbersWraps made) (hintact : l.Intact)
    (hrep : Represents l p made.length) (hok : l.execute c = .ok (a, l'))
    (hroom : made.length + c.newWraps.length < 2 ^ 64) :
    l.GivesNumbers ⟨c, .ok a⟩ l' ∧ l'.NumbersWraps (made ++ c.newWraps) := by
  have hsucceeds : Event.Succeeds ⟨c, .ok a⟩ := ⟨a, rfl⟩
  have hmade : Event.newWraps ⟨c, .ok a⟩ = c.newWraps := rfl
  by_cases hnone : c.newWraps = []
  · -- the plain ledger behind it says that the counter has not moved
    have hzero : c.wraps = 0 := by
      rw [← c.length_newWraps, hnone]
      rfl
    obtain ⟨p', hrep'⟩ := hrep.of_execute_eq_ok hok (by rwa [← c.length_newWraps])
    have hcounter : l'.lastWrap.toNat = l.lastWrap.toNat := by
      rw [hrep'.counter, hzero, h.counter]
      rfl
    have hrows : l'.wraps.rows ⊆ l.wraps.rows := hintact.wraps_subset_of_removes hok hnone
    rw [hnone, List.append_nil]
    refine ⟨⟨?_, fun hfails => absurd hsucceeds hfails, fun hsome => absurd hnone hsome,
      fun _ => hrows⟩, h.of_subset (UInt64.toNat_inj.1 hcounter) hrows⟩
    rw [hmade, hnone]
    exact hcounter
  · obtain ⟨stored, hwraps, hcounters, rfl⟩ := of_execute_newWraps hok hnone
    have hlast : stored.lastWrap = l.lastWrap := by
      unfold lastWrap
      rw [hcounters]
    have hstored : stored.NumbersWraps made :=
      h.of_subset hlast (by rw [hwraps]; exact List.Subset.refl _)
    obtain ⟨hnumbers, hperm⟩ := hstored.addAll c.newWraps hroom
    refine ⟨⟨?_, fun hfails => absurd hsucceeds hfails, fun _ => ?_,
      fun hempty => absurd hempty hnone⟩, hnumbers⟩
    · rw [hnumbers.counter, h.counter, List.length_append, hmade]
    · rw [h.counter, ← hwraps]
      exact hperm

/-- **One step**: every wrap that it makes takes the next place. -/
theorem attempt (h : l.NumbersWraps made) (hintact : l.Intact) (hrep : Represents l p made.length)
    (c : Command) :
    let next := Strongroom.attempt Ledger.execute l c
    let e : Event := ⟨c, next.1⟩
    made.length + e.newWraps.length < 2 ^ 64 →
      l.GivesNumbers e next.2 ∧ next.2.NumbersWraps (made ++ e.newWraps) := by
  cases hc : l.execute c with
  | ok x =>
    rw [attempt_of_ok hc]
    exact fun hroom => h.execute hintact hrep hc hroom
  | error err =>
    rw [attempt_of_error hc]
    intro next e hroom
    refine ⟨⟨rfl, fun _ => rfl, fun hsome => absurd rfl hsome, fun _ => List.Subset.refl _⟩, ?_⟩
    rw [show e.newWraps = [] from rfl, List.append_nil]
    exact h

/-- One step behind a run. -/
theorem next {cs : List Command} {es : List Event} (h : l.NumbersWraps (madeWraps es))
    (hrun : run Ledger.execute .empty cs = (es, l)) (c : Command) :
    let next := Strongroom.attempt Ledger.execute l c
    let e : Event := ⟨c, next.1⟩
    (madeWraps (es ++ [e])).length < 2 ^ 64 - 1 →
      l.GivesNumbers e next.2 ∧ next.2.NumbersWraps (madeWraps (es ++ [e])) := by
  intro next e hmade
  rw [madeWraps_concat] at hmade ⊢
  rw [List.length_append] at hmade
  have hintact : l.Intact := by
    have := intact_run .empty cs
    rwa [hrun] at this
  have hrep := (Represents.of_run hrun rfl (by rw [← length_madeWraps]; omega)).2
  rw [← length_madeWraps] at hrep
  have hroom : (madeWraps es).length + e.newWraps.length < 2 ^ 64 := by omega
  exact h.attempt hintact hrep c hroom

end NumbersWraps

/-- **A whole run**: the counter and the wraps are those of the history. -/
theorem numbersWraps_run {cs : List Command} {es : List Event} {l : Ledger}
    (hrun : run Ledger.execute .empty cs = (es, l)) (hmade : (madeWraps es).length < 2 ^ 64 - 1) :
    l.NumbersWraps (madeWraps es) := by
  induction cs using List.reverseRecOn generalizing es l with
  | nil =>
    cases hrun
    exact .empty
  | append_singleton cs c ih =>
    cases hbefore : run Ledger.execute .empty cs with
    | mk es₀ l₀ =>
      rw [run_concat, hbefore] at hrun
      cases hrun
      have hfewer : (madeWraps es₀).length < 2 ^ 64 - 1 :=
        Nat.lt_of_le_of_lt (length_madeWraps_le_append _ _) hmade
      exact ((ih hbefore hfewer).next hbefore c hmade).2

/-- **Every step of a run** takes numbers that the counter has not reached. -/
theorem step_of_run {before after : List Command} {c : Command} {es : List Event} {l : Ledger}
    (hrun : run Ledger.execute .empty (before ++ c :: after) = (es, l))
    (hmade : (madeWraps es).length < 2 ^ 64 - 1) :
    let l₁ := (run Ledger.execute .empty before).2
    let next := attempt Ledger.execute l₁ c
    l₁.lastWrap ≤ next.2.lastWrap ∧ l₁.GivesNumbers ⟨c, next.1⟩ next.2 := by
  cases hbefore : run Ledger.execute .empty before with
  | mk es₁ l₁ =>
    rw [run_append, hbefore, run_cons] at hrun
    obtain ⟨rfl, -⟩ := Prod.mk.inj hrun
    rw [List.append_cons] at hmade
    have hstep : (madeWraps (es₁ ++ [⟨c, (attempt Ledger.execute l₁ c).1⟩])).length < 2 ^ 64 - 1 :=
      Nat.lt_of_le_of_lt (length_madeWraps_le_append _ _) hmade
    have hfewer : (madeWraps es₁).length < 2 ^ 64 - 1 :=
      Nat.lt_of_le_of_lt (length_madeWraps_le_append _ _) hstep
    obtain ⟨hgives, -⟩ := (numbersWraps_run hbefore hfewer).next hbefore c hstep
    refine ⟨?_, hgives⟩
    rw [UInt64.le_iff_toNat_le, hgives.counter]
    exact Nat.le_add_right _ _

/-- **Numbers of wraps are never used again, and no wrap is overwritten.**  In every run from the
empty ledger that makes fewer than `2 ^ 64 - 1` wraps, the counter is the number of wraps that were
made.  Every wrap that is stored stands under its own secret and its place among all that were made,
which is a number from 1 to the counter, and no two have a number in common, whatever secrets they
are for.  And so it was at every command of the run: one that makes wraps takes the next numbers,
adds a new row under each and keeps all others, one that makes none leaves the counter as it is and
adds no row, and one that fails changes nothing. -/
theorem wrap_numbers_are_never_reused {cs : List Command} {es : List Event} {l : Ledger}
    (hrun : run Ledger.execute .empty cs = (es, l)) (hmade : (madeWraps es).length < 2 ^ 64 - 1) :
    l.lastWrap.toNat = (madeWraps es).length ∧
    (∀ row ∈ l.wraps.rows, ∃ w n, decode Wrap.layout row.2 = .ok w ∧
      row.1 = wrapKey w.secret n ∧ 1 ≤ n ∧ n ≤ l.lastWrap ∧
      (madeWraps es)[n.toNat - 1]? = some w) ∧
    (∀ s t n bytes bytes', (wrapKey s n, bytes) ∈ l.wraps.rows →
      (wrapKey t n, bytes') ∈ l.wraps.rows → s = t ∧ bytes = bytes') ∧
    ∀ before c after, cs = before ++ c :: after →
      let l₁ := (run Ledger.execute .empty before).2
      let next := attempt Ledger.execute l₁ c
      l₁.lastWrap ≤ next.2.lastWrap ∧ l₁.GivesNumbers ⟨c, next.1⟩ next.2 := by
  have h : l.NumbersWraps (madeWraps es) := numbersWraps_run hrun hmade
  refine ⟨h.counter, fun row hrow => ?_, fun s t n bytes bytes' hs ht => h.eq_of_mem hs ht, ?_⟩
  · obtain ⟨w, n, rfl, hone, hle, hget⟩ := h.exists_of_mem hrow
    have hvalid := isValid_of_mem_madeWraps (List.mem_of_getElem? hget)
    exact ⟨w, n, Wrap.decode_toJson hvalid, rfl, hone, hle, hget⟩
  · rintro before c after rfl
    exact step_of_run hrun hmade

/-- A run in which a secret is made, made again in vain, granted, deleted and made once more. -/
def sampleReturn : List Command :=
  [.bootstrap leapDay ⟨List.replicate 32 1, [1], none⟩,
    .registerPrincipal leapDay ⟨"ann", .client, List.replicate 32 2, [2]⟩,
    .createSecret leapDay ⟨"ann", "default", false, false⟩ ⟨"db", [3], [4], some [5], none⟩,
    .createSecret leapDay ⟨"ann", "default", false, false⟩ ⟨"db", [3], [4], some [5], none⟩,
    .assignToPrincipal leapDay "db" "ann" [6] none,
    .deleteSecret "db",
    .createSecret leapDay ⟨"ann", "default", false, false⟩ ⟨"db", [7], [8], some [9], none⟩]

theorem wrap_numbers_are_never_reused_sampleReturn :
    let es := (run Ledger.execute .empty sampleReturn).1
    let l := (run Ledger.execute .empty sampleReturn).2
    (madeWraps es).length = 5 ∧ l.lastWrap.toNat = (madeWraps es).length ∧
      l.wraps.rows.map (·.1) = [wrapKey "db" 4, wrapKey "db" 5] ∧
      ∀ row ∈ l.wraps.rows, ∃ w n, decode Wrap.layout row.2 = .ok w ∧
        row.1 = wrapKey w.secret n ∧ (madeWraps es)[n.toNat - 1]? = some w := by
  intro es l
  have hrun : run Ledger.execute .empty sampleReturn = (es, l) := rfl
  have hfive : (madeWraps es).length = 5 := by decide +kernel
  have hkeys : l.wraps.rows.map (·.1) = [wrapKey "db" 4, wrapKey "db" 5] := by decide +kernel
  obtain ⟨hcounter, hstored, -, -⟩ := wrap_numbers_are_never_reused hrun (by omega)
  refine ⟨hfive, hcounter, hkeys, fun row hrow => ?_⟩
  obtain ⟨w, n, hw, hkey, -, -, hget⟩ := hstored row hrow
  exact ⟨w, n, hw, hkey, hget⟩

end Ledger

end Strongroom
