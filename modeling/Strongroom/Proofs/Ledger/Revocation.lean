import Strongroom.Proofs.Ledger.Removal

/-!
# Revocation

The wraps of one secret for one recipient are scattered over the table: names with a common prefix
are neighbours, a principal and a group may have one name, and a grant that is made twice is there
twice.  A revocation finds all of them and nothing else (`Intact.revoke_eq`),

    revoke s r  =  (number of wraps of s for r, the ledger without them)      if there are any.

So a second one finds none.  And since a grant puts one row among the others and touches none of
them (`Granted.addWrap`), a revocation undoes any number of grants if there was none before
(`Granted.undo`).
-/

namespace Strongroom

/-! ### Grants and revocations of either kind -/

/-- The grant of a secret to a recipient. -/
def Command.grant (now : Moment) (secret : String) (sealedKey : Bytes) (path : Option String) :
    Recipient → Command
  | .group name => .assignToGroup now secret name sealedKey path
  | .principal name => .assignToPrincipal now secret name sealedKey path

/-- The revocation of a secret from a recipient. -/
def Command.revoke (secret : String) : Recipient → Command
  | .group name => .revokeFromGroup secret name
  | .principal name => .revokeFromPrincipal secret name

namespace Ledger

/-- Whether a row is that of a wrap of a secret for a recipient. -/
def isWrapFor (secret : String) (r : Recipient) : Bytes → Bool :=
  isWrap fun w => w.secret = secret && w.recipient = r

/-- The rows of the wraps of a secret for a recipient. -/
def wrapsFor (l : Ledger) (secret : String) (r : Recipient) : List (Bytes × Bytes) :=
  l.wraps.rows.filter fun row => isWrapFor secret r row.2

/-- The table of wraps without those of a secret for a recipient. -/
def otherWraps (l : Ledger) (secret : String) (r : Recipient) : Table Bytes Bytes :=
  l.wraps.filter fun _ row => !isWrapFor secret r row

variable {l l' l'' : Ledger} {secret : String} {r : Recipient} {n : Nat} {a : Answer}

/-! ### One revocation -/

theorem execute_revoke (hr : r ≠ .group superGroup) :
    l.execute (.revoke secret r) = counted (l.revoke secret r) := by
  cases r with
  | principal name => rfl
  | group name =>
    have hname : name ≠ superGroup := fun heq => hr (heq ▸ rfl)
    show counted (l.revokeFromGroup secret name) = _
    rw [revokeFromGroup, decide_eq_true hname]
    rfl

/-- **A revocation takes away the wraps of the secret for the recipient and counts them.** -/
theorem Intact.revoke_eq (h : l.Intact) (hthere : has l.secrets secret = true) (r : Recipient) :
    l.revoke secret r =
      if l.wrapsFor secret r = [] then .error (.notFound (.wrap secret r))
      else .ok ((l.wrapsFor secret r).length, { l with wraps := l.otherWraps secret r }) := by
  have htest : isWrapFor secret r = isWrap fun w =>
      (w.secret = secret && w.recipient = r) && (some secret).all (w.secret = ·) := by
    refine congrArg isWrap (funext fun w => ?_)
    rw [Option.all_some, Bool.and_right_comm, Bool.and_self]
  have hremove : l.removeWraps (some secret)
      (fun w => w.secret = secret && w.recipient = r) =
      .ok ((l.wrapsFor secret r).length, { l with wraps := l.otherWraps secret r }) := by
    rw [wrapsFor, ← List.countP_eq_length_filter]
    exact h.removeWraps_eq _ _ htest
  rw [Ledger.revoke, (h.accepted_of_has hthere).1, hthere]
  simp only [require, if_true, bind, Except.bind, hremove]
  by_cases hnone : l.wrapsFor secret r = []
  · simp [hnone]
  · simp [hnone]

/-- What a revocation leaves holds no wrap of the secret for the recipient. -/
theorem wrapsFor_of_otherWraps (l : Ledger) (secret : String) (r : Recipient) :
    ({ l with wraps := l.otherWraps secret r } : Ledger).wrapsFor secret r = [] := by
  show (l.wraps.rows.filter _).filter _ = []
  rw [List.filter_filter, List.filter_eq_nil_iff]
  intro row _
  simp

theorem otherWraps_of_wrapsFor_eq_nil (h : l.wrapsFor secret r = []) :
    l.otherWraps secret r = l.wraps := by
  refine Table.ext_get? fun key => ?_
  rw [otherWraps, Table.get?_filter]
  cases hget : l.wraps.get? key with
  | none => rfl
  | some bytes =>
    have hother := List.filter_eq_nil_iff.1 h _ (Table.get?_eq_some_iff.1 hget)
    rw [Option.filter_some, if_pos (by simpa using hother)]

theorem has_of_revoke_eq_ok (h : l.revoke secret r = .ok (n, l')) :
    has l.secrets secret = true := by
  rw [revoke] at h
  obtain ⟨-, -, h⟩ := of_bind_eq_ok h
  obtain ⟨_, hthere, -⟩ := of_bind_eq_ok h
  exact of_require_eq_ok hthere

/-- What a revocation has found and done. -/
theorem Intact.of_execute_revoke (h : l.Intact) (hr : r ≠ .group superGroup)
    (hok : l.execute (.revoke secret r) = .ok (a, l')) :
    has l.secrets secret = true ∧ l.wrapsFor secret r ≠ [] ∧
      a = .removed (l.wrapsFor secret r).length ∧
      l' = { l with wraps := l.otherWraps secret r } := by
  rw [execute_revoke hr] at hok
  obtain ⟨n, hn⟩ := of_counted_eq_ok hok
  have hthere := has_of_revoke_eq_ok hn
  rw [h.revoke_eq hthere] at hok
  split at hok
  · cases hok
  · next hsome =>
    cases hok
    exact ⟨hthere, hsome, rfl, rfl⟩

/-! ### Names that are not accepted -/

theorem kind_of_checkName {what name : String} {e : Error} (h : checkName what name = .error e) :
    e.kind = .invalidInput := by
  rw [checkName, require, require] at h
  split at h
  · split at h
    · cases h
    · cases h
      rfl
  · cases h
    rfl

/-- No name with a NUL is accepted, whatever name it extends. -/
theorem exists_checkName_eq_error {name : String} (what : String)
    (h : Char.ofNat 0 ∈ name.toList) : ∃ e, checkName what name = .error e := by
  cases hname : checkName what name with
  | error e => exact ⟨e, rfl⟩
  | ok u =>
    have hnul : isNameChar (Char.ofNat 0) = true :=
      List.all_eq_true.1 (isNameChar_of_checkName hname) _ h
    exact absurd hnul (by decide)

theorem revoke_of_checkName {e : Error} (h : checkName "secret" secret = .error e) :
    l.revoke secret r = .error e := by
  rw [revoke, h]
  rfl

/-! ### Grants -/

/-- A ledger has gained some wraps of a secret for a recipient, and nothing else has happened to its
principals, groups, secrets and wraps. -/
structure Granted (secret : String) (r : Recipient) (n : Nat) (l l' : Ledger) : Prop where
  principals : l'.principals = l.principals
  groups : l'.groups = l.groups
  secrets : l'.secrets = l.secrets
  count : (l'.wrapsFor secret r).length = (l.wrapsFor secret r).length + n
  others : l'.otherWraps secret r = l.otherWraps secret r

namespace Granted

theorem refl (secret : String) (r : Recipient) (l : Ledger) : Granted secret r 0 l l :=
  ⟨rfl, rfl, rfl, rfl, rfl⟩

theorem trans {m : Nat} (h : Granted secret r m l l') (h' : Granted secret r n l' l'') :
    Granted secret r (m + n) l l'' where
  principals := h'.principals.trans h.principals
  groups := h'.groups.trans h.groups
  secrets := h'.secrets.trans h.secrets
  count := by rw [h'.count, h.count, Nat.add_assoc]
  others := h'.others.trans h.others

/-- A wrap under a free number is one wrap more, between the others. -/
theorem addWrap (hfree : l.NextFree) {w : Wrap} (hvalid : w.createdAt.IsValid) :
    Granted w.secret w.recipient 1 l (l.addWrap w) := by
  have hmatch : isWrapFor w.secret w.recipient w.toJson = true := by
    rw [isWrapFor, isWrap_of_decode (Wrap.decode_toJson hvalid)]
    simp
  refine ⟨rfl, rfl, rfl, ?_, Table.ext_get? fun key => ?_⟩
  · obtain ⟨before, after, hrows, hinsert, -, -⟩ :=
      Table.rows_insert_of_get?_eq_none (hfree w.secret) w.toJson
    have hafter : (l.addWrap w).wraps.rows =
        before ++ (wrapKey w.secret (l.lastWrap + 1), w.toJson) :: after := hinsert
    rw [wrapsFor, wrapsFor, hafter, hrows, List.filter_append, List.filter_append,
      List.filter_cons_of_pos (by exact hmatch), List.length_append, List.length_append,
      List.length_cons, Nat.add_assoc]
  · rw [otherWraps, otherWraps, Table.get?_filter, Table.get?_filter, Ledger.addWrap,
      Table.get?_insert]
    split
    · next hkey =>
      subst hkey
      rw [hfree, Option.filter_some, if_neg (by simp [hmatch])]
      rfl
    · rfl

end Granted

theorem of_execute_grant {now : Moment} {sealedKey : Bytes} {path : Option String}
    (hok : l.execute (.grant now secret sealedKey path r) = .ok (a, l')) :
    has l.secrets secret = true ∧ l' = l.addWrap ⟨secret, r, sealedKey, path, now.1⟩ := by
  have hgrant : l.grant now.1 secret r sealedKey path = .ok l' := by
    cases r with
    | principal name => exact of_changed_eq_ok hok
    | group name =>
      obtain ⟨-, -, hgrant⟩ := of_bind_eq_ok (of_changed_eq_ok hok)
      exact hgrant
  refine ⟨?_, (of_grant_eq_ok hgrant).2⟩
  rw [Ledger.grant] at hgrant
  obtain ⟨-, -, hgrant⟩ := of_bind_eq_ok hgrant
  obtain ⟨_, hthere, -⟩ := of_bind_eq_ok hgrant
  exact of_require_eq_ok hthere

theorem wraps_grant (now : Moment) (secret : String) (sealedKey : Bytes) (path : Option String)
    (r : Recipient) : (Command.grant now secret sealedKey path r).wraps = 1 := by
  cases r <;> rfl

/-- **Grants that succeed one after another** are as many wraps more. -/
theorem granted_run {gs : List (Moment × Bytes × Option String)} {p : PlainLedger} {count : Nat}
    (hrep : Represents l p count) (hcount : count + gs.length < 2 ^ 64)
    (hok : ∀ e ∈ (run Ledger.execute l (gs.map fun g => .grant g.1 secret g.2.1 g.2.2 r)).1,
      e.Succeeds) :
    Granted secret r gs.length l
      (run Ledger.execute l (gs.map fun g => .grant g.1 secret g.2.1 g.2.2 r)).2 := by
  induction gs generalizing l p count with
  | nil => exact .refl secret r l
  | cons g gs ih =>
    rw [List.map_cons, run_cons] at hok ⊢
    rw [List.length_cons] at hcount
    cases hg : l.execute (.grant g.1 secret g.2.1 g.2.2 r) with
    | error e =>
      rw [attempt_of_error hg] at hok
      obtain ⟨a, ha⟩ := hok _ List.mem_cons_self
      cases ha
    | ok x =>
      obtain ⟨a, l₁⟩ := x
      rw [attempt_of_ok hg] at hok ⊢
      have hmade := wraps_grant g.1 secret g.2.1 g.2.2 r
      obtain ⟨p₁, hrep₁⟩ := hrep.of_execute_eq_ok hg (by omega)
      have hone : Granted secret r 1 l l₁ := by
        obtain ⟨-, rfl⟩ := of_execute_grant hg
        exact .addWrap (w := ⟨secret, r, g.2.1, g.2.2, g.1.1⟩) (hrep.nextFree (by omega)) g.1.2
      have hrest := ih hrep₁ (by omega) fun e he => hok e (List.mem_cons_of_mem _ he)
      rw [List.length_cons, Nat.add_comm]
      exact hone.trans hrest

/-- A secret that has been granted is there. -/
theorem has_of_granted_run {gs : List (Moment × Bytes × Option String)} (hsome : gs ≠ [])
    (hok : ∀ e ∈ (run Ledger.execute l (gs.map fun g => .grant g.1 secret g.2.1 g.2.2 r)).1,
      e.Succeeds) : has l.secrets secret = true := by
  obtain ⟨g, gs, rfl⟩ := List.exists_cons_of_ne_nil hsome
  rw [List.map_cons, run_cons] at hok
  cases hg : l.execute (.grant g.1 secret g.2.1 g.2.2 r) with
  | ok x => exact (of_execute_grant hg).1
  | error e =>
    rw [attempt_of_error hg] at hok
    obtain ⟨a, ha⟩ := hok _ List.mem_cons_self
    cases ha

/-- **A revocation undoes grants**, if there was none before. -/
theorem Granted.undo (h : Granted secret r n l l') (h' : l'.Intact)
    (hthere : has l.secrets secret = true) (hnone : l.wrapsFor secret r = []) (hsome : n ≠ 0) :
    l'.revoke secret r = .ok (n, { l' with wraps := l.wraps }) := by
  have hcount := h.count
  rw [hnone, List.length_nil, Nat.zero_add] at hcount
  rw [h'.revoke_eq (by rw [h.secrets, hthere]), hcount, h.others,
    otherWraps_of_wrapsFor_eq_nil hnone, if_neg]
  intro hnil
  rw [hnil] at hcount
  exact hsome hcount.symm

end Ledger

open Ledger in
/-- **Revocation removes all and only the matching wraps.**  In every ledger that a run can reach, a
secret can be revoked from a recipient other than the supergroup exactly if it is there with a wrap
for the recipient.  Then all these wraps are counted and gone, all others are left as they are and
in their order, and there is nothing for a second revocation.  If there was none, one revocation
undoes any number of grants, as long as the numbers of wraps are not used up.  A name that is not
accepted, such as any with a NUL, is refused as such. -/
theorem revocation_exact (cs : List Command) (secret : String) {r : Recipient}
    (hr : r ≠ .group superGroup) :
    let l := (run Ledger.execute .empty cs).2
    ((∃ a l', l.execute (.revoke secret r) = .ok (a, l')) ↔
        has l.secrets secret = true ∧ l.wrapsFor secret r ≠ []) ∧
      (∀ a l', l.execute (.revoke secret r) = .ok (a, l') →
        a = .removed (l.wrapsFor secret r).length ∧
          l' = { l with wraps := l.otherWraps secret r } ∧ l'.wrapsFor secret r = [] ∧
          l'.execute (.revoke secret r) = .error (.notFound (.wrap secret r))) ∧
      (∀ gs : List (Moment × Bytes × Option String), l.wrapsFor secret r = [] → gs ≠ [] →
        wrapsMade (run Ledger.execute .empty cs).1 + gs.length < 2 ^ 64 - 1 →
        let granted := run Ledger.execute l (gs.map fun g => .grant g.1 secret g.2.1 g.2.2 r)
        (∀ e ∈ granted.1, e.Succeeds) →
        ∃ l', granted.2.execute (.revoke secret r) = .ok (.removed gs.length, l') ∧
          l'.principals = l.principals ∧ l'.groups = l.groups ∧ l'.secrets = l.secrets ∧
          l'.wraps = l.wraps) ∧
      (∀ e, checkName "secret" secret = .error e →
        e.kind = .invalidInput ∧ attempt Ledger.execute l (.revoke secret r) = (.error e, l)) ∧
      (Char.ofNat 0 ∈ secret.toList → ∃ e, checkName "secret" secret = .error e) := by
  intro l
  have h : l.Intact := intact_run .empty cs
  have hrevoke : ∀ t : Ledger, t.execute (.revoke secret r) = counted (t.revoke secret r) :=
    fun t => execute_revoke hr
  refine ⟨⟨?_, ?_⟩, ?_, ?_, ?_, exists_checkName_eq_error "secret"⟩
  · rintro ⟨a, l', hok⟩
    obtain ⟨hthere, hsome, -⟩ := h.of_execute_revoke hr hok
    exact ⟨hthere, hsome⟩
  · rintro ⟨hthere, hsome⟩
    rw [hrevoke, h.revoke_eq hthere, if_neg hsome]
    exact ⟨_, _, rfl⟩
  · intro a l' hok
    have h' := h.execute hok
    obtain ⟨hthere, -, ha, rfl⟩ := h.of_execute_revoke hr hok
    have hnone := wrapsFor_of_otherWraps l secret r
    refine ⟨ha, rfl, hnone, ?_⟩
    rw [hrevoke, h'.revoke_eq hthere, if_pos hnone]
    rfl
  · intro gs hnone hsome hmade granted hok
    obtain ⟨-, hrep⟩ : _ ∧ Represents l (run PlainLedger.execute .empty cs).2 _ :=
      Represents.of_run rfl rfl (by omega)
    have hgranted : Granted secret r gs.length l granted.2 := granted_run hrep (by omega) hok
    have hundo := hgranted.undo (intact_run h _) (has_of_granted_run hsome hok) hnone
      fun hlength => hsome (List.eq_nil_of_length_eq_zero hlength)
    refine ⟨{ granted.2 with wraps := l.wraps }, ?_, hgranted.principals, hgranted.groups,
      hgranted.secrets, rfl⟩
    rw [hrevoke, hundo]
    rfl
  · intro e he
    refine ⟨kind_of_checkName he, attempt_of_error ?_⟩
    rw [hrevoke, revoke_of_checkName he]
    rfl

open Ledger in
/-- Two wraps go in one revocation, and then two new ones. -/
theorem revocation_exact_sampleRun :
    let ann : Recipient := .principal "ann"
    let l := (run Ledger.execute .empty (sampleRun.take 4)).2
    let revoked := (run Ledger.execute .empty (sampleRun.take 5)).2
    let granted := run Ledger.execute revoked
      [.grant leapDay "db" [7] none ann, .grant leapDay "db" [8] none ann]
    (∃ l', l.execute (.revoke "db" ann) = .ok (.removed 2, l') ∧
        l'.execute (.revoke "db" ann) = .error (.notFound (.wrap "db" ann))) ∧
      ∃ l', granted.2.execute (.revoke "db" ann) = .ok (.removed 2, l') ∧
        l'.wraps = revoked.wraps := by
  intro ann l revoked granted
  have hann : ann ≠ .group superGroup := by decide
  have htwo : has l.secrets "db" = true ∧ (l.wrapsFor "db" ann).length = 2 := by decide +kernel
  have hsome : l.wrapsFor "db" ann ≠ [] := fun hnil => by
    rw [hnil] at htwo
    exact absurd htwo.2 (by decide)
  obtain ⟨hsucceeds, hgone, -⟩ := revocation_exact (sampleRun.take 4) "db" hann
  obtain ⟨a, l', hok⟩ := hsucceeds.2 ⟨htwo.1, hsome⟩
  obtain ⟨ha, -, -, hagain⟩ := hgone a l' hok
  rw [htwo.2] at ha
  refine ⟨⟨l', ha ▸ hok, hagain⟩, ?_⟩
  have hstart : revoked.wrapsFor "db" ann = [] ∧
      wrapsMade (run Ledger.execute .empty (sampleRun.take 5)).1 = 3 ∧
      (granted.1.all fun e => e.reply.isOk) = true := by decide +kernel
  obtain ⟨l', hundo, -, -, -, hwraps⟩ := (revocation_exact (sampleRun.take 5) "db" hann).2.2.1
    [(leapDay, [7], none), (leapDay, [8], none)] hstart.1 (by decide)
    (by rw [hstart.2.1]; decide) fun e he => by
      have hreply := List.all_eq_true.1 hstart.2.2 e he
      cases hcase : e.reply with
      | ok a => exact ⟨a, hcase⟩
      | error e =>
        rw [hcase] at hreply
        cases hreply
  exact ⟨l', hundo, hwraps⟩

end Strongroom
