import Strongroom.Proofs.Json.Messages
import Strongroom.Proofs.Ledger.Accessible

/-!
# Nothing that was written is corrupt

A row that cannot be read makes the operation fail that meets it, and only such a row gives the
error `corruptRow`.  An intact ledger has none: whatever the operations ask of its tables, each row,
all rows and the wraps of a secret can be read.  So on an intact ledger no command fails with a
corrupt row (`Intact.execute_uncorrupted`), and since every command leaves the ledger intact, no
command of any run does.

This rests on rows being read back as they were written, and messages are too.  Main statement:
records at any moment of the calendar, and messages of every form, are read back as they were
written, and no run meets a corrupt row (`written_is_read_back`).
-/

namespace Strongroom

namespace Ledger

/-! ### Outcomes without a corrupt row -/

/-- An outcome that is not the failure to read a row. -/
def Uncorrupted {α : Type} (r : Except Error α) : Prop := r ≠ .error .corruptRow

namespace Uncorrupted

variable {α β : Type} {x : Except Error α}

theorem ok (a : α) : Uncorrupted (.ok a : Except Error α) := nofun

theorem notFound (subject : Subject) :
    Uncorrupted (.error (.notFound subject) : Except Error α) := by
  intro heq
  cases heq

theorem of_exists (h : ∃ a, x = .ok a) : Uncorrupted x := by
  obtain ⟨a, rfl⟩ := h
  exact .ok a

/-- An error goes on as an error of whatever would have come. -/
theorem error {e : Error} (h : Uncorrupted (.error e : Except Error α)) :
    Uncorrupted (.error e : Except Error β) :=
  fun heq => h (congrArg Except.error (Except.error.inj heq))

theorem bind {f : α → Except Error β} (hx : Uncorrupted x)
    (hf : ∀ a, x = .ok a → Uncorrupted (f a)) : Uncorrupted (x >>= f) := by
  cases x with
  | ok a => exact hf a rfl
  | error e => exact hx.error

theorem map {f : α → β} (hx : Uncorrupted x) : Uncorrupted (x.map f) := by
  cases x with
  | ok a => exact .ok _
  | error e => exact hx.error

theorem require {c : Bool} {e : Error} (h : e ≠ .corruptRow) :
    Uncorrupted (require c e) := by
  rw [Ledger.require]
  split
  · exact .ok _
  · exact fun heq => h (Except.error.inj heq)

theorem checkName (what name : String) : Uncorrupted (checkName what name) :=
  .bind (.require nofun) fun _ _ => .require nofun

theorem checkPublicKey (what : String) (key : Bytes) : Uncorrupted (checkPublicKey what key) :=
  .require nofun

end Uncorrupted

/-! ### Reading sound tables -/

namespace SoundRows

variable {α : Type} {layout : Json.Layout α} {fits : Bytes → α → Prop} {t : Table Bytes Bytes}

theorem uncorrupted_row (h : SoundRows layout fits t) (name : String) (subject : Subject) :
    Uncorrupted (row layout t name subject) := by
  rw [row, h.row?_eq]
  cases record? layout t name with
  | none => exact .notFound subject
  | some a => exact .ok a

end SoundRows

/-! ### Commands -/

/-- A grant reads no row. -/
theorem uncorrupted_grant (l : Ledger) (now : Timestamp) (secret : String) (r : Recipient)
    (sealedKey : Bytes) (path : Option String) :
    Uncorrupted (l.grant now secret r sealedKey path) :=
  .bind (.require nofun) fun _ _ => .bind (.require nofun) fun _ _ =>
    .bind (.require nofun) fun _ _ => .ok _

theorem uncorrupted_createSecret (l : Ledger) (now : Timestamp) (caller : Identity)
    (new : NewSecret) : Uncorrupted (l.createSecret now caller new) := by
  refine .bind (.checkName _ _) fun _ _ => .bind (.require nofun) fun _ _ =>
    .bind (.require nofun) fun _ _ => .bind (.require nofun) fun _ _ =>
    .bind (.require nofun) fun _ _ => .bind (.require nofun) fun _ _ => ?_
  cases given new.creatorKey with
  | none => exact .ok _
  | some key => exact .ok _

theorem uncorrupted_bootstrap (l : Ledger) (now : Timestamp) (setup : Bootstrap) :
    Uncorrupted (l.bootstrap now setup) := by
  refine .bind (.checkPublicKey _ _) fun _ _ => .bind (.require nofun) fun _ _ => ?_
  cases setup.admin with
  | none => exact .ok _
  | some admin =>
    exact .bind (.checkName _ _) fun _ _ => .bind (.checkPublicKey _ _) fun _ _ => .ok _

theorem uncorrupted_registerPrincipal (l : Ledger) (now : Timestamp) (new : NewPrincipal) :
    Uncorrupted (l.registerPrincipal now new) :=
  .bind (.checkName _ _) fun _ _ => .bind (.checkPublicKey _ _) fun _ _ =>
    .bind (.require nofun) fun _ _ => .bind (.require nofun) fun _ _ => .ok _

theorem uncorrupted_createGroup (l : Ledger) (now : Timestamp) (name : String) (kind : Role)
    (publicKey sealedPrivateKey : Bytes) :
    Uncorrupted (l.createGroup now name kind publicKey sealedPrivateKey) :=
  .bind (.checkName _ _) fun _ _ => .bind (.checkPublicKey _ _) fun _ _ =>
    .bind (.require nofun) fun _ _ => .bind (.require nofun) fun _ _ => .ok _

namespace Intact

variable {l : Ledger}

theorem uncorrupted_removeWraps (h : l.Intact) (secret : Option String) (remove : Wrap → Bool) :
    Uncorrupted (l.removeWraps secret remove) :=
  .bind (.of_exists (exists_scanWraps h.wraps secret)) fun _ _ => .ok _

theorem uncorrupted_revoke (h : l.Intact) (secret : String) (r : Recipient) :
    Uncorrupted (l.revoke secret r) :=
  .bind (.checkName _ _) fun _ _ => .bind (.require nofun) fun _ _ =>
    .bind (h.uncorrupted_removeWraps _ _) fun _ _ => .bind (.require nofun) fun _ _ => .ok _

theorem uncorrupted_deleteSecret (h : l.Intact) (name : String) :
    Uncorrupted (l.deleteSecret name) :=
  .bind (.require nofun) fun _ _ => .bind (.require nofun) fun _ _ =>
    .bind (h.uncorrupted_removeWraps _ _) fun _ _ => .ok _

theorem uncorrupted_deletePrincipal (h : l.Intact) (name : String) :
    Uncorrupted (l.deletePrincipal name) := by
  have herased : Intact { l with principals := l.principals.erase (utf8 name) } :=
    { h with principals := h.principals.erase _ }
  exact .bind (.require nofun) fun _ _ =>
    .bind (herased.uncorrupted_removeWraps _ _) fun _ _ => .ok _

/-- The wraps are scanned when the group is gone, and the principals when the wraps are. -/
theorem uncorrupted_deleteGroup (h : l.Intact) (name : String) :
    Uncorrupted (l.deleteGroup name) := by
  refine .bind (.require nofun) fun _ _ => .bind (.require nofun) fun _ _ => .bind ?_ ?_
  · exact .bind (.of_exists (exists_scanWraps (l := { l with groups := _ }) h.wraps none))
      fun _ _ => .ok _
  · rintro ⟨n, l'⟩ hremove
    obtain ⟨t, rfl⟩ := of_removeWraps_eq_ok hremove
    exact .bind (.of_exists h.principals.exists_all) fun _ _ => .ok _

theorem uncorrupted_reassignPrincipal (h : l.Intact) (principal group : String)
    (sealedGroupKey : Option Bytes) :
    Uncorrupted (l.reassignPrincipal principal group sealedGroupKey) :=
  .bind (.require nofun) fun _ _ => .bind (.require nofun) fun _ _ =>
    .bind (h.principals.uncorrupted_row _ _) fun _ _ => .ok _

theorem uncorrupted_getPrincipal (h : l.Intact) (name : String) :
    Uncorrupted (l.getPrincipal name) :=
  h.principals.uncorrupted_row _ _

theorem uncorrupted_lookup (h : l.Intact) (name : String) : Uncorrupted (l.lookup name) := by
  have hget := h.uncorrupted_getPrincipal name
  rw [lookup]
  split
  · exact .ok _
  · exact .ok _
  · next e _ heq =>
    rw [heq] at hget
    exact hget.error

theorem uncorrupted_accessible (h : l.Intact) (name : String) (secret : Option String) :
    Uncorrupted (l.accessible name secret) := by
  cases hp : l.getPrincipal name with
  | error e =>
    have hget := h.uncorrupted_getPrincipal name
    rw [hp] at hget
    rw [getPrincipal] at hp
    rw [accessible, hp]
    exact hget.error
  | ok p =>
    by_cases hthere : ∀ s ∈ secret, has l.secrets s = true
    · obtain ⟨ws, hws⟩ := exists_scanWraps h.wraps secret
      exact .of_exists ⟨_, h.accessible_eq_ok hp hthere hws⟩
    · obtain ⟨s, rfl, hfree⟩ : ∃ s, secret = some s ∧ has l.secrets s = false := by
        cases secret with
        | none => exact absurd (fun s hs => absurd hs (Option.not_mem_none s)) hthere
        | some s => exact ⟨s, rfl, by simpa using hthere⟩
      have hmissing := fetchSecret_eq_error hp hfree
      rw [fetchSecret] at hmissing
      rw [hmissing]
      exact .notFound (.secret s)

theorem uncorrupted_canRead (h : l.Intact) (principal secret : String) :
    Uncorrupted (l.canRead principal secret) := by
  have hfetch : Uncorrupted (l.fetchSecret principal secret) :=
    h.uncorrupted_accessible principal (some secret)
  rw [canRead]
  split
  · exact .ok _
  · exact .ok _
  · next e _ heq =>
    rw [heq] at hfetch
    exact hfetch.error

theorem uncorrupted_listSecrets (h : l.Intact) : Uncorrupted l.listSecrets := by
  refine .bind (.of_exists h.secrets.exists_all) fun ss _ =>
    .of_exists (exists_mapM_eq_ok fun s _ => ?_)
  obtain ⟨ws, hws⟩ := exists_scanWraps h.wraps (some s.name)
  rw [hws]
  exact ⟨_, rfl⟩

/-- **No command fails with a corrupt row on an intact ledger.** -/
theorem execute_uncorrupted (h : l.Intact) (c : Command) : Uncorrupted (l.execute c) := by
  cases c with
  | bootstrap now setup => exact (l.uncorrupted_bootstrap now.1 setup).map
  | registerPrincipal now new => exact (l.uncorrupted_registerPrincipal now.1 new).map
  | createGroup now name kind publicKey sealedPrivateKey =>
    exact (l.uncorrupted_createGroup now.1 name kind publicKey sealedPrivateKey).map
  | deleteGroup name => exact (h.uncorrupted_deleteGroup name).map
  | createSecret now caller new => exact (l.uncorrupted_createSecret now.1 caller new).map
  | assignToGroup now secret group sealedKey path =>
    exact .map <| .bind (.require nofun) fun _ _ =>
      l.uncorrupted_grant now.1 secret (.group group) sealedKey path
  | assignToPrincipal now secret principal sealedKey path =>
    exact (l.uncorrupted_grant now.1 secret (.principal principal) sealedKey path).map
  | revokeFromGroup secret group =>
    exact .map <| .bind (.require nofun) fun _ _ => h.uncorrupted_revoke secret (.group group)
  | revokeFromPrincipal secret principal =>
    exact (h.uncorrupted_revoke secret (.principal principal)).map
  | deleteSecret name => exact (h.uncorrupted_deleteSecret name).map
  | reassignPrincipal principal group sealedGroupKey =>
    exact (h.uncorrupted_reassignPrincipal principal group sealedGroupKey).map
  | deletePrincipal name => exact (h.uncorrupted_deletePrincipal name).map
  | isInitialized => exact .map (.ok _)
  | getPrincipal name => exact (h.uncorrupted_getPrincipal name).map
  | lookup name => exact (h.uncorrupted_lookup name).map
  | getGroup name => exact (h.groups.uncorrupted_row _ _).map
  | listGroups => exact .map (.of_exists h.groups.exists_all)
  | fetchAccessible principal => exact (h.uncorrupted_accessible principal none).map
  | fetchSecret principal secret => exact (h.uncorrupted_accessible principal (some secret)).map
  | canRead principal secret => exact (h.uncorrupted_canRead principal secret).map
  | listSecrets => exact h.uncorrupted_listSecrets.map

end Intact

/-- **No command of a run meets a corrupt row** if the run starts with an intact ledger. -/
theorem Intact.run_uncorrupted {l : Ledger} (h : l.Intact) (cs : List Command) :
    ∀ e ∈ (run Ledger.execute l cs).1, Uncorrupted e.reply := by
  induction cs generalizing l with
  | nil =>
    intro e he
    cases he
  | cons c cs ih =>
    have hreply : Uncorrupted (attempt Ledger.execute l c).1 := by
      have hexecute := h.execute_uncorrupted c
      rw [attempt]
      cases hc : l.execute c with
      | ok x => exact .ok _
      | error e =>
        rw [hc] at hexecute
        exact hexecute.error
    rw [run_cons]
    exact List.forall_mem_cons.2 ⟨hreply, ih (intact_run h [c])⟩

end Ledger

/-! ### Everything that is written -/

/-- A form of messages is read back as it was written; so what has been read is read again once it
has been written again. -/
def Message.IsReadBack {α : Type} (layout : Json.Layout α) (write : α → Bytes) : Prop :=
  (∀ a, Json.readAll layout.read (write a) = .ok a) ∧
    ∀ text a, Json.readAll layout.read text = .ok a → Json.readAll layout.read (write a) = .ok a

theorem Message.isReadBack_of_reads {α : Type} {layout : Json.Layout α} {write : α → Bytes}
    (h : ∀ a, Json.Reads layout.read (write a) a) : IsReadBack layout write :=
  ⟨fun a => Json.readAll_of_reads (h a), fun _ a _ => Json.readAll_of_reads (h a)⟩

/-- **Everything that is written is read back.**  Principals, groups, secrets and wraps, made at any
moment of the calendar, are read back from their rows as they were written, and so are the messages
of every form from their texts.  Hence no command of a run from the empty ledger fails with a
corrupt row. -/
theorem written_is_read_back :
    (∀ p : Principal, p.createdAt.IsValid → Ledger.decode Principal.layout p.toJson = .ok p) ∧
    (∀ g : Group, g.createdAt.IsValid → Ledger.decode Group.layout g.toJson = .ok g) ∧
    (∀ s : Secret, s.createdAt.IsValid → Ledger.decode Secret.layout s.toJson = .ok s) ∧
    (∀ w : Wrap, w.createdAt.IsValid → Ledger.decode Wrap.layout w.toJson = .ok w) ∧
    Message.IsReadBack Message.Auth.layout Message.Auth.toJson ∧
    Message.IsReadBack Message.Key.layout Message.Key.toJson ∧
    Message.IsReadBack Message.User.layout Message.User.toJson ∧
    Message.IsReadBack Message.Response.layout Message.Response.toJson ∧
    Message.IsReadBack Message.Listing.layout Message.Listing.toJson ∧
    ∀ (cs : List Command), ∀ e ∈ (run Ledger.execute .empty cs).1,
      e.reply ≠ .error .corruptRow :=
  ⟨fun _ => Principal.decode_toJson, fun _ => Group.decode_toJson, fun _ => Secret.decode_toJson,
    fun _ => Wrap.decode_toJson, Message.isReadBack_of_reads Message.Auth.reads_toJson,
    Message.isReadBack_of_reads Message.Key.reads_toJson,
    Message.isReadBack_of_reads Message.User.reads_toJson,
    Message.isReadBack_of_reads Message.Response.reads_toJson,
    Message.isReadBack_of_reads Message.Listing.reads_toJson,
    fun cs => Ledger.Intact.empty.run_uncorrupted cs⟩

/-- Quotes, control characters, letters beyond ASCII and a fraction of a second in one row. -/
theorem written_is_read_back_sampleWrap :
    let moment : Timestamp := ⟨9999, 12, 31, 23, 59, 59, 1000⟩
    let wrap : Wrap := ⟨"\x01\"ключ", .group "a\\b\n", [0, 128, 255], some "😀", moment⟩
    moment.IsValid ∧ Ledger.decode Wrap.layout wrap.toJson = .ok wrap := by
  have hvalid : (⟨9999, 12, 31, 23, 59, 59, 1000⟩ : Timestamp).IsValid := by decide
  exact ⟨hvalid, written_is_read_back.2.2.2.1 _ hvalid⟩

end Strongroom
