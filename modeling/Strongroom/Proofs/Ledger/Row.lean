import Strongroom.Ledger.Basic
import Strongroom.Proofs.Json.Object
import Strongroom.Proofs.Text.Timestamp

/-!
# Stored rows are read back

The ledger keeps its rows as the bytes that were written and reads them again at every use.  A row
that the ledger has written itself is always read back as what was written, so on such rows no
operation fails with a corrupt row.  The one condition is that the moment in the row is a moment of
the calendar (`Timestamp.IsValid`), which every clock gives.  It holds of every row that can be
read, whoever has written it (`Principal.isValid_of_decode`), so writing a record again that was
read once is safe too.
-/

namespace Strongroom

open Json (Reads Fills member reads_text reads_bytes reads_bool reads_mandatory reads_optional
  reads_some preserves_mandatory preserves_optional)

/-! ### Parts of rows -/

theorem Timestamp.reads_toJson {t : Timestamp} (h : t.IsValid) :
    Reads Timestamp.read t.toJson t := by
  refine ⟨Json.starts_text t.render, fun rest _ => ?_⟩
  rw [Timestamp.read, Timestamp.toJson, Json.readText_text]
  simp only [Timestamp.ofString?_render h]

theorem Role.reads_toJson (r : Role) : Reads Role.read r.toJson r :=
  Json.reads_readName (Role.ofName?_name r)

namespace Recipient

/-- The name of a recipient. -/
def name : Recipient → String
  | principal name => name
  | group name => name

/-- The type of a recipient. -/
def type : Recipient → String
  | principal _ => "principal"
  | group _ => "group"

theorem toJson_eq (r : Recipient) :
    r.toJson = Json.object [("type", Json.text r.type), ("name", Json.text r.name)] := by
  cases r <;> rfl

theorem ofType?_type (r : Recipient) : ∃ make, ofType? r.type = some make ∧ make r.name = r := by
  cases r with
  | principal name => exact ⟨principal, rfl, rfl⟩
  | group name => exact ⟨group, rfl, rfl⟩

theorem part_type (v rest : Bytes) :
    part true (member ("type", v) ++ rest) = .ok (some .type, Json.ascii ':' :: (v ++ rest)) := by
  show nextPart _ true _ = _
  have hnext := Json.nextMember_first ("type", v) rest
  generalize member ("type", v) ++ rest = bs at hnext
  cases bs with
  | nil => simp [Json.nextMember, Json.skipBlanks] at hnext
  | cons b bs =>
    rw [nextPart, hnext]
    rfl

theorem part_name (v rest : Bytes) :
    part false (Json.ascii ',' :: (member ("name", v) ++ rest)) =
      .ok (some .name, Json.ascii ':' :: (v ++ rest)) := by
  show nextPart (Json.ascii ',' :: (member ("name", v) ++ rest)) false _ = _
  rw [nextPart, Json.nextMember_more]
  rfl

theorem readTypeFirst_written (r : Recipient) (rest : Bytes) :
    readTypeFirst (Json.ascii ':' :: (Json.text r.type ++ Json.ascii ',' ::
      (member ("name", Json.text r.name) ++ Json.ascii '\x7d' :: rest))) = .ok (r, rest) := by
  obtain ⟨make, hmake, hr⟩ := r.ofType?_type
  have htype := (Json.reads_readName hmake).reads (Json.ascii ',' ::
      (member ("name", Json.text r.name) ++ Json.ascii '\x7d' :: rest))
    (Json.stops_cons (by decide) _)
  simp only [readTypeFirst, Json.colon_cons, htype, part_name, Json.readText_text, bind,
    Except.bind, hr]
  rfl

theorem reads_toJson (room : Nat) (r : Recipient) : Reads (read room) r.toJson r := by
  rw [toJson_eq]
  refine ⟨⟨_, _, rfl, by decide, by decide⟩, fun rest _ => ?_⟩
  rw [Json.object_append, read, Json.skipBlanks_cons (by decide)]
  simp only [if_true, List.map_cons, Json.separated_cons, List.map_nil, List.flatMap_cons,
    List.flatMap_nil, List.append_nil, List.append_assoc, List.cons_append]
  rw [part_type]
  exact readTypeFirst_written r rest

end Recipient

/-! ### Rows -/

namespace Ledger

theorem decode_of_reads {α : Type} {layout : Json.Layout α} {row : Bytes} {a : α}
    (h : Reads layout.read row a) : decode layout row = .ok a := by
  rw [decode, Json.readAll_of_reads h]

end Ledger

theorem head_text (s : String) : (Json.text s).head? ≠ some (Json.ascii 'n') := by
  rw [Json.text, List.cons_append, List.head?_cons]
  decide

theorem head_bytes (b : Bytes) : (Json.bytes b).head? ≠ some (Json.ascii 'n') := by
  rw [Json.bytes, Json.list, List.cons_append, List.head?_cons]
  decide

/-- **The row of a principal is read back.** -/
theorem Principal.decode_toJson {p : Principal} (h : p.createdAt.IsValid) :
    Ledger.decode Principal.layout p.toJson = .ok p := by
  obtain ⟨name, kind, publicKey, group, sealedGroupKey, passwordHash, createdAt⟩ := p
  refine Ledger.decode_of_reads (Json.Layout.reads_object ?_)
  cases sealedGroupKey with
  | none =>
    exact .field rfl rfl (reads_mandatory (reads_text name)) <|
      .field rfl rfl (reads_mandatory (Role.reads_toJson kind)) <|
      .field rfl rfl (reads_mandatory (reads_bytes publicKey)) <|
      .field rfl rfl (reads_mandatory (reads_text group)) <|
      .field rfl rfl (reads_mandatory (reads_bytes passwordHash)) <|
      .field rfl rfl (reads_mandatory (Timestamp.reads_toJson h)) <| .done rfl
  | some key =>
    exact .field rfl rfl (reads_mandatory (reads_text name)) <|
      .field rfl rfl (reads_mandatory (Role.reads_toJson kind)) <|
      .field rfl rfl (reads_mandatory (reads_bytes publicKey)) <|
      .field rfl rfl (reads_mandatory (reads_text group)) <|
      .field rfl rfl (reads_optional (reads_some (reads_bytes key) (head_bytes key))) <|
      .field rfl rfl (reads_mandatory (reads_bytes passwordHash)) <|
      .field rfl rfl (reads_mandatory (Timestamp.reads_toJson h)) <| .done rfl

/-- **The row of a group is read back.** -/
theorem Group.decode_toJson {g : Group} (h : g.createdAt.IsValid) :
    Ledger.decode Group.layout g.toJson = .ok g := by
  refine Ledger.decode_of_reads (Json.Layout.reads_object ?_)
  exact .field rfl rfl (reads_mandatory (reads_text g.name)) <|
    .field rfl rfl (reads_mandatory (Role.reads_toJson g.kind)) <|
    .field rfl rfl (reads_mandatory (reads_bytes g.publicKey)) <|
    .field rfl rfl (reads_mandatory (reads_bytes g.sealedPrivateKey)) <|
    .field rfl rfl (reads_mandatory (reads_bool g.builtin)) <|
    .field rfl rfl (reads_mandatory (Timestamp.reads_toJson h)) <| .done rfl

/-- **The row of a secret is read back.** -/
theorem Secret.decode_toJson {s : Secret} (h : s.createdAt.IsValid) :
    Ledger.decode Secret.layout s.toJson = .ok s := by
  refine Ledger.decode_of_reads (Json.Layout.reads_object ?_)
  exact .field rfl rfl (reads_mandatory (reads_text s.name)) <|
    .field rfl rfl (reads_mandatory (reads_bytes s.payload)) <|
    .field rfl rfl (reads_mandatory (reads_text s.createdBy)) <|
    .field rfl rfl (reads_mandatory (Timestamp.reads_toJson h)) <| .done rfl

/-- **The row of a wrap is read back.** -/
theorem Wrap.decode_toJson {w : Wrap} (h : w.createdAt.IsValid) :
    Ledger.decode Wrap.layout w.toJson = .ok w := by
  obtain ⟨secret, recipient, sealedKey, path, createdAt⟩ := w
  refine Ledger.decode_of_reads (Json.Layout.reads_object ?_)
  cases path with
  | none =>
    exact .field rfl rfl (reads_mandatory (reads_text secret)) <|
      .field rfl rfl (reads_mandatory (Recipient.reads_toJson _ recipient)) <|
      .field rfl rfl (reads_mandatory (reads_bytes sealedKey)) <|
      .field rfl rfl (reads_mandatory (Timestamp.reads_toJson h)) <| .done rfl
  | some path =>
    exact .field rfl rfl (reads_mandatory (reads_text secret)) <|
      .field rfl rfl (reads_mandatory (Recipient.reads_toJson _ recipient)) <|
      .field rfl rfl (reads_mandatory (reads_bytes sealedKey)) <|
      .field rfl rfl (reads_optional (reads_some (reads_text path) (head_text path))) <|
      .field rfl rfl (reads_mandatory (Timestamp.reads_toJson h)) <| .done rfl

/-! ### Moments in rows -/

theorem Timestamp.isValid_of_read {bs rest : Bytes} {t : Timestamp}
    (h : Timestamp.read bs = .ok (t, rest)) : t.IsValid := by
  rw [Timestamp.read] at h
  split at h
  · cases h
  · split at h
    · next hs =>
      cases h
      exact Timestamp.isValid_of_ofString? hs
    · cases h

theorem Ledger.of_decode_eq_ok {α : Type} {layout : Json.Layout α} {P : α → Prop} {row : Bytes}
    {a : α} (hfields : ∀ f ∈ layout.fields, f.Preserves P) (hblank : P layout.blank)
    (h : Ledger.decode layout row = .ok a) : P a := by
  rw [decode, Json.readAll] at h
  cases hread : layout.read row with
  | error e =>
    rw [hread] at h
    cases h
  | ok x =>
    obtain ⟨b, rest⟩ := x
    have hb : P b := Json.Layout.of_read_eq_ok hfields hblank hread
    simp only [hread, bind, Except.bind] at h
    by_cases hend : (Json.skipBlanks rest).isEmpty = true
    · rw [if_pos hend] at h
      cases h
      exact hb
    · rw [if_neg hend] at h
      cases h

/-- **A principal that is read was registered at a moment of the calendar**, whoever has written its
row. -/
theorem Principal.isValid_of_decode {row : Bytes} {p : Principal}
    (h : Ledger.decode Principal.layout row = .ok p) : p.createdAt.IsValid := by
  refine Ledger.of_decode_eq_ok (P := fun p => p.createdAt.IsValid) ?_ (by decide) h
  simp only [layout, List.forall_mem_cons]
  -- only the last field touches the moment
  refine ⟨preserves_mandatory ?_, preserves_mandatory ?_, preserves_mandatory ?_,
    preserves_mandatory ?_, preserves_optional ?_, preserves_mandatory ?_,
    preserves_mandatory fun _ _ _ ht _ _ => Timestamp.isValid_of_read ht, by simp⟩
  all_goals exact fun _ _ _ _ _ hp => hp

end Strongroom
