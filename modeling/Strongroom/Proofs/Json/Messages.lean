import Strongroom.Message
import Strongroom.Proofs.Json.Object

/-!
# Messages are read back

Every form of messages is written as it is read (`Json.Reads`): logins, key material, profiles,
plain texts and listings.  A profile leaves an empty password out, and reading gives an empty one
for it.

The body of a reply is a row of messages, one directly behind the other and with nothing between
them.  A message is an object, so it has an end of its own, and whoever reads the body message by
message gets those that were written,

    Message.readBody read (Message.body (xs.map write)) = .ok xs.
-/

namespace Strongroom.Message

open Json (Reads Fills Stops reads_text reads_bool reads_list reads_optional stops_nil stops_cons)

variable {α : Type}

/-- Reads messages up to the end, one in each round; the body itself is long enough as a bound. -/
def readBodyWithin (read : Bytes → Json.Read α) :
    (bound : Bytes) → Bytes → Except Json.Cause (List α)
  | _, [] => .ok []
  | [], _ :: _ => .error .truncated
  | _ :: bound, b :: bs => do
    let (a, rest) ← read (b :: bs)
    (readBodyWithin read bound rest).map (a :: ·)

/-- The messages in the body of a reply. -/
def readBody (read : Bytes → Json.Read α) (bs : Bytes) : Except Json.Cause (List α) :=
  readBodyWithin read bs bs

theorem body_cons (message : Bytes) (messages : List Bytes) :
    body (message :: messages) = message ++ body messages :=
  List.flatten_cons

variable {β : Type} {read : Bytes → Json.Read α} {write : β → Bytes} {value : β → α}

/-- A message does not continue a number in front of it if it starts with a brace. -/
theorem stops_body (hbrace : ∀ b, ∃ bs, write b = Json.ascii '\x7b' :: bs) (xs : List β) :
    Stops (body (xs.map write)) := by
  cases xs with
  | nil => exact stops_nil
  | cons x xs =>
    obtain ⟨bs, hx⟩ := hbrace x
    rw [List.map_cons, body_cons, hx]
    exact stops_cons (by decide) _

theorem readBodyWithin_body (hreads : ∀ b, Reads read (write b) (value b))
    (hbrace : ∀ b, ∃ bs, write b = Json.ascii '\x7b' :: bs) (xs : List β) :
    ∀ bound : Bytes, (body (xs.map write)).length ≤ bound.length →
      readBodyWithin read bound (body (xs.map write)) = .ok (xs.map value) := by
  induction xs with
  | nil =>
    intro bound _
    cases bound <;> rfl
  | cons x xs ih =>
    intro bound hbound
    have hread := (hreads x).reads _ (stops_body hbrace xs)
    obtain ⟨bs, hx⟩ := hbrace x
    rw [List.map_cons, body_cons] at hbound ⊢
    rw [hx] at hbound hread ⊢
    cases bound with
    | nil => simp at hbound
    | cons y bound =>
      have hrest : (body (xs.map write)).length ≤ bound.length := by
        rw [List.length_append, List.length_cons, List.length_cons] at hbound
        omega
      rw [List.cons_append] at hread ⊢
      rw [readBodyWithin, hread]
      show (readBodyWithin read bound (body (xs.map write))).map (value x :: ·) = _
      rw [ih bound hrest]
      rfl

/-- A body is read, message by message, as what a reader makes of each of its messages. -/
theorem readBody_body_map (hreads : ∀ b, Reads read (write b) (value b))
    (hbrace : ∀ b, ∃ bs, write b = Json.ascii '\x7b' :: bs) (xs : List β) :
    readBody read (body (xs.map write)) = .ok (xs.map value) :=
  readBodyWithin_body hreads hbrace xs _ (Nat.le_refl _)

/-- **The body of a reply is read back** as the messages that it was made of. -/
theorem readBody_body {write : α → Bytes} (hreads : ∀ a, Reads read (write a) a)
    (hbrace : ∀ a, ∃ bs, write a = Json.ascii '\x7b' :: bs) (xs : List α) :
    readBody read (body (xs.map write)) = .ok xs := by
  have h := readBody_body_map hreads hbrace xs
  rwa [List.map_id'] at h

namespace Key

/-- **Key material is read back as it was written**, whatever characters it has. -/
theorem reads_toJson (k : Key) : Reads layout.read k.toJson k :=
  Json.Layout.reads_object <|
    .field rfl rfl (reads_optional (reads_text k.name)) <|
    .field rfl rfl (reads_optional (reads_text k.secret)) <|
    .field rfl rfl (reads_optional (reads_text k.key)) <|
    .field rfl rfl (reads_optional (reads_text k.userKey)) <|
    .field rfl rfl (reads_optional (reads_text k.groupPub)) <|
    .field rfl rfl (reads_optional (reads_text k.groupPriv)) <|
    .field rfl rfl (reads_optional (reads_text k.path)) <|
    .done rfl

theorem readBody_body (ks : List Key) :
    readBody layout.read (body (ks.map (·.toJson))) = .ok ks :=
  Message.readBody_body reads_toJson (fun _ => ⟨_, rfl⟩) ks

end Key

/-- **A login is read back as it was written.** -/
theorem Auth.reads_toJson (a : Auth) : Reads layout.read a.toJson a :=
  Json.Layout.reads_object <|
    .field rfl rfl (reads_optional (reads_text a.name)) <|
    .field rfl rfl (reads_optional (reads_text a.password)) <|
    .done rfl

/-- **A profile is read back as it was written**, with a password or without. -/
theorem User.reads_toJson (u : User) : Reads layout.read u.toJson u := by
  obtain ⟨name, admin, group, password, key⟩ := u
  refine Json.Layout.reads_object ?_
  by_cases hpassword : password = ""
  · subst hpassword
    exact .field rfl rfl (reads_optional (reads_text name)) <|
      .field rfl rfl (reads_optional (reads_bool admin)) <|
      .field rfl rfl (reads_optional (reads_text group)) <|
      .field rfl rfl (reads_optional (reads_text key)) <|
      .done rfl
  · rw [if_neg (by simpa using hpassword)]
    exact .field rfl rfl (reads_optional (reads_text name)) <|
      .field rfl rfl (reads_optional (reads_bool admin)) <|
      .field rfl rfl (reads_optional (reads_text group)) <|
      .field rfl rfl (reads_optional (reads_text password)) <|
      .field rfl rfl (reads_optional (reads_text key)) <|
      .done rfl

/-- **A plain text is read back as it was written.** -/
theorem Response.reads_toJson (r : Response) : Reads layout.read r.toJson r :=
  Json.Layout.reads_object <| .field rfl rfl (reads_optional (reads_text r.string)) <| .done rfl

/-- A list of texts is read back as it was written. -/
theorem reads_texts (ss : List String) :
    Reads (Json.readList Json.readText) (Json.list (ss.map Json.text)) ss := by
  have h : Reads (Json.readList Json.readText) (Json.list (ss.map Json.text)) (ss.map id) :=
    reads_list fun s _ => reads_text s
  rwa [List.map_id] at h

/-- **A listing is read back as it was written.** -/
theorem Listing.reads_toJson (l : Listing) : Reads layout.read l.toJson l :=
  Json.Layout.reads_object <|
    .field rfl rfl (reads_optional (reads_text l.name)) <|
    .field rfl rfl (reads_optional (reads_text l.createdBy)) <|
    .field rfl rfl (reads_optional (reads_texts l.groups)) <|
    .field rfl rfl (reads_optional (reads_texts l.users)) <|
    .done rfl

end Strongroom.Message
