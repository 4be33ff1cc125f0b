import Strongroom.Http.Reply
import Strongroom.Proofs.Json.Messages
import Strongroom.Proofs.Json.Skipped

/-!
# Bodies are uniquely decodable

A body has no count in front of its messages and nothing between them.  Where a message ends is left
to the grammar of JSON, and messages hold texts of clients, who write into them what they like.  It
still has one reading only (`bodies_uniquely_decodable`).

The reason is that a message is a prefix code word.  Whoever skips it comes out behind its last
byte, with any bytes following, so of two messages in front of the same bytes both end at the same
place (`UniquelyDecodable.of_reads`),

    write x ++ rest = write y ++ rest'   →   x = y ∧ rest = rest'.
-/

namespace Strongroom.Http

open Json (Reads Skips Care piece skip skip_append reads_piece skips_text skips_texts skips_bool
  skips_object)
open Message (readBody)

variable {α : Type} {read : Bytes → Json.Read α} {write : α → Bytes}

/-- A row of these messages has one reading, for somebody who knows what they are and for somebody
who knows the grammar only. -/
structure UniquelyDecodable (read : Bytes → Json.Read α) (write : α → Bytes) : Prop where
  /-- The body is read back as the list that it was made of. -/
  readBack : ∀ xs : List α, readBody read (Reply.messages (xs.map write)).body = .ok xs
  /-- Cut into values, whatever they are, it falls into the messages that were written. -/
  pieces : ∀ care : Care, care.Enters 2 → ∀ xs : List α,
    readBody (piece care) (Reply.messages (xs.map write)).body = .ok (xs.map write)
  /-- A message ends where it was written to end, whatever stands behind it. -/
  ends : ∀ care : Care, care.Enters 2 → ∀ (x : α) (rest : Bytes),
    skip care (write x ++ rest) = .ok rest
  /-- No message starts with another one. -/
  prefixFree : ∀ (x y : α) (rest rest' : Bytes), write x ++ rest = write y ++ rest' →
    x = y ∧ rest = rest'
  /-- Two lists with the same body are the same. -/
  injective : ∀ xs ys : List α,
    (Reply.messages (xs.map write)).body = (Reply.messages (ys.map write)).body → xs = ys

theorem UniquelyDecodable.of_reads (hreads : ∀ a, Reads read (write a) a)
    (hbrace : ∀ a, ∃ bs, write a = Json.ascii '\x7b' :: bs)
    (hskips : ∀ care a, Skips care .value 2 (write a)) : UniquelyDecodable read write := by
  have hends : ∀ care : Care, care.Enters 2 → ∀ (x : α) (rest : Bytes),
      skip care (write x ++ rest) = .ok rest :=
    fun care henters x => skip_append (hskips care x) henters
  have hback : ∀ xs : List α, readBody read (Message.body (xs.map write)) = .ok xs :=
    Message.readBody_body hreads hbrace
  refine ⟨hback, ?_, hends, ?_, ?_⟩
  · intro care henters xs
    have hpiece : ∀ a, Reads (piece care) (write a) (write a) := by
      intro a
      exact reads_piece (hskips care a) henters (hreads a).starts
    exact Message.readBody_body_map hpiece hbrace xs
  · intro x y rest rest' heq
    -- both messages end where the grammar says that the first value ends
    have hrest : rest = rest' := by
      have h := hends .ignored trivial x rest
      rw [heq, hends .ignored trivial y rest'] at h
      exact (Except.ok.inj h).symm
    subst hrest
    have hwrite : [x].map write = [y].map write := by
      rw [List.map_singleton, List.map_singleton, List.append_cancel_right heq]
    have h := hback [x]
    rw [hwrite, hback [y]] at h
    exact ⟨(List.singleton_inj.1 (Except.ok.inj h)).symm, rfl⟩
  · intro xs ys heq
    have h := hback xs
    rw [show Message.body (xs.map write) = Message.body (ys.map write) from heq, hback ys] at h
    exact (Except.ok.inj h).symm

/-! ### The kinds of messages -/

theorem skips_key (care : Care) (k : Message.Key) : Skips care .value 2 k.toJson := by
  refine (skips_object ?_).mono (by decide : 1 ≤ 2)
  simp [skips_text]

theorem skips_user (care : Care) (u : Message.User) : Skips care .value 2 u.toJson := by
  refine (skips_object ?_).mono (by decide : 1 ≤ 2)
  by_cases hpassword : u.password = "" <;> simp [hpassword, skips_text, skips_bool]

theorem skips_response (care : Care) (r : Message.Response) : Skips care .value 2 r.toJson := by
  refine (skips_object ?_).mono (by decide : 1 ≤ 2)
  simp [skips_text]

theorem skips_listing (care : Care) (l : Message.Listing) : Skips care .value 2 l.toJson := by
  refine skips_object ?_
  simp [skips_texts, (skips_text care _).mono (by decide : 0 ≤ 1)]

/-- **The body of a reply has one reading only**, for key material, profiles, plain texts and
listings alike, whatever characters they hold. -/
theorem bodies_uniquely_decodable :
    UniquelyDecodable Message.Key.layout.read Message.Key.toJson ∧
      UniquelyDecodable Message.User.layout.read Message.User.toJson ∧
      UniquelyDecodable Message.Response.layout.read Message.Response.toJson ∧
      UniquelyDecodable Message.Listing.layout.read Message.Listing.toJson :=
  ⟨.of_reads Message.Key.reads_toJson (fun _ => ⟨_, rfl⟩) skips_key,
    .of_reads Message.User.reads_toJson (fun _ => ⟨_, rfl⟩) skips_user,
    .of_reads Message.Response.reads_toJson (fun _ => ⟨_, rfl⟩) skips_response,
    .of_reads Message.Listing.reads_toJson (fun _ => ⟨_, rfl⟩) skips_listing⟩

/-- One text that looks like the end of a message and the start of another. -/
example :
    readBody Message.Response.layout.read
        (Reply.messages [Message.Response.toJson ⟨"\"\x7d\x7b\"string\":\"\\"⟩]).body =
      .ok [⟨"\"\x7d\x7b\"string\":\"\\"⟩] := by
  decide +kernel

end Strongroom.Http
