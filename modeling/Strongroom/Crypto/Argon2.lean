import Strongroom.Crypto.Blake2b
import Strongroom.Crypto.Argon2Block

/-!
# Argon2id

The memory-hard password hash of RFC 9106 in version 0x13, restricted to one lane and to passwords
without secret or associated data. Memory is one lane of blocks, cut into four segments. Each pass
recomputes every block from its predecessor and from a reference block that lies in the part of the
lane already filled. In the first half of the first pass the reference is drawn from a counter and
so does not depend on the password; after that it is drawn from the predecessor.
-/

namespace Strongroom.Argon2

/-- The cost of a hash. -/
structure Cost where
  /-- Memory in KiB, that is in blocks. -/
  memory : Nat
  /-- The number of passes over the memory. -/
  passes : Nat
  /-- The length of the hash in bytes. -/
  length : Nat
  deriving DecidableEq

namespace Cost

/-- The blocks of a segment, a quarter of the lane. -/
def segment (cost : Cost) : Nat := cost.memory / 4

/-- The blocks of the lane: whole segments only. -/
def lane (cost : Cost) : Nat := 4 * cost.segment

end Cost

/-- The version of the hash that this is. -/
def version : Nat := 0x13

/-- The type code of Argon2id. -/
def typeCode : Nat := 2

/-- A byte string behind its length. -/
def measured (b : Bytes) : Bytes :=
  littleEndian 4 b.length ++ b

/-- The sixty-four bytes from which the first two blocks are made: a hash of all inputs. -/
def seed (cost : Cost) (password salt : Bytes) : Bytes :=
  Blake2b.hash 64 <| littleEndian 4 1 ++ littleEndian 4 cost.length ++ littleEndian 4 cost.memory ++
    littleEndian 4 cost.passes ++ littleEndian 4 version ++ littleEndian 4 typeCode ++
    measured password ++ measured salt ++ measured [] ++ measured []

/-- The output of a chain of hashes that starts from `link`, thirty-two bytes of each link, until
`length` bytes are left, at most sixty-four; these come from one last hash. -/
def chain (length : Nat) (link : Bytes) : Bytes :=
  if length ≤ 64 then Blake2b.hash length link
  else
    let next := Blake2b.hash 64 link
    next.take 32 ++ chain (length - 32) next

/-- The hash of variable length. -/
def hashLong (length : Nat) (b : Bytes) : Bytes :=
  chain length (littleEndian 4 length ++ b)

/-- The first two blocks of the lane. -/
def firstBlock (seed : Bytes) (i : Nat) : Block :=
  .ofBytes (hashLong 1024 (seed ++ littleEndian 4 i ++ littleEndian 4 0))

/-- The pseudorandom words number `128 * counter - 128` and after that pick the reference blocks of
a segment where they must not depend on the password. -/
def addressWords (cost : Cost) (pass segment counter : Nat) : List UInt64 :=
  let input : Block := { Block.zero with
    r0 := ⟨UInt64.ofNat pass, 0, UInt64.ofNat segment, UInt64.ofNat cost.lane,
      UInt64.ofNat cost.passes, UInt64.ofNat typeCode, UInt64.ofNat counter, 0, 0, 0, 0, 0, 0, 0, 0,
      0⟩ }
  ((Block.zero.compress (Block.zero.compress input))).words

/-- The position of the reference block for the block at `index` of a segment, drawn by the word
`random`. The candidates are the blocks filled most recently, without the predecessor itself; the
draw favours the late ones. -/
def reference (cost : Cost) (pass segment index : Nat) (random : UInt64) : Nat :=
  let candidates :=
    if pass = 0 then segment * cost.segment + index - 1
    else cost.lane - cost.segment + index - 1
  let first :=
    if pass = 0 ∨ segment = 3 then 0 else (segment + 1) * cost.segment
  let draw := random.toNat % UInt32.size
  let squared := draw * draw / UInt32.size
  let back := candidates * squared / UInt32.size
  (first + (candidates - 1 - back)) % cost.lane

/-- The block at `position` of the lane. -/
def blockAt (lane : Array Block) (position : Nat) : Block :=
  lane.getD position .zero

/-- Recomputes the block at `index` of a segment; `random` draws its reference. From the second pass
on the old block is added to the new one. -/
def fillBlock (cost : Cost) (pass segment index : Nat) (random : UInt64) (lane : Array Block) :
    Array Block :=
  let position := segment * cost.segment + index
  let previous := (position + cost.lane - 1) % cost.lane
  let new := (blockAt lane previous).compress
    (blockAt lane (reference cost pass segment index random))
  let new := if pass = 0 then new else new.xor (blockAt lane position)
  lane.setIfInBounds position new

/-- The first word of the predecessor, which draws the reference where it may depend on the
password. -/
def previousWord (cost : Cost) (segment index : Nat) (lane : Array Block) : UInt64 :=
  (blockAt lane ((segment * cost.segment + index + cost.lane - 1) % cost.lane)).r0.w0

/-- Fills `count` blocks of a segment from `index` on, drawing references from the predecessors. -/
def fillDependent (cost : Cost) (pass segment : Nat) :
    (count index : Nat) → Array Block → Array Block
  | 0, _, lane => lane
  | count + 1, index, lane =>
    let random := previousWord cost segment index lane
    fillDependent cost pass segment count (index + 1)
      (fillBlock cost pass segment index random lane)

/-- Fills `count` blocks of a segment from `index` on, drawing references from the words left of the
current run of address words and then from the runs after it. -/
def fillIndependent (cost : Cost) (pass segment : Nat) :
    (count index : Nat) → (words : List UInt64) → Array Block → Array Block
  | 0, _, _, lane => lane
  | count + 1, index, words, lane =>
    let words := if words.isEmpty then addressWords cost pass segment (index / 128 + 1) else words
    fillIndependent cost pass segment count (index + 1) words.tail
      (fillBlock cost pass segment index (words.headD 0) lane)

/-- Fills one segment. The first two blocks of the lane are given, so the first segment of the first
pass starts behind them. -/
def fillSegment (cost : Cost) (pass segment : Nat) (lane : Array Block) : Array Block :=
  let start := if pass = 0 ∧ segment = 0 then 2 else 0
  if pass = 0 ∧ segment < 2 then
    fillIndependent cost pass segment (cost.segment - start) start
      ((addressWords cost pass segment 1).drop start) lane
  else fillDependent cost pass segment (cost.segment - start) start lane

/-- Runs all passes over the lane. -/
def fill (cost : Cost) (lane : Array Block) : Array Block :=
  (List.range cost.passes).foldl (fun lane pass =>
    (List.range 4).foldl (fun lane segment => fillSegment cost pass segment lane) lane) lane

/-- The Argon2id hash of a password under a salt. -/
def hash (cost : Cost) (password salt : Bytes) : Bytes :=
  let seed := seed cost password salt
  let lane := Array.replicate cost.lane Block.zero
  let lane := (lane.setIfInBounds 0 (firstBlock seed 0)).setIfInBounds 1 (firstBlock seed 1)
  hashLong cost.length (blockAt (fill cost lane) (cost.lane - 1)).toBytes

end Strongroom.Argon2
