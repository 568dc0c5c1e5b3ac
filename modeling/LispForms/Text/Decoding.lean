import LispForms.Text.Blank

/-! Texts stored as bytes: UTF-8 decoded block by block. A block that holds an
ill-formed sequence yields none of its characters; a sequence cut off by the end of the
bytes makes the text end in a failure in place of its end. -/

namespace LispForms.Text

/-- How a text is known to end: by its end, or by bytes that encode no character. -/
inductive Ending where
  | complete
  | undecodable
  deriving DecidableEq, Repr

/-- A decoded text. -/
structure Decoded where
  chars : List Char
  ending : Ending
  deriving DecidableEq, Repr

namespace Utf8

/-- Between characters, or inside one. -/
inductive State where
  | start
  /-- How many bytes are missing, the bounds of the next, and the bits gathered so far. -/
  | within (missing : Nat) (low high : Nat) (bits : Nat)
  /-- Behind the first two bytes of a surrogate. No byte may follow, but that comes to light only
  with the next byte. -/
  | surrogate
  deriving DecidableEq, Repr

/-- The state after a leading byte that is not ASCII; the bounds on the byte after it rule out
overlong forms and code points past the last. -/
def lead (b : Nat) : Option State :=
  if 0xC2 ≤ b ∧ b ≤ 0xDF then some (.within 1 0x80 0xBF (b % 0x20))
  else if b = 0xE0 then some (.within 2 0xA0 0xBF 0)
  else if 0xE1 ≤ b ∧ b ≤ 0xEF then some (.within 2 0x80 0xBF (b % 0x10))
  else if b = 0xF0 then some (.within 3 0x90 0xBF 0)
  else if 0xF1 ≤ b ∧ b ≤ 0xF3 then some (.within 3 0x80 0xBF (b % 8))
  else if b = 0xF4 then some (.within 3 0x80 0x8F 4)
  else none

/-- One byte further: the character that it completes, if any, and the next state;
`none` for a byte that cannot stand here. -/
def next (st : State) (b : Nat) : Option (Option Char × State) :=
  match st with
  | .start => if b < 0x80 then some (some (Char.ofNat b), .start) else (lead b).map (none, ·)
  | .within missing low high bits =>
    if low ≤ b ∧ b ≤ high then
      let bits := bits * 64 + b % 64
      if missing ≤ 1 then some (some (Char.ofNat bits), .start)
      else if 0x360 ≤ bits ∧ bits ≤ 0x37F then some (none, .surrogate)
      else some (none, .within (missing - 1) 0x80 0xBF bits)
    else none
  | .surrogate => none

end Utf8

/-- Bytes are decoded in blocks of this many. -/
def blockSize : Nat := 8192

/-- The characters of a finished block, newest first. A carriage return at its end waits
for the next block, where a line feed may complete it. -/
def release (block : List Char) : List Char × List Char :=
  match block with
  | '\r' :: earlier => (earlier, ['\r'])
  | _ => (block, [])

/-- Decoding from inside a block: `room` bytes of the block are left, `block` holds its characters
and `done` those of the blocks before it, newest first. -/
def decodeFrom (st : Utf8.State) (room : Nat) (block done : List Char) :
    List UInt8 → List Char × Ending
  | [] =>
    if st = .start then ((block ++ done).reverse, .complete)
    else (((release block).1 ++ done).reverse, .undecodable)
  | b :: bs =>
    match Utf8.next st b.toNat with
    | none => (done.reverse, .undecodable)
    | some (c, st) =>
      let block := c.toList ++ block
      if room ≤ 1 then
        let (out, waiting) := release block
        decodeFrom st blockSize waiting (out ++ done) bs
      else decodeFrom st (room - 1) block done bs

/-- The text that a file's bytes hold, its line breaks unified. -/
def decode (bytes : List UInt8) : Decoded :=
  let (chars, ending) := decodeFrom .start blockSize [] [] bytes
  ⟨unifyBreaks chars, ending⟩

end LispForms.Text
