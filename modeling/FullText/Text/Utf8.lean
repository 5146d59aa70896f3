/-!
# UTF-8

* `Utf8.decode`        the text of a byte string, or the first fault in it;
* `Utf8.encode`        the bytes of a text;
* `Utf8.Fault`         where the first ill-formed sequence is, and what is wrong with it;
* `Utf8.Fault.message` its text.

A faulty sequence is as long as it could still have been the start of a well-formed one.
-/

namespace FullText.Text.Utf8

/-- what is wrong with a sequence of bytes -/
inductive Problem where
  | invalidStart
  | invalidContinuation
  | endOfData
  deriving DecidableEq, Repr

/-- the first ill-formed sequence: `length` bytes from the byte `position`, which is `byte` -/
structure Fault where
  byte : UInt8
  position : Nat
  length : Nat
  problem : Problem
  deriving DecidableEq, Repr

/-! ## sequences -/

/-- A sequence that has begun: its first byte, how many of its bytes have been read, how many are
    still to come, the range of the next one, and the bits of the character so far. -/
structure Open where
  byte : UInt8
  read : Nat
  more : Nat
  least : Nat
  greatest : Nat
  bits : Nat

/-- the sequence that a byte above `0x7F` begins, none where no sequence does -/
def begin? (byte : UInt8) : Option Open :=
  let b := byte.toNat
  if 0xC2 ≤ b ∧ b ≤ 0xDF then some ⟨byte, 1, 1, 0x80, 0xBF, b - 0xC0⟩
  else if b = 0xE0 then some ⟨byte, 1, 2, 0xA0, 0xBF, 0⟩
  else if b = 0xED then some ⟨byte, 1, 2, 0x80, 0x9F, 0xD⟩
  else if 0xE1 ≤ b ∧ b ≤ 0xEF then some ⟨byte, 1, 2, 0x80, 0xBF, b - 0xE0⟩
  else if b = 0xF0 then some ⟨byte, 1, 3, 0x90, 0xBF, 0⟩
  else if b = 0xF4 then some ⟨byte, 1, 3, 0x80, 0x8F, 4⟩
  else if 0xF1 ≤ b ∧ b ≤ 0xF3 then some ⟨byte, 1, 3, 0x80, 0xBF, b - 0xF0⟩
  else none

/-- the open sequence with one more byte; from the third byte on every continuation byte will do -/
def Open.extend (o : Open) (b : UInt8) : Open :=
  ⟨o.byte, o.read + 1, o.more - 1, 0x80, 0xBF, o.bits * 64 + (b.toNat - 0x80)⟩

/-- The characters of the bytes, the first one at `position`, behind the sequence `o` if one is
    open; or the first fault. -/
def decodeFrom (position : Nat) (o : Option Open) : List UInt8 → Except Fault (List Char)
  | [] =>
    match o with
    | none => .ok []
    | some o => .error ⟨o.byte, position - o.read, o.read, .endOfData⟩
  | b :: bs =>
    match o with
    | none =>
      if b.toNat < 0x80 then (Char.ofNat b.toNat :: ·) <$> decodeFrom (position + 1) none bs
      else match begin? b with
        | some o => decodeFrom (position + 1) (some o) bs
        | none => .error ⟨b, position, 1, .invalidStart⟩
    | some o =>
      if o.least ≤ b.toNat ∧ b.toNat ≤ o.greatest then
        let o := o.extend b
        if o.more = 0 then (Char.ofNat o.bits :: ·) <$> decodeFrom (position + 1) none bs
        else decodeFrom (position + 1) (some o) bs
      else .error ⟨o.byte, position - o.read, o.read, .invalidContinuation⟩

def decode (bs : List UInt8) : Except Fault String := String.ofList <$> decodeFrom 0 none bs

def encode (s : String) : List UInt8 := s.toUTF8.toList

/-! ## messages -/

/-- the words for a problem -/
def Problem.message : Problem → String
  | .invalidStart => "invalid start byte"
  | .invalidContinuation => "invalid continuation byte"
  | .endOfData => "unexpected end of data"

/-- a byte with two hexadecimal digits in small letters -/
def hexByte (b : UInt8) : List Char :=
  [Nat.digitChar (b.toNat / 16), Nat.digitChar (b.toNat % 16)]

/-- One byte is shown, of a longer sequence only where it stands. -/
def Fault.message (f : Fault) : String :=
  let place :=
    if f.length = 1 then
      "byte 0x" ++ String.ofList (hexByte f.byte) ++ " in position " ++ f.position.repr
    else "bytes in position " ++ f.position.repr ++ "-" ++ (f.position + f.length - 1).repr
  "'utf-8' codec can't decode " ++ place ++ ": " ++ f.problem.message

end FullText.Text.Utf8
