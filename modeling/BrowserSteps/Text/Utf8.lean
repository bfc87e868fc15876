import BrowserSteps.Text.Ranges

/-!
UTF-8. A byte that cannot start a character, a missing continuation and an end in the
middle of a character are told apart, together with the bytes they concern.
-/

namespace BrowserSteps.Text

abbrev Bytes := List UInt8

/-- Why bytes are no UTF-8. -/
inductive Utf8Fault where
  | start
  | continuation
  | unfinished
  deriving DecidableEq, Repr

/-- A fault and the bytes that it concerns. -/
structure Utf8Error where
  fault : Utf8Fault
  position : Nat
  bytes : Bytes
  deriving DecidableEq, Repr

/-- What the first byte of a character announces: the further bytes, the bits it brings and
the range of the second byte. -/
def leadByte? (b : Nat) : Option (Nat × Nat × Nat × Nat) :=
  if b < 0x80 then some (0, b, 0, 0)
  else if 0xc2 ≤ b ∧ b ≤ 0xdf then some (1, b - 0xc0, 0x80, 0xbf)
  else if b = 0xe0 then some (2, 0, 0xa0, 0xbf)
  else if b = 0xed then some (2, 0xd, 0x80, 0x9f)
  else if 0xe1 ≤ b ∧ b ≤ 0xef then some (2, b - 0xe0, 0x80, 0xbf)
  else if b = 0xf0 then some (3, 0, 0x90, 0xbf)
  else if 0xf1 ≤ b ∧ b ≤ 0xf3 then some (3, b - 0xf0, 0x80, 0xbf)
  else if b = 0xf4 then some (3, 4, 0x80, 0x8f)
  else none

/-- Reads `count` further bytes of a character, the first of them in a range. Answers the
code point, or the fault and how many bytes were good. -/
def tailBytes (count code low high good : Nat) (rest : Bytes) : Except (Utf8Fault × Nat) Nat :=
  match count, rest with
  | 0, _ => .ok code
  | _ + 1, [] => .error (.unfinished, good)
  | count + 1, b :: rest =>
    if low ≤ b.toNat ∧ b.toNat ≤ high then
      tailBytes count (code * 64 + b.toNat % 64) 0x80 0xbf (good + 1) rest
    else .error (.continuation, good)

/-- Decodes bytes that start at a position. The bound is their number. -/
def decodeFrom (position : Nat) (bytes : Bytes) : Nat → Except Utf8Error (List Char)
  | 0 => .ok []
  | bound + 1 =>
    match bytes with
    | [] => .ok []
    | b :: rest =>
      match leadByte? b.toNat with
      | none => .error ⟨.start, position, [b]⟩
      | some (count, code, low, high) =>
        match tailBytes count code low high 1 rest with
        | .error (fault, good) => .error ⟨fault, position, (b :: rest).take good⟩
        | .ok code =>
          (decodeFrom (position + count + 1) (rest.drop count) bound).map (Char.ofNat code :: ·)

def decodeUtf8 (bytes : Bytes) : Except Utf8Error String :=
  (decodeFrom 0 bytes bytes.length).map String.ofList

def encodeUtf8 (s : String) : Bytes := s.toUTF8.toList

/-- CR LF and CR become LF. -/
def normalizeBreaks : List Char → List Char
  | [] => []
  | '\r' :: '\n' :: rest => '\n' :: normalizeBreaks rest
  | c :: rest => (if c = '\r' then '\n' else c) :: normalizeBreaks rest

end BrowserSteps.Text
