/-!
# Decoding UTF-8

`Utf8.next` takes a character from the front of some bytes, or says how many bytes spoil
it: as many as could still have begun a character. `Utf8.decode` reads all of them,
`Utf8.decodeLossy` puts a replacement character for what is spoilt.
-/

namespace Ripple.Utf8

/-- What is wrong at the front of some bytes. -/
inductive Flaw where
  /-- So many bytes begin no character. -/
  | invalid (count : Nat)
  /-- The bytes end within a character. -/
  | incomplete
deriving DecidableEq, Repr

/-- The number of bytes that follow a first byte, with the bounds of the next one. -/
def follow? (first : Nat) : Option (Nat × Nat × Nat) :=
  if first < 0x80 then some (0, 0, 0)
  else if first < 0xC2 then none
  else if first < 0xE0 then some (1, 0x80, 0xBF)
  else if first = 0xE0 then some (2, 0xA0, 0xBF)
  else if first = 0xED then some (2, 0x80, 0x9F)
  else if first < 0xF0 then some (2, 0x80, 0xBF)
  else if first = 0xF0 then some (3, 0x90, 0xBF)
  else if first < 0xF4 then some (3, 0x80, 0xBF)
  else if first = 0xF4 then some (3, 0x80, 0x8F)
  else none

/-- Adds following bytes to a character of which `count` bytes are read and `value` is
    the value. -/
def gather (value count : Nat) (bounds : Nat × Nat) :
    (missing : Nat) → List UInt8 → Except Flaw (Nat × List UInt8)
  | 0, rest => .ok (value, rest)
  | _ + 1, [] => .error .incomplete
  | missing + 1, b :: rest =>
    if bounds.1 ≤ b.toNat ∧ b.toNat ≤ bounds.2 then
      gather (value * 64 + b.toNat % 64) (count + 1) (0x80, 0xBF) missing rest
    else .error (.invalid count)

/-- The significant bits of a first byte. -/
def leadBits (first following : Nat) : Nat :=
  match following with
  | 0 => first
  | 1 => first % 32
  | 2 => first % 16
  | _ => first % 8

/-- The character at the front of some bytes. -/
def next (first : UInt8) (rest : List UInt8) : Except Flaw (Char × List UInt8) :=
  match follow? first.toNat with
  | none => .error (.invalid 1)
  | some (following, low, high) => do
    let (value, rest) ← gather (leadBits first.toNat following) 1 (low, high) following rest
    return (Char.ofNat value, rest)

/-- The characters of some bytes, or what is wrong and how many bytes come before it.
    Each character takes a byte or more, so their number is enough fuel. -/
def decodeFrom (passed : Nat) : (fuel : Nat) → List UInt8 → Except (Nat × Flaw) (List Char)
  | _, [] => .ok []
  | 0, _ => .ok []
  | fuel + 1, b :: rest =>
    match next b rest with
    | .error flaw => .error (passed, flaw)
    | .ok (c, after) => (decodeFrom (passed + c.utf8Size) fuel after).map (c :: ·)

/-- The characters of some bytes, or what is wrong and how many bytes come before it. -/
def decode (bytes : List UInt8) : Except (Nat × Flaw) (List Char) :=
  decodeFrom 0 bytes.length bytes

/-- The characters of some bytes, with a replacement for each flaw. -/
def lossyFrom : (fuel : Nat) → List UInt8 → List Char
  | _, [] => []
  | 0, _ => []
  | fuel + 1, b :: rest =>
    match next b rest with
    | .ok (c, after) => c :: lossyFrom fuel after
    | .error (.invalid count) => '\ufffd' :: lossyFrom fuel ((b :: rest).drop count)
    | .error .incomplete => ['\ufffd']

/-- The characters of some bytes, with a replacement for each flaw. -/
def decodeLossy (bytes : List UInt8) : List Char := lossyFrom bytes.length bytes

/-- A flaw in words, after some bytes. -/
def Flaw.message (passed : Nat) : Flaw → String
  | .invalid count =>
    "invalid utf-8 sequence of " ++ toString count ++ " bytes from index " ++ toString passed
  | .incomplete => "incomplete utf-8 byte sequence from index " ++ toString passed

end Ripple.Utf8
