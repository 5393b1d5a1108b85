set_option autoImplicit false

/-!
# Text: reading UTF-8 that may be damaged

Bytes are read front to back.  A well-formed sequence gives its character.  Where the bytes are
not well-formed, the longest front part that could still have begun a sequence is replaced by one
U+FFFD, so one damaged character never swallows the next.
-/

namespace DaemonKeeper.Text

/-- Stands for one damaged part. -/
def replacement : Char := '\uFFFD'

/-- How many bytes follow this lead byte, and the range of the first of them.  None follow a byte
below 0x80; `none` for a byte that leads nothing. -/
def leadShape (b : UInt8) : Option (Nat × UInt8 × UInt8) :=
  if b < 0x80 then some (0, 0x80, 0xBF)
  else if b < 0xC2 then none
  else if b < 0xE0 then some (1, 0x80, 0xBF)
  else if b = 0xE0 then some (2, 0xA0, 0xBF)
  else if b = 0xED then some (2, 0x80, 0x9F)
  else if b < 0xF0 then some (2, 0x80, 0xBF)
  else if b = 0xF0 then some (3, 0x90, 0xBF)
  else if b < 0xF4 then some (3, 0x80, 0xBF)
  else if b = 0xF4 then some (3, 0x80, 0x8F)
  else none

/-- The payload bits of a lead byte that `following` bytes follow. -/
def leadBits (b : UInt8) : Nat → Nat
  | 0 => b.toNat
  | 1 => b.toNat % 0x20
  | 2 => b.toNat % 0x10
  | _ => b.toNat % 0x08

/-- How many of the first `n` bytes continue the sequence, the first of them in its own range. -/
def continuationCount (low high : UInt8) : Nat → List UInt8 → Nat
  | 0, _ | _, [] => 0
  | n + 1, b :: rest =>
    if low ≤ b && b ≤ high then continuationCount 0x80 0xBF n rest + 1 else 0

/-- The character at the front, `none` for a damaged part, and how many bytes after the first
belong to it. -/
def frontChar (b : UInt8) (rest : List UInt8) : Option Char × Nat :=
  match leadShape b with
  | none => (none, 0)
  | some (n, low, high) =>
    let k := continuationCount low high n rest
    if k = n then
      (some (Char.ofNat ((rest.take n).foldl (fun v c => v * 0x40 + c.toNat % 0x40) (leadBits b n))),
        n)
    else (none, k)

/-- Reads every character, with U+FFFD for each damaged part. -/
def decodeLossy : List UInt8 → List Char
  | [] => []
  | b :: rest =>
    let front := frontChar b rest
    front.1.getD replacement :: decodeLossy (rest.drop front.2)
termination_by bs => bs.length
decreasing_by simp only [List.length_drop, List.length_cons]; omega

/-- Reads every character, and nothing if any part is damaged. -/
def decode? : List UInt8 → Option (List Char)
  | [] => some []
  | b :: rest =>
    let front := frontChar b rest
    match front.1 with
    | none => none
    | some c => (decode? (rest.drop front.2)).map (c :: ·)
termination_by bs => bs.length
decreasing_by simp only [List.length_drop, List.length_cons]; omega

/-- The bytes of one character. -/
def encodeChar (c : Char) : List UInt8 :=
  let n := c.toNat
  let tail (shift : Nat) : UInt8 := UInt8.ofNat (0x80 + n / Nat.pow 0x40 shift % 0x40)
  if n < 0x80 then [UInt8.ofNat n]
  else if n < 0x800 then [UInt8.ofNat (0xC0 + n / 0x40), tail 0]
  else if n < 0x10000 then [UInt8.ofNat (0xE0 + n / 0x1000), tail 1, tail 0]
  else [UInt8.ofNat (0xF0 + n / 0x40000), tail 2, tail 1, tail 0]

/-- The bytes of a text. -/
def encode (cs : List Char) : List UInt8 := cs.flatMap encodeChar

/-- The bytes of a string. -/
def bytes (s : String) : List UInt8 := encode s.toList

end DaemonKeeper.Text
