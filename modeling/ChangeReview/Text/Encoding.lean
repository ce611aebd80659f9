import ChangeReview.Fault
import ChangeReview.Text.Basic

/-!
# Encodings

Bytes become texts in UTF-8; a JSON document that comes as bytes may also be in UTF-16 or UTF-32,
told by its byte order mark or by where its first zero bytes stand, and may hold encoded surrogates:
two that belong together are one character, any other becomes the replacement character. A fault
names the first bytes that are wrong and why.
-/
namespace ChangeReview.Text

/-- The bytes of a text in UTF-8. -/
def toUtf8 (t : Text) : ByteArray := (String.ofList t).toUTF8

/-- What is wrong with the sequence at the front of the bytes: how many of them, and why. -/
structure BadSequence where
  size : Nat
  reason : Text
  deriving DecidableEq, Repr

def isTail (b : UInt8) : Bool := 0x80 ≤ b && b < 0xC0

def badStart : BadSequence := ⟨1, "invalid start byte"⟩

/-- A continuation byte is wrong behind `size` good bytes. -/
def badTail (size : Nat) : BadSequence := ⟨size, "invalid continuation byte"⟩

/-- The bytes end inside a sequence. -/
def cutShort (bytes : List UInt8) : BadSequence := ⟨bytes.length, "unexpected end of data"⟩

/-- The second byte may follow the first one. -/
def secondFits (a b : UInt8) : Bool :=
  isTail b && !(a == 0xE0 && b < 0xA0) && !(a == 0xED && 0xA0 ≤ b) && !(a == 0xF0 && b < 0x90) &&
    !(a == 0xF4 && 0x90 ≤ b)

/-- The length of the UTF-8 sequence at the front of non-empty bytes, or what is wrong with it. -/
def sequenceLength (bytes : List UInt8) : Except BadSequence Nat :=
  match bytes with
  | [] => .ok 1
  | a :: r =>
    if a < 0x80 then .ok 1
    else if a < 0xC2 || 0xF5 ≤ a then .error badStart
    else match r with
      | [] => .error (cutShort bytes)
      | b :: r =>
        if !secondFits a b then .error (badTail 1)
        else if a < 0xE0 then .ok 2
        else match r with
          | [] => .error (cutShort bytes)
          | c :: r =>
            if !isTail c then .error (badTail 2)
            else if a < 0xF0 then .ok 3
            else match r with
              | [] => .error (cutShort bytes)
              | d :: _ => if isTail d then .ok 4 else .error (badTail 3)

/-- As `sequenceLength`, where a surrogate may be encoded like any other character. -/
def sequenceLengthOrSurrogate (bytes : List UInt8) : Except BadSequence Nat :=
  match sequenceLength bytes, bytes with
  | .ok n, _ => .ok n
  | .error bad, 0xED :: b :: c :: _ => if isTail b && isTail c then .ok 3 else .error bad
  | .error bad, _ => .error bad

/-- The number that the bits of a sequence spell. -/
def sequenceValue : List UInt8 → Nat
  | [a] => a.toNat
  | [a, b] => a.toNat % 32 * 64 + b.toNat % 64
  | [a, b, c] => (a.toNat % 16 * 64 + b.toNat % 64) * 64 + c.toNat % 64
  | [a, b, c, d] =>
    ((a.toNat % 8 * 64 + b.toNat % 64) * 64 + c.toNat % 64) * 64 + d.toNat % 64
  | _ => 0

/-- The numbers that the sequences spell whose lengths `length` tells, or the position of the first
bad sequence and what is wrong with it; the fuel is the number of bytes. -/
def sequences (length : List UInt8 → Except BadSequence Nat) (position : Nat) :
    (fuel : Nat) → List UInt8 → Except (Nat × BadSequence) (List Nat)
  | 0, _ => .ok []
  | _ + 1, [] => .ok []
  | fuel + 1, bytes =>
    match length bytes with
    | .ok n =>
      (sequences length (position + n) fuel (bytes.drop n)).map (sequenceValue (bytes.take n) :: ·)
    | .error bad => .error (position, bad)

/-- The message about a bad sequence. -/
def badSequenceMessage (encoding : Text) (bytes : List UInt8) (position : Nat) (bad : BadSequence) :
    Text :=
  "'" ++ encoding ++ "' codec can't decode " ++
    (if bad.size = 1 then
      "byte 0x" ++ ofHex 2 (bytes.getD position 0).toNat ++ " in position " ++ ofNat position
    else
      "bytes in position " ++ ofNat position ++ "-" ++ ofNat (position + bad.size - 1)) ++
    ": " ++ bad.reason

/-- The fault of bytes in an encoding with a bad sequence. -/
def badSequenceFault (encoding : Text) (bytes : List UInt8) (position : Nat) (bad : BadSequence) :
    Fault :=
  .undecodable (badSequenceMessage encoding bytes position bad)

/-- The characters of 16-bit units or of larger numbers; a lone surrogate becomes the replacement
character. -/
def ofUnits : List Nat → Text
  | [] => []
  | [n] => [if 0xD800 ≤ n && n < 0xE000 then '\ufffd' else Char.ofNat n]
  | n :: m :: r =>
    if 0xD800 ≤ n && n < 0xDC00 && 0xDC00 ≤ m && m < 0xE000 then
      Char.ofNat (0x10000 + (n - 0xD800) * 0x400 + (m - 0xDC00)) :: ofUnits r
    else (if 0xD800 ≤ n && n < 0xE000 then '\ufffd' else Char.ofNat n) :: ofUnits (m :: r)

/-- The text of UTF-8 sequences whose lengths `length` tells. -/
def ofSequences (length : List UInt8 → Except BadSequence Nat) (bytes : ByteArray) :
    Except Fault Text :=
  match String.fromUTF8? bytes with
  | some s => .ok s.toList
  | none =>
    match sequences length 0 bytes.size bytes.toList with
    | .ok numbers => .ok (ofUnits numbers)
    | .error (position, bad) => .error (badSequenceFault "utf-8" bytes.toList position bad)

/-- The text that the bytes hold in UTF-8. -/
def ofUtf8 (bytes : ByteArray) : Except Fault Text := ofSequences sequenceLength bytes

/-- The byte orders and widths in which a document may come. -/
inductive Encoding where
  | utf8
  | utf16 (bigEndian : Bool)
  | utf32 (bigEndian : Bool)
  deriving DecidableEq, Repr

/-- The byte order marks with the encodings that they tell, in the order in which they are tried. -/
def byteOrderMarks : List (List UInt8 × Encoding) :=
  [([0x00, 0x00, 0xFE, 0xFF], .utf32 true), ([0xFF, 0xFE, 0x00, 0x00], .utf32 false),
    ([0xFE, 0xFF], .utf16 true), ([0xFF, 0xFE], .utf16 false), ([0xEF, 0xBB, 0xBF], .utf8)]

/-- The encoding of a document without a mark, told by its first zero bytes. -/
def unmarkedEncoding : List UInt8 → Encoding
  | [a, b] => if a == 0 then .utf16 true else if b == 0 then .utf16 false else .utf8
  | a :: b :: c :: d :: _ =>
    if a == 0 then if b == 0 then .utf32 true else .utf16 true
    else if b == 0 then if c == 0 && d == 0 then .utf32 false else .utf16 false
    else .utf8
  | _ => .utf8

/-- The encoding of a document and its bytes without the byte order mark. -/
def detectEncoding (bytes : List UInt8) : Encoding × List UInt8 :=
  match byteOrderMarks.find? fun m => m.1.isPrefixOf bytes with
  | some (mark, encoding) => (encoding, bytes.drop mark.length)
  | none => (unmarkedEncoding bytes, bytes)

/-- The 16-bit units of the bytes; a byte left over is dropped. -/
def units16 (bigEndian : Bool) : List UInt8 → List Nat
  | a :: b :: r =>
    (if bigEndian then a.toNat * 256 + b.toNat else b.toNat * 256 + a.toNat) :: units16 bigEndian r
  | _ => []

/-- The 32-bit units of the bytes; bytes left over are dropped. -/
def units32 (bigEndian : Bool) : List UInt8 → List Nat
  | a :: b :: c :: d :: r =>
    let n (w x y z : UInt8) := ((w.toNat * 256 + x.toNat) * 256 + y.toNat) * 256 + z.toNat
    (if bigEndian then n a b c d else n d c b a) :: units32 bigEndian r
  | _ => []

def byteOrderName (bigEndian : Bool) : Text := if bigEndian then "be" else "le"

/-- The text of a document that comes as bytes. In UTF-16 and UTF-32 the positions of faults count
the byte order mark. -/
def ofDocumentBytes (bytes : List UInt8) : Except Fault Text :=
  match detectEncoding bytes with
  | (.utf8, body) => ofSequences sequenceLengthOrSurrogate ⟨body.toArray⟩
  | (.utf16 big, body) =>
    if body.length % 2 = 1 then
      .error (badSequenceFault ("utf-16-" ++ byteOrderName big) bytes (bytes.length - 1)
        ⟨1, "truncated data"⟩)
    else .ok (ofUnits (units16 big body))
  | (.utf32 big, body) =>
    let units := units32 big body
    let start := bytes.length - body.length
    match units.findIdx? (0x110000 ≤ ·) with
    | some i =>
      .error (badSequenceFault ("utf-32-" ++ byteOrderName big) bytes (start + 4 * i)
        ⟨4, "code point not in range(0x110000)"⟩)
    | none =>
      if body.length % 4 ≠ 0 then
        .error (badSequenceFault ("utf-32-" ++ byteOrderName big) bytes (start + 4 * units.length)
          ⟨body.length % 4, "truncated data"⟩)
      else .ok (ofUnits units)

/-!
## Reading in pieces

A file is read piece by piece, and what it holds is used line by line as the pieces come. A bad
sequence shows in the piece with its first wrong byte, or at the end of the file where bytes are
missing. The lines that end in the pieces before have been used by then.
-/

/-- The number of bytes of a piece. -/
def pieceSize : Nat := 8192

/-- The place from a bad sequence on where it shows: its first wrong byte. An encoded surrogate shows
only where its third byte should be. -/
def shownAfter (sequence : List UInt8) (bad : BadSequence) : Nat :=
  if bad = badStart then 0
  else match sequence with
    | 0xED :: b :: _ => if isTail b then 2 else bad.size
    | _ => bad.size

/-- The number of bytes that have become characters when the bad sequence at a position shows. -/
def goodBytes (bytes : List UInt8) (position : Nat) (bad : BadSequence) : Nat :=
  let wrong := position + shownAfter (bytes.drop position) bad
  if wrong = bytes.length then position else min position (wrong / pieceSize * pieceSize)

/-- The bytes up to their last line end. A carriage return at the very end may be half of one. -/
def wholeLines (bytes : List UInt8) : List UInt8 :=
  let rest := match bytes.reverse with
    | 0x0D :: r => r
    | r => r
  (rest.dropWhile fun b => b != 0x0A && b != 0x0D).reverse

/-- The lines that are used before a file with a bad sequence shows its fault. -/
def linesBeforeFault (bytes : ByteArray) : Text :=
  match sequences sequenceLength 0 bytes.size bytes.toList with
  | .ok _ => []
  | .error (position, bad) =>
    let good := wholeLines (bytes.toList.take (goodBytes bytes.toList position bad))
    normalizeNewlines ((ofUtf8 ⟨good.toArray⟩).toOption.getD [])

end ChangeReview.Text
