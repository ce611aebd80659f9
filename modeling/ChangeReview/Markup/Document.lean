import ChangeReview.Markup.Content
import ChangeReview.Text.Basic
import ChangeReview.Text.Encoding

/-!
# Documents

A well-formed markup document, of which only the attributes of the root element are kept.
-/
namespace ChangeReview.Markup

/-!
## Characters of a document

The bytes of a document are UTF-8, unless one of the first two is zero: then every two bytes are a
16-bit unit, the high byte first if it is the first byte that is zero. A unit that opens a pair takes
the unit behind it as the other half, whatever it is.
-/

/-- No character of a document: what half a pair is read as. -/
def noCharacter : Char := '\ufffe'

/-- The characters of 16-bit units. -/
def ofUnits : List Nat → Text
  | [] => []
  | [n] => [if 0xD800 ≤ n && n < 0xE000 then noCharacter else Char.ofNat n]
  | n :: m :: r =>
    if 0xD800 ≤ n && n < 0xDC00 then
      Char.ofNat (0x10000 + (n - 0xD800) * 0x400 + m % 0x400) :: ofUnits r
    else (if 0xDC00 ≤ n && n < 0xE000 then noCharacter else Char.ofNat n) :: ofUnits (m :: r)

/-- The characters of a text that is bytes of a document, if those in pairs leave none over. -/
def reread? (t : Text) : Option Text :=
  if t.take 2 |>.contains '\x00' then
    let bytes := (Text.toUtf8 t).toList
    if bytes.length % 2 = 1 then none
    else some (ofUnits (Text.units16 (bytes.head? == some 0) bytes))
  else some (Text.dropPrefix "\ufeff" t)

/-- The characters of a document, with line feeds for all line ends. -/
def characters? (t : Text) : Option Text := (reread? t).map Text.normalizeNewlines

/-! ## The root -/

/-- The attributes of the root of a well-formed document. -/
def rootAttributes? (document : Text) : Option (List Attribute) := do
  let t ← characters? document
  if !t.all isLegal then none
  let (d, rest) ← takeProlog? (allowanceOf (byteSize document)) t
  let (root, rest, allowance) ←
    takeTag? d initialBindings (rest.length + 1) (← Text.dropPrefix? "<" rest) d.allowance
  let rest ← match root.tagEnd with
    | .closes => some rest
    | .opens =>
      (afterContent? d (readEntity? d (d.entities.length + 1)) (rest.length + 1) [root.element] rest
        allowance).map (·.1)
  if (skipMisc rest.length rest).isEmpty then some root.attributes else none

/-- The value of an attribute without a prefix. -/
def attribute? (as : List Attribute) (name : Text) : Option Text :=
  (as.find? (·.name == ⟨none, name⟩)).map (·.value)

end ChangeReview.Markup
