import ChangeReview.Text.Basic
import ChangeReview.Value.Reader

/-!
# Documents inside replies

A reply should be one JSON document and often is one with prose around it. The whole reply is read
first, then its first balanced stretch. `salvage` goes through a reply that was cut off and takes
every object in it that is complete and has the members it needs.
-/
namespace ChangeReview.Reply

/-!
## Code fences

A model may wrap its reply in a markdown code fence. The fence is taken off together with the
language behind its opening; a closing fence counts only where there was an opening one.
-/

/-- Three backquotes. -/
def fence : Text := "```"

/-- The text without the fence around it, and without blanks at its ends. -/
def stripFence (t : Text) : Text :=
  let cleaned := Text.trim t
  if Text.startsWith cleaned fence then
    match (Text.cut '\n' cleaned).2 with
    | none => []
    | some body =>
      if Text.endsWith body fence then Text.trimRight (body.take (body.length - fence.length))
      else body
  else cleaned

/-!
## Balanced spans

The stretch from an opening bracket to the closing one that matches it. Brackets inside double
quotes do not count, and a backslash inside quotes hides the character behind it.
-/

/-- Where the scan stands: outside quotes, inside them, or behind a backslash inside them. -/
inductive Quoting where
  | outside
  | inside
  | escaped
  deriving DecidableEq, Repr

/-- The number of characters, `taken` of them read already, up to the bracket that closes all
`depth` open ones. -/
def spanLength (opening closing : Char) (taken depth : Nat) : Quoting → Text → Option Nat
  | _, [] => none
  | .escaped, _ :: r => spanLength opening closing (taken + 1) depth .inside r
  | .inside, c :: r =>
    spanLength opening closing (taken + 1) depth
      (if c == '\\' then .escaped else if c == '"' then .outside else .inside) r
  | .outside, c :: r =>
    if c == '"' then spanLength opening closing (taken + 1) depth .inside r
    else if c == opening then spanLength opening closing (taken + 1) (depth + 1) .outside r
    else if c == closing then
      if depth ≤ 1 then some (taken + 1)
      else spanLength opening closing (taken + 1) (depth - 1) .outside r
    else spanLength opening closing (taken + 1) depth .outside r

/-- The first stretch that starts at an opening bracket and is balanced. -/
def firstSpan (opening closing : Char) : Text → Option Text
  | [] => none
  | c :: r =>
    if c == opening then
      match spanLength opening closing 0 0 .outside (c :: r) with
      | some n => some ((c :: r).take n)
      | none => firstSpan opening closing r
    else firstSpan opening closing r

/-! ## Reading and salvaging -/

/-- The value of the whole reply, or of its first balanced stretch between the brackets; `shape`
names what is looked for. -/
def extract (opening closing : Char) (shape : Text) (t : Text) : Except Fault Value :=
  let cleaned := stripFence t
  match Value.parse cleaned with
  | .ok v => .ok v
  | .error .notJson =>
    match firstSpan opening closing cleaned with
    | none => .error (.invalid ("No JSON " ++ shape ++ " found in response"))
    | some span => Value.parse span
  | .error fault => .error fault

/-- The fault of a value that has not the shape that is needed. -/
def wrongShape (shape : Text) (v : Value) : Fault :=
  .invalid ("Expected a JSON " ++ shape ++ ", got " ++ v.kind)

/-- The first object of a reply. -/
def extractObject (t : Text) : Except Fault (List (Text × Value)) :=
  match extract '\x7b' '\x7d' "object" t with
  | .ok (.object members) => .ok members
  | .ok v => .error (wrongShape "object" v)
  | .error fault => .error fault

/-- The first list of a reply. -/
def extractList (t : Text) : Except Fault (List Value) :=
  match extract '[' ']' "array" t with
  | .ok (.list items) => .ok items
  | .ok v => .error (wrongShape "array" v)
  | .error fault => .error fault

/-- The members hold all the keys. -/
def hasKeys (required : List Text) (members : List (Text × Value)) : Bool :=
  required.all fun key => (Value.lookup key members).isSome

/-- Goes through a text of which `skip` characters are used up: at every opening brace the first
balanced stretch from there on is read, and a complete object with the required keys uses up as
many characters as it has. Where no balanced stretch is left the search ends. -/
def salvageFrom (required : List Text) (skip : Nat) : Text → Except Fault (List Value)
  | [] => .ok []
  | c :: r =>
    match skip with
    | s + 1 => salvageFrom required s r
    | 0 =>
      if c == '\x7b' then
        match firstSpan '\x7b' '\x7d' (c :: r) with
        | none => .ok []
        | some span =>
          match Value.parse span with
          | .ok (.object members) =>
            if hasKeys required members then
              (salvageFrom required (span.length - 1) r).map (.object members :: ·)
            else salvageFrom required 0 r
          | .ok _ | .error .notJson => salvageFrom required 0 r
          | .error fault => .error fault
      else salvageFrom required 0 r

/-- The complete objects of a text that have the required keys. -/
def salvage (t : Text) (required : List Text) : Except Fault (List Value) :=
  salvageFrom required 0 t

end ChangeReview.Reply
