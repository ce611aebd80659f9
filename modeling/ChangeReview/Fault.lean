import ChangeReview.Text.Classes

/-!
# Faults

Every way in which an operation can fail, by its cause. The wording of each cause is in
`Fault.message`; the workflow decides by `Fault.isAbsorbed` and its neighbours which faults a stage
turns into a notice and which end the run.
-/
namespace ChangeReview

/-- A value of one kind met an operation that needs another. Kinds are given by name. -/
inductive Mismatch where
  | notSubscriptable (kind : Text)
  | textSubscript
  | listSubscript
  | notIterable (kind : Text)
  | notSearchable (kind : Text)
  | noLength (kind : Text)
  | notAPath (kind : Text)
  | notAKey (kind : Text)
  | notAddable (left right : Text)
  | notOrdered (left right : Text)
  | notJoinable (index : Nat) (kind : Text)
  | notADocument (kind : Text)
  | notACount (kind : Text)
  | notANumber (kind : Text)
  | notAMapping (kind : Text)
  | unexpectedArgument (name : Text)
  | missingArgument (name : Text)
  deriving DecidableEq, Repr

/-- The name of a sequence kind whose values join only with their own. -/
def Mismatch.joinsOnlyItself (kind : Text) : Bool := kind == "str" || kind == "list"

/-- The wording of a mismatch. -/
def Mismatch.message : Mismatch → Text
  | notSubscriptable kind => "'" ++ kind ++ "' object is not subscriptable"
  | textSubscript => "string indices must be integers, not 'str'"
  | listSubscript => "list indices must be integers or slices, not str"
  | notIterable kind => "'" ++ kind ++ "' object is not iterable"
  | notSearchable kind => "argument of type '" ++ kind ++ "' is not iterable"
  | noLength kind => "object of type '" ++ kind ++ "' has no len()"
  | notAPath kind => "expected str, bytes or os.PathLike object, not " ++ kind
  | notAKey kind => "unhashable type: '" ++ kind ++ "'"
  | notAddable left right =>
    if joinsOnlyItself left then
      "can only concatenate " ++ left ++ " (not \"" ++ right ++ "\") to " ++ left
    else "unsupported operand type(s) for +: '" ++ left ++ "' and '" ++ right ++ "'"
  | notOrdered left right =>
    "'<' not supported between instances of '" ++ left ++ "' and '" ++ right ++ "'"
  | notJoinable index kind =>
    "sequence item " ++ Text.ofNat index ++ ": expected str instance, " ++ kind ++ " found"
  | notADocument kind => "the JSON object must be str, bytes or bytearray, not " ++ kind
  | notACount kind => "can't multiply sequence by non-int of type '" ++ kind ++ "'"
  | notANumber kind => "type " ++ kind ++ " doesn't define __round__ method"
  | notAMapping kind => "argument must be a mapping, not " ++ kind
  | unexpectedArgument name => "unexpected argument " ++ Text.quoted name
  | missingArgument name => "missing argument " ++ Text.quoted name

/-- The cause of a failure. -/
inductive Fault where
  /-- A setting or an argument of a run is bad; `field` names it. -/
  | configuration (message : Text) (field : Option Text)
  /-- A text-generation call failed. -/
  | backend (message : Text) (provider : Option Text)
  /-- The scanner ran and gave no usable report. -/
  | scan (message : Text)
  /-- A value is outside its domain. -/
  | invalid (message : Text)
  | runtime (message : Text)
  /-- The messages service refused a call. -/
  | messagesService (message : Text)
  /-- The chat service refused a call. -/
  | chatService (message : Text)
  | missingKey (key : Text)
  | mismatch (cause : Mismatch)
  /-- A value of the named kind was asked for a member that it lacks. -/
  | noMember (kind member : Text)
  /-- A number is too large for a double, or infinite where a whole number is needed. -/
  | outOfRange (message : Text)
  /-- A text is not one JSON document. -/
  | notJson
  /-- A JSON document nests deeper than is read; the bracket that goes too deep opens `part`. -/
  | tooDeep (part : Text)
  /-- Bytes are not a text in their encoding. -/
  | undecodable (message : Text)
  | isFolder (message : Text)
  | system (message : Text)
  /-- The program ends with this exit code. -/
  | exit (code : Int)
  deriving DecidableEq, Repr

namespace Fault

/-- What a fault says. -/
def message : Fault → Text
  | configuration m _ | backend m _ | scan m | invalid m | runtime m | messagesService m
  | chatService m | outOfRange m | undecodable m | isFolder m | system m => m
  | missingKey key => Text.quoted key
  | mismatch cause => cause.message
  | noMember kind member => "'" ++ kind ++ "' object has no attribute '" ++ member ++ "'"
  | notJson => "not a JSON document"
  | tooDeep part =>
    "maximum recursion depth exceeded while decoding a JSON " ++ part ++ " from a unicode string"
  | exit code => Text.ofInt code

/-- A numeral of `n` digits is longer than numerals may be. -/
def tooManyDigits (limit n : Nat) : Fault :=
  .invalid ("Exceeds the limit (" ++ Text.ofNat limit ++
    " digits) for integer string conversion: value has " ++ Text.ofNat n ++
    " digits; use sys.set_int_max_str_digits() to increase the limit")

/-- A whole number has more digits than a numeral may have. -/
def tooLongToWrite (limit : Nat) : Fault :=
  .invalid ("Exceeds the limit (" ++ Text.ofNat limit ++
    " digits) for integer string conversion; use sys.set_int_max_str_digits() to increase the limit")

/-- A text is no whole numeral; the message shows the first two hundred characters of its quoted
form. -/
def badNumeral (t : Text) : Fault :=
  .invalid ("invalid literal for int() with base 10: " ++ (Text.quoted t).take 200)

/-- A failure while running, which a stage turns into a notice. -/
def isAbsorbed : Fault → Bool
  | backend .. | scan .. | runtime .. | tooDeep .. => true
  | _ => false

/-- A value that is wrong in itself. -/
def isBadValue : Fault → Bool
  | configuration .. | invalid .. | notJson | undecodable .. => true
  | _ => false

/-- A value of the wrong kind. -/
def isMismatch : Fault → Bool
  | mismatch .. => true
  | _ => false

/-- A failure of the operating system. -/
def isSystem : Fault → Bool
  | isFolder .. | system .. => true
  | _ => false

/-- The setting or argument that a configuration fault names. -/
def field? : Fault → Option Text
  | configuration _ field => field
  | _ => none

end Fault

theorem ok_bind {ε α β : Type} (a : α) (f : α → Except ε β) : (Except.ok a >>= f) = f a := rfl

theorem error_bind {ε α β : Type} (e : ε) (f : α → Except ε β) :
    (Except.error e >>= f) = .error e := rfl

/-- What ends well behind an operation has that operation end well. -/
theorem exists_of_bind_eq_ok {α β : Type} {x : Except Fault α} {f : α → Except Fault β} {b : β}
    (h : (x >>= f) = .ok b) : ∃ a, x = .ok a ∧ f a = .ok b := by
  cases x with
  | error fault => exact absurd h (by simp [bind, Except.bind])
  | ok a => exact ⟨a, rfl, h⟩

theorem exists_of_map_eq_ok {α β : Type} {x : Except Fault α} {f : α → β} {b : β}
    (h : x.map f = .ok b) : ∃ a, x = .ok a ∧ f a = b := by
  cases x with
  | error fault => exact absurd h (by simp [Except.map])
  | ok a => exact ⟨a, rfl, Except.ok.inj h⟩

/-- What ends well for every item ends well for all of them in a row. -/
theorem mapM_eq_ok {α β : Type} {f : α → Except Fault β} {g : α → β} {items : List α}
    (h : ∀ a ∈ items, f a = .ok (g a)) : items.mapM f = .ok (items.map g) := by
  induction items with
  | nil => rfl
  | cons a items ih =>
    obtain ⟨ha, hitems⟩ := List.forall_mem_cons.mp h
    rw [List.mapM_cons, ha, ok_bind, ih hitems]
    rfl

theorem eq_ok_of_toOption {ε α : Type} {x : Except ε α} {a : α} (h : x.toOption = some a) :
    x = .ok a := by
  cases x with
  | error fault => exact absurd h (by simp [Except.toOption])
  | ok b => exact congrArg Except.ok (Option.some.inj h)

end ChangeReview
