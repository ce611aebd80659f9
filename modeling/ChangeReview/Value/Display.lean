import ChangeReview.Value.Basic
import ChangeReview.Decimal.Digits

/-!
# Values in sentences

How a value reads inside a message or a prompt: a text as it is, everything else, and every text
inside a list or an object, in its quoted form.
-/
namespace ChangeReview.Value

mutual

/-- The quoted form of a value. -/
def quoted : Value → Text
  | null => "None"
  | bool true => "True"
  | bool false => "False"
  | int n => Text.ofInt n
  | float x => Decimal.shortest Decimal.plainSpelling x
  | text t => Text.quoted t
  | list items => '[' :: Text.join ", " (quotedItems items) ++ [']']
  | object members => '\x7b' :: Text.join ", " (quotedMembers members) ++ ['\x7d']
termination_by structural v => v

/-- The quoted forms of the items. -/
def quotedItems : List Value → List Text
  | [] => []
  | v :: r => v.quoted :: quotedItems r
termination_by structural vs => vs

/-- The members, each key in front of its value. -/
def quotedMembers : List (Text × Value) → List Text
  | [] => []
  | (k, v) :: r => (Text.quoted k ++ ": " ++ v.quoted) :: quotedMembers r
termination_by structural ms => ms

end

/-- How a value reads in a sentence. -/
def display : Value → Text
  | text t => t
  | v => v.quoted

/-- How a value reads, unless it is empty. -/
def shown? (v : Value) : Option Text := if v.truthy then some v.display else none

end ChangeReview.Value
