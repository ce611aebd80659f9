import ChangeReview.Fault

/-!
# Values

The data of a JSON document: what a model replies, a scanner prints, a cache stores and a report
holds before anybody has checked it. An object keeps its members in the order in which their keys
first came.
-/
namespace ChangeReview

/-- A JSON value. Whole numbers are exact; other numbers are doubles. -/
inductive Value where
  | null
  | bool (b : Bool)
  | int (n : Int)
  | float (x : Float)
  | text (t : Text)
  | list (items : List Value)
  | object (members : List (Text × Value))
  deriving Inhabited

namespace Value

deriving instance Repr for Value

instance : Coe Text Value := ⟨text⟩

mutual

/-- Decides whether two values are the same data, doubles by their exact identity. -/
def decEq : (a b : Value) → Decidable (a = b)
  | null, null => isTrue rfl
  | bool a, bool b => if h : a = b then isTrue (by rw [h]) else isFalse (by simp [h])
  | int a, int b => if h : a = b then isTrue (by rw [h]) else isFalse (by simp [h])
  | float a, float b => if h : a = b then isTrue (by rw [h]) else isFalse (by simp [h])
  | text a, text b => if h : a = b then isTrue (by rw [h]) else isFalse (by simp [h])
  | list a, list b =>
    match decEqItems a b with
    | isTrue h => isTrue (by rw [h])
    | isFalse h => isFalse (by simp [h])
  | object a, object b =>
    match decEqMembers a b with
    | isTrue h => isTrue (by rw [h])
    | isFalse h => isFalse (by simp [h])
  | null, bool _ | null, int _ | null, float _ | null, text _ | null, list _ | null, object _
  | bool _, null | bool _, int _ | bool _, float _ | bool _, text _ | bool _, list _
  | bool _, object _ | int _, null | int _, bool _ | int _, float _ | int _, text _
  | int _, list _ | int _, object _ | float _, null | float _, bool _ | float _, int _
  | float _, text _ | float _, list _ | float _, object _ | text _, null | text _, bool _
  | text _, int _ | text _, float _ | text _, list _ | text _, object _ | list _, null
  | list _, bool _ | list _, int _ | list _, float _ | list _, text _ | list _, object _
  | object _, null | object _, bool _ | object _, int _ | object _, float _ | object _, text _
  | object _, list _ => isFalse (by simp)

/-- Decides equality item by item. -/
def decEqItems : (a b : List Value) → Decidable (a = b)
  | [], [] => isTrue rfl
  | [], _ :: _ => isFalse (by simp)
  | _ :: _, [] => isFalse (by simp)
  | v :: a, w :: b =>
    match decEq v w, decEqItems a b with
    | isTrue h, isTrue k => isTrue (by rw [h, k])
    | isFalse h, _ => isFalse (by simp [h])
    | _, isFalse k => isFalse (by simp [k])

/-- Decides equality member by member. -/
def decEqMembers : (a b : List (Text × Value)) → Decidable (a = b)
  | [], [] => isTrue rfl
  | [], _ :: _ => isFalse (by simp)
  | _ :: _, [] => isFalse (by simp)
  | (k, v) :: a, (l, w) :: b =>
    if h : k = l then
      match decEq v w, decEqMembers a b with
      | isTrue i, isTrue j => isTrue (by rw [h, i, j])
      | isFalse i, _ => isFalse (by simp [i])
      | _, isFalse j => isFalse (by simp [j])
    else isFalse (by simp [h])

end

instance : DecidableEq Value := decEq

/-- The name of a value's kind, as it appears in messages. -/
def kind : Value → Text
  | null => "NoneType"
  | bool _ => "bool"
  | int _ => "int"
  | float _ => "float"
  | text _ => "str"
  | list _ => "list"
  | object _ => "dict"

/-- Neither absent, false, zero nor empty. -/
def truthy : Value → Bool
  | null => false
  | bool b => b
  | int n => n != 0
  | float x => x != 0.0
  | text t => !t.isEmpty
  | list items => !items.isEmpty
  | object members => !members.isEmpty

/-- `v`, or `w` where `v` is absent, false, zero or empty. -/
def orElse (v w : Value) : Value := if v.truthy then v else w

def isNull : Value → Bool
  | null => true
  | _ => false

def text? : Value → Option Text
  | text t => some t
  | _ => none

/-- The text of a value that is asked for a member which only texts have; nothing if it is empty. -/
def textFor (member : Text) (v : Value) : Except Fault (Option Text) :=
  match v with
  | text t => .ok (some t)
  | v => if v.truthy then .error (.noMember v.kind member) else .ok none

/-- The text of a value that is to be a path. -/
def toPath : Value → Except Fault Text
  | text t => .ok t
  | v => .error (.mismatch (.notAPath v.kind))

def object? : Value → Option (List (Text × Value))
  | object members => some members
  | _ => none

/-- The text of an optional value, `null` when there is none. -/
def ofOption : Option Text → Value
  | some t => text t
  | none => null

/-- The texts as a list. -/
def ofTexts (ts : List Text) : Value := list (ts.map text)

/-- The object with the given members, of which the keys are literals. -/
def members (ms : List (String × Value)) : Value :=
  object (ms.map fun m => (m.1.toList, m.2))

/-- The member unless its value is `null`. -/
def unlessNull (key : String) (v : Value) : List (String × Value) :=
  if v.isNull then [] else [(key, v)]

/-- The member of an object's members under `key`. -/
def lookup (key : Text) : List (Text × Value) → Option Value
  | [] => none
  | (k, v) :: r => if k = key then some v else lookup key r

/-- The members with `key` set to `v`, in its old place if it had one. -/
def put (key : Text) (v : Value) : List (Text × Value) → List (Text × Value)
  | [] => [(key, v)]
  | (k, w) :: r => if k = key then (k, v) :: r else (k, w) :: put key v r

/-- The member under `key`, or `default`; only an object can be asked. -/
def getD (v : Value) (key : Text) (default : Value) : Except Fault Value :=
  match v with
  | object members => .ok ((lookup key members).getD default)
  | v => .error (.noMember v.kind "get")

/-- The member under `key`, which must be there. -/
def require (v : Value) (key : Text) : Except Fault Value :=
  match v with
  | object members =>
    match lookup key members with
    | some w => .ok w
    | none => .error (.missingKey key)
  | text _ => .error (.mismatch .textSubscript)
  | list _ => .error (.mismatch .listSubscript)
  | v => .error (.mismatch (.notSubscriptable v.kind))

/-- What a value yields when it is gone through: the items of a list, the characters of a text,
the keys of an object. -/
def elements : Value → Except Fault (List Value)
  | list items => .ok items
  | text t => .ok (t.map fun c => text [c])
  | object members => .ok (members.map fun m => text m.1)
  | v => .error (.mismatch (.notIterable v.kind))

end Value

end ChangeReview
