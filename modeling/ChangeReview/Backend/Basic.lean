import ChangeReview.Fault
import ChangeReview.Text.Case
import ChangeReview.Value.Basic
import ChangeReview.Value.Number

/-!
# Backends

A backend answers prompts with texts. It may remember what it was asked before, so it is a machine:
a call takes it from one state to the next and yields a response or a fault.
-/
namespace ChangeReview

/-- The tokens of a call as its provider counts them. -/
structure TokenUsage where
  input : Int := 0
  output : Int := 0
  deriving DecidableEq, Repr

/-- What a backend answered. -/
structure Response where
  text : Text
  usage : Option TokenUsage := none
  deriving DecidableEq, Repr

/-- What a backend is asked, and for the sake of which stage. -/
structure Call where
  prompt : Text
  tool : Text
  deriving DecidableEq, Repr

/-- A call with its answer. -/
structure Exchange where
  call : Call
  answer : Except Fault Response

/-- A backend over the states `σ`, with the names under which it was configured. -/
structure Backend (σ : Type) where
  provider : Value
  model : Value
  invoke : σ → Call → σ × Except Fault Response

namespace Response

/-- The tokens that a response adds to a run; a count below zero adds nothing. -/
def tokens (r : Response) : Int :=
  match r.usage with
  | some u => max 0 u.input + max 0 u.output
  | none => 0

end Response

/-!
## The registry

Factories under names, which are the same in any case, and what the factories have built. A factory
builds once for each set of options; registering a name again forgets what was built under it.
-/

/-- The options of a factory, by name. Their order does not matter. -/
abbrev BuildOptions := List (Text × Value)

/-- Builds something from options, and may leave a mark on the world. -/
abbrev Factory (σ ι : Type) := σ → BuildOptions → σ × Except Fault ι

namespace Registry

/-- Under what an instance is kept. -/
structure Key where
  name : Text
  options : BuildOptions

namespace Key

/-- The options in the order of their names. -/
def of (name : Text) (options : BuildOptions) : Key :=
  ⟨Text.lower name, options.mergeSort fun a b => Text.le a.1 b.1⟩

/-- The two lists have the same names with the same values. -/
def sameOptions : (a b : BuildOptions) → Bool
  | [], [] => true
  | (n, v) :: a, (m, w) :: b => n == m && v.sameKey w && sameOptions a b
  | _, _ => false

/-- The two keys stand for the same instance. -/
def same (a b : Key) : Bool := a.name == b.name && sameOptions a.options b.options

/-- What no option can be called. -/
def reserved : List Text := ["name", "self"]

/-- The fault of an option whose name is reserved, or whose value cannot be a key. -/
def check (k : Key) : Except Fault Unit :=
  match k.options.find? fun o => reserved.contains o.1, k.options.find? fun o => !o.2.isKey with
  | some (name, _), _ => .error (.mismatch (.unexpectedArgument name))
  | none, some (_, v) => .error (.mismatch (.notAKey v.kind))
  | none, none => .ok ()

end Key

end Registry

/-- Factories, and their instances of type `ι`. Names are in lower case. -/
structure Registry (σ ι : Type) where
  factories : List (Text × Factory σ ι) := []
  instances : List (Registry.Key × ι) := []

namespace Registry

variable {σ ι : Type}

/-- The registry with a factory under a name, and none of the instances of that name. -/
def register (r : Registry σ ι) (name : Text) (f : Factory σ ι) : Registry σ ι :=
  let name := Text.lower name
  { factories := (name, f) :: r.factories.filter (·.1 != name)
    instances := r.instances.filter (·.1.name != name) }

/-- The registered names in order. -/
def names (r : Registry σ ι) : List Text := (r.factories.map (·.1)).mergeSort Text.le

/-- The instance under a key, if it has been built. -/
def find? (r : Registry σ ι) (k : Key) : Option ι :=
  (r.instances.find? fun e => e.1.same k).map (·.2)

/-- The fault of a name that is not registered. -/
def unknown (r : Registry σ ι) (name : Text) : Fault :=
  let available := match Text.join ", " r.names with
    | [] => "none".toList
    | t => t
  .configuration ("Backend '" ++ name ++ "' is not registered. Available backends: " ++ available)
    (some "provider".toList)

/-- Builds an instance and keeps it; a fault is not kept. -/
def build (r : Registry σ ι) (here : σ) (k : Key) (f : Factory σ ι) (options : BuildOptions) :
    Registry σ ι × σ × Except Fault ι :=
  match f here options with
  | (next, .ok i) => ({ r with instances := (k, i) :: r.instances }, next, .ok i)
  | (next, .error fault) => (r, next, .error fault)

/-- The instance of a name for the given options, which is built if there is none. -/
def get (r : Registry σ ι) (here : σ) (name : Text) (options : BuildOptions) :
    Registry σ ι × σ × Except Fault ι :=
  let k := Key.of name options
  match k.check, r.find? k, r.factories.lookup k.name with
  | .error fault, _, _ => (r, here, .error fault)
  | .ok (), some i, _ => (r, here, .ok i)
  | .ok (), none, some f => r.build here k f options
  | .ok (), none, none => (r, here, .error (r.unknown name))

end Registry

end ChangeReview
