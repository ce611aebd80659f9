import ChangeReview.Proofs.Backend.Keys
import ChangeReview.Proofs.Repository.Folders

/-!
# What a registry hands out

A registry is used by registering factories and asking for instances, in any order. Whatever the
order, an instance that is handed out was built by the factory registered last under its name, from
the options it is asked for, and stays the one that is handed out until that name is registered
again: the factory is not called for it a second time. Nothing else matters to it, be it other
options, other names or faults.
-/
namespace ChangeReview.Registry

variable {σ ι : Type} {r : Registry σ ι} {here : σ} {k k' : Key} {name n : Text}

/-! ## What stands in a registry -/

/-- The options cannot be those of a factory: a name is reserved, or a value cannot be a key. -/
def Refused (options : BuildOptions) : Prop :=
  ∃ o ∈ options, o.1 ∈ Key.reserved ∨ o.2.isKey = false

/-- The options are refused whatever their order. -/
theorem Refused.congr {a b : BuildOptions} (h : SameOptions a b) (ha : Refused a) : Refused b := by
  obtain ⟨o, ho, hrefused⟩ := ha
  obtain ⟨p, hp, heq⟩ := List.mem_map.mp ((h (o.1, o.2.keyForm)).mp (List.mem_map_of_mem ho))
  obtain ⟨hname, hform⟩ := Prod.mk.inj heq
  refine ⟨p, hp, ?_⟩
  rwa [hname, Value.isKey_of_sameKey (Value.sameKey_iff.mpr hform)]

/-- What is done with a registry. -/
inductive Use (σ ι : Type) where
  | register (name : Text) (f : Factory σ ι)
  | get (name : Text) (given : Keywords)

/-- The use registers a factory under a name in lower case. -/
def Use.Renews (name : Text) : Use σ ι → Prop
  | .register n _ => Text.lower n = name
  | .get _ _ => False

/-- A use of a registry in some state of the world. -/
def step : Registry σ ι × σ → Use σ ι → Registry σ ι × σ
  | (r, here), .register n f => (r.register n f, here)
  | (r, here), .get n given => let answer := r.get here n given.options; (answer.1, answer.2.1)

/-- The registry after the uses of a new one. -/
def after (here : σ) (uses : List (Use σ ι)) : Registry σ ι × σ := uses.foldl step ({}, here)

@[simp] theorem after_nil (here : σ) : after here ([] : List (Use σ ι)) = ({}, here) := rfl

/-- The factory that was registered last under a name in lower case. -/
def LastRegistered (name : Text) (f : Factory σ ι) (uses : List (Use σ ι)) : Prop :=
  ∃ before n later, uses = before ++ .register n f :: later ∧ Text.lower n = name ∧
    ∀ u ∈ later, ¬ u.Renews name

/-- The instance was built from the options by the factory registered last under the name. -/
def Origin (here : σ) (uses : List (Use σ ι)) (name : Text) (given : Keywords) (i : ι) : Prop :=
  ∃ before n asked later f, uses = before ++ .get n asked :: later ∧
    Text.lower n = Text.lower name ∧ SameOptions asked.options given.options ∧
    LastRegistered (Text.lower name) f before ∧ (∀ u ∈ later, ¬ u.Renews (Text.lower name)) ∧
    let s := after here before
    (s.1.get s.2 n asked.options).2 = f s.2 asked.options ∧ (f s.2 asked.options).2 = .ok i

variable {uses later : List (Use σ ι)} {u : Use σ ι} {f : Factory σ ι} {given asked : Keywords}
  {i : ι}

end ChangeReview.Registry
