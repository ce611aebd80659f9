import ChangeReview.Backend.Basic
import ChangeReview.Provider.Client

/-!
# The standard registry

Every provider is registered under its name.
-/
namespace ChangeReview.Provider

/-- The registry in which every provider has a factory. -/
def registry {σ ι : Type} (factory : Provider → Factory σ ι) : Registry σ ι :=
  all.foldl (fun r p => r.register p.name (factory p)) {}

/-- Builds clients, and adds to what was built for them. -/
def clientFactory (env : Environment) (p : Provider) : Factory (List Built) Client :=
  fun built options =>
    match connect p env options false with
    | .ok (c, more) => (built ++ more, .ok c)
    | .error fault => (built, .error fault)

end ChangeReview.Provider
