import ChangeReview.Decimal.Literal
import ChangeReview.Value.Number

/-!
# Prices

What the tokens of a model cost. Models without a price of their own cost as much as the default
model.
-/
namespace ChangeReview.Usage

/-- The prices of a model, in dollars for a million tokens. -/
structure Pricing where
  label : Text
  input : Float
  output : Float
  deriving DecidableEq

/-- The prices of the default model. -/
def defaultPricing : Pricing := ⟨"Sonnet", 3.0, 15.0⟩

/-- The models with prices of their own. -/
def pricedModels : List (Text × Pricing) := [
  ("eu.anthropic.claude-sonnet-4-6", defaultPricing),
  ("anthropic.claude-sonnet-4-6", defaultPricing),
  ("claude-sonnet-4-5", defaultPricing),
  ("gpt-4o", ⟨"GPT-4o", 2.5, 10.0⟩),
  ("gpt-4-turbo", ⟨"GPT-4 Turbo", 10.0, 30.0⟩),
  ("gemini-1.5-pro", ⟨"Gemini 1.5 Pro", 1.25, 5.0⟩)]

/-- The prices of a model. -/
def pricing (model : Text) : Pricing :=
  (pricedModels.lookup model).getD { defaultPricing with label := "unknown" }

/-- The cost of tokens in dollars. -/
def Pricing.cost (p : Pricing) (input output : Int) : Except Fault Float := do
  let i ← Decimal.nearest input
  let o ← Decimal.nearest output
  return (i * p.input + o * p.output) / 1000000.0

/-- The prices of a model whose name may be anything that can be a key. -/
def pricingOf : Value → Except Fault Pricing
  | .text model => .ok (pricing model)
  | v => if v.isKey then .ok (pricing []) else .error (.mismatch (.notAKey v.kind))

/-- The cost of one run's tokens in dollars. -/
def estimateCost (model : Value) (input output : Int) : Except Fault Float := do
  let p ← pricingOf model
  p.cost input output

end ChangeReview.Usage
