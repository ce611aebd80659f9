import ChangeReview.Proofs.Decimal.FiniteDoubles
import ChangeReview.Usage.Pricing

/-!
# The range of costs

The cost of any count of tokens below a generous power of two is a finite number of dollars. No
price is above thirty dollars, so a product and a sum raise the exponent by a few steps only.
-/
namespace ChangeReview.Usage

open Binary64

/-- A price is small. -/
def Pricing.IsSmall (p : Pricing) : Prop := field p.input ≤ 1027 ∧ field p.output ≤ 1027

instance (p : Pricing) : Decidable p.IsSmall := inferInstanceAs (Decidable (_ ∧ _))

theorem isSmall_defaultPricing : defaultPricing.IsSmall := by decide

theorem isSmall_pricedModels : ∀ e ∈ pricedModels, e.2.IsSmall := by decide

/-- A model has the prices of the list, or those of the default model under another label. -/
theorem pricing_cases (model : Text) :
    pricing model = { defaultPricing with label := "unknown" } ∨
      ∃ e ∈ pricedModels, pricing model = e.2 := by
  unfold pricing
  cases hlookup : pricedModels.lookup model with
  | none => exact .inl rfl
  | some p =>
    obtain ⟨before, after, hsplit, -⟩ := List.lookup_eq_some_iff.mp hlookup
    refine .inr ⟨(model, p), ?_, rfl⟩
    rw [hsplit]
    simp

theorem isSmall_pricing (model : Text) : (pricing model).IsSmall := by
  rcases pricing_cases model with hdefault | ⟨e, he, hpriced⟩
  · rw [hdefault]
    exact isSmall_defaultPricing
  · rw [hpriced]
    exact isSmall_pricedModels e he

/-- The cost of counts below a power of two is a finite number. -/
theorem Pricing.cost_finite {p : Pricing} (hp : p.IsSmall) {input output : Int} {k : Nat}
    (hk : k ≤ 980) (hinput : input.natAbs < 2 ^ k) (houtput : output.natAbs < 2 ^ k) :
    ∃ x, p.cost input output = .ok x ∧ field x < 2047 := by
  obtain ⟨i, hi, hfieldi⟩ := Decimal.nearest_of_lt hinput (by omega)
  obtain ⟨o, ho, hfieldo⟩ := Decimal.nearest_of_lt houtput (by omega)
  have hleft : field (i * p.input) ≤ k + 1030 :=
    field_mul hfieldi (by omega) hp.1 (by decide) (by omega) (by omega) (by omega)
  have hright : field (o * p.output) ≤ k + 1030 :=
    field_mul hfieldo (by omega) hp.2 (by decide) (by omega) (by omega) (by omega)
  have hsum : field (i * p.input + o * p.output) ≤ k + 1032 :=
    field_add hleft (by omega) hright (by omega) (by omega) (by omega)
  have hmillion : (1000000.0 : Float).toModel.unpack =
      .finite .positive (1000000 * 2 ^ 33) (-33) (by decide) := by rfl
  have hcost : field ((i * p.input + o * p.output) / 1000000.0) ≤ k + 1066 :=
    field_div hsum (by omega) hmillion (by omega) (by omega) (by omega)
  refine ⟨(i * p.input + o * p.output) / 1000000.0, ?_, by omega⟩
  unfold Pricing.cost
  rw [hi, ho]
  rfl

/-- Any model that can be a key has prices. -/
theorem exists_pricingOf {model : Value} (hmodel : model.isKey = true) :
    ∃ name, pricingOf model = .ok (pricing name) := by
  unfold pricingOf
  split
  · exact ⟨_, rfl⟩
  · exact ⟨[], by rw [if_pos hmodel]⟩

/-- Any model that can be a key has a finite cost, since models without a price cost the default. -/
theorem estimateCost_finite {model : Value} (hmodel : model.isKey = true) {input output : Int}
    {k : Nat} (hk : k ≤ 980) (hinput : input.natAbs < 2 ^ k) (houtput : output.natAbs < 2 ^ k) :
    ∃ x, estimateCost model input output = .ok x ∧ field x < 2047 := by
  obtain ⟨name, hname⟩ := exists_pricingOf hmodel
  unfold estimateCost
  rw [hname]
  exact Pricing.cost_finite (isSmall_pricing name) hk hinput houtput

/-! ## No tokens -/

theorem cost_zero_defaultPricing : defaultPricing.cost 0 0 = .ok 0.0 := rfl

theorem cost_zero_pricedModels : ∀ e ∈ pricedModels, e.2.cost 0 0 = .ok 0.0 := by
  unfold pricedModels
  simp only [List.forall_mem_cons]
  exact ⟨rfl, rfl, rfl, rfl, rfl, rfl, fun e he => absurd he List.not_mem_nil⟩

theorem cost_zero_pricing (model : Text) : (pricing model).cost 0 0 = .ok 0.0 := by
  rcases pricing_cases model with hdefault | ⟨e, he, hpriced⟩
  · rw [hdefault]
    exact cost_zero_defaultPricing
  · rw [hpriced]
    exact cost_zero_pricedModels e he

/-- No tokens cost nothing, under any model that can be a key; no other model has a cost. -/
theorem estimateCost_zero_cases (model : Value) :
    (model.isKey = true ∧ estimateCost model 0 0 = .ok 0.0) ∨
      (model.isKey = false ∧ ∃ fault, estimateCost model 0 0 = .error fault) := by
  cases hmodel : model.isKey with
  | true =>
    obtain ⟨name, hname⟩ := exists_pricingOf hmodel
    refine .inl ⟨rfl, ?_⟩
    unfold estimateCost
    rw [hname, ok_bind, cost_zero_pricing]
  | false =>
    have hpricing : pricingOf model = .error (.mismatch (.notAKey model.kind)) := by
      unfold pricingOf
      split
      · exact absurd hmodel (by simp [Value.isKey])
      · rw [hmodel]
        rfl
    refine .inr ⟨rfl, .mismatch (.notAKey model.kind), ?_⟩
    unfold estimateCost
    rw [hpricing, error_bind]

end ChangeReview.Usage
