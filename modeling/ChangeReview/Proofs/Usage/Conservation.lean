import ChangeReview.Proofs.Decimal.QuotientRange
import ChangeReview.Proofs.Usage.Grouping
import Mathlib.Algebra.Field.Rat
import Mathlib.Algebra.Group.Int.Defs
import Mathlib.Algebra.Group.Nat.Defs
import Mathlib.Algebra.Group.Prod
import Mathlib.Tactic.Ring

/-!
# Statistics conserve

The groups of an overview, by stage and by price label, and its grand total are three accounts of
the same records: what they count adds up alike. Costs are sums of roundings and do not add up
exactly; in exact arithmetic they do, and the costs of the two directions make the cost of every
record.
-/
namespace ChangeReview.Usage

/-! ## Arithmetics -/

/-- What costs are computed with. -/
structure Arithmetic (α : Type) where
  zero : α
  add : α → α → α
  mul : α → α → α
  div : α → α → α
  whole : Int → Except Fault α
  double : Float → α

/-- Sums over some records whose costs are computed in some arithmetic. -/
structure Sums (α : Type) where
  calls : Nat := 0
  input : Int := 0
  output : Int := 0
  inputCost : α
  outputCost : α
  milliseconds : Int := 0

namespace Arithmetic

variable {α : Type} (A : Arithmetic α)

/-- The cost of tokens in dollars. -/
def cost (p : Pricing) (input output : Int) : Except Fault α := do
  let i ← A.whole input
  let o ← A.whole output
  return A.div (A.add (A.mul i (A.double p.input)) (A.mul o (A.double p.output)))
    (A.double 1000000.0)

/-- The cost of one run's tokens in dollars. -/
def estimate (model : Text) (input output : Int) : Except Fault α :=
  A.cost (pricing model) input output

/-- The sums over no record. -/
def empty : Sums α := { inputCost := A.zero, outputCost := A.zero }

/-- The sums with one more record. -/
def count (s : Sums α) (r : Record) : Except Fault (Sums α) := do
  let inputCost ← A.cost r.pricing r.input 0
  let outputCost ← A.cost r.pricing 0 r.output
  return {
    calls := s.calls + 1
    input := s.input + r.input
    output := s.output + r.output
    inputCost := A.add s.inputCost inputCost
    outputCost := A.add s.outputCost outputCost
    milliseconds := s.milliseconds + r.milliseconds }

/-- The cost of both directions. -/
def total (s : Sums α) : α := A.add s.inputCost s.outputCost

/-- Doubles, with the nearest one for a whole number. -/
def doubles : Arithmetic Float where
  zero := 0.0
  add := (· + ·)
  mul := (· * ·)
  div := (· / ·)
  whole := Decimal.nearest
  double x := x

/-- Numbers without rounding, with the exact values of doubles. -/
def exact : Arithmetic ℚ where
  zero := 0
  add := (· + ·)
  mul := (· * ·)
  div := (· / ·)
  whole n := .ok n
  double x := (Binary64.toRat? x).getD 0

end Arithmetic

open Arithmetic

/-! ## Statistics are sums in doubles -/

def Stats.sums (s : Stats) : Sums Float :=
  ⟨s.calls, s.input, s.output, s.inputCost, s.outputCost, s.milliseconds⟩

theorem Pricing.cost_eq (p : Pricing) (input output : Int) :
    p.cost input output = doubles.cost p input output := rfl

/-- The sums of statistics with one more record are those with one more in doubles. -/
theorem Stats.sums_add (s : Stats) (r : Record) : (s.add r).map sums = doubles.count s.sums r := by
  unfold add count
  rw [← Pricing.cost_eq, ← Pricing.cost_eq]
  cases r.pricing.cost r.input 0 with
  | error fault => rfl
  | ok i => cases r.pricing.cost 0 r.output <;> rfl

/-- Statistics and the cost of a run are computed in doubles. -/
structure InDoubles : Prop where
  start : Stats.sums {} = doubles.empty
  step : ∀ s r, (Stats.add s r).map Stats.sums = doubles.count s.sums r
  total : ∀ s : Stats, s.cost = doubles.total s.sums
  estimate : ∀ model input output,
    estimateCost (.text model) input output = doubles.estimate model input output

theorem inDoubles : InDoubles where
  start := rfl
  step := Stats.sums_add
  total _ := rfl
  estimate _ _ _ := rfl

theorem Groups.add_eq (name : Text) (r : Record) (gs : Groups) :
    Groups.add name r gs = takeInto Stats.add {} name r gs := by
  induction gs with
  | nil => rfl
  | cons g rest ih =>
    obtain ⟨n, s⟩ := g
    rw [Groups.add, takeInto, ih]

theorem Groups.ofRecords_eq (key : Record → Text) (records : List Record) :
    Groups.ofRecords key records = groupBy Stats.add {} key records := by
  unfold Groups.ofRecords groupBy
  simp only [Groups.add_eq]

/-! ## What is counted -/

/-- What a record adds to calls, input, output and duration. -/
def Record.counts (r : Record) : ℕ × ℤ × ℤ × ℤ := (1, r.input, r.output, r.milliseconds)

def Stats.counts (s : Stats) : ℕ × ℤ × ℤ × ℤ := (s.calls, s.input, s.output, s.milliseconds)

def Sums.counts {α : Type} (s : Sums α) : ℕ × ℤ × ℤ × ℤ :=
  (s.calls, s.input, s.output, s.milliseconds)

theorem measures_sums {α : Type} (A : Arithmetic α) :
    Measures A.count A.empty Sums.counts Record.counts where
  start := rfl
  step h := by
    obtain ⟨i, -, h⟩ := exists_of_bind_eq_ok h
    obtain ⟨o, -, h⟩ := exists_of_bind_eq_ok h
    obtain rfl := Except.ok.inj h
    rfl

theorem measures_stats : Measures Stats.add {} Stats.counts Record.counts where
  start := rfl
  step {s s' r} h := by
    have hsums := Stats.sums_add s r
    rw [h] at hsums
    exact (measures_sums doubles).step hsums.symm

/-- The groups by stage and by price label and the grand total are three accounts of the same
records, whose counts agree. -/
structure Conserves {S : Type} (step : S → Record → Except Fault S) (start : S)
    (counts : S → ℕ × ℤ × ℤ × ℤ) (records : List Record) (byStage byModel : List (Text × S))
    (grand : S) : Prop where
  stages : IsPartition step start (·.stage) records byStage
  models : IsPartition step start (·.pricing.label) records byModel
  all : records.foldlM step start = .ok grand
  stageCounts : (byStage.map fun g => counts g.2).sum = counts grand
  modelCounts : (byModel.map fun g => counts g.2).sum = counts grand

theorem conserves {S : Type} {step : S → Record → Except Fault S} {start grand : S}
    {counts : S → ℕ × ℤ × ℤ × ℤ} {records : List Record} {byStage byModel : List (Text × S)}
    (h : Measures step start counts Record.counts)
    (hstage : groupBy step start (·.stage) records = .ok byStage)
    (hmodel : groupBy step start (·.pricing.label) records = .ok byModel)
    (hall : records.foldlM step start = .ok grand) :
    Conserves step start counts records byStage byModel grand where
  stages := isPartition_groupBy hstage
  models := isPartition_groupBy hmodel
  all := hall
  stageCounts := (h.sum_groups hstage).trans (h.eq_sum hall).symm
  modelCounts := (h.sum_groups hmodel).trans (h.eq_sum hall).symm

/-! ## Where there is an overview -/

/-- The counts of the record have nearest doubles, so it has a cost. -/
def Record.HasCost (r : Record) : Prop :=
  r.input.natAbs < Binary64.wholeLimit ∧ r.output.natAbs < Binary64.wholeLimit

theorem Pricing.cost_ok_iff (p : Pricing) (input output : Int) :
    (∃ x, p.cost input output = .ok x) ↔
      input.natAbs < Binary64.wholeLimit ∧ output.natAbs < Binary64.wholeLimit :=
  bind_ok_iff (Decimal.nearest_eq_ok_iff input) fun _ _ =>
    (bind_pure_ok_iff _).trans (Decimal.nearest_eq_ok_iff output)

theorem Stats.add_ok_iff (s : Stats) (r : Record) : (∃ s', s.add r = .ok s') ↔ r.HasCost := by
  have hnone : (0 : Int).natAbs < Binary64.wholeLimit :=
    Nat.lt_of_lt_of_le (Nat.two_pow_pos _) Binary64.wholeLimit_bounds.1
  have hinput := r.pricing.cost_ok_iff r.input 0
  have houtput := r.pricing.cost_ok_iff 0 r.output
  rw [and_iff_left hnone] at hinput
  rw [and_iff_right hnone] at houtput
  exact bind_ok_iff hinput fun _ _ => (bind_pure_ok_iff _).trans houtput

/-- The three accounts that an overview brings together. -/
theorem Overview.ofRecords_eq_ok_iff {records : List Record} {o : Overview} :
    Overview.ofRecords records = .ok o ↔ records.foldlM Stats.add {} = .ok o.grand ∧
      groupBy Stats.add {} (·.stage) records = .ok o.byStage ∧
      groupBy Stats.add {} (·.pricing.label) records = .ok o.byModel := by
  unfold Overview.ofRecords Stats.ofRecords
  rw [Groups.ofRecords_eq, Groups.ofRecords_eq]
  constructor
  · intro h
    obtain ⟨grand, hgrand, h⟩ := exists_of_bind_eq_ok h
    obtain ⟨byStage, hstage, h⟩ := exists_of_bind_eq_ok h
    obtain ⟨byModel, hmodel, h⟩ := exists_of_bind_eq_ok h
    obtain rfl := Except.ok.inj h
    exact ⟨hgrand, hstage, hmodel⟩
  · rintro ⟨hgrand, hstage, hmodel⟩
    rw [hgrand, hstage, hmodel]
    rfl

/-- Records have an overview where each of them has a cost. -/
theorem Overview.ofRecords_ok_iff (records : List Record) :
    (∃ o, Overview.ofRecords records = .ok o) ↔ ∀ r ∈ records, r.HasCost := by
  have hall := foldlM_ok_iff Stats.add_ok_iff records {}
  constructor
  · rintro ⟨o, h⟩
    exact hall.mp ⟨o.grand, (ofRecords_eq_ok_iff.mp h).1⟩
  · intro h
    obtain ⟨grand, hgrand⟩ := hall.mpr h
    obtain ⟨byStage, hstage⟩ := (groupBy_ok_iff Stats.add_ok_iff (·.stage) records).mpr h
    obtain ⟨byModel, hmodel⟩ := (groupBy_ok_iff Stats.add_ok_iff (·.pricing.label) records).mpr h
    exact ⟨⟨byStage, byModel, grand⟩, ofRecords_eq_ok_iff.mpr ⟨hgrand, hstage, hmodel⟩⟩

/-! ## Costs without rounding -/

/-- The exact cost of a record. -/
def exactCost (r : Record) : ℚ :=
  let price (x : Float) : ℚ := (Binary64.toRat? x).getD 0
  (r.input * price r.pricing.input + r.output * price r.pricing.output) / price 1000000.0

theorem exact_estimate (r : Record) :
    exact.estimate r.model r.input r.output = .ok (exactCost r) := rfl

/-- Without rounding the costs of the two directions make the cost of a record. -/
theorem measures_total : Measures exact.count exact.empty exact.total exactCost where
  start := by simp [Arithmetic.total, Arithmetic.empty, exact]
  step {s s' r} h := by
    obtain ⟨i, hi, h⟩ := exists_of_bind_eq_ok h
    obtain ⟨o, ho, h⟩ := exists_of_bind_eq_ok h
    obtain rfl := Except.ok.inj h
    rw [← Except.ok.inj hi, ← Except.ok.inj ho]
    simp only [Arithmetic.total, exact, exactCost]
    push_cast
    ring

/-- The exact sums cost what their records cost. -/
def CostsAs (records : List Record) (s : Sums ℚ) : Prop :=
  ∃ costs, (records.mapM fun r => exact.estimate r.model r.input r.output) = .ok costs ∧
    exact.total s = costs.sum

theorem costsAs_of_foldlM {records : List Record} {s : Sums ℚ}
    (h : records.foldlM exact.count exact.empty = .ok s) : CostsAs records s := by
  refine ⟨records.map exactCost, ?_, measures_total.eq_sum h⟩
  simp only [exact_estimate]
  exact List.mapM_pure

theorem IsPartition.costsAs {key : Record → Text} {records : List Record}
    {gs : List (Text × Sums ℚ)} (h : IsPartition exact.count exact.empty key records gs) :
    ∀ g ∈ gs, CostsAs (records.filter fun r => key r = g.1) g.2 :=
  fun g hg => costsAs_of_foldlM (h.own g hg)

/-- Without rounding every record can be counted. -/
theorem exact_count_ok_iff (s : Sums ℚ) (r : Record) :
    (∃ s', exact.count s r = .ok s') ↔ True := iff_of_true ⟨_, rfl⟩ trivial

/-- Statistics conserve. Records have an overview where each of them has a cost, and then the groups
by stage and by price label are what their own records come to in order, and their calls, tokens and
durations add up to the grand total's. Costs are computed in doubles; without rounding all records
have these accounts, and each of them costs what its records cost. -/
theorem statistics_conserve (records : List Record) :
    ((∃ o, Overview.ofRecords records = .ok o) ↔ ∀ r ∈ records, r.HasCost) ∧
    (∀ o, Overview.ofRecords records = .ok o →
      Conserves Stats.add {} Stats.counts records o.byStage o.byModel o.grand) ∧
    InDoubles ∧
    ∃ byStage byModel grand,
      groupBy exact.count exact.empty (·.stage) records = .ok byStage ∧
      groupBy exact.count exact.empty (·.pricing.label) records = .ok byModel ∧
      Conserves exact.count exact.empty Sums.counts records byStage byModel grand ∧
      (∀ g ∈ byStage, CostsAs (records.filter fun r => r.stage = g.1) g.2) ∧
      (∀ g ∈ byModel, CostsAs (records.filter fun r => r.pricing.label = g.1) g.2) ∧
      CostsAs records grand := by
  refine ⟨Overview.ofRecords_ok_iff records, fun o h => ?_, inDoubles, ?_⟩
  · obtain ⟨hall, hstage, hmodel⟩ := Overview.ofRecords_eq_ok_iff.mp h
    exact conserves measures_stats hstage hmodel hall
  · have hevery : ∀ r ∈ records, True := fun _ _ => trivial
    obtain ⟨byStage, hstage⟩ := (groupBy_ok_iff exact_count_ok_iff (·.stage) records).mpr hevery
    obtain ⟨byModel, hmodel⟩ :=
      (groupBy_ok_iff exact_count_ok_iff (·.pricing.label) records).mpr hevery
    obtain ⟨grand, hall⟩ := (foldlM_ok_iff exact_count_ok_iff records exact.empty).mpr hevery
    have hconserves := conserves (measures_sums exact) hstage hmodel hall
    exact ⟨byStage, byModel, grand, hstage, hmodel, hconserves, hconserves.stages.costsAs,
      hconserves.models.costsAs, costsAs_of_foldlM hall⟩

/-- Three records of two stages; two of their models share a label. -/
def sharedLabel : List Record := [
  ⟨"1", "gpt-4o", "draft", 1000000, 0, 10⟩,
  ⟨"2", "claude-sonnet-4-5", "review", 100, 20, 5⟩,
  ⟨"3", "anthropic.claude-sonnet-4-6", "draft", 100, 20, 7⟩]

theorem statistics_conserve_shared_label :
    ∃ o, Overview.ofRecords sharedLabel = .ok o ∧
      Conserves Stats.add {} Stats.counts sharedLabel o.byStage o.byModel o.grand ∧
      Stats.counts o.grand = (3, 1000200, 40, 22) := by
  have hsome : (Overview.ofRecords sharedLabel).toOption.isSome = true := by decide +kernel
  cases ho : Overview.ofRecords sharedLabel with
  | error fault =>
    rw [ho] at hsome
    cases hsome
  | ok o =>
    have hconserves := (statistics_conserve sharedLabel).2.1 o ho
    exact ⟨o, rfl, hconserves, measures_stats.eq_sum hconserves.all⟩

/-- A count beyond the doubles has no cost, so a log that holds it has no statistics. -/
theorem overlong_count_lost :
    ¬ ∃ byStage byModel grand, Conserves Stats.add {} Stats.counts
      [⟨"1", "gpt-4o", "draft", (2 ^ 1024 : ℕ), 0, 5⟩] byStage byModel grand := by
  rintro ⟨byStage, byModel, grand, h⟩
  have hcosts := (foldlM_ok_iff Stats.add_ok_iff _ _).mp ⟨grand, h.all⟩
  obtain ⟨hinput, -⟩ := List.forall_mem_singleton.mp hcosts
  rw [Int.natAbs_natCast] at hinput
  exact lt_irrefl _ (hinput.trans Binary64.wholeLimit_bounds.2)

example : exact.estimate "gpt-4o" 1000000 0 = .ok (5 / 2) := by decide +kernel

end ChangeReview.Usage
