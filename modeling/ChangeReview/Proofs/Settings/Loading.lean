import ChangeReview.Proofs.Decimal.ExactDoubles
import ChangeReview.Proofs.Workflow.Arguments
import ChangeReview.Workflow.Outcome

/-!
# Loading settings

Settings are loaded from an environment when every variable that is set holds what can be used;
otherwise the fault names a variable that does not. One text passes that should not: the limit of
cost may be the value that is no number, which no cost can be compared with.
-/
namespace ChangeReview.Settings

open Binary64

/-! ## What the variables may hold -/

/-- The variables whose texts are checked; a model may have any name. -/
inductive Variable where
  | provider | temperature | maxTokens | tokenBudget | maxCost | staticAnalysis | cache
  deriving DecidableEq

namespace Variable

def name : Variable → Text
  | .provider => "PR_ANALYZER_PROVIDER"
  | .temperature => "PR_ANALYZER_TEMPERATURE"
  | .maxTokens => "PR_ANALYZER_MAX_TOKENS"
  | .tokenBudget => "PR_ANALYZER_TOKEN_BUDGET"
  | .maxCost => "PR_ANALYZER_MAX_COST"
  | .staticAnalysis => "PR_ANALYZER_STATIC_ANALYSIS"
  | .cache => "PR_ANALYZER_CACHE"

/-- The variables in the order in which they are read. -/
def all : List Variable :=
  [.provider, .temperature, .maxTokens, .tokenBudget, .maxCost, .staticAnalysis, .cache]

end Variable

/-- A number between zero and two. -/
def IsTemperature (x : Float) : Prop := ∃ q, (ofFloat x).amount = .number q ∧ 0 ≤ q ∧ q ≤ 2

/-- A number from zero on, or no limit at all. -/
def IsLimit (x : Float) : Prop := (ofFloat x).amount.IsFrom 0

/-- The text is of use as the value of the variable. -/
def Variable.Accepts : Variable → Text → Prop
  | .provider, raw => Text.lower (Text.trim raw) ∈ supportedProviders
  | .temperature, raw => ∃ x, Decimal.readFloat? raw = some x ∧ IsTemperature x
  | .maxTokens, raw | .tokenBudget, raw => ∃ n, Decimal.readInt? raw = some n ∧ 1 ≤ n
  | .maxCost, raw => ∃ x, Decimal.readFloat? raw = some x ∧ IsLimit x
  | .staticAnalysis, raw | .cache, raw => Text.lower (Text.trim raw) ∈ onWords ++ offWords

/-- The text is a limit of cost that is no number. -/
def Variable.Overlooked (v : Variable) (raw : Text) : Prop :=
  v = .maxCost ∧ ∃ x, Decimal.readFloat? raw = some x ∧ ofFloat x = .nan

/-- The text passes the check of the variable. -/
def Variable.Passes (v : Variable) (raw : Text) : Prop := v.Accepts raw ∨ v.Overlooked raw

theorem Variable.passes_iff {v : Variable} (hv : v ≠ .maxCost) (raw : Text) :
    v.Passes raw ↔ v.Accepts raw :=
  or_iff_left fun h => hv h.1

/-- What reading some variables comes to: a fault that names one of them whose text is not accepted,
or something good, when the texts of all that are set are accepted. -/
inductive Reading (accepts : Variable → Text → Prop) (env : Environment) (vs : List Variable)
    {α : Type} (good : α → Prop) : Except Fault α → Prop
  | refused {v : Variable} {raw reason : Text} : v ∈ vs → find? env v.name = some raw →
      ¬ accepts v raw → Reading accepts env vs good (.error (.configuration reason (some v.name)))
  | read {a : α} : (∀ v ∈ vs, ∀ raw ∈ find? env v.name, accepts v raw) → good a →
      Reading accepts env vs good (.ok a)

section Reading

variable {accepts : Variable → Text → Prop} {env : Environment} {v : Variable} {raw : Text}
  {α β : Type} {good : α → Prop} {a : α}

/-- One reading behind another. -/
theorem Reading.bind {vs ws : List Variable} {good' : β → Prop} {r : Except Fault α}
    {f : α → Except Fault β} (h : Reading accepts env vs good r)
    (hf : ∀ a, good a → Reading accepts env ws good' (f a)) :
    Reading accepts env (vs ++ ws) good' (r >>= f) := by
  cases h with
  | refused hv hraw hnot => exact .refused (List.mem_append_left ws hv) hraw hnot
  | @read a hvs ha =>
    show Reading accepts env (vs ++ ws) good' (f a)
    have hrest := hf a ha
    generalize f a = r' at hrest
    cases hrest with
    | refused hv hraw hnot => exact .refused (List.mem_append_right vs hv) hraw hnot
    | read hws hb =>
      refine .read (fun v hv => ?_) hb
      exact (List.mem_append.mp hv).elim (hvs v) (hws v)

theorem reading_nothing (ha : good a) : Reading accepts env [] good (.ok a) :=
  .read (fun _ hv => absurd hv List.not_mem_nil) ha

theorem reading_absent (h : find? env v.name = none) (ha : good a) :
    Reading accepts env [v] good (.ok a) := by
  refine .read (fun w hw raw hraw => ?_) ha
  rw [List.mem_singleton.mp hw, h] at hraw
  cases hraw

theorem reading_accepted (h : find? env v.name = some raw) (hraw : accepts v raw) (ha : good a) :
    Reading accepts env [v] good (.ok a) := by
  refine .read (fun w hw raw' hraw' => ?_) ha
  rw [List.mem_singleton.mp hw, h] at hraw'
  rwa [List.mem_singleton.mp hw, ← Option.some.inj hraw']

theorem reading_refused (h : find? env v.name = some raw) (hraw : ¬ accepts v raw)
    (reason : Text) : Reading accepts env [v] good (bad v.name reason) :=
  .refused (List.mem_singleton.mpr rfl) h hraw

end Reading

/-! ## Words -/

theorem reading_provider (env : Environment) :
    Reading Variable.Passes env [.provider] (· ∈ supportedProviders) (readProvider env) := by
  unfold readProvider
  dsimp only
  cases hraw : find? env "PR_ANALYZER_PROVIDER" with
  | none =>
    have hdefault : Text.lower (Text.trim "bedrock") ∈ supportedProviders := by decide
    rw [Option.getD_none, if_pos (List.contains_iff_mem.mpr hdefault)]
    exact reading_absent hraw hdefault
  | some raw =>
    have hpasses := Variable.passes_iff (v := .provider) (by decide) raw
    rw [Option.getD_some]
    by_cases hword : Text.lower (Text.trim raw) ∈ supportedProviders
    · rw [if_pos (List.contains_iff_mem.mpr hword)]
      exact reading_accepted hraw (hpasses.mpr hword) hword
    · rw [if_neg (mt List.contains_iff_mem.mp hword)]
      exact reading_refused hraw (mt hpasses.mp hword) _

/-- A switch is read from a variable that takes the words for on and off. -/
theorem reading_switch (default : Bool) (env : Environment) {v : Variable}
    (hv : ∀ raw, v.Passes raw ↔ Text.lower (Text.trim raw) ∈ onWords ++ offWords) :
    Reading Variable.Passes env [v] (fun _ => True) (readSwitch default env v.name) := by
  unfold readSwitch
  cases hraw : find? env v.name with
  | none => exact reading_absent hraw trivial
  | some raw =>
    have hpasses := (hv raw).trans List.mem_append
    dsimp only
    by_cases hon : Text.lower (Text.trim raw) ∈ onWords
    · rw [if_pos (List.contains_iff_mem.mpr hon)]
      exact reading_accepted hraw (hpasses.mpr (.inl hon)) trivial
    rw [if_neg (mt List.contains_iff_mem.mp hon)]
    by_cases hoff : Text.lower (Text.trim raw) ∈ offWords
    · rw [if_pos (List.contains_iff_mem.mpr hoff)]
      exact reading_accepted hraw (hpasses.mpr (.inr hoff)) trivial
    · rw [if_neg (mt List.contains_iff_mem.mp hoff)]
      exact reading_refused hraw (mt hpasses.mp (not_or.mpr ⟨hon, hoff⟩)) _

/-! ## Numbers -/

section Numbers

variable {α : Type} (v : Variable) (read : Text → Option α) (default : α) (good : α → Prop)

/-- The variable takes the numbers in a range, and its default is one. -/
structure HasRange : Prop where
  passes_iff : ∀ raw, v.Passes raw ↔ ∃ a, read raw = some a ∧ good a
  default : good default

/-- The number is read from the variable's text, or it is the default. -/
inductive Given (env : Environment) : α → Prop
  | absent : find? env v.name = none → Given env default
  | given {raw : Text} {a : α} : find? env v.name = some raw → read raw = some a → Given env a

/-- What is read of a number before its range is checked. -/
inductive NumberRead (env : Environment) : Except Fault α → Prop
  | unreadable {raw reason : Text} : find? env v.name = some raw → read raw = none →
      NumberRead env (.error (.configuration reason (some v.name)))
  | number {a : α} : Given v read default env a → NumberRead env (.ok a)

theorem numberRead (env : Environment) :
    NumberRead v read default env (readNumber read default env v.name) := by
  unfold readNumber
  cases hraw : find? env v.name with
  | none => exact .number (.absent hraw)
  | some raw =>
    dsimp only
    cases hread : read raw with
    | none => exact .unreadable hraw hread
    | some a => exact .number (.given hraw hread)

variable {v read default good} {env : Environment} {a : α} {raw : Text}

theorem HasRange.not_passes (h : HasRange v read default good) (hread : read raw = none) :
    ¬ v.Passes raw := by
  intro hpasses
  obtain ⟨a, ha, -⟩ := (h.passes_iff raw).mp hpasses
  rw [hread] at ha
  cases ha

/-- A number is in the variable's range just if the text that it is read from passes. -/
theorem HasRange.good_iff (h : HasRange v read default good) (ha : Given v read default env a) :
    good a ↔ ∀ raw ∈ find? env v.name, v.Passes raw := by
  cases ha with
  | absent habsent => simp [habsent, h.default]
  | given hraw hread => simp [hraw, h.passes_iff, hread]

theorem HasRange.exists_refused (h : HasRange v read default good)
    (ha : Given v read default env a) (hnot : ¬ good a) :
    ∃ raw, find? env v.name = some raw ∧ ¬ v.Passes raw := by
  simpa using mt (h.good_iff ha).mpr hnot

/-- Reading a number and checking its range. -/
theorem HasRange.reading (h : HasRange v read default good) {check : α → Except Fault α}
    (hgood : ∀ a, good a → check a = .ok a)
    (hbad : ∀ a, ¬ good a → ∃ reason, check a = bad v.name reason) :
    Reading Variable.Passes env [v] good (readNumber read default env v.name >>= check) := by
  have hnumber := numberRead v read default env
  generalize readNumber read default env v.name = r at hnumber
  cases hnumber with
  | unreadable hraw hread => exact reading_refused hraw (h.not_passes hread) _
  | @number a ha =>
    show Reading Variable.Passes env [v] good (check a)
    by_cases hrange : good a
    · rw [hgood a hrange]
      refine .read (fun w hw => ?_) hrange
      rw [List.mem_singleton.mp hw]
      exact (h.good_iff ha).mp hrange
    · obtain ⟨reason, hreason⟩ := hbad a hrange
      obtain ⟨raw, hraw, hnot⟩ := h.exists_refused ha hrange
      rw [hreason]
      exact reading_refused hraw hnot reason

end Numbers

theorem ofFloat_zero : (ofFloat 0.0).amount = .number 0 := by
  have hbits : ofFloat 0.0 = .finite false 0 (-1074) := by decide +kernel
  rw [hbits, amount_zero]

theorem ofFloat_two : (ofFloat 2.0).amount = .number 2 := by
  have hbits : ofFloat 2.0 = .finite false (2 ^ 52) (-51) := by decide +kernel
  rw [hbits, amount]
  norm_num

/-- The check of a temperature. -/
theorem isTemperature_iff (x : Float) : (0.0 ≤ x ∧ x ≤ 2.0) ↔ IsTemperature x := by
  rw [le_iff_isFrom ofFloat_zero, le_iff_isUpTo ofFloat_two]
  exact Amount.isFrom_and_isUpTo

/-- The check of a limit. -/
theorem not_lt_zero_iff (x : Float) : ¬ x < 0.0 ↔ IsLimit x ∨ ofFloat x = .nan :=
  not_lt_iff ofFloat_zero

theorem hasRange_temperature :
    HasRange .temperature Decimal.readFloat? 0.2 IsTemperature where
  passes_iff := Variable.passes_iff (by decide)
  default := (isTemperature_iff _).mp (by decide +kernel)

theorem hasRange_maxTokens : HasRange .maxTokens Decimal.readInt? 4000 (1 ≤ ·) where
  passes_iff := Variable.passes_iff (by decide)
  default := by decide

theorem hasRange_tokenBudget : HasRange .tokenBudget Decimal.readInt? 100000 (1 ≤ ·) where
  passes_iff := Variable.passes_iff (by decide)
  default := by decide

theorem hasRange_maxCost :
    HasRange .maxCost Decimal.readFloat? 5.0 fun x => IsLimit x ∨ ofFloat x = .nan where
  passes_iff raw := by
    simp only [Variable.Passes, Variable.Accepts, Variable.Overlooked, true_and, and_or_left,
      exists_or]
  default := (not_lt_zero_iff _).mp (by decide +kernel)

theorem reading_temperature (env : Environment) :
    Reading Variable.Passes env [.temperature] IsTemperature (readTemperature env) := by
  have hcheck (t : Float) : (decide (0.0 ≤ t) && decide (t ≤ 2.0)) = true ↔ IsTemperature t := by
    rw [Bool.and_eq_true, decide_eq_true_iff, decide_eq_true_iff, isTemperature_iff]
  refine hasRange_temperature.reading (fun t ht => ?_) (fun t ht => ?_)
  · rw [if_pos ((hcheck t).mpr ht)]
    rfl
  · exact ⟨_, if_neg (mt (hcheck t).mp ht)⟩

theorem reading_maxTokens (env : Environment) :
    Reading Variable.Passes env [.maxTokens] (1 ≤ ·) (readMaxTokens env) := by
  refine hasRange_maxTokens.reading (fun n hn => ?_) (fun n hn => ?_)
  · rw [if_neg (by omega)]
    rfl
  · exact ⟨_, if_pos (by omega)⟩

/-- A budget of tokens and a limit of cost that pass, and where the limit is no number. -/
structure IsBudgets (env : Environment) (b : Int × Float) : Prop where
  tokens : 1 ≤ b.1
  cost : IsLimit b.2 ∨ ofFloat b.2 = .nan
  nan_iff : ofFloat b.2 = .nan ↔
    ∃ raw ∈ find? env Variable.maxCost.name, Variable.maxCost.Overlooked raw

theorem nan_iff_overlooked {env : Environment} {x : Float}
    (h : Given .maxCost Decimal.readFloat? 5.0 env x) :
    ofFloat x = .nan ↔
      ∃ raw ∈ find? env Variable.maxCost.name, Variable.maxCost.Overlooked raw := by
  cases h with
  | absent habsent =>
    have hnumber : ofFloat 5.0 ≠ .nan := by decide +kernel
    simp [habsent, hnumber]
  | given hraw hread => simp [hraw, Variable.Overlooked, hread]

/-- Both budgets are read before either is checked. -/
theorem reading_budgets (env : Environment) :
    Reading Variable.Passes env [.tokenBudget, .maxCost] (IsBudgets env) (readBudgets env) := by
  unfold readBudgets
  dsimp only
  have hbudget := numberRead .tokenBudget Decimal.readInt? 100000 env
  have hcost := numberRead .maxCost Decimal.readFloat? 5.0 env
  change NumberRead _ _ _ _ (readNumber Decimal.readInt? 100000 env "PR_ANALYZER_TOKEN_BUDGET")
    at hbudget
  change NumberRead _ _ _ _ (readNumber Decimal.readFloat? 5.0 env "PR_ANALYZER_MAX_COST") at hcost
  generalize readNumber Decimal.readInt? 100000 env "PR_ANALYZER_TOKEN_BUDGET" = r at hbudget
  generalize readNumber Decimal.readFloat? 5.0 env "PR_ANALYZER_MAX_COST" = r' at hcost
  cases hbudget with
  | unreadable hraw hread =>
    exact .refused List.mem_cons_self hraw (hasRange_tokenBudget.not_passes hread)
  | @number n hn =>
  cases hcost with
  | unreadable hraw hread =>
    exact .refused (List.mem_cons_of_mem _ List.mem_cons_self) hraw
      (hasRange_maxCost.not_passes hread)
  | @number x hx =>
  show Reading _ _ _ _ (if n ≤ 0 then _ else if x < 0.0 then _ else _)
  by_cases htokens : 1 ≤ n
  · rw [if_neg (by omega)]
    by_cases hlimit : IsLimit x ∨ ofFloat x = .nan
    · rw [if_neg ((not_lt_zero_iff x).mpr hlimit)]
      refine .read (fun v hv => ?_) ⟨htokens, hlimit, nan_iff_overlooked hx⟩
      rcases List.mem_pair.mp hv with rfl | rfl
      · exact (hasRange_tokenBudget.good_iff hn).mp htokens
      · exact (hasRange_maxCost.good_iff hx).mp hlimit
    · obtain ⟨raw, hraw, hnot⟩ := hasRange_maxCost.exists_refused hx hlimit
      rw [if_pos (not_not.mp (mt (not_lt_zero_iff x).mp hlimit))]
      exact .refused (List.mem_cons_of_mem _ List.mem_cons_self) hraw hnot
  · obtain ⟨raw, hraw, hnot⟩ := hasRange_tokenBudget.exists_refused hn htokens
    rw [if_pos (by omega)]
    exact .refused List.mem_cons_self hraw hnot

/-! ## Settings -/

/-- A run may be given the budget and the limit of the settings. -/
def Admitted (s : Settings) : Prop :=
  ∀ (a : Context.Arguments) (diff : Text), a.diff = .text diff → a.repository.truthy = true →
    ∃ c, Context.ofArguments { a with tokenBudget := s.tokenBudget, maxCost := s.maxCost } = .ok c ∧
      s.tokenBudget = .int c.tokenBudget ∧ c.maxCost = s.maxCost

/-- The settings can be used, whatever limit of cost is allowed. -/
structure Usable (limit : Float → Prop) (s : Settings) : Prop where
  provider : ∃ p ∈ supportedProviders, s.provider = .text p
  model : ∃ name, s.model = .text name ∧ name ≠ []
  temperature : ∃ x, s.temperature = .float x ∧ IsTemperature x
  maxTokens : ∃ n, s.maxTokens = .int n ∧ 1 ≤ n
  tokenBudget : ∃ n, s.tokenBudget = .int n ∧ 1 ≤ n
  maxCost : ∃ x, s.maxCost = .float x ∧ limit x
  admitted : s.Admitted

/-- A supported provider has a model of its own. -/
theorem readModel_ne_nil (env : Environment) {provider : Text} (h : provider ∈ supportedProviders) :
    readModel env provider ≠ [] := by
  have hown : ∀ p ∈ supportedProviders, defaultModel p ≠ [] := by decide
  unfold readModel
  split
  · exact List.cons_ne_nil _ _
  · exact hown provider h

theorem Usable.imp {p q : Float → Prop} {s : Settings} (h : Usable p s) (hpq : ∀ x, p x → q x) :
    Usable q s :=
  have ⟨x, hx, hp⟩ := h.maxCost
  { h with maxCost := ⟨x, hx, hpq x hp⟩ }

theorem admitted {s : Settings} {n : Int} {x : Float} (hbudget : s.tokenBudget = .int n)
    (hn : 1 ≤ n) (hcost : s.maxCost = .float x) (hx : IsLimit x ∨ ofFloat x = .nan) :
    s.Admitted := by
  intro a diff hdiff hrepository
  have hnonneg : Context.isNegative (.double x) = false :=
    Bool.eq_false_iff.mpr fun h => (not_lt_zero_iff x).mpr hx (decide_eq_true_iff.mp h)
  refine ⟨_, Context.ofArguments_eq_ok_iff.mpr ⟨diff, n, .double x, hdiff, hbudget, by omega, ?_,
    hnonneg, hrepository, rfl⟩, hbudget, rfl⟩
  rw [hcost]
  rfl

theorem reading_load (env : Environment) :
    Reading Variable.Passes env Variable.all
      (Usable fun x => (IsLimit x ∨ ofFloat x = .nan) ∧ (ofFloat x = .nan ↔
        ∃ raw ∈ find? env Variable.maxCost.name, Variable.maxCost.Overlooked raw))
      (load env) := by
  have hstatic := reading_switch true env (v := .staticAnalysis) (Variable.passes_iff (by decide))
  have hcache := reading_switch false env (v := .cache) (Variable.passes_iff (by decide))
  refine (reading_provider env).bind fun p hp => (reading_temperature env).bind fun t ht =>
    (reading_maxTokens env).bind fun n hn => (reading_budgets env).bind fun b hb =>
    hstatic.bind fun _ _ => hcache.bind fun _ _ => reading_nothing ?_
  exact {
    provider := ⟨p, hp, rfl⟩
    model := ⟨readModel env p, rfl, readModel_ne_nil env hp⟩
    temperature := ⟨t, rfl, ht⟩
    maxTokens := ⟨n, rfl, hn⟩
    tokenBudget := ⟨b.1, rfl, hb.tokens⟩
    maxCost := ⟨b.2, rfl, hb.cost, hb.nan_iff⟩
    admitted := admitted rfl hb.tokens rfl hb.cost }

/-- Every cost is either within the limit or above it. -/
def Compares (limit : Float) : Prop :=
  ∀ cost, ofFloat cost ≠ .nan → cost ≤ limit ∨ Workflow.exceeds cost (.double limit) = true

theorem IsLimit.ne_nan {x : Float} (h : IsLimit x) : ofFloat x ≠ .nan := by
  intro hnan
  rw [IsLimit, hnan] at h
  exact h

theorem IsLimit.compares {x : Float} (h : IsLimit x) : Compares x := by
  intro cost hcost
  rw [Workflow.exceeds, decide_eq_true_iff]
  exact le_or_lt_of_ne_nan hcost h.ne_nan

theorem not_compares_of_nan {x : Float} (h : ofFloat x = .nan) : ¬ Compares x := by
  intro hcompares
  have hzero : ofFloat 0.0 ≠ .nan := by decide +kernel
  have hvalue : (ofFloat x).amount = .notANumber := amount_eq_notANumber.mpr h
  rcases hcompares 0.0 hzero with hle | hgt
  · rw [le_iff_isFrom ofFloat_zero, hvalue] at hle
    exact hle
  · rw [Workflow.exceeds, decide_eq_true_iff, lt_iff, hvalue] at hgt
    cases hgt

/-- Every variable that is set passes its check, and the limit of cost is no number. -/
structure Overlooks (env : Environment) : Prop where
  passes : ∀ v ∈ Variable.all, ∀ raw ∈ find? env v.name, v.Passes raw
  nan : ∃ raw ∈ find? env Variable.maxCost.name, Variable.maxCost.Overlooked raw

variable {env : Environment}

theorem reading_of_not_overlooks (h : ¬ Overlooks env) :
    Reading Variable.Accepts env Variable.all (Usable fun x => IsLimit x ∧ Compares x)
      (load env) := by
  have hload := reading_load env
  generalize load env = r at hload
  cases hload with
  | refused hv hraw hnot => exact .refused hv hraw (mt .inl hnot)
  | read hpasses hs =>
    have hnone : ¬ ∃ raw ∈ find? env Variable.maxCost.name, Variable.maxCost.Overlooked raw :=
      fun hnan => h ⟨hpasses, hnan⟩
    refine .read (fun v hv raw hraw => ?_) (hs.imp fun x hx => ?_)
    · refine (hpasses v hv raw hraw).resolve_right fun hover => ?_
      obtain rfl := hover.1
      exact hnone ⟨raw, hraw, hover⟩
    · have hlimit : IsLimit x := hx.1.resolve_right fun hnan => hnone (hx.2.mp hnan)
      exact ⟨hlimit, hlimit.compares⟩

theorem exists_of_overlooks (h : Overlooks env) :
    ∃ s, load env = .ok s ∧ s.Usable fun x => ofFloat x = .nan ∧ ¬ Compares x := by
  have hload := reading_load env
  generalize load env = r at hload
  cases hload with
  | refused hv hraw hnot => exact absurd (h.passes _ hv _ hraw) hnot
  | @read s _ hs =>
    refine ⟨s, rfl, hs.imp fun x hx => ?_⟩
    have hnan := hx.2.mpr h.nan
    exact ⟨hnan, not_compares_of_nan hnan⟩

/-- A limit that no cost can be compared with is not one that can be used. -/
theorem Reading.not_overlooked {accepts : Variable → Text → Prop} {vs : List Variable}
    {r : Except Fault Settings}
    (h : Reading accepts env vs (Usable fun x => IsLimit x ∧ Compares x) r) :
    ¬ ∃ s, r = .ok s ∧ s.Usable fun x => ofFloat x = .nan ∧ ¬ Compares x := by
  rintro ⟨s, rfl, hs⟩
  cases h with
  | read _ hgood =>
    obtain ⟨x, hx, -, hcompares⟩ := hgood.maxCost
    obtain ⟨y, hy, -, hnot⟩ := hs.maxCost
    obtain rfl := Value.float.inj (hx.symm.trans hy)
    exact hnot hcompares

/-- Loading settings either names a variable that is set to what cannot be used, or gives settings
that can be used and that a run may be made with, exactly unless the limit of cost is overlooked.
Then they are loaded with a limit that no cost can be compared with. -/
theorem load_reading_iff (env : Environment) :
    (Reading Variable.Accepts env Variable.all (Usable fun x => IsLimit x ∧ Compares x) (load env) ↔
      ¬ Overlooks env) ∧
    ((∃ s, load env = .ok s ∧ s.Usable fun x => ofFloat x = .nan ∧ ¬ Compares x) ↔
      Overlooks env) := by
  refine ⟨⟨fun h hover => ?_, reading_of_not_overlooks⟩, ⟨fun hs => ?_, exists_of_overlooks⟩⟩
  · exact h.not_overlooked (exists_of_overlooks hover)
  · by_contra hnone
    exact (reading_of_not_overlooks hnone).not_overlooked hs

/-- The limit of cost may be the value that is no number. -/
theorem load_nan :
    (∃ s, load [("PR_ANALYZER_MAX_COST", "nan")] = .ok s ∧
      s.Usable fun x => ofFloat x = .nan ∧ ¬ Compares x) ∧
    ¬ Reading Variable.Accepts [("PR_ANALYZER_MAX_COST", "nan")] Variable.all
      (Usable fun x => IsLimit x ∧ Compares x) (load [("PR_ANALYZER_MAX_COST", "nan")]) := by
  have hnan : Variable.maxCost.Overlooked "nan" :=
    ⟨rfl, Binary64.assemble false nanBits, rfl, by decide +kernel⟩
  have hover : Overlooks [("PR_ANALYZER_MAX_COST", "nan")] := by
    refine ⟨fun v _ raw hraw => ?_, _, rfl, hnan⟩
    cases v with
    | maxCost =>
      obtain rfl := Option.some.inj hraw
      exact .inr hnan
    | _ => cases hraw
  have hloaded := exists_of_overlooks hover
  exact ⟨hloaded, fun h => h.not_overlooked hloaded⟩

end ChangeReview.Settings
