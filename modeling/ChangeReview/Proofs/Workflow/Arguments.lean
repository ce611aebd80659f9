import ChangeReview.Workflow.Context

/-!
# Arguments of a context

Four arguments are checked: the diff has to be a text, the budget a whole number above zero, the limit
of cost a number that is not below zero, and the repository must not be empty. Where all four pass, the
context holds the arguments as they were given.
-/
namespace ChangeReview.Context

theorem checkDiff_eq_ok_iff {v : Value} {diff : Text} : checkDiff v = .ok diff ↔ v = .text diff := by
  cases v <;> simp [checkDiff, bad]

theorem checkBudget_eq_ok_iff {v : Value} {n : Int} : checkBudget v = .ok n ↔ v = .int n ∧ 0 < n := by
  unfold checkBudget
  split
  · next m =>
    split
    · next hlow =>
      refine iff_of_false (by simp [bad]) ?_
      rintro ⟨hsame, hpos⟩
      obtain rfl := Value.int.inj hsame
      omega
    · next hpos =>
      constructor
      · intro h
        obtain rfl := Except.ok.inj h
        exact ⟨rfl, by omega⟩
      · rintro ⟨hsame, -⟩
        rw [Value.int.inj hsame]
  · next hother => exact iff_of_false (by simp [bad]) fun h => hother n h.1

theorem checkCost_eq_ok_iff {v limit : Value} :
    checkCost v = .ok limit ↔ v = limit ∧ ∃ n, v.number? = some n ∧ isNegative n = false := by
  unfold checkCost
  cases v.number? with
  | none => simp
  | some n =>
    cases hnegative : isNegative n <;> simp [hnegative, bad]

theorem checkRepository_eq_ok_iff {v repository : Value} :
    checkRepository v = .ok repository ↔ v = repository ∧ v.truthy = true := by
  unfold checkRepository
  split
  · next htruthy => simp [htruthy]
  · next hempty => simp [hempty, bad]

/-- The context that holds the arguments, with the diff and the budget for what they are. -/
def Arguments.context (a : Arguments) (diff : Text) (tokenBudget : Int) : Context where
  diff := diff
  title := a.title
  files := a.files
  tokenBudget := tokenBudget
  maxCost := a.maxCost
  mode := a.mode
  language := a.language
  framework := a.framework
  wantsScan := a.wantsScan
  docs := a.docs
  repository := a.repository
  scanOptions := a.scanOptions

/-- Which arguments make a context, and which one. -/
theorem ofArguments_eq_ok_iff {a : Arguments} {c : Context} :
    ofArguments a = .ok c ↔ ∃ diff tokenBudget limit, a.diff = .text diff ∧
      a.tokenBudget = .int tokenBudget ∧ 0 < tokenBudget ∧ a.maxCost.number? = some limit ∧
      isNegative limit = false ∧ a.repository.truthy = true ∧ c = a.context diff tokenBudget := by
  constructor
  · intro h
    unfold ofArguments at h
    obtain ⟨diff, hdiff, h⟩ := exists_of_bind_eq_ok h
    obtain ⟨tokenBudget, hbudget, h⟩ := exists_of_bind_eq_ok h
    obtain ⟨maxCost, hcost, h⟩ := exists_of_bind_eq_ok h
    obtain ⟨repository, hrepository, h⟩ := exists_of_bind_eq_ok h
    obtain ⟨hbudget, hpos⟩ := checkBudget_eq_ok_iff.mp hbudget
    obtain ⟨rfl, limit, hlimit, hnonneg⟩ := checkCost_eq_ok_iff.mp hcost
    obtain ⟨rfl, htruthy⟩ := checkRepository_eq_ok_iff.mp hrepository
    exact ⟨diff, tokenBudget, limit, checkDiff_eq_ok_iff.mp hdiff, hbudget, hpos, hlimit, hnonneg,
      htruthy, (Except.ok.inj h).symm⟩
  · rintro ⟨diff, tokenBudget, limit, hdiff, hbudget, hpos, hlimit, hnonneg, htruthy, rfl⟩
    unfold ofArguments
    rw [checkDiff_eq_ok_iff.mpr hdiff, checkBudget_eq_ok_iff.mpr ⟨hbudget, hpos⟩,
      checkCost_eq_ok_iff.mpr ⟨rfl, limit, hlimit, hnonneg⟩,
      checkRepository_eq_ok_iff.mpr ⟨rfl, htruthy⟩]
    rfl

end ChangeReview.Context
