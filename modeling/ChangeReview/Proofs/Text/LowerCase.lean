import ChangeReview.Proofs.Text.Occurrences
import ChangeReview.Text.Case

/-!
# The lower case of a part

All characters but the capital sigma have their lower case to themselves, and that one looks around:
behind a character with case it has the final form unless such a one follows. So a part of a text
has the lower case it has alone, as long as nothing with case stands in front of it and, where it
closes in a capital sigma, nothing with case behind it either.
-/
namespace ChangeReview.Text

/-- The lower case of a part between two others, the one in front given from its end. -/
def lowerWithin (before after : Text) : Text → Text
  | [] => []
  | c :: r =>
    (if c == 'Σ' then if meetsCased before && !meetsCased (r ++ after) then ['ς'] else ['σ']
     else lowerChar c) ++ lowerWithin (c :: before) after r

/-- Only characters that case does not see follow the last capital sigma, and a character with case
is in front of it. -/
def ClosesInSigma (s : Text) : Prop :=
  ∃ front back, s = front ++ 'Σ' :: back ∧ meetsCased front.reverse = true ∧
    back.all isCaseIgnorable = true

theorem not_closesInSigma {s : Text} (h : 'Σ' ∉ s) : ¬ ClosesInSigma s := by
  rintro ⟨front, back, rfl, -⟩
  exact h (by simp)

/-! ## What stands around -/

theorem meetsCased_cons (c : Char) (t : Text) :
    meetsCased (c :: t) = if isCaseIgnorable c then meetsCased t else isCased c := by
  unfold meetsCased
  rw [List.dropWhile_cons]
  split <;> rfl

/-- A character that case does not see past and that has none closes the view. -/
theorem meetsCased_bar {c : Char} (hignore : isCaseIgnorable c = false) (hcase : isCased c = false)
    (t : Text) : meetsCased (c :: t) = false := by
  rw [meetsCased_cons, hignore, hcase]
  rfl

theorem meetsCased_append (s t : Text) :
    meetsCased (s ++ t) = if s.all isCaseIgnorable then meetsCased t else meetsCased s := by
  induction s with
  | nil => rfl
  | cons c s ih =>
    rw [List.cons_append, meetsCased_cons, meetsCased_cons, ih, List.all_cons]
    cases isCaseIgnorable c <;> rfl

theorem lowerWithin_before {b b' : Text} (h : meetsCased b = meetsCased b') (after s : Text) :
    lowerWithin b after s = lowerWithin b' after s := by
  induction s generalizing b b' with
  | nil => rfl
  | cons c s ih =>
    have hnext : meetsCased (c :: b) = meetsCased (c :: b') := by
      rw [meetsCased_cons, meetsCased_cons, h]
    rw [lowerWithin, lowerWithin, h, ih hnext]

/-- What follows a part bears on a capital sigma that closes it, and on nothing else. -/
theorem lowerWithin_after {before a a' s : Text}
    (h : ∀ front back, s = front ++ 'Σ' :: back → meetsCased (front.reverse ++ before) = true →
      back.all isCaseIgnorable = true → meetsCased a = meetsCased a') :
    lowerWithin before a s = lowerWithin before a' s := by
  induction s generalizing before with
  | nil => rfl
  | cons c s ih =>
    have hnext : lowerWithin (c :: before) a s = lowerWithin (c :: before) a' s := by
      refine ih fun front back hs hfront => h (c :: front) back (by rw [hs]; rfl) ?_
      simpa using hfront
    have hhead : c = 'Σ' → meetsCased before = true →
        meetsCased (s ++ a) = meetsCased (s ++ a') := by
      rintro rfl hbefore
      rw [meetsCased_append, meetsCased_append]
      split
      · next hall => exact h [] s rfl hbefore hall
      · rfl
    rw [lowerWithin, lowerWithin, hnext]
    by_cases hc : c = 'Σ'
    · cases hbefore : meetsCased before with
      | true => rw [hhead hc hbefore]
      | false => rfl
    · simp [hc]

theorem lowerAfter_append (before s t : Text) :
    lowerAfter before (s ++ t) = lowerWithin before t s ++ lowerAfter (s.reverse ++ before) t := by
  induction s generalizing before with
  | nil => rfl
  | cons c s ih =>
    rw [List.cons_append, lowerAfter, ih, lowerWithin, List.append_assoc, List.reverse_cons,
      List.append_assoc]
    rfl

theorem lower_eq (s : Text) : lower s = lowerWithin [] [] s := by
  have h := lowerAfter_append [] s []
  rwa [List.append_nil, lowerAfter, List.append_nil] at h

/-- The lower case of a part occurs in that of the whole. -/
theorem lower_infix {front s back : Text} (hfront : meetsCased front.reverse = false)
    (hback : meetsCased back = false ∨ ¬ ClosesInSigma s) :
    lower s <:+: lower (front ++ (s ++ back)) := by
  have halone : lowerWithin front.reverse back s = lower s := by
    have hbefore : meetsCased front.reverse = meetsCased [] := hfront
    rw [lower_eq, lowerWithin_before hbefore]
    refine lowerWithin_after fun inner last hs hinner hlast => ?_
    rcases hback with hback | hopen
    · exact hback
    · rw [List.append_nil] at hinner
      exact absurd ⟨inner, last, hs, hinner, hlast⟩ hopen
  have hwhole : lower (front ++ (s ++ back)) = lowerWithin [] (s ++ back) front ++
      (lower s ++ lowerAfter (s.reverse ++ front.reverse) back) := by
    rw [← halone, lower, lowerAfter_append, lowerAfter_append, List.append_nil]
  rw [hwhole]
  exact ⟨_, _, by rw [List.append_assoc]⟩

/-- A character that is its own lower case stays. -/
theorem mem_lower {c : Char} {t : Text} (hc : lowerChar c = [c]) (hsigma : c ≠ 'Σ') (h : c ∈ t) :
    c ∈ lower t := by
  suffices hfrom : ∀ before, c ∈ lowerAfter before t from hfrom []
  induction t with
  | nil => exact absurd h List.not_mem_nil
  | cons d t ih =>
    intro before
    rw [lowerAfter, List.mem_append]
    rcases List.mem_cons.mp h with rfl | h
    · left
      simp [hsigma, hc]
    · exact .inr (ih h (d :: before))

end ChangeReview.Text
