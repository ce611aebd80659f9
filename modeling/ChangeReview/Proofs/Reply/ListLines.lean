import ChangeReview.Proofs.Decimal.DigitSymbols
import ChangeReview.Proofs.Text.Blanks
import ChangeReview.Reply.Answers

/-!
# List lines

A list line is a marker with blanks behind it, and the item is what follows, without the blanks
around it. Only a line with nothing behind the blanks, of which there are two or more, gives an item
that is a blank itself.
-/
namespace ChangeReview.Reply

open Text (IsNeat isBlank isBlankText trim trimLeft trimRight)

/-- A bullet, or a number with a point or a parenthesis behind it. -/
inductive IsMarker : Text → Prop where
  | bullet {c : Char} : isBullet c = true → IsMarker [c]
  | number {digits : Text} {c : Char} : digits ≠ [] → (∀ d ∈ digits, Text.isDecimal d = true) →
      c = '.' ∨ c = ')' → IsMarker (digits ++ [c])

/-- How a list line is made up that shows the item. -/
inductive IsListLine : (line item : Text) → Prop where
  | neat {lead marker gap item tail : Text} : isBlankText lead = true → IsMarker marker →
      gap ≠ [] → isBlankText gap = true → item.IsNeat → isBlankText tail = true →
      IsListLine (lead ++ (marker ++ (gap ++ (item ++ tail)))) item
  | blank {lead marker gap : Text} {last : Char} : isBlankText lead = true → IsMarker marker →
      gap ≠ [] → isBlankText gap = true → isBlank last = true →
      IsListLine (lead ++ (marker ++ (gap ++ [last]))) [last]

/-- A marker with nothing behind it but blanks, two or more. -/
def IsHollow (line : Text) : Prop :=
  ∃ lead marker gap : Text, line = lead ++ (marker ++ gap) ∧ isBlankText lead = true ∧
    IsMarker marker ∧ isBlankText gap = true ∧ 2 ≤ gap.length

/-! ## Markers -/

theorem isBullet_cases {c : Char} (h : isBullet c = true) : c = '-' ∨ c = '*' ∨ c = '•' := by
  simpa [isBullet, or_assoc] using h

theorem isBullet_of_isDecimal {c : Char} (h : Text.isDecimal c = true) : isBullet c = false := by
  by_contra hbullet
  rcases isBullet_cases (by simpa using hbullet) with rfl | rfl | rfl <;> exact absurd h (by decide)

namespace IsMarker

variable {marker : Text}

/-- A marker starts with a bullet or a digit, which is no blank. -/
theorem exists_cons (h : IsMarker marker) :
    ∃ c r, marker = c :: r ∧ isBlank c = false ∧ (isBullet c = true ∨ Text.isDecimal c = true) := by
  cases h with
  | bullet hc =>
    refine ⟨_, [], rfl, ?_, .inl hc⟩
    rcases isBullet_cases hc with rfl | rfl | rfl <;> decide
  | number hne hdigits hend =>
    obtain ⟨d, digits, rfl⟩ := List.exists_cons_of_ne_nil hne
    have hd := hdigits d List.mem_cons_self
    exact ⟨d, _, rfl, Text.isBlank_decimal hd, .inr hd⟩

theorem afterMarker? (h : IsMarker marker) (rest : Text) :
    afterMarker? (marker ++ rest) = some rest := by
  cases h with
  | bullet hc => simp [Reply.afterMarker?, hc]
  | @number digits c hne hdigits hend =>
    have hstop : Text.isDecimal c = false := by rcases hend with rfl | rfl <;> decide
    have hfront : (digits ++ c :: rest).takeWhile Text.isDecimal = digits := by
      rw [List.takeWhile_append_of_pos hdigits, List.takeWhile_cons_of_neg (by simp [hstop]),
        List.append_nil]
    have htake : Text.takeSome? Text.isDecimal (digits ++ c :: rest) = some (digits, c :: rest) := by
      simp [Text.takeSome?, hfront, hne]
    obtain ⟨d, more, rfl⟩ := List.exists_cons_of_ne_nil hne
    have hd : isBullet d = false := isBullet_of_isDecimal (hdigits d List.mem_cons_self)
    simp only [List.cons_append] at htake
    simp only [Reply.afterMarker?, List.cons_append, List.append_assoc, List.nil_append, hd, htake]
    rcases hend with rfl | rfl <;> rfl

end IsMarker

theorem exists_marker {t rest : Text} (h : afterMarker? t = some rest) :
    ∃ marker, IsMarker marker ∧ t = marker ++ rest := by
  unfold afterMarker? at h
  split at h
  · exact absurd h (by simp)
  · next c r =>
    split at h
    · next hc =>
      obtain rfl := Option.some.inj h
      exact ⟨[c], .bullet hc, rfl⟩
    · obtain ⟨⟨digits, more⟩, htake, h⟩ := Option.bind_eq_some_iff.mp h
      unfold Text.takeSome? at htake
      dsimp only at htake h
      split at htake
      · exact absurd htake (by simp)
      · next hne =>
        obtain ⟨rfl, rfl⟩ := Prod.mk.inj (Option.some.inj htake)
        have hsplit : c :: r = (c :: r).takeWhile Text.isDecimal ++
            (c :: r).drop ((c :: r).takeWhile Text.isDecimal).length :=
          (List.prefix_iff_eq_append.mp (List.takeWhile_prefix _)).symm
        have hdigits : ∀ d ∈ (c :: r).takeWhile Text.isDecimal, Text.isDecimal d = true :=
          fun d hd => List.mem_takeWhile_imp hd
        generalize (c :: r).takeWhile Text.isDecimal = digits at hne hsplit hdigits h
        have hne : digits ≠ [] := by simpa using hne
        split at h
        · next r' heq =>
          obtain rfl := Option.some.inj h
          exact ⟨_, .number hne hdigits (.inl rfl), by rw [hsplit, heq]; simp⟩
        · next r' heq =>
          obtain rfl := Option.some.inj h
          exact ⟨_, .number hne hdigits (.inr rfl), by rw [hsplit, heq]; simp⟩
        · exact absurd h (by simp)

/-! ## Lines and their items -/

theorem trimLeft_marked {lead marker : Text} (hlead : isBlankText lead = true)
    (hmarker : IsMarker marker) (rest : Text) :
    trimLeft (lead ++ (marker ++ rest)) = marker ++ rest := by
  obtain ⟨c, r, rfl, hc, -⟩ := hmarker.exists_cons
  rw [Text.trimLeft_append_blank hlead]
  exact List.dropWhile_cons_of_neg (by simp [hc])

/-- Two blanks or more are a gap and a last one. -/
theorem exists_gap_concat {rest : Text} (hblank : isBlankText rest = true) (htwo : 2 ≤ rest.length) :
    ∃ gap last, rest = gap ++ [last] ∧ gap ≠ [] ∧ isBlankText gap = true ∧ isBlank last = true := by
  obtain rfl | ⟨gap, last, rfl⟩ := List.eq_nil_or_concat' rest
  · exact absurd htwo (by simp)
  have hboth : isBlankText gap = true ∧ isBlank last = true := by simpa [isBlankText] using hblank
  refine ⟨gap, last, rfl, ?_, hboth⟩
  rintro rfl
  simp at htwo

namespace IsListLine

variable {line item : Text}

theorem listItem? (h : IsListLine line item) : listItem? line = some item := by
  unfold Reply.listItem?
  cases h with
  | @neat lead marker gap item tail hlead hmarker hgapSome hgap hitem htail =>
    have hbody : trimLeft (gap ++ (item ++ tail)) = item ++ tail := by
      obtain ⟨c, r, rfl⟩ := List.exists_cons_of_ne_nil hitem.ne_nil
      have hc := Text.isBlank_head_trimLeft hitem.trimLeft_eq
      rw [Text.trimLeft_append_blank hgap]
      exact List.dropWhile_cons_of_neg (by simp [hc])
    have hshown : trimRight (item ++ tail) = item := by
      rw [Text.trimRight_append_blank htail, hitem.trimRight_eq_self]
    rw [trimLeft_marked hlead hmarker, hmarker.afterMarker?]
    simp [hbody, hshown, hgapSome, hitem.ne_nil]
  | @blank lead marker gap last hlead hmarker hgapSome hgap hlast =>
    have hbody : trimLeft (gap ++ [last]) = [] := by
      rw [Text.trimLeft_append_blank hgap]
      exact List.dropWhile_cons_of_pos hlast
    have hlength : 0 < gap.length := List.length_pos_iff.mpr hgapSome
    rw [trimLeft_marked hlead hmarker, hmarker.afterMarker?]
    simp [hbody]
    omega

section Rest

variable {lead marker rest : Text} (hlead : isBlankText lead = true) (hmarker : IsMarker marker)

include hlead hmarker

/-- Behind a marker stand blanks only, two or more: the line shows the last of them. -/
theorem of_blank (hblank : isBlankText rest = true) (htwo : 2 ≤ rest.length) :
    IsListLine (lead ++ (marker ++ rest)) (rest.drop (rest.length - 1)) := by
  obtain ⟨gap, last, rfl, hgapSome, hgap, hlast⟩ := exists_gap_concat hblank htwo
  simpa using IsListLine.blank hlead hmarker hgapSome hgap hlast

/-- Behind a marker stands something behind a blank: the line shows it without blanks. -/
theorem of_body (hsome : trimLeft rest ≠ []) (hgap : (trimLeft rest).length ≠ rest.length) :
    IsListLine (lead ++ (marker ++ rest)) (trim rest) := by
  obtain ⟨gap, hrest, hgapBlank⟩ := Text.exists_trimLeft rest
  obtain ⟨tail, hbody, htail⟩ := Text.exists_trimRight (trimLeft rest)
  have hgapSome : gap ≠ [] := by
    rintro rfl
    exact hgap (congrArg List.length hrest).symm
  have hneat : (trim rest).IsNeat := by
    obtain ⟨c, r, hc⟩ := List.exists_cons_of_ne_nil hsome
    refine Text.isNeat_trim ?_
    rw [hrest, hc]
    simp [isBlankText, Text.isBlank_head_trimLeft hc]
  have hparts : rest = gap ++ (trim rest ++ tail) := by
    rw [trim, ← hbody, ← hrest]
  have hline := IsListLine.neat hlead hmarker hgapSome hgapBlank hneat htail
  rwa [← hparts] at hline

end Rest

theorem of_listItem? (h : Reply.listItem? line = some item) : IsListLine line item := by
  unfold Reply.listItem? at h
  obtain ⟨rest, hrest, h⟩ := Option.bind_eq_some_iff.mp h
  obtain ⟨marker, hmarker, hline⟩ := exists_marker hrest
  obtain ⟨lead, hlead, hblank⟩ := Text.exists_trimLeft line
  rw [hlead, hline]
  dsimp only at h
  split at h
  · exact absurd h (by simp)
  · next hgap =>
    split at h
    · next hnothing =>
      split at h
      · exact absurd h (by simp)
      · next htwo =>
        obtain rfl := Option.some.inj h
        refine of_blank hblank hmarker ?_ (Nat.not_lt.mp htwo)
        exact Text.isBlankText_iff.mpr (List.dropWhile_eq_nil_iff.mp (List.isEmpty_iff.mp hnothing))
    · next hsome =>
      obtain rfl := Option.some.inj h
      exact of_body hblank hmarker (by simpa using hsome) hgap

end IsListLine

/-- Every list line shows its item, and only list lines show one. -/
theorem listItem?_eq_some_iff {line item : Text} :
    listItem? line = some item ↔ IsListLine line item :=
  ⟨.of_listItem?, fun h => h.listItem?⟩

/-- An item is neat unless its line is hollow. -/
theorem isHollow_iff {line : Text} :
    IsHollow line ↔ ∃ item, listItem? line = some item ∧ ¬ item.IsNeat := by
  constructor
  · rintro ⟨lead, marker, gap, rfl, hlead, hmarker, hgap, htwo⟩
    obtain ⟨front, last, rfl, hfront, hfrontBlank, hlast⟩ := exists_gap_concat hgap htwo
    refine ⟨[last], (IsListLine.blank hlead hmarker hfront hfrontBlank hlast).listItem?, ?_⟩
    intro hneat
    have hnothing : trim [last] = [] := Text.trim_eq_nil_iff.mpr (by simp [isBlankText, hlast])
    exact absurd (hneat.trim_eq.symm.trans hnothing) (by simp)
  · rintro ⟨item, hitem, hblank⟩
    cases listItem?_eq_some_iff.mp hitem with
    | neat _ _ _ _ hneat _ => exact absurd hneat hblank
    | @blank lead marker gap last hlead hmarker hgapSome hgap hlast =>
      have hlength : 0 < gap.length := List.length_pos_iff.mpr hgapSome
      refine ⟨lead, marker, gap ++ [last], rfl, hlead, hmarker, ?_, ?_⟩
      · simpa [isBlankText, hlast] using hgap
      · rw [List.length_append, List.length_singleton]
        omega

end ChangeReview.Reply
