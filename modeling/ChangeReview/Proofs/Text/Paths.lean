import ChangeReview.Text.Path

/-!
# Paths inside a folder

The components of a joined path are those of its two parts in a row, and it is absolute where the
first of them is. A name is a path of one component.
-/
namespace ChangeReview.Text

/-- The text can be a component of a path. -/
structure IsName (n : Text) : Prop where
  slash : '/' ∉ n
  nonempty : n ≠ []
  notHere : n ≠ "."

/-! ## Pieces -/

theorem splitBy_ne_nil (p : Char → Bool) (t : Text) : splitBy p t ≠ [] := by
  induction t with
  | nil => simp [splitBy]
  | cons c t ih =>
    unfold splitBy
    split <;> simp

theorem splitBy_append {p : Char → Bool} {c : Char} (hc : p c = true) (s t : Text) :
    splitBy p (s ++ c :: t) = splitBy p s ++ splitBy p t := by
  induction s with
  | nil =>
    show splitBy p (c :: t) = [[]] ++ splitBy p t
    rw [splitBy, hc]
    rfl
  | cons d s ih =>
    obtain ⟨w, ws, hsplit⟩ := List.exists_cons_of_ne_nil (splitBy_ne_nil p s)
    rw [List.cons_append, splitBy, splitBy, ih, hsplit, List.cons_append]
    cases p d <;> rfl

theorem splitBy_of_forall {p : Char → Bool} {t : Text} (h : ∀ c ∈ t, p c = false) :
    splitBy p t = [t] := by
  induction t with
  | nil => rfl
  | cons c t ih =>
    rw [splitBy, ih fun d hd => h d (List.mem_cons_of_mem c hd), h c List.mem_cons_self]

/-! ## Components -/

theorem pathComponents_slash (p q : Text) :
    pathComponents (p ++ '/' :: q) = pathComponents p ++ pathComponents q := by
  unfold pathComponents splitOn
  rw [splitBy_append (by decide), List.filter_append]

theorem pathComponents_nil : pathComponents [] = [] := rfl

theorem pathComponents_name {n : Text} (h : IsName n) : pathComponents n = [n] := by
  have hsplit : splitOn '/' n = [n] := by
    refine splitBy_of_forall fun c hc => ?_
    rw [beq_eq_false_iff_ne]
    rintro rfl
    exact h.slash hc
  have hkept : (!n.isEmpty && n != ".") = true := by
    simpa using ⟨h.nonempty, h.notHere⟩
  rw [pathComponents, hsplit]
  exact List.filter_cons_of_pos hkept

theorem startsWith_name {n : Text} (h : IsName n) : startsWith n "/" = false := by
  rcases n with _ | ⟨c, n⟩
  · rfl
  · have hc : '/' ≠ c := fun heq => h.slash (heq ▸ List.mem_cons_self)
    show (('/' == c) && _) = false
    rw [beq_eq_false_iff_ne.mpr hc, Bool.false_and]

/-- The ways to join a name to a path. -/
theorem joinPath_name (p : Text) {n : Text} (h : IsName n) :
    p = [] ∧ joinPath p n = n ∨ (∃ q, p = q ++ ['/'] ∧ joinPath p n = q ++ '/' :: n) ∨
      p ≠ [] ∧ joinPath p n = p ++ '/' :: n := by
  have hrelative : startsWith n ['/'] = false := startsWith_name h
  unfold joinPath
  rw [hrelative, if_neg Bool.false_ne_true]
  by_cases hp : p = []
  · subst hp
    exact .inl ⟨rfl, rfl⟩
  by_cases hend : endsWith p ['/'] = true
  · obtain ⟨q, hq⟩ := List.isSuffixOf_iff_suffix.mp hend
    subst hq
    refine .inr (.inl ⟨q, rfl, ?_⟩)
    rw [if_pos (by simp [hend]), List.append_assoc]
    rfl
  · refine .inr (.inr ⟨hp, ?_⟩)
    rw [if_neg (by simpa [hp] using hend)]

theorem pathComponents_joinPath (p : Text) {n : Text} (h : IsName n) :
    pathComponents (joinPath p n) = pathComponents p ++ [n] := by
  rcases joinPath_name p h with ⟨rfl, heq⟩ | ⟨q, rfl, heq⟩ | ⟨-, heq⟩
  · rw [heq, pathComponents_nil, List.nil_append, pathComponents_name h]
  · rw [heq, pathComponents_slash, pathComponents_slash, pathComponents_name h, pathComponents_nil,
      List.append_nil]
  · rw [heq, pathComponents_slash, pathComponents_name h]

theorem startsWith_append_slash {q : Text} (t : Text) :
    startsWith (q ++ '/' :: t) "/" = startsWith (q ++ ['/']) "/" := by
  cases q with
  | nil => rfl
  | cons c q => rfl

theorem startsWith_joinPath (p : Text) {n : Text} (h : IsName n) :
    startsWith (joinPath p n) "/" = startsWith p "/" := by
  rcases joinPath_name p h with ⟨rfl, heq⟩ | ⟨q, rfl, heq⟩ | ⟨hp, heq⟩
  · rw [heq, startsWith_name h]
    rfl
  · rw [heq, startsWith_append_slash]
  · rw [heq]
    cases p with
    | nil => exact absurd rfl hp
    | cons c p => rfl

end ChangeReview.Text
