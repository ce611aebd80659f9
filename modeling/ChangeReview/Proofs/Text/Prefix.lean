import ChangeReview.Text.Basic

/-!
# Prefixes

What a text starts with, what stands behind it, and where a text breaks off.
-/
namespace ChangeReview.Text

@[simp] theorem dropPrefix?_append (p t : Text) : dropPrefix? p (p ++ t) = some t := by
  induction p with
  | nil => rfl
  | cons c p ih => simpa [dropPrefix?] using ih

theorem eq_append_of_dropPrefix? {p t rest : Text} (h : dropPrefix? p t = some rest) :
    t = p ++ rest := by
  induction p generalizing t with
  | nil => simpa [dropPrefix?] using h
  | cons c p ih =>
    rcases t with _ | ⟨d, t⟩
    · simp [dropPrefix?] at h
    · rw [dropPrefix?] at h
      split at h
      · next hcd => rw [ih h, hcd, List.cons_append]
      · simp at h

theorem dropPrefix?_eq_none {p t : Text} (h : startsWith t p = false) : dropPrefix? p t = none := by
  cases hrest : dropPrefix? p t with
  | none => rfl
  | some rest =>
    have hstart : t.startsWith p = true := by
      rw [eq_append_of_dropPrefix? hrest]
      exact List.isPrefixOf_iff_prefix.mpr (List.prefix_append p rest)
    exact absurd (hstart.symm.trans h) (by decide)

theorem dropPrefix?_cons_ne {c d : Char} (h : d ≠ c) (p t : Text) :
    dropPrefix? (d :: p) (c :: t) = none := by
  rw [dropPrefix?, if_neg h]

@[simp] theorem dropPrefix_append (p t : Text) : dropPrefix p (p ++ t) = t := by
  simp [dropPrefix]

theorem dropPrefix_cons_ne {c d : Char} (h : d ≠ c) (p t : Text) :
    dropPrefix (d :: p) (c :: t) = c :: t := by
  rw [dropPrefix, dropPrefix?_cons_ne h]
  rfl

@[simp] theorem startsWith_append (p t : Text) : startsWith (p ++ t) p = true := by
  simp [startsWith]

theorem startsWith_cons (c d : Char) (t p : Text) :
    startsWith (c :: t) (d :: p) = (d == c && startsWith t p) := by
  simp [startsWith, List.isPrefixOf]

theorem startsWith_cons_ne {c d : Char} (h : d ≠ c) (t p : Text) :
    startsWith (c :: t) (d :: p) = false := by
  simp [startsWith_cons, h]

/-- A character that is not in the prefix ends what can start with it. -/
theorem startsWith_append_cons {c : Char} {p : Text} (hc : c ∉ p) (s t : Text) :
    startsWith (s ++ c :: t) p = startsWith s p := by
  induction s generalizing p with
  | nil =>
    rcases p with _ | ⟨d, p⟩
    · rfl
    · exact startsWith_cons_ne (by rintro rfl; exact hc List.mem_cons_self) t p
  | cons e s ih =>
    rcases p with _ | ⟨d, p⟩
    · rfl
    · rw [List.cons_append, startsWith_cons, startsWith_cons,
        ih fun hmem => hc (List.mem_cons_of_mem d hmem)]

/-- A suffix without a character that the text has stands behind that character. -/
theorem endsWith_append_cons {c : Char} {p s t : Text} (hc : c ∉ p)
    (h : endsWith (s ++ c :: t) p = true) : ∃ r, t = r ++ p := by
  have hsuffix : p <:+ s ++ c :: t := List.isSuffixOf_iff_suffix.mp h
  rcases List.suffix_or_suffix_of_suffix hsuffix (List.suffix_append s (c :: t)) with hp | hp
  · rcases List.suffix_cons_iff.mp hp with rfl | ⟨r, rfl⟩
    · exact absurd List.mem_cons_self hc
    · exact ⟨r, rfl⟩
  · exact absurd (hp.subset List.mem_cons_self) hc

/-- A text is cut at a character that it has, whatever stands behind it. -/
theorem exists_cut {c : Char} {s : Text} (h : c ∈ s) :
    ∃ front r, s = front ++ c :: r ∧ ∀ t, cut c (s ++ t) = (front, some (r ++ t)) := by
  induction s with
  | nil => exact absurd h List.not_mem_nil
  | cons d s ih =>
    by_cases hd : d = c
    · exact ⟨[], s, by rw [hd, List.nil_append], fun t => by rw [List.cons_append, cut, if_pos hd]⟩
    · obtain ⟨front, r, hsplit, hcut⟩ := ih ((List.mem_cons.mp h).resolve_left (Ne.symm hd))
      refine ⟨d :: front, r, by rw [hsplit, List.cons_append], fun t => ?_⟩
      rw [List.cons_append, cut, if_neg hd, hcut t]
      rfl

theorem exists_of_cut {c : Char} {s rest : Text} (h : (cut c s).2 = some rest) :
    ∃ front, s = front ++ c :: rest := by
  induction s with
  | nil => exact absurd h (by simp [cut])
  | cons d s ih =>
    rw [cut] at h
    split at h
    · next hd => exact ⟨[], by rw [hd, Option.some.inj h, List.nil_append]⟩
    · obtain ⟨front, hfront⟩ := ih h
      exact ⟨d :: front, by rw [hfront, List.cons_append]⟩

/-! ## Texts that break off -/

/-- The text `u` is `t` broken off before its end. -/
def IsCut (u t : Text) : Prop := u <+: t ∧ u ≠ t

namespace IsCut

theorem length_lt {u t : Text} (h : IsCut u t) : u.length < t.length := by
  obtain ⟨hfront, hne⟩ := h
  exact Nat.lt_of_le_of_ne hfront.length_le fun heq => hne (hfront.eq_of_length heq)

theorem of_front {s u t : Text} (hs : s <+: u) (h : IsCut u t) : IsCut s t := by
  refine ⟨hs.trans h.1, fun heq => ?_⟩
  have hlength := hs.length_le
  rw [heq] at hlength
  exact absurd h.length_lt (Nat.not_lt.mpr hlength)

theorem cons {u t : Text} {c : Char} (h : IsCut u (c :: t)) :
    u = [] ∨ ∃ u', u = c :: u' ∧ IsCut u' t := by
  obtain ⟨hfront, hne⟩ := h
  rcases List.prefix_cons_iff.mp hfront with rfl | ⟨u', rfl, hu'⟩
  · exact .inl rfl
  · exact .inr ⟨u', rfl, hu', fun heq => hne (by rw [heq])⟩

/-- What breaks off does so in the first part or in the second. -/
theorem append {u s t : Text} (h : IsCut u (s ++ t)) :
    IsCut u s ∨ ∃ u', u = s ++ u' ∧ IsCut u' t := by
  obtain ⟨hfront, hne⟩ := h
  by_cases hs : s <+: u
  · obtain ⟨u', rfl⟩ := hs
    refine .inr ⟨u', rfl, (List.prefix_append_right_inj s).mp hfront, fun heq => hne ?_⟩
    rw [heq]
  · rcases List.prefix_or_prefix_of_prefix hfront (List.prefix_append s t) with hu | hu
    · exact .inl ⟨hu, fun heq => hs (heq ▸ List.prefix_rfl)⟩
    · exact absurd hu hs

/-- What breaks off before the last character is the front of the rest. -/
theorem concat {u s : Text} {c : Char} (h : IsCut u (s ++ [c])) : u <+: s := by
  rcases h.append with hu | ⟨u', rfl, hu'⟩
  · exact hu.1
  · rcases hu'.cons with rfl | ⟨u'', -, hu''⟩
    · simp
    · exact absurd hu''.length_lt (Nat.not_lt_zero _)

end IsCut

end ChangeReview.Text
