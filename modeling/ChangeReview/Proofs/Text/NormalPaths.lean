import ChangeReview.Proofs.Text.Lines

/-!
# Normal forms of paths

A path with plain components only is its own normal form, and behind a folder it ends the normal
form of the whole, whatever the folder: `..` takes away components in front of it and never behind.
-/
namespace ChangeReview.Text

/-- A component that the normal form keeps and that takes none away. -/
structure IsPlainName (c : Text) : Prop where
  nonempty : c ≠ []
  notHere : c ≠ "."
  notUp : c ≠ ".."

/-- A relative path with plain components only. -/
def IsPlainPath (p : Text) : Prop := ∀ c ∈ splitOn '/' p, IsPlainName c

theorem IsPlainPath.ne_nil {p : Text} (h : IsPlainPath p) : p ≠ [] := by
  rintro rfl
  exact (h [] List.mem_cons_self).nonempty rfl

theorem splitOn_slash (p : Text) : splitOn '/' ('/' :: p) = [] :: splitOn '/' p :=
  splitBy_append (by decide) [] p

/-- The components of a path, with slashes between them, are the path. -/
theorem join_splitOn (p : Text) : join "/" (splitOn '/' p) = p := by
  induction p with
  | nil => rfl
  | cons c p ih =>
    obtain ⟨w, ws, hsplit⟩ := List.exists_cons_of_ne_nil (splitBy_ne_nil (· == '/') p)
    have hsplit : splitOn '/' p = w :: ws := hsplit
    by_cases hc : c = '/'
    · rw [hc, splitOn_slash, hsplit, join_cons_cons, ← hsplit, ih]
      rfl
    · have hcut : splitOn '/' (c :: p) = (c :: w) :: ws := by
        rw [splitOn] at hsplit ⊢
        rw [splitBy, hsplit, beq_eq_false_iff_ne.mpr hc]
      rw [hcut, ← ih, hsplit]
      cases ws with
      | nil => rw [join_singleton, join_singleton]
      | cons v ws => rw [join_cons_cons, join_cons_cons, List.cons_append]

theorem pushComponent_plain {c : Text} (h : IsPlainName c) (absolute : Bool) (done : List Text) :
    pushComponent absolute done c = c :: done := by
  have hkept : ¬ (c.isEmpty || c == ".") = true := by
    simpa using ⟨h.nonempty, h.notHere⟩
  have hdown : (c != "..") = true := bne_iff_ne.mpr h.notUp
  unfold pushComponent
  rw [if_neg hkept, if_pos hdown]

theorem foldl_pushComponent_plain {parts : List Text} (h : ∀ c ∈ parts, IsPlainName c)
    (absolute : Bool) (done : List Text) :
    parts.foldl (pushComponent absolute) done = parts.reverse ++ done := by
  induction parts generalizing done with
  | nil => rfl
  | cons c parts ih =>
    obtain ⟨hc, hparts⟩ := List.forall_mem_cons.mp h
    rw [List.foldl_cons, pushComponent_plain hc, ih hparts, List.reverse_cons, List.append_assoc,
      List.singleton_append]

theorem join_suffix (sep : Text) (front : List Text) {back : List Text} (hback : back ≠ []) :
    join sep back <:+ join sep (front ++ back) := by
  by_cases hfront : front = []
  · subst hfront
    exact List.suffix_rfl
  · rw [join_append sep hfront hback, ← List.append_assoc]
    exact List.suffix_append _ _

theorem normalizePath_of_ne_nil {p text : Text} (hne : text ≠ [])
    (h : List.replicate (rootSlashes p) '/' ++
      join "/" ((splitOn '/' p).foldl (pushComponent (rootSlashes p != 0)) []).reverse = text) :
    normalizePath p = text := by
  unfold normalizePath
  dsimp only
  rw [h, if_neg (by simpa using hne)]

theorem rootSlashes_plain {p : Text} (h : IsPlainPath p) : rootSlashes p = 0 := by
  obtain ⟨c, r, rfl⟩ := List.exists_cons_of_ne_nil h.ne_nil
  have hslash : '/' ≠ c := by
    rintro rfl
    have hroot := h [] (by rw [splitOn_slash]; exact List.mem_cons_self)
    exact hroot.nonempty rfl
  have hone : startsWith (c :: r) "/" = false := startsWith_cons_ne hslash r []
  have htwo : startsWith (c :: r) "//" = false := startsWith_cons_ne hslash r ['/']
  rw [rootSlashes, hone, htwo]
  rfl

/-- A plain path is its own normal form. -/
theorem normalizePath_plain {p : Text} (h : IsPlainPath p) : normalizePath p = p := by
  refine normalizePath_of_ne_nil h.ne_nil ?_
  rw [rootSlashes_plain h, foldl_pushComponent_plain h, List.append_nil, List.reverse_reverse,
    join_splitOn]
  rfl

/-- The normal form of a plain path in a folder ends in the path. -/
theorem suffix_normalizePath {p : Text} (h : IsPlainPath p) (folder : Text) :
    p <:+ normalizePath (folder ++ '/' :: p) := by
  have hparts : splitOn '/' (folder ++ '/' :: p) = splitOn '/' folder ++ splitOn '/' p :=
    splitBy_append (by decide) folder p
  have hcomponents : splitOn '/' p ≠ [] := splitBy_ne_nil _ p
  generalize htext : List.replicate (rootSlashes (folder ++ '/' :: p)) '/' ++
    join "/" ((splitOn '/' (folder ++ '/' :: p)).foldl
      (pushComponent (rootSlashes (folder ++ '/' :: p) != 0)) []).reverse = text
  have hsuffix : p <:+ text := by
    rw [← htext, hparts, List.foldl_append, foldl_pushComponent_plain h, List.reverse_append,
      List.reverse_reverse]
    have hjoin := join_suffix "/" ((splitOn '/' folder).foldl
      (pushComponent (rootSlashes (folder ++ '/' :: p) != 0)) []).reverse hcomponents
    rw [join_splitOn] at hjoin
    exact hjoin.trans (List.suffix_append _ _)
  have hne : text ≠ [] := by
    rintro rfl
    exact h.ne_nil (List.suffix_nil.mp hsuffix)
  rwa [normalizePath_of_ne_nil hne htext]

end ChangeReview.Text
