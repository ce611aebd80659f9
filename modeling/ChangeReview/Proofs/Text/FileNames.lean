import ChangeReview.Proofs.Text.Prefix
import ChangeReview.Text.Path
import Mathlib.Data.List.TakeWhile

/-!
# File names

A path is a folder, a base name without its extension, and the extension, which holds one point, at
its front, if it is not empty. Joining a name to a folder puts something in front of the name that
is empty or ends in a slash.
-/
namespace ChangeReview.Text

/-- What can stand in front of a name: nothing, or a text that ends in a slash. -/
inductive IsLead : Text → Prop where
  | nil : IsLead []
  | slash (front : Text) : IsLead (front ++ ['/'])

/-! ## The last place of a character -/

theorem splitLast_append {c : Char} {back : Text} (h : c ∉ back) (front : Text) :
    splitLast c (front ++ c :: back) = some (front, back) := by
  have hback : ∀ d ∈ back.reverse, (d != c) = true := by
    intro d hd
    rw [bne_iff_ne]
    rintro rfl
    exact h (List.mem_reverse.mp hd)
  have hreverse : (front ++ c :: back).reverse = back.reverse ++ c :: front.reverse := by simp
  unfold splitLast
  dsimp only
  rw [hreverse, List.takeWhile_append_of_pos hback, List.dropWhile_append_of_pos hback]
  simp

theorem splitLast_of_not_mem {c : Char} {t : Text} (h : c ∉ t) : splitLast c t = none := by
  have hnone : t.reverse.dropWhile (· != c) = [] := by
    rw [List.dropWhile_eq_nil_iff]
    intro d hd
    rw [bne_iff_ne]
    rintro rfl
    exact h (List.mem_reverse.mp hd)
  unfold splitLast
  dsimp only
  rw [hnone]

theorem exists_splitLast {c : Char} {t : Text} (h : c ∈ t) :
    ∃ front back, t = front ++ c :: back ∧ c ∉ back := by
  obtain ⟨s, r, hsplit, hs⟩ := List.eq_append_cons_of_mem (List.mem_reverse.mpr h)
  refine ⟨r.reverse, s.reverse, ?_, by simpa using hs⟩
  rw [← List.reverse_reverse t, hsplit]
  simp

/-! ## Names -/

theorem baseName_lead {folder name : Text} (hfolder : IsLead folder) (hname : '/' ∉ name) :
    baseName (folder ++ name) = name := by
  cases hfolder with
  | nil => rw [List.nil_append, baseName, splitLast_of_not_mem hname]; rfl
  | slash front =>
    rw [List.append_assoc, List.singleton_append, baseName, splitLast_append hname]
    rfl

theorem exists_baseName (p : Text) : ∃ folder, IsLead folder ∧ '/' ∉ baseName p ∧
    p = folder ++ baseName p := by
  by_cases h : '/' ∈ p
  · obtain ⟨front, back, rfl, hback⟩ := exists_splitLast h
    have hlead : front ++ '/' :: back = (front ++ ['/']) ++ back := by simp
    rw [hlead, baseName_lead (.slash front) hback]
    exact ⟨_, .slash front, hback, rfl⟩
  · have hname : baseName p = p := baseName_lead .nil h
    exact ⟨[], .nil, hname.symm ▸ h, by rw [hname, List.nil_append]⟩

/-- The extension of a name, if it has one, stands behind its last point. -/
theorem splitExtension_name {name : Text} (h : '/' ∉ name) :
    splitExtension name = (name, []) ∨ ∃ front ext, name = front ++ '.' :: ext ∧ '.' ∉ ext ∧
      splitExtension name = (front, '.' :: ext) := by
  have hbase : baseName name = name := baseName_lead .nil h
  by_cases hpoint : '.' ∈ name
  · obtain ⟨front, ext, rfl, hext⟩ := exists_splitLast hpoint
    unfold splitExtension
    dsimp only
    rw [hbase, splitLast_append hext]
    dsimp only
    split
    · exact .inl rfl
    · refine .inr ⟨front, ext, rfl, hext, ?_⟩
      simp
  · unfold splitExtension
    dsimp only
    rw [hbase, splitLast_of_not_mem hpoint]
    exact .inl rfl

/-- The extension is one of the name, in whatever folder. -/
theorem splitExtension_lead {folder name : Text} (hfolder : IsLead folder) (hname : '/' ∉ name) :
    splitExtension (folder ++ name) =
      (folder ++ (splitExtension name).1, (splitExtension name).2) := by
  unfold splitExtension
  dsimp only
  rw [baseName_lead hfolder hname, show baseName name = name from baseName_lead .nil hname]
  cases hsplit : splitLast '.' name with
  | none => rfl
  | some parts =>
    obtain ⟨front, ext⟩ := parts
    dsimp only
    split
    · rfl
    · have hlength : ext.length + 1 ≤ name.length := by
        by_cases hpoint : '.' ∈ name
        · obtain ⟨front', ext', rfl, hext⟩ := exists_splitLast hpoint
          rw [splitLast_append hext] at hsplit
          obtain ⟨rfl, rfl⟩ := Prod.mk.inj (Option.some.inj hsplit)
          simp
        · exact absurd ((splitLast_of_not_mem hpoint).symm.trans hsplit) (by simp)
      have htake : (folder ++ name).length - (ext.length + 1) =
          folder.length + (name.length - (ext.length + 1)) := by
        rw [List.length_append]
        omega
      rw [htake, List.take_length_add_append]

/-- A path taken apart. -/
structure IsSplit (p folder : Text) : Prop where
  lead : IsLead folder
  noSlash : '/' ∉ stem p ++ extension p
  eq : p = folder ++ (stem p ++ extension p)
  base : splitExtension (baseName p) = (stem p, extension p)
  point : extension p = [] ∨ ∃ e, extension p = '.' :: e ∧ '.' ∉ e

theorem exists_isSplit (p : Text) : ∃ folder, IsSplit p folder := by
  obtain ⟨folder, hfolder, hname, hp⟩ := exists_baseName p
  have hstem : stem p = (splitExtension (baseName p)).1 := rfl
  have hext : extension p = (splitExtension (baseName p)).2 := by
    conv => lhs; rw [hp]
    rw [extension, splitExtension_lead hfolder hname]
  have hbase : splitExtension (baseName p) = (stem p, extension p) := by rw [hstem, hext]
  rcases splitExtension_name hname with hwhole | ⟨front, e, hparts, he, hsplit⟩
  · have hempty : extension p = [] := by rw [hext, hwhole]
    have hnamed : stem p ++ extension p = baseName p := by
      rw [hempty, List.append_nil, hstem, hwhole]
    exact ⟨folder, hfolder, hnamed.symm ▸ hname, by rwa [hnamed], hbase, .inl hempty⟩
  · have hpoint : extension p = '.' :: e := by rw [hext, hsplit]
    have hnamed : stem p ++ extension p = baseName p := by
      rw [hpoint, hstem, hsplit, ← hparts]
    exact ⟨folder, hfolder, hnamed.symm ▸ hname, by rwa [hnamed], hbase, .inr ⟨e, hpoint, he⟩⟩

theorem exists_joinPath (p q : Text) : ∃ lead, IsLead lead ∧ joinPath p q = lead ++ q := by
  unfold joinPath
  split
  · exact ⟨[], .nil, rfl⟩
  · split
    · next hp =>
      rcases Bool.or_eq_true_iff.mp hp with hempty | hslash
      · rw [List.isEmpty_iff.mp hempty]
        exact ⟨[], .nil, rfl⟩
      · obtain ⟨front, hfront⟩ := List.isSuffixOf_iff_suffix.mp hslash
        rw [← hfront]
        exact ⟨_, .slash front, rfl⟩
    · exact ⟨p ++ ['/'], .slash p, by simp⟩

end ChangeReview.Text
