import ChangeReview.Repository.Disk
import Mathlib.Data.List.Basic

/-!
# Folders on the way

Where a path leads depends on its names alone, and whether it leads there only on the folders on the
way. A disk with more folders where nothing stood leads every path at least as far, and making the
folders of a path changes nothing else.
-/
namespace ChangeReview

namespace Place

/-- One name further on. -/
def step (p : Place) (name : Text) : Place := if name == ".." then p.parent else p ++ [name]

/-- Where names lead, as long as there are folders on the way. -/
def along (p : Place) (names : List Text) : Place := names.foldl step p

theorem isGiven_dropLast {p : Place} (h : p.isGiven = true) : isGiven p.dropLast = true := by
  unfold isGiven at *
  rcases Bool.or_eq_true_iff.mp h with hroot | hup
  · rw [beq_iff_eq.mp hroot]
    rfl
  · rw [Bool.or_eq_true_iff]
    refine .inr (List.all_eq_true.mpr fun name hname => ?_)
    exact List.all_eq_true.mp hup name (List.dropLast_subset p hname)

theorem parent_cases (p : Place) : p.parent.isGiven = true ∨ p.parent = p.dropLast := by
  unfold parent
  split
  · next hroot => exact .inl (by rw [isGiven, hroot, Bool.true_or])
  · split
    · next hup => exact .inl (by rw [isGiven, Bool.or_eq_true_iff]; exact .inr (by simpa using hup))
    · exact .inr rfl

end Place

namespace Disk

/-! ## What stands where -/

theorem lookup_filter {α β : Type} [BEq α] [LawfulBEq α] (keep : α → Bool) (l : List (α × β)) (k : α) :
    (l.filter fun e => keep e.1).lookup k = if keep k then l.lookup k else none := by
  induction l with
  | nil => simp
  | cons e l ih =>
    obtain ⟨a, b⟩ := e
    by_cases ha : keep a = true
    · rw [show ((a, b) :: l).filter (fun e => keep e.1) = (a, b) :: l.filter fun e => keep e.1 from
        List.filter_cons_of_pos ha, List.lookup_cons, List.lookup_cons, ih]
      by_cases hk : k = a
      · subst hk
        simp [ha]
      · rw [beq_eq_false_iff_ne.mpr hk]
    · rw [show ((a, b) :: l).filter (fun e => keep e.1) = l.filter fun e => keep e.1 from
        List.filter_cons_of_neg ha, ih, List.lookup_cons]
      by_cases hk : k = a
      · subst hk
        simp [ha]
      · rw [beq_eq_false_iff_ne.mpr hk]

theorem node?_given (d : Disk) {p : Place} (h : p.isGiven = true) : d.node? p = some .folder := by
  rw [node?, if_pos h]

theorem not_given_of_ne {d : Disk} {p : Place} (h : d.node? p ≠ some .folder) : p.isGiven = false :=
  Bool.eq_false_iff.mpr fun hgiven => h (d.node?_given hgiven)

theorem not_given_of_missing {d : Disk} {p : Place} (h : d.node? p = none) : p.isGiven = false :=
  not_given_of_ne fun hfolder => absurd (h.symm.trans hfolder) (by simp)

theorem node?_set (d : Disk) {p : Place} (hp : p.isGiven = false) (node : Node) (q : Place) :
    (d.set p node).node? q = if q = p then some node else d.node? q := by
  unfold node? set
  dsimp only
  rw [List.lookup_append, lookup_filter (fun a => a != p)]
  by_cases hq : q = p
  · subst hq
    simp [hp]
  · have hbeq : (q == p) = false := beq_eq_false_iff_ne.mpr hq
    simp [hq, hbeq, List.lookup_cons]

theorem node?_removeBelow (d : Disk) (p q : Place) :
    (d.removeBelow p).node? q =
      if q.isGiven then some .folder else if p <+: q then none else d.node? q := by
  unfold node? removeBelow
  dsimp only
  rw [lookup_filter (fun a => !p.isPrefixOf a)]
  by_cases hq : q.isGiven = true
  · rw [if_pos hq, if_pos hq]
  · by_cases hp : p <+: q
    · rw [if_neg hq, if_neg hq, if_pos hp, List.isPrefixOf_iff_prefix.mpr hp]
      rfl
    · have hbeq : p.isPrefixOf q = false := by
        rw [Bool.eq_false_iff]
        exact fun h => hp (List.isPrefixOf_iff_prefix.mp h)
      rw [if_neg hq, if_neg hq, if_neg hp, if_neg hq, hbeq]
      rfl

theorem isFolderAt_iff {d : Disk} {p : Place} : d.isFolderAt p = true ↔ d.node? p = some .folder := by
  unfold isFolderAt
  split
  · next h => exact iff_of_true rfl h
  · next h => exact iff_of_false Bool.false_ne_true h

/-- A place is a folder, and so is all that it is in. -/
def Stands (d : Disk) (p : Place) : Prop := ∀ q, q <+: p → d.node? q = some .folder

namespace Stands

variable {d : Disk} {p : Place}

theorem node (h : d.Stands p) : d.node? p = some .folder := h p List.prefix_rfl

theorem of_prefix {q : Place} (h : d.Stands p) (hq : q <+: p) : d.Stands q :=
  fun r hr => h r (hr.trans hq)

theorem dropLast (h : d.Stands p) : d.Stands p.dropLast := h.of_prefix (List.dropLast_prefix p)

theorem child {name : Text} (h : d.Stands p) (hchild : d.node? (p ++ [name]) = some .folder) :
    d.Stands (p ++ [name]) := by
  intro q hq
  rcases List.prefix_concat_iff.mp hq with rfl | hq
  · exact hchild
  · exact h q hq

theorem of_dropLast (h : d.Stands p.dropLast) (hp : d.node? p = some .folder) : d.Stands p := by
  rcases List.eq_nil_or_concat p with rfl | ⟨q, name, rfl⟩
  · exact h
  · rw [List.concat_eq_append, List.dropLast_concat] at *
    exact h.child hp

theorem of_given (h : p.isGiven = true) : d.Stands p := by
  intro q hq
  induction hn : p.length generalizing p with
  | zero =>
    obtain rfl := List.length_eq_zero_iff.mp hn
    obtain rfl := List.prefix_nil.mp hq
    exact d.node?_given h
  | succ n ih =>
    obtain ⟨r, name, rfl⟩ : ∃ r name, p = r ++ [name] := by
      rcases List.eq_nil_or_concat p with rfl | ⟨r, name, hr⟩
      · simp at hn
      · exact ⟨r, name, by rw [hr, List.concat_eq_append]⟩
    rcases List.prefix_concat_iff.mp hq with rfl | hq
    · exact d.node?_given h
    · have hgiven := Place.isGiven_dropLast h
      rw [List.dropLast_concat] at hgiven
      exact ih hgiven hq (by simpa using hn)

theorem parent (h : d.Stands p) : d.Stands p.parent := by
  rcases p.parent_cases with hgiven | hdrop
  · exact of_given hgiven
  · rw [hdrop]
    exact h.dropLast

theorem step (h : d.Stands p) (name : Text) : d.Stands (p.step name).dropLast := by
  unfold Place.step
  split
  · exact h.parent.dropLast
  · rw [List.dropLast_concat]
    exact h

end Stands

/-! ## Following names -/

section Follow

variable {d : Disk} {here : Place} {name : Text} {rest : List Text}

theorem follow_up (h : d.node? here = some .folder) (rest : List Text) :
    d.follow here (".." :: rest) = d.follow here.parent rest := by
  conv => lhs; unfold follow
  rw [h]
  rfl

theorem follow_down (h : d.node? here = some .folder) (hup : name ≠ "..")
    (hfits : (Text.toUtf8 name).size ≤ maxNameBytes) (rest : List Text) :
    d.follow here (name :: rest) = d.follow (here ++ [name]) rest := by
  conv => lhs; unfold follow
  rw [h]
  dsimp only
  rw [if_neg (by simpa using hup), if_neg (Nat.not_lt.mpr hfits)]

/-- The first step of a way that leads somewhere. -/
theorem follow_cons_ok {p : Place} (h : d.follow here (name :: rest) = .ok p) :
    d.node? here = some .folder ∧ (name = ".." ∨ (Text.toUtf8 name).size ≤ maxNameBytes) ∧
      d.follow (here.step name) rest = .ok p := by
  unfold follow at h
  split at h
  · exact absurd h (by simp)
  · exact absurd h (by simp)
  · next hnode =>
    refine ⟨hnode, ?_⟩
    unfold Place.step
    split at h
    · next hup => exact ⟨.inl (by simpa using hup), by rw [if_pos hup]; exact h⟩
    · next hup =>
      split at h
      · exact absurd h (by simp)
      · next hlong => exact ⟨.inr (Nat.not_lt.mp hlong), by rw [if_neg hup]; exact h⟩

theorem follow_step (h : d.node? here = some .folder)
    (hfits : name = ".." ∨ (Text.toUtf8 name).size ≤ maxNameBytes) (rest : List Text) :
    d.follow here (name :: rest) = d.follow (here.step name) rest := by
  by_cases hup : name = ".."
  · subst hup
    exact follow_up h rest
  · rw [follow_down h hup (hfits.resolve_left hup), Place.step, if_neg (by simpa using hup)]

/-- A way that leads somewhere leads where its names say. -/
theorem along_of_follow {names : List Text} {p : Place} (h : d.follow here names = .ok p) :
    here.along names = p := by
  induction names generalizing here with
  | nil => exact Except.ok.inj h
  | cons name rest ih => exact ih (follow_cons_ok h).2.2

theorem follow_append (names more : List Text) :
    d.follow here (names ++ more) = d.follow here names >>= fun p => d.follow p more := by
  induction names generalizing here with
  | nil => rfl
  | cons name rest ih =>
    rw [List.cons_append, follow, follow]
    split
    · rfl
    · rfl
    · split
      · exact ih
      · split
        · rfl
        · exact ih

/-- All on a way that ends in a folder stands. -/
theorem stands_follow {names : List Text} {p : Place} (hhere : d.Stands here.dropLast)
    (h : d.follow here names = .ok p) : d.Stands p.dropLast := by
  induction names generalizing here with
  | nil => exact Except.ok.inj h ▸ hhere
  | cons name rest ih =>
    obtain ⟨hnode, -, hrest⟩ := follow_cons_ok h
    exact ih ((hhere.of_dropLast hnode).step name) hrest

/-- Where all that stood still stands, a way leads where it led. -/
theorem follow_of_stands {d' : Disk} (hkeeps : ∀ p, d.Stands p → d'.node? p = some .folder)
    {names : List Text} {p : Place} (hhere : d.Stands here.dropLast)
    (h : d.follow here names = .ok p) : d'.follow here names = .ok p := by
  induction names generalizing here with
  | nil => exact h
  | cons name rest ih =>
    obtain ⟨hnode, hfits, hrest⟩ := follow_cons_ok h
    have hstands := hhere.of_dropLast hnode
    rw [follow_step (hkeeps here hstands) hfits]
    exact ih (hstands.step name) hrest

end Follow

/-! ## Making folders -/

/-- The second disk is the first one with folders where nothing stood. -/
structure Grows (d d' : Disk) : Prop where
  keeps : ∀ p node, d.node? p = some node → d'.node? p = some node
  adds : ∀ p, d.node? p = none → d'.node? p = none ∨ d'.node? p = some .folder

namespace Grows

theorem refl (d : Disk) : d.Grows d := ⟨fun _ _ h => h, fun _ h => .inl h⟩

theorem trans {d d' d'' : Disk} (h : d.Grows d') (h' : d'.Grows d'') : d.Grows d'' where
  keeps p node hp := h'.keeps p node (h.keeps p node hp)
  adds p hp := by
    rcases h.adds p hp with hnone | hfolder
    · exact h'.adds p hnone
    · exact .inr (h'.keeps p _ hfolder)

theorem set (d : Disk) {p : Place} (hp : d.node? p = none) : d.Grows (d.set p .folder) := by
  have hgiven : p.isGiven = false := not_given_of_missing hp
  constructor
  · intro q node hq
    rw [node?_set d hgiven, if_neg (fun heq => absurd (hp.symm.trans (heq ▸ hq)) (by simp))]
    exact hq
  · intro q hq
    rw [node?_set d hgiven]
    split
    · exact .inr rfl
    · exact .inl hq

/-- No file is new. -/
theorem file {d d' : Disk} (h : d.Grows d') {p : Place} {content : ByteArray} {modified : Instant}
    (hfile : d'.node? p = some (.file content modified)) : d.node? p = some (.file content modified) := by
  cases hold : d.node? p with
  | some node => exact (h.keeps p node hold).symm.trans hfile
  | none =>
    rcases h.adds p hold with hnone | hnew
    · exact absurd (hnone.symm.trans hfile) (by simp)
    · exact absurd (hnew.symm.trans hfile) (by simp)

end Grows

/-- The disk behind one name on the way: with the folder of that name, if nothing stood there. -/
def passed (d : Disk) (here : Place) (name : Text) : Disk :=
  if name == ".." then d
  else if (d.node? (here ++ [name])).isSome then d
  else d.set (here ++ [name]) .folder

section Passed

variable {d : Disk} {here : Place} {name : Text}

/-- Behind a name the disk is as it was, or has a folder where nothing stood. -/
theorem passed_cases (d : Disk) (here : Place) (name : Text) :
    d.passed here name = d ∨ name ≠ ".." ∧ here.step name = here ++ [name] ∧
      d.node? (here ++ [name]) = none ∧ d.passed here name = d.set (here ++ [name]) .folder := by
  unfold passed Place.step
  split
  · exact .inl rfl
  · next hup =>
    split
    · exact .inl rfl
    · next hmissing => exact .inr ⟨by simpa using hup, rfl, by simpa using hmissing, rfl⟩

theorem grows_passed (d : Disk) (here : Place) (name : Text) : d.Grows (d.passed here name) := by
  rcases passed_cases d here name with heq | ⟨-, -, hmissing, heq⟩
  · rw [heq]
    exact Grows.refl d
  · rw [heq]
    exact Grows.set d hmissing

/-- Where a name leads to something, nothing is made. -/
theorem passed_eq {node : Node} (h : d.node? (here.step name) = some node) : d.passed here name = d := by
  rcases passed_cases d here name with heq | ⟨-, hstep, hmissing, -⟩
  · exact heq
  · rw [hstep, hmissing] at h
    exact absurd h (by simp)

/-- A name makes nothing but the folder that it leads to. -/
theorem node?_passed_of_ne {q : Place} (hq : q ≠ here.step name) :
    (d.passed here name).node? q = d.node? q := by
  rcases passed_cases d here name with heq | ⟨-, hstep, hmissing, heq⟩
  · rw [heq]
  · rw [heq, node?_set d (not_given_of_missing hmissing), if_neg (hstep ▸ hq)]

/-- Behind a name that leads to no file stands what it leads to. -/
theorem Stands.passed (h : d.Stands here)
    (hfree : ∀ content modified, d.node? (here.step name) ≠ some (.file content modified)) :
    (d.passed here name).Stands (here.step name) := by
  have hkept : (d.passed here name).Stands here := fun q hq => (grows_passed d here name).keeps q _ (h q hq)
  unfold Place.step at hfree ⊢
  split
  · exact hkept.parent
  · next hup =>
    rw [if_neg hup] at hfree
    refine hkept.child ?_
    unfold Disk.passed
    rw [if_neg hup]
    cases hnode : d.node? (here ++ [name]) with
    | none => rw [if_neg (by simp), node?_set d (not_given_of_missing hnode), if_pos rfl]
    | some node =>
      rw [Option.isSome_some, if_pos rfl, hnode]
      cases node with
      | folder => rfl
      | file content modified => exact absurd hnode (hfree content modified)

end Passed

section MakeFolders

variable {d d' : Disk} {here : Place}

theorem makeFolders_nil_ok (h : d.makeFolders here [] = .ok d') : d' = d ∧ d.node? here = some .folder := by
  unfold makeFolders at h
  split at h
  · next hfolder => exact ⟨(Except.ok.inj h).symm, isFolderAt_iff.mp hfolder⟩
  · exact absurd h (by simp)

/-- The first step of making folders, where they can be made. -/
theorem makeFolders_cons_ok {name : Text} {rest : List Text}
    (h : d.makeFolders here (name :: rest) = .ok d') :
    d.node? here = some .folder ∧ (name = ".." ∨ (Text.toUtf8 name).size ≤ maxNameBytes) ∧
      (d.passed here name).makeFolders (here.step name) rest = .ok d' := by
  unfold makeFolders at h
  split at h
  · exact absurd h (by simp)
  · exact absurd h (by simp)
  · next hnode =>
    refine ⟨hnode, ?_⟩
    unfold passed Place.step
    split at h
    · next hup => exact ⟨.inl (by simpa using hup), by rw [if_pos hup, if_pos hup]; exact h⟩
    · next hup =>
      split at h
      · exact absurd h (by simp)
      · next hlong => exact ⟨.inr (Nat.not_lt.mp hlong), by rw [if_neg hup, if_neg hup]; exact h⟩

theorem makeFolders_step {name : Text} (h : d.node? here = some .folder)
    (hfits : name = ".." ∨ (Text.toUtf8 name).size ≤ maxNameBytes) (rest : List Text) :
    d.makeFolders here (name :: rest) = (d.passed here name).makeFolders (here.step name) rest := by
  conv => lhs; unfold makeFolders
  rw [h]
  dsimp only
  unfold passed Place.step
  by_cases hup : (name == "..") = true
  · rw [if_pos hup, if_pos hup, if_pos hup]
  · have hshort := hfits.resolve_left (by simpa using hup)
    rw [if_neg hup, if_neg hup, if_neg hup, if_neg (Nat.not_lt.mpr hshort)]

/-- What making the folders along some names leaves: they are there, and nothing else is new. -/
theorem makeFolders_spec {names : List Text} (h : d.makeFolders here names = .ok d') :
    d.Grows d' ∧ d'.follow here names = .ok (here.along names) ∧
      d'.node? (here.along names) = some .folder := by
  induction names generalizing d here with
  | nil =>
    obtain ⟨rfl, hfolder⟩ := makeFolders_nil_ok h
    exact ⟨Grows.refl d', rfl, hfolder⟩
  | cons name rest ih =>
    obtain ⟨hnode, hfits, hrest⟩ := makeFolders_cons_ok h
    obtain ⟨hgrows, hfollow, hfolder⟩ := ih hrest
    have hall := (grows_passed d here name).trans hgrows
    exact ⟨hall, (follow_step (hall.keeps here _ hnode) hfits rest).trans hfollow, hfolder⟩

/-- A way that ends in a folder begins with one. -/
theorem folder_of_follow {names : List Text} {p : Place} (h : d.follow here names = .ok p)
    (hp : d.node? p = some .folder) : d.node? here = some .folder := by
  cases names with
  | nil =>
    obtain rfl := Except.ok.inj h
    exact hp
  | cons name rest => exact (follow_cons_ok h).1

/-- Folders are made where there is one to begin with. -/
theorem folder_of_makeFolders {names : List Text} (h : d.makeFolders here names = .ok d') :
    d'.node? here = some .folder := by
  obtain ⟨-, hfollow, hfolder⟩ := makeFolders_spec h
  exact folder_of_follow hfollow hfolder

/-- Where the folders are there, nothing is made. -/
theorem makeFolders_of_follow {names : List Text} {p : Place} (h : d.follow here names = .ok p)
    (hp : d.node? p = some .folder) : d.makeFolders here names = .ok d := by
  induction names generalizing here with
  | nil =>
    obtain rfl := Except.ok.inj h
    rw [makeFolders, if_pos (isFolderAt_iff.mpr hp)]
  | cons name rest ih =>
    obtain ⟨hnode, hfits, hrest⟩ := follow_cons_ok h
    rw [makeFolders_step hnode hfits, passed_eq (folder_of_follow hrest hp)]
    exact ih hrest

/-- Folders can be made again where nothing but folders and absent things is on their way. -/
theorem makeFolders_again {e : Disk} {names : List Text} (h : d.makeFolders here names = .ok d')
    (he : ∀ p content modified, e.node? p = some (.file content modified) →
      d'.node? p = some (.file content modified))
    (hhere : e.Stands here) : ∃ e', e.makeFolders here names = .ok e' := by
  induction names generalizing d e here with
  | nil => exact ⟨e, by rw [makeFolders, if_pos (isFolderAt_iff.mpr hhere.node)]⟩
  | cons name rest ih =>
    obtain ⟨-, hfits, hrest⟩ := makeFolders_cons_ok h
    have hfolder := folder_of_makeFolders hrest
    rw [makeFolders_step hhere.node hfits]
    refine ih hrest (fun p content modified hp => ?_) (hhere.passed fun content modified hfile => ?_)
    · exact he p content modified ((grows_passed e here name).file hp)
    · exact absurd ((he _ content modified hfile).symm.trans hfolder) (by simp)

/-- What is new where folders are made is there wherever the same folders are made. -/
theorem node?_of_made {e e' : Disk} {names : List Text} {q : Place}
    (h : d.makeFolders here names = .ok d') (he : e.makeFolders here names = .ok e')
    (hold : e.node? q = none) (hnew : e'.node? q = some .folder) : d'.node? q = some .folder := by
  induction names generalizing d e here with
  | nil =>
    obtain ⟨rfl, -⟩ := makeFolders_nil_ok he
    exact absurd (hold.symm.trans hnew) (by simp)
  | cons name rest ih =>
    obtain ⟨-, -, hrest⟩ := makeFolders_cons_ok h
    obtain ⟨-, -, hrest'⟩ := makeFolders_cons_ok he
    by_cases hq : q = here.step name
    · -- the folder that this step makes is one that the way to `d'` leads through
      exact hq ▸ folder_of_makeFolders hrest
    · exact ih hrest hrest' ((node?_passed_of_ne hq).trans hold)

end MakeFolders

end Disk

end ChangeReview
