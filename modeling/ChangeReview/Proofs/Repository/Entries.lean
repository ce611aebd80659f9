import ChangeReview.Proofs.Repository.Folders
import ChangeReview.Proofs.Text.Paths

/-!
# Entries of a folder

A path leads to a folder, and a name in it leads one step further. Writing an entry or taking one
away leaves the way to the folder and its other entries as they were; a folder that is taken away
and made again is there without the entries it had.
-/
namespace ChangeReview.Disk

variable {d d' : Disk} {path : Text} {p : Place}

/-- Where a path starts. -/
def startOf (path : Text) : Place := if Text.startsWith path "/" then .root else []

theorem route_eq_ok {start : Place} {names : List Text} (h : route path = .ok (start, names)) :
    startOf path = start ∧ Text.pathComponents path = names := by
  unfold route at h
  split at h
  · exact absurd h (by simp)
  · split at h
    · exact absurd h (by simp)
    · exact Prod.mk.inj (Except.ok.inj h)

theorem isGiven_start {start : Place} {names : List Text} (h : route path = .ok (start, names)) :
    start.isGiven = true := by
  obtain ⟨rfl, -⟩ := route_eq_ok h
  unfold startOf
  split <;> rfl

theorem route_ne_absent (path : Text) : route path ≠ .error .absent := by
  unfold route
  split
  · simp
  · split <;> simp

/-- A path leads where following its names ends. -/
theorem locate_eq_ok_iff :
    d.locate path = .ok p ↔
      ∃ start names, route path = .ok (start, names) ∧ d.follow start names = .ok p := by
  unfold locate
  cases route path with
  | error fault => simp
  | ok r =>
    obtain ⟨start, names⟩ := r
    simp

/-- What is found stands where the path leads. -/
theorem find_eq_ok_iff_locate {node : Node} :
    d.find path = .ok (p, node) ↔ d.locate path = .ok p ∧ d.node? p = some node := by
  unfold find
  cases hlocate : d.locate path with
  | error fault => simp
  | ok q =>
    dsimp only
    cases hnode : d.node? q with
    | none =>
      refine iff_of_false (by simp) ?_
      rintro ⟨hq, hp⟩
      obtain rfl := Except.ok.inj hq
      exact absurd (hnode.symm.trans hp) (by simp)
    | some n =>
      constructor
      · intro h
        obtain ⟨rfl, rfl⟩ := Prod.mk.inj (Except.ok.inj h)
        exact ⟨rfl, hnode⟩
      · rintro ⟨hq, hp⟩
        obtain rfl := Except.ok.inj hq
        rw [Option.some.inj (hnode.symm.trans hp)]

/-- What a path leads to stands where following its names ends. -/
theorem find_eq_ok_iff {node : Node} :
    d.find path = .ok (p, node) ↔
      ∃ start names, route path = .ok (start, names) ∧ d.follow start names = .ok p ∧
        d.node? p = some node := by
  rw [find_eq_ok_iff_locate, locate_eq_ok_iff]
  simp only [← exists_and_right, and_assoc]

/-- A path makes the folders along its names. -/
theorem makeFolder_eq_ok_iff :
    d.makeFolder path = .ok d' ↔
      ∃ start names, route path = .ok (start, names) ∧ d.makeFolders start names = .ok d' := by
  unfold makeFolder
  cases route path with
  | error fault => simp
  | ok r =>
    obtain ⟨start, names⟩ := r
    simp

/-- A file is written in a folder, where no folder is. -/
theorem writeAt_eq_ok_iff {content : ByteArray} {now : Instant} :
    d.writeAt p content now = .ok d' ↔
      d.node? p ≠ some .folder ∧ d.node? p.dropLast = some .folder ∧
        d' = d.set p (.file content now.kept) := by
  unfold writeAt
  split
  · next hfolder => simp [hfolder]
  · next hfree =>
    split
    · next hparent => simpa [isFolderAt_iff.mp hparent, eq_comm] using fun _ => hfree
    · next hparent => simp [mt isFolderAt_iff.mpr hparent]

theorem write_eq_ok_iff {content : ByteArray} {now : Instant} :
    d.write path content now = .ok d' ↔
      ∃ p, d.locate path = .ok p ∧ d.writeAt p content now = .ok d' := by
  unfold write
  cases d.locate path with
  | error fault => simp
  | ok p => simp

theorem follow_ne_nullCharacter {here : Place} (names : List Text) :
    d.follow here names ≠ .error .nullCharacter := by
  induction names generalizing here with
  | nil => simp [follow]
  | cons name rest ih =>
    unfold follow
    split
    · simp
    · simp
    · split
      · exact ih
      · split
        · simp
        · exact ih

/-- Only the path itself tells that it has a null character. -/
theorem route_of_find_nullCharacter (h : d.find path = .error .nullCharacter) :
    route path = .error .nullCharacter := by
  unfold find locate at h
  cases hroute : route path with
  | error fault =>
    rw [hroute] at h
    rw [Except.error.inj h]
  | ok r =>
    obtain ⟨start, names⟩ := r
    rw [hroute] at h
    dsimp only at h
    cases hfollow : d.follow start names with
    | error fault =>
      rw [hfollow] at h
      exact absurd (hfollow.trans (congrArg _ (Except.error.inj h))) (follow_ne_nullCharacter names)
    | ok q =>
      rw [hfollow] at h
      dsimp only at h
      split at h <;> exact absurd h (by simp)

/-! ## The way to a folder -/

/-- Where all that stood still stands, a path leads to the same place. -/
theorem find_of_stands {node : Node} (hkeeps : ∀ q, d.Stands q → d'.node? q = some .folder)
    (hp : d'.node? p = d.node? p) (h : d.find path = .ok (p, node)) :
    d'.find path = .ok (p, node) := by
  obtain ⟨start, names, hroute, hfollow, hnode⟩ := find_eq_ok_iff.mp h
  have hstart : d.Stands start := Stands.of_given (isGiven_start hroute)
  exact find_eq_ok_iff.mpr
    ⟨start, names, hroute, follow_of_stands hkeeps hstart.dropLast hfollow, hp.trans hnode⟩

/-- Where all still stands, what a path led to is found as before. -/
theorem find_of_keeps {node : Node} (h : ∀ q n, d.node? q = some n → d'.node? q = some n)
    (hfind : d.find path = .ok (p, node)) : d'.find path = .ok (p, node) := by
  obtain ⟨-, -, -, -, hnode⟩ := find_eq_ok_iff.mp hfind
  exact find_of_stands (fun q hq => h q _ hq.node) ((h p node hnode).trans hnode.symm) hfind

/-- A folder that a path leads to stands. -/
theorem stands_of_find (h : d.find path = .ok (p, .folder)) : d.Stands p := by
  obtain ⟨start, names, hroute, hfollow, hnode⟩ := find_eq_ok_iff.mp h
  have hstart : d.Stands start := Stands.of_given (isGiven_start hroute)
  exact (stands_follow hstart.dropLast hfollow).of_dropLast hnode

/-- A made folder is there. -/
theorem find_of_makeFolder (h : d.makeFolder path = .ok d') :
    d.Grows d' ∧ ∃ p, d'.find path = .ok (p, .folder) := by
  obtain ⟨start, names, hroute, hmade⟩ := makeFolder_eq_ok_iff.mp h
  obtain ⟨hgrows, hfollow, hnode⟩ := makeFolders_spec hmade
  exact ⟨hgrows, start.along names, find_eq_ok_iff.mpr ⟨start, names, hroute, hfollow, hnode⟩⟩

/-- A folder that is there need not be made. -/
theorem makeFolder_of_find (h : d.find path = .ok (p, .folder)) : d.makeFolder path = .ok d := by
  obtain ⟨start, names, hroute, hfollow, hnode⟩ := find_eq_ok_iff.mp h
  exact makeFolder_eq_ok_iff.mpr ⟨start, names, hroute, makeFolders_of_follow hfollow hnode⟩

/-! ## Changes aside of the way -/

/-- A node that is put where no folder was takes no folder away. -/
theorem node?_set_of_stands (h : d.node? p ≠ some .folder) (node : Node) (q : Place)
    (hq : d.Stands q) : (d.set p node).node? q = some .folder := by
  have hne : q ≠ p := by
    rintro rfl
    exact h hq.node
  rw [node?_set d (not_given_of_ne h), if_neg hne]
  exact hq.node

/-- What is taken away where no folder was takes no folder away. -/
theorem node?_removeBelow_of_stands (h : d.node? p ≠ some .folder) (q : Place) (hq : d.Stands q) :
    (d.removeBelow p).node? q = some .folder := by
  rw [node?_removeBelow]
  split
  · rfl
  · rw [if_neg fun hprefix => h (hq p hprefix)]
    exact hq.node

/-! ## Entries -/

theorem isGiven_concat {name : Text} (hname : Text.IsName name) (hup : name ≠ "..") (p : Place) :
    Place.isGiven (p ++ [name]) = false := by
  unfold Place.isGiven
  rw [Bool.or_eq_false_iff]
  constructor
  · rw [beq_eq_false_iff_ne]
    intro hroot
    have hlast := congrArg List.getLast? hroot
    rw [List.getLast?_concat] at hlast
    obtain rfl : name = ['/'] := Option.some.inj hlast
    exact hname.slash List.mem_cons_self
  · rw [List.all_eq_false]
    exact ⟨name, by simp, by simpa using hup⟩

/-- The way to an entry is the way to the folder and its name. -/
theorem route_joinPath {name : Text} (hname : Text.IsName name)
    (hpassable : ∃ r, route (Text.joinPath path name) = .ok r) {start : Place} {names : List Text}
    (hroute : route path = .ok (start, names)) :
    route (Text.joinPath path name) = .ok (start, names ++ [name]) := by
  obtain ⟨r, hr⟩ := hpassable
  unfold route at hr hroute ⊢
  split at hr
  · exact absurd hr (by simp)
  · next hnull =>
    split at hr
    · exact absurd hr (by simp)
    · next hlong =>
      split at hroute
      · exact absurd hroute (by simp)
      · split at hroute
        · exact absurd hroute (by simp)
        · obtain ⟨rfl, rfl⟩ := Prod.mk.inj (Except.ok.inj hroute)
          rw [if_neg hnull, if_neg hlong, Text.startsWith_joinPath path hname,
            Text.pathComponents_joinPath path hname]

/-- In a folder that is there, a path that can be one leads to what stands under its last name. -/
theorem find_joinPath {name : Text} (hname : Text.IsName name) (hup : name ≠ "..")
    (hfolder : d.find path = .ok (p, .folder)) :
    d.find (Text.joinPath path name) =
      match route (Text.joinPath path name) with
      | .error fault => .error fault
      | .ok _ =>
        if maxNameBytes < (Text.toUtf8 name).size then .error .nameTooLong
        else match d.node? (p ++ [name]) with
          | some node => .ok (p ++ [name], node)
          | none => .error .absent := by
  obtain ⟨start, names, hroute, hfollow, hnode⟩ := find_eq_ok_iff.mp hfolder
  unfold find locate
  cases hpath : route (Text.joinPath path name) with
  | error fault => rfl
  | ok r =>
    rw [route_joinPath hname ⟨r, hpath⟩ hroute] at hpath
    obtain rfl := Except.ok.inj hpath
    dsimp only
    rw [follow_append, hfollow]
    have hlast : (Except.ok p >>= fun q => d.follow q [name]) = d.follow p [name] := rfl
    rw [hlast]
    by_cases hlong : maxNameBytes < (Text.toUtf8 name).size
    · have hend : d.follow p [name] = .error .nameTooLong := by
        unfold follow
        rw [hnode]
        dsimp only
        rw [if_neg (by simpa using hup), if_pos hlong]
      rw [if_pos hlong, hend]
    · have hend : d.follow p [name] = .ok (p ++ [name]) :=
        follow_down hnode hup (Nat.not_lt.mp hlong) []
      rw [if_neg hlong]
      cases hnext : d.node? (p ++ [name]) <;> simp [hend, hnext]

/-- The name can be that of an entry in the folder that the path leads to. -/
structure Fits (path name : Text) : Prop where
  isName : Text.IsName name
  notUp : name ≠ ".."
  short : (Text.toUtf8 name).size ≤ maxNameBytes
  passable : ∃ r, route (Text.joinPath path name) = .ok r

namespace Fits

variable {name : Text}

theorem isGiven (h : Fits path name) (p : Place) : Place.isGiven (p ++ [name]) = false :=
  isGiven_concat h.isName h.notUp p

theorem locate_eq (h : Fits path name) (hfolder : d.find path = .ok (p, .folder)) :
    d.locate (Text.joinPath path name) = .ok (p ++ [name]) := by
  obtain ⟨start, names, hroute, hfollow, hnode⟩ := find_eq_ok_iff.mp hfolder
  refine locate_eq_ok_iff.mpr ⟨start, names ++ [name], route_joinPath h.isName h.passable hroute, ?_⟩
  rw [follow_append, hfollow]
  exact follow_down hnode h.notUp h.short []

/-- The path of an entry leads to what stands there. -/
theorem find_eq (h : Fits path name) (hfolder : d.find path = .ok (p, .folder)) :
    d.find (Text.joinPath path name) =
      match d.node? (p ++ [name]) with
      | some node => .ok (p ++ [name], node)
      | none => .error .absent := by
  obtain ⟨r, hr⟩ := h.passable
  rw [find_joinPath h.isName h.notUp hfolder, hr]
  exact if_neg (Nat.not_lt.mpr h.short)

/-- An entry that is no folder can be written. -/
theorem write_eq (h : Fits path name) (hfolder : d.find path = .ok (p, .folder))
    (hfree : d.node? (p ++ [name]) ≠ some .folder) (content : ByteArray) (now : Instant) :
    d.write (Text.joinPath path name) content now =
      .ok (d.set (p ++ [name]) (.file content now.kept)) := by
  refine write_eq_ok_iff.mpr ⟨_, h.locate_eq hfolder, writeAt_eq_ok_iff.mpr ⟨hfree, ?_, rfl⟩⟩
  rw [List.dropLast_concat]
  exact (stands_of_find hfolder).node

/-- A name under which nothing is found, in a folder that is there, can be that of an entry. -/
theorem of_absent (hname : Text.IsName name) (hup : name ≠ "..")
    (hfolder : d.find path = .ok (p, .folder))
    (habsent : d.find (Text.joinPath path name) = .error .absent) :
    Fits path name ∧ d.node? (p ++ [name]) = none := by
  rw [find_joinPath hname hup hfolder] at habsent
  cases hroute : route (Text.joinPath path name) with
  | error fault =>
    rw [hroute] at habsent
    obtain rfl := Except.error.inj habsent
    exact absurd hroute (route_ne_absent _)
  | ok r =>
    rw [hroute] at habsent
    dsimp only at habsent
    split at habsent
    · exact absurd habsent (by simp)
    · next hshort =>
      refine ⟨⟨hname, hup, Nat.not_lt.mp hshort, r, hroute⟩, ?_⟩
      split at habsent
      · exact absurd habsent (by simp)
      · assumption

end Fits

/-- An entry that is taken away leaves the others. -/
theorem node?_removeBelow_entry {name : Text} (h : Fits path name) (p : Place) (other : Text) :
    (d.removeBelow (p ++ [name])).node? (p ++ [other]) =
      if other = name then none else d.node? (p ++ [other]) := by
  rw [node?_removeBelow]
  by_cases heq : other = name
  · subst heq
    rw [if_pos rfl, if_neg (by rw [h.isGiven p]; simp), if_pos List.prefix_rfl]
  · rw [if_neg heq]
    split
    · next hgiven => rw [d.node?_given hgiven]
    · refine if_neg fun hprefix => heq ?_
      have hsame := hprefix.eq_of_length (by simp)
      exact (List.cons.inj (List.append_cancel_left hsame)).1.symm

/-- A folder that is taken away can be made again, and then its entries are gone. -/
theorem makeFolder_removeBelow (h : d.find path = .ok (p, .folder)) :
    ∃ d', (d.removeBelow p).makeFolder path = .ok d' ∧ d'.find path = .ok (p, .folder) ∧
      ∀ name, d.node? (p ++ [name]) ≠ some .folder → d'.node? (p ++ [name]) = none := by
  obtain ⟨start, names, hroute, hfollow, hnode⟩ := find_eq_ok_iff.mp h
  have hmade := makeFolders_of_follow hfollow hnode
  have hfiles : ∀ q content modified, (d.removeBelow p).node? q = some (.file content modified) →
      d.node? q = some (.file content modified) := by
    intro q content modified hq
    rw [node?_removeBelow] at hq
    split at hq
    · exact absurd hq (by simp)
    · split at hq
      · exact absurd hq (by simp)
      · exact hq
  obtain ⟨d', hagain⟩ := makeFolders_again hmade hfiles (Stands.of_given (isGiven_start hroute))
  obtain ⟨hgrows, hfollow', hnode'⟩ := makeFolders_spec hagain
  rw [along_of_follow hfollow] at hfollow' hnode'
  refine ⟨d', makeFolder_eq_ok_iff.mpr ⟨start, names, hroute, hagain⟩,
    find_eq_ok_iff.mpr ⟨start, names, hroute, hfollow', hnode'⟩, fun name hname => ?_⟩
  have hgone : (d.removeBelow p).node? (p ++ [name]) = none := by
    rw [node?_removeBelow, if_neg (by rw [not_given_of_ne hname]; simp),
      if_pos (List.prefix_append p [name])]
  rcases hgrows.adds _ hgone with hnone | hnew
  · exact hnone
  · exact absurd (node?_of_made hmade hagain hgone hnew) hname

end ChangeReview.Disk
