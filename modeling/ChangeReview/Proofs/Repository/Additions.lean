import ChangeReview.Proofs.Repository.Entries

/-!
# Additions to a disk

A disk is a tree when its entries have names that paths can have and stand in folders. An empty disk
is a tree, and everything that is done with a disk keeps it one.

Making folders and writing a new file puts entries behind those that the disk has. On a disk that is
a tree, what is behind its entries is new in every folder that was there.
-/
namespace ChangeReview

namespace Text

theorem forall_splitBy {p : Char → Bool} (t : Text) : ∀ w ∈ splitBy p t, ∀ c ∈ w, p c = false := by
  induction t with
  | nil => simp [splitBy]
  | cons c t ih =>
    intro w hw
    unfold splitBy at hw
    split at hw
    · rcases List.mem_cons.mp hw with rfl | hw
      · simp
      · exact ih w hw
    · next hc hnil => exact absurd hnil (splitBy_ne_nil p t)
    · next hc hsplit =>
      rw [hsplit] at ih
      rcases List.mem_cons.mp hw with rfl | hw
      · intro d hd
        rcases List.mem_cons.mp hd with rfl | hd
        · exact hc
        · exact ih _ List.mem_cons_self d hd
      · exact ih w (List.mem_cons_of_mem _ hw)

theorem isName_of_mem_pathComponents {t name : Text} (h : name ∈ pathComponents t) : IsName name := by
  obtain ⟨hmem, hkept⟩ := List.mem_filter.mp h
  rw [Bool.and_eq_true] at hkept
  refine ⟨fun hslash => ?_, ?_, ?_⟩
  · exact absurd (forall_splitBy t name hmem '/' hslash) (by decide)
  · simpa using hkept.1
  · simpa using hkept.2

end Text

namespace Disk

/-- The last name of a place is one that a path can have. -/
def HasName (p : Place) : Prop := ∃ front name, p = front ++ [name] ∧ Text.IsName name ∧ name ≠ ".."

/-- Every entry has a name and stands in a folder. -/
structure IsTree (d : Disk) : Prop where
  names : ∀ e ∈ d.entries, HasName e.1
  parents : ∀ e ∈ d.entries, d.node? e.1.dropLast = some .folder

theorem HasName.isGiven {p : Place} (h : HasName p) : p.isGiven = false := by
  obtain ⟨front, name, rfl, hname, hup⟩ := h
  exact isGiven_concat hname hup front

theorem node?_of_mem {d : Disk} (hd : d.IsTree) {e : Place × Node} (he : e ∈ d.entries) :
    ∃ node, d.node? e.1 = some node := by
  unfold node?
  rw [(hd.names e he).isGiven, if_neg Bool.false_ne_true]
  cases hlookup : d.entries.lookup e.1 with
  | some node => exact ⟨node, rfl⟩
  | none =>
    have hne := List.lookup_eq_none_iff.mp hlookup e he
    simp at hne

theorem isTree_empty : IsTree {} := ⟨by simp, by simp⟩

/-- A tree stays a tree when something is put into one of its folders where no folder is. -/
theorem IsTree.set {d : Disk} (hd : d.IsTree) {p : Place} (hp : d.node? p ≠ some .folder)
    (hname : HasName p) (hparent : d.node? p.dropLast = some .folder) (node : Node) :
    (d.set p node).IsTree := by
  have hfolders : ∀ q, d.node? q = some .folder → (d.set p node).node? q = some .folder := by
    intro q hq
    have hne : q ≠ p := by
      rintro rfl
      exact hp hq
    rw [node?_set d hname.isGiven, if_neg hne]
    exact hq
  have hentries : ∀ e ∈ (d.set p node).entries, e ∈ d.entries ∨ e = (p, node) := by
    intro e he
    rcases List.mem_append.mp he with he | he
    · exact .inl (List.mem_of_mem_filter he)
    · exact .inr (List.mem_singleton.mp he)
  constructor
  · intro e he
    rcases hentries e he with he | rfl
    · exact hd.names e he
    · exact hname
  · intro e he
    rcases hentries e he with he | rfl
    · exact hfolders _ (hd.parents e he)
    · exact hfolders _ hparent

theorem IsTree.passed {d : Disk} (hd : d.IsTree) {here : Place} {name : Text}
    (hname : Text.IsName name) (hhere : d.node? here = some .folder) : (d.passed here name).IsTree := by
  rcases passed_cases d here name with heq | ⟨hup, -, hmissing, heq⟩
  · rwa [heq]
  · rw [heq]
    refine hd.set (by simp [hmissing]) ⟨here, name, rfl, hname, hup⟩ ?_ .folder
    rwa [List.dropLast_concat]

theorem IsTree.makeFolders {d d' : Disk} (hd : d.IsTree) {here : Place} {names : List Text}
    (hnames : ∀ name ∈ names, Text.IsName name) (h : d.makeFolders here names = .ok d') :
    d'.IsTree := by
  induction names generalizing d here with
  | nil =>
    obtain ⟨rfl, -⟩ := makeFolders_nil_ok h
    exact hd
  | cons name rest ih =>
    obtain ⟨hname, hrest⟩ := List.forall_mem_cons.mp hnames
    obtain ⟨hhere, -, hmade⟩ := makeFolders_cons_ok h
    exact ih (hd.passed hname hhere) hrest hmade

theorem isName_of_route {path : Text} {start : Place} {names : List Text}
    (h : route path = .ok (start, names)) : ∀ name ∈ names, Text.IsName name := by
  obtain ⟨-, rfl⟩ := route_eq_ok h
  exact fun name hname => Text.isName_of_mem_pathComponents hname

theorem IsTree.makeFolder {d d' : Disk} (hd : d.IsTree) {path : Text}
    (h : d.makeFolder path = .ok d') : d'.IsTree := by
  obtain ⟨start, names, hroute, hmade⟩ := makeFolder_eq_ok_iff.mp h
  exact hd.makeFolders (isName_of_route hroute) hmade

/-- What stands below the given places is an entry. -/
theorem mem_of_node? {d : Disk} {p : Place} {node : Node} (hp : p.isGiven = false)
    (h : d.node? p = some node) : (p, node) ∈ d.entries := by
  unfold node? at h
  rw [hp, if_neg Bool.false_ne_true] at h
  obtain ⟨before, after, hentries, -⟩ := List.lookup_eq_some_iff.mp h
  rw [hentries]
  exact List.mem_append_right before List.mem_cons_self

theorem IsTree.node?_dropLast {d : Disk} (hd : d.IsTree) {p : Place} {node : Node}
    (h : d.node? p = some node) : d.node? p.dropLast = some .folder := by
  by_cases hp : p.isGiven = true
  · exact node?_given d (Place.isGiven_dropLast hp)
  · exact hd.parents _ (mem_of_node? (Bool.eq_false_iff.mpr hp) h)

/-- What stands somewhere stands in a folder. -/
theorem IsTree.node?_parent {d : Disk} (hd : d.IsTree) {p : Place} {node : Node}
    (h : d.node? p = some node) : d.node? p.parent = some .folder := by
  rcases Place.parent_cases p with hgiven | hparent
  · exact node?_given d hgiven
  · rw [hparent]
    exact hd.node?_dropLast h

/-- Names lead from a folder to a folder, or to a place that has a name. -/
theorem IsTree.follow {d : Disk} (hd : d.IsTree) {here p : Place} {names : List Text}
    (hnames : ∀ name ∈ names, Text.IsName name) (h : d.follow here names = .ok p)
    (hhere : d.node? here = some .folder ∨ HasName here) : d.node? p = some .folder ∨ HasName p := by
  induction names generalizing here with
  | nil => exact Except.ok.inj h ▸ hhere
  | cons name rest ih =>
    obtain ⟨hname, hrest⟩ := List.forall_mem_cons.mp hnames
    obtain ⟨hfolder, -, hfollow⟩ := follow_cons_ok h
    refine ih hrest hfollow ?_
    unfold Place.step
    split
    · exact .inl (hd.node?_parent hfolder)
    · next hup => exact .inr ⟨here, name, rfl, hname, by simpa using hup⟩

theorem IsTree.write {d d' : Disk} (hd : d.IsTree) {path : Text} {content : ByteArray}
    {now : Instant} (h : d.write path content now = .ok d') : d'.IsTree := by
  obtain ⟨p, hlocate, hwrite⟩ := write_eq_ok_iff.mp h
  obtain ⟨start, names, hroute, hfollow⟩ := locate_eq_ok_iff.mp hlocate
  obtain ⟨hfree, hparent, rfl⟩ := writeAt_eq_ok_iff.mp hwrite
  have hstart := node?_given d (isGiven_start hroute)
  have hplace := hd.follow (isName_of_route hroute) hfollow (.inl hstart)
  exact hd.set hfree (hplace.resolve_left hfree) hparent _

/-- A tree stays a tree when something is taken away with all that is below it. -/
theorem IsTree.removeBelow {d : Disk} (hd : d.IsTree) (p : Place) : (d.removeBelow p).IsTree := by
  have hkept : ∀ e ∈ (d.removeBelow p).entries, e ∈ d.entries ∧ ¬ p <+: e.1 := by
    intro e he
    obtain ⟨hmem, hout⟩ := List.mem_filter.mp he
    exact ⟨hmem, fun hbelow => by simp [List.isPrefixOf_iff_prefix.mpr hbelow] at hout⟩
  constructor
  · intro e he
    exact hd.names e (hkept e he).1
  · intro e he
    obtain ⟨hmem, hout⟩ := hkept e he
    have hparent : ¬ p <+: e.1.dropLast := fun hbelow =>
      hout (hbelow.trans (List.dropLast_prefix e.1))
    rw [node?_removeBelow, if_neg hparent, hd.parents e hmem, ite_self]

end Disk

/-! ## Additions -/

namespace Disk

/-- The second disk is the first one with more entries where nothing stood; the new ones have names
and are folders, or files under names that `spare` has. -/
def Adds (spare : Text → Prop) (d d' : Disk) : Prop :=
  ∃ extra, d'.entries = d.entries ++ extra ∧ ∀ e ∈ extra, d.node? e.1 = none ∧ HasName e.1 ∧
    (d'.node? e.1 = some .folder ∨ ∃ name ∈ e.1.getLast?, spare name)

namespace Adds

variable {spare : Text → Prop} {d d' d'' : Disk}

theorem refl (d : Disk) : Adds spare d d := ⟨[], by simp, by simp⟩

/-- What stood stands. -/
theorem keeps (h : Adds spare d d') (p : Place) (node : Node) (hp : d.node? p = some node) :
    d'.node? p = some node := by
  obtain ⟨extra, hentries, -⟩ := h
  unfold node? at hp ⊢
  split
  · next hgiven => rwa [if_pos hgiven] at hp
  · next hgiven =>
    rw [if_neg hgiven] at hp
    rw [hentries, List.lookup_append, hp]
    rfl

theorem trans (h : Adds spare d d') (h' : Adds spare d' d'') : Adds spare d d'' := by
  obtain ⟨extra, hentries, hextra⟩ := id h
  obtain ⟨extra', hentries', hextra'⟩ := id h'
  refine ⟨extra ++ extra', by rw [hentries', hentries, List.append_assoc], fun e he => ?_⟩
  rcases List.mem_append.mp he with he | he
  · obtain ⟨hnone, hname, hkind⟩ := hextra e he
    exact ⟨hnone, hname, hkind.imp_left fun hfolder => h'.keeps _ _ hfolder⟩
  · obtain ⟨hnone, hname, hkind⟩ := hextra' e he
    refine ⟨?_, hname, hkind⟩
    cases hold : d.node? e.1 with
    | none => rfl
    | some node => exact absurd ((h.keeps _ _ hold).symm.trans hnone) (by simp)

/-- One new entry. -/
theorem set {p : Place} (hp : d.node? p = none) (hname : HasName p) (node : Node)
    (hkind : node = .folder ∨ ∃ name ∈ p.getLast?, spare name) : Adds spare d (d.set p node) := by
  have hfilter : (d.entries.filter fun e => e.1 != p) = d.entries := by
    refine List.filter_eq_self.mpr fun e he => ?_
    unfold node? at hp
    rw [hname.isGiven, if_neg Bool.false_ne_true] at hp
    have hne := List.lookup_eq_none_iff.mp hp e he
    rw [bne_comm]
    exact hne
  refine ⟨[(p, node)], by rw [Disk.set, hfilter], fun e he => ?_⟩
  obtain rfl := List.mem_singleton.mp he
  refine ⟨hp, hname, hkind.imp_left ?_⟩
  rintro rfl
  rw [node?_set d hname.isGiven, if_pos rfl]

end Adds

theorem adds_passed {spare : Text → Prop} (d : Disk) (here : Place) {name : Text}
    (hname : Text.IsName name) : Adds spare d (d.passed here name) := by
  rcases passed_cases d here name with heq | ⟨hup, -, hmissing, heq⟩
  · rw [heq]
    exact Adds.refl d
  · rw [heq]
    exact Adds.set hmissing ⟨here, name, rfl, hname, hup⟩ .folder (.inl rfl)

theorem adds_makeFolders {spare : Text → Prop} {d d' : Disk} {here : Place} {names : List Text}
    (hnames : ∀ name ∈ names, Text.IsName name) (h : d.makeFolders here names = .ok d') :
    Adds spare d d' := by
  induction names generalizing d here with
  | nil =>
    obtain ⟨rfl, -⟩ := makeFolders_nil_ok h
    exact Adds.refl d'
  | cons name rest ih =>
    obtain ⟨hname, hrest⟩ := List.forall_mem_cons.mp hnames
    obtain ⟨-, -, hmade⟩ := makeFolders_cons_ok h
    exact (adds_passed d here hname).trans (ih hrest hmade)

theorem adds_makeFolder {spare : Text → Prop} {d d' : Disk} {path : Text}
    (h : d.makeFolder path = .ok d') : Adds spare d d' := by
  obtain ⟨start, names, hroute, hmade⟩ := makeFolder_eq_ok_iff.mp h
  exact adds_makeFolders (isName_of_route hroute) hmade

/-! ## Paths on the larger disk -/

section Paths

variable {spare : Text → Prop} {d d' : Disk} {here p : Place} {path : Text}

theorem IsTree.node?_child (hd : d.IsTree) (hp : d.node? p = none) (name : Text) :
    d.node? (p ++ [name]) = none := by
  cases hnode : d.node? (p ++ [name]) with
  | none => rfl
  | some node =>
    have hparent := hd.node?_dropLast hnode
    rw [List.dropLast_concat] at hparent
    exact absurd (hp.symm.trans hparent) (by simp)

/-- Below a place where nothing stands nothing stands. -/
theorem IsTree.node?_below (hd : d.IsTree) (hp : d.node? p = none) (names : List Text) :
    d.node? (p ++ names) = none := by
  induction names generalizing p with
  | nil => rwa [List.append_nil]
  | cons name rest ih =>
    rw [List.append_cons]
    exact ih (hd.node?_child hp name)

/-- A way that fails for another reason than a missing folder fails for it on the larger disk. -/
theorem Adds.follow (h : Adds spare d d') {names : List Text}
    (hthere : d.follow here names ≠ .error .absent) :
    d'.follow here names = d.follow here names := by
  induction names generalizing here with
  | nil => rfl
  | cons name rest ih =>
    unfold Disk.follow at hthere ⊢
    cases hnode : d.node? here with
    | none =>
      rw [hnode] at hthere
      exact absurd rfl hthere
    | some node =>
      rw [hnode] at hthere
      rw [h.keeps here node hnode]
      cases node with
      | file content modified => rfl
      | folder =>
        dsimp only at hthere ⊢
        split
        · next hup => exact ih (by rwa [if_pos hup] at hthere)
        · next hup =>
          rw [if_neg hup] at hthere
          split
          · rfl
          · next hshort => exact ih (by rwa [if_neg hshort] at hthere)

/-- A way that ends at a missing folder, and what comes behind that. -/
theorem follow_absent {names : List Text} (h : d.follow here names = .error .absent) :
    ∃ front name rest p, names = front ++ name :: rest ∧ d.follow here front = .ok p ∧
      d.node? p = none := by
  induction names generalizing here with
  | nil => exact absurd h (by simp [follow])
  | cons name rest ih =>
    cases hnode : d.node? here with
    | none => exact ⟨[], name, rest, here, rfl, rfl, hnode⟩
    | some node =>
      cases node with
      | file content modified =>
        unfold follow at h
        rw [hnode] at h
        exact absurd h (by simp)
      | folder =>
        have hstep : ∃ next, ∀ more, d.follow here (name :: more) = d.follow next more := by
          by_cases hup : name = ".."
          · subst hup
            exact ⟨_, follow_up hnode⟩
          · by_cases hshort : (Text.toUtf8 name).size ≤ maxNameBytes
            · exact ⟨_, follow_down hnode hup hshort⟩
            · unfold follow at h
              rw [hnode] at h
              dsimp only at h
              rw [if_neg (by simpa using hup), if_pos (Nat.not_le.mp hshort)] at h
              exact absurd h (by simp)
        obtain ⟨next, hnext⟩ := hstep
        rw [hnext] at h
        obtain ⟨front, last, more, p, rfl, hfollow, hp⟩ := ih h
        exact ⟨name :: front, last, more, p, rfl, (hnext front).trans hfollow, hp⟩

/-- The name is that of a folder that can be made. -/
def CanBeMade (name : Text) : Prop := name ≠ ".." ∧ (Text.toUtf8 name).size ≤ maxNameBytes

/-- Names of folders that can be made lead down, unless something is missing or in the way. -/
theorem follow_down_all (here : Place) {names : List Text} (h : ∀ name ∈ names, CanBeMade name) :
    d.follow here names = .ok (here ++ names) ∨ d.follow here names = .error .absent ∨
      d.follow here names = .error .blocked := by
  induction names generalizing here with
  | nil => exact .inl (congrArg Except.ok (List.append_nil here).symm)
  | cons name rest ih =>
    obtain ⟨hup, hshort⟩ := h name List.mem_cons_self
    have hrest := ih (here ++ [name]) fun n hn => h n (List.mem_cons_of_mem name hn)
    cases hnode : d.node? here with
    | none => exact .inr (.inl (by unfold follow; rw [hnode]))
    | some node =>
      cases node with
      | file content modified => exact .inr (.inr (by unfold follow; rw [hnode]))
      | folder =>
        rw [follow_down hnode hup hshort, List.append_cons here name rest]
        exact hrest

/-- Wherever the path comes to a folder that is missing, the rest of it names folders that can be
made there; it does not lead back. -/
def Straight (d : Disk) (path : Text) : Prop :=
  ∀ front rest p, Text.pathComponents path = front ++ rest → d.follow (startOf path) front = .ok p →
    d.node? p = none → ∀ name ∈ rest, CanBeMade name

/-- A path to a folder that is there is straight. -/
theorem straight_of_find (h : d.find path = .ok (p, .folder)) : d.Straight path := by
  obtain ⟨start, names, hroute, hfollow, -⟩ := find_eq_ok_iff.mp h
  obtain ⟨rfl, rfl⟩ := route_eq_ok hroute
  intro front rest q hsplit hfront hq
  cases rest with
  | nil => simp
  | cons name rest =>
    rw [hsplit, follow_append, hfront] at hfollow
    have hfail : d.follow q (name :: rest) = .error .absent := by
      unfold follow
      rw [hq]
    exact absurd (hfail.symm.trans hfollow) (by simp)

/-- A straight path leads to what it led to, or from nothing to what is new. -/
theorem Adds.find (h : Adds spare d d') (hd : d.IsTree) (hpath : d.Straight path) :
    d'.find path = d.find path ∨
      d.find path = .error .absent ∧ (d'.find path = .error .blocked ∨
        ∃ p node, d.node? p = none ∧ d'.find path = .ok (p, node)) := by
  unfold Disk.find locate
  cases hroute : route path with
  | error fault => exact .inl rfl
  | ok r =>
    obtain ⟨start, names⟩ := r
    obtain ⟨rfl, rfl⟩ := route_eq_ok hroute
    dsimp only
    by_cases hthere : d.follow (startOf path) (Text.pathComponents path) = .error .absent
    · obtain ⟨front, name, rest, p, hsplit, hfront, hp⟩ := follow_absent hthere
      have hfront' := h.follow (by rw [hfront]; simp)
      have hsplit' : d'.follow (startOf path) (Text.pathComponents path) =
          d'.follow p (name :: rest) := by
        rw [hsplit, follow_append, hfront', hfront]
        rfl
      rw [hthere, hsplit']
      rcases follow_down_all p (hpath front _ p hsplit hfront hp) with hdown | hdown | hdown
      · rw [hdown]
        dsimp only
        cases d'.node? (p ++ name :: rest) with
        | none => exact .inl rfl
        | some node => exact .inr ⟨rfl, .inr ⟨_, node, hd.node?_below hp _, rfl⟩⟩
      · rw [hdown]
        exact .inl rfl
      · rw [hdown]
        exact .inr ⟨rfl, .inl rfl⟩
    · rw [h.follow hthere]
      cases d.follow (startOf path) (Text.pathComponents path) with
      | error fault => exact .inl rfl
      | ok p =>
        dsimp only
        cases hnode : d.node? p with
        | some node =>
          rw [h.keeps p node hnode]
          exact .inl rfl
        | none =>
          cases d'.node? p with
          | none => exact .inl rfl
          | some node => exact .inr ⟨rfl, .inr ⟨p, node, hnode, rfl⟩⟩

/-- A name that can be made leads straight on. -/
theorem Straight.joinPath (hpath : d.Straight path) {name : Text} (hname : Text.IsName name)
    (hmade : CanBeMade name) : d.Straight (Text.joinPath path name) := by
  intro front rest p hsplit hfront hp
  have hstart : startOf (Text.joinPath path name) = startOf path := by
    unfold startOf
    rw [Text.startsWith_joinPath path hname]
  rw [Text.pathComponents_joinPath path hname] at hsplit
  rw [hstart] at hfront
  rcases List.eq_nil_or_concat rest with rfl | ⟨names, last, rfl⟩
  · simp
  · rw [List.concat_eq_append, ← List.append_assoc] at hsplit
    obtain ⟨hnames, hlast⟩ := List.append_inj' hsplit rfl
    obtain rfl := (List.cons.inj hlast).1
    intro n hn
    rw [List.concat_eq_append, List.mem_append, List.mem_singleton] at hn
    rcases hn with hn | rfl
    · exact hpath front names p hnames hfront hp n hn
    · exact hmade

end Paths

end Disk

end ChangeReview
