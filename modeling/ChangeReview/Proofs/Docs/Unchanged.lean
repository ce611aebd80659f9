import ChangeReview.Docs.Folder
import ChangeReview.Proofs.Repository.Additions
import ChangeReview.Proofs.Text.Ordering

/-!
# Documents that stay as they are

New folders and new files that are not markdown change no document of a repository that is there.
-/
namespace ChangeReview.Docs

open Disk

/-- No document is called so. -/
def NoDocument (name : Text) : Prop := Text.endsWith name ".md" = false

variable {d d' : Disk} {p : Place} {path : Text}

theorem namesIn_adds {extra : List (Place × Node)} (h : d'.entries = d.entries ++ extra) (p : Place) :
    d'.namesIn p = d.namesIn p ++ Disk.namesIn ⟨extra⟩ p := by
  unfold Disk.namesIn
  rw [h, List.filterMap_append]

theorem mem_namesIn {name : Text} (h : name ∈ d.namesIn p) : ∃ e ∈ d.entries, e.1 = p ++ [name] := by
  obtain ⟨e, he, hname⟩ := List.mem_filterMap.mp h
  refine ⟨e, he, ?_⟩
  split at hname
  · next last hlast =>
    split at hname
    · next hp =>
      obtain rfl := Option.some.inj hname
      obtain ⟨front, hfront⟩ := List.getLast?_eq_some_iff.mp hlast
      rw [hfront, List.dropLast_concat] at hp
      rw [hfront, hp]
    · exact absurd hname (by simp)
  · exact absurd hname (by simp)

/-- Reading an entry of a folder asks only what stands under its name. -/
theorem readText_joinPath {name : Text} (hname : Text.IsName name) (hup : name ≠ "..")
    (hfolder : d.find path = .ok (p, .folder)) (hfolder' : d'.find path = .ok (p, .folder))
    (hnode : d'.node? (p ++ [name]) = d.node? (p ++ [name])) :
    d'.readText (Text.joinPath path name) = d.readText (Text.joinPath path name) := by
  unfold readText readBytes
  rw [find_joinPath hname hup hfolder, find_joinPath hname hup hfolder', hnode]

/-- A folder in a folder is no text. -/
theorem readText_folder {name : Text} (hname : Text.IsName name) (hup : name ≠ "..")
    (hfolder : d.find path = .ok (p, .folder)) (hnode : d.node? (p ++ [name]) = some .folder) :
    (d.readText (Text.joinPath path name)).toOption = none := by
  unfold readText readBytes
  rw [find_joinPath hname hup hfolder, hnode]
  cases route (Text.joinPath path name) with
  | error fault => rfl
  | ok r =>
    dsimp only
    by_cases hlong : maxNameBytes < (Text.toUtf8 name).size
    · rw [if_pos hlong]
      rfl
    · rw [if_neg hlong]
      rfl

/-! ## The documents of a folder -/

/-- The document under a name in a folder, if it can be read. -/
def document? (d : Disk) (folder name : Text) : Option Document :=
  (d.readText (Text.joinPath folder name)).toOption.map fun text =>
    Document.parse text (fileStem name)

/-- The documents in the folder at a path. -/
theorem load_eq {repository : Text} (h : d.find (folderPath repository) = .ok (p, .folder)) :
    load d repository = .ok ((((d.namesIn p).filter fun n => Text.endsWith n ".md").mergeSort
      Text.le).filterMap (document? d (folderPath repository))) := by
  have hpresent : present d repository = .ok true := by
    unfold present isFolder Disk.node
    rw [h]
    rfl
  have hnames : d.namesAt (folderPath repository) = d.namesIn p := by
    unfold find at h
    unfold namesAt
    cases hlocate : d.locate (folderPath repository) with
    | error fault =>
      rw [hlocate] at h
      exact absurd h (by simp)
    | ok q =>
      rw [hlocate] at h
      dsimp only at h
      split at h
      · rw [(Prod.mk.inj (Except.ok.inj h)).1]
      · exact absurd h (by simp)
  unfold load
  rw [hpresent]
  simp only [bind, Except.bind, pure, Except.pure, hnames]
  rfl

/-- In a folder where no document was added, the documents are those under the names it had. -/
theorem load_adds {repository : Text} (h : Adds NoDocument d d')
    (hfolder : d'.find (folderPath repository) = .ok (p, .folder)) :
    load d' repository = .ok ((((d.namesIn p).filter fun n => Text.endsWith n ".md").mergeSort
      Text.le).filterMap (document? d' (folderPath repository))) := by
  obtain ⟨extra, hentries, hextra⟩ := h
  rw [load_eq hfolder, namesIn_adds hentries, List.filter_append,
    Text.filterMap_mergeSort_append fun name hname => ?_]
  obtain ⟨hmem, hmarkdown⟩ := List.mem_filter.mp hname
  obtain ⟨e, he, hplace⟩ := mem_namesIn hmem
  obtain ⟨-, ⟨front, last, hlast, hisName, hup⟩, hkind⟩ := hextra e he
  rw [hplace] at hlast hkind
  obtain ⟨rfl, heq⟩ := List.append_inj' hlast rfl
  obtain rfl := (List.cons.inj heq).1
  have hnode : d'.node? (p ++ [name]) = some .folder := by
    rcases hkind with hnode | ⟨n, hn, hnone⟩
    · exact hnode
    · rw [List.getLast?_concat, Option.mem_some_iff] at hn
      subst hn
      exact absurd (hnone.symm.trans hmarkdown) (by simp)
  unfold document?
  rw [readText_folder hisName hup hfolder hnode]
  rfl

/-- A folder keeps its documents. -/
theorem load_of_adds {repository : Text} (hd : d.IsTree) (h : Adds NoDocument d d')
    (hfolder : d.find (folderPath repository) = .ok (p, .folder)) :
    load d' repository = load d repository := by
  have hfolder' := find_of_keeps h.keeps hfolder
  rw [load_adds h hfolder', load_eq hfolder]
  congr 1
  refine List.filterMap_congr fun name hname => ?_
  obtain ⟨e, he, hplace⟩ := mem_namesIn (List.mem_of_mem_filter (List.mem_mergeSort.mp hname))
  obtain ⟨front, last, hlast, hisName, hup⟩ := hd.names e he
  obtain ⟨node, hnode⟩ := node?_of_mem hd he
  rw [hplace] at hlast hnode
  obtain ⟨rfl, heq⟩ := List.append_inj' hlast rfl
  obtain rfl := (List.cons.inj heq).1
  unfold document?
  rw [readText_joinPath hisName hup hfolder hfolder' ((h.keeps _ _ hnode).trans hnode.symm)]

/-- A new folder has no documents. -/
theorem load_new {repository : Text} (hd : d.IsTree) (h : Adds NoDocument d d')
    (hnew : d.node? p = none) (hfolder : d'.find (folderPath repository) = .ok (p, .folder)) :
    load d' repository = .ok [] := by
  have hnames : d.namesIn p = [] := by
    refine List.eq_nil_iff_forall_not_mem.mpr fun name hname => ?_
    obtain ⟨e, he, hplace⟩ := mem_namesIn hname
    have hparent := hd.parents e he
    rw [hplace, List.dropLast_concat, hnew] at hparent
    exact absurd hparent (by simp)
  rw [load_adds h hfolder, hnames, List.filter_nil, List.mergeSort_nil, List.filterMap_nil]

/-! ## The documents of a change -/

theorem isName_folderName : Text.IsName folderName := ⟨by decide, by decide, by decide⟩

theorem present_eq (d : Disk) (repository : Text) :
    present d repository =
      match d.find (folderPath repository) with
      | .ok (_, .folder) => .ok true
      | .error .nameTooLong => .error (PathFault.nameTooLong.toFault (folderPath repository))
      | _ => .ok false := by
  unfold present isFolder Disk.node
  rcases d.find (folderPath repository) with fault | ⟨q, node⟩
  · cases fault <;> rfl
  · cases node <;> rfl

/-- Additions without documents leave the documentation folder of a repository as it was, or make
one that is empty. -/
theorem present_adds {repository : Text} (hd : d.IsTree) (h : Adds NoDocument d d')
    (hrepository : d.Straight repository) :
    present d' repository = present d repository ∧
        (present d repository = .ok true → load d' repository = load d repository) ∨
      present d repository = .ok false ∧ present d' repository = .ok true ∧
        load d' repository = .ok [] := by
  have hfolder := hrepository.joinPath isName_folderName ⟨by decide, by decide⟩
  rw [present_eq, present_eq]
  rcases h.find hd hfolder with hsame | ⟨hnone, hblocked | ⟨p, node, hnew, hfind⟩⟩
  · unfold folderPath
    rw [hsame]
    refine .inl ⟨rfl, fun htrue => ?_⟩
    split at htrue
    · next hfind => exact load_of_adds hd h hfind
    · exact absurd htrue (by simp)
    · exact absurd htrue (by simp)
  · unfold folderPath
    rw [hnone, hblocked]
    exact .inl ⟨rfl, fun htrue => absurd htrue (by simp)⟩
  · unfold folderPath
    rw [hnone, hfind]
    cases node with
    | folder => exact .inr ⟨rfl, rfl, load_new hd h hnew hfind⟩
    | file content modified => exact .inl ⟨rfl, fun htrue => absurd htrue (by simp)⟩

end ChangeReview.Docs
