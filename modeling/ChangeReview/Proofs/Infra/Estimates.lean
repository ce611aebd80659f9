import ChangeReview.Infra.Cost
import ChangeReview.Proofs.Change.GitFormat
import ChangeReview.Proofs.Order.FirstSeen

/-!
# Estimates of a change

Each kind of resource is estimated once, where it is added first. So the estimates for some files and
more files are those for the first ones, followed by those for the others whose kind is new. Of the
text of a file only the added lines are read: what is removed or stays is never estimated.
-/
namespace ChangeReview.Infra

open ChangeReview.Order

/-! ## Kinds of resources -/

@[simp] theorem kind_estimate (kind : Text) : (estimate kind).kind = kind := by
  unfold estimate
  split <;> rfl

theorem addedKinds_eq (files : List ChangedFile) :
    addedKinds files = ((files.flatMap resourcesOf).map Resource.kind).foldl addNew [] := rfl

theorem map_kind_estimates (files : List ChangedFile) :
    (estimates files).map Estimate.kind = addedKinds files := by
  rw [estimates, List.map_map]
  exact (List.map_congr_left fun kind _ => kind_estimate kind).trans (List.map_id _)

theorem mem_addedKinds {files : List ChangedFile} {kind : Text} :
    kind ∈ addedKinds files ↔ ∃ f ∈ files, ∃ r ∈ resourcesOf f, r.kind = kind := by
  simp only [addedKinds_eq, mem_foldl_addNew, List.not_mem_nil, false_or, List.mem_map,
    List.mem_flatMap]
  constructor
  · rintro ⟨r, ⟨f, hf, hr⟩, hkind⟩
    exact ⟨f, hf, r, hr, hkind⟩
  · rintro ⟨f, hf, r, hr, hkind⟩
    exact ⟨r, ⟨f, hf, hr⟩, hkind⟩

theorem nodup_addedKinds (files : List ChangedFile) : (addedKinds files).Nodup :=
  nodup_foldl_addNew _ List.nodup_nil

theorem addedKinds_append (a b : List ChangedFile) :
    addedKinds (a ++ b) =
      addedKinds a ++ (addedKinds b).filter fun kind => !(addedKinds a).contains kind := by
  rw [addedKinds_eq, List.flatMap_append, List.map_append, List.foldl_append, foldl_addNew]
  rfl

theorem estimates_append (a b : List ChangedFile) :
    estimates (a ++ b) = estimates a ++
      (estimates b).filter fun e => e.kind ∉ (estimates a).map Estimate.kind := by
  rw [estimates, addedKinds_append, List.map_append, map_kind_estimates, estimates, estimates,
    List.filter_map]
  simp [Function.comp_def]

theorem mem_estimates {files : List ChangedFile} {e : Estimate} :
    e ∈ estimates files ↔ ∃ f ∈ files, ∃ r ∈ resourcesOf f, e = estimate r.kind := by
  simp only [estimates, List.mem_map, mem_addedKinds]
  constructor
  · rintro ⟨kind, ⟨f, hf, r, hr, rfl⟩, rfl⟩
    exact ⟨f, hf, r, hr, rfl⟩
  · rintro ⟨f, hf, r, hr, rfl⟩
    exact ⟨r.kind, ⟨f, hf, r, hr, rfl⟩, rfl⟩

/-! ## What is read of a file -/

/-- The file with nothing in its text but the lines that it adds. -/
def additionsOnly (f : ChangedFile) : ChangedFile :=
  { f with diff := Text.join "\n" ((Text.lines f.diff).filter Diff.isAddition) }

theorem addedLines_additionsOnly (f : ChangedFile) :
    Diff.addedLines (additionsOnly f).diff = Diff.addedLines f.diff := by
  have hlines : Text.lines (additionsOnly f).diff = (Text.lines f.diff).filter Diff.isAddition := by
    refine Text.lines_join fun l hl => ?_
    obtain ⟨hl, hadds⟩ := List.mem_filter.mp hl
    refine ⟨Text.oneLine_of_mem_lines hl, ?_⟩
    rintro rfl
    exact absurd hadds (by decide)
  have hadded : ∀ t, Diff.addedLines t = ((Text.lines t).filter Diff.isAddition).map (·.drop 1) :=
    fun t => rfl
  rw [hadded, hadded, hlines, List.filter_filter]
  simp

/-- A file adds the resources that stand on its added lines, and its path says how to read them. -/
theorem resourcesOf_congr {f g : ChangedFile} (hpath : f.path = g.path)
    (hadded : Diff.addedLines f.diff = Diff.addedLines g.diff) : resourcesOf f = resourcesOf g := by
  rw [resourcesOf, resourcesOf, hpath, hadded]

theorem estimates_congr {a b : List ChangedFile}
    (h : a.flatMap resourcesOf = b.flatMap resourcesOf) : estimates a = estimates b := by
  rw [estimates, estimates, addedKinds, addedKinds, h]

/-- Estimates add up over lists of files, each kind once; they are those of the resources that the
files add; and they are the same for files with other texts of the same added lines, as for files
that are cut down to these. -/
theorem estimates_accumulate :
    (∀ a b : List ChangedFile, estimates (a ++ b) = estimates a ++
      (estimates b).filter fun e => e.kind ∉ (estimates a).map Estimate.kind) ∧
    (∀ files, ((estimates files).map Estimate.kind).Nodup) ∧
    (∀ files e, e ∈ estimates files ↔ ∃ f ∈ files, ∃ r ∈ resourcesOf f, e = estimate r.kind) ∧
    (∀ (front back : List ChangedFile) (f : ChangedFile) (diff : Text),
      Diff.addedLines diff = Diff.addedLines f.diff →
        estimates (front ++ { f with diff } :: back) = estimates (front ++ f :: back)) ∧
    ∀ files, estimates (files.map additionsOnly) = estimates files := by
  refine ⟨estimates_append, ?_, fun files e => mem_estimates, ?_, ?_⟩
  · intro files
    rw [map_kind_estimates]
    exact nodup_addedKinds files
  · intro front back f diff hadded
    have hsame : resourcesOf { f with diff } = resourcesOf f := resourcesOf_congr rfl hadded
    apply estimates_congr
    simp only [List.flatMap_append, List.flatMap_cons, hsame]
  · intro files
    apply estimates_congr
    rw [List.flatMap_map]
    exact List.flatMap_congr fun f _ => resourcesOf_congr rfl (addedLines_additionsOnly f)

/-- A removed resource is as good as none, in front of a file that adds another one. -/
theorem estimates_accumulate_removed :
    let more : ChangedFile :=
      { path := "b.tf", diff := "+resource \"aws_sqs_queue\" \"jobs\" \x7b\x7d" }
    let f : ChangedFile :=
      { path := "a.tf"
        diff := "-resource \"aws_nat_gateway\" \"old\" \x7b\x7d\n+resource\n \n+  \"aws_lb\" \"front\"" }
    let diff : Text := "+resource\n-\n+  \"aws_lb\" \"front\"\n resource \"aws_instance\" \"web\""
    Diff.addedLines diff = Diff.addedLines f.diff ∧
      estimates ([] ++ { f with diff } :: [more]) = estimates ([] ++ f :: [more]) ∧
      (estimates [f, more]).map Estimate.kind = [("alb" : String).toList, ("sqs" : String).toList] := by
  intro more f diff
  have hadded : Diff.addedLines diff = Diff.addedLines f.diff := by decide +kernel
  refine ⟨hadded, estimates_accumulate.2.2.2.1 [] [more] f diff hadded, ?_⟩
  rw [map_kind_estimates]
  decide +kernel

end ChangeReview.Infra
