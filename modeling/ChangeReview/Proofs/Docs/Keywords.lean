import ChangeReview.Docs.Ranking
import ChangeReview.Proofs.Order.FirstSeen
import ChangeReview.Proofs.Text.Paths
import Mathlib.Data.List.Infix

/-!
# Keywords

The keywords of a change are few and all different, and each is a topic or a word that says
something. They come in the order of first mention, so what is mentioned later takes no keyword away
and puts none in front of those there are.
-/
namespace ChangeReview

/-- The words in front of a blank, and those behind it. -/
theorem Text.words_append {b : Char} (hb : Text.isBlank b = true) (s t : Text) :
    Text.words (s ++ b :: t) = Text.words s ++ Text.words t := by
  rw [Text.words, Text.splitBy_append hb, List.filter_append]
  rfl

namespace Docs

open ChangeReview.Order (addNew foldl_addNew mem_foldl_addNew nodup_foldl_addNew)

/-! ## Terms -/

/-- A topic, or a token that is long enough and no stop word. -/
def IsTerm (t : Text) : Prop := t ∈ pathTopics.map (·.2) ∨ 4 ≤ t.length ∧ t ∉ stopWords

theorem isTerm_of_term? {token t : Text} (h : term? token = some t) : IsTerm t := by
  unfold term? at h
  dsimp only at h
  split at h
  · next hkeyword =>
    obtain rfl := Option.some.inj h
    rw [isKeyword, Bool.and_eq_true, decide_eq_true_eq, Bool.not_eq_true',
      ← Bool.not_eq_true, List.contains_iff_mem] at hkeyword
    exact .inr hkeyword
  · exact absurd h (by simp)

theorem isTerm_filterMap (tokens : List Text) : ∀ t ∈ tokens.filterMap term?, IsTerm t := by
  intro t ht
  obtain ⟨token, -, hterm⟩ := List.mem_filterMap.mp ht
  exact isTerm_of_term? hterm

theorem isTerm_pathTerms (path : Text) : ∀ t ∈ pathTerms path, IsTerm t := by
  intro t ht
  rcases List.mem_append.mp ht with hpart | htopic
  · exact isTerm_filterMap _ t hpart
  · obtain ⟨hint, hmem, rfl⟩ := List.mem_map.mp htopic
    exact .inl (List.mem_map_of_mem (List.mem_of_mem_filter hmem))

theorem isTerm_diffTerms (diff : Text) : ∀ t ∈ diffTerms diff, IsTerm t := by
  have hmodules : ∀ modules : List Text, ∀ t ∈ modules.flatMap moduleTerms, IsTerm t := by
    intro modules t ht
    obtain ⟨module, -, hterm⟩ := List.mem_flatMap.mp ht
    exact isTerm_filterMap _ t hterm
  intro t ht
  simp only [diffTerms, List.mem_append] at ht
  rcases ht with ((hscript | hline) | hclass) | hfunction
  · exact hmodules _ t hscript
  · exact hmodules _ t hline
  · exact isTerm_filterMap _ t hclass
  · exact isTerm_filterMap _ t hfunction

theorem isTerm_allTerms (title : Option Text) (files : List ChangedFile) (diff : Option Text) :
    ∀ t ∈ allTerms title files diff, IsTerm t := by
  intro t ht
  simp only [allTerms, List.mem_append] at ht
  rcases ht with (hword | hpath) | hdiff
  · exact isTerm_filterMap _ t hword
  · obtain ⟨f, -, hterm⟩ := List.mem_flatMap.mp hpath
    exact isTerm_pathTerms f.path t hterm
  · exact isTerm_diffTerms _ t hdiff

/-! ## First mentions -/

theorem distinct_eq (items : List Text) : distinct items = items.foldl addNew [] := rfl

theorem mem_distinct {items : List Text} {t : Text} : t ∈ distinct items ↔ t ∈ items := by
  simp only [distinct_eq, mem_foldl_addNew, List.not_mem_nil, false_or]

theorem nodup_distinct (items : List Text) : (distinct items).Nodup :=
  nodup_foldl_addNew items List.nodup_nil

theorem distinct_mono {items more : List Text} (h : items <+: more) :
    distinct items <+: distinct more := by
  obtain ⟨rest, rfl⟩ := h
  rw [distinct_eq, distinct_eq, List.foldl_append, foldl_addNew rest]
  exact List.prefix_append _ _

variable {title longer : Option Text} {files : List ChangedFile} {diff : Option Text}

theorem keywords_mono {title' diff' : Option Text} {files' : List ChangedFile}
    (h : allTerms title files diff <+: allTerms title' files' diff') :
    keywords title files diff <+: keywords title' files' diff' :=
  (distinct_mono h).take maxKeywords

/-- Without a diff the terms are those of the title and of the paths. -/
theorem allTerms_of_no_diff (hdiff : diff.getD [] = []) (title : Option Text)
    (files : List ChangedFile) :
    allTerms title files diff =
      (Text.words (title.getD [])).filterMap term? ++ files.flatMap fun f => pathTerms f.path := by
  rw [allTerms, hdiff]
  exact List.append_nil _

theorem allTerms_append (hdiff : diff.getD [] = []) (title : Option Text)
    (files more : List ChangedFile) :
    allTerms title files diff <+: allTerms title (files ++ more) diff := by
  rw [allTerms_of_no_diff hdiff, allTerms_of_no_diff hdiff, List.flatMap_append,
    ← List.append_assoc]
  exact List.prefix_append _ _

/-- The longer title has the words of the other one and then some. -/
def ExtendsTitle (title longer : Option Text) : Prop :=
  Text.words (title.getD []) <+: Text.words (longer.getD [])

theorem extendsTitle_append (title : Option Text) {b : Char} (hb : Text.isBlank b = true)
    (more : Text) : ExtendsTitle title (some (title.getD [] ++ b :: more)) := by
  rw [ExtendsTitle, Option.getD_some, Text.words_append hb]
  exact List.prefix_append _ _

theorem allTerms_extendsTitle (hdiff : diff.getD [] = []) (h : ExtendsTitle title longer) :
    allTerms title [] diff <+: allTerms longer [] diff := by
  rw [allTerms_of_no_diff hdiff, allTerms_of_no_diff hdiff]
  simpa using h.filterMap term?

/-- There are at most twenty keywords, all different, and each is a topic or a token of four
characters or more that is no stop word. Without a diff, files behind those of a change only add
keywords behind its own, and so do words behind the title of a change without files. -/
theorem keywords_in_order (title : Option Text) (files : List ChangedFile) (diff : Option Text) :
    (keywords title files diff).length ≤ 20 ∧ (keywords title files diff).Nodup ∧
      (∀ t ∈ keywords title files diff,
        t ∈ pathTopics.map (·.2) ∨ 4 ≤ t.length ∧ t ∉ stopWords) ∧
      (diff.getD [] = [] →
        (∀ more, keywords title files diff <+: keywords title (files ++ more) diff) ∧
          (files = [] → ∀ longer, ExtendsTitle title longer →
            keywords title files diff <+: keywords longer files diff)) := by
  refine ⟨List.length_take_le _ _, (nodup_distinct _).sublist (List.take_sublist _ _), ?_, ?_⟩
  · intro t ht
    exact isTerm_allTerms title files diff t (mem_distinct.mp (List.mem_of_mem_take ht))
  · intro hdiff
    refine ⟨fun more => keywords_mono (allTerms_append hdiff title files more), ?_⟩
    rintro rfl longer hlonger
    exact keywords_mono (allTerms_extendsTitle hdiff hlonger)

/-- A stop word and a short word behind the title change nothing, and a long one comes last. -/
theorem keywords_in_order_refresh :
    let title : Option Text := some "Refresh expired tokens"
    let longer : Option Text := some "Refresh expired tokens for the api clients"
    ExtendsTitle title longer ∧ keywords title [] none <+: keywords longer [] none ∧
      keywords longer [] none = ["refresh".toList, "expired".toList, "tokens".toList,
        "clients".toList] := by
  intro title longer
  have hlonger : ExtendsTitle title longer :=
    extendsTitle_append title (b := ' ') (by decide) "for the api clients"
  have hgrow := (keywords_in_order title [] none).2.2.2 rfl
  exact ⟨hlonger, hgrow.2 rfl longer hlonger, by decide +kernel⟩

end Docs

end ChangeReview
