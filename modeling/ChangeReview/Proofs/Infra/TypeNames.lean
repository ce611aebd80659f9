import ChangeReview.Infra.Cost
import ChangeReview.Proofs.Text.Occurrences
import ChangeReview.Proofs.Text.Prefix

/-!
# Type names in templates

A template that declares a resource names its type, and the name ends where no word character and no
colon makes it longer. A logical ID is read only in front of such a name. A type that is mentioned
without one is reported all the same, so exactly the mentions inside longer names are reported
without ground.
-/
namespace ChangeReview.Infra

/-- The type stands in the text as a whole name. -/
def NamesType (type content : Text) : Prop :=
  ∃ rest, type ++ rest <:+ content ∧ ∀ c ∈ rest.head?, Text.isWordChar c = false ∧ c ≠ ':'

/-- Some costed type of the kind stands in the text as a whole name. -/
def NamesKind (kind content : Text) : Prop :=
  ∃ type, (type, kind) ∈ cloudTypes ∧ NamesType type content

section NamesType

variable {type content : Text}

theorem endsTypeName_iff {rest : Text} :
    endsTypeName rest = true ↔ ∀ c ∈ rest.head?, Text.isWordChar c = false ∧ c ≠ ':' := by
  cases rest <;> simp [endsTypeName]

theorem namesType_iff : NamesType type content ↔
    ∃ t ∈ content.tails, ((Text.dropPrefix? type t).any endsTypeName) = true := by
  simp only [NamesType, List.mem_tails, Option.any_eq_true, ← endsTypeName_iff]
  constructor
  · rintro ⟨rest, hrest, hend⟩
    exact ⟨_, hrest, rest, Text.dropPrefix?_append type rest, hend⟩
  · rintro ⟨t, ht, rest, hrest, hend⟩
    obtain rfl := Text.eq_append_of_dropPrefix? hrest
    exact ⟨rest, ht, hend⟩

instance (type content : Text) : Decidable (NamesType type content) :=
  decidable_of_iff' _ namesType_iff

theorem NamesType.mono {part : Text} (h : NamesType type part) (hpart : part <:+ content) :
    NamesType type content := by
  obtain ⟨rest, hrest, hend⟩ := h
  exact ⟨rest, hrest.trans hpart, hend⟩

end NamesType

/-! ## Resources of one type -/

section OneType

variable {type content kind : Text}

theorem skipLineEnd?_suffix {t rest : Text} (h : skipLineEnd? t = some rest) : rest <:+ t := by
  unfold skipLineEnd? at h
  split at h
  · obtain rfl := Option.some.inj h
    exact Text.trimLeft_suffix t
  · exact absurd h (by simp)

theorem dropQuote_suffix (t : Text) : dropQuote t <:+ t := by
  unfold dropQuote
  split
  · exact List.suffix_cons _ _
  · exact List.suffix_cons _ _
  · exact List.suffix_rfl

/-- A logical ID stands in front of a whole name. -/
theorem namesType_of_logicalId {before : Option Char} {ahead : Text} {found : Text × Nat}
    (h : logicalId type before ahead = some found) : NamesType type ahead := by
  obtain ⟨⟨id, afterId⟩, hid, h⟩ := Option.bind_eq_some_iff.mp h
  obtain ⟨afterColon, hcolon, h⟩ := Option.bind_eq_some_iff.mp h
  obtain ⟨afterBreak, hbreak, h⟩ := Option.bind_eq_some_iff.mp h
  obtain ⟨afterLabel, hlabel, h⟩ := Option.bind_eq_some_iff.mp h
  obtain ⟨afterType, htype, h⟩ := Option.bind_eq_some_iff.mp h
  have hname : type ++ afterType <:+ ahead :=
    calc type ++ afterType <:+ Text.trimLeft afterLabel := by
          rw [← Text.eq_append_of_dropPrefix? htype]
          exact dropQuote_suffix _
      _ <:+ afterLabel := Text.trimLeft_suffix afterLabel
      _ <:+ afterBreak := by
          rw [Text.eq_append_of_dropPrefix? hlabel]
          exact List.suffix_append _ _
      _ <:+ afterColon := skipLineEnd?_suffix hbreak
      _ <:+ afterId := by
          rw [Text.eq_append_of_dropPrefix? hcolon]
          exact List.suffix_append _ _
      _ <:+ ahead := Text.takeSome?_suffix hid
  split at h
  · next hend => exact ⟨afterType, hname, endsTypeName_iff.mp hend⟩
  · exact absurd h (by simp)

theorem namesType_of_mem_matchesOf {id : Text}
    (h : id ∈ Text.matchesOf (logicalId type) content) : NamesType type content := by
  obtain ⟨before, ahead, n, hahead, hmatch⟩ := Text.exists_of_mem_matchesOf h
  exact (namesType_of_logicalId hmatch).mono hahead

theorem resourcesOfType_of_unmentioned (h : ¬ type <:+: content) (kind : Text) :
    resourcesOfType content type kind = [] := by
  rw [← Text.occurs_iff, Bool.not_eq_true] at h
  simp [resourcesOfType, h]

/-- A type that is mentioned is reported, and under no name but its kind's where it has no ID. -/
theorem resourcesOfType_of_mentioned (h : type <:+: content) (kind : Text) :
    resourcesOfType content type kind = [⟨kind, kind⟩] ∨
      NamesType type content ∧ resourcesOfType content type kind ≠ [] ∧
        ∀ r ∈ resourcesOfType content type kind, r.kind = kind := by
  unfold resourcesOfType
  rw [Text.occurs_iff.mpr h, Bool.not_true, if_neg Bool.false_ne_true]
  cases hids : Text.matchesOf (logicalId type) content with
  | nil => exact .inl rfl
  | cons id ids =>
    have hnamed : NamesType type content := namesType_of_mem_matchesOf (hids ▸ List.mem_cons_self)
    exact .inr ⟨hnamed, List.cons_ne_nil _ _, by simp⟩

theorem resourcesOfType_of_not_namesType (h : ¬ NamesType type content) (kind : Text) :
    resourcesOfType content type kind = if type <:+: content then [⟨kind, kind⟩] else [] := by
  split
  · next hmention =>
    exact (resourcesOfType_of_mentioned hmention kind).resolve_right fun hid => h hid.1
  · next hmention => exact resourcesOfType_of_unmentioned hmention kind

end OneType

/-! ## Resources of a template -/

section Template

variable {content : Text}

theorem mem_cloudResources_iff {r : Resource} :
    r ∈ cloudResources content ↔
      ∃ e ∈ cloudTypes, r ∈ resourcesOfType content e.1 e.2 := List.mem_flatMap

/-- What is reported is mentioned, and a name other than that of its kind is a logical ID. -/
theorem mention_of_mem_cloudResources {r : Resource} (h : r ∈ cloudResources content) :
    ∃ type, (type, r.kind) ∈ cloudTypes ∧ type <:+: content ∧
      (NamesType type content ∨ r.name = r.kind) := by
  obtain ⟨⟨type, kind⟩, he, hr⟩ := mem_cloudResources_iff.mp h
  by_cases hmention : type <:+: content
  · rcases resourcesOfType_of_mentioned hmention kind with hfallback | ⟨hnamed, -, hkind⟩
    · rw [hfallback, List.mem_singleton] at hr
      subst hr
      exact ⟨type, he, hmention, .inr rfl⟩
    · have hrkind : r.kind = kind := hkind r hr
      exact ⟨type, hrkind ▸ he, hmention, .inl hnamed⟩
  · rw [resourcesOfType_of_unmentioned hmention] at hr
    exact absurd hr List.not_mem_nil

/-- What is mentioned is reported. -/
theorem exists_mem_cloudResources {type kind : Text} (he : (type, kind) ∈ cloudTypes)
    (hmention : type <:+: content) : ∃ r ∈ cloudResources content, r.kind = kind := by
  rcases resourcesOfType_of_mentioned hmention kind with hfallback | ⟨-, hne, hkind⟩
  · exact ⟨⟨kind, kind⟩, mem_cloudResources_iff.mpr ⟨_, he, by simp [hfallback]⟩, rfl⟩
  · obtain ⟨r, more, hmore⟩ := List.exists_cons_of_ne_nil hne
    have hr : r ∈ resourcesOfType content type kind := by simp [hmore]
    exact ⟨r, mem_cloudResources_iff.mpr ⟨_, he, hr⟩, hkind r hr⟩

/-- Where no type is named whole, each type that is mentioned is reported once. -/
theorem flatMap_resourcesOfType {types : List (Text × Text)}
    (h : ∀ e ∈ types, ¬ NamesType e.1 content) :
    (types.flatMap fun e => resourcesOfType content e.1 e.2) =
      (types.filter fun e => e.1 <:+: content).map fun e => ⟨e.2, e.2⟩ := by
  induction types with
  | nil => rfl
  | cons e types ih =>
    obtain ⟨he, hmore⟩ := List.forall_mem_cons.mp h
    rw [List.flatMap_cons, ih hmore, resourcesOfType_of_not_namesType he, List.filter_cons]
    by_cases hmention : e.1 <:+: content <;> simp [hmention]

end Template

/-- The report of a template has ground just where a kind of which some type is mentioned is also
one of which some type is named whole. What has none goes by the name of its kind, and a template
that names no costed type whole is reported with every costed type that it mentions. -/
theorem cloudResources_named_iff (content : Text) :
    ((∀ r ∈ cloudResources content, NamesKind r.kind content) ↔
      ∀ e ∈ cloudTypes, e.1 <:+: content → NamesKind e.2 content) ∧
    (∀ r ∈ cloudResources content, ¬ NamesKind r.kind content → r.name = r.kind) ∧
    ((∀ e ∈ cloudTypes, ¬ NamesType e.1 content) → cloudResources content =
      (cloudTypes.filter fun e => e.1 <:+: content).map fun e => ⟨e.2, e.2⟩) := by
  refine ⟨⟨?_, ?_⟩, ?_, ?_⟩
  · rintro hground ⟨type, kind⟩ he hmention
    obtain ⟨r, hr, rfl⟩ := exists_mem_cloudResources he hmention
    exact hground r hr
  · intro hground r hr
    obtain ⟨type, he, hmention, -⟩ := mention_of_mem_cloudResources hr
    exact hground _ he hmention
  · intro r hr hnone
    obtain ⟨type, he, -, hnamed | hname⟩ := mention_of_mem_cloudResources hr
    · exact absurd ⟨type, he, hnamed⟩ hnone
    · exact hname
  · exact flatMap_resourcesOfType

/-- A policy for a bucket is costed as a bucket. -/
theorem longer_type_costed :
    cloudResources "Type: AWS::S3::BucketPolicy" = [⟨"s3", "s3"⟩] ∧
      ¬ NamesKind "s3" "Type: AWS::S3::BucketPolicy" := by
  refine ⟨by decide +kernel, ?_⟩
  rintro ⟨type, htype, hnamed⟩
  have hnone : ∀ e ∈ cloudTypes, ¬ NamesType e.1 "Type: AWS::S3::BucketPolicy" := by decide +kernel
  exact hnone _ htype hnamed

end ChangeReview.Infra
