import ChangeReview.Analysis.Run
import ChangeReview.Proofs.Docs.Unchanged
import ChangeReview.Proofs.Report.NormalForm
import ChangeReview.Proofs.Value.LineEnds
import ChangeReview.Proofs.Workflow.Survival

/-!
# What a request becomes

The parts that a request is completed with, and the key that it comes to. Of the documents of the
repository the key tells only their names, so whatever adds no document leaves a request with the
same key, as long as its path does not lead back from a folder that is missing.
-/
namespace ChangeReview

theorem Sha256.not_mem_hexDigest {c : Char} (hdigit : ∀ d < 16, Nat.digitChar d ≠ c)
    (bytes : List UInt8) : c ∉ hexDigest bytes := by
  unfold hexDigest
  rw [List.mem_flatMap]
  rintro ⟨w, -, hmem⟩
  obtain ⟨d, hd, heq⟩ := Text.exists_digit_of_mem_ofHex hmem
  exact hdigit d hd heq.symm

theorem Value.toPath_eq_ok {v : Value} {path : Text} (h : v.toPath = .ok path) : v = .text path := by
  cases v with
  | text t => rw [Except.ok.inj h]
  | _ => exact absurd h (by simp [toPath])

namespace Analysis

open Disk

/-! ## Keys -/

/-- The documents that a context holds. -/
def documentsOf : Option Docs.Context → List Docs.Document
  | some docs => docs.documents
  | none => []

def documentNames (docs : Option Docs.Context) : List Text := (documentsOf docs).map (·.filename)

theorem identity_eq (p : Prepared) :
    p.identity = .members [
      ("diff", .text p.context.diff),
      ("title", p.context.title),
      ("provider", p.settings.provider),
      ("model", p.settings.model),
      ("language", p.context.language),
      ("framework", p.context.framework),
      ("static_analysis", p.context.scanEnabled),
      ("arch_docs", .ofTexts (documentNames p.context.docs))] := by
  unfold Prepared.identity documentNames documentsOf
  dsimp only
  cases p.context.docs <;> rfl

/-- The key tells of the documents only their names. -/
theorem key_withDocs (p : Prepared) {docs : Option Docs.Context}
    (h : documentNames docs = documentNames p.context.docs) :
    { p with context := { p.context with docs } : Prepared }.key = p.key := by
  unfold Prepared.key
  rw [identity_eq, identity_eq, h]
  rfl

/-- The inputs that make a key, in the order of their names. -/
theorem identity_sorted (p : Prepared) :
    p.identity.sorted = .members [
      ("arch_docs", (Value.ofTexts (documentNames p.context.docs)).sorted),
      ("diff", .text p.context.diff),
      ("framework", p.context.framework.sorted),
      ("language", p.context.language.sorted),
      ("model", p.settings.model.sorted),
      ("provider", p.settings.provider.sorted),
      ("static_analysis", p.context.scanEnabled.sorted),
      ("title", p.context.title.sorted)] := by
  rw [identity_eq]
  refine congrArg Value.object (Text.mergeSort_byName ?_ ?_)
  · let value : Text → Value := fun name => ((Value.lookup name [
      ("diff".toList, .text p.context.diff),
      ("title".toList, p.context.title.sorted),
      ("provider".toList, p.settings.provider.sorted),
      ("model".toList, p.settings.model.sorted),
      ("language".toList, p.context.language.sorted),
      ("framework".toList, p.context.framework.sorted),
      ("static_analysis".toList, p.context.scanEnabled.sorted),
      ("arch_docs".toList, (Value.ofTexts (documentNames p.context.docs)).sorted)]).getD .null)
    have hnames : ["diff", "title", "provider", "model", "language", "framework", "static_analysis",
        "arch_docs"].Perm ["arch_docs", "diff", "framework", "language", "model", "provider",
        "static_analysis", "title"] := by decide
    exact hnames.map fun name => (name.toList, value name.toList)
  · have hnames : (["arch_docs".toList, "diff".toList, "framework".toList, "language".toList,
        "model".toList, "provider".toList, "static_analysis".toList, "title".toList] : List Text).Pairwise
          fun s t => Text.le s t = true ∧ s ≠ t := by decide
    simpa only [List.map_map, List.map_cons, List.map_nil, Function.comp_apply] using hnames
theorem slash_not_mem_key (p : Prepared) : '/' ∉ p.key := Sha256.not_mem_hexDigest (by decide) _

theorem null_not_mem_key (p : Prepared) : '\x00' ∉ p.key := Sha256.not_mem_hexDigest (by decide) _

/-! ## The parts of a preparation -/

/-- The settings of a request: its own, or those of the environment. -/
def settingsFor (env : Environment) (q : Request) : Except Fault Settings :=
  match q.settings with
  | some s => .ok s
  | none => Settings.load env

/-- What documents say about a request that goes by them. -/
def docsOf (d : Disk) (q : Request) (files : List ChangedFile) : Except Fault (Option Docs.Context) :=
  if q.usesDocs then docsFor d q.repository q.title files q.diff.text? else .ok none

/-- The arguments of the run of a request. -/
def argumentsOf (q : Request) (settings : Settings) (files : List ChangedFile)
    (docs : Option Docs.Context) : Context.Arguments where
  files := files
  docs := docs
  diff := q.diff
  tokenBudget := settings.tokenBudget
  maxCost := settings.maxCost
  repository := q.repository
  title := q.title
  mode := some (q.mode.getD {})
  language := q.language
  framework := q.framework
  wantsScan := q.wantsScan.getD settings.staticAnalysis
  scanOptions := q.scanOptions

theorem prepare_eq_ok_iff {env : Environment} {d : Disk} {q : Request} {p : Prepared} :
    prepare env d q = .ok p ↔ ∃ files docs, settingsFor env q = .ok p.settings ∧
      filesOf q.diff = .ok files ∧ docsOf d q files = .ok docs ∧
      Context.ofArguments (argumentsOf q p.settings files docs) = .ok p.context ∧
      cacheFor p.settings q = .ok p.cache ∧
      p.quick = q.quick.getD (isSmall files.length p.context.diff.length) := by
  have hparts : prepare env d q = do
      let settings ← settingsFor env q
      let files ← filesOf q.diff
      let docs ← docsOf d q files
      let context ← Context.ofArguments (argumentsOf q settings files docs)
      let cache ← cacheFor settings q
      return {
        settings, context, cache
        quick := q.quick.getD (isSmall files.length context.diff.length) } := by
    unfold prepare settingsFor docsOf
    cases q.settings <;> cases q.usesDocs <;> rfl
  rw [hparts]
  constructor
  · intro h
    obtain ⟨settings, hsettings, h⟩ := exists_of_bind_eq_ok h
    obtain ⟨files, hfiles, h⟩ := exists_of_bind_eq_ok h
    obtain ⟨docs, hdocs, h⟩ := exists_of_bind_eq_ok h
    obtain ⟨context, hcontext, h⟩ := exists_of_bind_eq_ok h
    obtain ⟨cache, hcache, h⟩ := exists_of_bind_eq_ok h
    obtain rfl := Except.ok.inj h
    exact ⟨files, docs, hsettings, hfiles, hdocs, hcontext, hcache, rfl⟩
  · rintro ⟨files, docs, hsettings, hfiles, hdocs, hcontext, hcache, hquick⟩
    rw [hsettings, ok_bind, hfiles, ok_bind, hdocs, ok_bind, hcontext,
      ok_bind, hcache, ok_bind, ← hquick]
    rfl

/-! ## Additions to the disk -/

theorem docsFor_text (d : Disk) (path : Text) (title : Value) (files : List ChangedFile)
    (diff : Option Text) :
    docsFor d (.text path) title files diff =
      (Docs.present d path >>= fun there =>
        if there then
          Docs.load d path >>= fun documents => (docsContext documents title files diff).map some
        else .ok none) := by
  have hpath : (Value.text path).toPath = .ok path := rfl
  unfold docsFor
  rw [hpath, ok_bind]
  rfl

theorem docsContext_nil (title : Value) (files : List ChangedFile) (diff : Option Text) :
    docsContext [] title files diff = .ok { available := false } := rfl

variable {d d' : Disk}

/-- Additions without documents do not change which documents a request goes by. -/
theorem docsFor_adds {repository title : Value} {files : List ChangedFile} {diff : Option Text}
    {docs : Option Docs.Context} (hd : d.IsTree) (h : Adds Docs.NoDocument d d')
    (hrepository : ∀ path, repository = .text path → d.Straight path)
    (hdocs : docsFor d repository title files diff = .ok docs) :
    ∃ docs', docsFor d' repository title files diff = .ok docs' ∧
      documentNames docs' = documentNames docs := by
  obtain ⟨path, hpath, -⟩ := exists_of_bind_eq_ok hdocs
  obtain rfl : repository = .text path := Value.toPath_eq_ok hpath
  rw [docsFor_text] at hdocs ⊢
  obtain ⟨there, hthere, hdocs⟩ := exists_of_bind_eq_ok hdocs
  rcases Docs.present_adds hd h (hrepository path rfl) with ⟨hsame, hload⟩ | ⟨hnone, hnew, hempty⟩
  · refine ⟨docs, ?_, rfl⟩
    rw [hsame, hthere, ok_bind]
    cases there with
    | false => exact hdocs
    | true =>
      rw [hload hthere]
      exact hdocs
  · obtain rfl := Except.ok.inj (hnone.symm.trans hthere)
    obtain rfl := Except.ok.inj hdocs
    refine ⟨some { available := false }, ?_, rfl⟩
    rw [hnew, ok_bind, if_pos rfl, hempty, ok_bind, docsContext_nil]
    rfl

/-- Arguments with other documents make the context with those. -/
theorem ofArguments_withDocs {a : Context.Arguments} {c : Context}
    (h : Context.ofArguments a = .ok c) (docs : Option Docs.Context) :
    c.docs = a.docs ∧ Context.ofArguments { a with docs } = .ok { c with docs } := by
  obtain ⟨diff, tokenBudget, limit, hdiff, hbudget, hpos, hlimit, hnonneg, htruthy, rfl⟩ :=
    Context.ofArguments_eq_ok_iff.mp h
  exact ⟨rfl, Context.ofArguments_eq_ok_iff.mpr
    ⟨diff, tokenBudget, limit, hdiff, hbudget, hpos, hlimit, hnonneg, htruthy, rfl⟩⟩

/-- A request that goes by documents has a straight path to its repository. -/
def Request.GoesStraight (q : Request) (d : Disk) : Prop :=
  q.usesDocs = true → ∀ path, q.repository = .text path → d.Straight path

/-- Additions without documents leave a request with the key and the cache that it had. -/
theorem prepare_adds {env : Environment} {q : Request} {p : Prepared} (hd : d.IsTree)
    (h : Adds Docs.NoDocument d d') (hrepository : q.GoesStraight d)
    (hprepare : prepare env d q = .ok p) :
    ∃ p', prepare env d' q = .ok p' ∧ p'.cache = p.cache ∧ p'.key = p.key := by
  obtain ⟨files, docs, hsettings, hfiles, hdocs, hcontext, hcache, hquick⟩ :=
    prepare_eq_ok_iff.mp hprepare
  have hsame : ∃ docs', docsOf d' q files = .ok docs' ∧ documentNames docs' = documentNames docs := by
    unfold docsOf at hdocs ⊢
    by_cases huses : q.usesDocs = true
    · rw [if_pos huses] at hdocs ⊢
      exact docsFor_adds hd h (hrepository huses) hdocs
    · rw [if_neg huses] at hdocs ⊢
      exact ⟨docs, hdocs, rfl⟩
  obtain ⟨docs', hdocs', hnames⟩ := hsame
  obtain ⟨hheld, hagain⟩ := ofArguments_withDocs hcontext docs'
  refine ⟨{ p with context := { p.context with docs := docs' } }, ?_, rfl, ?_⟩
  · exact prepare_eq_ok_iff.mpr ⟨files, docs', hsettings, hfiles, hdocs', hagain, hcache, hquick⟩
  · refine key_withDocs p ?_
    rw [hnames, hheld]
    rfl

end Analysis

end ChangeReview
