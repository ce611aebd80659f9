import ChangeReview.Proofs.Scan.Tallies

/-!
# The fixes that are listed

Sorting lists the fixes of each severity in the order in which they were given, the most urgent
severity first. So what the model gave is cut behind its most urgent fixes, and the fix for
credentials, which is added behind the cut, comes right behind the critical ones among them. It is
never cut off, and no failure of the model keeps it from being listed.
-/
namespace ChangeReview

namespace Fix

/-! ## Sorting by classes -/

/-- The fixes of a severity, in their order. -/
def having (severity : Severity) (fixes : List Fix) : List Fix :=
  fixes.filter fun f => f.severity = severity

/-- The fixes by severity, those of each severity in the order in which they were given. -/
def bySeverity (fixes : List Fix) : List Fix :=
  having .critical fixes ++ (having .warning fixes ++ having .suggestion fixes)

section Having

variable {severity : Severity} {f : Fix} {fixes : List Fix}

theorem having_cons_of_eq (h : f.severity = severity) (fixes : List Fix) :
    having severity (f :: fixes) = f :: having severity fixes :=
  List.filter_cons_of_pos (by simpa using h)

theorem having_cons_of_ne (h : f.severity ≠ severity) (fixes : List Fix) :
    having severity (f :: fixes) = having severity fixes :=
  List.filter_cons_of_neg (by simpa using h)

theorem having_append (severity : Severity) (fixes more : List Fix) :
    having severity (fixes ++ more) = having severity fixes ++ having severity more :=
  List.filter_append ..

/-- Where all fixes are less urgent, none has the severity. -/
theorem having_eq_nil (h : ∀ f ∈ fixes, severity.rank < f.severity.rank) : having severity fixes = [] := by
  refine List.filter_eq_nil_iff.mpr fun f hf hsame => ?_
  have hlt := h f hf
  rw [of_decide_eq_true hsame] at hlt
  exact Nat.lt_irrefl _ hlt

end Having

/-- Sorted fixes are listed by severity already. -/
theorem IsSorted.bySeverity_eq {fixes : List Fix} (h : IsSorted fixes) : bySeverity fixes = fixes := by
  induction fixes with
  | nil => rfl
  | cons f fixes ih =>
    obtain ⟨hfirst, hrest⟩ := List.pairwise_cons.mp h
    have hmore := ih hrest
    have hnone : ∀ severity : Severity, severity.rank < f.severity.rank →
        having severity fixes = [] := fun severity hlt =>
      having_eq_nil fun g hg => Nat.lt_of_lt_of_le hlt (hfirst g hg)
    unfold bySeverity at hmore ⊢
    cases hf : f.severity with
    | critical =>
      rw [having_cons_of_eq hf, having_cons_of_ne (by simp [hf]), having_cons_of_ne (by simp [hf]),
        List.cons_append, hmore]
    | warning =>
      rw [hnone .critical (by rw [hf]; decide), List.nil_append] at hmore
      rw [having_cons_of_ne (by simp [hf]), having_cons_of_eq hf, having_cons_of_ne (by simp [hf]),
        hnone .critical (by rw [hf]; decide), List.nil_append, List.cons_append, hmore]
    | suggestion =>
      rw [hnone .critical (by rw [hf]; decide), hnone .warning (by rw [hf]; decide),
        List.nil_append, List.nil_append] at hmore
      rw [having_cons_of_ne (by simp [hf]), having_cons_of_ne (by simp [hf]), having_cons_of_eq hf,
        hnone .critical (by rw [hf]; decide), hnone .warning (by rw [hf]; decide),
        List.nil_append, List.nil_append, hmore]

/-- Sorting lists the fixes by severity and leaves those of one severity in their order. -/
theorem sort_eq_bySeverity (fixes : List Fix) : sort fixes = bySeverity fixes := by
  have hsame : ∀ severity, having severity (sort fixes) = having severity fixes := filter_sort fixes
  rw [← (isSorted_sort fixes).bySeverity_eq]
  unfold bySeverity
  rw [hsame, hsame, hsame]

theorem isSorted_bySeverity (fixes : List Fix) : IsSorted (bySeverity fixes) :=
  sort_eq_bySeverity fixes ▸ isSorted_sort fixes

/-! ## The listing -/

/-- The most urgent fixes of those that were given: the first ten by severity. -/
def mostUrgent (given : List Fix) : List Fix := (bySeverity given).take 10

/-- The fixes that are left out for the most urgent ones. -/
def leftOut (given : List Fix) : List Fix := (bySeverity given).drop 10

theorem prioritize_eq_mostUrgent (given : List Fix) :
    prioritize given (some Workflow.maxModelFixes) = mostUrgent given :=
  congrArg (List.take 10) (sort_eq_bySeverity given)

/-- How fixes are listed of which the model gave these, and which were flagged besides. -/
structure Listing (given flagged listed : List Fix) : Prop where
  sorted : listed = bySeverity (mostUrgent given ++ flagged)
  /-- The flagged fixes stand behind the critical ones and in front of all others. -/
  placed : listed = having .critical (mostUrgent given) ++
    (flagged ++ (having .warning (mostUrgent given) ++ having .suggestion (mostUrgent given)))
  length_le : listed.length ≤ 10 + flagged.length
  urgent : ∀ f ∈ mostUrgent given, ∀ g ∈ leftOut given, f.severity.rank ≤ g.severity.rank

theorem urgent_mostUrgent (given : List Fix) :
    ∀ f ∈ mostUrgent given, ∀ g ∈ leftOut given, f.severity.rank ≤ g.severity.rank := by
  have hsorted := isSorted_bySeverity given
  rw [IsSorted, ← List.take_append_drop 10 (bySeverity given), List.pairwise_append] at hsorted
  exact hsorted.2.2

/-- Flagged fixes that are critical come behind the critical fixes of the model. -/
theorem listing_bySeverity (given : List Fix) {flagged : List Fix}
    (hcritical : ∀ f ∈ flagged, f.severity = .critical) :
    Listing given flagged (bySeverity (mostUrgent given ++ flagged)) := by
  have hall : having .critical flagged = flagged :=
    List.filter_eq_self.mpr fun f hf => decide_eq_true (hcritical f hf)
  have hnone : ∀ severity, severity ≠ .critical → having severity flagged = [] := by
    intro severity hne
    refine List.filter_eq_nil_iff.mpr fun f hf hsame => hne ?_
    rw [← hcritical f hf, of_decide_eq_true hsame]
  have hplaced : bySeverity (mostUrgent given ++ flagged) = having .critical (mostUrgent given) ++
      (flagged ++ (having .warning (mostUrgent given) ++ having .suggestion (mostUrgent given))) := by
    rw [bySeverity, having_append, having_append, having_append, hall, hnone .warning (by decide),
      hnone .suggestion (by decide), List.append_nil, List.append_nil, List.append_assoc]
  refine ⟨rfl, hplaced, ?_, urgent_mostUrgent given⟩
  have hlength := congrArg List.length (sort_eq_bySeverity (mostUrgent given ++ flagged))
  have hmost : (mostUrgent given).length ≤ 10 := List.length_take_le _ _
  rw [sort, List.length_mergeSort, List.length_append] at hlength
  omega

end Fix

namespace Workflow

/-- The fixes that an answer of the model gives: none where the call failed, or where the reply
cannot be read. -/
def modelFixes (answer : Except Fault Response) : List Fix :=
  match answer with
  | .ok r => (fixesOfReply r.text).toOption.getD []
  | .error _ => []

/-- The fixes at the end of the stage are a listing of what the model gave and of the fix for
credentials. -/
theorem listing_listedFixes (c : Context) (files : List ChangedFile) (given : List Fix) :
    Fix.Listing given (credentialFix c.diff files).toList (listedFixes c files given) := by
  have hcritical : ∀ f ∈ (credentialFix c.diff files).toList, f.severity = .critical := fun f hf =>
    (Fix.credentialFix_kind (Option.mem_toList.mp hf)).1
  have hlisted : listedFixes c files given =
      Fix.bySeverity (Fix.mostUrgent given ++ (credentialFix c.diff files).toList) := by
    unfold listedFixes
    rw [Fix.prioritize_eq_mostUrgent]
    cases credentialFix c.diff files with
    | some fix => exact Fix.sort_eq_bySeverity _
    | none =>
      have hsorted : Fix.IsSorted (Fix.mostUrgent given) :=
        (Fix.isSorted_bySeverity given).sublist (List.take_sublist _ _)
      rw [Option.toList_none, List.append_nil, hsorted.bySeverity_eq]
  rw [hlisted]
  exact Fix.listing_bySeverity given hcritical

/-- Where there are no findings, the model is asked once, and its answer settles what is listed. -/
theorem FixesFrom.listing {c : Context} {files : List ChangedFile} {findings : List Finding}
    {calls : List Exchange} {fixes : List Fix} (h : FixesFrom c files findings calls fixes)
    (hfindings : findings = []) (hfiles : files ≠ []) :
    ∃ e, calls = [e] ∧ Fix.Listing (modelFixes e.answer) (credentialFix c.diff files).toList fixes := by
  cases h with
  | scanner hsome => exact absurd hfindings hsome
  | unchanged _ hnone => exact absurd hnone hfiles
  | refused => exact ⟨_, rfl, listing_listedFixes c files []⟩
  | @unread call r fault _ _ _ hunread =>
    have hgiven : modelFixes (.ok r) = [] := by
      rw [modelFixes, hunread]
      rfl
    refine ⟨_, rfl, ?_⟩
    rw [hgiven]
    exact listing_listedFixes c files []
  | @read call r given _ _ _ hread =>
    have hgiven : modelFixes (.ok r) = given := by
      rw [modelFixes, hread]
      rfl
    refine ⟨_, rfl, ?_⟩
    rw [hgiven]
    exact listing_listedFixes c files given

/-- Where no finding is kept and some file changed, the stage asks the model once, and whatever the
answer is, it lists the ten most urgent fixes of the model with the fix for credentials. That fix is
listed just if the diff mentions a credential, behind the critical fixes of the model and in front of
all others; no fix that is left out is more urgent than one that is listed. -/
theorem fixes_are_listed {σ : Type} {w : World σ} {here : σ} {s : State} {o : Output}
    (hfindings : s.findings = []) (hfiles : s.files ≠ [])
    (h : ((fixStage.plan s).perform w here).2.2 = .ok o) :
    ∃ e listed, ((fixStage.plan s).perform w here).2.1.exchanges = [e] ∧ o.fixes = some listed ∧
      listed.length ≤ 11 ∧
      Fix.Listing (modelFixes e.answer) (credentialFix s.context.diff s.files).toList listed ∧
      (credentialFix s.context.diff s.files).isSome = mentionsCredential s.context.diff ∧
      ∀ fix, credentialFix s.context.diff s.files = some fix → fix ∈ listed := by
  obtain ⟨fixes, hfrom, ho⟩ := fixStage_yields (Step.yields_perform h)
  obtain ⟨e, hcalls, hlisting⟩ := hfrom.listing hfindings hfiles
  have hfixes : o.fixes = some fixes := congrArg Output.fixes ho
  have hlength := hlisting.length_le
  have hflagged : (credentialFix s.context.diff s.files).toList.length ≤ 1 := by
    cases credentialFix s.context.diff s.files <;> simp
  refine ⟨e, fixes, hcalls, hfixes, by omega, hlisting, Fix.isSome_credentialFix _ _, ?_⟩
  intro fix hfix
  rw [hlisting.placed, hfix]
  simp

/-- A backend that gives twelve fixes, the most urgent of them last. -/
def crowdedWorld : World Unit where
  backend := {
    provider := .text "any"
    model := .text "any"
    invoke := fun here _ => (here, .ok ⟨Value.writeLine (.list (
      List.replicate 10 (.members [("file", .text "a.py"), ("comment", .text "Rename it")]) ++
        [.members [("file", .text "a.py"), ("comment", .text "Close it"), ("severity", .text "Warning")],
          .members [("file", .text "a.py"), ("comment", .text "Check it"),
            ("severity", .text "critical")]])), none⟩) }
  scanner := .notInstalled

/-- The fix for credentials comes behind the one critical fix that the model gave last of twelve, and
two suggestions are left out. -/
theorem fixes_are_listed_crowded :
    let s : State := { context := settingContext, files := settingContext.files }
    ∃ (o : Output) (e : Exchange) (listed : List Fix) (fix : Fix), s.findings = [] ∧ s.files ≠ [] ∧
      ((fixStage.plan s).perform crowdedWorld ()).2.2 = .ok o ∧ o.fixes = some listed ∧
      (modelFixes e.answer).length = 12 ∧ credentialFix s.context.diff s.files = some fix ∧
      Fix.Listing (modelFixes e.answer) [fix] listed ∧ fix ∈ listed ∧
      listed.map Fix.severity = [.critical, .critical, .warning] ++ List.replicate 8 .suggestion := by
  intro s
  have hends : ((fixStage.plan s).perform crowdedWorld ()).2.2.toOption.isSome = true := by
    decide +kernel
  have hgiven : (((fixStage.plan s).perform crowdedWorld ()).2.1.exchanges.map fun e : Exchange =>
      ((modelFixes e.answer).length, (Fix.bySeverity (Fix.mostUrgent (modelFixes e.answer) ++
        (credentialFix s.context.diff s.files).toList)).map Fix.severity)) =
      [(12, [.critical, .critical, .warning] ++ List.replicate 8 .suggestion)] := by
    decide +kernel
  have hsome : (credentialFix s.context.diff s.files).isSome = true := by decide
  obtain ⟨o, ho⟩ := Option.isSome_iff_exists.mp hends
  have ho := eq_ok_of_toOption ho
  obtain ⟨fix, hfix⟩ := Option.isSome_iff_exists.mp hsome
  obtain ⟨e, listed, hcalls, hfixes, -, hlisting, -, hmem⟩ :=
    fixes_are_listed (s := s) rfl (by decide) ho
  rw [hcalls, hfix, Option.toList_some, List.map_singleton] at hgiven
  rw [hfix, Option.toList_some] at hlisting
  obtain ⟨htwelve, hseverities⟩ := Prod.mk.inj (List.cons.inj hgiven).1
  rw [← hlisting.sorted] at hseverities
  exact ⟨o, e, listed, fix, rfl, by decide, ho, hfixes, htwelve, hfix, hlisting, hmem fix hfix,
    hseverities⟩

end Workflow

end ChangeReview
