import ChangeReview.Proofs.Reply.ReplyFaults
import ChangeReview.Proofs.Review.DefaultAnalyses
import ChangeReview.Proofs.Review.ModelFixes
import ChangeReview.Workflow.Run

/-!
# What a stage makes of an answer

A stage that calls the backend takes a failed call for a notice and most replies for what they are.
Some replies it does not survive: they nest too deep, or give an unbounded complexity. What a stage
adds is described for every other answer: the files it lists, its notices, and its tokens.
-/
namespace ChangeReview

/-! ## Answers -/

/-- The most tokens that a call reports. -/
def usageLimit : Nat := 2 ^ 900

/-- An answer that a backend may give: a failure that stages expect, or a text with a modest usage. -/
def IsBenign : Except Fault Response → Prop
  | .error fault => fault.isAbsorbed = true
  | .ok r => ∀ u, r.usage = some u → u.input ≤ usageLimit ∧ u.output ≤ usageLimit

namespace Workflow

/-- A reply that nests too deep for the fixes in it. -/
def SpoilsFixes (t : Text) : Prop := ∃ part, Reply.fixEntries t = .error (.tooDeep part)

/-- A reply that nests too deep for the recommendations in it. -/
def SpoilsAdvice (t : Text) : Prop := ∃ part, Reply.extractList t = .error (.tooDeep part)

/-- A reply that ends the run. -/
def IsFatalReply (c : Context) (tool t : Text) : Prop :=
  (tool = fileStage.name ∧ Reply.SpoilsAnalyses ((analyzedFiles c).map (·.path)) t) ∨
    (tool = fixStage.name ∧ SpoilsFixes t) ∨ (tool = adviceStage.name ∧ SpoilsAdvice t)

/-- A call whose answer ends the run. -/
def IsFatal (c : Context) (e : Exchange) : Prop :=
  ∃ r, e.answer = .ok r ∧ IsFatalReply c e.call.tool r.text

theorem isFatal_ok_iff {c : Context} {call : Call} {r : Response} :
    IsFatal c ⟨call, .ok r⟩ ↔ IsFatalReply c call.tool r.text := by
  constructor
  · rintro ⟨r', hr, hfatal⟩
    obtain rfl := Except.ok.inj hr
    exact hfatal
  · intro hfatal
    exact ⟨r, rfl, hfatal⟩

/-- A call that failed is never fatal. -/
theorem not_isFatal_error {c : Context} {call : Call} {fault : Fault} :
    ¬ IsFatal c ⟨call, .error fault⟩ := by
  rintro ⟨r, hr, -⟩
  exact absurd hr (by simp)

/-- The notice of a call that failed. -/
def failureNotice (tool : Text) (fault : Fault) : Text :=
  if tool = fileStage.name then
    "Detailed file analysis unavailable (" ++ fault.message ++ "); kept default analyses"
  else if tool = fixStage.name then
    "Model fix generation unavailable (" ++ fault.message ++ ")"
  else if tool = summaryStage.name then
    "Summary generation failed (" ++ fault.message ++ "); used statistical summary"
  else "Recommendation generation failed (" ++ fault.message ++ ")"

/-- The notice of a reply that cannot be used, if it cannot. -/
def replyNotices (tool t : Text) : List Text :=
  if tool = fileStage.name then
    match Reply.extractObject t with
    | .ok _ => []
    | .error _ => ["Detailed file analysis was malformed; kept default analyses"]
  else if tool = fixStage.name then
    match fixesOfReply t with
    | .ok _ => []
    | .error _ => ["Model fix output was malformed; no model fixes used"]
  else if tool = summaryStage.name && (Text.trim t).isEmpty then
    ["Summary generation returned no text; used statistical summary"]
  else []

/-- The notices that a call adds to a run: one where it failed. -/
def notices (e : Exchange) : List Text :=
  match e.answer with
  | .error fault => [failureNotice e.call.tool fault]
  | .ok r => replyNotices e.call.tool r.text

/-! ## What is known of a state and of what a stage adds -/

/-- The state behind the first `n` stages of a run over a context, with the calls so far. -/
structure Sound (c : Context) (n : Nat) (calls : List Exchange) (s : State) : Prop where
  context : s.context = c
  files : 0 < n → s.files = c.changedFiles
  findings : s.findings = []
  insights : s.insights = calls.flatMap notices
  input : 0 ≤ s.inputTokens ∧ s.inputTokens ≤ (n * usageLimit : Nat)
  output : 0 ≤ s.outputTokens ∧ s.outputTokens ≤ (n * usageLimit : Nat)

/-- What a stage adds to a state when it has these notices. -/
structure Adds (c : Context) (s : State) (added : List Text) (o : Output) : Prop where
  files : o.files.getD s.files = c.changedFiles
  findings : o.findings = none
  insights : o.insights = added
  input : 0 ≤ o.inputTokens ∧ o.inputTokens ≤ usageLimit
  output : 0 ≤ o.outputTokens ∧ o.outputTokens ≤ usageLimit

theorem Sound.apply {c : Context} {n : Nat} {calls more : List Exchange} {s : State} {o : Output}
    (hs : Sound c n calls s) (ho : Adds c s (more.flatMap notices) o) :
    Sound c (n + 1) (calls ++ more) (s.apply o) where
  context := hs.context
  files _ := ho.files
  findings := by rw [State.apply, ho.findings]; exact hs.findings
  insights := by rw [State.apply, ho.insights, hs.insights, List.flatMap_append]
  input := by
    have hold := hs.input
    have hnew := ho.input
    have hmul : (n + 1) * usageLimit = n * usageLimit + usageLimit := Nat.succ_mul n usageLimit
    rw [hmul, State.apply]
    generalize usageLimit = limit at *
    dsimp only
    omega
  output := by
    have hold := hs.output
    have hnew := ho.output
    have hmul : (n + 1) * usageLimit = n * usageLimit + usageLimit := Nat.succ_mul n usageLimit
    rw [hmul, State.apply]
    generalize usageLimit = limit at *
    dsimp only
    omega

/-- A step that goes on or ends the run as its answer has it. -/
inductive Goes (c : Context) (s : State) : Step → Prop where
  | done {o : Output} : Adds c s [] o → Goes c s (.done (.ok o))
  | ask {call : Call} {resume : Except Fault Response → Except Fault Output} :
      (∀ answer, IsBenign answer →
        (¬ IsFatal c ⟨call, answer⟩ ∧
            ∃ o, resume answer = .ok o ∧ Adds c s (notices ⟨call, answer⟩) o) ∨
          (IsFatal c ⟨call, answer⟩ ∧ ∃ fault, resume answer = .error fault)) →
      Goes c s (.ask call resume)

/-! ## Parts of an output -/

/-- The parts of an output that the run goes by. -/
def outline (o : Output) : Option (List ChangedFile) × Option (List Finding) × List Text × Int × Int :=
  (o.files, o.findings, o.insights, o.inputTokens, o.outputTokens)

section Outputs

variable {c : Context} {s : State} {added : List Text} {o : Output}

theorem Adds.of_outline {o' : Output} (h : Adds c s added o) (heq : outline o' = outline o) :
    Adds c s added o' := by
  simp only [outline, Prod.mk.injEq] at heq
  obtain ⟨hfiles, hfindings, hinsights, hinput, houtput⟩ := heq
  constructor
  · rw [hfiles]; exact h.files
  · rw [hfindings]; exact h.findings
  · rw [hinsights]; exact h.insights
  · rw [hinput]; exact h.input
  · rw [houtput]; exact h.output

theorem Adds.insight (h : Adds c s added o) (t : Text) : Adds c s (added ++ [t]) (o.insight t) where
  files := h.files
  findings := h.findings
  insights := by rw [Output.insight, h.insights]
  input := h.input
  output := h.output

/-- The usage of a benign answer stays in the limit. -/
theorem Adds.usage (h : Adds c s added o) (hinput : o.inputTokens = 0) (houtput : o.outputTokens = 0)
    {r : Response} (hr : IsBenign (.ok r)) : Adds c s added (o.addUsage r) := by
  have hlimit : (0 : Int) ≤ usageLimit := Int.natCast_nonneg _
  cases husage : r.usage with
  | none =>
    have hsame : o.addUsage r = o := by rw [Output.addUsage, husage]
    rw [hsame]
    exact h
  | some u =>
    obtain ⟨hin, hout⟩ := hr u husage
    have hadded : o.addUsage r = { o with
        inputTokens := o.inputTokens + max 0 u.input
        outputTokens := o.outputTokens + max 0 u.output } := by
      rw [Output.addUsage, husage]
    rw [hadded]
    exact ⟨h.files, h.findings, h.insights, by dsimp only; omega, by dsimp only; omega⟩

/-- An output without parts adds nothing to a state that has its files. -/
theorem adds_nothing (hfiles : s.files = c.changedFiles) : Adds c s [] {} where
  files := hfiles
  findings := rfl
  insights := rfl
  input := ⟨Int.le_refl 0, Int.natCast_nonneg _⟩
  output := ⟨Int.le_refl 0, Int.natCast_nonneg _⟩

end Outputs

/-! ## The first stage -/

section FileStage

variable {c : Context} {s : State}

theorem adds_defaultFiles (defaults : FileAnalyses) : Adds c s [] (defaultFiles c defaults) where
  files := rfl
  findings := rfl
  insights := rfl
  input := ⟨Int.le_refl 0, Int.natCast_nonneg _⟩
  output := ⟨Int.le_refl 0, Int.natCast_nonneg _⟩

theorem outline_withAnalyses (defaults : FileAnalyses) (docs : Text) (deep : FileAnalyses)
    (o : Output) : outline (withAnalyses defaults docs deep o) = outline o := by
  unfold withAnalyses
  dsimp only
  split <;> rfl

/-- A reply to the first stage is fatal just where it spoils the analyses. -/
theorem isFatal_files {call : Call} (hcall : call.tool = fileStage.name) {r : Response} :
    IsFatal c ⟨call, .ok r⟩ ↔ Reply.SpoilsAnalyses ((analyzedFiles c).map (·.path)) r.text := by
  have hthird : fileStage.name ≠ fixStage.name := by decide
  have hfifth : fileStage.name ≠ adviceStage.name := by decide
  rw [isFatal_ok_iff, IsFatalReply, hcall]
  simp [hthird, hfifth]

theorem goes_files {defaults : FileAnalyses} {docs : Text} {call : Call}
    (hcall : call.tool = fileStage.name)
    (hdefaults : FileAnalyses.ofFiles (analyzedFiles c) = .ok defaults) :
    Goes c s (.ask call (resumeFiles c defaults docs)) := by
  have hbase : Adds c s [] (defaultFiles c defaults) := adds_defaultFiles defaults
  constructor
  intro answer hbenign
  cases answer with
  | error fault =>
    have habsorbed : fault.isAbsorbed = true := hbenign
    refine .inl ⟨not_isFatal_error, ?_⟩
    unfold resumeFiles notices failureNotice
    dsimp only
    rw [if_pos habsorbed, if_pos hcall]
    exact ⟨_, rfl, hbase.insight _⟩
  | ok r =>
    have hused := hbase.usage rfl rfl hbenign
    rw [isFatal_files hcall]
    unfold resumeFiles notices replyNotices
    dsimp only
    rw [if_pos hcall]
    rcases Reply.fileAnalyses_cases (FileAnalyses.lookup_ofFiles hdefaults) r.text with
      ⟨⟨deep, hdeep⟩, ⟨members, hmembers⟩, hspared⟩ | ⟨fault, hfault, hobject, hbad, hspared⟩ |
        ⟨fault, hfault, hbad, hmismatch, hspoils⟩
    · rw [hdeep, hmembers]
      exact .inl ⟨hspared, _, rfl, hused.of_outline (outline_withAnalyses _ _ _ _)⟩
    · rw [hfault, hobject]
      dsimp only
      rw [hbad]
      exact .inl ⟨hspared, _, rfl, hused.insight _⟩
    · rw [hfault]
      dsimp only
      rw [hbad, hmismatch]
      exact .inr ⟨hspoils, fault, rfl⟩

/-- The first stage needs files that fit. -/
theorem fileStage_goes (hs : s.context = c) :
    ((∀ f ∈ analyzedFiles c, f.Fits) ∧ Goes c s (fileStage.plan s)) ∨
      (¬ (∀ f ∈ analyzedFiles c, f.Fits) ∧ ∃ fault, fileStage.plan s = .done (.error fault)) := by
  rw [← FileAnalyses.ofFiles_ok_iff]
  subst hs
  unfold fileStage
  dsimp only
  cases hdefaults : FileAnalyses.ofFiles (analyzedFiles s.context) with
  | error fault => exact .inr ⟨by simp, fault, rfl⟩
  | ok defaults =>
    refine .inl ⟨⟨defaults, rfl⟩, ?_⟩
    dsimp only
    split
    · exact .done (adds_defaultFiles defaults)
    · exact goes_files rfl hdefaults

end FileStage

/-! ## The other stages -/

theorem scanStage_goes {c : Context} {s : State} (hs : s.context = c)
    (hfiles : s.files = c.changedFiles) (hoff : c.scanEnabled.truthy = false) :
    Goes c s (scanStage.plan s) := by
  subst hs
  unfold scanStage
  dsimp only
  rw [hoff]
  exact .done ((adds_nothing hfiles).of_outline rfl)

section FixStage

variable {c : Context} {s : State}

theorem checkCounts_ok_iff (files : List ChangedFile) :
    (∃ u, checkCounts files = .ok u) ↔ ∀ f ∈ files, f.HasNumerals := by
  induction files with
  | nil => exact iff_of_true ⟨(), rfl⟩ (by simp)
  | cons f files ih =>
    rw [List.forall_mem_cons, ChangedFile.HasNumerals, and_assoc]
    exact bind_ok_iff (Decimal.numeral_ok_iff f.additions) fun _ _ =>
      bind_ok_iff (Decimal.numeral_ok_iff f.deletions) fun _ _ => ih

theorem fixCall_cases (files : List ChangedFile) :
    ((∀ f ∈ files, f.HasNumerals) ∧ ∃ call, fixCall c files = .ok call ∧
        call.tool = fixStage.name) ∨
      (¬ (∀ f ∈ files, f.HasNumerals) ∧ ∃ fault, fixCall c files = .error fault) := by
  rw [← checkCounts_ok_iff]
  unfold fixCall
  cases checkCounts files with
  | ok u => exact .inl ⟨⟨u, rfl⟩, _, rfl, rfl⟩
  | error fault => exact .inr ⟨by simp, fault, rfl⟩

/-- The fixes of a reply are read, or refused as bad values, or nest too deep. -/
theorem fixesOfReply_cases (t : Text) :
    ((∃ fixes, fixesOfReply t = .ok fixes) ∧ ¬ SpoilsFixes t) ∨
      (∃ fault, fixesOfReply t = .error fault ∧ fault.isBadValue = true ∧ ¬ SpoilsFixes t) ∨
        ∃ part, fixesOfReply t = .error (.tooDeep part) ∧ SpoilsFixes t := by
  unfold fixesOfReply SpoilsFixes
  cases hentries : Reply.fixEntries t with
  | ok entries =>
    have hnot : ¬ ∃ part, (Except.ok entries : Except Fault (List Value)) = .error (.tooDeep part) := by
      simp
    cases hfixes : Fix.ofEntries entries with
    | ok fixes => exact .inl ⟨⟨fixes, hfixes⟩, hnot⟩
    | error fault => exact .inr (.inl ⟨fault, hfixes, Fix.ofEntries_fault hfixes, hnot⟩)
  | error fault =>
    cases hbad : fault.isBadValue with
    | true =>
      refine .inr (.inl ⟨fault, rfl, hbad, ?_⟩)
      rintro ⟨part, hpart⟩
      rw [Except.error.inj hpart] at hbad
      exact Bool.noConfusion hbad
    | false =>
      obtain ⟨part, rfl⟩ := (Reply.fixEntries_fault hentries).tooDeep hbad
      exact .inr (.inr ⟨part, rfl, part, rfl⟩)

theorem outline_completeFixes (files : List ChangedFile) (fixes : List Fix) (o : Output) :
    outline (completeFixes c files fixes o) = outline o := by
  unfold completeFixes
  dsimp only
  split <;> rfl

theorem isFatal_fixes {call : Call} (hcall : call.tool = fixStage.name) {r : Response} :
    IsFatal c ⟨call, .ok r⟩ ↔ SpoilsFixes r.text := by
  have hfirst : fixStage.name ≠ fileStage.name := by decide
  have hfifth : fixStage.name ≠ adviceStage.name := by decide
  rw [isFatal_ok_iff, IsFatalReply, hcall]
  simp [hfirst, hfifth]

theorem goes_fixes {files : List ChangedFile} {call : Call} (hcall : call.tool = fixStage.name)
    (hfiles : s.files = c.changedFiles) : Goes c s (.ask call (resumeFixes c files)) := by
  have hbase : Adds c s [] {} := adds_nothing hfiles
  have hfirst : call.tool ≠ fileStage.name := by
    rw [hcall]
    decide
  constructor
  intro answer hbenign
  cases answer with
  | error fault =>
    have habsorbed : fault.isAbsorbed = true := hbenign
    refine .inl ⟨not_isFatal_error, ?_⟩
    unfold resumeFixes notices failureNotice
    dsimp only
    rw [if_pos habsorbed, if_neg hfirst, if_pos hcall]
    exact ⟨_, rfl, (hbase.insight _).of_outline (outline_completeFixes _ _ _)⟩
  | ok r =>
    have hused := hbase.usage rfl rfl hbenign
    rw [isFatal_fixes hcall]
    unfold resumeFixes notices replyNotices
    dsimp only
    rw [if_neg hfirst, if_pos hcall]
    rcases fixesOfReply_cases r.text with
      ⟨⟨fixes, hfixes⟩, hspared⟩ | ⟨fault, hfault, hbad, hspared⟩ | ⟨part, hfault, hspoils⟩
    · rw [hfixes]
      refine .inl ⟨hspared, _, rfl, hused.of_outline ?_⟩
      rw [outline_completeFixes]
      split <;> rfl
    · rw [hfault]
      dsimp only
      rw [hbad]
      exact .inl ⟨hspared, _, rfl, (hused.insight _).of_outline (outline_completeFixes _ _ _)⟩
    · rw [hfault]
      exact .inr ⟨hspoils, _, rfl⟩

/-- The third stage needs line counts that can be written. -/
theorem fixStage_goes (hs : s.context = c) (hfiles : s.files = c.changedFiles)
    (hfindings : s.findings = []) :
    ((∀ f ∈ c.changedFiles, f.HasNumerals) ∧ Goes c s (fixStage.plan s)) ∨
      (¬ (∀ f ∈ c.changedFiles, f.HasNumerals) ∧
        ∃ fault, fixStage.plan s = .done (.error fault)) := by
  unfold fixStage
  dsimp only
  rw [hfindings, hfiles, hs]
  cases hchanged : c.changedFiles with
  | nil => exact .inl ⟨by simp, .done ((adds_nothing hfiles).of_outline rfl)⟩
  | cons f files =>
    rcases fixCall_cases (f :: files) with ⟨hfit, call, hcall, htool⟩ | ⟨hunfit, fault, hfault⟩
    · refine .inl ⟨hfit, ?_⟩
      rw [hcall]
      exact goes_fixes htool hfiles
    · refine .inr ⟨hunfit, fault, ?_⟩
      rw [hfault]
      rfl

end FixStage

section SummaryStage

variable {c : Context} {s : State}

/-- The totals of a change can be written. -/
def TotalsFit (files : List ChangedFile) : Prop :=
  Decimal.HasNumeral (ChangeTotals.ofFiles files).linesAdded ∧
    Decimal.HasNumeral (ChangeTotals.ofFiles files).linesRemoved

theorem stateSummary_ok_iff (s : State) :
    (∃ t, stateSummary s = .ok t) ↔ TotalsFit s.files := by
  unfold stateSummary countSummary
  refine bind_ok_iff (Decimal.numeral_ok_iff _) fun added _ => ?_
  refine (bind_ok_iff_left fun removed => ?_).trans (Decimal.numeral_ok_iff _)
  cases s.context.shownTitle with
  | none => exact ⟨_, rfl⟩
  | some t => cases t <;> exact ⟨_, rfl⟩

theorem summaryCall_of_fit (h : TotalsFit s.files) :
    ∃ call, summaryCall s = .ok call ∧ call.tool = summaryStage.name := by
  unfold summaryCall Prompt.summary
  rw [Decimal.numeral_of_hasNumeral h.1, Decimal.numeral_of_hasNumeral h.2]
  exact ⟨_, rfl, rfl⟩

theorem not_isFatal_summary {call : Call} (hcall : call.tool = summaryStage.name)
    {answer : Except Fault Response} : ¬ IsFatal c ⟨call, answer⟩ := by
  have hfirst : summaryStage.name ≠ fileStage.name := by decide
  have hthird : summaryStage.name ≠ fixStage.name := by decide
  have hfifth : summaryStage.name ≠ adviceStage.name := by decide
  rintro ⟨r, -, hfatal⟩
  rw [IsFatalReply, hcall] at hfatal
  simp [hfirst, hthird, hfifth] at hfatal

theorem goes_summary {counts : Text} {call : Call} (hcall : call.tool = summaryStage.name)
    (hfiles : s.files = c.changedFiles) : Goes c s (.ask call (resumeSummary s counts)) := by
  have hbase : Adds c s [] { summary := some counts } := (adds_nothing hfiles).of_outline rfl
  have hfirst : call.tool ≠ fileStage.name := by
    rw [hcall]
    decide
  have hthird : call.tool ≠ fixStage.name := by
    rw [hcall]
    decide
  constructor
  intro answer hbenign
  refine .inl ⟨not_isFatal_summary hcall, ?_⟩
  cases answer with
  | error fault =>
    have habsorbed : fault.isAbsorbed = true := hbenign
    unfold resumeSummary notices failureNotice
    dsimp only
    rw [if_pos habsorbed, if_neg hfirst, if_neg hthird, if_pos hcall]
    exact ⟨_, rfl, hbase.insight _⟩
  | ok r =>
    have hused := hbase.usage rfl rfl hbenign
    unfold resumeSummary notices replyNotices
    dsimp only
    rw [if_neg hfirst, if_neg hthird, decide_eq_true hcall, Bool.true_and]
    by_cases hempty : (Text.trim r.text).isEmpty = true
    · rw [if_pos hempty, if_pos hempty]
      exact ⟨_, rfl, hused.insight _⟩
    · rw [if_neg hempty, if_neg hempty]
      refine ⟨_, rfl, ((adds_nothing hfiles).usage rfl rfl hbenign).of_outline ?_⟩
      split <;> rfl

/-- The fourth stage needs totals that can be written. -/
theorem summaryStage_goes (hfiles : s.files = c.changedFiles) :
    (TotalsFit c.changedFiles ∧ Goes c s (summaryStage.plan s)) ∨
      (¬ TotalsFit c.changedFiles ∧ ∃ fault, summaryStage.plan s = .done (.error fault)) := by
  rw [← hfiles]
  have hok := stateSummary_ok_iff s
  unfold summaryStage
  dsimp only
  cases hcounts : stateSummary s with
  | error fault =>
    rw [hcounts] at hok
    exact .inr ⟨fun h => absurd (hok.mpr h) (by simp), fault, rfl⟩
  | ok counts =>
    have hfit : TotalsFit s.files := hok.mp ⟨counts, hcounts⟩
    obtain ⟨call, hcall, htool⟩ := summaryCall_of_fit hfit
    rw [hcall]
    refine .inl ⟨hfit, ?_⟩
    dsimp only
    split
    · exact .done ((adds_nothing hfiles).of_outline rfl)
    · exact goes_summary htool hfiles

end SummaryStage

section AdviceStage

variable {c : Context} {s : State}

theorem outline_completeAdvice (recommendations : List Text) (o : Output) :
    outline (completeAdvice s recommendations o) = outline o := by
  unfold completeAdvice
  dsimp only
  split
  · rfl
  · split <;> rfl

theorem isFatal_advice {call : Call} (hcall : call.tool = adviceStage.name) {r : Response} :
    IsFatal c ⟨call, .ok r⟩ ↔ SpoilsAdvice r.text := by
  have hfirst : adviceStage.name ≠ fileStage.name := by decide
  have hthird : adviceStage.name ≠ fixStage.name := by decide
  rw [isFatal_ok_iff, IsFatalReply, hcall]
  simp [hfirst, hthird]

theorem goes_advice {call : Call} (hcall : call.tool = adviceStage.name)
    (hfiles : s.files = c.changedFiles) : Goes c s (.ask call (resumeAdvice s)) := by
  have hbase : Adds c s [] {} := adds_nothing hfiles
  have hname : ∀ stage ∈ [fileStage, fixStage, summaryStage], call.tool ≠ stage.name := by
    rw [hcall]
    decide
  obtain ⟨hfirst, hthird, hfourth, -⟩ : call.tool ≠ fileStage.name ∧ call.tool ≠ fixStage.name ∧
      call.tool ≠ summaryStage.name ∧ True := by simpa using hname
  constructor
  intro answer hbenign
  cases answer with
  | error fault =>
    have habsorbed : fault.isAbsorbed = true := hbenign
    refine .inl ⟨not_isFatal_error, ?_⟩
    unfold resumeAdvice notices failureNotice
    dsimp only
    rw [if_pos habsorbed, if_neg hfirst, if_neg hthird, if_neg hfourth]
    exact ⟨_, rfl, (hbase.insight _).of_outline (outline_completeAdvice _ _)⟩
  | ok r =>
    have hused := hbase.usage rfl rfl hbenign
    rw [isFatal_advice hcall]
    unfold resumeAdvice notices replyNotices
    dsimp only
    rw [if_neg hfirst, if_neg hthird, if_neg (by simp [hfourth])]
    cases hread : Reply.recommendations r.text with
    | ok items =>
      refine .inl ⟨?_, _, rfl, hused.of_outline (outline_completeAdvice _ _)⟩
      intro hspoils
      obtain ⟨fault, hfault⟩ := Reply.recommendations_eq_error_iff.mpr hspoils
      exact absurd (hread.symm.trans hfault) (by simp)
    | error fault => exact .inr ⟨Reply.recommendations_eq_error_iff.mp ⟨fault, hread⟩, fault, rfl⟩

theorem adviceStage_goes (hfiles : s.files = c.changedFiles) : Goes c s (adviceStage.plan s) := by
  unfold adviceStage
  dsimp only
  split
  · exact .done ((adds_nothing hfiles).of_outline rfl)
  · exact goes_advice rfl hfiles

end AdviceStage

end Workflow

end ChangeReview
