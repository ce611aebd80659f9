import ChangeReview.Proofs.Reply.Recommendations
import ChangeReview.Proofs.Workflow.CallProtocol

/-!
# Recommendations of a report

The last stage reports the first items of a reply, or the default recommendations where there is no
item at all. It looks into no item, so a hollow list line of the reply comes through as a
recommendation that is blank.
-/
namespace ChangeReview.Workflow

/-- The answer to the last stage is a reply that is read by its lines, and one of the first list
lines is hollow. -/
def AdvisesHollow (e : Exchange) : Prop :=
  e.call.tool = adviceStage.name ∧ ∃ r, e.answer = .ok r ∧
    Reply.HasHollow r.text ((Reply.listLines r.text).take maxRecommendations)

theorem isNeat_defaultRecommendations : ∀ item ∈ defaultRecommendations, item.IsNeat := by
  decide +kernel

theorem neat_standingAdvice_iff (items : List Text) :
    (∀ item ∈ standingAdvice items, item.IsNeat) ↔ ∀ item ∈ items, item.IsNeat := by
  unfold standingAdvice
  split
  · next hnone =>
    rw [List.isEmpty_iff.mp hnone]
    exact iff_of_true isNeat_defaultRecommendations (by simp)
  · exact Iff.rfl

/-- The recommendations that stand are neat unless the answer advises something hollow. -/
theorem AdviceFrom.neat_iff {s : State} {files : List ChangedFile} {more : List Exchange}
    {items : List Text} (h : AdviceFrom files (adviceCall s) more items) :
    (∀ item ∈ items, item.IsNeat) ↔ ∀ e ∈ more, ¬ AdvisesHollow e := by
  cases h with
  | unchanged => exact iff_of_true isNeat_defaultRecommendations (by simp)
  | refused => exact iff_of_true isNeat_defaultRecommendations (by simp [AdvisesHollow])
  | @read r given _ hread =>
    have htool : (adviceCall s).tool = adviceStage.name := rfl
    rw [neat_standingAdvice_iff, Reply.neat_take_iff hread]
    simp [AdvisesHollow, htool]

/-- Calls for the sake of other tools advise nothing. -/
theorem AsksIf.not_advisesHollow {tool : Text} {p : Prop} {more : List Exchange}
    (h : AsksIf tool p more) (hother : tool ≠ adviceStage.name) : ∀ e ∈ more, ¬ AdvisesHollow e := by
  rintro e he ⟨htool, -⟩
  have hsame := (h.mem_iff e.call.tool).mp (List.mem_map_of_mem he)
  exact hother (hsame.1.symm.trans htool)

section Completed

variable {σ : Type} {w : World σ} {d : Disk} {origin : Origin} {c : Context} {run : Run σ}
  {report : Report}

/-- The recommendations of a report are neat unless a reply in the run advises something hollow. -/
theorem Completes.neat_iff (h : Completes w d origin c run report) :
    (∀ v ∈ report.recommendations, ∃ item : Text, v = .text item ∧ item.IsNeat) ↔
      ∀ e ∈ run.trace.exchanges, ¬ AdvisesHollow e := by
  obtain ⟨hpasses, htells⟩ := h.passes
  obtain ⟨filed, fixed, told, advised, hcalls, hcourse⟩ := hpasses.course
  obtain ⟨defaults, -, hanalyses⟩ := hcourse.analyses
  have hfiled := hanalyses.asksIf.not_advisesHollow (by decide)
  have hfixed := hcourse.fixes.asksIf.not_advisesHollow (by decide)
  have htold := hcourse.summary.asksIf.not_advisesHollow (by decide)
  rw [hcalls, List.forall_mem_append, List.forall_mem_append, List.forall_mem_append,
    and_iff_right hfiled, and_iff_right hfixed, and_iff_right htold,
    ← hcourse.recommendations.neat_iff, htells.recommendations]
  simp

/-- The recommendations that are read from a reply are neat just unless it is read by its lines and
one of them is hollow, and those of a report just unless a reply to the last stage has such a line
among its first list lines. -/
theorem recommendations_are_neat {t : Text} {items : List Text}
    (hread : Reply.recommendations t = .ok items) (h : Completes w d origin c run report) :
    ((∀ item ∈ items, item.IsNeat) ↔ ¬ Reply.HasHollow t (Text.lines t)) ∧
      ((∀ v ∈ report.recommendations, ∃ item : Text, v = .text item ∧ item.IsNeat) ↔
        ∀ e ∈ run.trace.exchanges, ¬ AdvisesHollow e) :=
  ⟨Reply.neat_recommendations_iff hread, h.neat_iff⟩

end Completed

/-- The one recommendation of the talkative backend is neat, and so is that of the report. -/
theorem recommendations_are_neat_talk : ∃ report,
    Completes talkative {} ⟨.text "any", .text "any"⟩ settingContext talk.recording.run report ∧
      (∀ v ∈ report.recommendations, ∃ item : Text, v = .text item ∧ item.IsNeat) ∧
      Reply.recommendations "- Test it" = .ok ["Test it"] ∧ Text.IsNeat "Test it" := by
  obtain ⟨report, h⟩ := exists_completes_talk
  have hread : Reply.recommendations "- Test it" = .ok ["Test it"] :=
    eq_ok_of_toOption (by decide +kernel)
  obtain ⟨hitems, hreport⟩ := recommendations_are_neat hread h
  have hreplies : ∀ e ∈ talk.recording.run.trace.exchanges, e.call.tool = adviceStage.name →
      e.answer.toOption.map (·.text) = some "- Test it" := by
    decide +kernel
  have hnone : ¬ Reply.HasHollow "- Test it" (Text.lines "- Test it") :=
    Reply.not_hasHollow (by decide) _
  have hfirst : (Reply.listLines "- Test it").take maxRecommendations = Text.lines "- Test it" := by
    decide
  refine ⟨report, h, hreport.mpr ?_, hread, ?_⟩
  · rintro e he ⟨htool, r, hr, hhollow⟩
    have htext : r.text = "- Test it" := by simpa [hr, Except.toOption] using hreplies e he htool
    rw [htext, hfirst] at hhollow
    exact hnone hhollow
  · exact hitems.mpr hnone _ (List.mem_singleton.mpr rfl)

/-- A backend that answers the last stage with a dash and two blanks. -/
def terse : World Unit where
  backend := {
    provider := .text "any"
    model := .text "any"
    invoke := fun here call => (here,
      if call.tool = adviceStage.name then .ok ⟨"-  ", none⟩ else .error (.runtime "down")) }
  scanner := .notInstalled

/-- The quick run over the change of the settings with it. -/
def terseTalk : Ended Unit := runQuick terse () {} ⟨.text "any", .text "any"⟩ settingContext

/-- A blank is the only recommendation of the reply, and of the report. -/
theorem blank_recommendation :
    (Reply.recommendations "-  " = .ok [" "] ∧ ¬ Text.IsNeat " ") ∧
      ∃ report, Completes terse {} ⟨.text "any", .text "any"⟩ settingContext terseTalk.run report ∧
        report.recommendations = [.text " "] := by
  refine ⟨⟨eq_ok_of_toOption (by decide +kernel), fun hneat => ?_⟩, ?_⟩
  · exact absurd hneat.trim_eq (by decide)
  · have hends : (terseTalk.report.toOption.map (·.recommendations)) = some [.text " "] := by
      decide +kernel
    obtain ⟨report, hreport, hitems⟩ := Option.map_eq_some_iff.mp hends
    have hended : terseTalk = ⟨terseTalk.run, .ok report⟩ := by rw [← eq_ok_of_toOption hreport]
    exact ⟨report, .quick hended, hitems⟩

end ChangeReview.Workflow
