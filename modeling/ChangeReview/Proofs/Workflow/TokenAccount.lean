import ChangeReview.Proofs.Workflow.Sources
import Mathlib.Algebra.Order.BigOperators.Group.List

/-!
# The token account

Each stage adds the usage of the responses that it got, once, and behind every exit: when the call
fails there is no response, and when the text of a response is thrown away its usage is not. So the
counters of a run are at every stage the sums over the responses so far, and the total of a report
is the sum over all of them.
-/
namespace ChangeReview

namespace Exchange

theorem input_nonneg (calls : List Exchange) : 0 ≤ input calls := by
  refine List.sum_nonneg fun n hn => ?_
  obtain ⟨r, -, rfl⟩ := List.mem_map.mp hn
  exact r.input_nonneg

theorem output_nonneg (calls : List Exchange) : 0 ≤ output calls := by
  refine List.sum_nonneg fun n hn => ?_
  obtain ⟨r, -, rfl⟩ := List.mem_map.mp hn
  exact r.output_nonneg

/-- The tokens of all responses are their input tokens and their output tokens. -/
theorem sum_tokens (calls : List Exchange) :
    ((responses calls).map Response.tokens).sum = input calls + output calls := by
  rw [funext Response.tokens_eq]
  exact List.sum_map_add

end Exchange

namespace Workflow

variable {scanner : Scan.Outcome}

/-- One stage adds to the counters what its responses used. -/
theorem tokens_apply {s : State} {stage : Stage} {more : List Exchange} {o : Output}
    (hstage : stage ∈ stages) (h : (stage.plan s).Yields scanner more o) :
    (s.apply o).inputTokens = s.inputTokens + Exchange.input more ∧
      (s.apply o).outputTokens = s.outputTokens + Exchange.output more := by
  obtain ⟨parts, ho, -⟩ := stage_yields hstage h
  have hinput : o.inputTokens = Exchange.input more := congrArg Output.inputTokens ho
  have houtput : o.outputTokens = Exchange.output more := congrArg Output.outputTokens ho
  simp only [State.apply, hinput, houtput, max_eq_right (Exchange.input_nonneg more),
    max_eq_right (Exchange.output_nonneg more), and_self]

/-- Stages in a row add what their responses used. -/
theorem Passes.tokens {s t : State} {row : List Stage} {calls : List Exchange}
    (h : Passes scanner s row calls t) (hrow : ∀ stage ∈ row, stage ∈ stages) :
    t.inputTokens = s.inputTokens + Exchange.input calls ∧
      t.outputTokens = s.outputTokens + Exchange.output calls := by
  induction h with
  | nil => simp [Exchange.input, Exchange.output, Exchange.responses]
  | cons hyields _ ih =>
    obtain ⟨hinput, houtput⟩ := tokens_apply (hrow _ List.mem_cons_self) hyields
    have hrest := ih fun stage hstage => hrow stage (List.mem_cons_of_mem _ hstage)
    rw [Exchange.input_append, Exchange.output_append]
    omega

/-- A report counts what the responses of its run used, each of them once: nothing for a response
without usage, and nothing below zero. -/
theorem tokens_eq_sum {σ : Type} {w : World σ} {d : Disk} {origin : Origin} {c : Context}
    {run : Run σ} {report : Report} (h : Completes w d origin c run report) :
    report.tokens = .int ((Exchange.responses run.trace.exchanges).map Response.tokens).sum := by
  obtain ⟨hpasses, htells⟩ := h.passes
  obtain ⟨hinput, houtput⟩ := hpasses.tokens fun _ hstage => hstage
  rw [htells.tokens, State.tokens, hinput, houtput, Exchange.sum_tokens, Int.zero_add, Int.zero_add]

/-- Of four calls one failed, one response had no usage and one had a count below zero. -/
theorem tokens_eq_sum_talk : ∃ report,
    Completes talkative {} ⟨.text "any", .text "any"⟩ settingContext talk.recording.run report ∧
    (Exchange.responses talk.recording.run.trace.exchanges).map Response.tokens = [7, 0, 3] ∧
    report.tokens = .int 10 := by
  obtain ⟨report, h⟩ := exists_completes_talk
  have hresponses :
      (Exchange.responses talk.recording.run.trace.exchanges).map Response.tokens = [7, 0, 3] := by
    decide +kernel
  have htokens := tokens_eq_sum h
  rw [hresponses] at htokens
  exact ⟨report, h, hresponses, htokens⟩

end Workflow

end ChangeReview
