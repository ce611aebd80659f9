import ChangeReview.Backend.Basic

/-!
# Scripted backends

A backend for rehearsals. Its script holds the replies for each tool in the order of the calls; the
last of them repeats.
-/
namespace ChangeReview

/-- What a backend is to answer. -/
structure Script where
  provider : Value
  model : Value
  replies : List (Text × List (Except Fault Response)) := []
  /-- The reply for a tool that has none of its own. -/
  silence : Except Fault Response := .ok ⟨[], none⟩

/-- How often each tool has called, where it has. -/
abbrev CallCounts := List (Text × Nat)

namespace Script

/-- The reply for the call of a tool with the given number of calls before it. -/
def replyAt (s : Script) (tool : Text) (before : Nat) : Except Fault Response :=
  match s.replies.lookup tool with
  | some rs => ((rs[before]?).or rs.getLast?).getD s.silence
  | none => s.silence

/-- Answers a call. -/
def answer (s : Script) (counts : CallCounts) (call : Call) : CallCounts × Except Fault Response :=
  let before := (counts.lookup call.tool).getD 0
  ((call.tool, before + 1) :: counts.filter (·.1 != call.tool), s.replyAt call.tool before)

/-- The backend that follows the script. -/
def backend (s : Script) : Backend CallCounts := ⟨s.provider, s.model, s.answer⟩

end Script

end ChangeReview
