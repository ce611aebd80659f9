import ChangeReview.Proofs.Text.DocumentBytes
import ChangeReview.Proofs.Value.RoundTrip
import ChangeReview.Provider.Stream
import Mathlib.Data.List.GetD

/-!
# The news of a stream

Reading a stream is hearing its news one by one. What an event tells does not depend on what came
before it, so the state behind a stream is a sum over the news up to the first failure: all pieces
in order, and the last of the counts and reasons.
-/
namespace ChangeReview.Provider

/-- What one event of a stream tells. -/
inductive News where
  | piece (v : Value)
  | start (input : Value)
  | stop (reason output : Value)
  | nothing
  | failure (fault : Fault)

namespace News

/-- The news of an attempt. -/
def ofAttempt {α : Type} (news : α → News) : Except Fault α → News
  | .ok a => news a
  | .error fault => .failure fault

/-- Why the message of a delta ends, and the tokens of its output. -/
def ending? (chunk : Value) : Except Fault (Value × Value) := do
  let delta ← chunk.getD "delta" (.object [])
  let reason ← delta.getD "stop_reason" unknownReason
  let usage ← chunk.getD "usage" (.object [])
  let output ← usage.getD "output_tokens" (.int 0)
  return (reason, output)

/-- The tokens of the input with which a message starts. -/
def input? (chunk : Value) : Except Fault Value := do
  let message ← chunk.getD "message" (.object [])
  let usage ← message.getD "usage" (.object [])
  usage.getD "input_tokens" (.int 0)

def ofChunk (chunk : Value) : News :=
  ofAttempt (fun type =>
    if type = .text "content_block_delta" then
      ofAttempt (fun v => v.elim nothing piece) (StreamState.deltaPiece? chunk)
    else if type = .text "message_delta" then ofAttempt (fun e => stop e.1 e.2) (ending? chunk)
    else if type = .text "message_start" then ofAttempt start (input? chunk)
    else nothing) (chunk.getD "type" (.text []))

def ofDocument (document : Except Fault Text) : News :=
  match document >>= Value.parse with
  | .ok chunk => ofChunk chunk
  | .error .notJson | .error (.missingKey _) => nothing
  | .error fault => failure fault

def ofOther (event : Value) : News :=
  ofAttempt (fun isChunk =>
    if isChunk then ofDocument (StreamState.eventDocument event)
    else
      ofAttempt (fun key : Option Text =>
        match key with
        | some key => failure (StreamState.noticeFault event key)
        | none =>
          match event with
          | .object _ => nothing
          | v => failure (.noMember v.kind "keys"))
        (StreamState.firstHeld event StreamState.errorKeys)) (StreamState.holds event "chunk")

end News

/-- What an event tells. -/
def StreamEvent.news : StreamEvent → News
  | .chunk bytes => News.ofDocument (Text.ofDocumentBytes bytes)
  | .other event => News.ofOther event
  | .broken fault => .failure fault

namespace News

/-- How the news ends the stream, if it does. A piece without a length does. -/
def fault? : News → Option Fault
  | piece v => if StreamState.isSized v then none else some (.mismatch (.noLength v.kind))
  | failure fault => some fault
  | _ => none

def piece? : News → Option Value
  | piece v => some v
  | _ => none

def started? : News → Option Value
  | start v => some v
  | _ => none

def stopped? : News → Option (Value × Value)
  | stop reason output => some (reason, output)
  | _ => none

/-- The result of a step that may have failed. -/
def outcome : Option Fault → Except Fault Unit
  | none => .ok ()
  | some fault => .error fault

/-- The news that is heard: up to the first failure, and with it. -/
def heard : List News → List News
  | [] => []
  | n :: rest => if n.fault?.isSome then [n] else n :: heard rest

/-- The first failure. -/
def failed? (news : List News) : Option Fault := news.findSome? fault?

/-- News without a failure is heard to its end. -/
theorem heard_of_forall {news : List News} (h : ∀ n ∈ news, n.fault? = none) :
    heard news = news ∧ failed? news = none := by
  refine ⟨?_, List.findSome?_eq_none_iff.mpr h⟩
  induction news with
  | nil => rfl
  | cons n rest ih =>
    rw [heard, h n List.mem_cons_self, if_neg (by simp),
      ih fun m hm => h m (List.mem_cons_of_mem n hm)]

/-- Nothing is heard behind a failure. -/
theorem heard_append_cons {before : List News} {n : News} {fault : Fault}
    (h : ∀ m ∈ before, m.fault? = none) (hn : n.fault? = some fault) (after : List News) :
    heard (before ++ n :: after) = before ++ [n] ∧ failed? (before ++ n :: after) = some fault := by
  induction before with
  | nil => simp [heard, failed?, hn]
  | cons m before ih =>
    have hm := h m List.mem_cons_self
    obtain ⟨hheard, hfailed⟩ := ih fun k hk => h k (List.mem_cons_of_mem m hk)
    constructor
    · rw [List.cons_append, heard, hm, if_neg (by simp), hheard, List.cons_append]
    · rw [List.cons_append, failed?, List.findSome?_cons, hm]
      exact hfailed

end News

namespace StreamState

open News

/-- The state behind news that has been heard. -/
def hear (s : StreamState) (news : List News) : StreamState :=
  let last := (news.filterMap stopped?).getLastD (s.stopReason, s.output)
  { pieces := s.pieces ++ news.filterMap piece?
    input := (news.filterMap started?).getLastD s.input
    output := last.2
    stopReason := last.1 }

@[simp] theorem hear_nil (s : StreamState) : s.hear [] = s := by
  simp [hear]

theorem hear_cons (s : StreamState) (n : News) (rest : List News) :
    s.hear (n :: rest) = (s.hear [n]).hear rest := by
  cases n <;>
    simp only [hear, piece?, started?, stopped?, List.filterMap_cons, List.filterMap_nil,
      List.getLastD_cons, List.getLastD_nil, List.append_nil, List.append_assoc, List.cons_append,
      List.nil_append]

theorem hear_append (s : StreamState) (before after : List News) :
    s.hear (before ++ after) = (s.hear before).hear after := by
  induction before generalizing s with
  | nil => rw [List.nil_append, hear_nil]
  | cons n before ih => rw [List.cons_append, hear_cons, ih, ← hear_cons]

theorem hear_start (s : StreamState) (input : Value) :
    s.hear [start input] = { s with input } := by
  simp [hear, piece?, started?, stopped?]

theorem hear_stop (s : StreamState) (reason output : Value) :
    s.hear [stop reason output] = { s with stopReason := reason, output } := by
  simp [hear, piece?, started?, stopped?]

/-- News that carries nothing leaves the state as it is. -/
theorem hear_failure (s : StreamState) (fault : Fault) : s.hear [failure fault] = s := by
  simp [hear, List.filterMap_cons, piece?, started?, stopped?]

theorem hear_nothing (s : StreamState) : s.hear [nothing] = s := by
  simp [hear, List.filterMap_cons, piece?, started?, stopped?]

/-- The result of a step with one news. -/
def told (s : StreamState) (n : News) : StreamResult := (s.hear [n], outcome n.fault?)

theorem told_failure (s : StreamState) (fault : Fault) :
    s.told (failure fault) = (s, .error fault) := by
  rw [told, hear_failure]
  rfl

theorem told_nothing (s : StreamState) : s.told nothing = (s, .ok ()) := by
  rw [told, hear_nothing]
  rfl

theorem told_piece (s : StreamState) (v : Value) : s.told (piece v) = s.addPiece v := by
  show (s.hear [piece v], outcome (if isSized v then none else some _)) = s.addPiece v
  unfold addPiece
  by_cases hsized : isSized v = true
  · rw [if_pos hsized, if_pos hsized]
    rfl
  · rw [if_neg hsized, if_neg hsized]
    rfl

theorem onText_eq (s : StreamState) (chunk : Value) :
    s.onText chunk = s.told (ofAttempt (fun v => v.elim nothing piece) (deltaPiece? chunk)) := by
  unfold onText
  cases deltaPiece? chunk with
  | error fault => exact (told_failure s fault).symm
  | ok v =>
    cases v with
    | none => exact (told_nothing s).symm
    | some v => exact (told_piece s v).symm

theorem onEnd_eq (s : StreamState) (chunk : Value) :
    s.behind (s.onEnd chunk) = s.told (ofAttempt (fun e => stop e.1 e.2) (ending? chunk)) := by
  have hend : s.onEnd chunk = (fun e : Value × Value =>
      { s with stopReason := e.1, output := e.2 }) <$> ending? chunk := by
    simp only [onEnd, ending?, map_bind, map_pure]
  rw [hend]
  cases ending? chunk with
  | error fault => exact (told_failure s fault).symm
  | ok e =>
    obtain ⟨reason, output⟩ := e
    rw [ofAttempt, told, hear_stop]
    rfl

theorem onStart_eq (s : StreamState) (chunk : Value) :
    s.behind (s.onStart chunk) = s.told (ofAttempt start (input? chunk)) := by
  have hstart : s.onStart chunk = (fun v : Value => { s with input := v }) <$> input? chunk := by
    simp only [onStart, input?, map_bind, bind_pure_comp]
  rw [hstart]
  cases input? chunk with
  | error fault => exact (told_failure s fault).symm
  | ok v =>
    rw [ofAttempt, told, hear_start]
    rfl

theorem onChunk_eq (s : StreamState) (chunk : Value) :
    s.onChunk chunk = s.told (ofChunk chunk) := by
  unfold onChunk ofChunk
  cases chunk.getD "type" (.text []) with
  | error fault => exact (told_failure s fault).symm
  | ok type =>
    dsimp only [ofAttempt]
    by_cases htext : type = .text "content_block_delta"
    · rw [if_pos htext, if_pos htext]
      exact onText_eq s chunk
    · rw [if_neg htext, if_neg htext]
      by_cases hend : type = .text "message_delta"
      · rw [if_pos hend, if_pos hend]
        exact onEnd_eq s chunk
      · rw [if_neg hend, if_neg hend]
        by_cases hstart : type = .text "message_start"
        · rw [if_pos hstart, if_pos hstart]
          exact onStart_eq s chunk
        · rw [if_neg hstart, if_neg hstart]
          exact (told_nothing s).symm

theorem onDocument_eq (s : StreamState) (document : Except Fault Text) :
    s.onDocument document = s.told (ofDocument document) := by
  unfold onDocument ofDocument
  cases document >>= Value.parse with
  | ok chunk => exact onChunk_eq s chunk
  | error fault =>
    cases fault with
    | notJson | missingKey => exact (told_nothing s).symm
    | _ => exact (told_failure s _).symm

theorem onOther_eq (s : StreamState) (event : Value) :
    s.onOther event = s.told (ofOther event) := by
  unfold onOther ofOther
  cases holds event "chunk" with
  | error fault => exact (told_failure s fault).symm
  | ok isChunk =>
    cases isChunk with
    | true => exact onDocument_eq s _
    | false =>
      cases hheld : firstHeld event errorKeys with
      | error fault => exact (told_failure s fault).symm
      | ok key =>
        cases key with
        | some key => exact (told_failure s _).symm
        | none =>
          cases event with
          | object members => exact (told_nothing s).symm
          | _ => exact (told_failure s _).symm

/-- A step adds what the event tells. -/
theorem step_eq (s : StreamState) (e : StreamEvent) : s.step e = s.told e.news := by
  cases e with
  | chunk bytes => exact onDocument_eq s _
  | other event => exact onOther_eq s event
  | broken fault => exact (told_failure s fault).symm

/-- A stream is read up to the first failure. -/
theorem read_eq (s : StreamState) (events : List StreamEvent) :
    s.read events = (s.hear (heard (events.map StreamEvent.news)),
      outcome (failed? (events.map StreamEvent.news))) := by
  induction events generalizing s with
  | nil => simp [read, heard, failed?, outcome]
  | cons e rest ih =>
    rw [read, step_eq, told, List.map_cons, heard, failed?, List.findSome?_cons]
    cases hfault : e.news.fault? with
    | some fault => simp [outcome]
    | none =>
      show (s.hear [e.news]).read rest = _
      rw [ih, if_neg (by simp), hear_cons s e.news (heard _)]
      rfl

end StreamState

/-! ## Chunks of text -/

/-- A chunk that holds a text. -/
def chunkOf (t : Text) : StreamEvent := .chunk (Text.toUtf8 t).data.toList

/-- A document of an object opens a brace and a quote. -/
theorem startsPlain_writeLine (m : Text × Value) (ms : List (Text × Value)) :
    Text.StartsPlain (Value.writeLine (.object (m :: ms))) := by
  have hwrite : ∃ rest, Value.writeLine (.object (m :: ms)) = '\x7b' :: '"' :: rest := by
    rw [Value.writeLine_object, List.map_cons]
    cases ms with
    | nil =>
      rw [List.map_nil, Text.join_singleton, Value.writeText]
      exact ⟨_, rfl⟩
    | cons n ms =>
      rw [List.map_cons, Text.join_cons_cons, Value.writeText]
      exact ⟨_, rfl⟩
  obtain ⟨rest, hwrite⟩ := hwrite
  rw [hwrite]
  exact ⟨by decide, by decide⟩

/-- A chunk with the document of an object tells what the object does. -/
theorem news_chunkOf {m : Text × Value} {ms : List (Text × Value)}
    (h : Value.Readable Value.maxDepth (.object (m :: ms))) :
    (chunkOf (Value.writeLine (.object (m :: ms)))).news = News.ofChunk (.object (m :: ms)) := by
  have hdocument : Text.ofDocumentBytes
      (Text.toUtf8 (Value.writeLine (.object (m :: ms)))).data.toList =
        .ok (Value.writeLine (.object (m :: ms))) :=
    Text.ofDocumentBytes_toUtf8 (startsPlain_writeLine m ms)
  have hparse : (Except.ok (Value.writeLine (.object (m :: ms))) >>= Value.parse) =
      .ok (.object (m :: ms)) := Value.parse_write Value.Layout.isBlank_oneLine h
  unfold chunkOf StreamEvent.news
  dsimp only
  rw [hdocument, News.ofDocument, hparse]

end ChangeReview.Provider
