import ChangeReview.Backend.Basic
import ChangeReview.Provider.Kind
import ChangeReview.Usage.Log

/-!
# Replies

What a call of a service comes to: a text, the tokens if the service reports them, and why the text
ends. The three services that answer in one piece deliver it in three shapes.
-/
namespace ChangeReview.Provider

/-- What a service answered. Services that answer in one piece may put anything in the place of the
text. -/
structure Reply where
  text : Value
  usage : Option Usage.Counts
  stopReason : Value
  deriving DecidableEq

/-- The reason that is given when there is none. -/
def unknownReason : Value := .text "unknown"

/-- The reply, if the counts that it reports can be added, as they are in the log. -/
def Reply.counted (r : Reply) : Except Fault Reply :=
  match r.usage with
  | none => .ok r
  | some c => c.total.map fun _ => r

/-- The tokens of counts that are whole numbers. -/
def tokenUsage (c : Usage.Counts) : Except Fault TokenUsage :=
  match c.input.whole?, c.output.whole? with
  | some i, some o => .ok ⟨i, o⟩
  | some _, none => .error (.mismatch (.notOrdered c.output.kind "int"))
  | none, _ => .error (.mismatch (.notOrdered c.input.kind "int"))

/-- The reply as the response of a backend, which has a text and counts whole tokens. -/
def Reply.toResponse (r : Reply) : Except Fault Response :=
  match r.text, r.usage with
  | .text t, none => .ok ⟨t, none⟩
  | .text t, some c => (tokenUsage c).map fun u => ⟨t, some u⟩
  | v, _ => .error (.noMember v.kind "strip")

/-! ## Messages -/

/-- A part of a message; a part that is no text has members of its own. -/
structure Block where
  type : Value := .text []
  text : Option Value := none
  deriving DecidableEq

/-- A message of the messages service. -/
structure Message where
  blocks : List Block
  usage : Usage.Counts
  stopReason : Value := .null
  deriving DecidableEq

/-- The text of a part that says it is one. -/
def Block.text? (b : Block) : Except Fault (Option Value) :=
  if b.type = .text "text" then
    match b.text with
    | some v => .ok (some v)
    | none => .error (.noMember "SimpleNamespace" "text")
  else .ok none

/-- Texts put together; what is no text cannot be joined. -/
def joinTexts (vs : List Value) : Except Fault Text := do
  let parts ← vs.zipIdx.mapM fun (v, i) =>
    match v with
    | .text t => .ok t
    | v => .error (.mismatch (.notJoinable i v.kind))
  return parts.flatten

/-- The reply that a message makes. -/
def Message.reply (m : Message) : Except Fault Reply := do
  let texts ← m.blocks.mapM Block.text?
  let text ← joinTexts (texts.filterMap id)
  Reply.counted ⟨.text text, some m.usage, m.stopReason.orElse unknownReason⟩

/-- What becomes of a call of the messages service. -/
def answerMessage : Except Fault Message → Except Fault Reply
  | .ok m => m.reply
  | .error (.messagesService t) => .error (failed .anthropic (.messagesService t))
  | .error fault => .error fault

/-! ## Completions -/

/-- One of the texts that the chat service offers. -/
structure Choice where
  content : Value := .null
  finishReason : Value := .null
  deriving DecidableEq

/-- A completion of the chat service. -/
structure Completion where
  choices : List Choice
  usage : Option Usage.Counts
  deriving DecidableEq

/-- The reply that a completion makes: its first choice. -/
def Completion.reply (c : Completion) : Except Fault Reply :=
  match c.choices with
  | choice :: _ =>
    Reply.counted ⟨choice.content.orElse (.text []), c.usage,
      choice.finishReason.orElse unknownReason⟩
  | [] => Reply.counted ⟨.text [], c.usage, unknownReason⟩

/-- What becomes of a call of the chat service. -/
def answerCompletion : Except Fault Completion → Except Fault Reply
  | .ok c => c.reply
  | .error (.chatService t) => .error (failed .openai (.chatService t))
  | .error fault => .error fault

/-! ## Generations -/

/-- What the generation service delivers. -/
structure Generation where
  text : Value
  usage : Option Usage.Counts
  deriving DecidableEq

/-- The reply that a generation makes; counts that are absent or empty are zero. -/
def Generation.reply (g : Generation) : Except Fault Reply :=
  Reply.counted ⟨g.text.orElse (.text []),
    g.usage.map fun c => ⟨c.input.orElse (.int 0), c.output.orElse (.int 0)⟩, unknownReason⟩

/-- What becomes of a call of the generation service. -/
def answerGeneration : Except Fault Generation → Except Fault Reply
  | .ok g => g.reply
  | .error fault => .error (failed .gemini fault)

end ChangeReview.Provider
