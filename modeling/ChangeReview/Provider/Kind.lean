import ChangeReview.Settings
import ChangeReview.Value.Writer

/-!
# Providers

The services that can stand behind a backend, and what each of them is asked for a prompt.
-/
namespace ChangeReview

/-- A service that generates text. -/
inductive Provider where
  | bedrock
  | anthropic
  | openai
  | gemini
  deriving DecidableEq, Repr

namespace Provider

def name : Provider → Text
  | bedrock => "bedrock"
  | anthropic => "anthropic"
  | openai => "openai"
  | gemini => "gemini"

/-- The name in messages. -/
def title : Provider → Text
  | bedrock => "Bedrock"
  | anthropic => "Anthropic"
  | openai => "OpenAI"
  | gemini => "Gemini"

def all : List Provider := [bedrock, anthropic, openai, gemini]

def ofName? (t : Text) : Option Provider := all.find? fun p => p.name == t

/-- The variable that holds the key for the service, where it needs one. -/
def keyVariable? : Provider → Option Text
  | bedrock => none
  | anthropic => some "ANTHROPIC_API_KEY"
  | openai => some "OPENAI_API_KEY"
  | gemini => some "GOOGLE_API_KEY"

/-- The member of a connection through which calls go. -/
def entry : Provider → Text
  | bedrock => "invoke_model_with_response_stream"
  | anthropic => "messages"
  | openai => "chat"
  | gemini => "generate_content"

/-- The fault of a call that came to nothing. -/
def failed (p : Provider) (fault : Fault) : Fault :=
  .backend (p.title ++ " inference failed: " ++ fault.message) (some p.name)

/-- What every model is told to be. -/
def systemPrompt : Text :=
  "You are an expert software engineer reviewing a pull request. Be specific, reference files " ++
    "and lines, and follow the requested output format exactly."

/-- The seconds after which a call is given up. -/
def timeout : Int := 120

/-! ## Options -/

/-- The options of a client. They are passed on as they are. -/
structure Options where
  model : Value
  maxTokens : Value := .int 4000
  temperature : Value := .float 0.2
  key : Value := .null
  profile : Value := .text "bedrock"
  region : Value := .text "eu-west-1"
  /-- What is given in place of a connection. -/
  client : Value := .null
  deriving DecidableEq

/-- The options with one of them set; a provider knows only its own options. -/
def Options.set (p : Provider) (o : Options) (name : Text) (v : Value) : Except Fault Options :=
  if name == "model" then .ok { o with model := v }
  else if name == "max_tokens" then .ok { o with maxTokens := v }
  else if name == "temperature" then .ok { o with temperature := v }
  else if name == "client" then .ok { o with client := v }
  else if name == "api_key" && p != bedrock then .ok { o with key := v }
  else if name == "profile" && p == bedrock then .ok { o with profile := v }
  else if name == "region" && p == bedrock then .ok { o with region := v }
  else .error (.mismatch (.unexpectedArgument name))

/-- The options of a client from those that are given. -/
def options (p : Provider) (given : List (Text × Value)) : Except Fault Options :=
  given.foldlM (fun o e => Options.set p o e.1 e.2) { model := .text (defaultModel p.name) }

/-! ## Requests -/

/-- A message of a conversation. -/
def message (role : String) (content : Text) : Value :=
  .members [("role", .text role.toList), ("content", .text content)]

/-- The body of a request for a stream. -/
def streamBody (o : Options) (prompt : Text) : Value :=
  .members [
    ("anthropic_version", .text "bedrock-2023-05-31"),
    ("max_tokens", o.maxTokens),
    ("temperature", o.temperature),
    ("system", .text systemPrompt),
    ("messages", .list [message "user" prompt])]

/-- What a service is asked for a prompt. The prompt that stands by itself is `arg0`. -/
def request (p : Provider) (o : Options) (prompt : Text) : Value :=
  match p with
  | bedrock => .members [
      ("modelId", o.model),
      ("contentType", .text "application/json"),
      ("accept", .text "application/json"),
      ("body", .text (Value.writeLine (streamBody o prompt)))]
  | anthropic => .members [
      ("model", o.model),
      ("max_tokens", o.maxTokens),
      ("temperature", o.temperature),
      ("system", .text systemPrompt),
      ("messages", .list [message "user" prompt])]
  | openai => .members [
      ("model", o.model),
      ("max_tokens", o.maxTokens),
      ("temperature", o.temperature),
      ("messages", .list [message "system" systemPrompt, message "user" prompt])]
  | gemini => .members [
      ("arg0", .text prompt),
      ("generation_config", .members [
        ("max_output_tokens", o.maxTokens), ("temperature", o.temperature)]),
      ("request_options", .members [("timeout", .int timeout)])]

end Provider

end ChangeReview
