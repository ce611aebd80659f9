import ChangeReview.Decimal.Literal
import ChangeReview.Text.Case
import ChangeReview.Value.Basic

/-!
# Settings

What a process is configured with. Each setting comes from one variable of the environment or has a
default; the first variable with an unusable value ends the reading with a fault that names it.
Settings may also be given directly and hold anything then: a run checks what it needs.
-/
namespace ChangeReview

/-- The variables of a process, by name. -/
abbrev Environment := List (Text × Text)

/-- The providers of text that can be configured. -/
def supportedProviders : List Text := ["bedrock", "anthropic", "openai", "gemini"]

/-- The model of each provider unless one is named. -/
def defaultModels : List (Text × Text) := [
  ("bedrock", "eu.anthropic.claude-sonnet-4-6"),
  ("anthropic", "claude-sonnet-4-5"),
  ("openai", "gpt-4o"),
  ("gemini", "gemini-1.5-pro")]

def defaultModel (provider : Text) : Text := (defaultModels.lookup provider).getD []

/-- The settings of a process. -/
structure Settings where
  provider : Value := .text "bedrock"
  model : Value := .text (defaultModel "bedrock")
  temperature : Value := .float 0.2
  maxTokens : Value := .int 4000
  tokenBudget : Value := .int 100000
  maxCost : Value := .float 5.0
  staticAnalysis : Bool := true
  useCache : Bool := false

namespace Settings

/-- The variable's text, if it is set. -/
def find? (env : Environment) (name : Text) : Option Text := env.lookup name

/-- A setting of the named variable is bad for the reason given. -/
def bad {α : Type} (name reason : Text) : Except Fault α :=
  .error (.configuration reason (some name))

/-- The name of a supported provider, in any case and with blanks around it. -/
def readProvider (env : Environment) : Except Fault Text :=
  let name : Text := "PR_ANALYZER_PROVIDER"
  let provider := Text.lower (Text.trim ((find? env name).getD "bedrock".toList))
  if supportedProviders.contains provider then .ok provider
  else bad name ("Unknown provider '" ++ provider ++ "'. Supported: " ++
    Text.join ", " supportedProviders)

/-- The model named, or the provider's own. -/
def readModel (env : Environment) (provider : Text) : Text :=
  match find? env "PR_ANALYZER_MODEL" with
  | some (c :: r) => c :: r
  | _ => defaultModel provider

/-- A number read from a variable by `read`; `default` when the variable is not set. -/
def readNumber {α : Type} (read : Text → Option α) (default : α) (env : Environment) (name : Text) :
    Except Fault α :=
  match find? env name with
  | none => .ok default
  | some raw =>
    match read raw with
    | some n => .ok n
    | none => bad name (name ++ " must be a number, got " ++ Text.quoted raw)

def readTemperature (env : Environment) : Except Fault Float := do
  let name : Text := "PR_ANALYZER_TEMPERATURE"
  let t ← readNumber Decimal.readFloat? 0.2 env name
  if 0.0 ≤ t && t ≤ 2.0 then return t
  bad name "temperature must be between 0 and 2"

def readMaxTokens (env : Environment) : Except Fault Int := do
  let name : Text := "PR_ANALYZER_MAX_TOKENS"
  let n ← readNumber Decimal.readInt? 4000 env name
  if n ≤ 0 then bad name "max tokens must be a positive integer" else return n

/-- The budget of tokens and the limit of cost. Both are read before either is checked. -/
def readBudgets (env : Environment) : Except Fault (Int × Float) := do
  let budgetName : Text := "PR_ANALYZER_TOKEN_BUDGET"
  let costName : Text := "PR_ANALYZER_MAX_COST"
  let budget ← readNumber Decimal.readInt? 100000 env budgetName
  let cost ← readNumber Decimal.readFloat? 5.0 env costName
  if budget ≤ 0 then bad budgetName "token budget must be positive"
  else if cost < 0.0 then bad costName "max cost cannot be negative"
  else return (budget, cost)

/-- Words that switch a setting on. -/
def onWords : List Text := ["1", "true", "yes", "on"]

/-- Words that switch a setting off. -/
def offWords : List Text := ["0", "false", "no", "off"]

def readSwitch (default : Bool) (env : Environment) (name : Text) : Except Fault Bool :=
  match find? env name with
  | none => .ok default
  | some raw =>
    let word := Text.lower (Text.trim raw)
    if onWords.contains word then .ok true
    else if offWords.contains word then .ok false
    else bad name (name ++ " must be a boolean, got " ++ Text.quoted raw)

/-- The settings with one of them set; there are no others. -/
def set (s : Settings) (name : Text) (v : Value) : Except Fault Settings :=
  if name == "provider" then .ok { s with provider := v }
  else if name == "model" then .ok { s with model := v }
  else if name == "temperature" then .ok { s with temperature := v }
  else if name == "max_tokens" then .ok { s with maxTokens := v }
  else if name == "token_budget" then .ok { s with tokenBudget := v }
  else if name == "max_cost" then .ok { s with maxCost := v }
  else if name == "enable_static_analysis" then .ok { s with staticAnalysis := v.truthy }
  else if name == "use_cache" then .ok { s with useCache := v.truthy }
  else .error (.mismatch (.unexpectedArgument name))

/-- The settings that the members of an object set. -/
def ofValue : Value → Except Fault Settings
  | .object members => members.foldlM (fun s e => s.set e.1 e.2) {}
  | v => .error (.mismatch (.notAMapping v.kind))

/-- The settings that the environment asks for. -/
def load (env : Environment) : Except Fault Settings := do
  let provider ← readProvider env
  let temperature ← readTemperature env
  let maxTokens ← readMaxTokens env
  let (tokenBudget, maxCost) ← readBudgets env
  let staticAnalysis ← readSwitch true env "PR_ANALYZER_STATIC_ANALYSIS"
  let useCache ← readSwitch false env "PR_ANALYZER_CACHE"
  return {
    staticAnalysis, useCache
    provider := .text provider
    model := .text (readModel env provider)
    temperature := .float temperature
    maxTokens := .int maxTokens
    tokenBudget := .int tokenBudget
    maxCost := .float maxCost }

end Settings

end ChangeReview
