import ChangeReview.Provider.Stream

/-!
# Clients

A client speaks to one service with fixed options. Most clients are built with a key at once; the
client for streams opens its session with the first call. The options may name a value to use as the
connection, which only shows to be none when it is asked.
-/
namespace ChangeReview.Provider

/-- What a call of each service delivers. -/
abbrev Delivery : Provider → Type
  | bedrock => List StreamEvent
  | anthropic => Message
  | openai => Completion
  | gemini => Generation

/-- What becomes of a call by what was delivered. -/
def answer : (p : Provider) → Except Fault (Delivery p) → Except Fault Reply
  | bedrock => answerStream
  | anthropic => answerMessage
  | openai => answerCompletion
  | gemini => answerGeneration

/-- A part of a service's library that is built, with its arguments. -/
structure Built where
  what : Text
  arguments : Value
  deriving DecidableEq

/-- What a client speaks through. -/
inductive Connection where
  /-- Nothing yet: a session is opened with the first call. -/
  | pending
  | ready
  /-- A value that was given in place of a connection. -/
  | standIn (v : Value)
  deriving DecidableEq

/-- A client of a service. -/
structure Client where
  provider : Provider
  options : Options
  connection : Connection
  deriving DecidableEq

/-- The key for a service: the one given, or that of the environment. -/
def requireKey (env : Environment) (given : Value) (keyName provider : Text) : Except Fault Value :=
  let key := given.orElse (Value.ofOption (env.lookup keyName))
  if key.truthy then .ok key
  else .error (.configuration (keyName ++ " environment variable is not set (required for " ++
    provider ++ ")") (some keyName))

/-- What is built for a client of a service that takes a key. -/
def builtWith (p : Provider) (o : Options) (key : Value) : List Built :=
  let keyed : Value := .members [("api_key", key), ("timeout", .int timeout)]
  match p with
  | bedrock => []
  | anthropic => [⟨"Anthropic", keyed⟩]
  | openai => [⟨"OpenAI", keyed⟩]
  | gemini => [⟨"configure", .members [("api_key", key)]⟩,
      ⟨"GenerativeModel",
        .members [("arg0", o.model), ("system_instruction", .text systemPrompt)]⟩]

/-- A value takes the place of a connection: any but `null` at two of the services, any that is not
empty at the others. -/
def standsIn (p : Provider) (v : Value) : Bool :=
  match p with
  | bedrock | gemini => !v.isNull
  | anthropic | openai => v.truthy

/-- A client with the given options, over a connection that is there already or is built. -/
def connect (p : Provider) (env : Environment) (given : List (Text × Value)) (connected : Bool) :
    Except Fault (Client × List Built) := do
  let o ← p.options given
  if connected then return (⟨p, o, .ready⟩, [])
  if p.standsIn o.client then return (⟨p, o, .standIn o.client⟩, [])
  match p.keyVariable? with
  | none => return (⟨p, o, .pending⟩, [])
  | some keyName =>
    let key ← requireKey env o.key keyName p.name
    return (⟨p, o, .ready⟩, builtWith p o key)

namespace Client

/-- What is built when a session is opened. -/
def session (o : Options) : List Built := [
  ⟨"Session", .members [("profile_name", o.profile), ("region_name", o.region)]⟩,
  ⟨"client", .members [
    ("name", .text "bedrock-runtime"),
    ("config", .members [
      ("retries", .members [("max_attempts", .int 2), ("mode", .text "adaptive")]),
      ("read_timeout", .int timeout),
      ("connect_timeout", .int 10),
      ("max_pool_connections", .int 4),
      ("tcp_keepalive", .bool true)])]⟩]

/-- The service on the other side, over the states `σ`: whether a session can be opened, and what a
request delivers. -/
structure Service (p : Provider) (σ : Type) where
  session : Except Fault Unit := .ok ()
  deliver : σ → Value → σ × Except Fault (Delivery p)

/-- A call of a client: what was built for it, what was asked if it came to that, and the reply. -/
structure Turn (σ : Type) where
  client : Client
  here : σ
  built : List Built := []
  request : Option Value := none
  reply : Except Fault Reply

/-- Asks the service for a prompt, after opening the session if there is none. -/
def ask {σ : Type} (c : Client) (s : Service c.provider σ) (here : σ) (prompt : Text) : Turn σ :=
  let request := c.provider.request c.options prompt
  let asked (client : Client) (built : List Built) : Turn σ :=
    let (next, delivery) := s.deliver here request
    ⟨client, next, built, some request, answer c.provider delivery⟩
  match c.connection, s.session with
  | .ready, _ => asked c []
  | .standIn v, _ =>
    ⟨c, here, [], none, answer c.provider (.error (.noMember v.kind c.provider.entry))⟩
  | .pending, .ok () => asked { c with connection := .ready } (session c.options)
  | .pending, .error fault =>
    ⟨c, here, session c.options, none, answer c.provider (.error fault)⟩

/-- The client as a backend, which remembers its connection. -/
def backend {σ : Type} (c : Client) (s : Service c.provider σ) : Backend (Connection × σ) where
  provider := .text c.provider.name
  model := c.options.model
  invoke here call :=
    let t := ask { c with connection := here.1 } s here.2 call.prompt
    ((t.client.connection, t.here), t.reply >>= Reply.toResponse)

/-- The disk with a reply's tokens in the usage log. -/
def log (c : Client) (d : Disk) (now : Instant) (timestamp tool : Text) (milliseconds : Int)
    (r : Except Fault Reply) : Disk :=
  match r with
  | .ok ⟨_, some counts, _⟩ =>
    match counts.total with
    | .ok total =>
      Usage.append d now (Usage.callLine timestamp c.options.model.display tool counts total
        milliseconds)
    | .error _ => d
  | _ => d

end Client

end ChangeReview.Provider
