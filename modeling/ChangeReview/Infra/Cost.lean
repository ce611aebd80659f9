import ChangeReview.Change.Diff
import ChangeReview.Change.File
import ChangeReview.Decimal.Digits
import ChangeReview.Text.Scan
import ChangeReview.Value.Basic

/-!
# Infrastructure costs

What the resources that a change adds would cost in a month: one estimate for each kind of resource,
read off a table of typical sizes. Only added lines of Terraform and CloudFormation files count; the
other kinds of infrastructure files carry no prices.
-/
namespace ChangeReview.Infra

/-!
## Infrastructure files

The kinds of files that describe infrastructure, told by their paths.
-/

/-- A kind of infrastructure file. -/
inductive FileKind where
  | terraform
  | cloudformation
  | cdk
  | pulumi
  | docker
  | kubernetes
  | workflows
  | serverless
  deriving DecidableEq, Repr

namespace FileKind

def name : FileKind → Text
  | terraform => "terraform"
  | cloudformation => "cloudformation"
  | cdk => "cdk"
  | pulumi => "pulumi"
  | docker => "docker"
  | kubernetes => "kubernetes"
  | workflows => "github_actions"
  | serverless => "serverless"

/-- The shapes of the paths of each kind. -/
def patterns : FileKind → List PathPattern
  | terraform => [.endsIn [".tf", ".tfvars"]]
  | cloudformation => [
    .endsIn ["template.yaml", "template.yml", "template.json"],
    .endsIn ["cloudformation.yaml", "cloudformation.yml", "cloudformation.json"]]
  | cdk => [.endsIn ["cdk.json"]]
  | pulumi => [.endsIn ["Pulumi.yaml", "Pulumi.yml"], .spans "pulumi." [".ts", ".js", ".py", ".go"]]
  | docker => [.holds "Dockerfile", .endsIn ["docker-compose.yaml", "docker-compose.yml"]]
  | kubernetes => [
    .spans "k8s" [".yaml", ".yml"], .spans "kubernetes" [".yaml", ".yml"],
    .spans ".kube" [".yaml", ".yml"]]
  | workflows => [.spans ".github/workflows/" [".yaml", ".yml"]]
  | serverless => [.endsIn ["serverless.yaml", "serverless.yml", "serverless.json"]]

/-- All kinds, in the order in which they are tried. -/
def all : List FileKind :=
  [terraform, cloudformation, cdk, pulumi, docker, kubernetes, workflows, serverless]

/-- The first kind of which the path has a shape. -/
def ofPath? (path : Text) : Option FileKind :=
  all.find? fun kind => kind.patterns.any (·.accepts path)

end FileKind

/-!
## Resources

The costed resources that a piece of Terraform or a CloudFormation template declares, each by its
name and its kind.
-/

/-- A declared resource. -/
structure Resource where
  name : Text
  kind : Text
  deriving DecidableEq, Repr

/-! ### Terraform -/

/-- The beginnings of the Terraform types of each kind. -/
def terraformKinds : List (List Text × Text) := [
  (["aws_instance"], "ec2"),
  (["aws_lambda"], "lambda"),
  (["aws_s3"], "s3"),
  (["aws_rds", "aws_db"], "rds"),
  (["aws_ecs"], "ecs"),
  (["aws_alb", "aws_lb"], "alb"),
  (["aws_nat"], "nat-gateway"),
  (["aws_elasticache"], "elasticache"),
  (["aws_cloudfront"], "cloudfront"),
  (["aws_api_gateway", "aws_apigatewayv2"], "api-gateway"),
  (["aws_sqs"], "sqs"),
  (["aws_sns"], "sns"),
  (["aws_dynamodb"], "dynamodb")]

/-- The kind of a Terraform type, if it is costed. -/
def terraformKind? (type : Text) : Option Text :=
  (terraformKinds.find? fun e => e.1.any (Text.startsWith type)).map (·.2)

/-- A text between double quotes, not empty and without double quotes, and what follows. -/
def takeQuoted? : Text → Option (Text × Text)
  | '"' :: t => do
    let (inside, rest) ← Text.takeSome? (· != '"') t
    match rest with
    | '"' :: rest => some (inside, rest)
    | _ => none
  | _ => none

/-- The opening of a resource block: its type and its name. -/
def resourceBlock : Text.Pattern (Text × Text) := fun _ ahead => do
  let (type, rest) ← takeQuoted? (← Text.skipBlanks? (← Text.dropPrefix? "resource" ahead))
  let (name, rest) ← takeQuoted? (← Text.skipBlanks? rest)
  some ((type, name), ahead.length - rest.length)

/-- The costed resources of a piece of Terraform. -/
def terraformResources (content : Text) : List Resource :=
  (Text.matchesOf resourceBlock content).filterMap fun (type, name) =>
    (terraformKind? type).map fun kind => ⟨name, kind⟩

/-! ### CloudFormation -/

/-- The costed CloudFormation types with their kinds, in the order in which they are reported. -/
def cloudTypes : List (Text × Text) := [
  ("AWS::EC2::Instance", "ec2"),
  ("AWS::Lambda::Function", "lambda"),
  ("AWS::S3::Bucket", "s3"),
  ("AWS::RDS::DBInstance", "rds"),
  ("AWS::ECS::Service", "ecs"),
  ("AWS::ECS::TaskDefinition", "ecs"),
  ("AWS::ElasticLoadBalancingV2::LoadBalancer", "alb"),
  ("AWS::EC2::NatGateway", "nat-gateway"),
  ("AWS::ElastiCache::CacheCluster", "elasticache"),
  ("AWS::CloudFront::Distribution", "cloudfront"),
  ("AWS::ApiGateway::RestApi", "api-gateway"),
  ("AWS::ApiGatewayV2::Api", "api-gateway"),
  ("AWS::SQS::Queue", "sqs"),
  ("AWS::SNS::Topic", "sns"),
  ("AWS::DynamoDB::Table", "dynamodb")]

/-- The blanks in front, among which a line has to end, are dropped. -/
def skipLineEnd? (t : Text) : Option Text :=
  if (t.takeWhile Text.isBlank).contains '\n' then some (Text.trimLeft t) else none

/-- One quotation mark in front is dropped. -/
def dropQuote : Text → Text
  | '"' :: t | '\'' :: t => t
  | t => t

/-- The text does not go on with a longer type name. -/
def endsTypeName : Text → Bool
  | c :: _ => !(Text.isWordChar c || c == ':')
  | [] => true

/-- The logical ID of a resource with the given type: the ID and a colon, on the next line `Type:`
and the whole type name. -/
def logicalId (type : Text) : Text.Pattern Text := fun _ ahead => do
  let (id, rest) ← Text.takeSome? Text.isWordChar ahead
  let rest ← skipLineEnd? (← Text.dropPrefix? ":" rest)
  let rest ← Text.dropPrefix? "Type:" rest
  let rest ← Text.dropPrefix? type (dropQuote (Text.trimLeft rest))
  if endsTypeName rest then some (id, ahead.length - rest.length) else none

/-- The resources of one type. A type that is mentioned without a logical ID counts once, under the
name of its kind. -/
def resourcesOfType (content type kind : Text) : List Resource :=
  if !Text.occurs type content then []
  else match Text.matchesOf (logicalId type) content with
    | [] => [⟨kind, kind⟩]
    | ids => ids.map fun id => ⟨id, kind⟩

/-- The costed resources of a template. -/
def cloudResources (content : Text) : List Resource :=
  cloudTypes.flatMap fun (type, kind) => resourcesOfType content type kind

/-! ## Estimates -/

/-- How much an estimate can be trusted. -/
inductive Confidence where
  | high
  | medium
  | low
  deriving DecidableEq, Repr

namespace Confidence

def name : Confidence → Text
  | high => "high"
  | medium => "medium"
  | low => "low"

def ofName? (t : Text) : Option Confidence :=
  if t == "high" then some high
  else if t == "medium" then some medium
  else if t == "low" then some low
  else none

end Confidence

/-- The monthly price of a typical size of a resource, in dollars. -/
structure Price where
  kind : Text
  low : Float
  typical : Float
  high : Float
  confidence : Confidence

/-- The prices by kind of resource. -/
def prices : List Price := [
  ⟨"ec2", 30.0, 34.0, 40.0, .medium⟩,
  ⟨"lambda", 0.2, 0.4, 2.0, .low⟩,
  ⟨"s3", 0.023, 0.023, 0.025, .low⟩,
  ⟨"rds", 26.0, 30.0, 35.0, .medium⟩,
  ⟨"ecs", 20.0, 24.0, 30.0, .medium⟩,
  ⟨"alb", 16.0, 22.0, 30.0, .high⟩,
  ⟨"nat-gateway", 32.0, 45.0, 60.0, .high⟩,
  ⟨"elasticache", 12.0, 15.0, 18.0, .medium⟩,
  ⟨"cloudfront", 85.0, 100.0, 120.0, .low⟩,
  ⟨"api-gateway", 3.5, 4.0, 5.0, .low⟩,
  ⟨"sqs", 0.4, 0.5, 0.6, .low⟩,
  ⟨"sns", 0.5, 0.6, 0.7, .low⟩,
  ⟨"dynamodb", 25.0, 30.0, 40.0, .low⟩]

/-- The estimated cost of a kind of resource. -/
structure Estimate where
  kind : Text
  monthly : Float
  confidence : Confidence
  details : Text
  deriving DecidableEq, Repr

/-- The estimate for a kind of resource; nothing, with a remark, for a kind without a price. -/
def estimate (kind : Text) : Estimate :=
  match prices.find? (·.kind == kind) with
  | none => ⟨kind, 0.0, .low, "Unknown resource type - manual estimation required"⟩
  | some p => ⟨kind, p.typical, p.confidence,
      "Estimated $" ++ Decimal.fixed 2 p.low ++ " - $" ++ Decimal.fixed 2 p.high ++ "/month"⟩

/-- The resources that one file of a change adds. -/
def resourcesOf (f : ChangedFile) : List Resource :=
  let content := Text.join "\n" (Diff.addedLines f.diff)
  match FileKind.ofPath? f.path with
  | some .terraform => terraformResources content
  | some .cloudformation => cloudResources content
  | _ => []

/-- The kinds with `kind` behind them unless it is one of them already. -/
def addKind (kinds : List Text) (kind : Text) : List Text :=
  if kinds.contains kind then kinds else kinds ++ [kind]

/-- The kinds of resources that a change adds, each once, in the order of their first resource. -/
def addedKinds (files : List ChangedFile) : List Text :=
  ((files.flatMap resourcesOf).map (·.kind)).foldl addKind []

/-- The estimates for a change. -/
def estimates (files : List ChangedFile) : List Estimate := (addedKinds files).map estimate

/-- The sum of the estimates, added from left to right; a whole zero when there are none. -/
def total (es : List Estimate) : Value :=
  match es with
  | [] => .int 0
  | _ => .float (es.foldl (fun sum e => sum + e.monthly) 0.0)

end ChangeReview.Infra
