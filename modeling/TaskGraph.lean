import TaskGraph.Binary64.Basic
import TaskGraph.Binary64.Shortest
import TaskGraph.Compilation
import TaskGraph.Container.Environment
import TaskGraph.Container.SecretStore
import TaskGraph.Container.TaskRun
import TaskGraph.Declaration.Identifier
import TaskGraph.Declaration.Interface
import TaskGraph.Declaration.LiteralType
import TaskGraph.Declaration.Report
import TaskGraph.Declaration.Secret
import TaskGraph.Declaration.Settings
import TaskGraph.Declaration.Task
import TaskGraph.Error
import TaskGraph.Files.Contents
import TaskGraph.Files.Fault
import TaskGraph.Files.Path
import TaskGraph.Files.Tree
import TaskGraph.Graph
import TaskGraph.Json.Lexer
import TaskGraph.Json.Number
import TaskGraph.Json.Reader
import TaskGraph.Json.Record
import TaskGraph.Json.Token
import TaskGraph.Json.Value
import TaskGraph.Log
import TaskGraph.Proofs.Trace.Admission
import TaskGraph.Proofs.Trace.Grouping
import TaskGraph.Proofs.Trace.History
import TaskGraph.Proofs.Trace.NodeId
import TaskGraph.Registry.Basic
import TaskGraph.Registry.Reference
import TaskGraph.Registry.RemoteInterface
import TaskGraph.Routine
import TaskGraph.Server.Delivery
import TaskGraph.Server.Link
import TaskGraph.Server.Resolution
import TaskGraph.Server.Submission
import TaskGraph.Text.Blank
import TaskGraph.Text.Split
import TaskGraph.Text.Upper
import TaskGraph.Trace.Binding
import TaskGraph.Trace.CallLog
import TaskGraph.Trace.Callable
import TaskGraph.Trace.Tracer
import TaskGraph.Trace.Workflow
import TaskGraph.Proofs.Trace.Run
import TaskGraph.Proofs.Graph.Closure
import TaskGraph.Proofs.Registry.Declarations
import TaskGraph.Proofs.Registry.Resolution
import TaskGraph.Proofs.Registry.Handles
import TaskGraph.Proofs.Declaration.Interface
import TaskGraph.Proofs.Json.Fields
import TaskGraph.Proofs.Registry.EchoedTemplate
import TaskGraph.Proofs.Routine.Triple
import TaskGraph.Proofs.Server.Schedule
import TaskGraph.Proofs.Registry.Reachable
import TaskGraph.Proofs.Server.Resolution
import TaskGraph.Proofs.Server.Answers
import TaskGraph.Proofs.Server.Submission
import TaskGraph.Proofs.Registration.Stages
import TaskGraph.Proofs.Compilation.Reachable
import TaskGraph.Proofs.Graph.Dependencies
import TaskGraph.Proofs.Server.Storage
import TaskGraph.Proofs.Registration.Resumption
import TaskGraph.Proofs.Trace.Isolation
import TaskGraph.Proofs.Compilation.Isolation
import TaskGraph.Proofs.Registry.Operations
import TaskGraph.Proofs.Trace.Arguments
import TaskGraph.Proofs.Registry.EchoedPlan
import TaskGraph.Proofs.Json.Lexing
import TaskGraph.Proofs.Json.Reading
import TaskGraph.Proofs.Json.NumberValue
import TaskGraph.Proofs.Files.Delivery
import TaskGraph.Proofs.Trace.CallBinding
import TaskGraph.Proofs.Registry.TemplateInputs
import TaskGraph.Proofs.Trace.ConstantTypes
import TaskGraph.Proofs.Files.RoundTrip
import TaskGraph.Proofs.Declaration.IntegerLiteral
import TaskGraph.Proofs.Files.Writing
import TaskGraph.Proofs.Container.TaskRun
import TaskGraph.Proofs.Server.Timing
import TaskGraph.Proofs.Declaration.Rules
import TaskGraph.Proofs.Declaration.Acceptance
import TaskGraph.Proofs.Registry.EchoedSecrets
import TaskGraph.Proofs.Files.Joining
import TaskGraph.Proofs.Container.Confinement
import TaskGraph.Proofs.Declaration.BaseUrl
import TaskGraph.Proofs.Trace.StableGrouping
