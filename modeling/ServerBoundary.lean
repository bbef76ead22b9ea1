import ServerBoundary.Data.OrderedMap
import ServerBoundary.Text.Part
import ServerBoundary.Text.Utf8
import ServerBoundary.Decimal.Double
import ServerBoundary.Decimal.Shortest
import ServerBoundary.Json.Read
import ServerBoundary.Json.Record
import ServerBoundary.Json.Value
import ServerBoundary.Source.Comment
import ServerBoundary.Source.Literal
import ServerBoundary.Source.NameCharacters
import ServerBoundary.Source.Quoted
import ServerBoundary.Source.SyntaxError
import ServerBoundary.Source.Token
import ServerBoundary.Syntax.Build
import ServerBoundary.Syntax.Names
import ServerBoundary.Syntax.Node
import ServerBoundary.Grammar.Expression
import ServerBoundary.Grammar.Function
import ServerBoundary.Grammar.Markup
import ServerBoundary.Grammar.Module
import ServerBoundary.Grammar.Pattern
import ServerBoundary.Grammar.Reader
import ServerBoundary.Grammar.Statement
import ServerBoundary.Grammar.Type
import ServerBoundary.Layout.Doc
import ServerBoundary.Layout.Expression
import ServerBoundary.Layout.Member
import ServerBoundary.Layout.Module
import ServerBoundary.Layout.Type
import ServerBoundary.Boundary.ClientModule
import ServerBoundary.Boundary.Directive
import ServerBoundary.Boundary.Error
import ServerBoundary.Boundary.ExportNames
import ServerBoundary.Boundary.Extraction
import ServerBoundary.Boundary.InPlace
import ServerBoundary.Boundary.Registration
import ServerBoundary.Boundary.ServerModule
import ServerBoundary.Boundary.ServerReference
import ServerBoundary.Boundary.Summary
import ServerBoundary.Boundary.Transform
import ServerBoundary.Bundler.Config
import ServerBoundary.Bundler.Path
import ServerBoundary.Bundler.Plugin
import ServerBoundary.Client.Codec
import ServerBoundary.Client.Config
import ServerBoundary.Client.Elements
import ServerBoundary.Client.Error
import ServerBoundary.Client.Exchange
import ServerBoundary.Client.Promise
import ServerBoundary.Client.RscPath
import ServerBoundary.Client.Scenario
import ServerBoundary.Client.Session
import ServerBoundary.Client.Store
import ServerBoundary.Proofs.Extraction.Traversal
import ServerBoundary.Proofs.Extraction.Replacement
import ServerBoundary.Proofs.Syntax.Path
import ServerBoundary.Proofs.Extraction.Arrival
import ServerBoundary.Proofs.Extraction.Capture
import ServerBoundary.Proofs.Syntax.Scope
import ServerBoundary.Proofs.ClientModule.Reachability
import ServerBoundary.Proofs.ClientModule.Retention
import ServerBoundary.Proofs.Extraction.ScopeSafety
import ServerBoundary.Proofs.References.Agreement
import ServerBoundary.Proofs.Client.Obtaining
import ServerBoundary.Proofs.Client.Run
import ServerBoundary.Proofs.Data.OrderedMap
import ServerBoundary.Proofs.Client.Overlay
import ServerBoundary.Proofs.Client.LiveTree
import ServerBoundary.Proofs.Client.Parking
import ServerBoundary.Proofs.Extraction.Census
import ServerBoundary.Proofs.Extraction.GeneratedNames
import ServerBoundary.Proofs.Extraction.Conservation
import ServerBoundary.Proofs.References.ServerForm
import ServerBoundary.Proofs.Json.Equality
import ServerBoundary.Proofs.Client.LiveEntry
import ServerBoundary.Proofs.Client.Prefetching
import ServerBoundary.Proofs.Client.ReturnValue
import ServerBoundary.Proofs.Client.Listeners
import ServerBoundary.Proofs.Client.RegisteredFunctions
import ServerBoundary.Proofs.Client.CallCourse
import ServerBoundary.Proofs.Client.ServerCalls
import ServerBoundary.Proofs.Extraction.Completeness
import ServerBoundary.Proofs.References.ChangeFlag
import ServerBoundary.Proofs.References.Idempotence
import ServerBoundary.Proofs.References.ModuleNames
import ServerBoundary.Proofs.ClientModule.TopLevel
import ServerBoundary.Proofs.ClientModule.ClientForm
import ServerBoundary.Proofs.ClientModule.EvaluationOrder
import ServerBoundary.Proofs.ClientModule.Bindings
import ServerBoundary.Proofs.Client.PathMarks
import ServerBoundary.Proofs.Client.RequestPath
import ServerBoundary.Proofs.Client.PathForms
import ServerBoundary.Proofs.References.ReferenceId
import ServerBoundary.Proofs.References.Stubs
import ServerBoundary.Proofs.References.Calls
import ServerBoundary.Proofs.Bundler.ModuleIds
import ServerBoundary.Proofs.Bundler.JoinedPath
import ServerBoundary.Proofs.Bundler.ResolvedSources
import ServerBoundary.Proofs.Json.Reading
import ServerBoundary.Proofs.Client.ReplyCodec
import ServerBoundary.Proofs.Client.Markers
import ServerBoundary.Proofs.Extraction.Exports
import ServerBoundary.Proofs.References.Exports
import ServerBoundary.Proofs.Grammar.Tokens
import ServerBoundary.Proofs.Grammar.Reading
import ServerBoundary.Proofs.Grammar.Type
import ServerBoundary.Proofs.Grammar.Pattern
import ServerBoundary.Proofs.Grammar.Function
import ServerBoundary.Proofs.Grammar.Expression
import ServerBoundary.Proofs.Grammar.Markup
import ServerBoundary.Proofs.Grammar.Statement
import ServerBoundary.Proofs.Grammar.Module
import ServerBoundary.Proofs.References.Shortcut
import ServerBoundary.Proofs.References.StubNames
import ServerBoundary.Proofs.Client.HotReload
import ServerBoundary.Proofs.Syntax.Hidden
import ServerBoundary.Proofs.Extraction.Necessity
import ServerBoundary.Proofs.Decimal.Rounding
import ServerBoundary.Proofs.Decimal.Shortest
import ServerBoundary.Proofs.Json.Text
import ServerBoundary.Proofs.Client.RequestIdentity
import ServerBoundary.Proofs.ClientModule.Marker
import ServerBoundary.Proofs.ClientModule.Atomicity
import ServerBoundary.Proofs.References.Signatures
import ServerBoundary.Proofs.Extraction.OuterNames
import ServerBoundary.Proofs.Extraction.Initialization
