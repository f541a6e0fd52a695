import Colloquy.Act
import Colloquy.Ask
import Colloquy.Backend.Basic
import Colloquy.Backend.Connection
import Colloquy.Backend.Dialect.Anthropic
import Colloquy.Backend.Dialect.Basic
import Colloquy.Backend.Dialect.ChatCompletions
import Colloquy.Backend.Dialect.Ollama
import Colloquy.Backend.Dialect.Responses
import Colloquy.Backend.Exchange
import Colloquy.Backend.Format
import Colloquy.Backend.Headers
import Colloquy.Backend.Kind
import Colloquy.Backend.Media
import Colloquy.Backend.Reply
import Colloquy.Backend.Selection
import Colloquy.Completion
import Colloquy.Conversation
import Colloquy.Digest.Base64
import Colloquy.Digest.Sha256
import Colloquy.Directive.File
import Colloquy.Directive.Filter
import Colloquy.Directive.Import
import Colloquy.Directive.Resolver
import Colloquy.Directive.Task
import Colloquy.Directive.ToolRegistration
import Colloquy.Duration
import Colloquy.Environment
import Colloquy.Error
import Colloquy.File.Path
import Colloquy.File.Reading
import Colloquy.File.Tree
import Colloquy.FileSearch
import Colloquy.Held
import Colloquy.Json.Basic
import Colloquy.Json.Numeral
import Colloquy.Json.Parser
import Colloquy.Json.Printer
import Colloquy.Json.Record
import Colloquy.Markup.Line
import Colloquy.Markup.Printer
import Colloquy.Markup.Scan
import Colloquy.Message
import Colloquy.Number.Binary64
import Colloquy.Number.Power
import Colloquy.Number.Reading
import Colloquy.Number.Shortest
import Colloquy.Proofs.Act
import Colloquy.Proofs.Ask.Cleared
import Colloquy.Proofs.Ask.Conversational
import Colloquy.Proofs.Ask.Course
import Colloquy.Proofs.Backend.Calls
import Colloquy.Proofs.Backend.Classification
import Colloquy.Proofs.Backend.Connection
import Colloquy.Proofs.Backend.Format
import Colloquy.Proofs.Backend.Parameters
import Colloquy.Proofs.Backend.Replies
import Colloquy.Proofs.Backend.Texts
import Colloquy.Proofs.Backend.Wire
import Colloquy.Proofs.Directive.Cycle
import Colloquy.Proofs.Directive.Expansion
import Colloquy.Proofs.Directive.Filter
import Colloquy.Proofs.Directive.Handles
import Colloquy.Proofs.Directive.Idempotence
import Colloquy.Proofs.Directive.Passes
import Colloquy.Proofs.Directive.Settled
import Colloquy.Proofs.Directive.Substitution
import Colloquy.Proofs.Directive.ToolRegistration
import Colloquy.Proofs.Held
import Colloquy.Proofs.Json.Fields
import Colloquy.Proofs.Json.Length
import Colloquy.Proofs.Json.Line
import Colloquy.Proofs.Json.Numeral
import Colloquy.Proofs.Json.Quoted
import Colloquy.Proofs.Json.RoundTrip
import Colloquy.Proofs.Markup.Block
import Colloquy.Proofs.Markup.Brackets
import Colloquy.Proofs.Markup.Conservation
import Colloquy.Proofs.Markup.Content
import Colloquy.Proofs.Markup.Cutting
import Colloquy.Proofs.Markup.Depth
import Colloquy.Proofs.Markup.Effect
import Colloquy.Proofs.Markup.Element
import Colloquy.Proofs.Markup.Enclosed
import Colloquy.Proofs.Markup.Ending
import Colloquy.Proofs.Markup.Exchange
import Colloquy.Proofs.Markup.Flow
import Colloquy.Proofs.Markup.Header
import Colloquy.Proofs.Markup.Line
import Colloquy.Proofs.Markup.Messages
import Colloquy.Proofs.Markup.Opening
import Colloquy.Proofs.Markup.Printer
import Colloquy.Proofs.Markup.RoundTrip
import Colloquy.Proofs.Number.Bounds
import Colloquy.Proofs.Retry
import Colloquy.Proofs.Retry.Attempts
import Colloquy.Proofs.Retry.Backoff
import Colloquy.Proofs.Run.Account
import Colloquy.Proofs.Run.Answers
import Colloquy.Proofs.Run.Content
import Colloquy.Proofs.Run.Context
import Colloquy.Proofs.Run.Execution
import Colloquy.Proofs.Run.History
import Colloquy.Proofs.Run.Increments
import Colloquy.Proofs.Run.Markers
import Colloquy.Proofs.Run.Rehearsal
import Colloquy.Proofs.Run.Resending
import Colloquy.Proofs.Run.Resuming
import Colloquy.Proofs.Run.Retries
import Colloquy.Proofs.Run.Standing
import Colloquy.Proofs.Run.Transcript
import Colloquy.Proofs.Run.Wire
import Colloquy.Proofs.RunOptions.Extraction
import Colloquy.Proofs.RunOptions.Lookup
import Colloquy.Proofs.RunOptions.Markers
import Colloquy.Proofs.RunOptions.Partition
import Colloquy.Proofs.RunOptions.Scoping
import Colloquy.Proofs.Settings
import Colloquy.Proofs.Settings.Server
import Colloquy.Proofs.Text.Cut
import Colloquy.Proofs.Text.Lines
import Colloquy.Proofs.Text.Trim
import Colloquy.Proofs.Text.Words
import Colloquy.Proofs.Tool.Answering
import Colloquy.Proofs.Tool.Catalogue
import Colloquy.Proofs.Tool.KnowledgeBase
import Colloquy.Proofs.Tool.Portable
import Colloquy.Proofs.Tool.Reading
import Colloquy.Proofs.Tool.TaskLine
import Colloquy.Proofs.Tool.Workflow
import Colloquy.Rehearsal.Backend
import Colloquy.Rehearsal.Engine
import Colloquy.Rehearsal.Knowledge
import Colloquy.Rehearsal.Script
import Colloquy.Rehearsal.Server
import Colloquy.Rehearsal.Stage
import Colloquy.Retry
import Colloquy.Role
import Colloquy.Run
import Colloquy.RunOptions
import Colloquy.RunOptions.Extraction
import Colloquy.Settings
import Colloquy.Text.Blank
import Colloquy.Text.Cut
import Colloquy.Text.Letter
import Colloquy.Text.Lines
import Colloquy.Text.Word
import Colloquy.Text.Words
import Colloquy.Tool.Arguments
import Colloquy.Tool.Catalogue
import Colloquy.Tool.Definition
import Colloquy.Tool.Dispatch
import Colloquy.Tool.KnowledgeBase
import Colloquy.Tool.Parameters
import Colloquy.Tool.Remote
import Colloquy.Tool.Workflow
import Colloquy.ToolCall
