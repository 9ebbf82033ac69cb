import EntityBroker.Access
import EntityBroker.Batch
import EntityBroker.Boundary.Call
import EntityBroker.Boundary.Custody
import EntityBroker.Boundary.Dictionary
import EntityBroker.Boundary.Handles
import EntityBroker.Boundary.HostCalls
import EntityBroker.Boundary.Suite
import EntityBroker.Boundary.View
import EntityBroker.Broker
import EntityBroker.Capability
import EntityBroker.CommandLine.Command
import EntityBroker.CommandLine.Run
import EntityBroker.CommandLine.Space
import EntityBroker.Config
import EntityBroker.Dict
import EntityBroker.Double.Basic
import EntityBroker.Double.Decimal
import EntityBroker.Double.Shortest
import EntityBroker.ElementError
import EntityBroker.EntityReference
import EntityBroker.Error
import EntityBroker.FileTree
import EntityBroker.Journal
import EntityBroker.Json
import EntityBroker.Logger
import EntityBroker.Manager
import EntityBroker.Numeral
import EntityBroker.Policy
import EntityBroker.Program.Arguments.Command
import EntityBroker.Program.Arguments.Grammar
import EntityBroker.Program.Arguments.Terminal
import EntityBroker.Program.Libraries
import EntityBroker.Program.Main
import EntityBroker.Program.Printer
import EntityBroker.Program.Toml.Document
import EntityBroker.Program.Toml.Line
import EntityBroker.Program.Toml.Moment
import EntityBroker.Program.Toml.Number
import EntityBroker.Program.Toml.Section
import EntityBroker.Program.Toml.Statement
import EntityBroker.Program.Toml.Text
import EntityBroker.Program.Trace.Filter
import EntityBroker.Program.Trace.Letter
import EntityBroker.Program.Trace.Line
import EntityBroker.Program.Trace.Pattern
import EntityBroker.Program.Trace.Pattern.Atom
import EntityBroker.Program.Trace.Pattern.CharacterClass
import EntityBroker.Program.Trace.Pattern.Flags
import EntityBroker.Program.Trace.Pattern.Opening
import EntityBroker.Program.Trace.Pattern.Row
import EntityBroker.Proofs.Batch.Collect
import EntityBroker.Proofs.Batch.Interleaving
import EntityBroker.Proofs.Boundary.Crossing
import EntityBroker.Proofs.Boundary.Custody
import EntityBroker.Proofs.Boundary.Dictionary
import EntityBroker.Proofs.Boundary.Filled
import EntityBroker.Proofs.Boundary.Foreign
import EntityBroker.Proofs.Boundary.Guarded
import EntityBroker.Proofs.Boundary.Handles
import EntityBroker.Proofs.Boundary.Repeated
import EntityBroker.Proofs.Broker.Discipline
import EntityBroker.Proofs.Broker.Escalation
import EntityBroker.Proofs.Broker.Single
import EntityBroker.Proofs.Broker.Workers
import EntityBroker.Proofs.CommandLine.Resolve
import EntityBroker.Proofs.Config.Expansion
import EntityBroker.Proofs.Config.Loading
import EntityBroker.Proofs.Double.Overflow
import EntityBroker.Proofs.Double.Written
import EntityBroker.Proofs.Json.Line
import EntityBroker.Proofs.Logger.Chain
import EntityBroker.Proofs.Logger.Handover
import EntityBroker.Proofs.Manager.Run
import EntityBroker.Proofs.TableManager.Contract
import EntityBroker.Proofs.TableManager.Derived
import EntityBroker.Proofs.TableManager.Effect
import EntityBroker.Proofs.TableManager.Gate
import EntityBroker.Proofs.TableManager.History
import EntityBroker.Proofs.TableManager.Merged
import EntityBroker.Proofs.TableManager.Names
import EntityBroker.Proofs.TableManager.Placed
import EntityBroker.Proofs.TableManager.Policies
import EntityBroker.Proofs.TableManager.Publishing
import EntityBroker.Proofs.TableManager.Queries
import EntityBroker.Proofs.TableManager.Refusal
import EntityBroker.Proofs.TableManager.Registered
import EntityBroker.Proofs.TableManager.Replay
import EntityBroker.Proofs.TableManager.Resolution
import EntityBroker.Proofs.TableManager.Rows
import EntityBroker.Proofs.TableManager.Settings
import EntityBroker.Proofs.TableManager.Table
import EntityBroker.Proofs.TableManager.Typing
import EntityBroker.Proofs.TableManager.Writes
import EntityBroker.Proofs.TableManager.Written
import EntityBroker.Proofs.TraitsData.Document
import EntityBroker.Proofs.TraitsData.History
import EntityBroker.Proofs.TraitsData.Same
import EntityBroker.Proofs.Utf8.Character
import EntityBroker.Proofs.Utf8.Cut
import EntityBroker.Proofs.Utf8.Decode
import EntityBroker.Proofs.Utf8.Front
import EntityBroker.Proofs.Utf8.Spelling
import EntityBroker.Registry
import EntityBroker.Request
import EntityBroker.Session
import EntityBroker.Severity
import EntityBroker.TableManager
import EntityBroker.TableManager.Cell
import EntityBroker.TableManager.Store
import EntityBroker.Trace
import EntityBroker.TraitsData
import EntityBroker.Utf8
import EntityBroker.Value
