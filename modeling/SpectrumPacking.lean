import SpectrumPacking.Collection.SortedMap
import SpectrumPacking.Collection.SortedSet
import SpectrumPacking.Command.Arguments
import SpectrumPacking.Command.Run
import SpectrumPacking.Dataset.Basic
import SpectrumPacking.Dataset.Text
import SpectrumPacking.Decimal
import SpectrumPacking.Digest.Sha1
import SpectrumPacking.Duration
import SpectrumPacking.Encoding.CnfDirectory
import SpectrumPacking.Encoding.Decode
import SpectrumPacking.Encoding.Encode
import SpectrumPacking.Files.Path
import SpectrumPacking.Files.Store
import SpectrumPacking.Formula.Cnf
import SpectrumPacking.Json.Reader
import SpectrumPacking.Json.Value
import SpectrumPacking.Main
import SpectrumPacking.Packing.Interference
import SpectrumPacking.Packing.Problem
import SpectrumPacking.Proofs.Dataset.Listings
import SpectrumPacking.Proofs.Encoding.Acceptance
import SpectrumPacking.Proofs.Encoding.Census
import SpectrumPacking.Proofs.Encoding.Decoding
import SpectrumPacking.Proofs.Encoding.Directories
import SpectrumPacking.Proofs.Encoding.Models
import SpectrumPacking.Proofs.Encoding.Numberings
import SpectrumPacking.Proofs.Encoding.Reports
import SpectrumPacking.Proofs.Encoding.Texts
import SpectrumPacking.Proofs.Files.Retries
import SpectrumPacking.Proofs.Files.Stores
import SpectrumPacking.Proofs.Files.Tasks
import SpectrumPacking.Proofs.Formula.Headers
import SpectrumPacking.Proofs.Formula.Layouts
import SpectrumPacking.Proofs.Formula.Signings
import SpectrumPacking.Proofs.Formula.Texts
import SpectrumPacking.Proofs.Packing.Buckets
import SpectrumPacking.Proofs.Packing.Conflicts
import SpectrumPacking.Proofs.Packing.Extensions
import SpectrumPacking.Proofs.Packing.Packings
import SpectrumPacking.Proofs.Packing.SubProblems
import SpectrumPacking.Proofs.Question.Entries
import SpectrumPacking.Proofs.Search.Calls
import SpectrumPacking.Proofs.Search.Crashes
import SpectrumPacking.Proofs.Search.Delivery
import SpectrumPacking.Proofs.Search.Exchange
import SpectrumPacking.Proofs.Search.Interrupts
import SpectrumPacking.Proofs.Search.Loops
import SpectrumPacking.Proofs.Search.Sessions
import SpectrumPacking.Proofs.Search.Settling
import SpectrumPacking.Proofs.Search.Shutdown
import SpectrumPacking.Proofs.Search.Signals
import SpectrumPacking.Proofs.Search.Stops
import SpectrumPacking.Proofs.Service.Batches
import SpectrumPacking.Proofs.Service.Bundles
import SpectrumPacking.Proofs.Service.Cutoffs
import SpectrumPacking.Proofs.Service.Extractions
import SpectrumPacking.Proofs.Service.Histories
import SpectrumPacking.Proofs.Service.Interruption
import SpectrumPacking.Proofs.Service.Managers
import SpectrumPacking.Proofs.Service.Questions
import SpectrumPacking.Proofs.Service.Requests
import SpectrumPacking.Proofs.Service.Verdicts
import SpectrumPacking.Proofs.Solve.Books
import SpectrumPacking.Proofs.Solve.Checks
import SpectrumPacking.Proofs.Solve.Conclusions
import SpectrumPacking.Proofs.Solve.Deciders
import SpectrumPacking.Proofs.Solve.Groupings
import SpectrumPacking.Proofs.Solve.Limits
import SpectrumPacking.Proofs.Solve.Neighborhoods
import SpectrumPacking.Proofs.Solve.Pipelines
import SpectrumPacking.Proofs.Solve.Programs
import SpectrumPacking.Proofs.Solve.Repacking
import SpectrumPacking.Proofs.Solve.Soundness
import SpectrumPacking.Proofs.Solve.UnsatCaches
import SpectrumPacking.Proofs.Solve.Worlds
import SpectrumPacking.Proofs.Text.Layouts
import SpectrumPacking.Proofs.Text.Numerals
import SpectrumPacking.Proofs.Text.Words
import SpectrumPacking.Question.Basic
import SpectrumPacking.Report.Outcome
import SpectrumPacking.Search.Complete
import SpectrumPacking.Search.Driver
import SpectrumPacking.Search.Engine
import SpectrumPacking.Search.Script
import SpectrumPacking.Search.Session
import SpectrumPacking.Service.Bundle
import SpectrumPacking.Service.Extraction
import SpectrumPacking.Service.Manager
import SpectrumPacking.Service.Request
import SpectrumPacking.Settings.Basic
import SpectrumPacking.Settings.File
import SpectrumPacking.Solve.Neighborhood
import SpectrumPacking.Solve.Pipeline
import SpectrumPacking.Solve.Result
import SpectrumPacking.Solve.Solver
import SpectrumPacking.Solve.World
import SpectrumPacking.Text.Numeral
import SpectrumPacking.Text.Pieces
import SpectrumPacking.Yaml.Lexer
import SpectrumPacking.Yaml.Printer
import SpectrumPacking.Yaml.Reader
import SpectrumPacking.Yaml.Scalar
import SpectrumPacking.Yaml.Token
import SpectrumPacking.Yaml.Value
