import LongFunctions.Text
import LongFunctions.FunctionHead
import LongFunctions.Definition
import LongFunctions.Summary
import LongFunctions.Json
import LongFunctions.Path
import LongFunctions.FileSystem
import LongFunctions.Listing
import LongFunctions.Survey
import LongFunctions.Arguments
import LongFunctions.Command
import LongFunctions.Main
import LongFunctions.Proofs.Definition.Reading
import LongFunctions.Proofs.Definition.Search
import LongFunctions.Proofs.Definition.Written
import LongFunctions.Proofs.Text.Runs
import LongFunctions.Proofs.FunctionHead.Reading
import LongFunctions.Proofs.Path.Text
import LongFunctions.Proofs.Path.Extension
import LongFunctions.Proofs.FileSystem.Trees
import LongFunctions.Proofs.FileSystem.Walks
import LongFunctions.Proofs.FileSystem.Paths
import LongFunctions.Proofs.FileSystem.Removal
import LongFunctions.Proofs.Listing
import LongFunctions.Proofs.Survey
import LongFunctions.Proofs.Summary.Ranking
import LongFunctions.Proofs.Summary.Selection
import LongFunctions.Proofs.Summary.Merging
import LongFunctions.Proofs.Summary.Reordering
import LongFunctions.Proofs.Ranking
import LongFunctions.Proofs.Undecodable
import LongFunctions.Proofs.Location
import LongFunctions.Proofs.Text.Lines
import LongFunctions.Proofs.Text.Breaks
import LongFunctions.Proofs.Definition.Layout
import LongFunctions.Proofs.Definition.Spans
import LongFunctions.Proofs.Definition.Insertion
import LongFunctions.Proofs.Definition.Parts
import LongFunctions.Proofs.Summary.Text
import LongFunctions.Proofs.FileSystem.Growth
import LongFunctions.Proofs.Growth
import LongFunctions.Proofs.Json.Document
import LongFunctions.Proofs.Json.Pretty
import LongFunctions.Proofs.Summary.Json
import LongFunctions.Proofs.Summary.Agreement
import LongFunctions.Proofs.Arguments
import LongFunctions.Proofs.Path.Normal
import LongFunctions.Proofs.Definition.Bounds
import LongFunctions.Proofs.Definition.Words
