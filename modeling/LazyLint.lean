import LazyLint.Main
import LazyLint.Provider
import LazyLint.Proofs.Lowering
import LazyLint.Proofs.Preorder
import LazyLint.Proofs.Schema
import LazyLint.Proofs.Shape
import LazyLint.Proofs.Sites
import LazyLint.Proofs.Classification
import LazyLint.Proofs.Sessions
import LazyLint.Proofs.Goals
import LazyLint.Proofs.Batches
import LazyLint.Proofs.Escapes
import LazyLint.Proofs.Faults
import LazyLint.Proofs.Isolation
import LazyLint.Proofs.Reading
import LazyLint.Proofs.Grammar
import LazyLint.Proofs.Sources
import LazyLint.Proofs.Returns
import LazyLint.Proofs.Writing
import LazyLint.Proofs.Encodable
import LazyLint.Proofs.Delivery
import LazyLint.Proofs.Names
import LazyLint.Proofs.Configuration
import LazyLint.Proofs.Conformance
import LazyLint.Proofs.ExitCode
import LazyLint.Proofs.Stack
import LazyLint.Proofs.Interruption
import LazyLint.Proofs.Segments
import LazyLint.Proofs.Widening
import LazyLint.Proofs.Lookup
import LazyLint.Proofs.Scripts
import LazyLint.Proofs.Collecting
import LazyLint.Proofs.Naming
import LazyLint.Proofs.Labels
import LazyLint.Proofs.Keys
import LazyLint.Proofs.Pieces
import LazyLint.Proofs.Spellings
import LazyLint.Proofs.Comments
import LazyLint.Proofs.Outline
import LazyLint.Proofs.Errors
import LazyLint.Proofs.Truncation
import LazyLint.Proofs.Grouping
import LazyLint.Proofs.Severities
