import TextTemplate.Main
import TextTemplate.Template.Operation
import TextTemplate.Proofs.Contribution
import TextTemplate.Proofs.Expansion
import TextTemplate.Proofs.Closed
import TextTemplate.Proofs.Concatenation
import TextTemplate.Proofs.Site
import TextTemplate.Proofs.Failure
import TextTemplate.Proofs.Numeral
import TextTemplate.Proofs.Printing
import TextTemplate.Proofs.Radix
import TextTemplate.Proofs.History
import TextTemplate.Proofs.Marking
import TextTemplate.Proofs.Rounding
import TextTemplate.Proofs.Fraction
import TextTemplate.Proofs.General
import TextTemplate.Proofs.Fixed
import TextTemplate.Proofs.Addressing
import TextTemplate.Proofs.CommandLine
import TextTemplate.Proofs.NegativeNumber
import TextTemplate.Proofs.Run
import TextTemplate.Proofs.Representable
import TextTemplate.Proofs.Toml.Quoted
import TextTemplate.Proofs.Toml.Word
import TextTemplate.Proofs.Toml.Literal
import TextTemplate.Proofs.Toml.Document
import TextTemplate.Proofs.ArgumentFile
import TextTemplate.Proofs.Grammar
import TextTemplate.Proofs.Precision
import TextTemplate.Proofs.Alignment
import TextTemplate.Proofs.Nearest
import TextTemplate.Proofs.Scientific
import TextTemplate.Proofs.Overflow
import TextTemplate.Proofs.Literal
import TextTemplate.Proofs.Inference
import TextTemplate.Proofs.ReadBack
import TextTemplate.Proofs.Monotone
import TextTemplate.Proofs.Order
import TextTemplate.Proofs.Stability
import TextTemplate.Proofs.Recovery
import TextTemplate.Proofs.Toml.Keys
import TextTemplate.Proofs.Toml.Whole
import TextTemplate.Proofs.Acceptance
import TextTemplate.Proofs.Tiling
import TextTemplate.Proofs.NonFinite
import TextTemplate.Proofs.Underline
import TextTemplate.Proofs.Drawing
