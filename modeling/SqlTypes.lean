import SqlTypes.DataType.Spelling
import SqlTypes.Grammar
import SqlTypes.Session
import SqlTypes.Proofs.Passing
import SqlTypes.Proofs.AtomReading
import SqlTypes.Proofs.IntervalReading
import SqlTypes.Proofs.PhraseReading
import SqlTypes.Proofs.PhraseOutcome
import SqlTypes.Proofs.Meaning
import SqlTypes.Proofs.Acceptance
import SqlTypes.Proofs.Nullability
import SqlTypes.Proofs.Layout
import SqlTypes.Proofs.Canonical
import SqlTypes.Proofs.Validity
import SqlTypes.Proofs.RoundTrip
import SqlTypes.Proofs.Nesting
import SqlTypes.Proofs.TokenText
import SqlTypes.Proofs.Pieces
import SqlTypes.Proofs.Composition
import SqlTypes.Proofs.Failures
import SqlTypes.Proofs.Cutting
import SqlTypes.Proofs.Relayout
import SqlTypes.Proofs.MemberNames
import SqlTypes.Proofs.InHand
import SqlTypes.Proofs.Lookahead
import SqlTypes.Proofs.Agreement
import SqlTypes.Proofs.Truncation
import SqlTypes.Proofs.Beginnings
import SqlTypes.Proofs.Viability
import SqlTypes.Proofs.SyntaxErrors
import SqlTypes.Proofs.PhraseAtoms
import SqlTypes.Proofs.Concatenation
import SqlTypes.Proofs.Assembly
import SqlTypes.Proofs.SideBySide
import SqlTypes.Proofs.Containment
import SqlTypes.Proofs.Resuming
import SqlTypes.Proofs.Keeping
import SqlTypes.Proofs.Completing
import SqlTypes.Proofs.Calls
import SqlTypes.Proofs.Registrations
import SqlTypes.Proofs.Counting
import SqlTypes.Proofs.Places
import SqlTypes.Proofs.Following
import SqlTypes.Proofs.Summary
import SqlTypes.Proofs.Quoting
import SqlTypes.Proofs.LimitsJson
import SqlTypes.Proofs.ByteOrder
import SqlTypes.Proofs.Refusals
import SqlTypes.Proofs.NamedMembers
import SqlTypes.Proofs.IntegerParameters
import SqlTypes.Proofs.Recursion
import SqlTypes.Proofs.Progress
