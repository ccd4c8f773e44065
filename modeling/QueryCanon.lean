import QueryCanon.Unicode.Blank
import QueryCanon.Unicode.Letter
import QueryCanon.Unicode.Numeral
import QueryCanon.Keyword
import QueryCanon.Span
import QueryCanon.Token
import QueryCanon.Lexical.Gap
import QueryCanon.Lexical.Lexeme
import QueryCanon.Lexical.Lexer
import QueryCanon.Layout
import QueryCanon.Query.Basic
import QueryCanon.Query.Tokens
import QueryCanon.Query.Text
import QueryCanon.Grammar.Clause
import QueryCanon.Grammar.Expression
import QueryCanon.Grammar.Script
import QueryCanon.Session
import QueryCanon.Canonical
import QueryCanon.Json.Basic
import QueryCanon.Query.ToJson
import QueryCanon.Query.OfJson
import QueryCanon.Query.Equality
import QueryCanon.Command.Arguments
import QueryCanon.Command.Run
import QueryCanon.Files.Store
import QueryCanon.Main
import QueryCanon.Proofs.Query.Wrapped
import QueryCanon.Proofs.Query.Levels
import QueryCanon.Proofs.Query.Headroom
import QueryCanon.Proofs.Query.Shape
import QueryCanon.Proofs.Query.Height
import QueryCanon.Proofs.Query.Normal
import QueryCanon.Proofs.Query.Reread
import QueryCanon.Proofs.Grammar.Derivation
import QueryCanon.Proofs.Grammar.Balance
import QueryCanon.Proofs.Grammar.Leaf
import QueryCanon.Proofs.Grammar.Phrase
import QueryCanon.Proofs.Grammar.Soundness
import QueryCanon.Proofs.Grammar.Script
import QueryCanon.Proofs.Grammar.Completeness
import QueryCanon.Proofs.Grammar.Ambiguity
import QueryCanon.Proofs.Grammar.Congruence
import QueryCanon.Proofs.Grammar.Limit
import QueryCanon.Proofs.Grammar.Uncapped
import QueryCanon.Proofs.Grammar.Peak
import QueryCanon.Proofs.Grammar.Acceptance
import QueryCanon.Proofs.Grammar.Spelling
import QueryCanon.Proofs.Grammar.Canonical
import QueryCanon.Proofs.Grammar.Shape
import QueryCanon.Proofs.Grammar.Conservation
import QueryCanon.Proofs.Lexical.Gap
import QueryCanon.Proofs.Lexical.Slice
import QueryCanon.Proofs.Lexical.Layout
import QueryCanon.Proofs.Lexical.Tiling
import QueryCanon.Proofs.Lexical.Context
import QueryCanon.Proofs.Lexical.Relayout
import QueryCanon.Proofs.Lexical.Quotation
import QueryCanon.Proofs.Lexical.Failure
import QueryCanon.Proofs.Lexical.Spacing
import QueryCanon.Proofs.Grammar.Rereading
import QueryCanon.Proofs.Grammar.Failing
import QueryCanon.Proofs.Grammar.Viable
import QueryCanon.Proofs.Grammar.Prefix
import QueryCanon.Proofs.Grammar.Pairing
import QueryCanon.Proofs.Grammar.Completion
import QueryCanon.Proofs.Grammar.Breadth
import QueryCanon.Proofs.Parser.Cap
import QueryCanon.Proofs.Parser.Report
import QueryCanon.Proofs.Parser.Prefix
import QueryCanon.Proofs.Parser.Call
import QueryCanon.Proofs.Parser.Session
import QueryCanon.Proofs.Parser.Join
import QueryCanon.Proofs.Parser.Truth
import QueryCanon.Proofs.Grammar.Writable
import QueryCanon.Proofs.Grammar.Exchange
import QueryCanon.Proofs.Grammar.Negation
import QueryCanon.Proofs.Query.Text
import QueryCanon.Proofs.Canonical.Reparse
import QueryCanon.Proofs.Canonical.FixedPoint
import QueryCanon.Proofs.Canonical.Survival
import QueryCanon.Proofs.Canonical.Peak
import QueryCanon.Proofs.Canonical.Shape
import QueryCanon.Proofs.Canonical.Grouping
import QueryCanon.Proofs.Canonical.Relayout
import QueryCanon.Proofs.Canonical.Script
import QueryCanon.Proofs.Canonical.Single
import QueryCanon.Proofs.Canonical.Spacing
import QueryCanon.Proofs.Canonical.Height
import QueryCanon.Proofs.Canonical.Negation
import QueryCanon.Proofs.Files.Store
import QueryCanon.Proofs.Command.Process
import QueryCanon.Proofs.Command.Run
import QueryCanon.Proofs.Command.Arguments
import QueryCanon.Proofs.Command.Invocation
import QueryCanon.Proofs.Json.Reading
import QueryCanon.Proofs.Query.Decoding
import QueryCanon.Proofs.Command.Tree
