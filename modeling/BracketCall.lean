import BracketCall.Assignment
import BracketCall.Bindings
import BracketCall.CommandLine
import BracketCall.CommandLine.Switch
import BracketCall.Diagnostic
import BracketCall.Dictionary
import BracketCall.Document.Json
import BracketCall.Document.Yaml
import BracketCall.Document.Yaml.Node
import BracketCall.Document.Yaml.Scalar
import BracketCall.Document.Yaml.Token
import BracketCall.Evaluation
import BracketCall.Fault
import BracketCall.Files
import BracketCall.HostError
import BracketCall.Main
import BracketCall.Natives
import BracketCall.Number.Double
import BracketCall.Number.LooseNumeral
import BracketCall.Number.Numeral
import BracketCall.Number.Shortest
import BracketCall.Proofs.AssignedValues
import BracketCall.Proofs.BindingTime
import BracketCall.Proofs.Coercion
import BracketCall.Proofs.CommandEnd
import BracketCall.Proofs.Concatenation
import BracketCall.Proofs.Consumption
import BracketCall.Proofs.Descent
import BracketCall.Proofs.EarliestFault
import BracketCall.Proofs.EndlessRuns
import BracketCall.Proofs.FieldChecks
import BracketCall.Proofs.Footprint
import BracketCall.Proofs.Grammar
import BracketCall.Proofs.IntegerTexts
import BracketCall.Proofs.KindSoundness
import BracketCall.Proofs.Lexing
import BracketCall.Proofs.LiteralPass
import BracketCall.Proofs.LockStep
import BracketCall.Proofs.NestedSums
import BracketCall.Proofs.NumeralForms
import BracketCall.Proofs.Outline
import BracketCall.Proofs.Precedence
import BracketCall.Proofs.ProgramRun
import BracketCall.Proofs.Quotation
import BracketCall.Proofs.ReaderAgreement
import BracketCall.Proofs.Reading
import BracketCall.Proofs.Refusals
import BracketCall.Proofs.RegistrationLog
import BracketCall.Proofs.Registrations
import BracketCall.Proofs.Respacing
import BracketCall.Proofs.Segmentation
import BracketCall.Proofs.Sequencing
import BracketCall.Proofs.SourceImage
import BracketCall.Proofs.SourceLiterals
import BracketCall.Proofs.Spelling
import BracketCall.Proofs.Streaming
import BracketCall.Proofs.TokenListing
import BracketCall.Proofs.Truncation
import BracketCall.Proofs.Utf8Texts
import BracketCall.Proofs.Walk
import BracketCall.Run
import BracketCall.Session
import BracketCall.Settings
import BracketCall.Settings.File
import BracketCall.Text.Blank
import BracketCall.Text.CodePoint
import BracketCall.Text.DecimalDigit
import BracketCall.Text.LetterOrDigit
import BracketCall.Text.Printable
import BracketCall.Text.Quoted
import BracketCall.Text.Ranges
import BracketCall.Text.UpperCase
import BracketCall.Text.Utf8
import BracketCall.Token
import BracketCall.Token.Lexer
import BracketCall.Token.Literal
import BracketCall.Tree
import BracketCall.Tree.Parser
import BracketCall.Tree.Printer
import BracketCall.Value
import BracketCall.Value.Dynamic
import BracketCall.Value.Kind
