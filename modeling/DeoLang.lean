import DeoLang.Log
import DeoLang.Program.Visit
import DeoLang.Proofs.Image.Run
import DeoLang.Proofs.Image.Decode
import DeoLang.Proofs.Grammar.Tree
import DeoLang.Proofs.Token.Partition
import DeoLang.Proofs.Token.Passage
import DeoLang.Proofs.Session.Move
import DeoLang.Proofs.Session.Reading
import DeoLang.Proofs.Session.Parse
import DeoLang.Proofs.Outcome
import DeoLang.Proofs.Program.RoundTrip
import DeoLang.Proofs.Session.Cascade
import DeoLang.Proofs.Token.Longest
import DeoLang.Proofs.Grammar.Place
import DeoLang.Proofs.Session.FirstError
import DeoLang.Proofs.Token.Shift
import DeoLang.Proofs.Session.InStep
import DeoLang.Proofs.Session.Isolation
import DeoLang.Proofs.Session.Events
import DeoLang.Proofs.Session.Consumption
import DeoLang.Proofs.Session.Operation
import DeoLang.Proofs.Image.Listing
import DeoLang.Proofs.Machine.Readback
import DeoLang.Proofs.Program.Levels
import DeoLang.Proofs.Program.Review
import DeoLang.Proofs.Token.Joined
import DeoLang.Proofs.Session.Behind
import DeoLang.Proofs.Session.Literal
import DeoLang.Proofs.Session.Contract
import DeoLang.Proofs.Session.Lines
import DeoLang.Proofs.Layout
import DeoLang.Proofs.Program.Division
import DeoLang.Proofs.Token.Delivery
import DeoLang.Proofs.Token.Numeral
import DeoLang.Proofs.Machine.Stepping
import DeoLang.Proofs.Program.Unambiguous
import DeoLang.Proofs.Image.Compose
import DeoLang.Proofs.Session.Values
import DeoLang.Proofs.Program.Modular
import DeoLang.Proofs.Program.Traversal
import DeoLang.Proofs.Report
