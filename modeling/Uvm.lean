import Uvm.Assembly
import Uvm.Bench
import Uvm.Code.Decoding
import Uvm.Code.Encoding
import Uvm.Command
import Uvm.Disk
import Uvm.Fault
import Uvm.HexDump
import Uvm.Json.Records
import Uvm.Json.Token
import Uvm.Json.Value
import Uvm.Labels
import Uvm.Line
import Uvm.Listing
import Uvm.Literal
import Uvm.Main
import Uvm.Op
import Uvm.Plan
import Uvm.Program
import Uvm.Proofs.Binding
import Uvm.Proofs.Blame
import Uvm.Proofs.Buffer
import Uvm.Proofs.Code
import Uvm.Proofs.CommandLine
import Uvm.Proofs.Concatenation
import Uvm.Proofs.Diagnosis
import Uvm.Proofs.Disassembly
import Uvm.Proofs.Emission
import Uvm.Proofs.Files
import Uvm.Proofs.Generation
import Uvm.Proofs.Grammar
import Uvm.Proofs.HexDump
import Uvm.Proofs.History
import Uvm.Proofs.Inversion
import Uvm.Proofs.LabelFree
import Uvm.Proofs.Language
import Uvm.Proofs.Layout
import Uvm.Proofs.Literal
import Uvm.Proofs.Meaning
import Uvm.Proofs.Numbering
import Uvm.Proofs.Numerals
import Uvm.Proofs.Overflow
import Uvm.Proofs.Reading
import Uvm.Proofs.Renaming
import Uvm.Proofs.Rendering
import Uvm.Proofs.Resolution
import Uvm.Proofs.Session
import Uvm.Proofs.Spelling
import Uvm.Proofs.Substitution
import Uvm.Proofs.Text
import Uvm.Proofs.Tiling
import Uvm.Proofs.Transcript
import Uvm.Proofs.Upper
import Uvm.Proofs.Usage
import Uvm.Proofs.Windows
import Uvm.Reference
import Uvm.Settings
import Uvm.Text.Basic
import Uvm.Text.Extender
import Uvm.Text.Hidden
import Uvm.Text.Layout
import Uvm.Text.Numeral
import Uvm.Text.Quoted
import Uvm.Text.Upper
import Uvm.Text.UpperTable
import Uvm.Tool.Arguments
import Uvm.Tool.Assembler
import Uvm.Tool.Disassembler
import Uvm.Tool.Report
import Uvm.Tool.Standard
import Uvm.Trace
import Uvm.Window
import Uvm.Proofs.Runs
