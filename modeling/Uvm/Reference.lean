import Uvm.Assembly

/-! Reference encodings that every assembler has to reproduce, and a sample program made of
them. -/
namespace Uvm.Reference

def vectors : List (Text × List UInt8) :=
  [("LOAD 553", [0xCA, 0x29, 0x02, 0x00]), ("READ 268", [0x9C, 0x0C, 0x01]),
    ("WRITE 617", [0x5D, 0x69, 0x02, 0x00]), ("SUB 455", [0xAF, 0xC7, 0x01, 0x00])]

def sampleLines : List Text :=
  ["; UVM sample program",
    "; Each instruction is followed by the bytes it must assemble to.",
    "",
    "LOAD 553      ; 0xCA 0x29 0x02 0x00",
    "READ 268      ; 0x9C 0x0C 0x01",
    "WRITE 617     ; 0x5D 0x69 0x02 0x00",
    "SUB 455       ; 0xAF 0xC7 0x01 0x00",
    "",
    "; Same values in hex",
    "LOAD 0x229    ; 553",
    "READ 0x10C    ; 268",
    "WRITE 0x269   ; 617",
    "SUB 0x1C7     ; 455"]

def sample : Text := Text.unlines sampleLines

structure Check where
  source : Text
  expected : List UInt8
  actual : Except Fault (List UInt8)

def Check.passed (check : Check) : Bool :=
  match check.actual with
  | .ok bytes => bytes == check.expected
  | .error _ => false

/-- The reference sources under some settings. -/
def check (settings : Settings) : List Check :=
  vectors.map fun (source, expected) =>
    ⟨source, expected, (assemble settings source).map (·.bytes)⟩

end Uvm.Reference
