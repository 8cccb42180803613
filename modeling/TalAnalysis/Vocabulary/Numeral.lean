import TalAnalysis.Text.Character

namespace TalAnalysis

inductive NumeralBase
  | decimal | octal | binary | hex
deriving DecidableEq, Repr, Inhabited

inductive NumeralSize
  | int32 | fixed
deriving DecidableEq, Repr, Inhabited

namespace NumeralBase

def radix : NumeralBase → Nat
  | .decimal => 10
  | .octal => 8
  | .binary => 2
  | .hex => 16

def isDigit (b : NumeralBase) (c : Char) : Bool := Text.isDigitIn b.radix c

def marks : List (String × NumeralBase) :=
  [("%B", .binary), ("%H", .hex), ("%D", .decimal), ("%", .octal)]

def marked? (text : List Char) : Option (String × NumeralBase) :=
  marks.find? fun (mark, base) =>
    Text.opensWith text mark.toList && ((text.drop mark.length).head?.map base.isDigit).getD false

end NumeralBase

namespace NumeralSize

def marks : List (String × NumeralSize) :=
  [("%D", .int32), ("%F", .fixed), ("D", .int32), ("F", .fixed)]

/-- A mark can follow the digits of the base, because it is not made of such digits. -/
def isMarkIn (base : NumeralBase) (mark : String) : Bool :=
  base != .hex || mark.toList.head? == some '%'

def marked? (base : NumeralBase) (text : List Char) : Option (String × NumeralSize) :=
  marks.find? fun (mark, _) =>
    isMarkIn base mark && Text.opensWith text mark.toList &&
      !((text.drop mark.length).head?.map Text.continuesName).getD false

end NumeralSize
end TalAnalysis
