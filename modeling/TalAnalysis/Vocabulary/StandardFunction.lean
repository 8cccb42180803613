import TalAnalysis.Vocabulary.Lookup

namespace TalAnalysis

structure StandardFunction where
  name : String
  summary : String
deriving DecidableEq, Repr, Inhabited

namespace StandardFunction

def all : List StandardFunction :=
  [⟨"$ABS", "Absolute value of an expression."⟩,
    ⟨"$ALPHA", "Test whether a character is alphabetic."⟩,
    ⟨"$AXADR", "Absolute extended address of a variable."⟩,
    ⟨"$BITLENGTH", "Length in bits of a variable."⟩,
    ⟨"$BITOFFSET", "Bit offset of a structure item."⟩,
    ⟨"$CARRY", "State of the carry indicator."⟩,
    ⟨"$COMP", "One's complement of an INT expression."⟩,
    ⟨"$DBL", "Convert to INT(32)."⟩,
    ⟨"$DBLL", "Combine two INT values into an INT(32)."⟩,
    ⟨"$DBLR", "Convert to INT(32), rounding."⟩,
    ⟨"$DFIX", "Convert INT(32) to FIXED with a scale."⟩,
    ⟨"$EFLT", "Convert to REAL(64)."⟩,
    ⟨"$EFLTR", "Convert to REAL(64), rounding."⟩,
    ⟨"$EXTADDR", "Convert an address to EXTADDR."⟩,
    ⟨"$FIX", "Convert to FIXED."⟩,
    ⟨"$FIXD", "Convert FIXED to INT(32)."⟩,
    ⟨"$FIXI", "Convert FIXED to INT."⟩,
    ⟨"$FIXL", "Convert FIXED to unsigned INT."⟩,
    ⟨"$FIXR", "Convert to FIXED, rounding."⟩,
    ⟨"$FLT", "Convert to REAL."⟩,
    ⟨"$FLTR", "Convert to REAL, rounding."⟩,
    ⟨"$HIGH", "High-order word of an INT(32)."⟩,
    ⟨"$IFIX", "Convert INT to FIXED with a scale."⟩,
    ⟨"$INT", "Low-order word of an expression as INT."⟩,
    ⟨"$INTR", "Convert to INT, rounding."⟩,
    ⟨"$LADR", "Standard address of a variable."⟩,
    ⟨"$LEN", "Length in bytes of one occurrence of a variable."⟩,
    ⟨"$LFIX", "Convert unsigned INT to FIXED with a scale."⟩,
    ⟨"$LMAX", "Maximum of two unsigned values."⟩,
    ⟨"$LMIN", "Minimum of two unsigned values."⟩,
    ⟨"$MAX", "Maximum of two signed values."⟩,
    ⟨"$MIN", "Minimum of two signed values."⟩,
    ⟨"$NUMERIC", "Test whether a character is a digit."⟩,
    ⟨"$OCCURS", "Number of occurrences of an array or structure."⟩,
    ⟨"$OFFSET", "Byte offset of a structure item."⟩,
    ⟨"$OPTIONAL", "Pass an optional parameter conditionally."⟩,
    ⟨"$OVERFLOW", "State of the overflow indicator."⟩,
    ⟨"$PARAM", "Test whether an actual parameter was passed."⟩,
    ⟨"$POINT", "Fixed-point scale of an expression."⟩,
    ⟨"$READCLOCK", "Current processor time stamp."⟩,
    ⟨"$RP", "Current register stack pointer."⟩,
    ⟨"$SCALE", "Change the scale of a FIXED value."⟩,
    ⟨"$SPECIAL", "Test whether a character is a special character."⟩,
    ⟨"$TYPE", "Data type code of a variable."⟩,
    ⟨"$UDBL", "Convert unsigned INT to INT(32)."⟩,
    ⟨"$USERCODE", "Read a word from the user code segment."⟩,
    ⟨"$XADR", "Extended address of a variable."⟩]

def ofName? (word : String) : Option StandardFunction := findWord? all name word

theorem distinct : DistinctWords all name := by decide +kernel

theorem ofName?_eq_some_iff {word : String} {f : StandardFunction} :
    ofName? word = some f ↔ f ∈ all ∧ sameWord word f.name = true :=
  findWord?_eq_some_iff distinct

def isName (word : String) : Bool := (ofName? word).isSome

end StandardFunction
end TalAnalysis
