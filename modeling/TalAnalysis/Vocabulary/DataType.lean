import TalAnalysis.Vocabulary.Keyword

namespace TalAnalysis

inductive DataType
  | string | int | unsigned | fixed | real | extAddr | sgAddr | sgbAddr | sgwAddr | bAddr | wAddr
  | cbAddr | cwAddr | procAddr
deriving DecidableEq, Repr, Inhabited

namespace DataType

/-- What is known of a data type. `bits` is the width of a value without a qualifier, and
`takesQualifier` says that a qualifier in parentheses, as in `INT(32)`, may change it. -/
structure Details where
  keyword : Keyword
  spelling : String
  bits : Nat
  takesQualifier : Bool
  dialect : Dialect
  description : String

def details : DataType → Details
  | .string => ⟨.string, "STRING", 8, false, .tal, "Byte (character) data."⟩
  | .int => ⟨.int, "INT", 16, true, .tal, "Signed integer; INT(32) and INT(64) widen it."⟩
  | .unsigned => ⟨.unsigned, "UNSIGNED", 16, true, .tal, "Unsigned bit field of 1-31 bits."⟩
  | .fixed => ⟨.fixed, "FIXED", 64, true, .tal, "64-bit scaled fixed-point value."⟩
  | .real => ⟨.real, "REAL", 32, true, .tal, "Floating point; REAL(64) is double precision."⟩
  | .extAddr => ⟨.extAddr, "EXTADDR", 32, false, .pTal, "Extended (32-bit) byte address."⟩
  | .sgAddr => ⟨.sgAddr, "SGADDR", 16, false, .pTal, "System-global address."⟩
  | .sgbAddr => ⟨.sgbAddr, "SGBADDR", 16, false, .pTal, "System-global byte address."⟩
  | .sgwAddr => ⟨.sgwAddr, "SGWADDR", 16, false, .pTal, "System-global word address."⟩
  | .bAddr => ⟨.bAddr, "BADDR", 16, false, .pTal, "16-bit byte address."⟩
  | .wAddr => ⟨.wAddr, "WADDR", 16, false, .pTal, "16-bit word address."⟩
  | .cbAddr => ⟨.cbAddr, "CBADDR", 16, false, .pTal, "Code-space byte address."⟩
  | .cwAddr => ⟨.cwAddr, "CWADDR", 16, false, .pTal, "Code-space word address."⟩
  | .procAddr => ⟨.procAddr, "PROCADDR", 32, false, .pTal, "Procedure address."⟩

def keyword (t : DataType) : Keyword := t.details.keyword

def bits (t : DataType) : Nat := t.details.bits

def takesQualifier (t : DataType) : Bool := t.details.takesQualifier

def dialect (t : DataType) : Dialect := t.details.dialect

def description (t : DataType) : String := t.details.description

def spelling (t : DataType) : String := t.details.spelling

theorem spelling_keyword (t : DataType) : t.keyword.spelling = t.spelling := by cases t <;> rfl

def all : List DataType :=
  [.string, .int, .unsigned, .fixed, .real, .extAddr, .sgAddr, .sgbAddr, .sgwAddr, .bAddr,
    .wAddr, .cbAddr, .cwAddr, .procAddr]

theorem mem_all (t : DataType) : t ∈ all := by cases t <;> decide

def ofSpelling? (word : String) : Option DataType := findWord? all spelling word

theorem distinct : DistinctWords all spelling := by decide +kernel

theorem ofSpelling?_eq_some_iff {word : String} {t : DataType} :
    ofSpelling? word = some t ↔ sameWord word t.spelling = true := by
  simp [ofSpelling?, findWord?_eq_some_iff distinct, mem_all]

def ofKeyword? (k : Keyword) : Option DataType := all.find? fun t => t.keyword == k

end DataType
end TalAnalysis
