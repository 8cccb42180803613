import TalAnalysis.Vocabulary.Keyword

namespace TalAnalysis

inductive OperatorCategory
  | arithmetic | relational | boolean | logical | bitShift | assignment | move | labelCase
deriving DecidableEq, Repr, Inhabited

inductive Operator
  | plus | minus | star | slash | unsignedPlus | unsignedMinus | unsignedStar | unsignedSlash
  | unsignedModulo | less | greater | equal | lessEq | greaterEq | notEqual | unsignedLess
  | unsignedGreater | unsignedEqual | unsignedLessEq | unsignedGreaterEq | unsignedNotEqual
  | shiftLeft | shiftRight | unsignedShiftLeft | unsignedShiftRight | assign | moveLeft
  | moveRight | concat | arrow | and | or | not | land | lor | xor
deriving DecidableEq, Repr, Inhabited

namespace Operator

def details : Operator → String × OperatorCategory
  | .plus => ("+", .arithmetic)
  | .minus => ("-", .arithmetic)
  | .star => ("*", .arithmetic)
  | .slash => ("/", .arithmetic)
  | .unsignedPlus => ("'+'", .arithmetic)
  | .unsignedMinus => ("'-'", .arithmetic)
  | .unsignedStar => ("'*'", .arithmetic)
  | .unsignedSlash => ("'/'", .arithmetic)
  | .unsignedModulo => ("'\\'", .arithmetic)
  | .less => ("<", .relational)
  | .greater => (">", .relational)
  | .equal => ("=", .relational)
  | .lessEq => ("<=", .relational)
  | .greaterEq => (">=", .relational)
  | .notEqual => ("<>", .relational)
  | .unsignedLess => ("'<'", .relational)
  | .unsignedGreater => ("'>'", .relational)
  | .unsignedEqual => ("'='", .relational)
  | .unsignedLessEq => ("'<='", .relational)
  | .unsignedGreaterEq => ("'>='", .relational)
  | .unsignedNotEqual => ("'<>'", .relational)
  | .shiftLeft => ("<<", .bitShift)
  | .shiftRight => (">>", .bitShift)
  | .unsignedShiftLeft => ("'<<'", .bitShift)
  | .unsignedShiftRight => ("'>>'", .bitShift)
  | .assign => (":=", .assignment)
  | .moveLeft => ("':='", .move)
  | .moveRight => ("'=:'", .move)
  | .concat => ("&", .move)
  | .arrow => ("->", .labelCase)
  | .and => ("AND", .boolean)
  | .or => ("OR", .boolean)
  | .not => ("NOT", .boolean)
  | .land => ("LAND", .logical)
  | .lor => ("LOR", .logical)
  | .xor => ("XOR", .logical)

def spelling (o : Operator) : String := o.details.1

def category (o : Operator) : OperatorCategory := o.details.2

def isWord : Operator → Bool
  | .and | .or | .not | .land | .lor | .xor => true
  | _ => false

def all : List Operator :=
  [.plus, .minus, .star, .slash, .unsignedPlus, .unsignedMinus, .unsignedStar, .unsignedSlash,
    .unsignedModulo, .less, .greater, .equal, .lessEq, .greaterEq, .notEqual, .unsignedLess,
    .unsignedGreater, .unsignedEqual, .unsignedLessEq, .unsignedGreaterEq, .unsignedNotEqual,
    .shiftLeft, .shiftRight, .unsignedShiftLeft, .unsignedShiftRight, .assign, .moveLeft,
    .moveRight, .concat, .arrow, .and, .or, .not, .land, .lor, .xor]

theorem mem_all (o : Operator) : o ∈ all := by cases o <;> decide

def signs : List Operator := all.filter fun o => !o.isWord

def ofSign? (text : String) : Option Operator := signs.find? fun o => o.spelling == text

def words : List Operator := all.filter isWord

def ofWord? (word : String) : Option Operator := findWord? words spelling word

theorem distinct_words : DistinctWords words spelling := by decide +kernel

theorem ofWord?_eq_some_iff {word : String} {o : Operator} :
    ofWord? word = some o ↔ o.isWord = true ∧ sameWord word o.spelling = true := by
  rw [ofWord?, findWord?_eq_some_iff distinct_words]
  simp [words, mem_all]

def ofKeyword? : Keyword → Option Operator
  | .and => some .and
  | .or => some .or
  | .not => some .not
  | .land => some .land
  | .lor => some .lor
  | .xor => some .xor
  | _ => none

end Operator
end TalAnalysis
