import Mathlib.Data.List.Infix
import TalAnalysis.Proofs.Declaration.Layout
import TalAnalysis.Proofs.Declaration.Program
import TalAnalysis.Proofs.Declaration.Word

/-!
# Declaration lists

The lists that one LITERAL, one DEFINE or one data type declares, written down as they may be: any
number of items with commas between them, and layout wherever it may stand. `DeclarationList.tokens`
writes a list down and `DeclarationList.symbols` says what it declares.

Values may hold anything that has its brackets in pairs, commas and semicolons included as long as
they stand in brackets. The body of a DEFINE may hold anything but the mark that closes it.
-/

namespace TalAnalysis.Declaration

def height (opening closing : Delimiter) (tokens : List Token) : Int :=
  tokens.countP (·.isDelimiter opening) - tokens.countP (·.isDelimiter closing)

section Height
variable {opening closing : Delimiter} {t : Token}

theorem height_append (opening closing : Delimiter) (front back : List Token) :
    height opening closing (front ++ back) =
      height opening closing front + height opening closing back := by
  simp only [height, List.countP_append]
  omega

theorem height_closing (apart : opening ≠ closing) (closes : t.isDelimiter closing = true) :
    height opening closing [t] = -1 := by
  have other := isDelimiter_eq_false apart.symm closes
  simp [height, closes, other]

end Height

structure Balanced (opening closing : Delimiter) (tokens : List Token) : Prop where
  fronts : ∀ front, front <+: tokens → 0 ≤ height opening closing front
  whole : height opening closing tokens = 0

instance (opening closing : Delimiter) (tokens : List Token) :
    Decidable (Balanced opening closing tokens) :=
  decidable_of_iff ((∀ front ∈ tokens.inits, 0 ≤ height opening closing front) ∧
      height opening closing tokens = 0)
    ⟨fun h => ⟨fun front within => h.1 front ((List.mem_inits front tokens).2 within), h.2⟩,
      fun h => ⟨fun front member => h.fronts front ((List.mem_inits front tokens).1 member),
        h.whole⟩⟩

def separates (t : Token) : Bool := t.isDelimiter .comma || t.isDelimiter .semicolon

structure ValueTokens where
  tokens : List Token
  round : Balanced .lParen .rParen tokens
  square : Balanced .lBracket .rBracket tokens
  inBrackets : ∀ n (h : n < tokens.length), separates tokens[n] = true →
    0 < height .lParen .rParen (tokens.take n) ∨ 0 < height .lBracket .rBracket (tokens.take n)

structure Gap where
  tokens : List Token
  layout : OnlyLayout tokens

def Gap.none : Gap := ⟨[], .nil⟩

inductive Separated (α : Type)
  | one (item : α)
  | more (item : α) (comma : TokenOf (.delimiter .comma)) (others : Separated α)

namespace Separated

variable {α : Type}

def tokens (write : α → List Token) : Separated α → List Token
  | .one item => write item
  | .more item comma others => write item ++ comma.token :: others.tokens write

def items : Separated α → List α
  | .one item => [item]
  | .more item _ others => item :: others.items

end Separated

def optional {α : Type} (write : α → List Token) (part? : Option α) : List Token :=
  (part?.map write).getD []

structure Group (opening closing : Delimiter) where
  lead : Gap
  opened : TokenOf (.delimiter opening)
  inside : List Token
  closed : TokenOf (.delimiter closing)
  balanced : Balanced opening closing inside

def Group.tokens {opening closing : Delimiter} (group : Group opening closing) : List Token :=
  group.lead.tokens ++ group.opened.token :: (group.inside ++ [group.closed.token])

structure LiteralPart where
  lead : Gap
  name : NameToken
  gap : Gap
  equal : TokenOf (.delimiter .equal)
  value : ValueTokens

def LiteralPart.tokens (part : LiteralPart) : List Token :=
  part.lead.tokens ++ part.name.token ::
    (part.gap.tokens ++ part.equal.token :: part.value.tokens)

def LiteralPart.symbol (context : String) (part : LiteralPart) : Symbol :=
  { Symbol.declaredAt part.name.token .literal .value context with
    value := .text (Token.joinText part.value.tokens) }

structure Formal where
  lead : Gap
  name : NameToken
  trail : Gap

def Formal.tokens (formal : Formal) : List Token :=
  formal.lead.tokens ++ formal.name.token :: formal.trail.tokens

structure Formals where
  lead : Gap
  opened : TokenOf (.delimiter .lParen)
  names : Separated Formal
  closed : TokenOf (.delimiter .rParen)

def Formals.tokens (formals : Formals) : List Token :=
  formals.lead.tokens ++ formals.opened.token ::
    (formals.names.tokens Formal.tokens ++ [formals.closed.token])

structure DefinePart where
  lead : Gap
  name : NameToken
  formals? : Option Formals
  gap : Gap
  equal : TokenOf (.delimiter .equal)
  body : List Token
  unmarked : ∀ t ∈ body, t.isDelimiter .hash = false
  hash : TokenOf (.delimiter .hash)
  trail : Gap

namespace DefinePart

def tokens (part : DefinePart) : List Token :=
  part.lead.tokens ++ part.name.token :: (optional Formals.tokens part.formals? ++
    (part.gap.tokens ++ part.equal.token :: (part.body ++ part.hash.token :: part.trail.tokens)))

def formals (part : DefinePart) : List Token :=
  part.formals?.toList.flatMap fun formals => formals.names.items.map fun f => f.name.token

def symbols (context : String) (part : DefinePart) : List Symbol :=
  let name := part.name.token
  { Symbol.declaredAt name .define .identifier context with value := .text name.text } ::
    (part.formals.map (fun t =>
      { Symbol.declaredAt t .define .parameter context with
        key := ⟨context, name.text, .parameter t.text⟩ }) ++
    [{ Symbol.declaredAt name .define .body context with
      key := ⟨context, name.text, .body⟩, value := .tokens part.body }])

end DefinePart

/-- What may qualify a data type: a star, or tokens in parentheses. -/
inductive Width
  | none
  | template (lead : Gap) (star : TokenOf (.delimiter .templateStar))
  | sized (lead : Gap) (opened : TokenOf (.delimiter .lParen)) (inside : List Token)
      (closed : TokenOf (.delimiter .rParen))
      (flat : ∀ t ∈ inside, t.isDelimiter .lParen = false ∧ t.isDelimiter .rParen = false)

def Width.tokens : Width → List Token
  | .none => []
  | .template lead star => lead.tokens ++ [star.token]
  | .sized lead opened inside closed _ =>
      lead.tokens ++ opened.token :: (inside ++ [closed.token])

structure Initial where
  sign : Token
  assigns : sign.kind = .operator .assign ∨ sign.kind = .delimiter .equal
  value : ValueTokens

def Initial.tokens (initial : Initial) : List Token := initial.sign :: initial.value.tokens

structure VariablePart where
  lead : Gap
  marks : List Token
  pointers : ∀ t ∈ marks, t.kind.marksPointer = true
  name : NameToken
  referral? : Option (Group .lParen .rParen)
  bounds? : Option (Group .lBracket .rBracket)
  gap : Gap
  initial? : Option Initial

namespace VariablePart

def tail (part : VariablePart) : List Token :=
  optional Group.tokens part.referral? ++ (optional Group.tokens part.bounds? ++
    (part.gap.tokens ++ optional Initial.tokens part.initial?))

def tokens (part : VariablePart) : List Token :=
  part.lead.tokens ++ (part.marks ++ part.name.token :: part.tail)

def symbol (context : String) (dataType : DataType) (part : VariablePart) : Symbol :=
  { Symbol.declaredAt part.name.token .variable_ (.typed dataType) context with
    value :=
      match part.initial? with
      | some initial => .text (Token.joinText initial.value.tokens)
      | none => .none }

end VariablePart

inductive DeclarationList
  | literal (keyword : TokenOf (.keyword .literal)) (parts : Separated LiteralPart)
      (stop : TokenOf (.delimiter .semicolon))
  | define (keyword : TokenOf (.keyword .define)) (parts : Separated DefinePart)
      (stop : TokenOf (.delimiter .semicolon))
  | typed (type : TypeToken) (width : Width) (parts : Separated VariablePart)
      (stop : TokenOf (.delimiter .semicolon))

namespace DeclarationList

def tokens : DeclarationList → List Token
  | .literal keyword parts stop =>
      keyword.token :: (parts.tokens LiteralPart.tokens ++ [stop.token])
  | .define keyword parts stop =>
      keyword.token :: (parts.tokens DefinePart.tokens ++ [stop.token])
  | .typed type width parts stop =>
      type.token :: (width.tokens ++ (parts.tokens VariablePart.tokens ++ [stop.token]))

def symbols (context : String) : DeclarationList → List Symbol
  | .literal _ parts _ => parts.items.map (LiteralPart.symbol context)
  | .define _ parts _ => parts.items.flatMap (DefinePart.symbols context)
  | .typed type _ parts _ => parts.items.map (VariablePart.symbol context type.dataType)

def opensWithType : DeclarationList → Bool
  | .typed .. => true
  | _ => false

end DeclarationList

def plainMark (d : Delimiter) : TokenOf (.delimiter d) := plainToken _ d.spelling

def callValue : ValueTokens where
  tokens := [(plainName "f").token, (plainMark .lParen).token, (plainToken (.number 1) "1").token,
    (plainMark .comma).token, (plainToken (.number 2) "2").token, (plainMark .rParen).token]
  round := by decide +kernel
  square := by decide +kernel
  inBrackets := by decide +kernel

/-- The list `INT(32) .p(t)[0:1] := f(1, 2), p;`. -/
def variableList : DeclarationList :=
  let pointer : VariablePart := {
    lead := .none
    marks := [(plainMark .dot).token]
    pointers := by decide
    name := plainName "p"
    referral? := some ⟨.none, plainMark .lParen, [(plainName "t").token], plainMark .rParen,
      by decide +kernel⟩
    bounds? := some ⟨.none, plainMark .lBracket, [(plainToken (.number 0) "0").token,
      (plainMark .colon).token, (plainToken (.number 1) "1").token], plainMark .rBracket,
      by decide +kernel⟩
    gap := .none
    initial? := some ⟨(plainToken (.operator .assign) ":=").token, .inl rfl, callValue⟩ }
  let again : VariablePart := { pointer with
    marks := []
    pointers := by decide
    referral? := none
    bounds? := none
    initial? := none }
  .typed (plainVariable "p").type
    (.sized .none (plainMark .lParen) [(plainToken (.number 32) "32").token] (plainMark .rParen)
      (by decide))
    (.more pointer (plainMark .comma) (.one again)) plainStop

end TalAnalysis.Declaration
