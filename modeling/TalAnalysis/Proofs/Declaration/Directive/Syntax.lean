import TalAnalysis.Proofs.Declaration.Lists.Syntax
import TalAnalysis.Vocabulary.Directive

/-!
# Directive lines, written down

A line opens with a mark, names directives with commas between them, and ends with a line break or
with a comment that runs up to one. `LineOfDirectives.tokens` writes a line down and
`LineOfDirectives.symbols` says what it declares.

The comma after an argument ends it only if all its parentheses are closed. ASSERTION takes its line
to the end, so nothing stands after it. The list of sections of a SOURCE may be broken: the next
line then opens with a mark of its own.
-/

namespace TalAnalysis.Declaration

structure WordToken where
  token : Token
  isWord : token.kind.isWord = true

/-- A word that names the directive, or none that is known. -/
structure WordFor (directive? : Option Directive) extends WordToken where
  named : Directive.ofSpelling? token.text = directive?

structure LineEnd where
  token : Token
  ends : token.kind.endsLine = true

structure DirectiveMark where
  token : Token
  marks : token.kind.marksDirective = true

def InLine (tokens : List Token) : Prop := ∀ t ∈ tokens, t.kind.endsLine = false

instance (tokens : List Token) : Decidable (InLine tokens) :=
  inferInstanceAs (Decidable (∀ t ∈ tokens, _))

/-- How many parentheses are open after a token, where `depth` were before. A closing one without
its opening one counts for nothing. -/
def parensAfter (depth : Nat) (t : Token) : Nat :=
  if t.isDelimiter .lParen then depth + 1
  else if t.isDelimiter .rParen then depth - 1
  else depth

def openParens (tokens : List Token) : Nat := tokens.foldl parensAfter 0

/-- What follows the name of a directive, its commas in parentheses. -/
structure Arguments where
  tokens : List Token
  inLine : InLine tokens
  enclosed : ∀ front t back, tokens = front ++ t :: back → t.isDelimiter .comma = true →
    openParens front ≠ 0

def argumentText? (tokens : List Token) : Option String :=
  if tokens.isEmpty then none else some (Token.joinText tokens)

structure TargetToken where
  token : Token
  inLine : token.kind.endsLine = false
  noComma : token.isDelimiter .comma = false

structure FileTokens where
  tokens : List Token
  inFile : ∀ t ∈ tokens, t.kind.endsLine = false ∧ t.isDelimiter .lParen = false ∧
    t.isDelimiter .comma = false

structure LineBreak where
  lineEnd : LineEnd
  mark : DirectiveMark

def LineBreak.tokens (lineBreak : LineBreak) : List Token :=
  [lineBreak.lineEnd.token, lineBreak.mark.token]

structure SectionPart where
  lead : List LineBreak
  word : WordToken
  trail : List LineBreak

def SectionPart.tokens (part : SectionPart) : List Token :=
  part.lead.flatMap LineBreak.tokens ++ part.word.token :: part.trail.flatMap LineBreak.tokens

structure SectionList where
  opened : TokenOf (.delimiter .lParen)
  parts : Separated SectionPart
  closed : TokenOf (.delimiter .rParen)

def SectionList.tokens (list : SectionList) : List Token :=
  list.opened.token :: (list.parts.tokens SectionPart.tokens ++ [list.closed.token])

def SectionList.words (list : SectionList) : List Token :=
  list.parts.items.map fun part => part.word.token

inductive DirectivePart
  | simple (d : Directive) (form : d.form = .simple) (word : WordFor (some d))
  | complex (d : Directive) (form : d.form = .complex)
      (other : d ≠ .source ∧ d ≠ .target ∧ d ≠ .assertion) (word : WordFor (some d))
      (arguments : Arguments)
  | unknown (word : WordFor none) (arguments : Arguments)
  | target (word : WordFor (some .target)) (system? : Option TargetToken)
  | source (word : WordFor (some .source)) (file : FileTokens) (sections? : Option SectionList)
  | assertion (word : WordFor (some .assertion)) (arguments : List Token)
      (inLine : InLine arguments)

namespace DirectivePart

def word : DirectivePart → WordToken
  | .simple _ _ word | .complex _ _ _ word _ => word.toWordToken
  | .unknown word _ => word.toWordToken
  | .target word _ => word.toWordToken
  | .source word _ _ => word.toWordToken
  | .assertion word _ _ => word.toWordToken

def tail : DirectivePart → List Token
  | .simple .. => []
  | .complex _ _ _ _ arguments | .unknown _ arguments => arguments.tokens
  | .target _ system? => optional (fun system => [system.token]) system?
  | .source _ file sections? => file.tokens ++ optional SectionList.tokens sections?
  | .assertion _ arguments _ => arguments

def tokens (part : DirectivePart) : List Token := part.word.token :: part.tail

/-- A comma after the directive is not taken for a part of it. -/
def EndsAtComma : DirectivePart → Prop
  | .complex _ _ _ _ arguments | .unknown _ arguments => openParens arguments.tokens = 0
  | .assertion .. => False
  | _ => True

def name : DirectivePart → String
  | .simple d _ _ | .complex d _ _ _ _ => d.spelling
  | .unknown word _ => word.token.text
  | .target .. => Directive.spelling .target
  | .source .. => Directive.spelling .source
  | .assertion .. => Directive.spelling .assertion

def fileText : DirectivePart → String
  | .source _ file _ => Token.joinText file.tokens
  | _ => ""

def argument? : DirectivePart → Option String
  | .simple .. => none
  | .complex _ _ _ _ arguments | .unknown _ arguments => argumentText? arguments.tokens
  | .target _ system? => system?.map fun system => system.token.text
  | .source _ file _ =>
    let text := Token.joinText file.tokens
    if text.isEmpty then none else some text
  | .assertion _ arguments _ => argumentText? arguments

def sections : DirectivePart → List Token
  | .source _ _ sections? => optional SectionList.words sections?
  | _ => []

def symbols (context : String) (part : DirectivePart) : List Symbol :=
  { Symbol.declaredAt part.word.token .directive .directive context with
    key := ⟨context, part.name, .none⟩
    name := part.name
    value :=
      match part.argument? with
      | some text => .text text
      | none => .none } ::
    part.sections.map fun t => Symbol.declaredAt t .function .external part.fileText

end DirectivePart

inductive DirectiveParts
  | last (part : DirectivePart)
  | more (part : DirectivePart) (ends : part.EndsAtComma) (comma : TokenOf (.delimiter .comma))
      (others : DirectiveParts)

namespace DirectiveParts

def tokens : DirectiveParts → List Token
  | .last part => part.tokens
  | .more part _ comma others => part.tokens ++ comma.token :: others.tokens

def items : DirectiveParts → List DirectivePart
  | .last part => [part]
  | .more part _ _ others => part :: others.items

end DirectiveParts

structure LineOfDirectives where
  mark : DirectiveMark
  parts : DirectiveParts
  lineEnd : LineEnd

namespace LineOfDirectives

def tail (line : LineOfDirectives) : List Token := line.parts.tokens ++ [line.lineEnd.token]

def tokens (line : LineOfDirectives) : List Token := line.mark.token :: line.tail

def symbols (context : String) (line : LineOfDirectives) : List Symbol :=
  line.parts.items.flatMap (DirectivePart.symbols context)

end LineOfDirectives
end TalAnalysis.Declaration
