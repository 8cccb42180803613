import TalAnalysis.Proofs.Declaration.LayoutFree
import TalAnalysis.Proofs.Declaration.Lists.Bracket
import TalAnalysis.Proofs.Declaration.Nesting

/-!
# Structures after a template

A structure that is declared after a template has no body of its own.

* `step_template`: unless a BEGIN comes next, its line leaves all scopes as they are.
* `leads_heading`, `findings_header`: the line of a procedure with its parameters, and what stands
  between that line and the BEGIN of the procedure.
* `template_keepsScopes`: such a structure takes nothing from the procedure that it stands in, so
  long as another declaration comes between it and the BEGIN of the procedure.
-/

namespace TalAnalysis.Declaration

/-! ## The lines -/

structure Bounds where
  opened : TokenOf (.delimiter .lBracket)
  inside : List Token
  unended : ∀ t ∈ inside, t.isDelimiter .semicolon = false
  closed : TokenOf (.delimiter .rBracket)

def Bounds.tokens (bounds : Bounds) : List Token :=
  bounds.opened.token :: (bounds.inside ++ [bounds.closed.token])

structure TemplateLine where
  keyword : TokenOf (.keyword .struct)
  marks : List Token
  pointers : ∀ t ∈ marks, t.kind.marksPointer = true
  name : NameToken
  opened : TokenOf (.delimiter .lParen)
  template : NameToken
  closed : TokenOf (.delimiter .rParen)
  bounds? : Option Bounds
  stop : TokenOf (.delimiter .semicolon)

namespace TemplateLine

def qualifiers (line : TemplateLine) : List Token :=
  line.opened.token :: line.template.token :: line.closed.token ::
    optional Bounds.tokens line.bounds?

def tail (line : TemplateLine) : List Token :=
  line.marks ++ line.name.token :: (line.qualifiers ++ [line.stop.token])

def tokens (line : TemplateLine) : List Token := line.keyword.token :: line.tail

def symbol (context : String) (line : TemplateLine) : Symbol :=
  Symbol.declaredAt line.name.token .variable_ .struct context

end TemplateLine

structure ProcedureHeading where
  keyword : { t : Token // opensProcedure t = true }
  name : NameToken
  opened : TokenOf (.delimiter .lParen)
  formals : List Token
  balanced : Balanced .lParen .rParen formals
  closed : TokenOf (.delimiter .rParen)
  stop : TokenOf (.delimiter .semicolon)

namespace ProcedureHeading

def tokens (heading : ProcedureHeading) : List Token :=
  heading.keyword.val :: heading.name.token :: heading.opened.token ::
    (heading.formals ++ [heading.closed.token, heading.stop.token])

def line (heading : ProcedureHeading) : ProcedureLine :=
  ⟨none, heading.keyword, heading.name, heading.stop⟩

def parameters (heading : ProcedureHeading) : List Token :=
  parameterNames 0 (inside .lParen .rParen 0 heading.formals).inside

def symbols (context : String) (heading : ProcedureHeading) : List Symbol :=
  heading.line.symbol context :: heading.parameters.map fun t =>
    Symbol.declaredAt t .variable_ .parameter heading.name.token.text

def ends (heading : ProcedureHeading) : List ScopeKind :=
  if heading.keyword.val.isKeyword .subproc then [.subprocedure] else [.procedure, .subprocedure]

def outside (heading : ProcedureHeading) (s : State) : State :=
  { s with scopes := closeBodiless heading.ends s.scopes, statementStart := true }

end ProcedureHeading

inductive HeaderPart
  | variable_ (line : VariableLine)
  | structure_ (line : StructureLine) (brackets : Brackets) (items : Items .body)
  | template (line : TemplateLine)

namespace HeaderPart

def tokens : HeaderPart → List Token
  | .variable_ line => line.tokens
  | .structure_ line brackets items => line.tokens ++ brackets.around items.tokens
  | .template line => line.tokens

def symbols (context : String) : HeaderPart → List Symbol
  | .variable_ line => [line.symbol context]
  | .structure_ line _ items => line.symbol context :: items.symbols line.name.token.text
  | .template line => [line.symbol context]

def isTemplate : HeaderPart → Bool
  | .template _ => true
  | _ => false

end HeaderPart

variable {s : State} {t : Token} {tokens more rest : List Token}

/-! ## Without the layout -/

theorem significant_pastSemicolon (tokens : List Token) :
    significant (pastSemicolon tokens) = pastSemicolon (significant tokens) := by
  have copied := layoutAside.pastSemicolon_tokens tokens
  rw [tokens_layoutAside, tokens_layoutAside] at copied
  exact copied.symm

theorem significant_skipLayout (tokens : List Token) :
    significant (skipLayout tokens) = significant tokens := by
  induction tokens with
  | nil => rfl
  | cons t rest ih =>
      cases layout : t.kind.isLayout with
      | true => simpa [skipLayout, significant, layout] using ih
      | false => rw [skipLayout, List.dropWhile_cons_of_neg (by simp [layout])]

theorem bodyFollows_eq_false (next : ∀ t ∈ (significant tokens).head?, t.kind ≠ .keyword .begin) :
    bodyFollows tokens = false := by
  rw [← layoutAside.bodyFollows_tokens, tokens_layoutAside, bodyFollows]
  cases first : significant tokens with
  | nil => rfl
  | cons t rest =>
      have other : t.kind ≠ .keyword .begin := next t (by rw [first]; rfl)
      have significant : t.kind.isLayout = false := by
        have member : t ∈ significant tokens := first ▸ List.mem_cons_self
        simpa using (List.mem_filter.1 member).2
      rw [skipLayout, List.dropWhile_cons_of_neg (by simp [significant])]
      simp [Token.isKeyword, other]

theorem pastSemicolon_append_stop (unended : ∀ t ∈ tokens, t.isDelimiter .semicolon = false)
    (stop : TokenOf (.delimiter .semicolon)) (rest : List Token) :
    pastSemicolon (tokens ++ stop.token :: rest) = rest := by
  have passed (t : Token) (member : t ∈ tokens) : (!t.isDelimiter .semicolon) = true := by
    rw [unended t member, Bool.not_false]
  rw [pastSemicolon, List.dropWhile_append_of_pos passed, ← pastSemicolon, pastSemicolon_stop]

/-! ## The line of a structure -/

theorem not_semicolon_of_marksPointer (marks : t.kind.marksPointer = true) :
    t.isDelimiter .semicolon = false := by
  rw [Token.isDelimiter]
  refine beq_false_of_ne fun same => ?_
  rw [same] at marks
  cases marks

theorem pastSemicolon_skipPointers (tokens : List Token) :
    pastSemicolon (skipPointers tokens) = pastSemicolon tokens := by
  induction tokens with
  | nil => rfl
  | cons t rest ih =>
      cases marks : t.kind.marksPointer with
      | true =>
          have other := not_semicolon_of_marksPointer marks
          simpa [skipPointers, pastSemicolon, marks, other] using ih
      | false => rw [skipPointers, List.dropWhile_cons_of_neg (by simp [marks])]

theorem structureHeader_rest (tokens : List Token) :
    (structureHeader tokens).rest = pastSemicolon tokens := by
  -- Layout, marks of pointers and the name are no semicolons.
  rw [← pastSemicolon_skipLayout, ← pastSemicolon_skipPointers, structureHeader]
  cases skipPointers (skipLayout tokens) with
  | nil => rfl
  | cons name rest =>
      cases isName : name.kind.isName with
      | false => simp only [isName, Bool.false_eq_true, if_false]
      | true =>
          have other := name_isDelimiter ⟨name, isName⟩ .semicolon
          simp only [isName, if_true]
          rw [pastSemicolon, pastSemicolon, List.dropWhile_cons_of_pos]
          rw [other, Bool.not_false]

namespace TemplateLine

theorem unended (line : TemplateLine) :
    ∀ t ∈ line.marks ++ line.name.token :: line.qualifiers, t.isDelimiter .semicolon = false := by
  intro t member
  rcases List.mem_append.1 member with mark | later
  · exact not_semicolon_of_marksPointer (line.pointers t mark)
  · simp only [qualifiers, List.mem_cons] at later
    rcases later with rfl | rfl | rfl | rfl | bounds
    · exact name_isDelimiter line.name .semicolon
    · exact delimiter_isDelimiter line.opened .semicolon
    · exact name_isDelimiter line.template .semicolon
    · exact delimiter_isDelimiter line.closed .semicolon
    · cases found : line.bounds? with
      | none => simp [found, optional] at bounds
      | some written =>
          simp only [found, optional, Option.map_some, Option.getD_some, Bounds.tokens,
            List.mem_cons, List.mem_append, List.not_mem_nil, or_false] at bounds
          rcases bounds with rfl | within | rfl
          · exact delimiter_isDelimiter written.opened .semicolon
          · exact written.unended t within
          · exact delimiter_isDelimiter written.closed .semicolon

theorem rest_structureHeader (line : TemplateLine)
    (first : significant tokens = line.tail ++ more) :
    significant (structureHeader tokens).rest = more := by
  have cut : line.tail ++ more =
      (line.marks ++ line.name.token :: line.qualifiers) ++ line.stop.token :: more := by
    simp [tail]
  rw [structureHeader_rest, significant_pastSemicolon, first, cut,
    pastSemicolon_append_stop line.unended]

end TemplateLine

theorem skipPointers_of_significant {marks : List Token}
    (pointers : ∀ t ∈ marks, t.kind.marksPointer = true) (name : NameToken)
    (first : significant tokens = marks ++ name.token :: more) :
    ∃ u rest, skipPointers tokens = u :: rest ∧ (u = name.token ∨ u.kind.isLayout = true) := by
  induction tokens generalizing marks with
  | nil => cases marks <;> cases first
  | cons u tokens ih =>
      cases layout : u.kind.isLayout with
      | true =>
          refine ⟨u, tokens, List.dropWhile_cons_of_neg ?_, .inr layout⟩
          rcases kind_of_isLayout layout with kind | kind | kind <;> rw [kind] <;> decide
      | false =>
          rw [significant, List.filter_cons_of_pos (by simp [layout]), ← significant] at first
          cases marks with
          | nil =>
              obtain ⟨rfl, -⟩ := List.cons.inj first
              obtain ⟨spelling, kind⟩ := kind_of_isName name.isName
              refine ⟨name.token, tokens, List.dropWhile_cons_of_neg ?_, .inl rfl⟩
              rw [kind]
              exact Bool.false_ne_true
          | cons mark marks =>
              obtain ⟨rfl, left⟩ := List.cons.inj first
              obtain ⟨marked, pointers⟩ := List.forall_mem_cons.1 pointers
              have passed : skipPointers (u :: tokens) = skipPointers tokens :=
                List.dropWhile_cons_of_pos marked
              rw [passed]
              exact ih pointers left

theorem TemplateLine.name?_structureHeader (line : TemplateLine)
    (first : significant tokens = line.tail ++ more) :
    (structureHeader tokens).name? = some line.name.token ∨
      (structureHeader tokens).name? = none := by
  have skipped : significant (skipLayout tokens) =
      line.marks ++ line.name.token :: (line.qualifiers ++ line.stop.token :: more) := by
    rw [significant_skipLayout, first, tail]
    simp
  obtain ⟨u, rest, found, name⟩ := skipPointers_of_significant line.pointers line.name skipped
  rw [structureHeader, found]
  rcases name with rfl | layout
  · exact .inl (by simp only [line.name.isName, if_true])
  · have other := TokenCopy.not_isName_of_isLayout layout
    exact .inr (by simp only [other, Bool.false_eq_true, if_false])

theorem step_template (line : TemplateLine) (s : State)
    (first : significant tokens = line.tail ++ more)
    (next : ∀ t ∈ more.head?, t.kind ≠ .keyword .begin) :
    ∃ found rest, significant rest = more ∧
      (found.filterMap Finding.symbol?).Sublist [line.symbol s.context] ∧
      step s line.keyword.token tokens = ⟨found, s.atStart, rest⟩ := by
  have left := line.rest_structureHeader first
  have noBody : bodyFollows (structureHeader tokens).rest = false :=
    bodyFollows_eq_false (left ▸ next)
  simp only [step, line.keyword.ofKind, structureStep]
  rcases line.name?_structureHeader first with named | missing
  · simp only [named, noBody, Bool.false_eq_true, if_false]
    exact ⟨_, _, left, List.Sublist.refl _, rfl⟩
  · simp only [missing]
    refine ⟨_, _, left, ?_, rfl⟩
    exact List.nil_sublist _

/-! ## The line of a procedure -/

namespace ProcedureHeading

theorem significant_header (heading : ProcedureHeading) (more : List Token) :
    procedureHeader (heading.name.token :: heading.opened.token ::
        (heading.formals ++ heading.closed.token :: heading.stop.token :: more)) =
      ⟨some heading.name.token, (inside .lParen .rParen 0 heading.formals).inside, more⟩ := by
  obtain ⟨spelling, isName⟩ := kind_of_isName heading.name.isName
  have unspaced (rest : List Token) :
      skipLayout (heading.name.token :: rest) = heading.name.token :: rest := by
    rw [skipLayout, List.dropWhile_cons_of_neg]
    simp [isName, TokenKind.isLayout, TokenKind.isComment]
  rw [procedureHeader, unspaced]
  simp only [heading.name.isName, if_true]
  rw [skipLayout_stop, parenthesized,
    between_closed (by decide) heading.opened heading.closed heading.balanced, pastSemicolon_stop]

theorem procedureHeader_of_significant (heading : ProcedureHeading)
    (first : heading.keyword.val :: significant tokens = heading.tokens ++ more) :
    ∃ rest, significant rest = more ∧ (procedureHeader tokens).rest = rest ∧
      (procedureHeader tokens).name? = some heading.name.token ∧
      parameterNames 0 (procedureHeader tokens).parameters = heading.parameters := by
  have written : significant tokens = heading.name.token :: heading.opened.token ::
      (heading.formals ++ heading.closed.token :: heading.stop.token :: more) := by
    simpa [ProcedureHeading.tokens] using first
  have copied := layoutAside.procedureHeader_tokens tokens
  rw [tokens_layoutAside, written, significant_header] at copied
  have names := layoutAside.parameterNames_tokens 0 (procedureHeader tokens).parameters
  injection copied with name parameters rest
  rw [tokens_layoutAside] at rest
  rw [← parameters] at names
  exact ⟨_, rest.symm, rfl, by simpa [layoutAside] using name.symm,
    (List.map_id _).symm.trans names.symm⟩

end ProcedureHeading

theorem leads_heading (heading : ProcedureHeading) (s : State) :
    Leads s heading.tokens ((heading.symbols (heading.outside s).context).map .symbol)
      ((heading.outside s).enter heading.name.token.text heading.line.scope) := by
  intro tokens more first
  obtain ⟨rest, left, found⟩ := findings_step first s
  obtain ⟨after, left, header, name, parameters⟩ :=
    heading.procedureHeader_of_significant (congrArg _ left)
  refine ⟨after, left, found.trans ?_⟩
  rw [step_procedureKeyword heading.keyword.property, procedureStep.eq_def]
  simp only [header, name, parameters, ProcedureHeading.symbols, ProcedureLine.symbol,
    ProcedureHeading.outside, ProcedureHeading.line, ProcedureLine.scope, ProcedureHeading.ends]
  split <;> rename_i subproc
  · simp only [subproc, if_true]
    rfl
  · simp only [subproc, if_false, Bool.false_eq_true]
    rfl

/-! ## Between the line of a procedure and its BEGIN -/

namespace HeaderPart

theorem head?_tokens (header : List HeaderPart) (more : List Token) :
    header = [] ∨
      ∀ t ∈ (header.flatMap HeaderPart.tokens ++ more).head?, t.kind ≠ .keyword .begin := by
  cases header with
  | nil => exact .inl rfl
  | cons part others =>
      refine .inr fun t first => ?_
      cases part with
      | variable_ line =>
          obtain rfl := Option.some.inj first
          simp [line.type.isType]
      | structure_ line _ _ | template line =>
          obtain rfl := Option.some.inj first
          simp [line.keyword.ofKind]

theorem findings_part (part : HeaderPart) (fits : Fits .header s)
    (next : part.isTemplate = true → ∀ t ∈ more.head?, t.kind ≠ .keyword .begin)
    (first : significant tokens = part.tokens ++ more) :
    ∃ own rest, significant rest = more ∧
      (own.filterMap Finding.symbol?).Sublist (part.symbols s.context) ∧
      findings s tokens = own ++ findings s rest := by
  cases part with
  | variable_ line =>
      obtain ⟨rest, left, found⟩ := leads_variable line fits.start tokens more first
      exact ⟨_, rest, left, List.Sublist.refl _, found⟩
  | structure_ line brackets items =>
      obtain ⟨rest, left, found⟩ :=
        declares_structure line brackets (declares_items items) s fits tokens more first
      refine ⟨_, rest, left, ?_, found⟩
      rw [List.filterMap_map]
      exact List.filterMap_some ▸ List.Sublist.refl _
  | template line =>
      obtain ⟨after, left, found⟩ := findings_step first s
      obtain ⟨own, rest, left, declared, read⟩ := step_template line s left (next rfl)
      refine ⟨own, rest, left, declared, found.trans ?_⟩
      rw [read, State.atStart_eq fits.start]

end HeaderPart

theorem findings_header (header : List HeaderPart) (fits : Fits .header s)
    (last : ∀ part ∈ header.getLast?, part.isTemplate = false)
    (first : significant tokens = header.flatMap HeaderPart.tokens ++ more) :
    ∃ own rest, significant rest = more ∧
      (own.filterMap Finding.symbol?).Sublist (header.flatMap (HeaderPart.symbols s.context)) ∧
      findings s tokens = own ++ findings s rest := by
  induction header generalizing tokens with
  | nil => exact ⟨[], tokens, first, List.Sublist.refl _, rfl⟩
  | cons part others ih =>
      rw [List.flatMap_cons, List.append_assoc] at first
      have next (template : part.isTemplate = true) :
          ∀ t ∈ (others.flatMap HeaderPart.tokens ++ more).head?, t.kind ≠ .keyword .begin := by
        rcases HeaderPart.head?_tokens others more with rfl | noBegin
        · rw [last part rfl] at template
          cases template
        · exact noBegin
      obtain ⟨one, rest, left, here, found⟩ := part.findings_part fits next first
      have later : ∀ part ∈ others.getLast?, part.isTemplate = false := by
        intro other member
        refine last other ?_
        rw [List.getLast?_cons, member]
        rfl
      obtain ⟨two, rest, left, there, found'⟩ := ih later left
      refine ⟨one ++ two, rest, left, ?_, ?_⟩
      · rw [List.filterMap_append, List.flatMap_cons]
        exact here.append there
      · rw [found, found', List.append_assoc]

/-! ## Procedures with structures after templates -/

theorem closeBodiless_ne_nil {kinds : List ScopeKind} {scopes : List Scope}
    (grounded : Scope.global ∈ scopes) : closeBodiless kinds scopes ≠ [] := by
  intro none
  have dropped := List.dropWhile_eq_nil_iff.1 none _ grounded
  cases dropped

/-- Before anything but a BEGIN, a structure after a template leaves all scopes as they are. Where
another declaration stands between the last such structure and the BEGIN of a procedure, the
procedure has what is declared after its BEGIN, and its END leads back. -/
theorem template_keepsScopes (s : State) :
    (∀ (line : TemplateLine) (tokens more : List Token),
      significant tokens = line.tail ++ more →
      (∀ t ∈ more.head?, t.kind ≠ .keyword .begin) →
      (step s line.keyword.token tokens).state = s.atStart ∧
        significant (step s line.keyword.token tokens).rest = more) ∧
    ∀ (heading : ProcedureHeading) (header : List HeaderPart) (brackets : Brackets)
      (items : Items .body) (tokens more : List Token),
      Scope.global ∈ s.scopes →
      (∀ part ∈ header.getLast?, part.isTemplate = false) →
      significant tokens = heading.tokens ++ (header.flatMap HeaderPart.tokens ++
        (brackets.around items.tokens ++ more)) →
      let p := heading.name.token.text
      let outside := heading.outside s
      ∃ own rest, significant rest = more ∧
        (own.filterMap Finding.symbol?).Sublist (header.flatMap (HeaderPart.symbols p)) ∧
        findings s tokens = (heading.symbols outside.context).map .symbol ++
          (own ++ ((items.symbols p).map .symbol ++ findings outside rest)) := by
  constructor
  · intro line tokens more first next
    obtain ⟨found, rest, left, -, read⟩ := step_template line s first next
    rw [read]
    exact ⟨rfl, left⟩
  · intro heading header brackets items tokens more grounded last first p outside
    have scope : heading.line.scope ≠ .global := by
      rcases heading.line.scope_cases with same | same <;> rw [same] <;> decide
    have fits : Fits .header outside := ⟨rfl, closeBodiless_ne_nil grounded, nofun⟩
    have entered : Fits .header (outside.enter p heading.line.scope) :=
      ⟨rfl, List.cons_ne_nil _ _, nofun⟩
    obtain ⟨rest, left, line⟩ := leads_heading heading s tokens _ first
    obtain ⟨own, rest, left, declared, between⟩ := findings_header header entered last left
    obtain ⟨rest, left, body⟩ :=
      leads_scope brackets (declares_items items) fits scope p rest more left
    exact ⟨own, rest, left, declared, by rw [line, between, body]⟩

/-! ## A procedure with a variable after the template -/

def plainBounds : List Token :=
  [(plainToken (.number 0) "0").token, (plainMark .colon).token,
    (plainToken (.number 1) "1").token]

theorem plainBounds_unended : ∀ t ∈ plainBounds, t.isDelimiter .semicolon = false := by
  decide

theorem marksPointer_dot : ∀ t ∈ [(plainMark .dot).token], t.kind.marksPointer = true := by
  decide

def plainTemplate : TemplateLine where
  keyword := plainToken _ "STRUCT"
  marks := [(plainMark .dot).token]
  pointers := marksPointer_dot
  name := plainName "s"
  opened := plainMark .lParen
  template := plainName "t"
  closed := plainMark .rParen
  bounds? := some ⟨plainMark .lBracket, plainBounds, plainBounds_unended, plainMark .rBracket⟩
  stop := plainStop

theorem opensProcedure_proc :
    opensProcedure (plainToken (.keyword .proc) "PROC").token = true :=
  rfl

theorem balanced_plainName : Balanced .lParen .rParen [(plainName "a").token] := by
  decide +kernel

def plainHeading : ProcedureHeading where
  keyword := ⟨(plainToken (.keyword .proc) "PROC").token, opensProcedure_proc⟩
  name := plainName "p"
  opened := plainMark .lParen
  formals := [(plainName "a").token]
  balanced := balanced_plainName
  closed := plainMark .rParen
  stop := plainStop

theorem template_keepsScopes_variable :
    let header : List HeaderPart := [.template plainTemplate, .variable_ (plainVariable "x")]
    let items : Items .body := .variable_ (plainVariable "y") .none
    let tokens := plainHeading.tokens ++ (header.flatMap HeaderPart.tokens ++
      (plainBrackets.around items.tokens ++ (plainVariable "z").tokens))
    (step {} plainTemplate.keyword.token (plainTemplate.tail ++ (plainVariable "x").tokens)).state =
        {} ∧
      ∃ own rest, significant rest = (plainVariable "z").tokens ∧
        (own.filterMap Finding.symbol?).Sublist (header.flatMap (HeaderPart.symbols "p")) ∧
        findings {} tokens = (plainHeading.symbols globalContext).map .symbol ++
          (own ++ ((items.symbols "p").map .symbol ++ findings {} rest)) := by
  intro header items tokens
  refine ⟨((template_keepsScopes {}).1 plainTemplate _ (plainVariable "x").tokens ?_ ?_).1, ?_⟩
  · decide +kernel
  · decide
  · exact (template_keepsScopes {}).2 plainHeading header plainBrackets items tokens
      (plainVariable "z").tokens (by decide) (by decide) (by decide +kernel)

end TalAnalysis.Declaration
