import TalAnalysis.Proofs.Declaration.Copy.Run
import TalAnalysis.Proofs.Declaration.Directive.Syntax

namespace TalAnalysis.Declaration

variable {t u : Token} {tokens rest : List Token}

theorem endsLine_of_isWord (isWord : t.kind.isWord = true) : t.kind.endsLine = false := by
  refine Bool.eq_false_iff.2 fun ends => ?_
  rw [not_isWord_of_isLayout (isLayout_of_endsLine ends)] at isWord
  cases isWord

theorem endsLine_of_isDelimiter {d : Delimiter} (is : t.isDelimiter d = true) :
    t.kind.endsLine = false := by
  rw [(eq_of_beq is : t.kind = .delimiter d)]
  rfl

theorem isWord_of_isDelimiter {d : Delimiter} (is : t.isDelimiter d = true) :
    t.kind.isWord = false := by
  rw [(eq_of_beq is : t.kind = .delimiter d)]
  rfl

theorem isDelimiter_of_isWord (isWord : t.kind.isWord = true) (d : Delimiter) :
    t.isDelimiter d = false := by
  refine Bool.eq_false_iff.2 fun is => ?_
  rw [isWord_of_isDelimiter is] at isWord
  cases isWord

theorem argument_tokens (wholeLine : Bool) (depth : Nat) (inLine : InLine tokens)
    (enclosed : wholeLine = false → ∀ front v back, tokens = front ++ v :: back →
      v.isDelimiter .comma = true → front.foldl parensAfter depth ≠ 0)
    (stops : u.kind.endsLine = true ∨
      u.isDelimiter .comma = true ∧ wholeLine = false ∧ tokens.foldl parensAfter depth = 0)
    (rest : List Token) :
    argument wholeLine depth (tokens ++ u :: rest) = ⟨tokens, u :: rest⟩ := by
  induction tokens generalizing depth with
  | nil =>
      rcases stops with ends | ⟨comma, part, closed⟩
      · rw [List.nil_append, argument, if_pos ends]
      · have level : depth = 0 := closed
        rw [List.nil_append, argument, if_neg (by simp [endsLine_of_isDelimiter comma]),
          if_pos ⟨comma, level, part⟩]
  | cons t tokens ih =>
      obtain ⟨here, later⟩ := List.forall_mem_cons.1 inLine
      have within : ¬ (t.isDelimiter .comma = true ∧ depth = 0 ∧ wholeLine = false) := by
        rintro ⟨comma, level, part⟩
        exact enclosed part [] t tokens rfl comma level
      have read := ih (parensAfter depth t) later
        (fun part front v back cut comma =>
          enclosed part (t :: front) v back (congrArg (t :: ·) cut) comma) stops
      rw [List.cons_append, argument, if_neg (by simp [here]), if_neg within]
      exact congrArg (Window.cons t) read

theorem Arguments.argument_eq (arguments : Arguments)
    (stops : u.kind.endsLine = true ∨
      u.isDelimiter .comma = true ∧ openParens arguments.tokens = 0) (rest : List Token) :
    argument false 0 (arguments.tokens ++ u :: rest) = ⟨arguments.tokens, u :: rest⟩ :=
  argument_tokens false 0 arguments.inLine (fun _ => arguments.enclosed)
    (stops.imp_right fun ⟨comma, closed⟩ => ⟨comma, rfl, closed⟩) rest

theorem file_tokens (file : FileTokens) (ends : endsFile u = true) (rest : List Token) :
    (file.tokens ++ u :: rest).takeWhile (fun t => !endsFile t) = file.tokens ∧
      (file.tokens ++ u :: rest).dropWhile (fun t => !endsFile t) = u :: rest := by
  have inside (t : Token) (member : t ∈ file.tokens) : (!endsFile t) = true := by
    obtain ⟨inLine, noParen, noComma⟩ := file.inFile t member
    simp [endsFile, inLine, noParen, noComma]
  constructor
  · rw [List.takeWhile_append_of_pos inside, List.takeWhile_cons_of_neg (by simp [ends]),
      List.append_nil]
  · rw [List.dropWhile_append_of_pos inside, List.dropWhile_cons_of_neg (by simp [ends])]

theorem sections_breaks (breaks : List LineBreak) (rest : List Token) :
    sections 0 (breaks.flatMap LineBreak.tokens ++ rest) = sections 0 rest := by
  induction breaks with
  | nil => rfl
  | cons first breaks ih =>
      rw [List.flatMap_cons, List.append_assoc, LineBreak.tokens, List.cons_append,
        List.cons_append, List.nil_append, sections_cons, if_pos first.lineEnd.ends]
      simp only [first.mark.marks, if_true]
      exact ih

theorem sections_part (part : SectionPart) (rest : List Token) :
    sections 0 (part.tokens ++ rest) = (sections 0 rest).cons part.word.token := by
  have isWord := part.word.isWord
  rw [SectionPart.tokens, List.append_assoc, sections_breaks, List.cons_append, sections_cons,
    endsLine_of_isWord isWord, isDelimiter_of_isWord isWord, isDelimiter_of_isWord isWord, isWord]
  simp [sections_breaks]

theorem sections_comma (comma : TokenOf (.delimiter .comma)) (rest : List Token) :
    sections 0 (comma.token :: rest) = sections 0 rest := by
  have is := isDelimiter_self comma
  rw [sections_cons, endsLine_of_isDelimiter is, isWord_of_isDelimiter is,
    delimiter_isDelimiter comma, delimiter_isDelimiter comma]
  simp

theorem sections_list (parts : Separated SectionPart) (closed : TokenOf (.delimiter .rParen))
    (rest : List Token) :
    sections 0 (parts.tokens SectionPart.tokens ++ closed.token :: rest) =
      ⟨parts.items.map fun part => part.word.token, rest⟩ := by
  induction parts with
  | one part =>
      have is := isDelimiter_self closed
      have ends : sections 0 (closed.token :: rest) = ⟨[], rest⟩ := by
        rw [sections_cons, endsLine_of_isDelimiter is, delimiter_isDelimiter closed, is]
        simp
      rw [Separated.tokens, sections_part, ends]
      rfl
  | more part comma others ih =>
      rw [Separated.tokens, List.append_assoc, List.cons_append, sections_part, sections_comma, ih]
      rfl

def DirectivePart.item (part : DirectivePart) : DirectiveItem :=
  ⟨part.word.token, part.name, part.argument?, part.fileText, part.sections⟩

def DirectivePart.Stops (part : DirectivePart) (u : Token) : Prop :=
  u.kind.endsLine = true ∨ u.isDelimiter .comma = true ∧ part.EndsAtComma

theorem sourceItem_part (word : WordFor (some .source)) (file : FileTokens)
    (sections? : Option SectionList)
    (stops : u.kind.endsLine = true ∨ u.isDelimiter .comma = true) (rest : List Token) :
    let part := DirectivePart.source word file sections?
    sourceItem word.token (part.tail ++ u :: rest) = (part.item, u :: rest) := by
  cases sections? with
  | none =>
      have ends : endsFile u = true := by
        rcases stops with ends | comma <;> simp [endsFile, *]
      have noList : opensWith (u :: rest) .lParen = false := by
        rcases stops with ends | comma
        · exact not_isDelimiter_of_isLayout (isLayout_of_endsLine ends) _
        · exact isDelimiter_eq_false (by decide) comma
      obtain ⟨taken, left⟩ := file_tokens file ends rest
      simp only [DirectivePart.tail, optional, Option.map_none, Option.getD_none, List.append_nil,
        sourceItem, taken, left, noList]
      rfl
  | some list =>
      have ends : endsFile list.opened.token = true := by
        simp [endsFile, isDelimiter_self list.opened]
      have opens (rest : List Token) : opensWith (list.opened.token :: rest) .lParen = true :=
        isDelimiter_self list.opened
      have written : (file.tokens ++ list.tokens) ++ u :: rest = file.tokens ++ list.opened.token ::
          (list.parts.tokens SectionPart.tokens ++ list.closed.token :: u :: rest) := by
        simp [SectionList.tokens]
      obtain ⟨taken, left⟩ := file_tokens file ends
        (list.parts.tokens SectionPart.tokens ++ list.closed.token :: u :: rest)
      simp only [DirectivePart.tail, optional, Option.map_some, Option.getD_some, written,
        sourceItem, taken, left, opens, if_true, List.tail_cons, sections_list]
      rfl

theorem targetItem_part (word : WordFor (some .target)) (system? : Option TargetToken)
    (stops : u.kind.endsLine = true ∨ u.isDelimiter .comma = true) (rest : List Token) :
    let part := DirectivePart.target word system?
    targetItem word.token (part.tail ++ u :: rest) = (part.item, u :: rest) := by
  cases system? with
  | none =>
      simp only [DirectivePart.tail, optional, Option.map_none, Option.getD_none, List.nil_append,
        targetItem, if_pos stops]
      rfl
  | some system =>
      have within :
          ¬ (system.token.kind.endsLine = true ∨ system.token.isDelimiter .comma = true) := by
        simp [system.inLine, system.noComma]
      simp only [DirectivePart.tail, optional, Option.map_some, Option.getD_some,
        List.singleton_append, targetItem, if_neg within]
      rfl

theorem directiveItem_other {d : Directive} (named : Directive.ofSpelling? t.text = some d)
    (noSource : d ≠ .source) (noTarget : d ≠ .target) (tokens : List Token) :
    directiveItem t tokens =
      match d.form with
      | .simple => ({ token := t, name := d.spelling }, tokens)
      | .complex => argumentItem t d.spelling (d == .assertion) tokens := by
  rw [directiveItem, named]
  split
  case h_1 same => exact absurd (Option.some.inj same) noSource
  case h_2 same => exact absurd (Option.some.inj same) noTarget
  case h_3 same =>
    cases same
    rfl
  case h_4 same => cases same

theorem argumentItem_eq {wholeLine : Bool}
    (read : argument wholeLine 0 (tokens ++ u :: rest) = ⟨tokens, u :: rest⟩) (name : String) :
    argumentItem t name wholeLine (tokens ++ u :: rest) =
      ({ token := t, name, argument? := argumentText? tokens }, u :: rest) := by
  simp only [argumentItem, read]
  rfl

theorem directiveItem_part (part : DirectivePart) (stops : part.Stops u) (rest : List Token) :
    directiveItem part.word.token (part.tail ++ u :: rest) = (part.item, u :: rest) := by
  cases part with
  | simple d form word =>
      have other (e : Directive) (takesMore : e.form = .complex) : d ≠ e := by
        rintro rfl
        cases takesMore.symm.trans form
      have plain := directiveItem_other word.named (other .source rfl) (other .target rfl)
      rw [DirectivePart.word, plain, form]
      rfl
  | complex d form other word arguments =>
      obtain ⟨noSource, noTarget, noAssertion⟩ := other
      rw [DirectivePart.word, directiveItem_other word.named noSource noTarget, form,
        beq_false_of_ne noAssertion]
      exact argumentItem_eq (arguments.argument_eq stops rest) d.spelling
  | unknown word arguments =>
      simp only [DirectivePart.word, directiveItem, word.named]
      exact argumentItem_eq (arguments.argument_eq stops rest) word.token.text
  | target word system? =>
      simp only [DirectivePart.word, directiveItem, word.named]
      exact targetItem_part word system? (stops.imp_right And.left) rest
  | source word file sections? =>
      simp only [DirectivePart.word, directiveItem, word.named]
      exact sourceItem_part word file sections? (stops.imp_right And.left) rest
  | assertion word arguments inLine =>
      rw [DirectivePart.word, directiveItem_other word.named (by decide) (by decide)]
      have ends : u.kind.endsLine = true := stops.resolve_right And.right
      have wholeLine : ¬ true = false := by decide
      exact argumentItem_eq
        (argument_tokens true 0 inLine (fun part => absurd part wholeLine) (.inl ends) rest)
        (Directive.spelling .assertion)

theorem directiveLine_part (part : DirectivePart) (stops : part.Stops u) (rest : List Token) :
    directiveLine (part.tokens ++ u :: rest) =
      (part.item :: (directiveLine (u :: rest)).1, (directiveLine (u :: rest)).2) := by
  have isWord := part.word.isWord
  rw [DirectivePart.tokens, List.cons_append, directiveLine, endsLine_of_isWord isWord, isWord]
  simp only [Bool.false_eq_true, if_false, if_true, directiveItem_part part stops]

theorem directiveLine_end (lineEnd : LineEnd) (rest : List Token) :
    directiveLine (lineEnd.token :: rest) = ([], rest) := by
  rw [directiveLine, if_pos lineEnd.ends]

theorem directiveLine_comma (comma : TokenOf (.delimiter .comma)) (rest : List Token) :
    directiveLine (comma.token :: rest) = directiveLine rest := by
  have is := isDelimiter_self comma
  rw [directiveLine, endsLine_of_isDelimiter is, isWord_of_isDelimiter is]
  simp

theorem directiveLine_parts (parts : DirectiveParts) (lineEnd : LineEnd) (rest : List Token) :
    directiveLine (parts.tokens ++ lineEnd.token :: rest) =
      (parts.items.map DirectivePart.item, rest) := by
  induction parts with
  | last part =>
      rw [DirectiveParts.tokens, directiveLine_part part (.inl lineEnd.ends), directiveLine_end]
      rfl
  | more part ends comma others ih =>
      rw [DirectiveParts.tokens, List.append_assoc, List.cons_append,
        directiveLine_part part (.inr ⟨isDelimiter_self comma, ends⟩), directiveLine_comma, ih]
      rfl

theorem step_lineOfDirectives (line : LineOfDirectives) (s : State) (rest : List Token) :
    step s line.mark.token (line.tail ++ rest) =
        ⟨(line.symbols s.context).map .symbol, s.atStart, rest⟩ ∧
      findings s (line.tokens ++ rest) =
        (line.symbols s.context).map .symbol ++ findings s.atStart rest := by
  have written : line.tail ++ rest = line.parts.tokens ++ line.lineEnd.token :: rest := by
    simp [LineOfDirectives.tail]
  have read : step s line.mark.token (line.tail ++ rest) =
      ⟨(line.symbols s.context).map .symbol, s.atStart, rest⟩ := by
    rw [step_of_marksDirective line.mark.marks, directiveStep, written,
      directiveLine_parts, List.flatMap_map, LineOfDirectives.symbols, List.map_flatMap]
    rfl
  refine ⟨read, ?_⟩
  rw [LineOfDirectives.tokens, List.cons_append, findings_cons, read]

theorem enclosed_of_take
    (enclosed : ∀ i, ∀ inside : i < tokens.length, tokens[i].isDelimiter .comma = true →
      openParens (tokens.take i) ≠ 0) :
    ∀ front t back, tokens = front ++ t :: back → t.isDelimiter .comma = true →
      openParens front ≠ 0 := by
  rintro front t back rfl comma
  have inside : front.length < (front ++ t :: back).length := by simp
  simpa [comma] using enclosed front.length inside

def pairArguments : Arguments where
  tokens := [(plainMark .lParen).token, (plainToken (.number 1) "1").token,
    (plainMark .comma).token, (plainToken (.number 2) "2").token, (plainMark .rParen).token]
  inLine := by decide
  enclosed := enclosed_of_take (by decide)

theorem openParens_pairArguments : openParens pairArguments.tokens = 0 := by decide

def plainSection (name : String) (lead : List LineBreak) : SectionPart :=
  ⟨lead, ⟨(plainName name).token, rfl⟩, []⟩

/-- The line `?SOURCE f(a,` with the further line `?b), TARGET tns, my (1, 2), LIST,
COLUMNS (1, 2), ASSERTION 5, x`. -/
def continuedLine : LineOfDirectives :=
  let mark : DirectiveMark := ⟨(plainToken .directive "?").token, rfl⟩
  let lineEnd : LineEnd := ⟨(plainToken .newLine "\n").token, rfl⟩
  let comma := plainMark .comma
  let sections : SectionList := ⟨plainMark .lParen,
    .more (plainSection "a" []) comma (.one (plainSection "b" [⟨lineEnd, mark⟩])),
    plainMark .rParen⟩
  let source : DirectivePart :=
    .source ⟨⟨(plainName "SOURCE").token, rfl⟩, by decide⟩
      ⟨[(plainName "f").token], by decide⟩ (some sections)
  let target : DirectivePart :=
    .target ⟨⟨(plainName "target").token, rfl⟩, by decide⟩
      (some ⟨(plainName "tns").token, rfl, rfl⟩)
  let unknown : DirectivePart := .unknown ⟨⟨(plainName "my").token, rfl⟩, by decide⟩ pairArguments
  let list : DirectivePart := .simple .list rfl ⟨⟨(plainName "list").token, rfl⟩, by decide⟩
  let columns : DirectivePart :=
    .complex .columns rfl (by decide) ⟨⟨(plainName "COLUMNS").token, rfl⟩, by decide⟩ pairArguments
  let assertion : DirectivePart :=
    .assertion ⟨⟨(plainName "ASSERTION").token, rfl⟩, by decide⟩
      [(plainToken (.number 5) "5").token, comma.token, (plainName "x").token] (by decide)
  ⟨mark, .more source trivial comma (.more target trivial comma
    (.more unknown openParens_pairArguments comma (.more list trivial comma
      (.more columns openParens_pairArguments comma (.last assertion))))), lineEnd⟩

theorem step_lineOfDirectives_continued :
    let after := [(plainToken (.dataType .int) "INT").token]
    (continuedLine.symbols globalContext).map (fun x => (x.key.render, x.value.render)) =
        [("Global.SOURCE", "f"), ("f.a", ""), ("f.b", ""), ("Global.TARGET", "tns"),
          ("Global.my", "(1,2)"), ("Global.LIST", ""), ("Global.COLUMNS", "(1,2)"),
          ("Global.ASSERTION", "5,x")] ∧
      step {} continuedLine.mark.token (continuedLine.tail ++ after) =
        ⟨(continuedLine.symbols globalContext).map .symbol, {}, after⟩ ∧
      findings {} (continuedLine.tokens ++ after) =
        (continuedLine.symbols globalContext).map .symbol ++ findings {} after :=
  ⟨by decide +kernel, step_lineOfDirectives continuedLine {} _⟩

end TalAnalysis.Declaration
