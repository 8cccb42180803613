import Mathlib.Data.List.DropRight
import TalAnalysis.Proofs.Declaration.Lists.Bracket

namespace TalAnalysis.Declaration

variable {tokens rest : List Token} {t : Token} {opening closing : Delimiter}

/-! ## Layout and separators -/

theorem skipLayout_gap (gap : Gap) (significant : t.kind.isLayout = false) (rest : List Token) :
    skipLayout (gap.tokens ++ t :: rest) = t :: rest := by
  rw [skipLayout, List.dropWhile_append_of_pos gap.layout, List.dropWhile_cons_of_neg]
  rw [significant]
  exact Bool.false_ne_true

theorem delimiter_not_isLayout {d : Delimiter} (t : TokenOf (.delimiter d)) :
    t.token.kind.isLayout = false := by
  rw [t.ofKind]
  rfl

theorem name_not_isLayout (name : NameToken) : name.token.kind.isLayout = false := by
  obtain ⟨spelling, kind⟩ := kind_of_isName name.isName
  rw [kind]
  rfl

theorem not_isLayout_of_separates (sep : separates t = true) : t.kind.isLayout = false := by
  cases layout : t.kind.isLayout with
  | false => rfl
  | true =>
      rw [separates, not_isDelimiter_of_isLayout layout, not_isDelimiter_of_isLayout layout] at sep
      cases sep

theorem separates_comma (comma : TokenOf (.delimiter .comma)) :
    separates comma.token = true := by
  rw [separates, delimiter_isDelimiter]
  rfl

theorem separates_stop (stop : TokenOf (.delimiter .semicolon)) :
    separates stop.token = true := by
  rw [separates, delimiter_isDelimiter, delimiter_isDelimiter]
  rfl

theorem isDelimiter_of_separates (sep : separates t = true) {d : Delimiter}
    (noComma : d ≠ .comma) (noSemicolon : d ≠ .semicolon) : t.isDelimiter d = false := by
  rw [separates, Bool.or_eq_true] at sep
  rcases sep with comma | semicolon
  · exact isDelimiter_eq_false noComma.symm comma
  · exact isDelimiter_eq_false noSemicolon.symm semicolon

theorem listEnd_gap_comma (gap : Gap) (comma : TokenOf (.delimiter .comma)) (rest : List Token) :
    listEnd (gap.tokens ++ comma.token :: rest) = .another rest := by
  have isComma := isDelimiter_self comma
  rw [listEnd, skipLayout_gap gap (delimiter_not_isLayout comma)]
  simp [isComma]

theorem listEnd_gap_stop (gap : Gap) (stop : TokenOf (.delimiter .semicolon)) (rest : List Token) :
    listEnd (gap.tokens ++ stop.token :: rest) = .closed rest := by
  rw [listEnd, skipLayout_gap gap (delimiter_not_isLayout stop), ← listEnd_stop, listEnd,
    skipLayout_stop]

theorem isName_gap (gap : Gap) : ∀ t ∈ gap.tokens, t.kind.isName = false := by
  intro t member
  rcases kind_of_isLayout (gap.layout t member) with kind | kind | kind <;> rw [kind] <;> rfl

theorem isDelimiter_gap (gap : Gap) : ∀ t ∈ gap.tokens, ∀ d, t.isDelimiter d = false :=
  fun t member d => not_isDelimiter_of_isLayout (gap.layout t member) d

theorem fromName_gap (gap : Gap) (name : NameToken) (rest : List Token) :
    fromName (gap.tokens ++ name.token :: rest) = name.token :: rest := by
  have passed (t : Token) (member : t ∈ gap.tokens) :
      (!(t.kind.isName || t.isDelimiter .semicolon)) = true := by
    rw [isName_gap gap t member, isDelimiter_gap gap t member]
    rfl
  rw [fromName, List.dropWhile_append_of_pos passed, List.dropWhile_cons_of_neg]
  simp [name.isName]

/-! ## Lists of names -/

section Lists

variable {α β : Type} {item : Token → List Token → α × List Token}
  {tail : ∀ name tokens, (item name tokens).2 <:+ tokens} {write : β → List Token} {found : β → α}

def Reads (item : Token → List Token → α × List Token) (write : β → List Token) (found : β → α) :
    Prop :=
  ∀ part, ∃ (lead trail : Gap) (name : NameToken) (body : List Token),
    write part = lead.tokens ++ name.token :: body ∧
      ∀ t rest, separates t = true →
        item name.token (body ++ t :: rest) = (found part, trail.tokens ++ t :: rest)

theorem namedItems_separated (reads : Reads item write found) (parts : Separated β)
    (stop : TokenOf (.delimiter .semicolon)) (rest : List Token) :
    namedItems item tail (parts.tokens write ++ stop.token :: rest) =
      ⟨parts.items.map found, true, rest⟩ := by
  induction parts with
  | one part =>
      obtain ⟨lead, trail, name, body, written, read⟩ := reads part
      have first := fromName_gap lead name (body ++ stop.token :: rest)
      rw [Separated.tokens, written, List.append_assoc, List.cons_append,
        namedItems_name first name.isName, read _ _ (separates_stop stop), listEnd_gap_stop]
      rfl
  | more part comma others ih =>
      obtain ⟨lead, trail, name, body, written, read⟩ := reads part
      have first := fromName_gap lead name
        (body ++ comma.token :: (others.tokens write ++ stop.token :: rest))
      simp only [Separated.tokens, written, List.append_assoc, List.cons_append]
      rw [namedItems_name first name.isName, read _ _ (separates_comma comma), listEnd_gap_comma]
      simp only [ih]
      rfl

end Lists

def LiteralPart.item (part : LiteralPart) : LiteralItem := ⟨part.name.token, part.value.tokens⟩

theorem literalItem_reads : Reads literalItem LiteralPart.tokens LiteralPart.item := by
  intro part
  refine ⟨part.lead, .none, part.name, _, rfl, fun t rest sep => ?_⟩
  have equal := isDelimiter_self part.equal
  rw [List.append_assoc, List.cons_append, literalItem,
    skipLayout_gap part.gap (delimiter_not_isLayout part.equal), skipEqual, if_pos equal,
    value_tokens part.value sep]
  rfl

/-! ## DEFINE -/

theorem isDelimiter_formal (formal : Formal) :
    ∀ t ∈ formal.tokens, ∀ d, t.isDelimiter d = false := by
  intro t member d
  rcases List.mem_append.1 member with lead | later
  · exact isDelimiter_gap formal.lead t lead d
  · rcases List.mem_cons.1 later with rfl | trail
    · exact name_isDelimiter formal.name d
    · exact isDelimiter_gap formal.trail t trail d

theorem inside_append_plain (plain : ∀ t ∈ tokens, ∀ d, t.isDelimiter d = false) (depth : Nat)
    (rest : List Token) :
    inside opening closing depth (tokens ++ rest) =
      ⟨tokens ++ (inside opening closing depth rest).inside,
        (inside opening closing depth rest).rest⟩ := by
  induction tokens with
  | nil => rfl
  | cons t tokens ih =>
      obtain ⟨first, later⟩ := List.forall_mem_cons.1 plain
      have noComma : ¬ (depth = 0 ∧ t.isDelimiter .comma = true) := by simp [first]
      rw [List.cons_append, inside_cons, first, first, if_neg Bool.false_ne_true,
        if_neg Bool.false_ne_true, if_neg noComma, ih later]
      rfl

theorem inside_formals (names : Separated Formal) (closed : TokenOf (.delimiter .rParen))
    (rest : List Token) :
    inside .lParen .rParen 0 (names.tokens Formal.tokens ++ closed.token :: rest) =
      ⟨names.items.flatMap Formal.tokens, rest⟩ := by
  have stops : inside .lParen .rParen 0 (closed.token :: rest) = ⟨[], rest⟩ := by
    have opens : closed.token.isDelimiter .lParen = false := delimiter_isDelimiter closed _
    have closes := isDelimiter_self closed
    rw [inside_cons, opens, closes]
    rfl
  induction names with
  | one formal =>
      rw [Separated.tokens, inside_append_plain (isDelimiter_formal formal), stops]
      simp [Separated.items]
  | more formal comma others ih =>
      have opens : comma.token.isDelimiter .lParen = false := delimiter_isDelimiter comma _
      have closes : comma.token.isDelimiter .rParen = false := delimiter_isDelimiter comma _
      have isComma := isDelimiter_self comma
      rw [Separated.tokens, List.append_assoc, List.cons_append,
        inside_append_plain (isDelimiter_formal formal), inside_cons, opens, closes,
        if_neg Bool.false_ne_true, if_neg Bool.false_ne_true, if_pos ⟨rfl, isComma⟩, ih]
      rfl

def DefinePart.window (part : DefinePart) : List Token :=
  part.formals?.toList.flatMap fun formals => formals.names.items.flatMap Formal.tokens

theorem parenthesized_formals (part : DefinePart) (rest : List Token) :
    ∃ gap : Gap, parenthesized (skipLayout (optional Formals.tokens part.formals? ++
        (part.gap.tokens ++ part.equal.token :: rest))) =
      ⟨part.window, gap.tokens ++ part.equal.token :: rest⟩ := by
  have noParen : part.equal.token.isDelimiter .lParen = false := delimiter_isDelimiter part.equal _
  have first := skipLayout_gap part.gap (delimiter_not_isLayout part.equal) rest
  rw [DefinePart.window, optional]
  cases part.formals? with
  | none =>
      refine ⟨.none, ?_⟩
      rw [Option.map_none, Option.getD_none, List.nil_append, first, parenthesized,
        between_of_other noParen]
      rfl
  | some formals =>
      refine ⟨part.gap, ?_⟩
      have opens := isDelimiter_self formals.opened
      rw [Option.map_some, Option.getD_some, Formals.tokens, List.append_assoc, List.cons_append,
        skipLayout_gap formals.lead (delimiter_not_isLayout formals.opened), parenthesized, between,
        if_pos opens, List.append_assoc, List.cons_append, inside_formals]
      simp

def DefinePart.item (part : DefinePart) : DefineItem :=
  ⟨part.name.token, part.window, some part.body, true⟩

theorem defineItem_reads : Reads defineItem DefinePart.tokens DefinePart.item := by
  intro part
  refine ⟨part.lead, part.trail, part.name, _, rfl, fun t rest sep => ?_⟩
  simp only [List.append_assoc, List.cons_append]
  generalize part.trail.tokens ++ t :: rest = left
  have equal := isDelimiter_self part.equal
  have hash := isDelimiter_self part.hash
  obtain ⟨gap, parameters⟩ := parenthesized_formals part (part.body ++ part.hash.token :: left)
  have noise (u : Token) (member : u ∈ gap.tokens) :
      (!(u.isDelimiter .equal || u.isDelimiter .semicolon)) = true := by
    rw [isDelimiter_gap gap u member, isDelimiter_gap gap u member]
    rfl
  have inBody (u : Token) (member : u ∈ part.body) : (!u.isDelimiter .hash) = true := by
    rw [part.unmarked u member]
    rfl
  have found : (parenthesized (skipLayout (optional Formals.tokens part.formals? ++
        (part.gap.tokens ++ part.equal.token ::
          (part.body ++ part.hash.token :: left))))).rest.dropWhile
      (fun t => !(t.isDelimiter .equal || t.isDelimiter .semicolon)) =
        part.equal.token :: (part.body ++ part.hash.token :: left) := by
    rw [parameters, List.dropWhile_append_of_pos noise, List.dropWhile_cons_of_neg]
    simp [equal]
  have body : (part.body ++ part.hash.token :: left).takeWhile (fun t => !t.isDelimiter .hash) =
      part.body := by
    rw [List.takeWhile_append_of_pos inBody, List.takeWhile_cons_of_neg (by simp [hash]),
      List.append_nil]
  have after : (part.body ++ part.hash.token :: left).dropWhile (fun t => !t.isDelimiter .hash) =
      part.hash.token :: left := by
    rw [List.dropWhile_append_of_pos inBody, List.dropWhile_cons_of_neg (by simp [hash])]
  rw [defineItem_cons found, if_pos equal, body, after, parameters]
  rfl

theorem filter_formal (formal : Formal) :
    formal.tokens.filter (fun t => t.kind.isName) = [formal.name.token] := by
  have lead : formal.lead.tokens.filter (fun t => t.kind.isName) = [] :=
    List.filter_eq_nil_iff.2 fun t member => by simp [isName_gap formal.lead t member]
  have trail : formal.trail.tokens.filter (fun t => t.kind.isName) = [] :=
    List.filter_eq_nil_iff.2 fun t member => by simp [isName_gap formal.trail t member]
  rw [Formal.tokens, List.filter_append, lead,
    List.filter_cons_of_pos (p := fun t : Token => t.kind.isName) formal.name.isName, trail]
  rfl

theorem filter_window (part : DefinePart) :
    part.window.filter (fun t => t.kind.isName) = part.formals := by
  rw [DefinePart.window, DefinePart.formals, List.filter_flatMap]
  refine congrArg (part.formals?.toList.flatMap ·) (funext fun formals => ?_)
  rw [List.filter_flatMap, List.map_eq_flatMap]
  exact congrArg (formals.names.items.flatMap ·) (funext filter_formal)

theorem findings_definePart (context : String) (part : DefinePart) :
    part.item.findings context = (part.symbols context).map .symbol := by
  simp [DefinePart.item, DefineItem.findings, DefinePart.symbols, filter_window]

/-! ## Variables -/

theorem opensWith_gap (gap : Gap) (significant : t.kind.isLayout = false) (rest : List Token)
    (d : Delimiter) : opensWith (skipLayout (gap.tokens ++ t :: rest)) d = t.isDelimiter d := by
  rw [skipLayout_gap gap significant]
  rfl

theorem skipLayout_skipLayout (tokens : List Token) :
    skipLayout (skipLayout tokens) = skipLayout tokens :=
  List.dropWhile_idempotent _ _

theorem skipLayout_group (apart : opening ≠ closing) (group? : Option (Group opening closing))
    (other : opensWith (skipLayout rest) opening = false) :
    skipLayout (between opening closing (skipLayout (optional Group.tokens group? ++ rest))).rest =
      skipLayout rest := by
  cases group? with
  | none =>
      rw [optional, Option.map_none, Option.getD_none, List.nil_append]
      cases next : skipLayout rest with
      | nil => rfl
      | cons t more =>
          rw [next] at other
          rw [between_of_other other, ← next, skipLayout_skipLayout]
  | some group =>
      rw [optional, Option.map_some, Option.getD_some, Group.tokens, List.append_assoc,
        List.cons_append, skipLayout_gap group.lead (delimiter_not_isLayout group.opened),
        List.append_assoc, List.cons_append, List.nil_append,
        rest_between apart group.opened group.closed group.balanced]

theorem initial?_part (initial : Option Initial) (sep : separates t = true) (rest : List Token) :
    ∃ u more, optional Initial.tokens initial ++ t :: rest = u :: more ∧
      u.kind.isLayout = false ∧ u.isDelimiter .lParen = false ∧ u.isDelimiter .lBracket = false ∧
      initial? (u :: more) = (initial.map fun i => i.value.tokens, t :: rest) := by
  cases initial with
  | none =>
      have noEqual := isDelimiter_of_separates sep (d := .equal) (by decide) (by decide)
      have noAssign : t.kind ≠ .operator .assign := by
        intro kind
        simp [separates, Token.isDelimiter, kind] at sep
      refine ⟨t, rest, rfl, not_isLayout_of_separates sep,
        isDelimiter_of_separates sep (by decide) (by decide),
        isDelimiter_of_separates sep (by decide) (by decide), ?_⟩
      rw [initial?, if_neg (by simp [noAssign, noEqual])]
      rfl
  | some initial =>
      have assigns : initial.sign.kind = .operator .assign ∨
          initial.sign.isDelimiter .equal = true := by
        simpa [Token.isDelimiter] using initial.assigns
      refine ⟨initial.sign, initial.value.tokens ++ t :: rest, rfl, ?_, ?_, ?_, ?_⟩
      · rcases initial.assigns with kind | kind <;> rw [kind] <;> rfl
      · rcases initial.assigns with kind | kind <;> rw [Token.isDelimiter, kind] <;> rfl
      · rcases initial.assigns with kind | kind <;> rw [Token.isDelimiter, kind] <;> rfl
      · rw [initial?, if_pos assigns, value_tokens initial.value sep]
        rfl

def VariablePart.item (part : VariablePart) : VariableItem :=
  ⟨part.name.token, part.initial?.map fun i => i.value.tokens⟩

theorem variableItem_part (part : VariablePart) (sep : separates t = true) (rest : List Token) :
    variableItem part.name.token (part.tail ++ t :: rest) = (part.item, t :: rest) := by
  obtain ⟨u, more, first, significant, noParen, noBracket, read⟩ :=
    initial?_part part.initial? sep rest
  let left := part.gap.tokens ++ u :: more
  have afterBounds : opensWith (skipLayout left) .lBracket = false := by
    rw [opensWith_gap part.gap significant, noBracket]
  have afterReferral :
      opensWith (skipLayout (optional Group.tokens part.bounds? ++ left)) .lParen = false := by
    cases part.bounds? with
    | none =>
        rw [optional, Option.map_none, Option.getD_none, List.nil_append,
          opensWith_gap part.gap significant, noParen]
    | some bounds =>
        rw [optional, Option.map_some, Option.getD_some, Group.tokens, List.append_assoc,
          List.cons_append, opensWith_gap bounds.lead (delimiter_not_isLayout bounds.opened),
          delimiter_isDelimiter]
        rfl
  have written : part.tail ++ t :: rest = optional Group.tokens part.referral? ++
      (optional Group.tokens part.bounds? ++ left) := by
    simp only [VariablePart.tail, List.append_assoc, first, left]
  have referral := skipLayout_group (by decide) part.referral? afterReferral
  have bounds := skipLayout_group (by decide) part.bounds? afterBounds
  rw [variableItem, written, parenthesized, bracketed, referral, bounds,
    skipLayout_gap part.gap significant, read]
  rfl

def OpensVariable (t : Token) : Prop := t.kind.marksPointer = true ∨ t.kind.isName = true

theorem OpensVariable.not_isLayout (opens : OpensVariable t) : t.kind.isLayout = false := by
  rcases opens with marks | isName
  · cases layout : t.kind.isLayout with
    | false => rfl
    | true =>
        rcases kind_of_isLayout layout with kind | kind | kind <;> rw [kind] at marks <;>
          cases marks
  · exact name_not_isLayout ⟨t, isName⟩

theorem OpensVariable.isDelimiter (opens : OpensVariable t) {d : Delimiter} (noDot : d ≠ .dot) :
    t.isDelimiter d = false := by
  rcases opens with marks | isName
  · cases same : t.isDelimiter d with
    | false => rfl
    | true =>
        have kind : t.kind = .delimiter d := eq_of_beq same
        rw [kind] at marks
        cases d <;> first | exact absurd rfl noDot | cases marks
  · exact name_isDelimiter ⟨t, isName⟩ d

theorem OpensVariable.not_opensProcedure (opens : OpensVariable t) : opensProcedure t = false := by
  cases same : opensProcedure t with
  | false => rfl
  | true =>
      simp only [opensProcedure, Token.isKeyword, Bool.or_eq_true, beq_iff_eq] at same
      rcases opens with marks | isName <;> rcases same with kind | kind <;>
        simp_all [TokenKind.marksPointer, TokenKind.isName, TokenKind.name?]

namespace VariablePart

theorem skipLayout_tokens (part : VariablePart) (rest : List Token) :
    skipLayout (part.tokens ++ rest) = part.marks ++ part.name.token :: (part.tail ++ rest) ∧
      ∃ t more, part.marks ++ part.name.token :: (part.tail ++ rest) = t :: more ∧
        OpensVariable t := by
  have opens : ∃ t more, part.marks ++ part.name.token :: (part.tail ++ rest) = t :: more ∧
      OpensVariable t := by
    cases marks : part.marks with
    | nil => exact ⟨part.name.token, _, rfl, .inr part.name.isName⟩
    | cons t more =>
        exact ⟨t, _, rfl, .inl (part.pointers t (marks ▸ List.mem_cons_self))⟩
  refine ⟨?_, opens⟩
  obtain ⟨t, more, first, opens⟩ := opens
  rw [tokens, List.append_assoc, List.append_assoc, List.cons_append, first,
    skipLayout_gap part.lead opens.not_isLayout]

theorem skipPointers_tokens (part : VariablePart) (rest : List Token) :
    skipPointers (skipLayout (part.tokens ++ rest)) = part.name.token :: (part.tail ++ rest) := by
  obtain ⟨spelling, kind⟩ := kind_of_isName part.name.isName
  rw [(part.skipLayout_tokens rest).1, skipPointers, List.dropWhile_append_of_pos part.pointers,
    List.dropWhile_cons_of_neg]
  rw [kind]
  exact Bool.false_ne_true

end VariablePart

theorem variableItems_separated (parts : Separated VariablePart)
    (stop : TokenOf (.delimiter .semicolon)) (rest : List Token) :
    variableItems (parts.tokens VariablePart.tokens ++ stop.token :: rest) =
      { items := parts.items.map VariablePart.item, closed := true, rest } := by
  induction parts with
  | one part =>
      rw [Separated.tokens, variableItems_name (part.skipPointers_tokens _) part.name.isName,
        variableItem_part part (separates_stop stop), listEnd_stop]
      rfl
  | more part comma others ih =>
      have another (rest : List Token) : listEnd (comma.token :: rest) = .another rest :=
        listEnd_gap_comma .none comma rest
      rw [Separated.tokens, List.append_assoc, List.cons_append,
        variableItems_name (part.skipPointers_tokens _) part.name.isName,
        variableItem_part part (separates_comma comma), another]
      simp only [ih]
      rfl

theorem variableItems_skipLayout (tokens : List Token) :
    variableItems (skipLayout tokens) = variableItems tokens := by
  have same : skipPointers (skipLayout (skipLayout tokens)) = skipPointers (skipLayout tokens) := by
    rw [skipLayout_skipLayout]
  cases found : skipPointers (skipLayout tokens) with
  | nil => rw [variableItems_nil (same.trans found), variableItems_nil found]
  | cons t rest =>
      cases isName : t.kind.isName with
      | true => rw [variableItems_name (same.trans found) isName, variableItems_name found isName]
      | false =>
          rw [variableItems_missing (same.trans found) isName, variableItems_missing found isName]

end TalAnalysis.Declaration
