import TalAnalysis.Proofs.Declaration.Extension.Run
import TalAnalysis.Proofs.Declaration.Lists.Item

namespace TalAnalysis.Declaration

variable {tokens rest : List Token} {t : Token}

def pastWidth (tokens : List Token) : List Token := skipLayout (skipWidth tokens)

def pastParenthesis (tokens : List Token) : List Token :=
  skipLayout (tokens.dropWhile fun t => !t.isDelimiter .rParen).tail

def KeywordNext (tokens : List Token) : Prop :=
  ∃ keyword rest, tokens = keyword :: rest ∧
    (keyword.kind = .keyword .proc ∨ keyword.kind = .keyword .subproc)

theorem keywordNext_iff :
    KeywordNext tokens ↔ (tokens.head?.map opensProcedure).getD false = true := by
  cases tokens with
  | nil => simp [KeywordNext]
  | cons t rest => simp [KeywordNext, opensProcedure, Token.isKeyword]

instance (tokens : List Token) : Decidable (KeywordNext tokens) :=
  decidable_of_iff _ keywordNext_iff.symm

def OpensNested (tokens : List Token) : Prop :=
  opensWith tokens .lParen = true ∧
    ∃ t ∈ tokens.tail.takeWhile fun t => !t.isDelimiter .rParen, t.isDelimiter .lParen = true

instance (tokens : List Token) : Decidable (OpensNested tokens) :=
  inferInstanceAs (Decidable (_ ∧ _))

/-- Before the keyword of a procedure the width of a data type is no star and has no parentheses in
its own. -/
structure PlainWidth (tokens : List Token) : Prop where
  star : opensWith (skipLayout tokens) .templateStar = true → ¬ KeywordNext (pastWidth tokens)
  nested : OpensNested (skipLayout tokens) →
    ¬ KeywordNext (pastParenthesis (skipLayout tokens)) ∧ ¬ KeywordNext (pastWidth tokens)

instance (tokens : List Token) : Decidable (PlainWidth tokens) :=
  decidable_of_iff (_ ∧ _) ⟨fun h => ⟨h.1, h.2⟩, fun h => ⟨h.star, h.nested⟩⟩

theorem procedureFollows_iff :
    procedureFollows tokens = true ↔
      KeywordNext (if opensWith (skipLayout tokens) .lParen then
        pastParenthesis (skipLayout tokens) else skipLayout tokens) := by
  rw [keywordNext_iff]
  rfl

theorem rest_inside_open (open_ : ∀ t ∈ tokens, t.isDelimiter .rParen = false) (depth : Nat) :
    (inside .lParen .rParen depth tokens).rest = [] := by
  induction tokens generalizing depth with
  | nil => rfl
  | cons t tokens ih =>
      obtain ⟨first, others⟩ := List.forall_mem_cons.1 open_
      rw [inside_cons, first, if_neg Bool.false_ne_true]
      split
      · exact ih others _
      · split <;> exact ih others _

theorem pastWidth_flat (opens : opensWith (skipLayout tokens) .lParen = true)
    (flat : ¬ OpensNested (skipLayout tokens)) :
    pastWidth tokens = pastParenthesis (skipLayout tokens) := by
  obtain ⟨t, rest, stop, paren⟩ : ∃ t rest, skipLayout tokens = t :: rest ∧
      t.isDelimiter .lParen = true := by
    cases stop : skipLayout tokens with
    | nil => simp [stop, opensWith] at opens
    | cons t rest => exact ⟨t, rest, rfl, by simpa [stop, opensWith] using opens⟩
  have closes := isDelimiter_eq_false (e := .rParen) (by decide) paren
  have size : ∀ u ∈ rest.takeWhile fun u => !u.isDelimiter .rParen,
      u.isDelimiter .lParen = false ∧ u.isDelimiter .rParen = false := by
    intro u member
    refine ⟨?_, by simpa using List.mem_takeWhile_imp member⟩
    apply Bool.eq_false_iff.2
    intro again
    exact flat ⟨opens, u, by rwa [stop], again⟩
  rw [pastWidth, skipWidth_of_lParen stop paren, pastParenthesis, stop,
    List.dropWhile_cons_of_pos (by simp [closes])]
  have whole : rest.takeWhile (fun u => !u.isDelimiter .rParen) ++
      rest.dropWhile (fun u => !u.isDelimiter .rParen) = rest := List.takeWhile_append_dropWhile
  cases closing : rest.dropWhile fun u => !u.isDelimiter .rParen with
  | nil =>
      rw [rest_inside_open (by simpa using List.dropWhile_eq_nil_iff.1 closing)]
      rfl
  | cons u more =>
      have last : u.isDelimiter .rParen = true := by simpa using Text.not_of_dropWhile closing
      have passed := inside_closed (by decide : Delimiter.lParen ≠ .rParen)
        ⟨u, eq_of_beq last⟩ (balanced_flat size) more
      rw [closing] at whole
      rw [← whole, passed]
      rfl

theorem keywordNext_pastWidth (plain : PlainWidth tokens) :
    procedureFollows tokens = true ↔ KeywordNext (pastWidth tokens) := by
  rw [procedureFollows_iff]
  cases opens : opensWith (skipLayout tokens) .lParen with
  | true =>
      rw [if_pos rfl]
      by_cases nested : OpensNested (skipLayout tokens)
      · obtain ⟨noKeyword, noKeyword'⟩ := plain.nested nested
        exact iff_of_false noKeyword noKeyword'
      · rw [pastWidth_flat opens nested]
  | false =>
      rw [if_neg Bool.false_ne_true]
      cases star : opensWith (skipLayout tokens) .templateStar with
      | true =>
          refine iff_of_false ?_ (plain.star star)
          rintro ⟨keyword, rest, stop, kind⟩
          rcases kind with kind | kind <;>
            simp [stop, opensWith, Token.isDelimiter, kind] at star
      | false =>
          have none : skipWidth tokens = skipLayout tokens := by
            rw [skipWidth, star, if_neg Bool.false_ne_true, parenthesized]
            cases stop : skipLayout tokens with
            | nil => rfl
            | cons t rest =>
                rw [between_of_other (by simpa [stop, opensWith] using opens)]
          rw [pastWidth, none, skipLayout_skipLayout]

theorem skipQualifier_eq (noStar : opensWith (skipLayout tokens) .templateStar = false) :
    skipQualifier tokens = pastWidth tokens := by
  rw [skipQualifier, pastWidth, skipWidth, noStar, if_neg Bool.false_ne_true]

/-- From a data type that opens a statement, a procedure is read if its keyword comes after the
width, and it is read from that keyword on. All else is a declaration of variables. -/
theorem step_plainWidth (plain : PlainWidth tokens) :
    (procedureFollows tokens = true ↔ KeywordNext (pastWidth tokens)) ∧
    ∀ (s : State) (t : Token) (d : DataType), t.kind = .dataType d → s.statementStart = true →
      (KeywordNext (pastWidth tokens) →
        step s t tokens = procedureStep s (some d) (pastWidth tokens)) ∧
      (¬ KeywordNext (pastWidth tokens) → step s t tokens = variableStep s d tokens) := by
  have sees := keywordNext_pastWidth plain
  refine ⟨sees, fun s t d isType start => ?_⟩
  simp only [step, isType, start, if_true]
  refine ⟨fun next => ?_, fun noKeyword => ?_⟩
  · have noStar : opensWith (skipLayout tokens) .templateStar = false := by
      apply Bool.eq_false_iff.2
      exact fun star => plain.star star next
    rw [if_pos (sees.2 next), skipQualifier_eq noStar]
  · rw [if_neg (noKeyword ∘ sees.1)]

def sizedProcedure : List Token :=
  [(plainToken .comment "! c !").token, (plainMark .lParen).token,
    (plainToken (.number 32) "32").token, (plainMark .rParen).token,
    (plainToken .newLine "\n").token, (plainToken (.keyword .proc) "PROC").token,
    (plainName "p").token, plainStop.token]

theorem step_plainWidth_sized :
    PlainWidth sizedProcedure ∧ procedureFollows sizedProcedure = true ∧
      step {} (plainToken (.dataType .int) "INT").token sizedProcedure =
        procedureStep {} (some .int) (sizedProcedure.drop 5) := by
  have plain : PlainWidth sizedProcedure := by decide +kernel
  have next : KeywordNext (pastWidth sizedProcedure) := by decide +kernel
  obtain ⟨sees, reads⟩ := step_plainWidth plain
  exact ⟨plain, sees.2 next, (reads {} _ .int rfl rfl).1 next⟩

end TalAnalysis.Declaration
