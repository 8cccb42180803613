import TalAnalysis.Proofs.Declaration.Layout

/-!
# Copies of tokens

A copy of a list of tokens leaves out some of the layout and writes the other tokens at places of
its own, with the same gaps between them. Tokens without their comments are such a copy, and so are
the tokens of a text that stands further down in another one. Whatever asks only for classes of
tokens and for texts finds the same in a copy.
-/

namespace TalAnalysis.Declaration

/-- What a copy leaves out, and how it writes a token. The two marks of a directive may be written
one for the other. -/
structure TokenCopy where
  leavesOut : Token → Bool
  copy : Token → Token
  layout : ∀ t, leavesOut t = true → t.kind.isLayout = true
  kind : ∀ t, (copy t).kind = t.kind ∨
    t.kind.marksDirective = true ∧ (copy t).kind.marksDirective = true
  text : ∀ t, (copy t).text = t.text
  gap : ∀ t u, (copy t).span.stop < (copy u).span.start ↔ t.span.stop < u.span.start

namespace TokenCopy

variable (c : TokenCopy)

def tokens (ts : List Token) : List Token := (ts.filter fun t => !c.leavesOut t).map c.copy

def window (w : Window) : Window := ⟨c.tokens w.inside, c.tokens w.rest⟩

theorem not_isName_of_isLayout {t : Token} (layout : t.kind.isLayout = true) :
    t.kind.isName = false := by
  rcases kind_of_isLayout layout with kind | kind | kind <;> rw [kind] <;> rfl

theorem reads {α : Type} (P : TokenKind → α) (same : P .directive = P .directiveLine) (t : Token) :
    P (c.copy t).kind = P t.kind := by
  rcases c.kind t with kind | ⟨marks, marks'⟩
  · rw [kind]
  · rcases kind_of_marksDirective marks with kind | kind <;>
      rcases kind_of_marksDirective marks' with kind' | kind' <;> simp only [kind, kind', same]

@[simp] theorem isLayout_copy (t : Token) : (c.copy t).kind.isLayout = t.kind.isLayout :=
  c.reads TokenKind.isLayout rfl t

@[simp] theorem isName_copy (t : Token) : (c.copy t).kind.isName = t.kind.isName :=
  c.reads TokenKind.isName rfl t

@[simp] theorem isWord_copy (t : Token) : (c.copy t).kind.isWord = t.kind.isWord :=
  c.reads TokenKind.isWord rfl t

@[simp] theorem endsLine_copy (t : Token) : (c.copy t).kind.endsLine = t.kind.endsLine :=
  c.reads TokenKind.endsLine rfl t

@[simp] theorem marksPointer_copy (t : Token) :
    (c.copy t).kind.marksPointer = t.kind.marksPointer :=
  c.reads TokenKind.marksPointer rfl t

@[simp] theorem marksDirective_copy (t : Token) :
    (c.copy t).kind.marksDirective = t.kind.marksDirective :=
  c.reads TokenKind.marksDirective rfl t

@[simp] theorem keyword?_copy (t : Token) : (c.copy t).kind.keyword? = t.kind.keyword? :=
  c.reads TokenKind.keyword? rfl t

@[simp] theorem isDelimiter_copy (t : Token) (d : Delimiter) :
    (c.copy t).isDelimiter d = t.isDelimiter d :=
  c.reads (fun kind => kind == .delimiter d) rfl t

@[simp] theorem isKeyword_copy (t : Token) (k : Keyword) :
    (c.copy t).isKeyword k = t.isKeyword k :=
  c.reads (fun kind => kind == .keyword k) rfl t

@[simp] theorem text_copy (t : Token) : (c.copy t).text = t.text := c.text t

@[simp] theorem tokens_nil : c.tokens [] = [] := rfl

theorem tokens_cons_leftOut {t : Token} (left : c.leavesOut t = true) (ts : List Token) :
    c.tokens (t :: ts) = c.tokens ts := by
  rw [tokens, List.filter_cons_of_neg (by simp [left])]
  rfl

theorem tokens_cons_kept {t : Token} (kept : c.leavesOut t = false) (ts : List Token) :
    c.tokens (t :: ts) = c.copy t :: c.tokens ts := by
  rw [tokens, List.filter_cons_of_pos (by simp [kept])]
  rfl

theorem kept_of_not_isLayout {t : Token} (other : t.kind.isLayout = false) :
    c.leavesOut t = false := by
  apply Bool.eq_false_iff.2
  intro left
  rw [c.layout t left] at other
  cases other

theorem kept_of_marksPointer {t : Token} (marks : t.kind.marksPointer = true) :
    c.leavesOut t = false := by
  apply c.kept_of_not_isLayout
  apply Bool.eq_false_iff.2
  intro layout
  rcases kind_of_isLayout layout with kind | kind | kind <;> rw [kind] at marks <;> cases marks

theorem kept_of_isDelimiter {t : Token} {d : Delimiter} (h : t.isDelimiter d = true) :
    c.leavesOut t = false := by
  apply c.kept_of_not_isLayout
  apply Bool.eq_false_iff.2
  intro layout
  rw [not_isDelimiter_of_isLayout layout] at h
  cases h

theorem tokens_dropWhile {passes : Token → Bool} (same : ∀ t, passes (c.copy t) = passes t)
    (layout : ∀ t, t.kind.isLayout = true → passes t = true) (ts : List Token) :
    c.tokens (ts.dropWhile passes) = (c.tokens ts).dropWhile passes := by
  induction ts with
  | nil => rfl
  | cons t ts ih =>
      cases left : c.leavesOut t with
      | true =>
          rw [List.dropWhile_cons_of_pos (layout t (c.layout t left)), c.tokens_cons_leftOut left]
          exact ih
      | false =>
          rw [c.tokens_cons_kept left]
          cases pass : passes t with
          | true =>
              rw [List.dropWhile_cons_of_pos pass, List.dropWhile_cons_of_pos (by rw [same, pass])]
              exact ih
          | false =>
              rw [List.dropWhile_cons_of_neg (by simp [pass]),
                List.dropWhile_cons_of_neg (by simp [same, pass]), c.tokens_cons_kept left]

theorem tokens_takeWhile {passes : Token → Bool} (same : ∀ t, passes (c.copy t) = passes t)
    (layout : ∀ t, t.kind.isLayout = true → passes t = true) (ts : List Token) :
    c.tokens (ts.takeWhile passes) = (c.tokens ts).takeWhile passes := by
  induction ts with
  | nil => rfl
  | cons t ts ih =>
      cases left : c.leavesOut t with
      | true =>
          rw [List.takeWhile_cons_of_pos (layout t (c.layout t left)), c.tokens_cons_leftOut left,
            c.tokens_cons_leftOut left]
          exact ih
      | false =>
          rw [c.tokens_cons_kept left]
          cases pass : passes t with
          | true =>
              rw [List.takeWhile_cons_of_pos pass, List.takeWhile_cons_of_pos (by rw [same, pass]),
                c.tokens_cons_kept left, ih]
          | false =>
              rw [List.takeWhile_cons_of_neg (by simp [pass]),
                List.takeWhile_cons_of_neg (by simp [same, pass])]
              rfl

theorem tokens_filter {keeps : Token → Bool} (same : ∀ t, keeps (c.copy t) = keeps t)
    (layout : ∀ t, t.kind.isLayout = true → keeps t = false) (ts : List Token) :
    (c.tokens ts).filter keeps = (ts.filter keeps).map c.copy := by
  induction ts with
  | nil => rfl
  | cons t ts ih =>
      cases left : c.leavesOut t with
      | true =>
          rw [c.tokens_cons_leftOut left, ih, List.filter_cons_of_neg]
          simp [layout t (c.layout t left)]
      | false =>
          rw [c.tokens_cons_kept left]
          cases keep : keeps t with
          | true =>
              rw [List.filter_cons_of_pos (by rw [same, keep]), List.filter_cons_of_pos keep, ih]
              rfl
          | false =>
              rw [List.filter_cons_of_neg (by simp [same, keep]),
                List.filter_cons_of_neg (by simp [keep]), ih]

theorem pieces_map_copy (t : Token) (ts : List Token) :
    Token.pieces (some (c.copy t).span.stop) (ts.map c.copy) =
      Token.pieces (some t.span.stop) ts := by
  induction ts generalizing t with
  | nil => rfl
  | cons u ts ih => simp only [List.map_cons, Token.pieces, Option.any_some, c.gap, c.text_copy, ih]

@[simp] theorem joinText_tokens (ts : List Token) :
    Token.joinText (c.tokens ts) = Token.joinText ts := by
  have significant : (c.tokens ts).filter (fun t => !t.kind.isLayout) =
      (ts.filter fun t => !t.kind.isLayout).map c.copy :=
    c.tokens_filter (by simp) (fun t layout => by simp [layout]) ts
  rw [Token.joinText, Token.joinText, significant]
  cases ts.filter fun t => !t.kind.isLayout with
  | nil => rfl
  | cons t ts =>
      rw [List.map_cons, Token.pieces, Token.pieces, c.text_copy, c.pieces_map_copy]
      rfl

end TokenCopy
end TalAnalysis.Declaration
