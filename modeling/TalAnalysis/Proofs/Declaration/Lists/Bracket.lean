import TalAnalysis.Proofs.Declaration.Window

namespace TalAnalysis.Declaration

variable {tokens rest : List Token} {t : Token} {opening closing : Delimiter}

theorem Balanced.stops (balanced : Balanced opening closing tokens) (apart : opening ≠ closing)
    {tail : List Token} (closed : ∀ t ∈ tail.head?, t.isDelimiter closing = true) :
    Stops (fun passed t => 1 + rise opening closing (passed ++ [t]) = 0) tokens tail where
  passed before t after cut closes := by
    have part : before ++ [t] <+: tokens := ⟨after, by rw [cut, List.append_assoc]; rfl⟩
    have open_ := balanced.fronts _ part
    rw [rise_eq_height apart] at closes
    omega
  stopped t member := by
    rw [rise_eq_height apart, height_append, balanced.whole, height_closing apart (closed t member)]
    rfl

theorem inside_closed (apart : opening ≠ closing) (closed : TokenOf (.delimiter closing))
    (balanced : Balanced opening closing tokens) (rest : List Token) :
    inside opening closing 0 (tokens ++ closed.token :: rest) =
      ⟨(inside opening closing 0 tokens).inside, rest⟩ := by
  have closes : ∀ t ∈ (closed.token :: rest).head?, t.isDelimiter closing = true :=
    fun t member => Option.some.inj member ▸ isDelimiter_self closed
  have unclosed : ∀ t ∈ ([] : List Token).head?, t.isDelimiter closing = true :=
    fun t member => nomatch member
  have alone := inside_append [] rise_nil (balanced.stops apart unclosed)
  rw [List.append_nil] at alone
  rw [alone, inside_append [] rise_nil (balanced.stops apart closes), List.tail_cons]

theorem between_closed (apart : opening ≠ closing) (opened : TokenOf (.delimiter opening))
    (closed : TokenOf (.delimiter closing)) (balanced : Balanced opening closing tokens)
    (rest : List Token) :
    between opening closing (opened.token :: (tokens ++ closed.token :: rest)) =
      ⟨(inside opening closing 0 tokens).inside, rest⟩ := by
  rw [between, if_pos (isDelimiter_self opened), inside_closed apart closed balanced]

theorem rest_between (apart : opening ≠ closing) (opened : TokenOf (.delimiter opening))
    (closed : TokenOf (.delimiter closing)) (balanced : Balanced opening closing tokens)
    (rest : List Token) :
    (between opening closing (opened.token :: (tokens ++ closed.token :: rest))).rest = rest := by
  rw [between_closed apart opened closed balanced]

theorem balanced_flat (flat : ∀ t ∈ tokens, t.isDelimiter opening = false ∧
    t.isDelimiter closing = false) : Balanced opening closing tokens := by
  have level (front : List Token) (within : front <+: tokens) :
      height opening closing front = 0 := by
    have opens : front.countP (·.isDelimiter opening) = 0 :=
      List.countP_eq_zero.2 fun t member => by simp [(flat t (within.subset member)).1]
    have closes : front.countP (·.isDelimiter closing) = 0 :=
      List.countP_eq_zero.2 fun t member => by simp [(flat t (within.subset member)).2]
    rw [height, opens, closes]
    rfl
  exact ⟨fun front within => Int.le_of_eq (level front within).symm,
    level tokens (List.prefix_refl _)⟩

theorem ValueTokens.deep (v : ValueTokens) {front back : List Token}
    (cut : v.tokens = front ++ t :: back) (sep : separates t = true) :
    0 < height .lParen .rParen front ∨ 0 < height .lBracket .rBracket front := by
  have here : front.length < v.tokens.length := by simp [cut]
  have same : v.tokens[front.length] = t := by simp [cut]
  have deep := v.inBrackets front.length here (same ▸ sep)
  rwa [cut, List.take_left] at deep

theorem ValueTokens.nesting_nonneg (v : ValueTokens) {front : List Token}
    (part : front <+: v.tokens) : 0 ≤ nesting front :=
  Int.add_nonneg (v.round.fronts front part) (v.square.fronts front part)

theorem ValueTokens.level (v : ValueTokens) : Level v.tokens := by
  rintro back ⟨front, cut⟩
  have whole : nesting v.tokens = 0 := by rw [nesting, v.round.whole, v.square.whole]; rfl
  have nonneg := v.nesting_nonneg ⟨back, cut⟩
  rw [← cut, nesting_append] at whole
  omega

theorem value_tokens (v : ValueTokens) (sep : separates t = true) (rest : List Token) :
    value 0 (v.tokens ++ t :: rest) = ⟨v.tokens, t :: rest⟩ := by
  apply stops_value
  constructor
  · rintro front u back cut ⟨sep, level⟩
    have part : front <+: v.tokens := ⟨u :: back, cut.symm⟩
    have round := v.round.fronts front part
    have square := v.square.fronts front part
    have level : nesting front ≤ 0 := level front (List.suffix_refl front)
    rw [nesting] at level
    rcases v.deep cut sep with deep | deep <;> omega
  · intro u member
    exact Option.some.inj member ▸ ⟨sep, v.level⟩

end TalAnalysis.Declaration
