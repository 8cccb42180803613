import TalAnalysis.Proofs.Declaration.Coherence
import TalAnalysis.Proofs.Declaration.Value
import TalAnalysis.Proofs.Editor.Outline.Opening

namespace TalAnalysis

/-- Whatever the text holds but spaces, it holds in one of the tokens, which it shows whole and
which stands on its line. -/
def ShownBy (tokens : List Token) (text : String) : Prop :=
  ∀ c ∈ text.toList, c = ' ' ∨ ∃ t ∈ tokens, t.kind.endsLine = false ∧ c ∈ t.text.toList ∧
    t.text.toList <:+: text.toList

variable {tokens tokens' slice : List Token} {t : Token} {text : String}

theorem ShownBy.mono (h : ShownBy tokens text) (more : tokens ⊆ tokens') :
    ShownBy tokens' text := by
  intro c member
  refine (h c member).imp_right ?_
  rintro ⟨t, listed, shown⟩
  exact ⟨t, more listed, shown⟩

theorem shownBy_token (member : t ∈ tokens) (onLine : t.kind.endsLine = false) :
    ShownBy tokens t.text :=
  fun _ inside => .inr ⟨t, member, onLine, inside, List.infix_refl _⟩

theorem mem_pieces {lastStop : Option Nat} {piece : String}
    (member : piece ∈ Token.pieces lastStop tokens) :
    piece = "" ∨ piece = " " ∨ ∃ t ∈ tokens, t.text = piece := by
  induction tokens generalizing lastStop with
  | nil => cases member
  | cons t tokens ih =>
      rcases List.mem_cons.1 member with rfl | member
      · split
        · exact .inr (.inl rfl)
        · exact .inl rfl
      · rcases List.mem_cons.1 member with rfl | member
        · exact .inr (.inr ⟨t, List.mem_cons_self, rfl⟩)
        · refine (ih member).imp_right (Or.imp_right ?_)
          rintro ⟨u, listed, same⟩
          exact ⟨u, List.mem_cons_of_mem t listed, same⟩

theorem shownBy_joinText (within : slice ⊆ tokens) : ShownBy tokens (Token.joinText slice) := by
  intro c member
  rw [Token.joinText, String.toList_join, List.flatMap_def] at member
  obtain ⟨_, listed, inside⟩ := List.mem_flatten.1 member
  obtain ⟨piece, own, rfl⟩ := List.mem_map.1 listed
  rcases mem_pieces own with rfl | rfl | ⟨t, kept, rfl⟩
  · cases inside
  · exact .inl (List.mem_singleton.1 inside)
  · obtain ⟨listed', noLayout⟩ := List.mem_filter.1 kept
    refine .inr ⟨t, within listed', ?_, inside, ?_⟩
    · refine Bool.eq_false_iff.2 fun ends => ?_
      rw [Declaration.isLayout_of_endsLine ends] at noLayout
      cases noLayout
    · rw [Token.joinText, String.toList_join, List.flatMap_def]
      exact List.infix_of_mem_flatten listed

namespace Declaration

theorem WrittenFrom.shownBy {value : SymbolValue} (h : WrittenFrom tokens value) :
    ShownBy tokens value.render := by
  obtain ⟨slice, within, text⟩ := h
  exact text ▸ shownBy_joinText within.subset

theorem shown_value {x : Symbol} (found : .symbol x ∈ findings {} tokens) :
    ShownBy tokens x.value.render ∨
      x.kind = .function ∧ ∃ d : DataType, x.value = .text d.spelling := by
  obtain ⟨⟨s, t, rest⟩, listed, here⟩ := mem_findings found
  have part : rest ⊆ tokens := ((List.suffix_cons t rest).trans (mem_steps listed)).subset
  cases (finds_of_mem here).valueFrom with
  | written slice => exact .inl (slice.shownBy.mono part)
  | @comment u member comment value =>
      rw [value]
      exact .inl (shownBy_token (part member) (by rw [comment]; rfl))
  | result function d value => exact .inr ⟨function, d, value⟩

theorem shown_name {x : Symbol} (found : .symbol x ∈ findings {} tokens) :
    (∃ t ∈ tokens, t.kind.isWord = true ∧ x.name = t.text) ∨
      ∃ d : Directive, x.name = d.spelling := by
  obtain ⟨t, member, written⟩ := ((findings_coherent {} tokens).symbols x found).written
  rcases written.name with same | ⟨-, d, -, same⟩
  · exact .inl ⟨t, member, written.isWord, same⟩
  · exact .inr ⟨d, same⟩

end Declaration

namespace Outline
open Declaration

theorem shown_of_rooted {context : String}
    (rooted : Rooted ((findings {} tokens).filterMap Finding.symbol?) context) :
    context = globalContext ∨ (∃ s, .symbol s ∈ findings {} tokens ∧ context = s.name) ∨
      ShownBy tokens context := by
  cases rooted with
  | global => exact .inl rfl
  | @inner s _ member opening =>
      have found := Finding.mem_symbols.1 member
      rcases opens?_cases opening with name | ⟨directive, file⟩
      · exact .inr (.inl ⟨s, found, name⟩)
      · rcases shown_value found with shown | ⟨function, -⟩
        · rw [file] at shown
          exact .inr (.inr shown)
        · rw [directive] at function
          cases function

end Outline
end TalAnalysis
