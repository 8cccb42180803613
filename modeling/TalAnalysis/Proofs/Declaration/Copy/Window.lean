import TalAnalysis.Proofs.Declaration.Copy.Basic

namespace TalAnalysis.Declaration.TokenCopy

variable (c : TokenCopy)

def HeadKept (ts : List Token) : Prop := ∀ t ∈ ts.head?, c.leavesOut t = false

instance (ts : List Token) : Decidable (c.HeadKept ts) :=
  inferInstanceAs (Decidable (∀ t ∈ ts.head?, c.leavesOut t = false))

variable {c} {ts : List Token}

theorem HeadKept.cases (h : c.HeadKept ts) :
    ts = [] ∨ ∃ t rest, ts = t :: rest ∧ c.tokens ts = c.copy t :: c.tokens rest := by
  cases ts with
  | nil => exact .inl rfl
  | cons t rest => exact .inr ⟨t, rest, rfl, c.tokens_cons_kept (h t rfl) rest⟩

theorem headKept_dropWhile {passes : Token → Bool}
    (layout : ∀ t, t.kind.isLayout = true → passes t = true) (ts : List Token) :
    c.HeadKept (ts.dropWhile passes) := by
  intro t first
  obtain ⟨rest, found⟩ := List.head?_eq_some_iff.1 first
  have stops := Text.not_of_dropWhile found
  apply c.kept_of_not_isLayout
  apply Bool.eq_false_iff.2
  intro isLayout
  rw [layout t isLayout] at stops
  cases stops

theorem headKept_skipLayout (ts : List Token) : c.HeadKept (skipLayout ts) :=
  headKept_dropWhile (fun _ layout => layout) ts

theorem HeadKept.tail (h : c.HeadKept ts) : (c.tokens ts).tail = c.tokens ts.tail := by
  rcases h.cases with rfl | ⟨t, rest, rfl, copied⟩
  · rfl
  · rw [copied, List.tail_cons, List.tail_cons]

theorem HeadKept.isEmpty (h : c.HeadKept ts) : (c.tokens ts).isEmpty = ts.isEmpty := by
  rcases h.cases with rfl | ⟨t, rest, rfl, copied⟩
  · rfl
  · rw [copied, List.isEmpty_cons, List.isEmpty_cons]

theorem HeadKept.map_head? {α : Type} (h : c.HeadKept ts) {f : Token → α}
    (same : ∀ t, f (c.copy t) = f t) : (c.tokens ts).head?.map f = ts.head?.map f := by
  rcases h.cases with rfl | ⟨t, rest, rfl, copied⟩
  · rfl
  · rw [copied, List.head?_cons, List.head?_cons, Option.map_some, Option.map_some, same]

theorem HeadKept.opensWith_tokens (h : c.HeadKept ts) (d : Delimiter) :
    opensWith (c.tokens ts) d = opensWith ts d := by
  rw [opensWith, opensWith, h.map_head? (by simp)]

variable (c)

theorem skipLayout_tokens (ts : List Token) : skipLayout (c.tokens ts) = c.tokens (skipLayout ts) :=
  (c.tokens_dropWhile c.isLayout_copy (fun _ layout => layout) ts).symm

theorem pastSemicolon_tokens (ts : List Token) :
    pastSemicolon (c.tokens ts) = c.tokens (pastSemicolon ts) := by
  have layout (t : Token) (h : t.kind.isLayout = true) : (!t.isDelimiter .semicolon) = true := by
    rw [not_isDelimiter_of_isLayout h, Bool.not_false]
  rw [pastSemicolon, ← c.tokens_dropWhile (by simp) layout, (headKept_dropWhile layout ts).tail]
  rfl

@[simp] theorem window_cons_leftOut {t : Token} (left : c.leavesOut t = true) (w : Window) :
    c.window (w.cons t) = c.window w := by
  rw [window, Window.cons, c.tokens_cons_leftOut left]
  rfl

@[simp] theorem window_cons_kept {t : Token} (kept : c.leavesOut t = false) (w : Window) :
    c.window (w.cons t) = (c.window w).cons (c.copy t) := by
  rw [window, Window.cons, c.tokens_cons_kept kept]
  rfl

theorem inside_tokens (opening closing : Delimiter) (depth : Nat) (ts : List Token) :
    inside opening closing depth (c.tokens ts) = c.window (inside opening closing depth ts) := by
  induction ts generalizing depth with
  | nil => rfl
  | cons t ts ih =>
      cases left : c.leavesOut t with
      | true =>
          have other := not_isDelimiter_of_isLayout (c.layout t left)
          rw [c.tokens_cons_leftOut left, inside_cons]
          simp [other, ih, left]
      | false =>
          rw [c.tokens_cons_kept left, inside_cons, inside_cons]
          simp only [isDelimiter_copy, ih]
          split_ifs
          · rw [c.window_cons_kept left]
          · rfl
          · rw [c.window_cons_kept left]
          · rfl
          · rw [c.window_cons_kept left]

theorem HeadKept.between_tokens {c : TokenCopy} {ts : List Token} (h : c.HeadKept ts)
    (opening closing : Delimiter) :
    between opening closing (c.tokens ts) = c.window (between opening closing ts) := by
  rcases h.cases with rfl | ⟨t, rest, rfl, copied⟩
  · rfl
  · rw [copied, between, between, c.isDelimiter_copy]
    split
    · exact c.inside_tokens opening closing 0 rest
    · rw [window, copied]
      rfl

theorem between_skipLayout (opening closing : Delimiter) (ts : List Token) :
    between opening closing (skipLayout (c.tokens ts)) =
      c.window (between opening closing (skipLayout ts)) := by
  rw [skipLayout_tokens, (headKept_skipLayout ts).between_tokens]

theorem depthAfter_copy (depth : Nat) (t : Token) :
    depthAfter depth (c.copy t) = depthAfter depth t := by
  simp only [depthAfter, isDelimiter_copy]

theorem value_tokens (depth : Nat) (ts : List Token) :
    value depth (c.tokens ts) = c.window (value depth ts) := by
  induction ts generalizing depth with
  | nil => rfl
  | cons t ts ih =>
      cases left : c.leavesOut t with
      | true =>
          have other := not_isDelimiter_of_isLayout (c.layout t left)
          rw [c.tokens_cons_leftOut left, value]
          simp [other, ih, left, depthAfter]
      | false =>
          rw [c.tokens_cons_kept left, value, value, depthAfter_copy]
          simp only [isDelimiter_copy, ih]
          split
          · rw [window, c.tokens_cons_kept left]
            rfl
          · rw [c.window_cons_kept left]

def listEnd : ListEnd → ListEnd
  | .another rest => .another (c.tokens rest)
  | .closed rest => .closed (c.tokens rest)
  | .broken rest => .broken (c.tokens rest)

theorem listEnd_tokens (ts : List Token) :
    Declaration.listEnd (c.tokens ts) = c.listEnd (Declaration.listEnd ts) := by
  rw [Declaration.listEnd, Declaration.listEnd, skipLayout_tokens]
  rcases (headKept_skipLayout ts).cases with none | ⟨t, rest, found, copied⟩
  · rw [none]
    rfl
  · rw [copied, found]
    simp only [isDelimiter_copy]
    split
    · rfl
    · split
      · rfl
      · rw [listEnd, ← found, copied]

end TalAnalysis.Declaration.TokenCopy
