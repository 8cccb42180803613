import TalAnalysis.Proofs.Declaration.Copy.Window
import TalAnalysis.Proofs.Declaration.NamePlace

namespace TalAnalysis.Declaration.TokenCopy

variable (c : TokenCopy)

theorem passed_of_isLayout (t : Token) (layout : t.kind.isLayout = true) :
    (!(t.kind.isName || t.isDelimiter .semicolon)) = true := by
  rw [not_isName_of_isLayout layout, not_isDelimiter_of_isLayout layout]
  rfl

theorem fromName_tokens (ts : List Token) : fromName (c.tokens ts) = c.tokens (fromName ts) :=
  (c.tokens_dropWhile (by simp) passed_of_isLayout ts).symm

def listing {α : Type} (item : α → α) (l : Listing α) : Listing α :=
  ⟨l.items.map item, l.closed, c.tokens l.rest⟩

theorem listing_cons {α : Type} (item : α → α) (x : α) (l : Listing α) :
    c.listing item (l.cons x) = (c.listing item l).cons (item x) := rfl

theorem namedItems_tokens {α : Type} {item : Token → List Token → α × List Token}
    {tail : ∀ name tokens, (item name tokens).2 <:+ tokens} (copyItem : α → α)
    (reads : ∀ name ts, item (c.copy name) (c.tokens ts) =
      (copyItem (item name ts).1, c.tokens (item name ts).2)) (ts : List Token) :
    namedItems item tail (c.tokens ts) = c.listing copyItem (namedItems item tail ts) := by
  have copied {ts rest : List Token} {t : Token} (found : fromName ts = t :: rest) :
      fromName (c.tokens ts) = c.copy t :: c.tokens rest := by
    have kept : c.HeadKept (fromName ts) := headKept_dropWhile passed_of_isLayout ts
    rw [fromName_tokens, found, c.tokens_cons_kept (kept t (by rw [found]; rfl))]
  fun_induction namedItems item tail ts with
  | case1 ts none =>
      have none' : fromName (c.tokens ts) = [] := by rw [fromName_tokens, none]; rfl
      rw [namedItems]
      split
      · rfl
      · simp_all
  | case2 ts name rest found isName _ rest' more ih =>
      rw [namedItems_name (copied found) (by simpa using isName), reads, listEnd_tokens, more]
      simp only [listEnd, ih, listing_cons]
  | case3 ts name rest found isName _ rest' more =>
      rw [namedItems_name (copied found) (by simpa using isName), reads, listEnd_tokens, more]
      rfl
  | case4 ts name rest found isName _ rest' more =>
      rw [namedItems_name (copied found) (by simpa using isName), reads, listEnd_tokens, more]
      rfl
  | case5 ts t rest found other =>
      rw [namedItems_semicolon (copied found) (by simpa using other)]
      rfl

def literal (item : LiteralItem) : LiteralItem := ⟨c.copy item.name, c.tokens item.value⟩

theorem skipEqual_tokens {ts : List Token} (h : c.HeadKept ts) :
    skipEqual (c.tokens ts) = c.tokens (skipEqual ts) := by
  rcases h.cases with rfl | ⟨t, rest, rfl, copied⟩
  · rfl
  · rw [copied, skipEqual, skipEqual, isDelimiter_copy]
    split
    · rfl
    · exact copied.symm

theorem literalItem_tokens (name : Token) (ts : List Token) :
    literalItem (c.copy name) (c.tokens ts) =
      (c.literal (literalItem name ts).1, c.tokens (literalItem name ts).2) := by
  rw [literalItem, skipLayout_tokens, c.skipEqual_tokens (headKept_skipLayout ts), value_tokens]
  rfl

theorem literals_tokens (ts : List Token) :
    literals (c.tokens ts) = c.listing c.literal (literals ts) :=
  c.namedItems_tokens c.literal c.literalItem_tokens ts

def define (item : DefineItem) : DefineItem :=
  ⟨c.copy item.name, c.tokens item.parameters, item.body?.map c.tokens, item.terminated⟩

theorem defineItem_tokens (name : Token) (ts : List Token) :
    defineItem (c.copy name) (c.tokens ts) =
      (c.define (defineItem name ts).1, c.tokens (defineItem name ts).2) := by
  let stops (t : Token) := !(t.isDelimiter .equal || t.isDelimiter .semicolon)
  have layout (t : Token) (h : t.kind.isLayout = true) : stops t = true := by
    simp [stops, not_isDelimiter_of_isLayout h]
  have inBody (t : Token) (h : t.kind.isLayout = true) : (!t.isDelimiter .hash) = true := by
    rw [not_isDelimiter_of_isLayout h, Bool.not_false]
  have window : parenthesized (skipLayout (c.tokens ts)) =
      c.window (parenthesized (skipLayout ts)) := c.between_skipLayout .lParen .rParen ts
  have front : (parenthesized (skipLayout (c.tokens ts))).rest.dropWhile stops =
      c.tokens ((parenthesized (skipLayout ts)).rest.dropWhile stops) := by
    rw [window, c.tokens_dropWhile (by simp [stops]) layout]
    rfl
  have kept := headKept_dropWhile (c := c) layout (parenthesized (skipLayout ts)).rest
  rcases kept.cases with none | ⟨t, rest, found, copied⟩
  · rw [defineItem_nil none, defineItem_nil (by rw [front, none]; rfl), window]
    rfl
  · have found' := front.trans copied
    have left := headKept_dropWhile (c := c) inBody rest
    have kept : c.copy t :: c.tokens rest = c.tokens (t :: rest) := by rw [← found, copied]
    rw [defineItem_cons found, defineItem_cons found', isDelimiter_copy, window, kept]
    split
    · rw [← c.tokens_takeWhile (by simp) inBody, ← c.tokens_dropWhile (by simp) inBody,
        left.isEmpty, left.tail]
      rfl
    · rfl

theorem defines_tokens (ts : List Token) :
    defines (c.tokens ts) = c.listing c.define (defines ts) :=
  c.namedItems_tokens c.define c.defineItem_tokens ts

theorem opensProcedure_copy (t : Token) : opensProcedure (c.copy t) = opensProcedure t := by
  simp only [opensProcedure, isKeyword_copy]

theorem procedureFollows_tokens (ts : List Token) :
    procedureFollows (c.tokens ts) = procedureFollows ts := by
  have layout (t : Token) (h : t.kind.isLayout = true) : (!t.isDelimiter .rParen) = true := by
    rw [not_isDelimiter_of_isLayout h, Bool.not_false]
  have first := headKept_skipLayout (c := c) ts
  have past := headKept_dropWhile (c := c) layout (skipLayout ts)
  simp only [procedureFollows, skipLayout_tokens, first.opensWith_tokens]
  split
  · rw [← c.tokens_dropWhile (by simp) layout, past.tail, skipLayout_tokens,
      (headKept_skipLayout _).map_head? c.opensProcedure_copy]
  · rw [first.map_head? c.opensProcedure_copy]

theorem skipQualifier_tokens (ts : List Token) :
    skipQualifier (c.tokens ts) = c.tokens (skipQualifier ts) := by
  rw [skipQualifier, parenthesized, between_skipLayout]
  exact c.skipLayout_tokens _

def procedure (header : ProcedureHeader) : ProcedureHeader :=
  ⟨header.name?.map c.copy, c.tokens header.parameters, c.tokens header.rest⟩

theorem procedureHeader_tokens (ts : List Token) :
    procedureHeader (c.tokens ts) = c.procedure (procedureHeader ts) := by
  rw [procedureHeader, procedureHeader, skipLayout_tokens]
  rcases (headKept_skipLayout (c := c) ts).cases with none | ⟨name, rest, found, copied⟩
  · rw [none]
    rfl
  · rw [copied, found]
    simp only [isName_copy]
    split
    · rw [parenthesized, between_skipLayout]
      simp only [window, pastSemicolon_tokens]
      rfl
    · rw [← copied, pastSemicolon_tokens, found]
      rfl

theorem parameterNames_tokens (depth : Nat) (ts : List Token) :
    parameterNames depth (c.tokens ts) = (parameterNames depth ts).map c.copy := by
  induction ts generalizing depth with
  | nil => rfl
  | cons t ts ih =>
      cases left : c.leavesOut t with
      | true =>
          have layout := c.layout t left
          rw [c.tokens_cons_leftOut left, parameterNames]
          simp [not_isDelimiter_of_isLayout layout, not_isName_of_isLayout layout, ih]
      | false =>
          rw [c.tokens_cons_kept left, parameterNames, parameterNames]
          simp only [isDelimiter_copy, isName_copy, ih]
          split_ifs <;> rfl

theorem bodyFollows_tokens (ts : List Token) :
    bodyFollows (c.tokens ts) = bodyFollows ts := by
  rw [bodyFollows, bodyFollows, skipLayout_tokens, (headKept_skipLayout ts).map_head? (by simp)]

variable {c} {ts : List Token}

variable (c)

def structure_ (header : StructureHeader) : StructureHeader :=
  ⟨header.name?.map c.copy, c.tokens header.rest⟩

theorem skipPointers_tokens {ts : List Token} (h : c.HeadKept (skipPointers ts)) :
    skipPointers (c.tokens ts) = c.tokens (skipPointers ts) := by
  induction ts with
  | nil => rfl
  | cons t rest ih =>
      cases marks : t.kind.marksPointer with
      | true =>
          have passed : skipPointers (t :: rest) = skipPointers rest :=
            List.dropWhile_cons_of_pos marks
          rw [passed] at h ⊢
          rw [c.tokens_cons_kept (c.kept_of_marksPointer marks), skipPointers,
            List.dropWhile_cons_of_pos (by simpa using marks)]
          exact ih h
      | false =>
          have stops : skipPointers (t :: rest) = t :: rest :=
            List.dropWhile_cons_of_neg (by simp [marks])
          rw [stops] at h ⊢
          rw [c.tokens_cons_kept (h t rfl), skipPointers,
            List.dropWhile_cons_of_neg (by simp [marks])]

theorem skipPointers_skipLayout_tokens {ts : List Token}
    (h : c.HeadKept (skipPointers (skipLayout ts))) :
    skipPointers (skipLayout (c.tokens ts)) = c.tokens (skipPointers (skipLayout ts)) := by
  rw [skipLayout_tokens, c.skipPointers_tokens h]

theorem structureHeader_tokens {ts : List Token}
    (h : c.HeadKept (skipPointers (skipLayout ts))) :
    structureHeader (c.tokens ts) = c.structure_ (structureHeader ts) := by
  rw [structureHeader, structureHeader, c.skipPointers_skipLayout_tokens h]
  rcases h.cases with none | ⟨name, rest, found, copied⟩
  · rw [none]
    rfl
  · rw [copied, found]
    simp only [isName_copy]
    split
    · rw [pastSemicolon_tokens]
      rfl
    · rw [← copied, pastSemicolon_tokens, found]
      rfl

def variable_ (item : VariableItem) : VariableItem := ⟨c.copy item.name, item.initial?.map c.tokens⟩

theorem assigns_copy (t : Token) :
    ((c.copy t).kind = .operator .assign) ↔ t.kind = .operator .assign :=
  iff_of_eq (c.reads (fun kind => kind = .operator .assign) (by simp) t)

theorem initial?_tokens (h : c.HeadKept ts) :
    initial? (c.tokens ts) = ((initial? ts).1.map c.tokens, c.tokens (initial? ts).2) := by
  rcases h.cases with rfl | ⟨t, rest, rfl, copied⟩
  · rfl
  · rw [copied, initial?, initial?]
    simp only [assigns_copy, isDelimiter_copy, value_tokens]
    split
    · rfl
    · rw [copied]
      rfl

theorem variableItem_tokens (name : Token) (ts : List Token) :
    variableItem (c.copy name) (c.tokens ts) =
      (c.variable_ (variableItem name ts).1, c.tokens (variableItem name ts).2) := by
  have referral : parenthesized (skipLayout (c.tokens ts)) =
      c.window (parenthesized (skipLayout ts)) := c.between_skipLayout .lParen .rParen ts
  have bounds (ts : List Token) : bracketed (skipLayout (c.tokens ts)) =
      c.window (bracketed (skipLayout ts)) := c.between_skipLayout .lBracket .rBracket ts
  have initial (ts : List Token) : initial? (skipLayout (c.tokens ts)) =
      ((initial? (skipLayout ts)).1.map c.tokens, c.tokens (initial? (skipLayout ts)).2) := by
    rw [skipLayout_tokens, c.initial?_tokens (headKept_skipLayout ts)]
  simp only [variableItem, referral, window, bounds, initial]
  rfl

def variableListing (v : Variables) : Variables :=
  { toListing := c.listing c.variable_ v.toListing, missing? := v.missing?.map c.copy }

theorem variableItems_tokens {ts : List Token} (h : ∀ place ∈ variablePlaces ts, c.HeadKept place) :
    variableItems (c.tokens ts) = c.variableListing (variableItems ts) := by
  have copied {ts rest : List Token} {t : Token}
      (h : ∀ place ∈ variablePlaces ts, c.HeadKept place)
      (found : skipPointers (skipLayout ts) = t :: rest) :
      skipPointers (skipLayout (c.tokens ts)) = c.copy t :: c.tokens rest := by
    have first := h _ (mem_variablePlaces ts)
    rw [c.skipPointers_skipLayout_tokens first, found,
      c.tokens_cons_kept (first t (by rw [found]; rfl))]
  induction ts using variableItems.induct with
  | case1 ts none =>
      have none' : skipPointers (skipLayout (c.tokens ts)) = [] := by
        rw [c.skipPointers_skipLayout_tokens (h _ (mem_variablePlaces ts)), none]
        rfl
      rw [variableItems_nil none, variableItems_nil none']
      rfl
  | case2 ts name rest found isName rest' more ih =>
      have later := ih fun place member =>
        h place (mem_variablePlaces_of_another found isName more member)
      rw [variableItems_name found isName, more,
        variableItems_name (copied h found) (by simpa using isName), variableItem_tokens,
        listEnd_tokens, more]
      simp only [listEnd, later]
      rfl
  | case3 ts name rest found isName rest' more =>
      rw [variableItems_name (copied h found) (by simpa using isName), variableItem_tokens,
        listEnd_tokens, variableItems_name found isName, more]
      rfl
  | case4 ts name rest found isName rest' more =>
      rw [variableItems_name (copied h found) (by simpa using isName), variableItem_tokens,
        listEnd_tokens, variableItems_name found isName, more]
      rfl
  | case5 ts t rest found other =>
      have next := copied h found
      have kept : c.copy t :: c.tokens rest = c.tokens (t :: rest) := by
        rw [← found, ← c.skipPointers_skipLayout_tokens (h _ (mem_variablePlaces ts)), next]
      have other : t.kind.isName = false := by simpa using other
      rw [variableItems_missing next (by simpa using other), kept, pastSemicolon_tokens,
        isDelimiter_copy, variableItems_missing found other]
      simp only [variableListing, listing]
      split <;> rfl

end TalAnalysis.Declaration.TokenCopy
