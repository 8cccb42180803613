import TalAnalysis.Proofs.Declaration.Step

namespace TalAnalysis

inductive SymbolKind.Has : SymbolKind → SymbolType → Prop
  | directive : Has .directive .directive
  | procedure : Has .function .procedure
  | subprocedure : Has .function .subprocedure
  | external : Has .function .external
  | parameter : Has .variable_ .parameter
  | struct : Has .variable_ .struct
  | typed (d : DataType) : Has .variable_ (.typed d)
  | value : Has .literal .value
  | identifier : Has .define .identifier
  | formal : Has .define .parameter
  | body : Has .define .body

/-- The word that the symbol is written as. A directive that is known goes by its own spelling. -/
structure Symbol.WrittenAs (s : Symbol) (t : Token) : Prop where
  isWord : t.kind.isWord = true
  span : s.span = t.span
  line : s.line = t.line
  columns : s.startColumn = t.startColumn ∧ s.endColumn = t.endColumn
  name : s.name = t.text ∨
    s.kind = .directive ∧ ∃ d, Directive.ofSpelling? t.text = some d ∧ s.name = d.spelling

/-- What the key of a symbol says holds of the symbol; the body of a DEFINE is a part of the tokens
without the mark that closes it. -/
def Symbol.FitsSuffix (tokens : List Token) (s : Symbol) : KeySuffix → Prop
  | .none => s.key.name = s.name
  | .parameter q => q = s.name ∧ s.kind = .define ∧ s.type = .parameter
  | .body => s.key.name = s.name ∧ s.kind = .define ∧ s.type = .body ∧
      ∃ body, s.value = .tokens body ∧ body <:+: tokens ∧ ∀ t ∈ body, t.isDelimiter .hash = false

structure Symbol.Coherent (tokens : List Token) (s : Symbol) : Prop where
  context : s.key.context = s.context
  suffix : s.FitsSuffix tokens s.key.suffix
  type : s.kind.Has s.type
  written : ∃ t ∈ tokens, s.WrittenAs t

theorem Symbol.FitsSuffix.mono {tokens tokens' : List Token} {s : Symbol} {suffix : KeySuffix}
    (h : s.FitsSuffix tokens suffix) (part : tokens <:+: tokens') :
    s.FitsSuffix tokens' suffix := by
  cases suffix with
  | none => exact h
  | parameter q => exact h
  | body =>
      obtain ⟨name, kind, type, body, value, within, unmarked⟩ := h
      exact ⟨name, kind, type, body, value, within.trans part, unmarked⟩

theorem Symbol.Coherent.mono {tokens tokens' : List Token} {s : Symbol} (h : s.Coherent tokens)
    (part : tokens <:+: tokens') : s.Coherent tokens' where
  context := h.context
  suffix := h.suffix.mono part
  type := h.type
  written := by
    obtain ⟨t, member, written⟩ := h.written
    exact ⟨t, part.subset member, written⟩

theorem Symbol.coherent_declaredAt {tokens : List Token} {t : Token} (member : t ∈ tokens)
    (isWord : t.kind.isWord = true) {kind : SymbolKind} {type : SymbolType} (has : kind.Has type)
    (context : String) (value : SymbolValue) :
    Symbol.Coherent tokens { declaredAt t kind type context with value } where
  context := rfl
  suffix := rfl
  type := has
  written := ⟨t, member, isWord, rfl, rfl, ⟨rfl, rfl⟩, .inl rfl⟩

end TalAnalysis

namespace TalAnalysis.Declaration

/-- The symbols are coherent, and the parts of a name come with the name. -/
structure Coherent (tokens : List Token) (found : List Finding) : Prop where
  symbols : ∀ s, .symbol s ∈ found → s.Coherent tokens
  bases : ∀ s, .symbol s ∈ found →
    ∃ base, .symbol base ∈ found ∧ base.key = { s.key with suffix := .none }

variable {tokens tokens' : List Token} {found others : List Finding}

namespace Coherent

theorem mono (h : Coherent tokens found) (part : tokens <:+: tokens') : Coherent tokens' found where
  symbols s member := (h.symbols s member).mono part
  bases := h.bases

theorem exists_name (h : Coherent tokens found) {s : Symbol} (member : .symbol s ∈ found) :
    ∃ base, .symbol base ∈ found ∧ s.key.name = base.name := by
  obtain ⟨base, listed, key⟩ := h.bases s member
  have named := (h.symbols base listed).suffix
  rw [congrArg SymbolKey.suffix key] at named
  exact ⟨base, listed, (congrArg SymbolKey.name key).symm.trans named⟩

theorem nil : Coherent tokens [] where
  symbols _ member := absurd member List.not_mem_nil
  bases _ member := absurd member List.not_mem_nil

theorem append (h : Coherent tokens found) (later : Coherent tokens others) :
    Coherent tokens (found ++ others) where
  symbols s member := (List.mem_append.1 member).elim (h.symbols s) (later.symbols s)
  bases s member := by
    rcases List.mem_append.1 member with here | there
    · obtain ⟨base, listed, key⟩ := h.bases s here
      exact ⟨base, List.mem_append_left others listed, key⟩
    · obtain ⟨base, listed, key⟩ := later.bases s there
      exact ⟨base, List.mem_append_right found listed, key⟩

end Coherent

theorem defineItem_coherent {name : Token} (isName : name.kind.isName = true) {context : String}
    {rest : List Token} {x : Symbol}
    (member : .symbol x ∈ (defineItem name rest).1.findings context) :
    x.Coherent (name :: rest) := by
  rcases DefineItem.mem_findings member with rfl | ⟨t, listed, isName, rfl⟩ | ⟨body, found, rfl⟩
  · rw [(defineItem_parts name rest).1]
    exact Symbol.coherent_declaredAt List.mem_cons_self (isWord_of_isName isName) .identifier _ _
  · have within := (defineItem_parameters name rest).subset listed
    exact {
      context := rfl
      suffix := ⟨rfl, rfl, rfl⟩
      type := .formal
      written := ⟨t, List.mem_cons_of_mem name within, isWord_of_isName isName, rfl, rfl,
        ⟨rfl, rfl⟩, .inl rfl⟩ }
  · obtain ⟨within, unmarked⟩ := defineItem_body found
    rw [(defineItem_parts name rest).1]
    exact {
      context := rfl
      suffix := ⟨rfl, rfl, rfl, body, rfl, within.trans (List.suffix_cons name rest).isInfix,
        unmarked⟩
      type := .body
      written := ⟨name, List.mem_cons_self, isWord_of_isName isName, rfl, rfl, ⟨rfl, rfl⟩,
        .inl rfl⟩ }

theorem directiveItem_coherent {t : Token} (isWord : t.kind.isWord = true) {context : String}
    {rest : List Token} {x : Symbol} (member : x ∈ (directiveItem t rest).1.symbols context) :
    x.Coherent (t :: rest) := by
  rcases List.mem_cons.1 member with rfl | listed
  · obtain ⟨token, name⟩ := directiveItem_name t rest
    rw [token]
    exact {
      context := rfl
      suffix := rfl
      type := .directive
      written := ⟨t, List.mem_cons_self, isWord, rfl, rfl, ⟨rfl, rfl⟩,
        name.imp_right fun known => ⟨rfl, known⟩⟩ }
  · obtain ⟨u, section_, rfl⟩ := List.mem_map.1 listed
    obtain ⟨within, isWord⟩ := mem_directiveItem_sections section_
    exact Symbol.coherent_declaredAt (List.mem_cons_of_mem t within) isWord .external _ .none

variable {s : State} {t : Token} {x : Symbol}

theorem Finds.coherent (h : Finds s t tokens found x) : x.Coherent (t :: tokens) := by
  have later {name : Token} {rest : List Token} (within : name :: rest <:+ tokens) :
      name :: rest <:+ t :: tokens := within.trans (List.suffix_cons t tokens)
  cases h with
  | directive _ isWord within own =>
      exact (directiveItem_coherent isWord own).mono (later within).isInfix
  | literal isName within =>
      exact Symbol.coherent_declaredAt ((later within).subset List.mem_cons_self)
        (isWord_of_isName isName) .value _ _
  | define _ isName within own =>
      exact (defineItem_coherent isName own).mono (later within).isInfix
  | variable_ d isName within =>
      exact Symbol.coherent_declaredAt ((later within).subset List.mem_cons_self)
        (isWord_of_isName isName) (.typed d) _ _
  | procedure isName member opens =>
      refine Symbol.coherent_declaredAt member (isWord_of_isName isName) ?_ _ _
      rcases opens with rfl | rfl
      · exact .procedure
      · exact .subprocedure
  | parameter isName member =>
      exact Symbol.coherent_declaredAt member (isWord_of_isName isName) .parameter _ .none
  | struct isName member =>
      exact Symbol.coherent_declaredAt member (isWord_of_isName isName) .struct _ .none

theorem Finds.exists_base (h : Finds s t tokens found x) (member : .symbol x ∈ found) :
    ∃ base, .symbol base ∈ found ∧ base.key = { x.key with suffix := .none } := by
  have own (plain : x.key.suffix = .none) :
      ∃ base, .symbol base ∈ found ∧ base.key = { x.key with suffix := .none } :=
    ⟨x, member, by rw [← plain]⟩
  cases h with
  | directive _ _ _ listed =>
      apply own
      rcases List.mem_cons.1 listed with rfl | section_
      · rfl
      · obtain ⟨u, -, rfl⟩ := List.mem_map.1 section_
        rfl
  | define _ _ _ listed all =>
      refine ⟨_, all _ List.mem_cons_self, ?_⟩
      rcases DefineItem.mem_findings listed with rfl | ⟨_, -, -, rfl⟩ | ⟨_, -, rfl⟩ <;> rfl
  | literal | variable_ | procedure | parameter | struct => exact own rfl

theorem step_coherent (s : State) (t : Token) (tokens : List Token) :
    Coherent (t :: tokens) (step s t tokens).findings where
  symbols _ member := (finds_of_mem member).coherent
  bases _ member := (finds_of_mem member).exists_base member

theorem findings_coherent (s : State) (tokens : List Token) :
    Coherent tokens (findings s tokens) := by
  fun_induction findings s tokens with
  | case1 => exact .nil
  | case2 s t rest _ next ih =>
      have left : next.rest <:+ t :: rest := (step_suffix s t rest).trans (List.suffix_cons t rest)
      exact (step_coherent s t rest).append (ih.mono left.isInfix)

theorem extract_coherent (tokens : List Token) :
    let table := (extract tokens).symbols
    (∀ s ∈ table.symbols, s.Coherent tokens) ∧
      (∀ key ∈ table.keys, { key with suffix := .none } ∈ table.keys) ∧
      table.keys.Nodup ∧ ∀ s ∈ table.symbols, table.get? s.key = some s := by
  intro table
  let found := (findings {} tokens).filterMap Finding.symbol?
  have coherent := findings_coherent {} tokens
  have mem_keys {key : SymbolKey} : key ∈ table.keys ↔ ∃ s ∈ found, s.key = key := by
    have keys : table.keys = (found.map Symbol.key).eraseDups := SymbolTable.keys_ofList found
    rw [keys, List.mem_eraseDups, List.mem_map]
  have distinct : table.keys.Nodup := SymbolTable.nodup_keys_ofList found
  refine ⟨?_, ?_, distinct, fun s member => SymbolTable.get?_key distinct member⟩
  · intro s member
    exact coherent.symbols s (Finding.mem_symbols.1 (SymbolTable.mem_ofList member))
  · intro key member
    obtain ⟨s, listed, rfl⟩ := mem_keys.1 member
    obtain ⟨base, listed, same⟩ := coherent.bases s (Finding.mem_symbols.1 listed)
    exact mem_keys.2 ⟨base, Finding.mem_symbols.2 listed, same⟩

end TalAnalysis.Declaration
