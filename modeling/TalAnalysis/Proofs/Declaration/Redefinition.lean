import TalAnalysis.Editor.Detail
import TalAnalysis.Lexer.Scan
import TalAnalysis.Proofs.Declaration.Coherence
import TalAnalysis.Proofs.Symbol.Table

namespace TalAnalysis.Declaration

structure Definition where
  context : String
  item : DefineItem
deriving DecidableEq

namespace Definition

def name (d : Definition) : String := d.item.name.text

def identifier (d : Definition) : Symbol :=
  { Symbol.declaredAt d.item.name .define .identifier d.context with value := .text d.name }

def parameters (d : Definition) : List Symbol :=
  (d.item.parameters.filter fun t => t.kind.isName).map fun t =>
    { Symbol.declaredAt t .define .parameter d.context with
      key := ⟨d.context, d.name, .parameter t.text⟩ }

def bodies (d : Definition) : List Symbol :=
  d.item.body?.toList.map fun body =>
    { Symbol.declaredAt d.item.name .define .body d.context with
      key := ⟨d.context, d.name, .body⟩, value := .tokens body }

def symbols (d : Definition) : List Symbol := d.identifier :: (d.parameters ++ d.bodies)

end Definition

def stepDefinitions (s : State) (t : Token) (tokens : List Token) : List Definition :=
  if t.kind = .keyword .define then (defines tokens).items.map fun item => ⟨s.context, item⟩ else []

def definitions (s : State) (tokens : List Token) : List Definition :=
  (steps s tokens).flatMap fun (s, t, rest) => stepDefinitions s t rest

def definitionsOf (context name : String) (tokens : List Token) : List Definition :=
  (definitions {} tokens).filter fun d => d.context = context ∧ d.name = name

variable {s : State} {t : Token} {tokens : List Token} {x : Symbol} {d : Definition}

theorem symbols_findings (context : String) (item : DefineItem) :
    (item.findings context).filterMap Finding.symbol? = Definition.symbols ⟨context, item⟩ := by
  have found (symbols : List Symbol) :
      (symbols.map Finding.symbol).filterMap Finding.symbol? = symbols := by
    rw [List.filterMap_map]
    exact List.filterMap_some
  obtain ⟨name, parameters, body?, terminated⟩ := item
  rw [DefineItem.findings, List.filterMap_append, ← List.map_cons, found]
  cases body? <;> cases terminated <;> rfl

namespace Definition

theorem key_of_mem (member : x ∈ d.symbols) : x.key.context = d.context ∧ x.key.name = d.name := by
  simp only [symbols, List.mem_cons, List.mem_append, parameters, bodies, List.mem_map] at member
  rcases member with rfl | ⟨_, -, rfl⟩ | ⟨_, -, rfl⟩ <;> exact ⟨rfl, rfl⟩

theorem kind_of_mem (member : x ∈ d.symbols) : x.kind = .define := by
  simp only [symbols, List.mem_cons, List.mem_append, parameters, bodies, List.mem_map] at member
  rcases member with rfl | ⟨_, -, rfl⟩ | ⟨_, -, rfl⟩ <;> rfl

theorem suffix_of_mem_parameters (member : x ∈ d.parameters) :
    ∃ p, x.key.suffix = .parameter p := by
  obtain ⟨t, -, rfl⟩ := List.mem_map.1 member
  exact ⟨t.text, rfl⟩

theorem suffix_of_mem_bodies (member : x ∈ d.bodies) : x.key.suffix = .body := by
  obtain ⟨body, -, rfl⟩ := List.mem_map.1 member
  rfl

theorem filter_identifier (d : Definition) :
    d.symbols.filter (fun x => x.key.suffix == .none) = [d.identifier] := by
  have parts : (d.parameters ++ d.bodies).filter (fun x => x.key.suffix == .none) = [] := by
    refine List.filter_eq_nil_iff.2 fun x member => ?_
    rcases List.mem_append.1 member with parameter | body
    · obtain ⟨p, suffix⟩ := suffix_of_mem_parameters parameter
      simp [suffix]
    · simp [suffix_of_mem_bodies body]
  rw [symbols, List.filter_cons_of_pos (by rfl), parts]

theorem filter_parameters (d : Definition) :
    d.symbols.filter (fun x => x.key.suffix.isParameter) = d.parameters := by
  have parameters : d.parameters.filter (fun x => x.key.suffix.isParameter) = d.parameters := by
    refine List.filter_eq_self.2 fun x member => ?_
    obtain ⟨p, suffix⟩ := suffix_of_mem_parameters member
    rw [suffix]
    rfl
  have bodies : d.bodies.filter (fun x => x.key.suffix.isParameter) = [] := by
    refine List.filter_eq_nil_iff.2 fun x member => ?_
    simp [suffix_of_mem_bodies member, KeySuffix.isParameter]
  rw [symbols, List.filter_cons_of_neg Bool.false_ne_true, List.filter_append, parameters, bodies,
    List.append_nil]

theorem filter_bodies (d : Definition) :
    d.symbols.filter (fun x => x.key.suffix == .body) = d.bodies := by
  have parameters : d.parameters.filter (fun x => x.key.suffix == .body) = [] := by
    refine List.filter_eq_nil_iff.2 fun x member => ?_
    obtain ⟨p, suffix⟩ := suffix_of_mem_parameters member
    simp [suffix]
  have bodies : d.bodies.filter (fun x => x.key.suffix == .body) = d.bodies := by
    refine List.filter_eq_self.2 fun x member => ?_
    simp [suffix_of_mem_bodies member]
  rw [symbols, List.filter_cons_of_neg Bool.false_ne_true, List.filter_append, parameters, bodies,
    List.nil_append]

end Definition

theorem filter_step {keeps : Symbol → Bool}
    (only : ∀ x, .symbol x ∈ (step s t tokens).findings → keeps x = true → x.kind = .define) :
    ((step s t tokens).findings.filterMap Finding.symbol?).filter keeps =
      (stepDefinitions s t tokens).flatMap fun d => d.symbols.filter keeps := by
  by_cases defines_ : t.kind = .keyword .define
  · have read : step s t tokens = defineStep s tokens := by simp only [step, defines_]
    rw [read, stepDefinitions, if_pos defines_, defineStep, List.filterMap_flatMap,
      List.filter_flatMap, List.flatMap_map]
    simp only [symbols_findings]
  · rw [stepDefinitions, if_neg defines_]
    refine List.filter_eq_nil_iff.2 fun x member kept => ?_
    have found := Finding.mem_symbols.1 member
    exact defines_ ((finds_of_mem found).kind_of_define (only x found kept))

theorem filter_findings {keeps : Symbol → Bool}
    (only : ∀ x, .symbol x ∈ findings s tokens → keeps x = true → x.kind = .define) :
    ((findings s tokens).filterMap Finding.symbol?).filter keeps =
      (definitions s tokens).flatMap fun d => d.symbols.filter keeps := by
  fun_induction findings s tokens with
  | case1 => rw [definitions, steps]; rfl
  | case2 s t rest _ next ih =>
      rw [definitions, steps_cons, List.flatMap_cons, List.flatMap_append, ← definitions,
        List.filterMap_append, List.filter_append,
        filter_step fun x member => only x (List.mem_append_left _ member),
        ih fun x member => only x (List.mem_append_right _ member)]

def isKeyOf (context name : String) (suffix : KeySuffix → Bool) (key : SymbolKey) : Bool :=
  key.context == context && key.name == name && suffix key.suffix

theorem isKeyOf_none {context name : String} {key : SymbolKey} :
    isKeyOf context name (· == .none) key = true ↔ key = ⟨context, name, .none⟩ := by
  cases key
  simp [isKeyOf, and_assoc]

theorem filter_keys {context name : String} {suffix : KeySuffix → Bool} (d : Definition) :
    d.symbols.filter (fun x => isKeyOf context name suffix x.key) =
      if d.context = context ∧ d.name = name then d.symbols.filter fun x => suffix x.key.suffix
      else [] := by
  split
  · rename_i same
    refine List.filter_congr fun x member => ?_
    obtain ⟨inContext, named⟩ := d.key_of_mem member
    simp [isKeyOf, inContext, named, same]
  · rename_i other
    refine List.filter_eq_nil_iff.2 fun x member => ?_
    obtain ⟨inContext, named⟩ := d.key_of_mem member
    simpa [isKeyOf, inContext, named] using fun same same' => absurd ⟨same, same'⟩ other

theorem flatMap_declared {context name : String} (part : Definition → List Symbol)
    (definitions : List Definition) :
    (definitions.flatMap fun d => if d.context = context ∧ d.name = name then part d else []) =
      (definitions.filter fun d => d.context = context ∧ d.name = name).flatMap part := by
  induction definitions with
  | nil => rfl
  | cons d definitions ih =>
      rw [List.flatMap_cons, List.filter_cons, ih]
      by_cases declared : d.context = context ∧ d.name = name <;> simp [declared]

theorem filter_definitionsOf (context name : String) (suffix : KeySuffix → Bool)
    {keeps : Symbol → Bool}
    (only : ∀ x, .symbol x ∈ findings {} tokens → keeps x = true → x.kind = .define)
    (same : ∀ d : Definition, ∀ x ∈ d.symbols, keeps x = isKeyOf context name suffix x.key) :
    ((findings {} tokens).filterMap Finding.symbol?).filter keeps =
      (definitionsOf context name tokens).flatMap fun d =>
        d.symbols.filter fun x => suffix x.key.suffix := by
  have parts (d : Definition) : d.symbols.filter keeps =
      if d.context = context ∧ d.name = name then d.symbols.filter fun x => suffix x.key.suffix
      else [] := by
    rw [List.filter_congr (same d), filter_keys]
  rw [filter_findings only, definitionsOf, ← flatMap_declared]
  simp only [parts]

theorem kind_of_suffix (member : .symbol x ∈ findings s tokens) (part : x.key.suffix ≠ .none) :
    x.kind = .define := by
  have fits := ((findings_coherent s tokens).symbols x member).suffix
  cases suffix : x.key.suffix with
  | none => exact absurd suffix part
  | parameter p =>
      rw [suffix] at fits
      exact fits.2.1
  | body =>
      rw [suffix] at fits
      exact fits.2.1

theorem filter_parts (tokens : List Token) {suffix : KeySuffix → Bool}
    (noBase : suffix .none = false) {part : Definition → List Symbol}
    (own : ∀ d : Definition, d.symbols.filter (fun x => suffix x.key.suffix) = part d)
    (context name : String) :
    (extract tokens).symbols.symbols.filter (fun x => isKeyOf context name suffix x.key) =
      (SymbolTable.ofList ((definitionsOf context name tokens).flatMap part)).symbols := by
  have only (x : Symbol) (member : .symbol x ∈ findings {} tokens)
      (kept : isKeyOf context name suffix x.key = true) : x.kind = .define := by
    refine kind_of_suffix member fun base => ?_
    simp [isKeyOf, base, noBase] at kept
  have found := filter_definitionsOf context name suffix only fun _ _ _ => rfl
  rw [extract, SymbolTable.filter_ofList, found]
  simp only [own]

theorem key_of_identifier {e : Symbol} (listed : e ∈ (extract tokens).symbols.symbols)
    (identifier : e.type = .identifier) : e.key = ⟨e.context, e.name, .none⟩ := by
  obtain ⟨context, fits, -, -⟩ := (extract_coherent tokens).1 e listed
  obtain ⟨⟨keyContext, keyName, suffix⟩, _, _, _, _, _, _, _, _, _⟩ := e
  cases suffix with
  | none => exact congrArg₂ (SymbolKey.mk · · .none) context fits
  | parameter p => cases identifier.symm.trans fits.2.2
  | body => cases identifier.symm.trans fits.2.2.1

theorem identifier_of_last {e : Symbol} (listed : e ∈ (extract tokens).symbols.symbols)
    (define : e.kind = .define) (identifier : e.type = .identifier) :
    ∃ last, (definitionsOf e.context e.name tokens).getLast? = some last ∧ last.identifier = e := by
  let found := (findings {} tokens).filterMap Finding.symbol?
  let keeps (x : Symbol) : Bool :=
    x.kind == .define && isKeyOf e.context e.name (· == .none) x.key
  have key := key_of_identifier listed identifier
  have stands : found.reverse.find? (fun x => x.key == e.key) = some e := by
    rw [← SymbolTable.get?_ofList]
    exact (extract_coherent tokens).2.2.2 e listed
  have last : found.reverse.find? keeps = some e := by
    obtain ⟨-, later, earlier, split, others⟩ := List.find?_eq_some_iff_append.1 stands
    refine List.find?_eq_some_iff_append.2 ⟨by simp [keeps, define, key, isKeyOf], later, earlier,
      split, fun x member => ?_⟩
    have other : x.key ≠ e.key := by simpa using others x member
    have unkept : isKeyOf e.context e.name (· == .none) x.key = false :=
      Bool.eq_false_iff.2 fun same => other ((isKeyOf_none.1 same).trans key.symm)
    simp [keeps, unkept]
  have named : found.filter keeps =
      (definitionsOf e.context e.name tokens).map Definition.identifier := by
    rw [filter_definitionsOf e.context e.name (· == .none)]
    · simp only [Definition.filter_identifier]
      exact List.map_eq_flatMap.symm
    · intro x _ kept
      exact eq_of_beq (Bool.and_eq_true_iff.1 kept).1
    · intro d x member
      simp [keeps, d.kind_of_mem member]
  have same : (found.filter keeps).getLast? = some e := by
    rw [← List.head?_reverse, ← List.filter_reverse, List.head?_filter, last]
  rw [named, List.getLast?_map] at same
  exact Option.map_eq_some_iff.1 same

/-- What the earlier definitions declare, the last one declares again, before anything else. -/
def Definition.Extends (last : Definition) (earlier : List Definition)
    (part : Definition → List Symbol) : Prop :=
  (SymbolTable.ofList (earlier.flatMap part)).keys <+: (SymbolTable.ofList (part last)).keys

instance (last : Definition) (earlier : List Definition) (part : Definition → List Symbol) :
    Decidable (last.Extends earlier part) := inferInstanceAs (Decidable (_ <+: _))

theorem ofList_bodies (d : Definition) : (SymbolTable.ofList d.bodies).symbols = d.bodies := by
  rw [Definition.bodies]
  cases d.item.body? <;> rfl

section Parts

variable (suffix : KeySuffix → Bool) {part : Definition → List Symbol} {context name : String}
  {last : Definition}

theorem mem_of_last (noBase : suffix .none = false)
    (own : ∀ d : Definition, d.symbols.filter (fun x => suffix x.key.suffix) = part d)
    (final : (definitionsOf context name tokens).getLast? = some last) {p : Symbol}
    (member : p ∈ (SymbolTable.ofList (part last)).symbols) :
    p ∈ (extract tokens).symbols.symbols := by
  obtain ⟨earlier, split⟩ := List.getLast?_eq_some_iff.1 final
  have stands : (SymbolTable.ofList (part last)).get? p.key = some p :=
    SymbolTable.get?_key (SymbolTable.nodup_keys_ofList _) member
  have still : (SymbolTable.ofList (earlier.flatMap part ++ part last)).get? p.key = some p := by
    rw [SymbolTable.get?_ofList] at stands ⊢
    rw [List.reverse_append, List.find?_append, stands]
    rfl
  have parts := filter_parts tokens noBase own context name
  rw [split, List.flatMap_append, List.flatMap_singleton] at parts
  exact (List.mem_filter.1 (parts ▸ List.mem_of_find?_eq_some still)).1

theorem filter_parts_of_extends (noBase : suffix .none = false)
    (own : ∀ d : Definition, d.symbols.filter (fun x => suffix x.key.suffix) = part d)
    (final : (definitionsOf context name tokens).getLast? = some last)
    (extends_ : last.Extends (definitionsOf context name tokens).dropLast part) :
    (extract tokens).symbols.symbols.filter (fun x => isKeyOf context name suffix x.key) =
      (SymbolTable.ofList (part last)).symbols := by
  obtain ⟨earlier, split⟩ := List.getLast?_eq_some_iff.1 final
  rw [split, List.dropLast_concat] at extends_
  rw [filter_parts tokens noBase own, split, List.flatMap_append, List.flatMap_singleton,
    SymbolTable.ofList_append_of_keys extends_]

end Parts

theorem filter_context (suffix : KeySuffix → Bool) (e : Symbol) :
    (extract tokens).symbols.symbols.filter (fun p =>
        p.context = e.context ∧ p.key.name = e.name ∧ suffix p.key.suffix = true) =
      (extract tokens).symbols.symbols.filter fun p => isKeyOf e.context e.name suffix p.key := by
  refine List.filter_congr fun p member => ?_
  have inContext := ((extract_coherent tokens).1 p member).context
  rw [Bool.eq_iff_iff]
  simp [isKeyOf, inContext, and_assoc]

theorem defineParameters_extract (e : Symbol) :
    (extract tokens).symbols.defineParameters e =
      ((extract tokens).symbols.symbols.filter fun p =>
        isKeyOf e.context e.name KeySuffix.isParameter p.key).map Symbol.name := by
  rw [SymbolTable.defineParameters, filter_context]

theorem defineBody_extract (e : Symbol) :
    let bodies := (extract tokens).symbols.symbols.filter fun p =>
      isKeyOf e.context e.name (· == .body) p.key
    (extract tokens).symbols.defineBody e =
      (bodies.head?.map fun b => b.value.render).getD "" := by
  intro bodies
  rw [show bodies = _ from (filter_context _ e).symm, List.head?_filter, SymbolTable.defineBody]
  simp

theorem Definition.render_bodies (d : Definition) :
    (d.bodies.head?.map fun b => b.value.render).getD "" =
      (d.item.body?.map Token.joinText).getD "" := by
  rw [bodies]
  cases d.item.body? <;> rfl

/-- The entry for the name of a DEFINE is that of its last definition, and all parts of that
definition are in the table. They are the only parts of the name, and the only ones that its
declaration shows, if what the earlier definitions declare comes first in the last one too. -/
theorem definition_lastWins (tokens : List Token) :
    let table := (extract tokens).symbols
    ∀ e ∈ table.symbols, e.kind = .define → e.type = .identifier →
      let all := definitionsOf e.context e.name tokens
      ∃ last, all.getLast? = some last ∧ last.identifier = e ∧
        (∀ p ∈ (SymbolTable.ofList last.parameters).symbols ++ last.bodies, p ∈ table.symbols) ∧
        (last.Extends all.dropLast Definition.parameters →
          table.symbols.filter (fun p => isKeyOf e.context e.name KeySuffix.isParameter p.key) =
            (SymbolTable.ofList last.parameters).symbols) ∧
        (last.Extends all.dropLast Definition.bodies →
          table.symbols.filter (fun p => isKeyOf e.context e.name (· == .body) p.key) =
            last.bodies) ∧
        (last.Extends all.dropLast Definition.parameters →
          last.Extends all.dropLast Definition.bodies →
          let names := (SymbolTable.ofList last.parameters).symbols.map Symbol.name
          let body := (last.item.body?.map Token.joinText).getD ""
          table.detail e = "DEFINE " ++ e.name ++ SymbolTable.parenthesizedNames names ++ " = " ++
            body ++ " #") := by
  intro table e listed define identifier all
  obtain ⟨last, final, same⟩ := identifier_of_last listed define identifier
  have parameters := filter_parts_of_extends KeySuffix.isParameter rfl
    Definition.filter_parameters final
  have bodies := filter_parts_of_extends (· == .body) rfl
    Definition.filter_bodies final
  rw [ofList_bodies] at bodies
  refine ⟨last, final, same, fun p member => ?_, parameters, bodies, ?_⟩
  · rcases List.mem_append.1 member with parameter | body
    · exact mem_of_last KeySuffix.isParameter rfl Definition.filter_parameters final
        parameter
    · rw [← ofList_bodies] at body
      exact mem_of_last (· == .body) rfl Definition.filter_bodies final body
  · intro extendsParameters extendsBodies names body
    have shownNames : table.defineParameters e = names := by
      rw [defineParameters_extract, parameters extendsParameters]
    have shownBody : table.defineBody e = body := by
      rw [defineBody_extract, bodies extendsBodies, Definition.render_bodies]
    simp only [SymbolTable.detail, define, identifier, shownNames, shownBody]

theorem definition_lastWins_longer :
    let tokens := (lex "DEFINE d(a) = a #, e = 1 #; DEFINE d(a, b) = a + b #;" {}).tokens
    let table := (extract tokens).symbols
    ∃ e ∈ table.symbols, (e.kind = .define ∧ e.type = .identifier ∧ e.context = globalContext) ∧
      (definitionsOf globalContext e.name tokens).length = 2 ∧
      ∃ last, (definitionsOf globalContext e.name tokens).getLast? = some last ∧
        table.symbols.filter (fun p => isKeyOf globalContext e.name KeySuffix.isParameter p.key) =
          (SymbolTable.ofList last.parameters).symbols ∧
        table.symbols.filter (fun p => isKeyOf globalContext e.name (· == .body) p.key) =
          last.bodies := by
  intro tokens table
  have ⟨e, listed, define, identifier, context, several, fits⟩ :
      ∃ e ∈ table.symbols, e.kind = .define ∧ e.type = .identifier ∧
        e.context = globalContext ∧ (definitionsOf globalContext e.name tokens).length = 2 ∧
        ∀ last ∈ (definitionsOf globalContext e.name tokens).getLast?,
          last.Extends (definitionsOf globalContext e.name tokens).dropLast
              Definition.parameters ∧
            last.Extends (definitionsOf globalContext e.name tokens).dropLast
              Definition.bodies := by
    decide +kernel
  obtain ⟨last, final, -, -, parameters, bodies, -⟩ :=
    definition_lastWins tokens e listed define identifier
  rw [context] at final parameters bodies
  obtain ⟨extendsParameters, extendsBodies⟩ := fits last final
  exact ⟨e, listed, ⟨define, identifier, context⟩, several, last, final,
    parameters extendsParameters, bodies extendsBodies⟩

/-- A parameter that only the earlier definition has stays, and is shown. -/
example :
    let table := (extract (lex "DEFINE d(a) = a #; DEFINE d = 1 #;" {}).tokens).symbols
    (table.firstNamed? "d").map table.detail = some "DEFINE d(a) = 1 #" := by
  decide +kernel

end TalAnalysis.Declaration
