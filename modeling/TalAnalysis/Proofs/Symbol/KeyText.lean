import TalAnalysis.Analysis
import TalAnalysis.Proofs.Declaration.ContextName
import TalAnalysis.Proofs.Lexer.Reading

/-!
# Keys as text

A key is written with dots between its parts. No name holds a dot, so the last part of a written key
can be told from what is before it, but not whether the key has two parts or three, nor whether the
third is the word `Body` or a parameter of this name. So two symbols have their keys in common as
text if one is the body of a DEFINE and the other its parameter `Body`, or if a file is named as the
front part of a key of a DEFINE is written (`render_key_eq_iff`).

* `append_dot_inj`: a text is cut in one way at its last dot.
* `dotless_key`: which parts of a key hold no dot.
* `render_key_eq_iff`: which symbols have one written key.
-/

namespace TalAnalysis
open Text Declaration

variable {source : String} {options : LexOptions} {s s' : Symbol}

def Dotless (text : String) : Prop := '.' ∉ text.toList

instance (text : String) : Decidable (Dotless text) := inferInstanceAs (Decidable (_ ∉ _))

theorem append_dot_inj {front front' last last' : String} (dotless : Dotless last)
    (dotless' : Dotless last') :
    front ++ "." ++ last = front' ++ "." ++ last' ↔ front = front' ∧ last = last' := by
  refine ⟨fun same => ?_, by rintro ⟨rfl, rfl⟩; rfl⟩
  have chars : front.toList ++ '.' :: last.toList = front'.toList ++ '.' :: last'.toList := by
    simpa using congrArg String.toList same
  rcases in_front_or_after chars with ⟨left, front'_eq⟩ | ⟨left, front_eq, rest⟩
  · rw [front'_eq, List.append_assoc, List.append_cancel_left_eq, List.cons_append,
      List.cons.injEq] at chars
    refine absurd ?_ dotless
    rw [chars.2]
    simp
  · cases left with
    | nil =>
        rw [List.append_nil] at front_eq
        exact ⟨String.toList_inj.1 front_eq, String.toList_inj.1 (List.cons.inj rest).2.symm⟩
    | cons c left =>
        refine absurd ?_ dotless'
        rw [(List.cons.inj rest).2]
        simp

attribute [ext] SymbolKey

namespace SymbolKey

def front (k : SymbolKey) : String :=
  match k.suffix with
  | .none => k.context
  | .parameter _ | .body => k.context ++ "." ++ k.name

def last (k : SymbolKey) : String :=
  match k.suffix with
  | .none => k.name
  | .parameter p => p
  | .body => "Body"

theorem front_of_part {k : SymbolKey} (part : k.suffix ≠ .none) :
    k.front = k.context ++ "." ++ k.name := by
  rw [front]
  cases suffix : k.suffix with
  | none => exact absurd suffix part
  | parameter | body => rfl

theorem render_eq (k : SymbolKey) : k.render = k.front ++ "." ++ k.last := by
  rw [render, front, last]
  cases k.suffix with
  | none => simp
  | parameter | body => simp [String.append_assoc]

theorem suffix_of_last {k k' : SymbolKey} (part : k.suffix ≠ .none) (part' : k'.suffix ≠ .none)
    (same : k.last = k'.last) :
    k.suffix = k'.suffix ∨ (k.suffix = .parameter "Body" ∧ k'.suffix = .body) ∨
      (k'.suffix = .parameter "Body" ∧ k.suffix = .body) := by
  rw [last, last] at same
  -- A parameter ends in its name and a body in the word `Body`.
  generalize k.suffix = suffix at part same
  generalize k'.suffix = suffix' at part' same
  cases suffix with
  | none => exact absurd rfl part
  | parameter p =>
      cases suffix' with
      | none => exact absurd rfl part'
      | parameter p' => exact .inl (congrArg _ same)
      | body => exact .inr (.inl ⟨congrArg _ same, rfl⟩)
  | body =>
      cases suffix' with
      | none => exact absurd rfl part'
      | parameter p' => exact .inr (.inr ⟨congrArg _ same.symm, rfl⟩)
      | body => exact .inl rfl

end SymbolKey

theorem dotless_of_namedBy {context : String}
    (named : NamedBy (lex source options).tokens context) : Dotless context := by
  rcases named with rfl | ⟨t, member, isWord, rfl⟩
  · decide
  · exact not_mem_text_of_isWord member isWord (by decide) (by decide)

theorem dotless_name (found : .symbol s ∈ findings {} (lex source options).tokens) :
    Dotless s.name := by
  have directives : ∀ d ∈ Directive.all, Dotless d.spelling := by decide +kernel
  obtain ⟨t, member, written⟩ := ((findings_coherent {} _).symbols s found).written
  rcases written.name with same | ⟨-, d, -, same⟩
  · exact same ▸ not_mem_text_of_isWord member written.isWord (by decide) (by decide)
  · exact same ▸ directives d (Directive.mem_all d)

/-- Which parts of the key of a symbol hold no dot. The context may hold one if it is a file. -/
structure Symbol.KeyDotless (s : Symbol) : Prop where
  context : s.type = .external ∨ Dotless s.key.context
  name : Dotless s.key.name
  last : Dotless s.key.last

theorem dotless_key (found : .symbol s ∈ findings {} (lex source options).tokens) :
    s.KeyDotless := by
  have coherent := findings_coherent {} (lex source options).tokens
  have own := coherent.symbols s found
  obtain ⟨base, listed, name⟩ := coherent.exists_name found
  have scopes : ScopesNamed (lex source options).tokens ({} : State).scopes :=
    fun scope member => .inl (List.mem_singleton.1 member ▸ rfl)
  refine ⟨?_, name ▸ dotless_name listed, ?_⟩
  · rw [own.context]
    exact (findings_named scopes (List.Subset.refl _) found).symm.imp_right dotless_of_namedBy
  · rw [SymbolKey.last]
    cases suffix : s.key.suffix with
    | none => exact name ▸ dotless_name listed
    | body => exact (by decide : Dotless "Body")
    | parameter p =>
        have fits := own.suffix
        rw [suffix] at fits
        exact fits.1 ▸ dotless_name found

/-- The key of `s` is written as that of a part of a DEFINE, which `s'` is: as the body, where `s`
is the parameter `Body`, or as either where `s` is a procedure of a file whose name ends in a dot
and the name of the DEFINE. -/
inductive Symbol.WrittenAsPart (s s' : Symbol) : Prop
  | parameter (own : s.key.suffix = .parameter "Body")
      (body : s'.key = { s.key with suffix := .body })
  | external (own : s.type = .external) (plain : s.key.suffix = .none)
      (part : s'.key.suffix ≠ .none) (name : s.key.name = s'.key.last)
      (file : s.key.context = s'.key.context ++ "." ++ s'.key.name)

namespace Symbol

theorem WrittenAsPart.suffix_ne (h : s.WrittenAsPart s') : s.key.suffix ≠ s'.key.suffix := by
  cases h with
  | parameter own body =>
      rw [own, body]
      simp
  | external own plain part => exact plain ▸ part.symm

theorem WrittenAsPart.render_eq (h : s.WrittenAsPart s') : s.key.render = s'.key.render := by
  rw [s.key.render_eq, s'.key.render_eq]
  cases h with
  | parameter own body => simp [own, body, SymbolKey.front, SymbolKey.last]
  | external own plain part name file =>
      rw [SymbolKey.front_of_part part, ← file, ← name, SymbolKey.front, SymbolKey.last, plain]

theorem writtenAsPart_of_plain (h : s.KeyDotless) (plain : s.key.suffix = .none)
    (part : s'.key.suffix ≠ .none) (front : s.key.front = s'.key.front)
    (last : s.key.last = s'.key.last) : s.WrittenAsPart s' := by
  have file : s.key.context = s'.key.context ++ "." ++ s'.key.name := by
    rw [← SymbolKey.front_of_part part, ← front, SymbolKey.front, plain]
  have external : s.type = .external := by
    refine h.context.resolve_right fun dotless => dotless ?_
    rw [file]
    simp
  refine .external external plain part ?_ file
  rw [← last, SymbolKey.last, plain]

theorem render_key_cases (h : s.KeyDotless) (h' : s'.KeyDotless)
    (same : s.key.render = s'.key.render) :
    s.key = s'.key ∨ s.WrittenAsPart s' ∨ s'.WrittenAsPart s := by
  rw [s.key.render_eq, s'.key.render_eq, append_dot_inj h.last h'.last] at same
  obtain ⟨front, last⟩ := same
  by_cases plain : s.key.suffix = .none
  · by_cases plain' : s'.key.suffix = .none
    · rw [SymbolKey.front, SymbolKey.front, plain, plain'] at front
      rw [SymbolKey.last, SymbolKey.last, plain, plain'] at last
      exact .inl (SymbolKey.ext front last (plain.trans plain'.symm))
    · exact .inr (.inl (writtenAsPart_of_plain h plain plain' front last))
  · by_cases plain' : s'.key.suffix = .none
    · exact .inr (.inr (writtenAsPart_of_plain h' plain' plain front.symm last.symm))
    · rw [SymbolKey.front_of_part plain, SymbolKey.front_of_part plain',
        append_dot_inj h.name h'.name] at front
      obtain ⟨context, name⟩ := front
      rcases SymbolKey.suffix_of_last plain plain' last with suffix | ⟨own, body⟩ | ⟨own, body⟩
      · exact .inl (SymbolKey.ext context name suffix)
      · exact .inr (.inl (.parameter own (SymbolKey.ext context.symm name.symm body)))
      · exact .inr (.inr (.parameter own (SymbolKey.ext context name body)))

end Symbol

/-- Two entries have one written key if one of them is written as a part of a DEFINE, which the
other is, and in no other case. -/
theorem render_key_eq_iff (source : String) (options : LexOptions) :
    let symbols := (analyze source options).symbols.symbols
    (∀ s ∈ symbols, ∀ s' ∈ symbols, s.key.render = s'.key.render ↔
      s = s' ∨ s.WrittenAsPart s' ∨ s'.WrittenAsPart s) ∧
    ((symbols.map fun s => s.key.render).Nodup ↔
      ∀ s ∈ symbols, ∀ s' ∈ symbols, ¬ s.WrittenAsPart s') := by
  intro symbols
  have found {s : Symbol} (member : s ∈ symbols) : .symbol s ∈ findings {} _ :=
    Finding.mem_symbols.1 (SymbolTable.mem_ofList member)
  have distinct : (symbols.map Symbol.key).Nodup := SymbolTable.nodup_keys_ofList _
  have same {s s' : Symbol} (member : s ∈ symbols) (member' : s' ∈ symbols) :
      s.key.render = s'.key.render ↔ s = s' ∨ s.WrittenAsPart s' ∨ s'.WrittenAsPart s := by
    constructor
    · intro rendered
      refine (Symbol.render_key_cases (dotless_key (found member)) (dotless_key (found member'))
        rendered).imp_left fun key => ?_
      exact List.inj_on_of_nodup_map distinct member member' key
    · rintro (rfl | written | written)
      · rfl
      · exact written.render_eq
      · exact written.render_eq.symm
  refine ⟨fun s member s' member' => same member member',
    fun apart s member s' member' written => ?_, fun none => ?_⟩
  · have one : s = s' := List.inj_on_of_nodup_map apart member member' written.render_eq
    exact written.suffix_ne (congrArg (fun s => s.key.suffix) one)
  · refine (List.nodup_map_iff_inj_on distinct.of_map).2 fun s member s' member' rendered => ?_
    rcases (same member member').1 rendered with one | written | written
    · exact one
    · exact absurd written (none s member s' member')
    · exact absurd written (none s' member' s member)

example : let symbols := (analyze "DEFINE d(Body) = 1 #;").symbols.symbols
    symbols.map (fun s => s.key.render) = ["Global.d", "Global.d.Body", "Global.d.Body"] := by
  decide +kernel

example : let symbols := (analyze "?SOURCE Global.d(b)\nDEFINE d(b) = 1 #;").symbols.symbols
    symbols.map (fun s => s.key.render) =
      ["Global.SOURCE", "Global.d.b", "Global.d", "Global.d.b", "Global.d.Body"] := by
  decide +kernel

end TalAnalysis
