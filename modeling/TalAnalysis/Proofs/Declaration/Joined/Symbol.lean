import TalAnalysis.Proofs.Declaration.Joined.Line
import TalAnalysis.Proofs.Declaration.Step

/-!
# Symbols of joined names

Without names joined, the scopes have the first words of their names (`State.shortened`), and a
symbol that is declared by a joined name is declared by its first word, or by all of its words. If
no such word is the name of a directive, both declare nothing under the key of one.

* `keyed_joins`: a symbol beside the one of the joined name.
* `keyed_tokens`: the symbols of a list of names.
-/

namespace TalAnalysis

def SymbolKey.shortened (key : SymbolKey) : SymbolKey :=
  { key with context := firstWord key.context }

namespace Declaration
open Token

def Scope.shortened (scope : Scope) : Scope := { scope with name := firstWord scope.name }

def State.shortened (s : State) : State := { s with scopes := s.scopes.map Scope.shortened }

namespace State

variable (s : State)

theorem context_shortened : s.shortened.context = firstWord s.context := by
  have global : firstWord globalContext = globalContext := by decide
  rw [context, context, contextOf, contextOf, shortened]
  cases s.scopes with
  | nil => exact global.symm
  | cons => rfl

theorem afterList_shortened (closed : Bool) :
    s.shortened.afterList closed = (s.afterList closed).shortened := by
  cases closed <;> rfl

theorem leave_shortened (scopes : List Scope) :
    leave (scopes.map Scope.shortened) = (leave scopes).map Scope.shortened := by
  rcases scopes with _ | ⟨inner, _ | ⟨outer, scopes⟩⟩ <;> rfl

theorem openBlock_shortened : s.shortened.openBlock = s.openBlock.shortened := by
  obtain ⟨scopes, depth, start⟩ := s
  cases scopes with
  | nil => rfl
  | cons scope outer =>
      have same : scope.shortened.awaitsBody = scope.awaitsBody := rfl
      simp only [openBlock, shortened, List.map_cons, same]
      split <;> rfl

theorem closeBlock_shortened : s.shortened.closeBlock = s.closeBlock.shortened := by
  obtain ⟨scopes, depth, start⟩ := s
  have same : (scopes.map Scope.shortened).head?.bind Scope.bodyDepth? =
      scopes.head?.bind Scope.bodyDepth? := by
    cases scopes <;> rfl
  simp only [closeBlock, shortened, same, leave_shortened]
  split <;> rfl

theorem bodyElsewhere_shortened : s.shortened.bodyElsewhere = s.bodyElsewhere.shortened := by
  obtain ⟨scopes, depth, start⟩ := s
  have same : (scopes.map Scope.shortened).head?.map Scope.awaitsProcedureBody =
      scopes.head?.map Scope.awaitsProcedureBody := by
    cases scopes <;> rfl
  simp only [bodyElsewhere, shortened, same, leave_shortened]
  split <;> rfl

theorem closeBodiless_shortened (kinds : List ScopeKind) (scopes : List Scope) :
    closeBodiless kinds (scopes.map Scope.shortened) =
      (closeBodiless kinds scopes).map Scope.shortened := by
  rw [closeBodiless, closeBodiless, List.dropWhile_map]
  rfl

end State

end Declaration

def Symbol.isRegistered (x : Symbol) : Bool := x.kind == .directive && namesDirective x.name

def Symbol.keyedLikeDirective (x : Symbol) : Bool :=
  x.key.suffix == .none && namesDirective x.key.name

/-- The names of the symbol when names are not joined: each word of a parameter and of a section,
and the first word of anything else. -/
def Symbol.unjoinedNames (x : Symbol) : List String :=
  match x.type with
  | .parameter | .external => words x.key.name
  | _ => [firstWord x.key.name]

/-- Unless it is a directive, a symbol that has a name of several words or stands in a context of
several words has the name of no directive when names are not joined. -/
def Symbol.Apart (x : Symbol) : Prop :=
  x.kind ≠ .directive → x.key.suffix = .none →
    spaced x.key.name = true ∨ spaced x.key.context = true →
      ∀ name ∈ x.unjoinedNames, namesDirective name = false

instance (x : Symbol) : Decidable x.Apart := inferInstanceAs (Decidable (_ → _))

structure Symbol.Joins (plain joined : Symbol) : Prop where
  key : plain.key = joined.key.shortened
  kind : plain.kind = joined.kind

theorem Symbol.firstWord_mem_unjoinedNames (x : Symbol) :
    firstWord x.key.name ∈ x.unjoinedNames := by
  rw [unjoinedNames]
  split
  · exact firstWord_mem_words x.key.name
  · exact firstWord_mem_words x.key.name
  · exact List.mem_singleton_self _

theorem not_spaced_of_namesDirective {name : String} (known : namesDirective name = true) :
    spaced name = false :=
  Bool.eq_false_iff.2 fun several => by
    rw [namesDirective_of_spaced several] at known
    cases known

namespace Declaration
open Token

namespace Finding

def kept (keeps : Symbol → Bool) (found : List Finding) : List Symbol :=
  (found.filterMap symbol?).filter keeps

def registered (found : List Finding) : List Symbol := kept Symbol.isRegistered found

def keyed (found : List Finding) : List Symbol := kept Symbol.keyedLikeDirective found

theorem kept_append (keeps : Symbol → Bool) (found others : List Finding) :
    kept keeps (found ++ others) = kept keeps found ++ kept keeps others := by
  rw [kept, kept, kept, List.filterMap_append, List.filter_append]

theorem kept_eq_nil {keeps : Symbol → Bool} {found : List Finding}
    (drops : ∀ x, .symbol x ∈ found → keeps x = false) : kept keeps found = [] := by
  rw [kept, List.filter_eq_nil_iff]
  intro x member
  rw [drops x (mem_symbols.1 member)]
  exact Bool.false_ne_true

theorem kept_flatMap {keeps : Symbol → Bool} {α β : Type} {R : α → β → Prop}
    {f : α → List Finding} {g : β → List Finding} {items : List α} {items' : List β}
    (h : List.Forall₂ R items items')
    (one : ∀ x y, R x y → y ∈ items' →
      List.Forall₂ Symbol.Joins (kept keeps (f x)) (kept keeps (g y))) :
    List.Forall₂ Symbol.Joins (kept keeps (items.flatMap f)) (kept keeps (items'.flatMap g)) := by
  induction h with
  | nil => exact .nil
  | @cons x y items items' first others ih =>
      rw [List.flatMap_cons, List.flatMap_cons, kept_append, kept_append]
      exact List.rel_append (one x y first List.mem_cons_self)
        (ih fun x y related member => one x y related (List.mem_cons_of_mem _ member))

theorem registered_append (found others : List Finding) :
    registered (found ++ others) = registered found ++ registered others :=
  kept_append Symbol.isRegistered found others

theorem keyed_append (found others : List Finding) :
    keyed (found ++ others) = keyed found ++ keyed others :=
  kept_append Symbol.keyedLikeDirective found others

theorem keyed_cons (x : Symbol) (others : List Finding) :
    keyed (.symbol x :: others) = keyed [.symbol x] ++ keyed others :=
  keyed_append [.symbol x] others

theorem keyed_of_false {x : Symbol} (other : x.keyedLikeDirective = false) :
    keyed [.symbol x] = [] := by
  simp [keyed, kept, symbol?, other]

theorem keyed_eq_nil {found : List Finding}
    (other : ∀ x, .symbol x ∈ found → namesDirective x.key.name = false) : keyed found = [] :=
  kept_eq_nil fun x member => by rw [Symbol.keyedLikeDirective, other x member, Bool.and_false]

end Finding

open Finding

theorem keyed_cons_joins {x y : Symbol} {others others' : List Finding}
    (first : List.Forall₂ Symbol.Joins (keyed [.symbol x]) (keyed [.symbol y]))
    (later : List.Forall₂ Symbol.Joins (keyed others) (keyed others')) :
    List.Forall₂ Symbol.Joins (keyed (.symbol x :: others)) (keyed (.symbol y :: others')) := by
  rw [keyed_cons x others, keyed_cons y others']
  exact List.rel_append first later

theorem keyed_shortened {x y : Symbol} (key : x.key = y.key.shortened) (kind : x.kind = y.kind) :
    List.Forall₂ Symbol.Joins (keyed [.symbol x]) (keyed [.symbol y]) := by
  have alike : x.keyedLikeDirective = y.keyedLikeDirective := by
    rw [Symbol.keyedLikeDirective, Symbol.keyedLikeDirective, key]
    rfl
  cases known : y.keyedLikeDirective with
  | false =>
      rw [keyed_of_false known, keyed_of_false (alike.trans known)]
      exact .nil
  | true =>
      have listed {z : Symbol} (known : z.keyedLikeDirective = true) : keyed [.symbol z] = [z] := by
        simp [keyed, kept, symbol?, known]
      rw [listed known, listed (alike.trans known)]
      exact .cons ⟨key, kind⟩ .nil

theorem keyed_joins {x y : Symbol} (kind : SymbolKind) {context context' name name' : String}
    (key : x.key = ⟨context, name, .none⟩) (key' : y.key = ⟨context', name', .none⟩)
    (own : x.kind = kind) (own' : y.kind = kind) (other : kind ≠ .directive)
    (names : name = name' ∨ name = firstWord name')
    (contexts : context = context' ∨ context = firstWord context') (apart : y.Apart) :
    List.Forall₂ Symbol.Joins (keyed [.symbol x]) (keyed [.symbol y]) := by
  have firstWord_mem := y.firstWord_mem_unjoinedNames
  rw [key'] at firstWord_mem
  rw [Symbol.Apart, own', key'] at apart
  have apart (several : spaced name' = true ∨ spaced context' = true) :
      namesDirective (firstWord name') = false := apart other rfl several _ firstWord_mem
  cases known : namesDirective name' with
  | false =>
      have unknown : namesDirective name = false := by
        rcases names with rfl | rfl
        · exact known
        · cases several : spaced name' with
          | true => exact apart (.inl several)
          | false => rw [firstWord_of_not_spaced several, known]
      rw [keyed_of_false (by simp [Symbol.keyedLikeDirective, key, unknown]),
        keyed_of_false (by simp [Symbol.keyedLikeDirective, key', known])]
      exact .nil
  | true =>
      have single := firstWord_of_not_spaced (not_spaced_of_namesDirective known)
      rw [single] at names apart
      obtain rfl : name = name' := names.elim id id
      have outside : spaced context' = false := Bool.eq_false_iff.2 fun several =>
        Bool.false_ne_true ((apart (.inr several)).symm.trans known)
      rw [firstWord_of_not_spaced outside] at contexts
      obtain rfl : context = context' := contexts.elim id id
      refine keyed_shortened ?_ (own.trans own'.symm)
      rw [key, key', SymbolKey.shortened, firstWord_of_not_spaced outside]

theorem keyed_map {α β : Type} {R : α → β → Prop} {f : α → Symbol} {g : β → Symbol}
    {items : List α} {items' : List β} (h : List.Forall₂ R items items')
    (one : ∀ x y, R x y → y ∈ items' →
      List.Forall₂ Symbol.Joins (keyed [.symbol (f x)]) (keyed [.symbol (g y)])) :
    List.Forall₂ Symbol.Joins (keyed (items.map fun x => .symbol (f x)))
      (keyed (items'.map fun y => .symbol (g y))) := by
  rw [List.map_eq_flatMap, List.map_eq_flatMap]
  exact kept_flatMap h one

variable {plain joined further : List Token} {first t : Token} {s : State}

theorem unjoinedNames_declaredAt {type : SymbolType} (each : type = .parameter ∨ type = .external)
    (t : Token) (kind : SymbolKind) (context : String) :
    (Symbol.declaredAt t kind type context).unjoinedNames = words t.text := by
  rcases each with rfl | rfl <;> rfl

theorem keyed_tokens {kind : SymbolKind} {type : SymbolType} {context context' : String}
    (other : kind ≠ .directive) (each : type = .parameter ∨ type = .external)
    (h : Joins plain joined)
    (same : context = context' ∨ context = firstWord context')
    (apart : ∀ t ∈ joined, (Symbol.declaredAt t kind type context').Apart) :
    List.Forall₂ Symbol.Joins
      (keyed (plain.map fun t => .symbol (Symbol.declaredAt t kind type context)))
      (keyed (joined.map fun t => .symbol (Symbol.declaredAt t kind type context'))) := by
  induction h with
  | nil => exact .nil
  | same single others ih =>
      obtain ⟨here, later⟩ := List.forall_mem_cons.1 apart
      exact keyed_cons_joins
        (keyed_joins kind rfl rfl rfl rfl other (.inl rfl) same here) (ih later)
  | @joined first further t plain joined name others ih =>
      obtain ⟨here, later⟩ := List.forall_mem_cons.1 apart
      have several := name.spaced
      have none : keyed ((first :: further).map fun t =>
          .symbol (Symbol.declaredAt t kind type context)) = [] := by
        refine keyed_eq_nil fun x member => ?_
        obtain ⟨u, listed, same⟩ := List.mem_map.1 member
        obtain rfl := Finding.symbol.inj same
        refine here other rfl (.inl several) u.text ?_
        rw [unjoinedNames_declaredAt each, name.words]
        exact List.mem_map_of_mem listed
      have silent : (Symbol.declaredAt t kind type context').keyedLikeDirective = false := by
        simp [Symbol.keyedLikeDirective, Symbol.declaredAt, namesDirective_of_spaced several]
      rw [← List.cons_append, List.map_append, keyed_append, none, List.map_cons,
        keyed_cons, keyed_of_false silent]
      exact ih later

end Declaration
end TalAnalysis
