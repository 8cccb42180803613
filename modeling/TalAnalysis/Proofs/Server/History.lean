import Mathlib.Data.List.Induction
import Mathlib.Data.List.TakeWhile
import TalAnalysis.Server.Basic

namespace TalAnalysis

namespace Message

def isInitialise : Message → Bool
  | .initialise _ => true
  | _ => false

def isShutdown : Message → Bool
  | .shutdown => true
  | _ => false

end Message

/-- The messages of a history after the first `initialise` and before the next `shutdown`. -/
structure Session where
  options : LexOptions
  accepted : List Message
  ended : Bool

def session? (history : List Message) : Option Session :=
  match history.dropWhile fun m => !m.isInitialise with
  | .initialise options? :: later =>
      some ⟨.ofJson options?, later.takeWhile fun m => !m.isShutdown, later.any Message.isShutdown⟩
  | _ => none

def Session.next (m : Message) : Option Session → Option Session
  | none =>
    match m with
    | .initialise options? => some ⟨.ofJson options?, [], false⟩
    | _ => none
  | some x =>
    if x.ended then some x
    else if m.isShutdown then some { x with ended := true }
    else some { x with accepted := x.accepted ++ [m] }

theorem takeWhile_append_singleton {α : Type} (stops : α → Bool) (a : α) (before : List α) :
    (before ++ [a]).takeWhile (!stops ·) =
      if before.any stops then before.takeWhile (!stops ·)
      else if stops a then before else before ++ [a] := by
  induction before with
  | nil => cases stop : stops a <;> simp [stop]
  | cons b before ih =>
      cases stop : stops b with
      | true => simp [stop]
      | false =>
          rw [List.cons_append, List.takeWhile_cons_of_pos (by simp [stop]), ih,
            List.takeWhile_cons_of_pos (by simp [stop]), List.any_cons, stop, Bool.false_or]
          split_ifs <;> rfl

theorem session?_append (history : List Message) (m : Message) :
    session? (history ++ [m]) = Session.next m (session? history) := by
  rw [session?, session?, List.dropWhile_append]
  cases begun : history.dropWhile fun m => !m.isInitialise with
  | nil => cases m <;> rfl
  | cons first later =>
      have start : first.isInitialise = true := by simpa using Text.not_of_dropWhile begun
      cases first with
      | initialise options? =>
          rw [List.isEmpty_cons, if_neg Bool.false_ne_true, List.cons_append]
          simp only [Session.next, takeWhile_append_singleton, List.any_append, List.any_cons,
            List.any_nil, Bool.or_false]
          cases stopped : later.any Message.isShutdown with
          | true => rfl
          | false =>
              have whole : later.takeWhile (!Message.isShutdown ·) = later := by
                apply List.takeWhile_eq_self_iff.2
                intro m member
                simpa using List.any_eq_false.1 stopped m member
              cases m.isShutdown <;> simp [whole]
      | _ => cases start

inductive Edit
  | text (text : String) (version : Int)
  | closed

/-- What a message says about the document `uri`. Of the texts of a change the last one counts, and
a change without a text says nothing. -/
def Message.edit? (uri : String) : Message → Option Edit
  | .didOpen opened text version => if opened = uri then some (.text text version) else none
  | .didChange changed texts version =>
      if changed = uri then texts.getLast?.map (Edit.text · version) else none
  | .didClose closed => if closed = uri then some .closed else none
  | _ => none

def Session.about (uri : String) (x : Session) : Session :=
  { x with accepted := x.accepted.filter fun m => (m.edit? uri).isSome }

/-- The latest of the messages that say something about the document `uri` says `e`. -/
def LastEdit (uri : String) (accepted : List Message) (e : Edit) : Prop :=
  ∃ before m after, accepted = before ++ m :: after ∧ m.edit? uri = some e ∧
    ∀ later ∈ after, later.edit? uri = none

def lastEdit? (uri : String) (accepted : List Message) : Option Edit :=
  accepted.reverse.findSome? (Message.edit? uri)

variable {uri : String} {accepted : List Message} {e : Edit}

theorem lastEdit?_eq_some_iff : lastEdit? uri accepted = some e ↔ LastEdit uri accepted e := by
  rw [lastEdit?, List.findSome?_eq_some_iff]
  constructor
  · rintro ⟨after, m, before, cut, said, silent⟩
    refine ⟨before.reverse, m, after.reverse, ?_, said, ?_⟩
    · simpa using congrArg List.reverse cut
    · simpa using silent
  · rintro ⟨before, m, after, rfl, said, silent⟩
    refine ⟨after.reverse, m, before.reverse, by simp, said, ?_⟩
    simpa using silent

theorem lastEdit?_eq_none_iff :
    lastEdit? uri accepted = none ↔ ∀ m ∈ accepted, m.edit? uri = none := by
  rw [lastEdit?, List.findSome?_eq_none_iff]
  simp

theorem lastEdit?_append (accepted : List Message) (m : Message) :
    lastEdit? uri (accepted ++ [m]) = (m.edit? uri).or (lastEdit? uri accepted) := by
  rw [lastEdit?, List.reverse_append, List.reverse_singleton, List.singleton_append,
    List.findSome?_cons]
  cases m.edit? uri <;> rfl

theorem lastEdit?_about (x : Session) :
    lastEdit? uri (x.about uri).accepted = lastEdit? uri x.accepted := by
  rw [lastEdit?, lastEdit?, Session.about, ← List.filter_reverse]
  induction x.accepted.reverse with
  | nil => rfl
  | cons m others ih => cases edit : m.edit? uri <;> simp [edit, ih]

theorem lastEdit?_text_iff : (∃ text version, lastEdit? uri accepted = some (.text text version)) ↔
    ∃ before m after text version, accepted = before ++ m :: after ∧
      m.edit? uri = some (.text text version) ∧
      ∀ later ∈ after, later.edit? uri ≠ some .closed := by
  constructor
  · rintro ⟨text, version, last⟩
    obtain ⟨before, m, after, cut, said, silent⟩ := lastEdit?_eq_some_iff.1 last
    refine ⟨before, m, after, text, version, cut, said, fun later member => ?_⟩
    rw [silent later member]
    nofun
  · rintro ⟨before, m, after, text, version, rfl, said, open_⟩
    induction after using List.reverseRecOn with
    | nil => exact ⟨text, version, by rw [lastEdit?_append, said, Option.some_or]⟩
    | append_singleton after later ih =>
        rw [← List.cons_append, ← List.append_assoc, lastEdit?_append]
        cases edit : later.edit? uri with
        | none => exact ih fun m member => open_ m (List.mem_append_left _ member)
        | some e =>
            cases e with
            | text text version => exact ⟨text, version, rfl⟩
            | closed => exact absurd edit (open_ later (by simp))

theorem next_of_running {x : Session} (running : x.ended = false) (m : Message) :
    ∃ x', Session.next m (some x) = some x' ∧ x'.options = x.options ∧ x'.ended = m.isShutdown ∧
      ∀ uri, lastEdit? uri x'.accepted = (m.edit? uri).or (lastEdit? uri x.accepted) := by
  rw [Session.next, running, if_neg Bool.false_ne_true]
  cases m with
  | shutdown => exact ⟨_, rfl, rfl, rfl, fun uri => rfl⟩
  | _ => exact ⟨_, rfl, rfl, rfl, fun uri => lastEdit?_append x.accepted _⟩

end TalAnalysis
