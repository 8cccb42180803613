import TalAnalysis.Proofs.Server.History

/-!
# Runs of a server

* `receiveRunning_edit`: what one message does to a document and publishes of it.
* `receive_tracks`: one message keeps the server in step with its history.
* `run_follows`: so does a whole run, whatever the messages and their order.
-/

namespace TalAnalysis

def Message.question? : Message → Option (String × (Document → Answer))
  | .hover uri position => some (uri, (Server.hoverAnswer · position))
  | .definition uri position => some (uri, (Server.definitionAnswer uri · position))
  | .symbols uri => some (uri, Server.symbolsAnswer)
  | .completion uri position => some (uri, (Server.completionAnswer · position))
  | _ => none

namespace Server
open Editor

def run (history : List Message) : Server × List Notice :=
  history.foldl (fun (s, sent) m => ((s.receive m).1, sent ++ (s.receive m).2.notices)) ({}, [])

def problemsIn? (uri : String) : Notice → Option (Option Int × List Problem)
  | .problems published version? found =>
      if published = uri then some (version?, found) else none
  | .log .. => none

def lastProblems? (uri : String) (sent : List Notice) : Option (Option Int × List Problem) :=
  (sent.filterMap (problemsIn? uri)).getLast?

def reply (answer : Answer) : Option Session → Except Refusal Answer
  | none => .error .notInitialised
  | some x => if x.ended then .error .invalidRequest else .ok answer

/-- After the history, the server holds what the last message about the document `uri` gave it,
answers from that and nothing else, and has published the problems of that. -/
structure Follows (uri : String) (history : List Message) (s : Server) (sent : List Notice) :
    Prop where
  holds : (s.document? uri).isSome = true ↔ ∃ x before m after text version,
    session? history = some x ∧ x.accepted = before ++ m :: after ∧
    m.edit? uri = some (.text text version) ∧ ∀ later ∈ after, later.edit? uri ≠ some .closed
  document : ∀ d, s.document? uri = some d ↔ ∃ x text version,
    session? history = some x ∧ LastEdit uri x.accepted (.text text version) ∧
    d = ⟨text, version, analyze text x.options⟩
  answers : ∀ m answer, m.question? = some (uri, answer) → s.receive m =
    (s, { reply? := some (reply (((s.document? uri).map answer).getD .nothing)
      (session? history)) })
  published : ∀ d, s.document? uri = some d →
    lastProblems? uri sent = some (some d.version, problemsOf d)
  unpublished : s.document? uri = none → lastProblems? uri sent = some (none, []) ∨
    lastProblems? uri sent = none ∧
      ∀ x, session? history = some x → ∀ m ∈ x.accepted, m.edit? uri = none

def documentOf? (options : LexOptions) : Edit → Option Document
  | .text source version => some ⟨source, version, analyze source options⟩
  | .closed => none

def published : Option Document → Option Int × List Problem
  | some d => (some d.version, problemsOf d)
  | none => (none, [])

def phaseOf : Option Session → Phase
  | none => .waiting
  | some x => if x.ended then .stopped else .running x.options

variable {s : Server} {sent : List Notice} {x : Session} {x? : Option Session}
  {history : List Message} {uri : String}

theorem lookup_filter (closed uri : String) (documents : List (String × Document)) :
    (documents.filter fun entry => entry.1 != closed).lookup uri =
      if closed = uri then none else documents.lookup uri := by
  induction documents with
  | nil => simp
  | cons entry documents ih =>
      obtain ⟨name, d⟩ := entry
      by_cases gone : name = closed
      · rw [List.filter_cons_of_neg (by simp [gone]), ih, List.lookup_cons]
        split_ifs with same
        · rfl
        · rw [beq_false_of_ne fun asked => same (gone.symm.trans asked.symm)]
      · rw [List.filter_cons_of_pos (by simp [gone]), List.lookup_cons, List.lookup_cons, ih]
        by_cases asked : uri = name
        · have other : closed ≠ uri := fun same => gone (asked.symm.trans same.symm)
          simp only [beq_iff_eq.2 asked, if_neg other]
        · rw [beq_false_of_ne asked]

theorem document?_forget (s : Server) (closed uri : String) :
    (s.forget closed).document? uri = if closed = uri then none else s.document? uri :=
  lookup_filter closed uri s.documents

theorem document?_store (s : Server) (opened uri : String) (d : Document) :
    (s.store opened d).document? uri = if opened = uri then some d else s.document? uri := by
  have others := document?_forget s opened uri
  rw [document?] at others
  rw [document?, store, List.lookup_cons, others]
  by_cases asked : uri = opened
  · simp only [beq_iff_eq.2 asked, if_pos asked.symm]
  · simp only [beq_false_of_ne asked, if_neg (Ne.symm asked)]

theorem problems?_announce (opened uri : String) (d : Document) :
    (announce opened d).filterMap (problemsIn? uri) =
      if opened = uri then [published (some d)] else [] := by
  rw [announce, List.filterMap_append]
  split_ifs with warned same same <;> simp [problemsIn?, published, same]

theorem receiveRunning_edit (s : Server) (options : LexOptions) (m : Message) (uri : String) :
    (s.receiveRunning options m).1.document? uri =
        (m.edit? uri).elim (s.document? uri) (documentOf? options) ∧
      (s.receiveRunning options m).2.notices.filterMap (problemsIn? uri) =
        ((m.edit? uri).map fun e => published (documentOf? options e)).toList := by
  cases m with
  | didOpen opened text version =>
      refine ⟨?_, (problems?_announce opened uri _).trans ?_⟩
      · exact (document?_store s opened uri _).trans (by rw [Message.edit?]; split_ifs <;> rfl)
      · rw [Message.edit?]
        split_ifs <;> rfl
  | didChange changed texts version =>
      rw [Message.edit?, receiveRunning]
      cases texts.getLast? with
      | none => simp
      | some text =>
          refine ⟨?_, (problems?_announce changed uri _).trans ?_⟩
          · exact (document?_store s changed uri _).trans (by split_ifs <;> rfl)
          · split_ifs <;> rfl
  | didClose closed =>
      refine ⟨?_, ?_⟩
      · exact (document?_forget s closed uri).trans (by rw [Message.edit?]; split_ifs <;> rfl)
      · rw [Message.edit?]
        split_ifs with same <;> simp [receiveRunning, problemsIn?, same, published, documentOf?]
  | _ => exact ⟨rfl, rfl⟩

theorem phase_receiveRunning (s : Server) (options : LexOptions) (m : Message) :
    (s.receiveRunning options m).1.phase = if m.isShutdown then .stopped else s.phase := by
  cases m with
  | didChange changed texts version => rw [receiveRunning]; cases texts.getLast? <;> rfl
  | _ => rfl

/-- The server is in step with a session, document by document. -/
structure Tracks (x? : Option Session) (s : Server) (sent : List Notice) : Prop where
  phase : s.phase = phaseOf x?
  document : ∀ uri, s.document? uri = x?.bind fun x =>
    (lastEdit? uri x.accepted).bind (documentOf? x.options)
  published : ∀ uri, lastProblems? uri sent = x?.bind fun x =>
    (lastEdit? uri x.accepted).map fun e => published (documentOf? x.options e)

theorem lastProblems?_append (uri : String) (sent found : List Notice) :
    lastProblems? uri (sent ++ found) =
      ((found.filterMap (problemsIn? uri)).getLast?).or (lastProblems? uri sent) := by
  rw [lastProblems?, List.filterMap_append, List.getLast?_append]
  rfl

theorem refuse_tracks (tracks : Tracks x? s sent) (refusal : Refusal)
    (m : Message) : Tracks x? s (sent ++ (refuse refusal m).notices) := by
  have silent : (refuse refusal m).notices = [] := by
    rw [refuse]
    split <;> rfl
  rw [silent, List.append_nil]
  exact tracks

theorem receive_tracks_waiting (tracks : Tracks none s sent) (m : Message) :
    Tracks (Session.next m none) (s.receive m).1 (sent ++ (s.receive m).2.notices) := by
  simp only [receive, tracks.phase, phaseOf]
  cases m with
  | initialise options? =>
      refine ⟨rfl, tracks.document, fun uri => ?_⟩
      rw [List.append_nil]
      exact tracks.published uri
  | _ => exact refuse_tracks tracks _ _

theorem receive_tracks_running (running : x.ended = false) (tracks : Tracks (some x) s sent)
    (m : Message) :
    Tracks (Session.next m (some x)) (s.receive m).1 (sent ++ (s.receive m).2.notices) := by
  have phase : s.phase = .running x.options := by simp [tracks.phase, phaseOf, running]
  obtain ⟨x', next, options, ended, last⟩ := next_of_running running m
  simp only [receive, phase, next]
  refine ⟨?_, fun uri => ?_, fun uri => ?_⟩
  · rw [phase_receiveRunning, phase, phaseOf, ended, options]
  · rw [(receiveRunning_edit s x.options m uri).1, tracks.document, Option.bind_some,
      Option.bind_some, last, options]
    cases m.edit? uri <;> rfl
  · rw [lastProblems?_append, (receiveRunning_edit s x.options m uri).2, tracks.published,
      Option.bind_some, Option.bind_some, last, options]
    cases m.edit? uri <;> rfl

theorem receive_tracks (tracks : Tracks x? s sent) (m : Message) :
    Tracks (Session.next m x?) (s.receive m).1 (sent ++ (s.receive m).2.notices) := by
  cases x? with
  | none => exact receive_tracks_waiting tracks m
  | some x =>
      cases ended : x.ended with
      | false => exact receive_tracks_running ended tracks m
      | true =>
          have phase : s.phase = .stopped := by simp [tracks.phase, phaseOf, ended]
          simp only [receive, phase, Session.next, ended, if_true]
          exact refuse_tracks tracks _ _

theorem run_tracks (history : List Message) :
    Tracks (session? history) (run history).1 (run history).2 := by
  induction history using List.reverseRecOn with
  | nil => exact ⟨rfl, fun uri => rfl, fun uri => rfl⟩
  | append_singleton history m ih =>
      rw [session?_append, run, List.foldl_append]
      exact receive_tracks ih m

theorem receive_question (tracks : Tracks x? s sent) {m : Message}
    {uri : String} {answer : Document → Answer} (asks : m.question? = some (uri, answer)) :
    let reply := reply (((s.document? uri).map answer).getD .nothing) x?
    s.receive m = (s, { reply? := some reply }) := by
  have phase := tracks.phase
  cases x? with
  | none => cases m <;> cases asks <;> simp only [receive, phase, phaseOf] <;> rfl
  | some x =>
      rw [phaseOf] at phase
      cases ended : x.ended <;> rw [ended] at phase <;> cases m <;> cases asks <;>
        simp [receive, phase, reply, ended, receiveRunning, ask, refuse, isRequest]

theorem Tracks.document?_eq_some_iff (tracks : Tracks (session? history) s sent) {d : Document} :
    s.document? uri = some d ↔ ∃ x text version, session? history = some x ∧
      lastEdit? uri x.accepted = some (.text text version) ∧
      d = ⟨text, version, analyze text x.options⟩ := by
  rw [tracks.document, Option.bind_eq_some_iff]
  constructor
  · rintro ⟨x, begun, found⟩
    obtain ⟨e, last, opened⟩ := Option.bind_eq_some_iff.1 found
    cases e with
    | text text version => exact ⟨x, text, version, begun, last, (Option.some.inj opened).symm⟩
    | closed => cases opened
  · rintro ⟨x, text, version, begun, last, rfl⟩
    exact ⟨x, begun, by rw [last]; rfl⟩

theorem Tracks.follows (tracks : Tracks (session? history) s sent) (uri : String) :
    Follows uri history s sent where
  holds := by
    rw [Option.isSome_iff_exists]
    constructor
    · rintro ⟨d, held⟩
      obtain ⟨x, text, version, begun, last, -⟩ := tracks.document?_eq_some_iff.1 held
      obtain ⟨before, m, after, text, version, given⟩ := lastEdit?_text_iff.1 ⟨text, version, last⟩
      exact ⟨x, before, m, after, text, version, begun, given⟩
    · rintro ⟨x, before, m, after, text, version, begun, given⟩
      obtain ⟨text, version, last⟩ := lastEdit?_text_iff.2 ⟨before, m, after, text, version, given⟩
      exact ⟨_, tracks.document?_eq_some_iff.2 ⟨x, text, version, begun, last, rfl⟩⟩
  document d := by
    simp only [tracks.document?_eq_some_iff, lastEdit?_eq_some_iff]
  answers m answer asks := receive_question tracks asks
  published d held := by
    obtain ⟨x, text, version, begun, last, rfl⟩ := tracks.document?_eq_some_iff.1 held
    rw [tracks.published, begun, Option.bind_some, last]
    rfl
  unpublished none := by
    have document := tracks.document uri
    have report := tracks.published uri
    rw [none] at document
    cases begun : session? history with
    | none => exact .inr ⟨by rw [report, begun]; rfl, nofun⟩
    | some x =>
        rw [begun, Option.bind_some] at document report
        cases last : lastEdit? uri x.accepted with
        | none =>
            refine .inr ⟨by rw [report, last]; rfl, ?_⟩
            rintro _ ⟨⟩
            exact lastEdit?_eq_none_iff.1 last
        | some e =>
            rw [last] at document report
            cases e with
            | text text version => cases document
            | closed => exact .inl report

theorem Tracks.document?_about (tracks : Tracks x? s sent) (uri : String) :
    s.document? uri = (x?.map (Session.about uri)).bind fun x =>
      (lastEdit? uri x.accepted).bind (documentOf? x.options) := by
  rw [tracks.document]
  cases x? with
  | none => rfl
  | some x =>
      rw [Option.map_some, Option.bind_some, Option.bind_some, lastEdit?_about]
      rfl

theorem reply_about (uri : String) (answer : Answer) (x? : Option Session) :
    reply answer (x?.map (Session.about uri)) = reply answer x? := by
  cases x? <;> rfl

theorem run_follows (history : List Message) (uri : String) :
    Follows uri history (run history).1 (run history).2 ∧
      ∀ other, (session? other).map (Session.about uri) =
          (session? history).map (Session.about uri) →
        ∀ m answer, m.question? = some (uri, answer) →
          ((run other).1.receive m).2 = ((run history).1.receive m).2 := by
  refine ⟨(run_tracks history).follows uri, fun other same m answer asks => ?_⟩
  have here := run_tracks history
  have there := run_tracks other
  have document : (run other).1.document? uri = (run history).1.document? uri := by
    rw [here.document?_about, there.document?_about, same]
  have reply (answer : Answer) : reply answer (session? other) =
      reply answer (session? history) := by
    rw [← reply_about uri, same, reply_about]
  rw [receive_question here asks, receive_question there asks, document, reply]

end Server
end TalAnalysis
