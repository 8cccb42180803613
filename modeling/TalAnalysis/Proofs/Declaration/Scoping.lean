import TalAnalysis.Lexer.Scan
import TalAnalysis.Proofs.Declaration.Step

/-!
# The discipline of the scopes

What holds of the scopes between any two steps of a run, whatever the tokens.

* `step_moves`: all that a step does to the scopes and to the count of open BEGINs.
* `grounded_stateAfter`, `depth_stateAfter`: the outermost scope is the global one and no other is,
  and the depth counts the BEGINs without an END.
* `stacked_stateAfter`: the bodies that are open began at depths that rise from the outermost scope
  to the innermost one, none of them deeper than the open BEGINs. This holds until an END stands in
  for the body of a header: it then ends the body around that header, whose scope stays open.
-/

namespace TalAnalysis.Declaration

variable {s s' : State} {t : Token} {tokens rest : List Token} {scopes scopes' : List Scope}
  {found : List Finding}

/-! ## Scopes that await their bodies -/

theorem Scope.bodyDepth?_of_awaitsBody {scope : Scope} (awaits : scope.awaitsBody = true) :
    scope.bodyDepth? = none := by
  rw [awaitsBody, Bool.and_eq_true, Option.isNone_iff_eq_none] at awaits
  exact awaits.2

theorem Scope.kind_of_awaitsBody {scope : Scope} (awaits : scope.awaitsBody = true) :
    scope.kind ≠ .global := by
  rw [awaitsBody, Bool.and_eq_true, bne_iff_ne] at awaits
  exact awaits.1

/-- The innermost scopes, which await their bodies, have given way to others that do. -/
inductive Reopens (scopes scopes' : List Scope) : Prop
  | swap (dropped opened kept : List Scope) (before : scopes = dropped ++ kept)
      (after : scopes' = opened ++ kept)
      (await : ∀ scope ∈ dropped ++ opened, scope.awaitsBody = true)

theorem Reopens.refl (scopes : List Scope) : Reopens scopes scopes :=
  .swap [] [] scopes rfl rfl nofun

theorem reopens_closeBodiless (kinds : List ScopeKind) (scopes : List Scope) :
    Reopens scopes (closeBodiless kinds scopes) := by
  refine .swap (scopes.takeWhile fun s => s.awaitsBody && kinds.contains s.kind) [] _
    List.takeWhile_append_dropWhile.symm rfl fun scope member => ?_
  rw [List.append_nil] at member
  have both := List.mem_takeWhile_imp member
  rw [Bool.and_eq_true] at both
  exact both.1

theorem Reopens.enter (h : Reopens scopes scopes') (name : String) {kind : ScopeKind}
    (inner : kind ≠ .global) : Reopens scopes (⟨name, kind, none⟩ :: scopes') := by
  obtain ⟨dropped, opened, kept, before, after, await⟩ := h
  refine .swap dropped (⟨name, kind, none⟩ :: opened) kept before (by rw [after]; rfl) ?_
  intro scope member
  rcases List.mem_append.1 member with old | new
  · exact await scope (List.mem_append_left _ old)
  · rcases List.mem_cons.1 new with rfl | later
    · simp [Scope.awaitsBody, inner]
    · exact await scope (List.mem_append_right _ later)

theorem reopens_bodyElsewhere (s : State) : Reopens s.scopes s.bodyElsewhere.scopes := by
  obtain ⟨scopes, depth, start⟩ := s
  simp only [State.bodyElsewhere]
  split
  · rename_i awaits
    match scopes with
    | [] | [_] => exact .refl _
    | scope :: outer :: scopes =>
        refine .swap [scope] [] (outer :: scopes) rfl rfl fun other member => ?_
        obtain rfl := List.mem_singleton.1 member
        have both : other.awaitsProcedureBody = true := awaits
        rw [Scope.awaitsProcedureBody, Bool.and_eq_true] at both
        exact both.1
  · exact .refl _

/-! ## What a step does to the scopes -/

/-- A step finds `found` from the token `t`, and only a BEGIN and an END change the depth. -/
inductive Moves (s : State) (t : Token) (found : List Finding) (s' : State) : Prop
  | begins (kind : t.kind = .keyword .begin) (after : s' = s.openBlock)
  | ends (kind : t.kind = .keyword .end_) (deep : s.depth ≠ 0) (silent : found = [])
      (after : s' = s.closeBlock)
  | unbalanced (kind : t.kind = .keyword .end_) (flat : s.depth = 0)
      (reported : found = [.diagnostic (.ofCause .unbalancedEnd t.span)])
      (after : s' = s.inStatement)
  | other (noBegin : t.kind ≠ .keyword .begin) (noEnd : t.kind ≠ .keyword .end_)
      (reopens : Reopens s.scopes s'.scopes) (depth : s'.depth = s.depth)

theorem reopens_afterList (s : State) (closed : Bool) :
    Reopens s.scopes (s.afterList closed).scopes ∧ (s.afterList closed).depth = s.depth := by
  cases closed <;> exact ⟨.refl _, rfl⟩

theorem reopens_procedureStep (s : State) (result? : Option DataType) (tokens : List Token) :
    Reopens s.scopes (procedureStep s result? tokens).state.scopes ∧
      (procedureStep s result? tokens).state.depth = s.depth := by
  cases tokens with
  | nil => exact ⟨.refl _, rfl⟩
  | cons keyword tokens =>
      rw [procedureStep.eq_def]
      cases named : (procedureHeader tokens).name? with
      | none =>
          simp only [named]
          exact ⟨reopens_closeBodiless _ _, rfl⟩
      | some name =>
          simp only [named]
          refine ⟨(reopens_closeBodiless _ _).enter _ ?_, rfl⟩
          split <;> decide

theorem reopens_structureStep (s : State) (keyword : Token) (tokens : List Token) :
    Reopens s.scopes (structureStep s keyword tokens).state.scopes ∧
      (structureStep s keyword tokens).state.depth = s.depth := by
  rw [structureStep]
  cases (structureHeader tokens).name? with
  | none => exact ⟨.refl _, rfl⟩
  | some name =>
      simp only
      split
      · exact ⟨(Reopens.refl _).enter _ (by decide), rfl⟩
      · exact ⟨.refl _, rfl⟩

theorem step_moves (s : State) (t : Token) (tokens : List Token) :
    Moves s t (step s t tokens).findings (step s t tokens).state := by
  have other {next : Step} (noBegin : t.kind ≠ .keyword .begin) (noEnd : t.kind ≠ .keyword .end_)
      (h : Reopens s.scopes next.state.scopes ∧ next.state.depth = s.depth) :
      Moves s t next.findings next.state := .other noBegin noEnd h.1 h.2
  unfold step
  split
  case h_6 kind =>
    exact other (by simp [kind]) (by simp [kind]) (reopens_afterList s _)
  case h_7 kind =>
    exact other (by simp [kind]) (by simp [kind]) (reopens_afterList s _)
  case h_8 kind | h_9 kind =>
    exact other (by simp [kind]) (by simp [kind]) (reopens_procedureStep s none _)
  case h_10 kind =>
    exact other (by simp [kind]) (by simp [kind]) (reopens_structureStep s t tokens)
  case h_11 kind => exact .begins kind rfl
  case h_12 kind =>
    rw [endStep]
    split
    · rename_i flat
      exact .unbalanced kind flat rfl rfl
    · rename_i deep
      exact .ends kind deep rfl rfl
  case h_13 kind | h_14 kind =>
    exact other (by simp [kind]) (by simp [kind]) ⟨reopens_bodyElsewhere s, rfl⟩
  case h_16 type kind =>
    split
    · split
      · exact other (by simp [kind]) (by simp [kind]) (reopens_procedureStep s (some type) _)
      · exact other (by simp [kind]) (by simp [kind]) (reopens_afterList s _)
    · exact other (by simp [kind]) (by simp [kind]) ⟨.refl _, rfl⟩
  case h_17 =>
    exact other (by assumption) (by assumption) ⟨.refl _, rfl⟩
  all_goals
    rename_i kind
    exact other (by simp [kind]) (by simp [kind]) ⟨.refl _, rfl⟩

/-! ## The global scope is the outermost one -/

def bodyDepths (scopes : List Scope) : List Nat := scopes.filterMap Scope.bodyDepth?

theorem mem_bodyDepths {depth : Nat} :
    depth ∈ bodyDepths scopes ↔ ∃ scope ∈ scopes, scope.bodyDepth? = some depth :=
  List.mem_filterMap

theorem bodyDepths_of_awaitsBody (await : ∀ scope ∈ scopes, scope.awaitsBody = true) :
    bodyDepths scopes = [] :=
  List.filterMap_eq_nil_iff.2 fun scope member => Scope.bodyDepth?_of_awaitsBody (await scope member)

theorem Reopens.bodyDepths (h : Reopens scopes scopes') : bodyDepths scopes' = bodyDepths scopes := by
  obtain ⟨dropped, opened, kept, rfl, rfl, await⟩ := h
  rw [Declaration.bodyDepths, List.filterMap_append, Declaration.bodyDepths, List.filterMap_append]
  have old := bodyDepths_of_awaitsBody fun scope member => await scope (List.mem_append_left _ member)
  have new :=
    bodyDepths_of_awaitsBody fun scope member => await scope (List.mem_append_right dropped member)
  exact (congrArg (· ++ _) new).trans (congrArg (· ++ _) old).symm

def Grounded (scopes : List Scope) : Prop :=
  ∃ inner, scopes = inner ++ [.global] ∧ ∀ scope ∈ inner, scope.kind ≠ .global

theorem Grounded.reopens (h : Grounded scopes) (reopens : Reopens scopes scopes') :
    Grounded scopes' := by
  obtain ⟨dropped, opened, kept, rfl, rfl, await⟩ := reopens
  obtain ⟨inner, split, apart⟩ := h
  have opens (scope : Scope) (member : scope ∈ opened) : scope.kind ≠ .global :=
    Scope.kind_of_awaitsBody (await scope (List.mem_append_right _ member))
  rcases List.append_eq_append_iff.1 split with ⟨between, rfl, rfl⟩ | ⟨between, rfl, last⟩
  · refine ⟨opened ++ between, (List.append_assoc _ _ _).symm, fun scope member => ?_⟩
    rcases List.mem_append.1 member with new | old
    · exact opens scope new
    · exact apart scope (List.mem_append_right _ old)
  · -- The global scope awaits no body, so it is not among those that were dropped.
    cases between with
    | nil =>
        rw [List.nil_append] at last
        exact ⟨opened, by rw [← last], opens⟩
    | cons scope between =>
        obtain ⟨rfl, -⟩ := List.cons.inj last
        have member : Scope.global ∈ inner ++ Scope.global :: between := by simp
        exact absurd (await _ (List.mem_append_left _ member)) nofun

theorem openBlock_cases (s : State) :
    s.openBlock.scopes = s.scopes ∨
      ∃ scope outer, s.scopes = scope :: outer ∧ scope.awaitsBody = true ∧
        s.openBlock.scopes = { scope with bodyDepth? := some (s.depth + 1) } :: outer := by
  obtain ⟨scopes, depth, start⟩ := s
  cases scopes with
  | nil => exact .inl rfl
  | cons scope outer =>
      by_cases awaits : scope.awaitsBody = true
      · exact .inr ⟨scope, outer, rfl, awaits, by simp only [State.openBlock, if_pos awaits]⟩
      · exact .inl (by simp only [State.openBlock, if_neg awaits])

theorem Grounded.leave (h : Grounded scopes) :
    Grounded (leave scopes) ∧
      ∀ scope outer, scopes = scope :: outer → scope.bodyDepth?.isSome = true →
        leave scopes = outer := by
  obtain ⟨inner, rfl, apart⟩ := h
  match inner with
  | [] =>
      refine ⟨⟨[], rfl, apart⟩, fun scope outer split begun => ?_⟩
      obtain ⟨rfl, -⟩ := List.cons.inj split
      cases begun
  | first :: inner =>
      have left : Declaration.leave (first :: inner ++ [.global]) = inner ++ [.global] := by
        cases inner <;> rfl
      rw [left]
      refine ⟨⟨inner, rfl, fun scope member => apart scope (List.mem_cons_of_mem first member)⟩, ?_⟩
      exact fun scope outer split _ => (List.cons.inj split).2

theorem Grounded.openBlock (h : Grounded s.scopes) : Grounded s.openBlock.scopes := by
  rcases openBlock_cases s with same | ⟨scope, outer, before, awaits, after⟩
  · exact same ▸ h
  · obtain ⟨inner, split, apart⟩ := h
    cases inner with
    | nil =>
        obtain ⟨rfl, -⟩ := List.cons.inj (before.symm.trans split)
        exact absurd awaits nofun
    | cons first inner =>
        obtain ⟨rfl, rfl⟩ := List.cons.inj (before.symm.trans split)
        have inScope : scope.kind ≠ .global := Scope.kind_of_awaitsBody awaits
        refine ⟨_ :: inner, after, fun other member => ?_⟩
        rcases List.mem_cons.1 member with rfl | later
        · exact inScope
        · exact apart other (List.mem_cons_of_mem _ later)

theorem Grounded.closeBlock (h : Grounded s.scopes) : Grounded s.closeBlock.scopes := by
  simp only [State.closeBlock]
  split
  · exact h.leave.1
  · exact h

theorem Moves.grounded (h : Moves s t found s') (grounded : Grounded s.scopes) :
    Grounded s'.scopes := by
  cases h with
  | begins _ after => exact after ▸ grounded.openBlock
  | ends _ _ _ after => exact after ▸ grounded.closeBlock
  | unbalanced _ _ _ after => exact after ▸ grounded
  | other _ _ reopens => exact grounded.reopens reopens

/-! ## Bodies are nested -/

/-- The bodies of inner scopes began deeper, and none deeper than the open BEGINs. -/
structure Stacked (s : State) : Prop where
  descending : (bodyDepths s.scopes).Pairwise (· > ·)
  bounds : ∀ depth ∈ bodyDepths s.scopes, 1 ≤ depth ∧ depth ≤ s.depth

/-- An END ends the body of a scope, but a header inside of that body still waits for its own. -/
def Strands (s : State) (t : Token) : Prop :=
  t.kind = .keyword .end_ ∧ (∃ scope ∈ s.scopes.head?, scope.awaitsBody = true) ∧
    s.depth ∈ bodyDepths s.scopes

instance (s : State) (t : Token) : Decidable (Strands s t) :=
  inferInstanceAs (Decidable (_ ∧ _ ∧ _))

theorem Stacked.closeBlock_of_mem (h : Stacked s) (grounded : Grounded s.scopes)
    (closes : ¬ ∃ scope ∈ s.scopes.head?, scope.awaitsBody = true) {scope : Scope}
    (member : scope ∈ s.scopes) (begun : scope.bodyDepth? = some s.depth) :
    ∃ outer, s.scopes = scope :: outer ∧ s.closeBlock.scopes = outer := by
  obtain ⟨descending, bounds⟩ := h
  obtain ⟨scopes, depth, start⟩ := s
  cases scopes with
  | nil => cases member
  | cons first outer =>
      rcases List.mem_cons.1 member with rfl | inner
      · refine ⟨outer, rfl, ?_⟩
        have left := grounded.leave.2 scope outer rfl (by rw [begun]; rfl)
        simpa [State.closeBlock, begun] using left
      · -- The body of `first` began deeper than that of `scope`, which is as deep as there are BEGINs.
        exfalso
        have deep : depth ∈ bodyDepths outer := mem_bodyDepths.2 ⟨scope, inner, begun⟩
        cases top : first.bodyDepth? with
        | some higher =>
            have split : bodyDepths (first :: outer) = higher :: bodyDepths outer :=
              List.filterMap_cons_some top
            rw [split] at descending bounds
            have above := (List.pairwise_cons.1 descending).1 depth deep
            have below := (bounds higher List.mem_cons_self).2
            exact Nat.lt_irrefl depth (Nat.lt_of_lt_of_le above below)
        | none =>
            obtain ⟨inners, split, apart⟩ := grounded
            cases inners with
            | nil =>
                obtain ⟨-, rfl⟩ := List.cons.inj split
                cases inner
            | cons other inners =>
                obtain ⟨rfl, -⟩ := List.cons.inj split
                have inScope := apart first List.mem_cons_self
                exact closes ⟨first, rfl, by simp [Scope.awaitsBody, inScope, top]⟩

theorem Stacked.openBlock (h : Stacked s) : Stacked s.openBlock := by
  have deeper : s.openBlock.depth = s.depth + 1 := rfl
  have bounds (depth : Nat) (member : depth ∈ bodyDepths s.scopes) :
      1 ≤ depth ∧ depth ≤ s.depth + 1 :=
    ⟨(h.bounds depth member).1, Nat.le_succ_of_le (h.bounds depth member).2⟩
  rcases openBlock_cases s with same | ⟨scope, outer, before, awaits, after⟩
  · exact ⟨same ▸ h.descending, by rw [same, deeper]; exact bounds⟩
  · have old : bodyDepths s.scopes = bodyDepths outer := by
      rw [before]
      exact List.filterMap_cons_none (Scope.bodyDepth?_of_awaitsBody awaits)
    have new : bodyDepths s.openBlock.scopes = (s.depth + 1) :: bodyDepths s.scopes := by
      rw [after, old]
      rfl
    refine ⟨?_, ?_⟩
    · rw [new]
      exact List.pairwise_cons.2
        ⟨fun depth member => Nat.lt_succ_of_le (h.bounds depth member).2, h.descending⟩
    · rw [new, deeper]
      intro depth member
      rcases List.mem_cons.1 member with rfl | older
      · exact ⟨Nat.succ_le_succ (Nat.zero_le _), Nat.le_refl _⟩
      · exact bounds depth older

theorem Stacked.closeBlock (h : Stacked s) (grounded : Grounded s.scopes)
    (kind : t.kind = .keyword .end_) (follows : ¬ Strands s t) : Stacked s.closeBlock := by
  have shallower : s.closeBlock.depth = s.depth - 1 := rfl
  by_cases deep : s.depth ∈ bodyDepths s.scopes
  · have closes : ¬ ∃ scope ∈ s.scopes.head?, scope.awaitsBody = true :=
      fun awaits => follows ⟨kind, awaits, deep⟩
    obtain ⟨scope, member, begun⟩ := mem_bodyDepths.1 deep
    obtain ⟨outer, before, after⟩ := h.closeBlock_of_mem grounded closes member begun
    have split : bodyDepths s.scopes = s.depth :: bodyDepths outer := by
      rw [before]
      exact List.filterMap_cons_some begun
    have descending := h.descending
    rw [split, List.pairwise_cons] at descending
    refine ⟨after ▸ descending.2, ?_⟩
    rw [after, shallower]
    intro depth member
    have above := descending.1 depth member
    have positive := (h.bounds depth (split ▸ List.mem_cons_of_mem _ member)).1
    omega
  · have stays : s.closeBlock.scopes = s.scopes := by
      simp only [State.closeBlock]
      refine if_neg fun top => deep ?_
      obtain ⟨scope, first, begun⟩ := Option.bind_eq_some_iff.1 top
      exact mem_bodyDepths.2 ⟨scope, List.mem_of_mem_head? first, begun⟩
    refine ⟨stays ▸ h.descending, ?_⟩
    rw [stays, shallower]
    intro depth member
    have ⟨positive, bound⟩ := h.bounds depth member
    have apart : depth ≠ s.depth := fun same => deep (same ▸ member)
    omega

theorem Moves.stacked (h : Moves s t found s') (grounded : Grounded s.scopes)
    (follows : ¬ Strands s t) (stacked : Stacked s) : Stacked s' := by
  cases h with
  | begins _ after => exact after ▸ stacked.openBlock
  | ends kind _ _ after => exact after ▸ stacked.closeBlock grounded kind follows
  | unbalanced _ _ _ after => exact after ▸ ⟨stacked.descending, stacked.bounds⟩
  | other _ _ reopens depth =>
      exact ⟨reopens.bodyDepths ▸ stacked.descending, reopens.bodyDepths ▸ depth ▸ stacked.bounds⟩

/-! ## Runs -/

def stateAfter (s : State) (turns : List (State × Token × List Token)) : State :=
  match turns.getLast? with
  | some (last, t, rest) => (step last t rest).state
  | none => s

theorem stateAfter_cons (s : State) (turn : State × Token × List Token)
    (turns : List (State × Token × List Token)) :
    stateAfter s (turn :: turns) = stateAfter (step turn.1 turn.2.1 turn.2.2).state turns := by
  rw [stateAfter, stateAfter, List.getLast?_cons]
  cases turns.getLast? <;> rfl

theorem stateAfter_concat (s : State) (turns : List (State × Token × List Token))
    (turn : State × Token × List Token) :
    stateAfter s (turns ++ [turn]) = (step turn.1 turn.2.1 turn.2.2).state := by
  rw [stateAfter, List.getLast?_concat]

variable {before after : List (State × Token × List Token)}

theorem steps_eq_cons {turn : State × Token × List Token}
    {turns : List (State × Token × List Token)} (h : steps s tokens = turn :: turns) :
    turn.1 = s ∧ steps (step turn.1 turn.2.1 turn.2.2).state
      (step turn.1 turn.2.1 turn.2.2).rest = turns := by
  cases tokens with
  | nil => simp [steps] at h
  | cons t rest =>
      rw [steps_cons] at h
      obtain ⟨rfl, left⟩ := List.cons.inj h
      exact ⟨rfl, left⟩

theorem stateAfter_induction {P : State → Prop} (cut : steps s tokens = before ++ after)
    (start : P s)
    (keeps : ∀ turn ∈ before, P turn.1 → P (step turn.1 turn.2.1 turn.2.2).state) :
    P (stateAfter s before) := by
  induction before generalizing s tokens with
  | nil => exact start
  | cons turn before ih =>
      obtain ⟨rfl, left⟩ := steps_eq_cons cut
      rw [stateAfter_cons]
      exact ih left (keeps turn List.mem_cons_self start)
        fun later member => keeps later (List.mem_cons_of_mem turn member)

theorem grounded_stateAfter (cut : steps {} tokens = before ++ after) :
    Grounded (stateAfter {} before).scopes :=
  stateAfter_induction (P := fun s => Grounded s.scopes) cut ⟨[], rfl, nofun⟩
    fun turn _ grounded => (step_moves turn.1 turn.2.1 turn.2.2).grounded grounded

theorem stacked_stateAfter (cut : steps {} tokens = before ++ after)
    (follow : ∀ turn ∈ before, ¬ Strands turn.1 turn.2.1) : Stacked (stateAfter {} before) := by
  have both := stateAfter_induction (P := fun s => Grounded s.scopes ∧ Stacked s) cut
    ⟨⟨[], rfl, nofun⟩, ⟨List.Pairwise.nil, nofun⟩⟩
    fun turn member ⟨grounded, stacked⟩ =>
      have moves := step_moves turn.1 turn.2.1 turn.2.2
      ⟨moves.grounded grounded, moves.stacked grounded (follow turn member) stacked⟩
  exact both.2

theorem state_of_next {turn : State × Token × List Token}
    (cut : steps s tokens = before ++ after) (next : turn ∈ after.head?) :
    turn.1 = stateAfter s before := by
  induction before generalizing s tokens with
  | nil =>
      obtain ⟨later, rfl⟩ := List.head?_eq_some_iff.1 next
      exact (steps_eq_cons cut).1
  | cons first before ih =>
      rw [stateAfter_cons]
      exact ih (steps_eq_cons cut).2

theorem Moves.closeBlock_of_end (h : Moves s t found s') (kind : t.kind = .keyword .end_)
    (deep : s.depth ≠ 0) : s' = s.closeBlock := by
  cases h with
  | begins other => cases kind.symm.trans other
  | ends _ _ _ after => exact after
  | unbalanced _ flat => exact absurd flat deep
  | other _ noEnd => exact absurd kind noEnd

def Finding.isUnbalancedEnd : Finding → Bool
  | .symbol _ => false
  | .diagnostic d => d.cause == .unbalancedEnd

def opensBlock (turn : State × Token × List Token) : Bool := turn.2.1.isKeyword .begin

def closesBlock (turn : State × Token × List Token) : Bool :=
  turn.2.1.isKeyword .end_ &&
    !(step turn.1 turn.2.1 turn.2.2).findings.any Finding.isUnbalancedEnd

theorem depth_step (turn : State × Token × List Token) :
    (step turn.1 turn.2.1 turn.2.2).state.depth + (if closesBlock turn then 1 else 0) =
      turn.1.depth + if opensBlock turn then 1 else 0 := by
  obtain ⟨s, t, rest⟩ := turn
  have moves := step_moves s t rest
  rw [closesBlock, opensBlock]
  cases moves with
  | begins kind after => simp [Token.isKeyword, kind, after, State.openBlock]
  | ends kind deep silent after =>
      have less : s.depth - 1 + 1 = s.depth := Nat.sub_add_cancel (Nat.pos_of_ne_zero deep)
      simp [Token.isKeyword, kind, silent, after, State.closeBlock, less]
  | unbalanced kind flat reported after =>
      simp [Token.isKeyword, kind, reported, after, State.inStatement, Finding.isUnbalancedEnd,
        Diagnostic.ofCause]
  | other noBegin noEnd reopens depth => simp [Token.isKeyword, noBegin, noEnd, depth]

theorem depth_stateAfter (cut : steps s tokens = before ++ after) :
    (stateAfter s before).depth + before.countP closesBlock =
      s.depth + before.countP opensBlock := by
  induction before generalizing s tokens with
  | nil => rfl
  | cons turn before ih =>
      obtain ⟨rfl, left⟩ := steps_eq_cons cut
      have first := depth_step turn
      have later := ih left
      rw [stateAfter_cons, List.countP_cons, List.countP_cons]
      omega

theorem extract_scopes {tokens : List Token} {before after : List (State × Token × List Token)}
    (cut : steps {} tokens = before ++ after) :
    let s := stateAfter {} before
    (∃ inner, s.scopes = inner ++ [.global] ∧ ∀ scope ∈ inner, scope.kind ≠ .global) ∧
    s.depth + before.countP closesBlock = before.countP opensBlock ∧
    ((∀ turn ∈ before, ¬ Strands turn.1 turn.2.1) →
      (bodyDepths s.scopes).Pairwise (· > ·) ∧
      (∀ depth ∈ bodyDepths s.scopes, 1 ≤ depth ∧ depth ≤ s.depth) ∧
      (s.depth = 0 → ∀ scope ∈ s.scopes, scope.bodyDepth? = none) ∧
      ∀ turn ∈ after.head?, turn.1 = s ∧
        (turn.2.1.kind = .keyword .end_ → ¬ Strands s turn.2.1 →
          ∀ scope ∈ s.scopes, scope.bodyDepth? = some s.depth →
            ∃ outer, s.scopes = scope :: outer ∧
              (stateAfter {} (before ++ [turn])).scopes = outer)) := by
  intro s
  have grounded := grounded_stateAfter cut
  refine ⟨grounded, ?_, fun follow => ?_⟩
  · have count := depth_stateAfter cut
    rwa [Nat.zero_add] at count
  · have stacked := stacked_stateAfter cut follow
    refine ⟨stacked.descending, stacked.bounds, fun flat scope member => ?_, ?_⟩
    · rw [Option.eq_none_iff_forall_ne_some]
      intro depth begun
      have ⟨positive, bound⟩ := stacked.bounds depth (mem_bodyDepths.2 ⟨scope, member, begun⟩)
      exact absurd (positive.trans (bound.trans (Nat.le_of_eq flat))) (Nat.not_succ_le_zero 0)
    · intro turn next
      have here : turn.1 = s := state_of_next cut next
      refine ⟨here, fun kind closes scope member begun => ?_⟩
      have deep : s.depth ∈ bodyDepths s.scopes := mem_bodyDepths.2 ⟨scope, member, begun⟩
      obtain ⟨outer, split, left⟩ := stacked.closeBlock_of_mem grounded
        (fun awaits => closes ⟨kind, awaits, deep⟩) member begun
      refine ⟨outer, split, ?_⟩
      have positive : turn.1.depth ≠ 0 := by
        rw [here]
        exact Nat.ne_of_gt (stacked.bounds _ deep).1
      have ends := (step_moves turn.1 turn.2.1 turn.2.2).closeBlock_of_end kind positive
      rw [stateAfter_concat, ends, here]
      exact left

theorem extract_scopes_nested :
    let tokens :=
      (lex "PROC p; BEGIN SUBPROC q; FORWARD; STRUCT s; BEGIN END; END;" {}).tokens
    let before := (steps {} tokens).take 7
    let s := stateAfter {} before
    (∀ turn ∈ before, ¬ Strands turn.1 turn.2.1) ∧
      s.depth + before.countP closesBlock = before.countP opensBlock ∧
      (∃ inner, s.scopes = inner ++ [.global] ∧ ∀ scope ∈ inner, scope.kind ≠ .global) ∧
      (bodyDepths s.scopes).Pairwise (· > ·) ∧
      ∃ turn ∈ ((steps {} tokens).drop 7).head?, turn.2.1.kind = .keyword .end_ ∧
        ∃ outer, s.scopes = ⟨"s", .struct, some 2⟩ :: outer ∧
          (stateAfter {} (before ++ [turn])).scopes = outer := by
  intro tokens before s
  have ⟨follow, turn, next, kind, closes, inner, begun⟩ :
      (∀ turn ∈ before, ¬ Strands turn.1 turn.2.1) ∧
        ∃ turn ∈ ((steps {} tokens).drop 7).head?, turn.2.1.kind = .keyword .end_ ∧
          ¬ Strands s turn.2.1 ∧ ⟨"s", .struct, some 2⟩ ∈ s.scopes ∧ s.depth = 2 := by
    decide +kernel
  obtain ⟨bottom, count, disciplined⟩ :=
    extract_scopes (List.take_append_drop 7 (steps {} tokens)).symm
  obtain ⟨descending, -, -, leaves⟩ := disciplined follow
  exact ⟨follow, count, bottom, descending, turn, next, kind,
    (leaves turn next).2 kind closes _ inner (congrArg some begun.symm)⟩

example :
    let tokens := (lex "PROC p; BEGIN PROC q; END" {}).tokens
    (stateAfter {} (steps {} tokens)).depth = 0 ∧
      ⟨"p", .procedure, some 1⟩ ∈ (stateAfter {} (steps {} tokens)).scopes := by
  decide +kernel

end TalAnalysis.Declaration
