import TaskNetwork.Proofs.Blocks.Strategy
import TaskNetwork.Proofs.Search.Matching

/-!
# The blocks world under other names

The blocks world never looks at a block's name but to tell it from the table, to look it up or to
list blocks in order. So if names match in a way that keeps their order, and none is that of the
table, then facts, states and tasks under matching names are taken alike by every check, operator
and method.
-/

namespace TaskNetwork.Blocks

open Relator (BiUnique)

variable {R : String → String → Prop}

/-! ## Places, arguments and states -/

/-- Places match if they are of one kind, and matching blocks are below. -/
inductive Place.Matches (R : String → String → Prop) : Place → Place → Prop where
  | table : Matches R .table .table
  | hand : Matches R .hand .hand
  | on {below below' : String} : R below below' → Matches R (.on below) (.on below')

theorem Place.Matches.biUnique (hR : BiUnique R) : BiUnique (Place.Matches R) := by
  refine ⟨fun p q p' h h' => ?_, fun p p' q' h h' => ?_⟩
  · cases h with
    | table => cases h'; rfl
    | hand => cases h'; rfl
    | on hb =>
        cases h' with
        | on hb' => rw [hR.1 hb hb']
  · cases h with
    | table => cases h'; rfl
    | hand => cases h'; rfl
    | on hb =>
        cases h' with
        | on hb' => rw [hR.2 hb hb']

/-- Positions match if matching blocks are at matching places. -/
abbrev PositionsRel (R : String → String → Prop) (pos pos' : OrderedMap String Place) : Prop :=
  OrderedMap.Matches R (Place.Matches R) pos pos'

/-- No name that is matched is that of the table. -/
def AvoidsTable (R : String → String → Prop) : Prop :=
  ∀ ⦃b b' : String⦄, R b b' → b ≠ tableName ∧ b' ≠ tableName

/-- Arguments match if they are of one kind and the names in them match. -/
inductive Arg.Matches (R : String → String → Prop) : Arg → Arg → Prop where
  | block {b b' : String} : R b b' → Matches R (.block b) (.block b')
  | table : Matches R .table .table
  | goal {goal goal' : Goal} : PositionsRel R goal goal' → Matches R (.goal goal) (.goal goal')

/-- States match if matching blocks are at matching places, and clear or held alike. -/
structure State.Matches (R : String → String → Prop) (s s' : State) : Prop where
  name_eq : s.name = s'.name
  pos : PositionsRel R s.pos s'.pos
  clear : s.clear.Matches R Eq s'.clear
  holding : Option.Rel R s.holding s'.holding

section

variable {α β ε : Type} {V : α → β → Prop} {e e' : ε} {args args' : List Arg}
  (hargs : List.Forall₂ (Arg.Matches R) args args')

include hargs

theorem exceptRel_goal {f : Goal → Except ε α} {f' : Goal → Except ε β}
    (h : ∀ goal goal', PositionsRel R goal goal' → ExceptRel V (f goal) (f' goal')) :
    ExceptRel V (match args with | [.goal goal] => f goal | _ => .error e)
      (match args' with | [.goal goal] => f' goal | _ => .error e') := by
  rcases hargs with _ | ⟨_ | _ | hgoal, _ | _⟩ <;>
    first
    | exact h _ _ hgoal
    | exact .error e e'

theorem exceptRel_block {f : String → Except ε α} {f' : String → Except ε β}
    (h : ∀ b b', R b b' → ExceptRel V (f b) (f' b')) :
    ExceptRel V (match args with | [.block b] => f b | _ => .error e)
      (match args' with | [.block b] => f' b | _ => .error e') := by
  rcases hargs with _ | ⟨hb | _ | _, _ | _⟩ <;>
    first
    | exact h _ _ hb
    | exact .error e e'

theorem exceptRel_blockBlock {f : String → String → Except ε α} {f' : String → String → Except ε β}
    (h : ∀ b b' c c', R b b' → R c c' → ExceptRel V (f b c) (f' b' c')) :
    ExceptRel V (match args with | [.block b, .block c] => f b c | _ => .error e)
      (match args' with | [.block b, .block c] => f' b c | _ => .error e') := by
  rcases hargs with _ | ⟨hb | _ | _, _ | ⟨hc | _ | _, _ | _⟩⟩ <;>
    first
    | exact h _ _ _ _ hb hc
    | exact .error e e'

theorem exceptRel_blockArg {f : String → Arg → Except ε α} {f' : String → Arg → Except ε β}
    (h : ∀ b b' dest dest', R b b' → Arg.Matches R dest dest' →
      ExceptRel V (f b dest) (f' b' dest')) :
    ExceptRel V (match args with | [.block b, dest] => f b dest | _ => .error e)
      (match args' with | [.block b, dest] => f' b dest | _ => .error e') := by
  rcases hargs with _ | ⟨hb | _ | _, _ | ⟨hdest, _ | _⟩⟩ <;>
    first
    | exact h _ _ _ _ hb hdest
    | exact .error e e'

end

namespace State.Matches

variable {s s' : State} {b b' : String} {place place' : Place} {held held' : Option String}

theorem get?_pos_eq_iff (hs : s.Matches R s') (hR : KeepsOrder R) (hb : R b b')
    (hplace : place.Matches R place') :
    s.pos.get? b = some place ↔ s'.pos.get? b' = some place' :=
  eq_some_iff_of_rel (Place.Matches.biUnique hR.biUnique) hplace (hs.pos.get? hR hb)

theorem isClear_eq (hs : s.Matches R s') (hR : KeepsOrder R) (hb : R b b') :
    s.isClear b = s'.isClear b' := by
  rw [isClear, isClear, eq_of_rel_eq (hs.clear.get? hR hb)]

theorem move (hs : s.Matches R s') (hR : KeepsOrder R) (hb : R b b')
    (hplace : place.Matches R place') (clear : Bool) (hheld : Option.Rel R held held') :
    (s.move b place clear held).Matches R (s'.move b' place' clear held') :=
  ⟨hs.name_eq, hs.pos.insert hR hb hplace, hs.clear.replace hR hb rfl, hheld⟩

theorem setClear (hs : s.Matches R s') (hR : KeepsOrder R) (hb : R b b') (clear : Bool) :
    (s.setClear b clear).Matches R (s'.setClear b' clear) :=
  ⟨hs.name_eq, hs.pos, hs.clear.replace hR hb rfl, hs.holding⟩

end State.Matches

/-! ## Operators -/

theorem pickup_respects (hR : KeepsOrder R) :
    Operator.Respects (State.Matches R) (Arg.Matches R) ⟨"pickup", pickup⟩ := by
  intro s s' args args' hs hargs
  refine exceptRel_block hargs fun b b' hb => ?_
  rw [hs.isClear_eq hR hb, isSome_eq_of_rel hs.holding]
  refine .ite (or_congr (not_congr ?_) Iff.rfl) (.error _ _) (.ok ?_)
  · exact hs.get?_pos_eq_iff hR hb .table
  · exact hs.move hR hb .hand false (.some hb)

theorem unstack_respects (hR : KeepsOrder R) :
    Operator.Respects (State.Matches R) (Arg.Matches R) ⟨"unstack", unstack⟩ := by
  intro s s' args args' hs hargs
  refine exceptRel_blockBlock hargs fun b b' c c' hb hc => ?_
  rw [hs.isClear_eq hR hb, isSome_eq_of_rel hs.holding]
  refine .ite (or_congr (not_congr ?_) Iff.rfl) (.error _ _) (.ok ?_)
  · exact hs.get?_pos_eq_iff hR hb (.on hc)
  · exact (hs.move hR hb .hand false (.some hb)).setClear hR hc true

theorem putdown_respects (hR : KeepsOrder R) :
    Operator.Respects (State.Matches R) (Arg.Matches R) ⟨"putdown", putdown⟩ := by
  intro s s' args args' hs hargs
  refine exceptRel_block hargs fun b b' hb => ?_
  refine .ite (not_congr ?_) (.error _ _) (.ok ?_)
  · exact hs.get?_pos_eq_iff hR hb .hand
  · exact hs.move hR hb .table true .none

theorem stack_respects (hR : KeepsOrder R) :
    Operator.Respects (State.Matches R) (Arg.Matches R) ⟨"stack", stack⟩ := by
  intro s s' args args' hs hargs
  refine exceptRel_blockBlock hargs fun b b' c c' hb hc => ?_
  rw [hs.isClear_eq hR hc]
  refine .ite (or_congr (not_congr ?_) Iff.rfl) (.error _ _) (.ok ?_)
  · exact hs.get?_pos_eq_iff hR hb .hand
  · exact (hs.move hR hb (.on hc) true .none).setClear hR hc false

/-! ## What is left to do -/

section

variable {s s' : State} {goal goal' : Goal} {b b' : String} (hR : KeepsOrder R)
  (hs : s.Matches R s') (hgoal : PositionsRel R goal goal') (hb : R b b')

include hR hgoal

theorem contradicts_eq {here here' : Option Place} (hb : R b b')
    (hhere : Option.Rel (Place.Matches R) here here') :
    contradicts goal b here = contradicts goal' b' here' := by
  have htarget := hgoal.get? hR hb
  unfold contradicts
  generalize goal.get? b = target at htarget ⊢
  generalize goal'.get? b' = target' at htarget ⊢
  cases htarget with
  | none => rfl
  | some hplace =>
      exact decide_eq_decide.mpr (not_congr
        (eq_some_iff_of_rel (Place.Matches.biUnique hR.biUnique) hplace hhere))

include hs

theorem isDoneWithin_eq (bound : Nat) (hb : R b b') :
    isDoneWithin s goal bound b = isDoneWithin s' goal' bound b' := by
  induction bound generalizing b b' with
  | zero => rfl
  | succ bound ih =>
      have hhere := hs.pos.get? hR hb
      rw [isDoneWithin, isDoneWithin, contradicts_eq hR hgoal hb hhere]
      generalize s.pos.get? b = here at hhere ⊢
      generalize s'.pos.get? b' = here' at hhere ⊢
      cases hhere with
      | none => rfl
      | some hplace =>
          cases hplace with
          | table => rfl
          | hand => rfl
          | on hbelow =>
              dsimp only
              rw [ih hbelow]

theorem isDone_eq (hb : R b b') : isDone s goal b = isDone s' goal' b' := by
  rw [isDone, isDone, hs.pos.size_eq, isDoneWithin_eq hR hs hgoal _ hb]

theorem status_eq (hb : R b b') : status s goal b = status s' goal' b' := by
  have htarget := hgoal.get? hR hb
  rw [status, status, isDone_eq hR hs hgoal hb, hs.isClear_eq hR hb]
  generalize goal.get? b = target at htarget ⊢
  generalize goal'.get? b' = target' at htarget ⊢
  cases htarget with
  | none => rfl
  | some hplace =>
      cases hplace with
      | table => rfl
      | hand => rfl
      | on hbelow =>
          dsimp only
          rw [isDone_eq hR hs hgoal hbelow, hs.isClear_eq hR hbelow]

/-! ## Methods -/

theorem canPark_eq (hb : R b b') : canPark s goal b = canPark s' goal' b' := by
  have htable := not_congr (hs.get?_pos_eq_iff hR hb .table)
  rw [canPark, canPark, status_eq hR hs hgoal hb, decide_eq_decide.mpr htable]

/-- Moves match if matching blocks go to matching places. -/
def MoveRel (R : String → String → Prop) (move move' : String × Arg) : Prop :=
  R move.1 move'.1 ∧ Arg.Matches R move.2 move'.2

theorem finalMove_matches (hb : R b b') :
    Option.Rel (MoveRel R) (finalMove s goal b) (finalMove s' goal' b') := by
  have htarget := hgoal.get? hR hb
  rw [finalMove, finalMove, status_eq hR hs hgoal hb]
  split
  · exact .some ⟨hb, .table⟩
  · generalize goal.get? b = target at htarget ⊢
    generalize goal'.get? b' = target' at htarget ⊢
    cases htarget with
    | none => exact .none
    | some hplace =>
        cases hplace with
        | table => exact .none
        | hand => exact .none
        | on hbelow => exact .some ⟨hb, .block hbelow⟩
  · exact .none

end

theorem moveThenContinue_matches {b b' : String} {dest dest' : Arg} {goal goal' : Goal}
    (hb : R b b') (hdest : dest.Matches R dest') (hgoal : PositionsRel R goal goal') :
    List.Forall₂ (Task.Matches (Arg.Matches R)) (moveThenContinue b dest goal)
      (moveThenContinue b' dest' goal') :=
  .cons ⟨rfl, .cons (.block hb) (.cons hdest .nil)⟩ (.cons ⟨rfl, .cons (.goal hgoal) .nil⟩ .nil)

theorem moveBlocks_respects (hR : KeepsOrder R) :
    Method.Respects (State.Matches R) (Arg.Matches R) ⟨"move_by_status", moveBlocks⟩ := by
  intro s s' args args' hs hargs
  refine exceptRel_goal hargs fun goal goal' hgoal => ?_
  have hkeys := hs.clear.keys
  have hfinal := rel_findSome? (fun _ _ hb => finalMove_matches hR hs hgoal hb) hkeys
  have hpark := rel_find? (fun _ _ hb => canPark_eq hR hs hgoal hb) hkeys
  have hall : (s.clear.keys.all fun b => status s goal b = .done) =
      s'.clear.keys.all fun b => status s' goal' b = .done :=
    all_eq_of_forall₂ (fun _ _ hb => by rw [status_eq hR hs hgoal hb]) hkeys
  rw [hall]
  generalize s.clear.keys.findSome? _ = move at hfinal ⊢
  generalize s'.clear.keys.findSome? _ = move' at hfinal ⊢
  cases hfinal with
  | some hmove => exact .ok (moveThenContinue_matches hmove.1 hmove.2 hgoal)
  | none =>
      dsimp only
      generalize s.clear.keys.find? _ = block at hpark ⊢
      generalize s'.clear.keys.find? _ = block' at hpark ⊢
      cases hpark with
      | some hb => exact .ok (moveThenContinue_matches hb .table hgoal)
      | none => exact .ite Iff.rfl (.ok .nil) (.error _ _)

theorem moveOne_respects :
    Method.Respects (State.Matches R) (Arg.Matches R) ⟨"get_then_put", moveOne⟩ := by
  intro s s' args args' hs hargs
  have htasks {b b' : String} {dest dest' : Arg} (hb : R b b') (hdest : dest.Matches R dest') :
      List.Forall₂ (Task.Matches (Arg.Matches R))
        [⟨"get", [.block b]⟩, ⟨"put", [.block b, dest]⟩]
        [⟨"get", [.block b']⟩, ⟨"put", [.block b', dest']⟩] :=
    .cons ⟨rfl, .cons (.block hb) .nil⟩
      (.cons ⟨rfl, .cons (.block hb) (.cons hdest .nil)⟩ .nil)
  rcases hargs with _ | ⟨hb | _ | _, _ | ⟨hbelow | _ | _, _ | _⟩⟩ <;>
    first
    | exact .ok (htasks hb (.block hbelow))
    | exact .ok (htasks hb .table)
    | exact .error _ _

theorem get_respects (hR : KeepsOrder R) :
    Method.Respects (State.Matches R) (Arg.Matches R) ⟨"get_clear_block", get⟩ := by
  intro s s' args args' hs hargs
  refine exceptRel_block hargs fun b b' hb => ?_
  have hhere := hs.pos.get? hR hb
  rw [hs.isClear_eq hR hb]
  refine .ite Iff.rfl (.error _ _) ?_
  generalize s.pos.get? b = here at hhere ⊢
  generalize s'.pos.get? b' = here' at hhere ⊢
  cases hhere with
  | none => exact .error _ _
  | some hplace =>
      cases hplace with
      | table => exact .ok (.cons ⟨rfl, .cons (.block hb) .nil⟩ .nil)
      | hand => exact .error _ _
      | on hbelow => exact .ok (.cons ⟨rfl, .cons (.block hb) (.cons (.block hbelow) .nil)⟩ .nil)

theorem put_respects (hR : KeepsOrder R) :
    Method.Respects (State.Matches R) (Arg.Matches R) ⟨"put_held_block", put⟩ := by
  intro s s' args args' hs hargs
  refine exceptRel_blockArg hargs fun b b' dest dest' hb hdest => ?_
  refine .ite (not_congr ?_) (.error _ _) ?_
  · exact eq_some_iff_of_rel hR.biUnique hb hs.holding
  · cases hdest with
    | table => exact .ok (.cons ⟨rfl, .cons (.block hb) .nil⟩ .nil)
    | block hbelow => exact .ok (.cons ⟨rfl, .cons (.block hb) (.cons (.block hbelow) .nil)⟩ .nil)
    | goal _ => exact .error _ _

theorem respects_of_domain {d : Domain State Arg} (hd : domain = .ok d) (hR : KeepsOrder R) :
    d.Respects (State.Matches R) (Arg.Matches R) := by
  refine Domain.respects_of_declareMoves hd nodup_moveNames ?_ ?_
  · simp only [operators, List.forall_mem_cons]
    exact ⟨pickup_respects hR, unstack_respects hR, putdown_respects hR, stack_respects hR,
      fun _ h => absurd h List.not_mem_nil⟩
  · simp only [List.forall_mem_cons]
    exact ⟨put_respects hR, get_respects hR, moveOne_respects, moveBlocks_respects hR,
      fun _ h => absurd h List.not_mem_nil⟩

/-! ## Facts -/

/-- Supports match if both are the table or they are matching blocks. -/
def SupportRel (R : String → String → Prop) (support support' : String) : Prop :=
  support = tableName ∧ support' = tableName ∨ R support support'

/-- Facts match if they put matching blocks on matching supports. -/
structure Fact.Matches (R : String → String → Prop) (f f' : Fact) : Prop where
  block : R f.block f'.block
  on : SupportRel R f.on f'.on

section

variable {isKnown isKnown' : String → Bool} {pos pos' : OrderedMap String Place} {f f' : Fact}
  {facts facts' : List Fact} {b b' : String} (hR : KeepsOrder R)

include hR

theorem Fact.place_matches (htable : AvoidsTable R)
    (hknown : ∀ b b', R b b' → isKnown b = isKnown' b') (hf : f.Matches R f') :
    ExceptRel (Place.Matches R) (f.place isKnown) (f'.place isKnown') := by
  rw [Fact.place, Fact.place, hknown _ _ hf.block]
  refine .ite Iff.rfl (.error _ _) ?_
  rcases hf.on with ⟨hon, hon'⟩ | hon
  · rw [if_pos hon, if_pos hon']
    exact .ok .table
  · rw [if_neg (htable hon).1, if_neg (htable hon).2, hknown _ _ hon]
    refine .ite ?_ (.error _ _) (.ite Iff.rfl (.ok (.on hon)) (.error _ _))
    exact Relator.rel_eq hR.biUnique hon hf.block

theorem addFacts_matches (htable : AvoidsTable R)
    (hknown : ∀ b b', R b b' → isKnown b = isKnown' b')
    (hpos : PositionsRel R pos pos') (hfacts : List.Forall₂ (Fact.Matches R) facts facts') :
    ExceptRel (PositionsRel R) (addFacts isKnown pos facts) (addFacts isKnown' pos' facts') := by
  induction hfacts generalizing pos pos' with
  | nil => exact .ok hpos
  | cons hf _ ih =>
      rw [addFacts, addFacts]
      refine (Fact.place_matches hR htable hknown hf).bind fun place place' hplace => ?_
      rw [hpos.contains_eq hR hf.block]
      exact .ite Iff.rfl (.error _ _) (ih (hpos.insert hR hf.block hplace))

theorem sharedSupport?_matches (hpos : PositionsRel R pos pos') :
    Option.Rel R (sharedSupport? pos) (sharedSupport? pos') := by
  refine rel_findSome? (fun place place' hplace => ?_) hpos.values
  cases hplace with
  | table => exact .none
  | hand => exact .none
  | on hbelow =>
      dsimp only
      rw [count_eq_of_forall₂ (Place.Matches.biUnique hR.biUnique) (.on hbelow) hpos.values]
      split
      · exact .some hbelow
      · exact .none

theorem positions_matches (htable : AvoidsTable R)
    (hknown : ∀ b b', R b b' → isKnown b = isKnown' b')
    (hfacts : List.Forall₂ (Fact.Matches R) facts facts') :
    ExceptRel (PositionsRel R) (positions isKnown facts)
      (positions isKnown' facts') := by
  refine (addFacts_matches hR htable hknown .empty hfacts).bind fun pos pos' hpos => ?_
  have hshared := sharedSupport?_matches hR hpos
  generalize sharedSupport? pos = shared at hshared ⊢
  generalize sharedSupport? pos' = shared' at hshared ⊢
  cases hshared with
  | some _ => exact .error _ _
  | none => exact .ok hpos

theorem leadsTo_eq (hpos : PositionsRel R pos pos') {goal goal' : String}
    (hgoal : R goal goal') (bound : Nat) (hb : R b b') :
    leadsTo pos goal bound b = leadsTo pos' goal' bound b' := by
  induction bound generalizing b b' with
  | zero => rfl
  | succ bound ih =>
      have hhere := hpos.get? hR hb
      rw [leadsTo, leadsTo]
      generalize pos.get? b = here at hhere ⊢
      generalize pos'.get? b' = here' at hhere ⊢
      cases hhere with
      | none => rfl
      | some hplace =>
          cases hplace with
          | table => rfl
          | hand => rfl
          | on hbelow =>
              dsimp only
              rw [ih hbelow, decide_eq_decide.mpr (Relator.rel_eq hR.biUnique hbelow hgoal)]

theorem checkAcyclic_matches (hpos : PositionsRel R pos pos') :
    ExceptRel Eq (checkAcyclic pos) (checkAcyclic pos') := by
  have hcycle : Option.Rel R (cycle? pos) (cycle? pos') :=
    rel_find? (fun b b' hb => by rw [leadsTo_eq hR hpos hb _ hb, hpos.size_eq]) hpos.keys
  rw [checkAcyclic, checkAcyclic]
  generalize cycle? pos = cycle at hcycle ⊢
  generalize cycle? pos' = cycle' at hcycle ⊢
  cases hcycle with
  | some _ => exact .error _ _
  | none => exact .ok rfl

end

/-! ## Problems -/

/-- Problems match if matching blocks have matching places in them. -/
structure Problem.Matches (R : String → String → Prop) (p p' : Problem) : Prop where
  start : PositionsRel R p.start p'.start
  goal : PositionsRel R p.goal p'.goal

namespace Problem

theorem ofFacts_matches {start start' goal goal' : List Fact} (hR : KeepsOrder R)
    (htable : AvoidsTable R)
    (hstart : List.Forall₂ (Fact.Matches R) start start')
    (hgoal : List.Forall₂ (Fact.Matches R) goal goal') :
    ExceptRel (Problem.Matches R) (ofFacts start goal) (ofFacts start' goal') := by
  have hlisted (b b' : String) (hb : R b b') :
      (start.any fun f => f.block == b) = start'.any fun f => f.block == b' :=
    any_eq_of_forall₂ (fun _ _ hf => beq_eq_of_rel hR.biUnique hf.block hb) hstart
  refine (positions_matches hR htable hlisted hstart).bind fun startPos startPos' hstartPos => ?_
  refine (positions_matches hR htable (fun _ _ hb => hstartPos.contains_eq hR hb) hgoal).bind
    fun goalPos goalPos' hgoalPos => ?_
  have hmerged := hstartPos.insertAll hR hgoalPos
  refine (checkAcyclic_matches hR hstartPos).bind fun _ _ _ => ?_
  exact (checkAcyclic_matches hR hmerged).bind fun _ _ _ => .ok ⟨hstartPos, hmerged⟩

theorem Matches.startState {p p' : Problem} (h : p.Matches R p') (hR : KeepsOrder R) :
    p.startState.Matches R p'.startState := by
  refine ⟨rfl, h.start, h.start.mapValues fun b b' _ _ hb _ => ?_, .none⟩
  rw [contains_eq_of_forall₂ (Place.Matches.biUnique hR.biUnique) (.on hb) h.start.values]

end Problem

end TaskNetwork.Blocks
