import TaskNetwork.Proofs.Baxter.Strategy
import TaskNetwork.Proofs.Search.Matching

/-!
# The swap world under other names

The swap world never looks at a block's name but to look it up or to list blocks in order. So if
names match in a way that keeps their order, then problems, states and tasks under matching names
are taken alike by every check, operator and method.
-/

namespace TaskNetwork.Baxter

variable {R : String → String → Prop}

/-! ## Arguments and states -/

/-- Arguments match if they are of one kind and the names in them match. -/
inductive Arg.Matches (R : String → String → Prop) : Arg → Arg → Prop where
  | block {b b' : String} : R b b' → Matches R (.block b) (.block b')
  | location (loc : Location) : Matches R (.location loc) (.location loc)
  | hand (hand : Hand) : Matches R (.hand hand) (.hand hand)
  | goal {goal goal' : Goal} : goal.Matches R Eq goal' → Matches R (.goal goal) (.goal goal')

/-- States match if matching blocks are at the same places. -/
structure State.Matches (R : String → String → Prop) (s s' : State) : Prop where
  name_eq : s.name = s'.name
  pos : s.pos.Matches R Eq s'.pos
  holdingLeft : Option.Rel R s.holdingLeft s'.holdingLeft
  holdingRight : Option.Rel R s.holdingRight s'.holdingRight
  vacated_eq : s.vacated = s'.vacated

section

variable {α β ε : Type} {V : α → β → Prop} {e e' : ε} {args args' : List Arg}
  (hargs : List.Forall₂ (Arg.Matches R) args args')

include hargs

theorem exceptRel_goal {f : Goal → Except ε α} {f' : Goal → Except ε β}
    (h : ∀ goal goal', OrderedMap.Matches R Eq goal goal' → ExceptRel V (f goal) (f' goal')) :
    ExceptRel V (match args with | [.goal goal] => f goal | _ => .error e)
      (match args' with | [.goal goal] => f' goal | _ => .error e') := by
  rcases hargs with _ | ⟨_ | _ | _ | hgoal, _ | _⟩ <;>
    first
    | exact h _ _ hgoal
    | exact .error e e'

theorem exceptRel_blockHand {f : String → Hand → Except ε α} {f' : String → Hand → Except ε β}
    (h : ∀ b b' hand, R b b' → ExceptRel V (f b hand) (f' b' hand)) :
    ExceptRel V (match args with | [.block b, .hand hand] => f b hand | _ => .error e)
      (match args' with | [.block b, .hand hand] => f' b hand | _ => .error e') := by
  rcases hargs with _ | ⟨hb | _ | _ | _, _ | ⟨_ | _ | _ | _, _ | _⟩⟩ <;>
    first
    | exact h _ _ _ hb
    | exact .error e e'

theorem exceptRel_blockLocationHand {f : String → Location → Hand → Except ε α}
    {f' : String → Location → Hand → Except ε β}
    (h : ∀ b b' loc hand, R b b' → ExceptRel V (f b loc hand) (f' b' loc hand)) :
    ExceptRel V
      (match args with | [.block b, .location loc, .hand hand] => f b loc hand | _ => .error e)
      (match args' with
        | [.block b, .location loc, .hand hand] => f' b loc hand
        | _ => .error e') := by
  rcases hargs with
      _ | ⟨hb | _ | _ | _, _ | ⟨_ | _ | _ | _, _ | ⟨_ | _ | _ | _, _ | _⟩⟩⟩ <;>
    first
    | exact h _ _ _ _ hb
    | exact .error e e'

end

namespace State.Matches

variable {s s' : State} {b b' : String} {hand : Hand} {loc : Location}

theorem get?_pos (hs : s.Matches R s') (hR : KeepsOrder R) (hb : R b b') :
    s.pos.get? b = s'.pos.get? b' :=
  eq_of_rel_eq (hs.pos.get? hR hb)

theorem holding (hs : s.Matches R s') (hand : Hand) :
    Option.Rel R (s.holding hand) (s'.holding hand) := by
  cases hand with
  | left => exact hs.holdingLeft
  | right => exact hs.holdingRight

theorem setHolding {o o' : Option String} (hs : s.Matches R s') (hand : Hand)
    (ho : Option.Rel R o o') : (s.setHolding hand o).Matches R (s'.setHolding hand o') := by
  cases hand with
  | left => exact { hs with holdingLeft := ho }
  | right => exact { hs with holdingRight := ho }

theorem setVacated (hs : s.Matches R s') (vacated : OrderedSet Location) :
    State.Matches R { s with vacated := vacated } { s' with vacated := vacated } :=
  ⟨hs.name_eq, hs.pos, hs.holdingLeft, hs.holdingRight, rfl⟩

theorem insert_pos (hs : s.Matches R s') (hR : KeepsOrder R) (hb : R b b') (loc : Location) :
    State.Matches R { s with pos := s.pos.insert b loc } { s' with pos := s'.pos.insert b' loc } :=
  ⟨hs.name_eq, hs.pos.insert hR hb rfl, hs.holdingLeft, hs.holdingRight, hs.vacated_eq⟩

theorem takeUp (hs : s.Matches R s') (hR : KeepsOrder R) (hb : R b b') (loc : Location)
    (hand : Hand) : (s.takeUp b loc hand).Matches R (s'.takeUp b' loc hand) := by
  rw [State.takeUp, State.takeUp, hs.vacated_eq]
  exact ((hs.insert_pos hR hb _).setVacated _).setHolding hand (.some hb)

theorem putDown (hs : s.Matches R s') (hR : KeepsOrder R) (hb : R b b') (loc : Location)
    (hand : Hand) : (s.putDown b loc hand).Matches R (s'.putDown b' loc hand) :=
  (hs.insert_pos hR hb loc).setHolding hand .none

end State.Matches

/-! ## Operators -/

theorem pickup_respects (hR : KeepsOrder R) :
    Operator.Respects (State.Matches R) (Arg.Matches R) ⟨"pickup", pickup⟩ := by
  intro s s' args args' hs hargs
  refine exceptRel_blockHand hargs fun b b' hand hb => ?_
  rw [hs.get?_pos hR hb]
  split
  · exact .error _ _
  · refine .ite Iff.rfl (.error _ _) (.ite ?_ (.error _ _) (.ok (hs.takeUp hR hb _ hand)))
    rw [isSome_eq_of_rel (hs.holding hand)]

theorem place_respects (hR : KeepsOrder R) :
    Operator.Respects (State.Matches R) (Arg.Matches R) ⟨"place", place⟩ := by
  intro s s' args args' hs hargs
  refine exceptRel_blockLocationHand hargs fun b b' loc hand hb => ?_
  rw [hs.get?_pos hR hb]
  refine .ite Iff.rfl (.error _ _) ?_
  split
  · exact .ok (hs.putDown hR hb _ hand)
  · exact .error _ _
  · rw [hs.vacated_eq]
    refine .ite Iff.rfl (.error _ _) (.ite Iff.rfl (.error _ _) (.ok ?_))
    exact (hs.setVacated _).putDown hR hb _ hand

/-! ## Methods -/

/-- Where a block should be moved from and to, for matching blocks. -/
def MoveRel (R : String → String → Prop) (move move' : String × Location × Location) : Prop :=
  R move.1 move'.1 ∧ move.2 = move'.2

section

variable {s s' : State} {goal goal' : Goal}

theorem misplaced_matches (hR : KeepsOrder R) (hs : s.Matches R s')
    (hgoal : goal.Matches R Eq goal') :
    List.Forall₂ (MoveRel R) (misplaced s goal) (misplaced s' goal') := by
  refine List.rel_filterMap (fun e e' he => ?_) hs.pos
  rw [eq_of_rel_eq (hgoal.get? hR he.1), he.2]
  split
  · exact .none
  · split
    · exact .none
    · exact .some ⟨he.1, rfl⟩

theorem stepToward_eq (hs : s.Matches R s') (here target : Location) :
    stepToward s here target = stepToward s' here target := by
  rw [stepToward.eq_def, stepToward.eq_def, hs.vacated_eq]

theorem exceptRel_firstMove {moves moves' : List (Task Arg)} {again again' : Task Arg}
    {x x' : Except MethodFailure (List (Task Arg))}
    (hmoves : List.Forall₂ (Task.Matches (Arg.Matches R)) moves moves')
    (hagain : again.Matches (Arg.Matches R) again')
    (hx : ExceptRel (List.Forall₂ (Task.Matches (Arg.Matches R))) x x') :
    ExceptRel (List.Forall₂ (Task.Matches (Arg.Matches R)))
      (match moves with | move :: _ => .ok [move, again] | [] => x)
      (match moves' with | move :: _ => .ok [move, again'] | [] => x') := by
  cases hmoves with
  | nil => exact hx
  | cons hmove _ => exact .ok (.cons hmove (.cons hagain .nil))

theorem moveBlocks_respects (hR : KeepsOrder R) :
    Method.Respects (State.Matches R) (Arg.Matches R) ⟨"advance_one_block", moveBlocks⟩ := by
  intro s s' args args' hs hargs
  refine exceptRel_goal hargs fun goal goal' hgoal => ?_
  have hmisplaced := misplaced_matches hR hs hgoal
  refine exceptRel_firstMove (List.rel_filterMap (fun move move' hmove => ?_) hmisplaced)
    ⟨rfl, .cons (.goal hgoal) .nil⟩ ?_
  · obtain ⟨b, here, target⟩ := move
    obtain ⟨b', _, _⟩ := move'
    obtain ⟨hb, heq⟩ := hmove
    cases heq
    dsimp only
    rw [stepToward_eq hs]
    cases stepToward s' here target with
    | none => exact .none
    | some step =>
        exact .some ⟨rfl, .cons (.block hb) (.cons (.location _) (.cons (.hand _) .nil))⟩
  · exact .ite (by rw [isEmpty_eq_of_forall₂ hmisplaced]) (.ok .nil) (.error _ _)

theorem moveOne_respects :
    Method.Respects (State.Matches R) (Arg.Matches R) ⟨"get_then_put", moveOne⟩ := by
  intro s s' args args' hs hargs
  refine exceptRel_blockLocationHand hargs fun b b' loc hand hb => .ok ?_
  exact .cons ⟨rfl, .cons (.block hb) (.cons (.hand hand) .nil)⟩
    (.cons ⟨rfl, .cons (.block hb) (.cons (.location loc) (.cons (.hand hand) .nil))⟩ .nil)

theorem get_respects :
    Method.Respects (State.Matches R) (Arg.Matches R) ⟨"pickup_block", get⟩ := by
  intro s s' args args' hs hargs
  refine exceptRel_blockHand hargs fun b b' hand hb => .ok ?_
  exact .cons ⟨rfl, .cons (.block hb) (.cons (.hand hand) .nil)⟩ .nil

theorem put_respects (hR : KeepsOrder R) :
    Method.Respects (State.Matches R) (Arg.Matches R) ⟨"place_held_block", put⟩ := by
  intro s s' args args' hs hargs
  refine exceptRel_blockLocationHand hargs fun b b' loc hand hb => ?_
  refine .ite (or_congr ?_ ?_) (.ok ?_) (.error _ _)
  · exact eq_some_iff_of_rel hR.biUnique hb hs.holdingLeft
  · exact eq_some_iff_of_rel hR.biUnique hb hs.holdingRight
  · exact .cons ⟨rfl, .cons (.block hb) (.cons (.location loc) (.cons (.hand hand) .nil))⟩ .nil

end

theorem respects_of_domain {d : Domain State Arg} (hd : domain = .ok d) (hR : KeepsOrder R) :
    d.Respects (State.Matches R) (Arg.Matches R) := by
  refine Domain.respects_of_declareMoves hd nodup_moveNames ?_ ?_
  · simp only [operators, List.forall_mem_cons]
    exact ⟨pickup_respects hR, place_respects hR, fun _ h => absurd h List.not_mem_nil⟩
  · simp only [List.forall_mem_cons]
    exact ⟨put_respects hR, get_respects, moveOne_respects, moveBlocks_respects hR,
      fun _ h => absurd h List.not_mem_nil⟩

/-! ## Problems -/

/-- Problems match if matching blocks have the same places in them. -/
structure Problem.Matches (R : String → String → Prop) (p p' : Problem) : Prop where
  start : p.start.Matches R Eq p'.start
  goal : p.goal.Matches R Eq p'.goal

namespace Problem

variable {start start' goal goal' : OrderedMap String Location} {p p' : Problem}

theorem create_matches (hR : KeepsOrder R) (hstart : start.Matches R Eq start')
    (hgoal : goal.Matches R Eq goal') :
    ExceptRel (Problem.Matches R) (create start goal) (create start' goal') := by
  have hinHand : List.Forall₂ R (blocksInHand (start.toList ++ goal.toList))
      (blocksInHand (start'.toList ++ goal'.toList)) := by
    refine List.rel_filterMap (fun e e' he => ?_) (List.rel_append hstart hgoal)
    obtain ⟨b, loc⟩ := e
    obtain ⟨b', loc'⟩ := e'
    obtain ⟨hb, rfl⟩ : R b b' ∧ loc = loc' := he
    cases loc with
    | held _ => exact .some hb
    | _ => exact .none
  have hcount : countAt start = countAt start' := by
    have hvalues := hstart.values
    rw [List.forall₂_eq_eq_eq] at hvalues
    exact funext fun loc => congrArg (List.count loc) hvalues
  have hunknown : Option.Rel R (goal.keys.find? fun block => !start.contains block)
      (goal'.keys.find? fun block => !start'.contains block) :=
    rel_find? (fun b b' hb => by rw [hstart.contains_eq hR hb]) hgoal.keys
  unfold create
  rw [hcount]
  generalize blocksInHand (start.toList ++ goal.toList) = held at hinHand ⊢
  generalize blocksInHand (start'.toList ++ goal'.toList) = held' at hinHand ⊢
  cases hinHand with
  | cons _ _ => exact .error _ _
  | nil =>
      dsimp only
      split
      · exact .error _ _
      · generalize goal.keys.find? _ = unknown at hunknown ⊢
        generalize goal'.keys.find? _ = unknown' at hunknown ⊢
        cases hunknown with
        | some _ => exact .error _ _
        | none => exact .ok ⟨hstart, hgoal⟩

theorem Matches.startState (h : p.Matches R p') : p.startState.Matches R p'.startState :=
  ⟨rfl, h.start, .none, .none, rfl⟩

end Problem

end TaskNetwork.Baxter
