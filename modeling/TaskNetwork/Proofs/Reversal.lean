import TaskNetwork.Problem
import TaskNetwork.Proofs.Baxter.Strategy
import TaskNetwork.Proofs.Blocks.Invariant

/-!
# Operators that take each other back

In both worlds with blocks, an operator that takes a block up is undone by one that puts it down,
and the other way round. The state comes back as it was, with all that it says twice: this needs
what is known of reachable states.
-/

namespace TaskNetwork

/-- What an operator does in a reachable state is taken back by one application of an operator. -/
def IsReversible {S A : Type} (operators : List (Operator S A)) (start : S) : Prop :=
  ∀ ⦃state next : S⦄ ⦃op : Operator S A⦄ ⦃args : List A⦄, Reachable operators start state →
    op ∈ operators → op.apply state args = .ok next →
      ∃ op' ∈ operators, ∃ args', op'.apply next args' = .ok state

/-! ## The blocks world -/

namespace Blocks

variable {s s' : State} {blocks : List String} {block below : String} {args : List Arg}

namespace State

theorem clear_eq_of_isClear (h : s.isClear block = true) : s.clear.get? block = some true := by
  rw [isClear] at h
  cases hb : s.clear.get? block with
  | none => simp [hb] at h
  | some flag => simpa [hb] using h

theorem clear_eq_of_not_isClear (hb : s.clear.contains block = true)
    (h : s.isClear block = false) : s.clear.get? block = some false := by
  obtain ⟨flag, hflag⟩ := Option.isSome_iff_exists.mp hb
  rw [isClear, hflag] at h
  rw [hflag]
  exact congrArg some h

theorem move_move_eq_self {place : Place} {clear : Bool} {holding : Option String}
    (hpos : s.pos.get? block = some place) (hclear : s.clear.get? block = some clear)
    (hholding : s.holding = holding) (place' : Place) (clear' : Bool) (holding' : Option String) :
    (s.move block place' clear' holding').move block place clear holding = s := by
  subst hholding
  simp only [move, OrderedMap.insert_insert_eq_self hpos,
    OrderedMap.replace_replace_eq_self hclear]

/-- A block is moved onto or off another one, and back. -/
theorem setClear_move_setClear_move_eq_self {place : Place} {clear flag : Bool}
    {holding : Option String} (hne : block ≠ below) (hpos : s.pos.get? block = some place)
    (hclear : s.clear.get? block = some clear) (hflag : s.clear.get? below = some flag)
    (hholding : s.holding = holding) (place' : Place) (clear' flag' : Bool)
    (holding' : Option String) :
    (((s.move block place' clear' holding').setClear below flag').move block place clear
      holding).setClear below flag = s := by
  subst hholding
  have hsame : (((s.clear.replace block clear').replace below flag').replace block clear).replace
      below flag = s.clear := by
    rw [OrderedMap.replace_comm (Ne.symm hne), OrderedMap.replace_replace_eq_self hclear,
      OrderedMap.replace_replace_eq_self hflag]
  simp only [move, setClear, OrderedMap.insert_insert_eq_self hpos, hsame]

theorem IsConsistent.clear_eq_of_on (h : s.IsConsistent blocks)
    (hb : s.pos.get? block = some (.on below)) : s.clear.get? below = some false := by
  refine clear_eq_of_not_isClear (h.contains_clear (h.support hb).1) ?_
  rw [← Bool.not_eq_true]
  exact fun hclear => h.bare_of_clear hclear block hb

theorem IsConsistent.clear_eq_of_held (h : s.IsConsistent blocks)
    (hb : s.pos.get? block = some .hand) : s.clear.get? block = some false := by
  have hmem := h.mem_of_pos hb
  refine clear_eq_of_not_isClear (h.contains_clear hmem) ?_
  rw [← Bool.not_eq_true]
  exact fun hclear => ((h.clear hmem).mp hclear).1 (h.holding.mpr hb)

end State

theorem putdown_of_pickup (h : pickup s args = .ok s') : putdown s' args = .ok s := by
  obtain ⟨block, rfl, ht⟩ := takesUp_of_pickup h
  have hs' : s.move block .hand false (some block) = s' := by
    simpa [pickup, ht.isHere, ht.clear, ht.empty] using h
  have hheld : s'.pos.get? block = some .hand := by simp [ht.get?_pos]
  have hback : s'.move block .table true none = s :=
    hs' ▸ State.move_move_eq_self ht.isHere (State.clear_eq_of_isClear ht.clear) ht.empty ..
  simp [putdown, hheld, hback]

theorem pickup_of_putdown (hs : s.IsConsistent blocks) (h : putdown s args = .ok s') :
    pickup s' args = .ok s := by
  obtain ⟨block, rfl, hp⟩ := putsDown_of_putdown h
  have hs' : s.move block .table true none = s' := by simpa [putdown, hp.held] using h
  have hhere : s'.pos.get? block = some .table := by simp [hp.get?_pos]
  have hclear : s'.isClear block = true :=
    (hp.clear' (hs.contains_clear (hs.mem_of_pos hp.held))).mpr ⟨nofun, Or.inl rfl⟩
  have hback : s'.move block .hand false (some block) = s :=
    hs' ▸ State.move_move_eq_self hp.held (hs.clear_eq_of_held hp.held) (hs.holding.mpr hp.held) ..
  simp [pickup, hhere, hclear, hp.holding', hback]

theorem stack_of_unstack (hs : s.IsConsistent blocks) (h : unstack s args = .ok s') :
    stack s' args = .ok s := by
  obtain ⟨block, below, rfl, ht⟩ := takesUp_of_unstack h
  obtain ⟨hmem, hne, -⟩ := hs.support ht.isHere
  have hs' : (s.move block .hand false (some block)).setClear below true = s' := by
    simpa [unstack, ht.isHere, ht.clear, ht.empty] using h
  have hheld : s'.pos.get? block = some .hand := by simp [ht.get?_pos]
  have hclear : s'.isClear below = true :=
    (ht.clear' (hs.contains_clear hmem)).mpr (Or.inl rfl)
  have hback : (s'.move block (.on below) true none).setClear below false = s :=
    hs' ▸ State.setClear_move_setClear_move_eq_self (Ne.symm hne) ht.isHere
      (State.clear_eq_of_isClear ht.clear) (hs.clear_eq_of_on ht.isHere) ht.empty ..
  simp [stack, hheld, hclear, hback]

theorem unstack_of_stack (hs : s.IsConsistent blocks) (h : stack s args = .ok s') :
    unstack s' args = .ok s := by
  obtain ⟨block, below, rfl, hp⟩ := putsDown_of_stack h
  obtain ⟨hbelow, -, hne⟩ := hs.below_putsDown hp rfl
  have hs' : (s.move block (.on below) true none).setClear below false = s' := by
    simpa [stack, hp.held, hbelow] using h
  have hhere : s'.pos.get? block = some (.on below) := by simp [hp.get?_pos]
  have hclear : s'.isClear block = true := by
    refine (hp.clear' (hs.contains_clear (hs.mem_of_pos hp.held))).mpr ⟨?_, Or.inl rfl⟩
    simpa using hne
  have hback : (s'.move block .hand false (some block)).setClear below true = s :=
    hs' ▸ State.setClear_move_setClear_move_eq_self (Ne.symm hne) hp.held
      (hs.clear_eq_of_held hp.held) (State.clear_eq_of_isClear hbelow) (hs.holding.mpr hp.held) ..
  simp [unstack, hhere, hclear, hp.holding', hback]

theorem Problem.isReversible {start goal : List Fact} {p : Problem}
    (hp : Problem.ofFacts start goal = .ok p) : IsReversible operators p.startState := by
  intro s s' op args hreach hop h
  have hs := Problem.Reaches.isConsistent hp hreach
  simp only [operators, List.mem_cons, List.not_mem_nil, or_false] at hop
  rcases hop with rfl | rfl | rfl | rfl
  · exact ⟨⟨"putdown", putdown⟩, by simp [operators], args, putdown_of_pickup h⟩
  · exact ⟨⟨"stack", stack⟩, by simp [operators], args, stack_of_unstack hs h⟩
  · exact ⟨⟨"pickup", pickup⟩, by simp [operators], args, pickup_of_putdown hs h⟩
  · exact ⟨⟨"unstack", unstack⟩, by simp [operators], args, unstack_of_stack hs h⟩

end Blocks

/-! ## The swap world -/

namespace Baxter

variable {s s' s'' : State} {start : OrderedMap String Location} {block : String}
  {loc dest : Location} {hand : Hand} {args : List Arg}

theorem State.eq_of_fields (hname : s.name = s'.name) (hpos : s.pos = s'.pos)
    (hholding : ∀ hand, s.holding hand = s'.holding hand)
    (hvacated : ∀ slot, s.vacated.contains slot = s'.vacated.contains slot) : s = s' := by
  have hleft := hholding .left
  have hright := hholding .right
  have hsame := OrderedMap.ext_contains hvacated
  cases s
  cases s'
  cases hname
  cases hpos
  cases hleft
  cases hright
  cases hsame
  rfl

theorem name_of_pickup (h : pickup s args = .ok s') : s'.name = s.name := by
  unfold pickup at h
  repeat' split at h
  all_goals cases h
  cases ‹Hand› <;> rfl

theorem name_of_place (h : place s args = .ok s') : s'.name = s.name := by
  unfold place at h
  repeat' split at h
  all_goals cases h
  all_goals cases ‹Hand› <;> rfl

theorem eq_of_picksUp_of_places (hs : s.IsConsistent start) (hp : PicksUp s block loc hand s')
    (hq : Places s' block loc hand s'') (hname : s''.name = s.name) : s'' = s := by
  refine State.eq_of_fields hname ?_ (fun h => ?_) fun slot => ?_
  · rw [hq.pos', hp.pos', OrderedMap.insert_insert_eq_self hp.isHere]
  · rw [hq.holding', hp.holding']
    by_cases hh : h = hand
    · simp [hh, hp.empty]
    · simp [hh]
  · rw [hq.vacated', hp.vacated']
    by_cases hslot : loc.isSlot = true ∧ slot = loc
    · obtain ⟨hslot, rfl⟩ := hslot
      simp [hs.not_vacated hslot hp.isHere, hslot]
    · have hnot : (loc.isSlot && slot == loc) = false := by simpa using hslot
      simp [hnot]

theorem eq_of_places_of_picksUp (hs : s.IsConsistent start) (hp : Places s block dest hand s')
    (hq : PicksUp s' block dest hand s'') (hname : s''.name = s.name) : s'' = s := by
  refine State.eq_of_fields hname ?_ (fun h => ?_) fun slot => ?_
  · rw [hq.pos', hp.pos', OrderedMap.insert_insert_eq_self hp.held]
  · rw [hq.holding', hp.holding']
    by_cases hh : h = hand
    · simp [hh, hs.holding.mpr hp.held]
    · simp [hh]
  · rw [hq.vacated', hp.vacated']
    by_cases hslot : dest.isSlot = true ∧ slot = dest
    · obtain ⟨hslot, rfl⟩ := hslot
      rcases hp.isFree with rfl | ⟨-, hvacated⟩
      · cases hslot
      · simp [hvacated, hslot]
    · have hnot : (dest.isSlot && slot == dest) = false := by simpa using hslot
      simp [hnot]

theorem exists_place_of_pickup (hs : s.IsConsistent start) (h : pickup s args = .ok s') :
    ∃ args', place s' args' = .ok s := by
  obtain ⟨block, loc, hand, rfl, hp⟩ := picksUp_of_pickup h
  have hheld : s'.pos.get? block = some (.held hand) := by
    simp [hp.pos', OrderedMap.get?_insert]
  have hfree : loc = .center ∨ loc = hand.slot ∧ s'.vacated.contains loc = true := by
    refine hp.reach.imp_right fun hslot => ⟨hslot, ?_⟩
    simp [hp.vacated', hslot, hand.isSlot_slot]
  obtain ⟨s'', hplace, hq⟩ := exists_place hheld hfree
  obtain rfl := eq_of_picksUp_of_places hs hp hq ((name_of_place hplace).trans (name_of_pickup h))
  exact ⟨_, hplace⟩

theorem exists_pickup_of_place (hs : s.IsConsistent start) (h : place s args = .ok s') :
    ∃ args', pickup s' args' = .ok s := by
  obtain ⟨block, dest, hand, rfl, hp⟩ := places_of_place h
  have hhere : s'.pos.get? block = some dest := by simp [hp.pos', OrderedMap.get?_insert]
  have hreach : dest = .center ∨ dest = hand.slot := hp.isFree.imp_right And.left
  have hempty : s'.holding hand = none := by rw [hp.holding', if_pos rfl]
  have hpickup := pickup_eq_ok hhere hreach hempty
  have hq := picksUp_takeUp hhere hreach hempty
  rw [eq_of_places_of_picksUp hs hp hq ((name_of_pickup hpickup).trans (name_of_place h))]
    at hpickup
  exact ⟨_, hpickup⟩

theorem Problem.isReversible {start : OrderedMap String Location} {goal : Goal} {p : Problem}
    (hp : Problem.create start goal = .ok p) : IsReversible operators p.startState := by
  intro s s' op args hreach hop h
  have hs := (isAccepted_of_create hp).isConsistent hreach
  simp only [operators, List.mem_cons, List.not_mem_nil, or_false] at hop
  rcases hop with rfl | rfl
  · exact ⟨⟨"place", place⟩, by simp [operators], exists_place_of_pickup hs h⟩
  · exact ⟨⟨"pickup", pickup⟩, by simp [operators], exists_pickup_of_place hs h⟩

end Baxter

/-! ## Built-in worlds -/

/-- The operators of the world of a problem take each other back. -/
def Problem.IsReversible : Problem → Prop
  | .baxter p => TaskNetwork.IsReversible Baxter.operators p.world.start
  | .blocks p => TaskNetwork.IsReversible Blocks.operators p.world.start

/-- In every state that an accepted problem leads to, whatever an operator does is taken back by one
application of an operator, to the very state that was there before. -/
theorem ProblemFile.isReversible_of_problem {file : ProblemFile} {problem : Problem}
    (h : file.problem = .ok problem) : problem.IsReversible := by
  rcases ProblemFile.cases_of_problem h with
    ⟨_, _, p, -, rfl, hp⟩ | ⟨_, _, p, -, rfl, hp⟩
  · exact Baxter.Problem.isReversible hp
  · exact Blocks.Problem.isReversible hp

/-- The block `a` is taken out of its slot, which is vacated by that, and can be put back. -/
theorem ProblemFile.isReversible_of_problem_vacated :
    ∃ p s, (baxterSwap (.ofList [("a", .t1), ("b", .center)]) ∅).problem = .ok (.baxter p) ∧
      Baxter.pickup p.world.start [.block "a", .hand .left] = .ok s ∧
      s.vacated.contains .t1 = true ∧ p.world.start.vacated.contains .t1 = false ∧
      ∃ op ∈ Baxter.operators, ∃ args, op.apply s args = .ok p.world.start := by
  obtain ⟨p, hp⟩ : ∃ p, (baxterSwap (.ofList [("a", .t1), ("b", .center)]) ∅).problem =
      .ok (.baxter p) := ⟨_, rfl⟩
  have hreversible : (Problem.baxter p).IsReversible := isReversible_of_problem hp
  cases hp
  have hop : Operator.mk "pickup" Baxter.pickup ∈ Baxter.operators := by simp [Baxter.operators]
  have hpickup : (Operator.mk "pickup" Baxter.pickup).apply
      (Baxter.Problem.world ⟨.ofList [("a", .t1), ("b", .center)], ∅⟩).start
      [.block "a", .hand .left] = .ok _ := rfl
  exact ⟨_, _, rfl, hpickup, rfl, rfl, hreversible .start hop hpickup⟩

end TaskNetwork
