import TaskNetwork.Proofs.Blocks.Strategy
import TaskNetwork.Proofs.Search.Replay

/-!
# Moves by status

A block that can go to its final place by its status is done once it has gone there, and a waiting
block can be parked. Neither move touches a tower of blocks that are done.
-/

namespace TaskNetwork.Blocks

variable {s next : State} {goal : Goal} {b : String} {blocks : List String}
  {d : Domain State Arg} {dest : Arg} {here place : Place}

/-- The operators that `move_one` comes down to accept one another's states, and leave the blocks
consistent, the hand empty and all blocks done that were done before. -/
structure MovesSafely (d : Domain State Arg) (goal : Goal) (blocks : List String) (s : State)
    (b : String) (dest : Arg) (next : State) : Prop where
  accepted : ∃ choices steps,
    Derivation.Succeeds d ⟨s, [⟨"move_one", [.block b, dest]⟩]⟩ choices steps next ∧
      replay d s steps = .ok next
  consistent : next.IsConsistent blocks
  empty : next.holding = none
  done (x : String) : status s goal x = .done → status next goal x = .done

theorem Moves.safely (hm : Moves d s b dest here place next) (hs : s.IsConsistent blocks)
    (hb : isDone s goal b = false) : MovesSafely d goal blocks s b dest next where
  accepted := ⟨_, _, hm.derivation [], (hm.derivation []).fromIndex_eq 0⟩
  consistent := hm.consistent hs
  empty := hm.empty
  done x hx := by
    rw [status_eq_done] at hx ⊢
    exact isDone_of_move hm.same hb hx

/-- The strategy moves the first block, in the order of names, that can go to its final place. -/
theorem moveBlocks_of_finalMove (hb : b ∈ s.clear.keys)
    (hmove : finalMove s goal b = some (b, dest))
    (hfirst : ∀ x ∈ s.clear.keys, x < b → finalMove s goal x = none) :
    moveBlocks s [.goal goal] = .ok (moveThenContinue b dest goal) := by
  have hfound : s.clear.keys.findSome? (finalMove s goal) = some (b, dest) := by
    obtain ⟨before, after, hkeys⟩ := List.mem_iff_append.mp hb
    have hsorted := OrderedMap.pairwise_keys s.clear
    rw [hkeys] at hfirst hsorted
    refine List.findSome?_eq_some_iff.mpr ⟨before, b, after, hkeys, hmove, fun x hx => ?_⟩
    refine hfirst x (List.mem_append_left _ hx) ?_
    exact (List.pairwise_append.mp hsorted).2.2 x hx b List.mem_cons_self
  rw [moveBlocks, hfound]

/-- A block that the status sends to its final place goes there and is done. -/
theorem exists_finalMove (hd : domain = .ok d) (hs : s.IsConsistent blocks)
    (hempty : s.holding = none)
    (hstatus : status s goal b = .moveToTable ∨ status s goal b = .moveToBlock) :
    ∃ dest next, finalMove s goal b = some (b, dest) ∧ MovesSafely d goal blocks s b dest next ∧
      status next goal b = .done := by
  have hhas := hasStatus_status s goal b
  rcases hstatus with h | h
  · rw [h] at hhas
    cases hhas with
    | moveToTable hb hclear hwanted =>
        obtain ⟨here, next, hm⟩ := exists_moves hd hs hempty hclear hb (.settle hwanted)
        refine ⟨.table, next, by rw [finalMove, h], hm.safely hs hb, ?_⟩
        exact status_eq_done.mpr (isDone_of_table hm.pos' hwanted)
  · rw [h] at hhas
    cases hhas with
    | @moveToBlock target hb hclear hgoal hdone hready =>
        obtain ⟨here, next, hm⟩ := exists_moves hd hs hempty hclear hb (.stack hgoal hdone hready)
        refine ⟨.block target, next, by rw [finalMove, h, hgoal], hm.safely hs hb, ?_⟩
        have hwanted : contradicts goal b (some (.on target)) = false := by
          simp [contradicts, hgoal]
        exact status_eq_done.mpr
          (isDone_of_on hm.pos' hwanted (isDone_of_move hm.same hb hdone))

theorem exists_park (hd : domain = .ok d) (hs : s.IsConsistent blocks) (hempty : s.holding = none)
    (hpark : canPark s goal b = true) :
    ∃ next, MovesSafely d goal blocks s b .table next := by
  obtain ⟨hclear, hb, hadv⟩ := advances_of_canPark hpark
  obtain ⟨here, next, hm⟩ := exists_moves hd hs hempty hclear hb hadv
  exact ⟨next, hm.safely hs hb⟩

/-- The status is a sound guide: in a consistent state with the empty hand,
whatever the goal is, every move that it asks for can be made, ends with the block done, and keeps
done what is done. The strategy makes that move if no block before it has one to make. Every waiting
block that is not on the table can be parked, and that too keeps done what is done. -/
theorem status_guides (hs : s.IsConsistent blocks) (hempty : s.holding = none) (goal : Goal) :
    ∃ d, domain = .ok d ∧
      (∀ b, status s goal b = .moveToTable ∨ status s goal b = .moveToBlock →
        ∃ dest next, finalMove s goal b = some (b, dest) ∧
          ((∀ x ∈ s.clear.keys, x < b → finalMove s goal x = none) →
            moveBlocks s [.goal goal] = .ok (moveThenContinue b dest goal)) ∧
          MovesSafely d goal blocks s b dest next ∧ status next goal b = .done) ∧
      ∀ b, status s goal b = .waiting → s.pos.get? b ≠ some .table →
        ∃ next, MovesSafely d goal blocks s b .table next := by
  obtain ⟨d, hd⟩ : ∃ d, domain = .ok d := ⟨_, rfl⟩
  refine ⟨d, hd, fun b hstatus => ?_, fun b hwaits hpos => ?_⟩
  · obtain ⟨dest, next, hmove, hsafely, hdone⟩ := exists_finalMove hd hs hempty hstatus
    have hclear := (advances_of_finalMove hmove).2.1
    have hb : b ∈ s.clear.keys := OrderedMap.mem_keys_iff.mpr (contains_of_isClear hclear)
    exact ⟨dest, next, hmove, moveBlocks_of_finalMove hb hmove, hsafely, hdone⟩
  · exact exists_park hd hs hempty (by simp [canPark, hwaits, hpos])

/-- The goal wants `b` on `c`, and does not say where `a` goes; so `a` is put on the table, where
`c` stays done. -/
theorem status_guides_uncover :
    ∃ p s goal d next, Problem.ofFacts [⟨"a", "b"⟩, ⟨"b", "table"⟩, ⟨"c", "table"⟩] [] = .ok p ∧
      p.startState = s ∧ goal = OrderedMap.ofList [("b", Place.on "c")] ∧ domain = .ok d ∧
      s.IsConsistent ["a", "b", "c"] ∧ s.holding = none ∧ status s goal "a" = .moveToTable ∧
      MovesSafely d goal ["a", "b", "c"] s "a" .table next ∧ status next goal "a" = .done ∧
      status next goal "c" = .done := by
  obtain ⟨p, hp, hkeys⟩ : ∃ p, Problem.ofFacts [⟨"a", "b"⟩, ⟨"b", "table"⟩, ⟨"c", "table"⟩] [] =
      .ok p ∧ p.start.keys = ["a", "b", "c"] := ⟨_, rfl, rfl⟩
  have hs : p.startState.IsConsistent ["a", "b", "c"] :=
    hkeys ▸ Problem.Reaches.isConsistent hp .start
  obtain ⟨goal, hgoal⟩ : ∃ goal, goal = OrderedMap.ofList [("b", Place.on "c")] := ⟨_, rfl⟩
  obtain ⟨d, hd, hguides, -⟩ := status_guides hs rfl goal
  have hstatus : status p.startState goal "a" = .moveToTable ∧
      status p.startState goal "c" = .done := by
    cases hp
    cases hgoal
    exact ⟨rfl, rfl⟩
  obtain ⟨dest, next, hmove, -, hsafely, hdone⟩ := hguides "a" (Or.inl hstatus.1)
  rw [finalMove, hstatus.1] at hmove
  cases hmove
  exact ⟨p, _, goal, d, next, hp, rfl, hgoal, hd, hs, rfl, hstatus.1, hsafely, hdone,
    hsafely.done "c" hstatus.2⟩

end TaskNetwork.Blocks
