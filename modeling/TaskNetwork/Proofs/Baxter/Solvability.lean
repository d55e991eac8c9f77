import TaskNetwork.Proofs.Baxter.Strategy

/-!
# Which swap problems the planner solves

A slot takes a block that did not start in it only when the block that did has to leave. So the
planner finds a plan exactly if each slot is wanted by at most one block, and by a newcomer only in
the place of a block that the goal lists.
-/

namespace TaskNetwork.Baxter.Problem

variable {start : OrderedMap String Location} {goal : Goal} {p : Problem} {s next : State}
  {b : String} {here target dest slot : Location} {hand : Hand} {d : Domain State Arg}

/-- What the goal may ask of a slot: at most one block, and if this does not start there, another
one which the goal lists has to start there. -/
structure CanFill (p : Problem) (slot : Location) : Prop where
  unshared {b b' : String} :
    p.goal.get? b = some slot → p.goal.get? b' = some slot → b = b'
  replaced {b : String} :
    p.goal.get? b = some slot → p.start.get? b ≠ some slot →
      ∃ b', p.start.get? b' = some slot ∧ p.goal.contains b' = true

/-- A run of the planner between two rounds: blocks that need not move have not moved, and only
blocks that started in a slot or are to end there are in it. -/
structure IsUnderway (p : Problem) (s : State) : Prop where
  reaches : p.Reaches s
  empty (hand : Hand) : s.holding hand = none
  kept {b : String} :
    p.goal.get? b = none ∨ p.goal.get? b = p.start.get? b → s.pos.get? b = p.start.get? b
  slots {b : String} {slot : Location} :
    slot.isSlot = true → s.pos.get? b = some slot →
      p.start.get? b = some slot ∨ p.goal.get? b = some slot

theorem isUnderway_start (p : Problem) : p.IsUnderway p.startState where
  reaches := .start
  empty hand := by cases hand <;> rfl
  kept _ := rfl
  slots _ hb := Or.inl hb

/-! ## Rounds -/

theorem IsUnderway.of_moves (h : p.IsUnderway s) (hreach : p.Reaches next)
    (hm : Moves s b here dest next) (hmem : (b, here, target) ∈ misplaced s p.goal)
    (hstep : stepToward s here target = some (dest, hand)) : p.IsUnderway next := by
  obtain ⟨hpos, hgoal, hne⟩ := mem_misplaced.mp hmem
  refine ⟨hreach, hm.empty, fun {x} hx => ?_, fun {x slot} hslot hx => ?_⟩
  · rw [hm.pos', if_neg]
    · exact h.kept hx
    · rintro rfl
      rw [hgoal] at hx
      rcases hx with hx | hx
      · cases hx
      · have hkept := h.kept (Or.inr (hgoal.trans hx))
        rw [hpos, ← hx, Option.some.injEq] at hkept
        exact hne hkept
  · rw [hm.pos'] at hx
    split_ifs at hx with hxb
    · subst hxb
      cases hx
      rcases leaves_or_enters hstep with ⟨-, rfl⟩ | ⟨-, rfl, -, -⟩
      · cases hslot
      · exact Or.inr hgoal
    · exact h.slots hslot hx

/-- The rounds that both slots together may still need. -/
def effort (s : State) (goal : Goal) : Nat := slotEffort s goal .t1 + slotEffort s goal .t2

theorem effort_lt_of_moves (hs : s.IsConsistent start) (hm : Moves s b here dest next)
    (hmem : (b, here, target) ∈ misplaced s goal)
    (hstep : stepToward s here target = some (dest, hand)) : effort next goal < effort s goal := by
  have hlt := slotEffort_lt_of_moves hs hm hmem hstep
  have hle {slot : Location} (hother : slot.isSlot = true) (hne : slot ≠ hand.slot) :
      slotEffort next goal slot ≤ slotEffort s goal slot := by
    have hcenter : slot ≠ .center := by
      rintro rfl
      cases hother
    rcases leaves_or_enters hstep with ⟨rfl, rfl⟩ | ⟨rfl, -, rfl, -⟩
    · exact slotEffort_le_of_moves hm hne hcenter
    · exact slotEffort_le_of_moves hm hcenter hne
  unfold effort
  cases hand with
  | left =>
      have hle : slotEffort next goal .t2 ≤ slotEffort s goal .t2 := hle rfl nofun
      have hlt : slotEffort next goal .t1 < slotEffort s goal .t1 := hlt
      omega
  | right =>
      have hle : slotEffort next goal .t1 ≤ slotEffort s goal .t1 := hle rfl nofun
      have hlt : slotEffort next goal .t2 < slotEffort s goal .t2 := hlt
      omega

theorem IsUnderway.progress (hp : p.IsAccepted) (hd : domain = .ok d) (h : p.IsUnderway s) :
    Method.IsOver ⟨"advance_one_block", moveBlocks⟩ [.goal p.goal] s ∨
      ∃ steps next, Round d ⟨"move_blocks", [.goal p.goal]⟩ s steps next ∧ steps.length = 2 ∧
        p.IsUnderway next ∧ effort next p.goal < effort s p.goal := by
  rcases moveBlocks_cases s p.goal with
    ⟨b, here, target, dest, hand, hmem, hstep, hmove⟩ | ⟨hok, -⟩ | ⟨herr, -⟩
  · have hpos := (mem_misplaced.mp hmem).1
    obtain ⟨steps, next, hround, hlen, hreach, hm⟩ := exists_round hd h.empty hpos hstep hmove
    exact Or.inr ⟨steps, next, hround, hlen, h.of_moves (hreach _ h.reaches) hm hmem hstep,
      effort_lt_of_moves (hp.isConsistent h.reaches) hm hmem hstep⟩
  · exact Or.inl (Or.inl hok)
  · exact Or.inl (Or.inr herr)

/-! ## Ends of runs -/

theorem at_goal_of_misplaced_eq_nil (hp : p.IsAccepted) (hs : s.IsConsistent p.start)
    (h : misplaced s p.goal = []) (hb : p.goal.get? b = some target) :
    s.pos.get? b = some target := by
  have hknown : s.pos.contains b = true := by
    rw [hs.contains_iff]
    exact hp.known (Option.isSome_iff_exists.mpr ⟨_, hb⟩)
  obtain ⟨here, hpos⟩ := Option.isSome_iff_exists.mp hknown
  by_cases hne : here = target
  · rw [hpos, hne]
  · have hmem := mem_misplaced.mpr ⟨hpos, hb, hne⟩
    rw [h] at hmem
    cases hmem

theorem canFill_of_misplaced_eq_nil (hp : p.IsAccepted) (hs : p.IsUnderway s)
    (h : misplaced s p.goal = []) (hslot : slot.isSlot = true) : p.CanFill slot where
  unshared hb hb' :=
    (hp.isConsistent hs.reaches).eq_of_at hslot
      (at_goal_of_misplaced_eq_nil hp (hp.isConsistent hs.reaches) h hb)
      (at_goal_of_misplaced_eq_nil hp (hp.isConsistent hs.reaches) h hb')
  replaced {b} hb hstart := by
    have hcons := hp.isConsistent hs.reaches
    have hpos := at_goal_of_misplaced_eq_nil hp hcons h hb
    obtain ⟨b', hb'⟩ := hcons.exists_start hslot hpos
    refine ⟨b', hb', ?_⟩
    cases hlisted : p.goal.get? b' with
    | some _ => exact Option.isSome_iff_exists.mpr ⟨_, hlisted⟩
    | none =>
        -- a block that the goal does not list is still in its slot, and so has no newcomer
        have hstays := (hs.kept (Or.inl hlisted)).trans hb'
        obtain rfl := hcons.eq_of_at hslot hpos hstays
        exact absurd hb' hstart

/-- If there is no move, each misplaced block waits at the center for a slot that is not vacated. -/
theorem IsUnderway.waits (hp : p.IsAccepted) (hs : p.IsUnderway s)
    (hmem : (b, here, target) ∈ misplaced s p.goal) (hstep : stepToward s here target = none) :
    here = .center ∧ target.isSlot = true ∧ s.vacated.contains target = false := by
  obtain ⟨hpos, hgoal, hne⟩ := mem_misplaced.mp hmem
  refine waits_of_stepToward hstep hne ?_ ?_
  · rintro hand rfl
    have hholds := (hp.isConsistent hs.reaches).holding.mpr hpos
    rw [hs.empty] at hholds
    cases hholds
  · rintro hand rfl
    exact hp.goal_not_held b hand hgoal

/-- If both slots can be filled, a misplaced block that waits for a slot waits for a misplaced block
in it, which can leave. -/
theorem IsUnderway.exists_step (hp : p.IsAccepted) (hs : p.IsUnderway s)
    (hfill : ∀ {slot : Location}, slot.isSlot = true → p.CanFill slot)
    (hmem : (b, here, target) ∈ misplaced s p.goal) :
    ∃ b here target, (b, here, target) ∈ misplaced s p.goal ∧
      stepToward s here target ≠ none := by
  have hcons := hp.isConsistent hs.reaches
  obtain ⟨hpos, hgoal, hne⟩ := mem_misplaced.mp hmem
  by_cases hstep : stepToward s here target = none
  · obtain ⟨rfl, hslot, hvacated⟩ := hs.waits hp hmem hstep
    have hstart : p.start.get? b ≠ some target := by
      intro hb
      have hkept := (hs.kept (Or.inr (hgoal.trans hb.symm))).trans hb
      rw [hpos, Option.some.injEq] at hkept
      exact hne hkept
    obtain ⟨b', hb', hlisted⟩ := (hfill hslot).replaced hgoal hstart
    obtain ⟨x, hx⟩ := hcons.exists_at hslot hb' hvacated
    have hother : p.goal.get? x ≠ some target := by
      intro hxgoal
      obtain rfl := (hfill hslot).unshared hgoal hxgoal
      rw [hpos, Option.some.injEq] at hx
      exact hne hx
    -- the block in the slot is the one that started there, so the goal lists it, elsewhere
    obtain rfl := hcons.eq_of_start hslot hb' ((hs.slots hslot hx).resolve_right hother)
    obtain ⟨target', hgoal'⟩ := Option.isSome_iff_exists.mp hlisted
    have hne' : target ≠ target' := by
      rintro rfl
      exact hother hgoal'
    have hmem' := mem_misplaced.mpr ⟨hx, hgoal', hne'⟩
    refine ⟨b', target, target', hmem', fun hstep' => ?_⟩
    obtain ⟨rfl, -, -⟩ := hs.waits hp hmem' hstep'
    cases hslot
  · exact ⟨b, here, target, hmem, hstep⟩

theorem misplaced_eq_nil_of_end (hend : moveBlocks s [.goal p.goal] = .ok []) :
    misplaced s p.goal = [] := by
  rcases moveBlocks_cases s p.goal with ⟨_, _, _, _, _, _, _, hmove⟩ | ⟨-, hnil⟩ | ⟨⟨_, herr⟩, -⟩
  · cases hend.symm.trans hmove
  · exact hnil
  · cases hend.symm.trans herr

theorem IsUnderway.canFill_of_end (hp : p.IsAccepted) (hs : p.IsUnderway s)
    (hend : moveBlocks s [.goal p.goal] = .ok []) : p.CanFill .t1 ∧ p.CanFill .t2 :=
  have hnil := misplaced_eq_nil_of_end hend
  ⟨canFill_of_misplaced_eq_nil hp hs hnil rfl, canFill_of_misplaced_eq_nil hp hs hnil rfl⟩

theorem IsUnderway.goalSatisfied_of_end (hp : p.IsAccepted) (hs : p.IsUnderway s)
    (hend : moveBlocks s [.goal p.goal] = .ok []) : p.goalSatisfied s = true := by
  have hnil := misplaced_eq_nil_of_end hend
  have hleft : s.holdingLeft = none := hs.empty .left
  have hright : s.holdingRight = none := hs.empty .right
  rw [goalSatisfied, State.handsEmpty, hleft, hright, Bool.and_eq_true, List.all_eq_true]
  refine ⟨rfl, fun e he => ?_⟩
  have hat := at_goal_of_misplaced_eq_nil hp (hp.isConsistent hs.reaches) hnil
    (OrderedMap.mem_entries_iff.mp he)
  simpa using hat

theorem IsUnderway.not_canFill_of_error (hp : p.IsAccepted) (hs : p.IsUnderway s)
    {e : MethodFailure} (herr : moveBlocks s [.goal p.goal] = .error e) :
    ¬ (p.CanFill .t1 ∧ p.CanFill .t2) := by
  rintro ⟨h₁, h₂⟩
  have hfill {slot : Location} (hslot : slot.isSlot = true) : p.CanFill slot := by
    cases slot with
    | center => cases hslot
    | t1 => exact h₁
    | t2 => exact h₂
    | held _ => cases hslot
  rcases moveBlocks_cases s p.goal with
    ⟨_, _, _, _, _, _, _, hmove⟩ | ⟨hok, -⟩ | ⟨-, ⟨⟨b, here, target⟩, hmem⟩, hstuck⟩
  · cases herr.symm.trans hmove
  · cases herr.symm.trans hok
  · obtain ⟨b', here', target', hmem', hstep⟩ := hs.exists_step hp hfill hmem
    exact hstep (hstuck b' here' target' hmem')

/-! ## Runs -/

/-- Of an accepted problem the planner finds a plan exactly if both slots can be filled, in at most
four rounds. -/
theorem runTraced_swaps {policy : Policy} (hp : Problem.create start goal = .ok p)
    (hpolicy : policy.validate = .ok ()) (hdepth : 25 ≤ policy.maxDepth.toNat) :
    ∃ d planner outcome, p.world.domain = .ok d ∧ Planner.create d policy = .ok planner ∧
      planner.runTraced p.world.start p.world.initialTasks = outcome ∧
      outcome.trace.metadata.depthBoundHits = 0 ∧
      (∀ failure, outcome.result = .error failure → failure.depthBoundReached = false) ∧
      ((∃ plan, outcome.result = .ok plan) ↔ p.CanFill .t1 ∧ p.CanFill .t2) ∧
      ∀ plan, outcome.result = .ok plan → plan.steps.length ≤ 8 := by
  obtain ⟨d, hd⟩ : ∃ d, domain = .ok d := ⟨_, rfl⟩
  have hacc := isAccepted_of_create hp
  have heffort : effort p.startState p.goal ≤ 4 :=
    Nat.add_le_add (slotEffort_le_two ..) (slotEffort_le_two ..)
  have hprogress (_ : List (Task Arg)) (s : State) (h : p.IsUnderway s) := h.progress hacc hd
  obtain ⟨outcome, hrun, hhits, hiff, hfound, hfailed⟩ :=
    Planner.runTraced_of_rounds (p := policy) hd nodup_moveNames hprogress p.isUnderway_start
      (by omega) (fun _ _ h => h.canFill_of_end hacc) (fun _ _ _ h => h.not_canFill_of_error hacc)
  refine ⟨d, _, outcome, hd, Planner.create_of_validate hpolicy, hrun, hhits, hfailed, hiff,
    fun plan hplan => ?_⟩
  obtain ⟨-, hlen, -⟩ := hfound plan hplan
  omega

theorem runTraced_swaps_swap :
    ∃ d planner outcome, swap.world.domain = .ok d ∧ Planner.create d {} = .ok planner ∧
      planner.runTraced swap.world.start swap.world.initialTasks = outcome ∧
      outcome.trace.metadata.depthBoundHits = 0 ∧
      (∀ failure, outcome.result = .error failure → failure.depthBoundReached = false) ∧
      ((∃ plan, outcome.result = .ok plan) ↔ swap.CanFill .t1 ∧ swap.CanFill .t2) ∧
      ∀ plan, outcome.result = .ok plan → plan.steps.length ≤ 8 :=
  @runTraced_swaps swap.start swap.goal _ _ rfl rfl (by decide)

end TaskNetwork.Baxter.Problem
