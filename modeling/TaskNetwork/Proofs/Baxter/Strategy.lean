import Mathlib.Tactic.SplitIfs
import TaskNetwork.Proofs.Baxter.Invariant
import TaskNetwork.Proofs.Search.Rounds

/-!
# Rounds in the swap world

A round takes a misplaced block out of a slot to the center, or puts one from the center into its
vacated slot. A slot with a misplaced block needs two rounds, a vacated one at most one more, and no
round makes more work at the other slot.
-/

namespace TaskNetwork.Baxter

variable {s held next : State} {goal : Goal} {b : String} {here target dest slot : Location}
  {hand : Hand} {start : OrderedMap String Location}

/-! ## What the strategy picks -/

theorem mem_misplaced : (b, here, target) ∈ misplaced s goal ↔
    s.pos.get? b = some here ∧ goal.get? b = some target ∧ here ≠ target := by
  simp only [misplaced, List.mem_filterMap]
  constructor
  · rintro ⟨⟨b', here'⟩, hmem, h⟩
    have hpos := OrderedMap.mem_entries_iff.mp hmem
    split at h
    · cases h
    · rename_i hgoal
      split_ifs at h with heq
      cases h
      exact ⟨hpos, hgoal, heq⟩
  · rintro ⟨hpos, hgoal, hne⟩
    exact ⟨(b, here), OrderedMap.mem_entries_iff.mpr hpos, by simp [hgoal, hne]⟩

/-- A block leaves a slot for the center, or enters the slot that it is to end in. -/
theorem leaves_or_enters (h : stepToward s here target = some (dest, hand)) :
    here = hand.slot ∧ dest = .center ∨
      here = .center ∧ dest = target ∧ dest = hand.slot ∧ s.vacated.contains dest = true := by
  unfold stepToward at h
  split at h
  · cases h
    exact Or.inl ⟨rfl, rfl⟩
  · cases h
    exact Or.inl ⟨rfl, rfl⟩
  · cases h
    exact Or.inl ⟨rfl, rfl⟩
  · cases h
    exact Or.inl ⟨rfl, rfl⟩
  · split_ifs at h with hvacated
    cases h
    exact Or.inr ⟨rfl, rfl, rfl, hvacated⟩
  · split_ifs at h with hvacated
    cases h
    exact Or.inr ⟨rfl, rfl, rfl, hvacated⟩
  · cases h

/-- Only a block at the center has to wait, for its slot to be vacated. -/
theorem waits_of_stepToward (h : stepToward s here target = none) (hne : here ≠ target)
    (hhere : ∀ hand, here ≠ .held hand) (htarget : ∀ hand, target ≠ .held hand) :
    here = .center ∧ target.isSlot = true ∧ s.vacated.contains target = false := by
  unfold stepToward at h
  split at h
  · cases h
  · cases h
  · cases h
  · cases h
  · split_ifs at h with hvacated
    exact ⟨rfl, rfl, Bool.eq_false_iff.mpr hvacated⟩
  · split_ifs at h with hvacated
    exact ⟨rfl, rfl, Bool.eq_false_iff.mpr hvacated⟩
  · cases here <;> cases target <;> simp_all

/-- The strategy picks a move of a misplaced block, or there is none. -/
theorem moveBlocks_cases (s : State) (goal : Goal) :
    (∃ b here target dest hand, (b, here, target) ∈ misplaced s goal ∧
      stepToward s here target = some (dest, hand) ∧
      moveBlocks s [.goal goal] =
        .ok [moveOneTask b dest hand, ⟨"move_blocks", [.goal goal]⟩]) ∨
    moveBlocks s [.goal goal] = .ok [] ∧ misplaced s goal = [] ∨
    (∃ e, moveBlocks s [.goal goal] = .error e) ∧ (∃ m, m ∈ misplaced s goal) ∧
      ∀ b here target, (b, here, target) ∈ misplaced s goal →
        stepToward s here target = none := by
  simp only [moveBlocks]
  split
  · rename_i move moves hmoves
    have hmem : move ∈ move :: moves := List.mem_cons_self
    rw [← hmoves, List.mem_filterMap] at hmem
    obtain ⟨⟨b, here, target⟩, hmem, hmap⟩ := hmem
    obtain ⟨⟨dest, hand⟩, hstep, rfl⟩ := Option.map_eq_some_iff.mp hmap
    exact Or.inl ⟨b, here, target, dest, hand, hmem, hstep, rfl⟩
  · rename_i hmoves
    cases hmis : misplaced s goal with
    | nil => exact Or.inr (Or.inl ⟨rfl, rfl⟩)
    | cons m ms =>
        refine Or.inr (Or.inr ⟨⟨_, rfl⟩, ⟨m, List.mem_cons_self⟩, fun b here target hmem => ?_⟩)
        rw [← hmis] at hmem
        simpa using List.filterMap_eq_nil_iff.mp hmoves _ hmem

/-! ## One round -/

/-- A block has been taken from one place to another; the hands are empty again. -/
structure Moves (s : State) (b : String) (here dest : Location) (next : State) : Prop where
  pos' (x : String) : next.pos.get? x = if x = b then some dest else s.pos.get? x
  vacated' (slot : Location) :
    next.vacated.contains slot =
      ((s.vacated.contains slot || here.isSlot && slot == here) && !(dest.isSlot && slot == dest))
  empty (hand : Hand) : next.holding hand = none

theorem moves_of_places (hempty : ∀ hand, s.holding hand = none)
    (htakes : PicksUp s b here hand held) (hplaces : Places held b dest hand next) :
    Moves s b here dest next where
  pos' x := by
    by_cases hx : x = b
    · simp [hplaces.pos', OrderedMap.get?_insert, hx]
    · simp [hplaces.pos', htakes.pos', OrderedMap.get?_insert, hx]
  vacated' slot := by rw [hplaces.vacated', htakes.vacated']
  empty h := by
    rw [hplaces.holding', htakes.holding', hempty]
    by_cases hh : h = hand
    · simp [hh]
    · simp [hh]

variable {d : Domain State Arg}

theorem nodup_moveNames : (Domain.moveNames operators).Nodup := by
  decide

theorem pickup_eq_ok (hpos : s.pos.get? b = some here)
    (hreach : here = .center ∨ here = hand.slot) (hempty : s.holding hand = none) :
    pickup s [.block b, .hand hand] = .ok (s.takeUp b here hand) := by
  have hnot : ¬ (here ≠ .center ∧ here ≠ hand.slot) := Decidable.or_iff_not_not_and_not.mp hreach
  simp [pickup, hpos, hnot, hempty]

theorem exists_place (hheld : s.pos.get? b = some (.held hand))
    (hfree : dest = .center ∨ dest = hand.slot ∧ s.vacated.contains dest = true) :
    ∃ next, place s [.block b, .location dest, .hand hand] = .ok next ∧
      Places s b dest hand next := by
  have hok : ∃ next, place s [.block b, .location dest, .hand hand] = .ok next := by
    rcases hfree with rfl | ⟨rfl, hvacated⟩
    · exact ⟨s.putDown b .center hand, by simp [place, hheld]⟩
    · refine ⟨State.putDown { s with vacated := s.vacated.erase hand.slot } b hand.slot hand, ?_⟩
      cases hand with
      | left =>
          have hvacated : s.vacated.contains .t1 = true := hvacated
          simp [place, hheld, Hand.slot, hvacated]
      | right =>
          have hvacated : s.vacated.contains .t2 = true := hvacated
          simp [place, hheld, Hand.slot, hvacated]
  obtain ⟨next, hplace⟩ := hok
  obtain ⟨_, _, _, hargs, hplaces⟩ := places_of_place hplace
  cases hargs
  exact ⟨next, hplace, hplaces⟩

/-- A move that the strategy picks can be made. -/
theorem exists_round (hd : domain = .ok d) (hempty : ∀ hand, s.holding hand = none)
    (hpos : s.pos.get? b = some here) (hstep : stepToward s here target = some (dest, hand))
    (hmove : moveBlocks s [.goal goal] =
      .ok [moveOneTask b dest hand, ⟨"move_blocks", [.goal goal]⟩]) :
    ∃ steps next, Round d ⟨"move_blocks", [.goal goal]⟩ s steps next ∧ steps.length = 2 ∧
      (∀ start, Reachable operators start s → Reachable operators start next) ∧
      Moves s b here dest next := by
  have hreach : here = .center ∨ here = hand.slot := by
    rcases leaves_or_enters hstep with ⟨h, -⟩ | ⟨h, -⟩
    · exact Or.inr h
    · exact Or.inl h
  have htakes := picksUp_takeUp hpos hreach (hempty hand)
  have hpickup := pickup_eq_ok hpos hreach (hempty hand)
  have hheld : (s.takeUp b here hand).pos.get? b = some (.held hand) := by
    simp [htakes.pos', OrderedMap.get?_insert]
  have hfree : dest = .center ∨
      dest = hand.slot ∧ (s.takeUp b here hand).vacated.contains dest = true := by
    rcases leaves_or_enters hstep with ⟨-, h⟩ | ⟨-, -, hslot, hvacated⟩
    · exact Or.inl h
    · exact Or.inr ⟨hslot, by rw [htakes.vacated', hvacated, Bool.true_or]⟩
  obtain ⟨next, hplace, hplaces⟩ := exists_place hheld hfree
  have hput : put (s.takeUp b here hand) [.block b, .location dest, .hand hand] =
      .ok [⟨"place", [.block b, .location dest, .hand hand]⟩] := by
    have hholding := htakes.holding' hand
    rw [if_pos rfl] at hholding
    cases hand with
    | left => exact if_pos (Or.inl hholding)
    | right => exact if_pos (Or.inr hholding)
  have hops : ⟨"pickup", pickup⟩ ∈ operators ∧ ⟨"place", place⟩ ∈ operators := by simp [operators]
  have hdoes : d.Does operators s ⟨"pickup", [.block b, .hand hand]⟩ (s.takeUp b here hand) :=
    .of_declareMoves hd nodup_moveNames hops.1 hpickup
  have hdoes' : d.Does operators (s.takeUp b here hand)
      ⟨"place", [.block b, .location dest, .hand hand]⟩ next :=
    .of_declareMoves hd nodup_moveNames hops.2 hplace
  have hone (rest : List (Task Arg)) : Derivation d ⟨s, moveOneTask b dest hand :: rest⟩
      [.method 0, .method 0, .operator, .method 0, .operator]
      [⟨"pickup", [.block b, .hand hand]⟩, ⟨"place", [.block b, .location dest, .hand hand]⟩]
      ⟨next, rest⟩ :=
    .of_declareMoves hd nodup_moveNames rfl rfl hdoes hput hdoes' rest
  exact ⟨_, next, Round.of_declareMoves hd nodup_moveNames hmove hone, rfl,
    fun start h => hdoes'.reachable (hdoes.reachable h), moves_of_places hempty htakes hplaces⟩

/-! ## Work left at a slot -/

/-- The rounds that a slot may still need. -/
def slotEffort (s : State) (goal : Goal) (slot : Location) : Nat :=
  if s.vacated.contains slot then 1
  else if (misplaced s goal).any fun m => m.2.1 == slot then 2
  else 0

theorem slotEffort_le_two (s : State) (goal : Goal) (slot : Location) :
    slotEffort s goal slot ≤ 2 := by
  unfold slotEffort
  split_ifs <;> omega

theorem any_misplaced_iff : ((misplaced s goal).any fun m => m.2.1 == slot) = true ↔
    ∃ b target, (b, slot, target) ∈ misplaced s goal := by
  simp [List.any_eq_true]

theorem slotEffort_le_of_moves (hm : Moves s b here dest next) (hhere : slot ≠ here)
    (hdest : slot ≠ dest) : slotEffort next goal slot ≤ slotEffort s goal slot := by
  have hvacated : next.vacated.contains slot = s.vacated.contains slot := by
    rw [hm.vacated', beq_eq_false_iff_ne.mpr hhere, beq_eq_false_iff_ne.mpr hdest]
    simp
  have hany (h : ((misplaced next goal).any fun m => m.2.1 == slot) = true) :
      ((misplaced s goal).any fun m => m.2.1 == slot) = true := by
    obtain ⟨x, target, hmem⟩ := any_misplaced_iff.mp h
    obtain ⟨hpos, hgoal, hne⟩ := mem_misplaced.mp hmem
    rw [hm.pos'] at hpos
    split_ifs at hpos
    · exact absurd (Option.some.inj hpos).symm hdest
    · exact any_misplaced_iff.mpr ⟨x, target, mem_misplaced.mpr ⟨hpos, hgoal, hne⟩⟩
  unfold slotEffort
  rw [hvacated]
  split_ifs with _ h h'
  · exact Nat.le_refl 1
  · exact Nat.le_refl 2
  · exact absurd (hany h) h'
  · exact Nat.zero_le 2
  · exact Nat.le_refl 0

theorem slotEffort_lt_of_moves (hs : s.IsConsistent start) (hm : Moves s b here dest next)
    (hmem : (b, here, target) ∈ misplaced s goal)
    (hstep : stepToward s here target = some (dest, hand)) :
    slotEffort next goal hand.slot < slotEffort s goal hand.slot := by
  obtain ⟨hpos, hgoal, hne⟩ := mem_misplaced.mp hmem
  rcases leaves_or_enters hstep with ⟨rfl, rfl⟩ | ⟨rfl, rfl, rfl, hvacated⟩
  · have hbefore : slotEffort s goal hand.slot = 2 := by
      rw [slotEffort, hs.not_vacated hand.isSlot_slot hpos, if_neg Bool.false_ne_true,
        if_pos (any_misplaced_iff.mpr ⟨b, target, hmem⟩)]
    have hafter : slotEffort next goal hand.slot = 1 := by
      rw [slotEffort, if_pos]
      have hcenter : Location.center.isSlot = false := rfl
      simp [hm.vacated', hand.isSlot_slot, hcenter]
    rw [hbefore, hafter]
    exact Nat.lt_succ_self 1
  · have hbefore : slotEffort s goal hand.slot = 1 := by rw [slotEffort, if_pos hvacated]
    have hnone : ¬ ((misplaced next goal).any fun m => m.2.1 == hand.slot) = true := by
      intro h
      obtain ⟨x, target, hmem'⟩ := any_misplaced_iff.mp h
      obtain ⟨hpos', hgoal', hne'⟩ := mem_misplaced.mp hmem'
      rw [hm.pos'] at hpos'
      split_ifs at hpos' with hx
      · subst hx
        rw [hgoal, Option.some.injEq] at hgoal'
        exact hne' hgoal'
      · rw [hs.not_vacated hand.isSlot_slot hpos'] at hvacated
        cases hvacated
    have hafter : slotEffort next goal hand.slot = 0 := by
      rw [slotEffort, if_neg, if_neg hnone]
      simp [hm.vacated', hand.isSlot_slot]
    rw [hbefore, hafter]
    exact Nat.lt_succ_self 0

end TaskNetwork.Baxter
