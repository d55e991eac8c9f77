import Mathlib.Algebra.Order.BigOperators.Group.List
import Mathlib.Algebra.Order.Ring.Nat
import TaskNetwork.Proofs.Blocks.Strategy

/-!
# Which blocks problems the planner solves

A goal that puts no two blocks on one block never leaves the strategy without a move while some
block is not done. Only such goals hold in consistent states, so the planner finds a plan for each
goal that some reachable state satisfies.
-/

namespace TaskNetwork.Blocks

variable {s : State} {goal : Goal} {b : String} {blocks : List String}

/-! ## The strategy does not get stuck -/

/-- The goal puts no two blocks on one block. -/
def IsUnshared (goal : Goal) : Prop :=
  ∀ ⦃b b' below : String⦄,
    goal.get? b = some (.on below) → goal.get? b' = some (.on below) → b = b'

section

variable (hs : s.IsConsistent blocks) (hempty : s.holding = none) (hgoal : IsGrounded goal blocks)
  (hidle : IsIdle s goal)

include hs hempty in
theorem State.IsConsistent.exists_above (hb : b ∈ blocks) (hclear : s.isClear b = false) :
    ∃ above, s.pos.get? above = some (.on b) := by
  by_contra hnone
  have hbare := (hs.clear hb).mpr ⟨by simp [hempty], fun above h => hnone ⟨above, h⟩⟩
  simp [hclear] at hbare

include hs hgoal hidle in
/-- If there is no move, a clear block that is not done waits on the table for its target. -/
theorem waits_of_isIdle (hb : b ∈ blocks) (hclear : s.isClear b = true)
    (hdone : isDone s goal b = false) :
    s.pos.get? b = some .table ∧ ∃ target, goal.get? b = some (.on target) ∧
      (isDone s goal target = true → s.isClear target = false) := by
  obtain ⟨hmove, hpark⟩ := hidle b (hs.known_clear ▸ hb)
  have hstatus := hasStatus_status s goal b
  unfold finalMove at hmove
  unfold canPark at hpark
  generalize status s goal b = status at hmove hpark hstatus
  cases hstatus with
  | done h => simp [h] at hdone
  | inaccessible _ h => simp [h] at hclear
  | moveToTable _ _ _ => cases hmove
  | moveToBlock _ _ hon _ _ =>
      rw [hon] at hmove
      cases hmove
  | @waiting place _ _ hplace hne hready =>
      refine ⟨by simpa using hpark, ?_⟩
      cases place with
      | table => exact absurd rfl hne
      | hand => exact absurd hplace (hgoal.grounded hb).ne_hand
      | on target => exact ⟨target, hplace, hready target rfl⟩

include hs hempty hgoal hidle in
/-- If there is no move, all blocks that are not done are clear: the topmost of those on a covered
one could be parked. -/
theorem isClear_of_isIdle (hb : b ∈ blocks) (hdone : isDone s goal b = false) :
    s.isClear b = true := by
  have hgrounded : Grounded s.pos b := by
    rcases hs.ends hb with hg | hheld
    · exact hg
    · rw [hempty] at hheld
      cases hheld
  refine hgrounded.induction_above
    (P := fun b => b ∈ blocks → isDone s goal b = false → s.isClear b = true) ?_ hb hdone
  intro x ih hx hdone
  by_contra hclear
  obtain ⟨above, habove⟩ := hs.exists_above hempty hx (Bool.eq_false_iff.mpr hclear)
  have hmem : above ∈ blocks := hs.mem_of_pos habove
  have hnot : isDone s goal above = false := by
    by_contra h
    rw [isDone_below (Bool.not_eq_false _ ▸ h) habove] at hdone
    cases hdone
  have hwaits := (waits_of_isIdle hs hgoal hidle hmem (ih above habove hmem hnot) hnot).1
  simp [habove] at hwaits

include hs hempty hgoal hidle in
/-- If there is no move, all blocks are done: the target of a lowest one that is not done would be
covered by another block that has to end there. -/
theorem isDone_of_isIdle (hshared : IsUnshared goal) (hb : b ∈ blocks) :
    isDone s goal b = true := by
  induction hgoal.grounded hb with
  | @table b htable =>
      by_contra hnot
      rw [Bool.not_eq_true] at hnot
      have hclear := isClear_of_isIdle hs hempty hgoal hidle hb hnot
      obtain ⟨-, target, hon, -⟩ := waits_of_isIdle hs hgoal hidle hb hclear hnot
      simp [htable] at hon
  | @on b below hon hbelow ih =>
      by_contra hnot
      rw [Bool.not_eq_true] at hnot
      have hclear := isClear_of_isIdle hs hempty hgoal hidle hb hnot
      obtain ⟨hpos, target, hon', hready⟩ := waits_of_isIdle hs hgoal hidle hb hclear hnot
      rw [hon, Option.some.injEq, Place.on.injEq] at hon'
      subst hon'
      have hmem : below ∈ blocks := hgoal.known ▸ OrderedMap.mem_keys_iff.mpr hbelow.contains
      obtain ⟨above, habove⟩ := hs.exists_above hempty hmem (hready (ih hmem))
      have hmem' : above ∈ blocks := hs.mem_of_pos habove
      cases hdone : isDone s goal above with
      | true =>
          obtain ⟨place, hplace⟩ :=
            Option.isSome_iff_exists.mp (OrderedMap.mem_keys_iff.mp (hgoal.known ▸ hmem'))
          have hat := eq_of_not_contradicts (not_contradicts_of_isDone hdone) hplace
          rw [habove, Option.some.injEq] at hat
          obtain rfl := hshared hon (hat ▸ hplace)
          simp [hpos] at habove
      | false =>
          have hclear' := isClear_of_isIdle hs hempty hgoal hidle hmem' hdone
          have hwaits := (waits_of_isIdle hs hgoal hidle hmem' hclear' hdone).1
          simp [habove] at hwaits

end

/-! ## Runs -/

/-- The moves that all blocks together may still need. -/
def effortSum (s : State) (goal : Goal) : Nat := (s.pos.keys.map (effort s goal)).sum

theorem effortSum_le (s : State) (goal : Goal) : effortSum s goal ≤ 2 * s.pos.size := by
  have hle := List.sum_le_card_nsmul (s.pos.keys.map (effort s goal)) 2 fun n hn => by
    obtain ⟨b, -, rfl⟩ := List.mem_map.mp hn
    exact effort_le_two s goal b
  simpa [OrderedMap.keys, OrderedMap.size, Nat.mul_comm, effortSum] using hle

namespace Problem

variable {start goal : List Fact} {p : Problem} {d : Domain State Arg} {done : List (Task Arg)}

/-- A run of the planner between two rounds: no block has been picked up so often that it could
come to be picked up more than twice. -/
structure IsUnderway (p : Problem) (done : List (Task Arg)) (s : State) : Prop where
  reaches : p.Reaches s
  empty : s.holding = none
  picks (b : String) : pickCount b done + effort s p.goal b ≤ 2

theorem isUnderway_start (p : Problem) : p.IsUnderway [] p.startState where
  reaches := .start
  empty := rfl
  picks b := by
    rw [pickCount, List.countP_nil, Nat.zero_add]
    exact effort_le_two _ _ b

theorem IsUnderway.progress (hp : Problem.ofFacts start goal = .ok p) (hd : domain = .ok d)
    (h : p.IsUnderway done s) :
    Method.IsOver ⟨"move_by_status", moveBlocks⟩ [.goal p.goal] s ∨
      ∃ steps next, Round d ⟨"move_blocks", [.goal p.goal]⟩ s steps next ∧ steps.length = 2 ∧
        p.IsUnderway (done ++ steps) next ∧ effortSum next p.goal < effortSum s p.goal := by
  have hs := h.reaches.isConsistent hp
  rcases moveBlocks_cases s p.goal with
    ⟨b, dest, place, hclear, hb, hadv, hmove⟩ | ⟨-, ⟨hok, -⟩ | ⟨herr, -⟩⟩
  · obtain ⟨steps, next, hround, hlen, hreach, hempty, hpos, hsame, hpick⟩ :=
      exists_round hd hs h.empty hclear hb hadv hmove
    have hnext : p.Reaches next := hreach _ h.reaches
    have hlt := effort_lt_of_advances hadv hb hpos hsame
    have hle (x : String) (hx : x ≠ b) := effort_le_of_move hsame hb hx
    refine Or.inr ⟨steps, next, hround, hlen, ⟨hnext, hempty, fun x => ?_⟩, ?_⟩
    · have hx := h.picks x
      rw [pickCount_append, hpick]
      by_cases hxb : x = b
      · subst hxb
        rw [if_pos rfl]
        omega
      · have hle' := hle x hxb
        rw [if_neg hxb]
        omega
    · have hkeys : next.pos.keys = s.pos.keys :=
        (hnext.isConsistent hp).known.trans hs.known.symm
      have hmem : b ∈ s.pos.keys := by
        rw [hs.known, ← hs.known_clear]
        exact OrderedMap.mem_keys_iff.mpr (contains_of_isClear hclear)
      rw [effortSum, hkeys]
      refine List.sum_lt_sum _ _ (fun x _ => ?_) ⟨b, hmem, hlt⟩
      by_cases hxb : x = b
      · subst hxb
        exact Nat.le_of_lt hlt
      · exact hle x hxb
  · exact Or.inl (Or.inl hok)
  · exact Or.inl (Or.inr ⟨_, herr⟩)

theorem goalSatisfied_iff {s : State} : p.goalSatisfied s = true ↔ s.holding = none ∧
    ∀ b place, p.goal.get? b = some place → s.pos.get? b = some place := by
  rw [goalSatisfied, Bool.and_eq_true, Option.isNone_iff_eq_none, List.all_eq_true]
  refine and_congr_right fun _ => ⟨fun h b place hb => ?_, fun h e he => ?_⟩
  · simpa using h _ (OrderedMap.mem_entries_iff.mpr hb)
  · simpa using h e.1 e.2 (OrderedMap.mem_entries_iff.mp he)

theorem isUnshared_of_goalSatisfied (hs : s.IsConsistent blocks) (h : p.goalSatisfied s = true) :
    IsUnshared p.goal := fun _ _ _ hb hb' =>
  hs.unshared ((goalSatisfied_iff.mp h).2 _ _ hb) ((goalSatisfied_iff.mp h).2 _ _ hb')

theorem IsUnderway.goalSatisfied_of_end (hp : Problem.ofFacts start goal = .ok p)
    (h : p.IsUnderway done s) (hend : moveBlocks s [.goal p.goal] = .ok []) :
    p.goalSatisfied s = true := by
  have hs := h.reaches.isConsistent hp
  have hknown := (isTowers_and_isGrounded_of_ofFacts hp).2.known
  refine goalSatisfied_iff.mpr ⟨h.empty, fun b place hb => ?_⟩
  rcases moveBlocks_cases s p.goal with ⟨_, _, _, _, _, _, hmove⟩ | ⟨-, ⟨-, hall⟩ | ⟨herr, -⟩⟩
  · cases hend.symm.trans hmove
  · have hmem : b ∈ p.goal.keys :=
      OrderedMap.mem_keys_iff.mpr (Option.isSome_iff_exists.mpr ⟨_, hb⟩)
    rw [hknown, ← hs.known_clear] at hmem
    exact eq_of_not_contradicts (not_contradicts_of_isDone (hall b hmem)) hb
  · cases hend.symm.trans herr

theorem IsUnderway.exists_goalSatisfied (hp : Problem.ofFacts start goal = .ok p)
    (h : p.IsUnderway done s) (hend : moveBlocks s [.goal p.goal] = .ok []) :
    ∃ s, p.Reaches s ∧ p.goalSatisfied s = true :=
  ⟨s, h.reaches, h.goalSatisfied_of_end hp hend⟩

theorem IsUnderway.not_goalSatisfied (hp : Problem.ofFacts start goal = .ok p)
    (h : p.IsUnderway done s) {e : MethodFailure} (herr : moveBlocks s [.goal p.goal] = .error e) :
    ¬ ∃ s, p.Reaches s ∧ p.goalSatisfied s = true := by
  rintro ⟨s', hreach, hsat⟩
  have hs := h.reaches.isConsistent hp
  have hgoal := (isTowers_and_isGrounded_of_ofFacts hp).2
  have hshared := isUnshared_of_goalSatisfied (hreach.isConsistent hp) hsat
  rcases moveBlocks_cases s p.goal with
    ⟨_, _, _, _, _, _, hmove⟩ | ⟨hidle, ⟨hok, -⟩ | ⟨-, b, hb, hnot⟩⟩
  · cases herr.symm.trans hmove
  · cases herr.symm.trans hok
  · have hdone := isDone_of_isIdle hs h.empty hgoal hidle hshared (hs.known_clear ▸ hb)
    rw [hnot] at hdone
    cases hdone

/-- The planner finds a plan exactly if some reachable state satisfies the goal. It does so without
going back, and picks no block up more than twice; when it fails it is not for want of depth. -/
theorem runTraced_solves {policy : Policy} (hp : Problem.ofFacts start goal = .ok p)
    (hlow : 12 * p.start.size + 1 ≤ policy.maxDepth.toNat)
    (hhigh : policy.maxDepth.toNat ≤ 1024) :
    ∃ d planner outcome, p.world.domain = .ok d ∧ Planner.create d policy = .ok planner ∧
      planner.runTraced p.world.start p.world.initialTasks = outcome ∧
      ((∃ plan, outcome.result = .ok plan) ↔
        ∃ s, p.Reaches s ∧ p.world.goalSatisfied s = true) ∧
      (∀ plan, outcome.result = .ok plan →
        plan.steps.length ≤ 4 * p.start.size ∧ (∀ b, pickCount b plan.steps ≤ 2) ∧
          outcome.trace.metadata.backtracks = 0 ∧
          ∀ e ∈ outcome.trace.events, e.decision ≠ .backtracked) ∧
      ∀ failure, outcome.result = .error failure → failure.depthBoundReached = false := by
  obtain ⟨d, hd⟩ : ∃ d, domain = .ok d := ⟨_, rfl⟩
  have hcreate : Planner.create d policy = .ok ⟨d, policy⟩ :=
    Planner.create_of_validate (Policy.validate_eq_ok.mpr ⟨by omega, hhigh⟩)
  have heffort : effortSum p.startState p.goal ≤ 2 * p.start.size :=
    effortSum_le p.startState p.goal
  obtain ⟨outcome, hrun, -, hiff, hfound, hfailed⟩ :=
    Planner.runTraced_of_rounds (p := policy) hd nodup_moveNames
      (fun _ _ h => h.progress hp hd) p.isUnderway_start (by omega)
      (fun _ _ h => h.exists_goalSatisfied hp) (fun _ _ _ h => h.not_goalSatisfied hp)
  refine ⟨d, _, outcome, hd, hcreate, hrun, hiff, fun plan hplan => ?_, hfailed⟩
  obtain ⟨⟨final, hunder⟩, hlen, hback, hevents⟩ := hfound plan hplan
  refine ⟨by omega, fun b => ?_, hback, hevents⟩
  exact Nat.le_of_add_right_le (hunder.picks b)

/-- Three blocks within the default bound: `c` has to leave `a` before `a` can go on `b`, and `b`
has to be on `c` by then. -/
theorem runTraced_solves_three_blocks :
    ∃ p d planner outcome,
      Problem.ofFacts [⟨"a", "table"⟩, ⟨"b", "table"⟩, ⟨"c", "a"⟩]
        [⟨"a", "b"⟩, ⟨"b", "c"⟩, ⟨"c", "table"⟩] = .ok p ∧
      p.world.domain = .ok d ∧ Planner.create d {} = .ok planner ∧
      planner.runTraced p.world.start p.world.initialTasks = outcome ∧
      outcome.result = .ok
        ⟨[⟨"unstack", [.block "c", .block "a"]⟩, ⟨"putdown", [.block "c"]⟩,
          ⟨"pickup", [.block "b"]⟩, ⟨"stack", [.block "b", .block "c"]⟩,
          ⟨"pickup", [.block "a"]⟩, ⟨"stack", [.block "a", .block "b"]⟩]⟩ ∧
      ((∃ plan, outcome.result = .ok plan) ↔
        ∃ s, p.Reaches s ∧ p.world.goalSatisfied s = true) ∧
      (∀ plan, outcome.result = .ok plan →
        plan.steps.length ≤ 4 * p.start.size ∧ (∀ b, pickCount b plan.steps ≤ 2) ∧
          outcome.trace.metadata.backtracks = 0 ∧
          ∀ e ∈ outcome.trace.events, e.decision ≠ .backtracked) ∧
      ∀ failure, outcome.result = .error failure → failure.depthBoundReached = false := by
  obtain ⟨p, hp, hsize⟩ : ∃ p, Problem.ofFacts [⟨"a", "table"⟩, ⟨"b", "table"⟩, ⟨"c", "a"⟩]
      [⟨"a", "b"⟩, ⟨"b", "c"⟩, ⟨"c", "table"⟩] = .ok p ∧ p.start.size = 3 := by
    refine ⟨_, rfl, ?_⟩
    rfl
  have hlow : 12 * p.start.size + 1 ≤ ({} : Policy).maxDepth.toNat := by
    rw [hsize]
    decide
  obtain ⟨d, planner, outcome, hd, hcreate, hrun, hsolves⟩ := runTraced_solves hp hlow (by decide)
  refine ⟨p, d, planner, outcome, hp, hd, hcreate, hrun, ?_, hsolves⟩
  cases hp
  cases hd
  cases hcreate
  rw [← hrun]
  rfl

end Problem

end TaskNetwork.Blocks
