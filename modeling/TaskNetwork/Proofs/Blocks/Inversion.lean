import TaskNetwork.Blocks.Problem
import TaskNetwork.Proofs.Blocks.Acceptance
import TaskNetwork.Proofs.Blocks.Progress
import TaskNetwork.Proofs.Json.Scanning

/-!
# Turning a tower over

While a tower is turned over, the blocks that were moved stand on one another in their new order and
the others still in the old one. Only the uppermost of the others can go to its final place,
whatever the order of the names is. So each round moves the next block, and the run needs six levels
for each block and one for the end.
-/

namespace TaskNetwork.Blocks

variable {height moved i j : Nat} {b : String}

/-! ## Numbered blocks -/

theorem numberedBlock_inj : numberedBlock i = numberedBlock j ↔ i = j := by
  refine ⟨fun h => ?_, fun h => h ▸ rfl⟩
  exact Json.decimal_inj ((String.append_right_inj "b").mp h)

theorem numberedBlock_ne_tableName (i : Nat) : numberedBlock i ≠ tableName := by
  intro h
  have hchars := congrArg String.toList h
  rw [numberedBlock, String.toList_append] at hchars
  exact absurd (List.head_eq_of_cons_eq hchars) (by decide)

theorem supportPlace_numberedBlock (i : Nat) :
    supportPlace (numberedBlock i) = .on (numberedBlock i) :=
  if_neg (numberedBlock_ne_tableName i)

/-- The positions are those of numbered blocks, each on its support. -/
structure IsNumbered (height : Nat) (support : Nat → String) (pos : OrderedMap String Place) :
    Prop where
  place {i : Nat} : i < height → pos.get? (numberedBlock i) = some (supportPlace (support i))
  exists_number {b : String} : pos.contains b = true → ∃ i < height, b = numberedBlock i

/-- Facts about numbered blocks are accepted if they put each on the table or on another one of
them, and no two on the same. -/
theorem exists_numbered_positions {isKnown : String → Bool} {support : Nat → String}
    (hknown : ∀ i < height, isKnown (numberedBlock i) = true)
    (hsupport : ∀ i < height,
      support i = tableName ∨ ∃ j < height, j ≠ i ∧ support i = numberedBlock j)
    (hinj : ∀ i < height, ∀ j < height, support i = support j → support i ≠ tableName → i = j) :
    ∃ pos, positions isKnown ((List.range height).map fun i => ⟨numberedBlock i, support i⟩) =
      .ok pos ∧ IsNumbered height support pos := by
  have hmem {f : Fact} : (f ∈ (List.range height).map fun i => ⟨numberedBlock i, support i⟩) ↔
      ∃ i < height, ⟨numberedBlock i, support i⟩ = f := by simp
  have hplace (i : Nat) (hi : i < height) :
      Fact.place isKnown ⟨numberedBlock i, support i⟩ = .ok (supportPlace (support i)) := by
    refine Fact.place_eq_ok.mpr ⟨hknown i hi, ?_⟩
    rcases hsupport i hi with htable | ⟨j, hj, hne, hon⟩
    · exact Or.inl ⟨htable, if_pos htable⟩
    · have hne' : support i ≠ numberedBlock i := fun heq =>
        hne (numberedBlock_inj.mp (hon.symm.trans heq))
      have htable : support i ≠ tableName := hon ▸ numberedBlock_ne_tableName j
      exact Or.inr ⟨htable, hne', hon ▸ hknown j hj, if_neg htable⟩
  have hnodup : (((List.range height).map fun i => (⟨numberedBlock i, support i⟩ : Fact)).map
      Fact.block).Nodup := by
    rw [List.map_map]
    exact List.nodup_range.map fun i j h => numberedBlock_inj.mp h
  obtain ⟨pos, hpos⟩ := Agree.exists_positions ⟨
    fun hf => by
      obtain ⟨i, hi, rfl⟩ := hmem.mp hf
      exact ⟨_, hplace i hi⟩,
    hnodup,
    fun hf hg heq hne => by
      obtain ⟨i, hi, rfl⟩ := hmem.mp hf
      obtain ⟨j, hj, rfl⟩ := hmem.mp hg
      rw [hinj i hi j hj heq hne]⟩
  refine ⟨pos, hpos, fun {i} hi => ?_, fun {b} hb => ?_⟩
  · exact (get?_of_positions hpos).mpr ⟨_, hmem.mpr ⟨i, hi, rfl⟩, rfl, hplace i hi⟩
  · obtain ⟨place, hb⟩ := Option.isSome_iff_exists.mp hb
    obtain ⟨f, hf, rfl, -⟩ := (get?_of_positions hpos).mp hb
    obtain ⟨i, hi, rfl⟩ := hmem.mp hf
    exact ⟨i, hi, rfl⟩

/-! ## The problem -/

/-- What each block of the tower stands on. -/
def towerSupport (height i : Nat) : String :=
  if i + 1 = height then tableName else numberedBlock (i + 1)

/-- What each block of the tower stands on when it is turned over. -/
def invertedSupport (i : Nat) : String := if i = 0 then tableName else numberedBlock (i - 1)

theorem supportPlace_towerSupport (hi : i + 1 < height) :
    supportPlace (towerSupport height i) = .on (numberedBlock (i + 1)) := by
  rw [towerSupport, if_neg (Nat.ne_of_lt hi), supportPlace_numberedBlock]

theorem supportPlace_towerSupport_last (hi : i + 1 = height) :
    supportPlace (towerSupport height i) = .table := by
  rw [towerSupport, if_pos hi, supportPlace_eq_table]

theorem supportPlace_invertedSupport_zero : supportPlace (invertedSupport 0) = .table :=
  supportPlace_eq_table.mpr rfl

theorem supportPlace_invertedSupport_succ :
    supportPlace (invertedSupport (i + 1)) = .on (numberedBlock i) :=
  supportPlace_numberedBlock i

theorem supportPlace_ne (hheight : 2 ≤ height) (hi : i < height) :
    supportPlace (towerSupport height i) ≠ supportPlace (invertedSupport i) := by
  intro heq
  rcases Nat.lt_or_eq_of_le (Nat.succ_le_of_lt hi) with hlt | hlast
  · rw [supportPlace_towerSupport hlt] at heq
    cases i with
    | zero => cases heq
    | succ i =>
        rw [supportPlace_invertedSupport_succ, Place.on.injEq, numberedBlock_inj] at heq
        omega
  · rw [supportPlace_towerSupport_last hlast] at heq
    cases i with
    | zero => omega
    | succ i => cases heq

theorem IsNumbered.contains {support : Nat → String} {pos : OrderedMap String Place}
    (h : IsNumbered height support pos) (hi : i < height) :
    pos.contains (numberedBlock i) = true :=
  Option.isSome_iff_exists.mpr ⟨_, h.place hi⟩

theorem IsNumbered.not_contradicts {support : Nat → String} {goal : Goal}
    (h : IsNumbered height support goal) (hi : i < height) :
    contradicts goal (numberedBlock i) (some (supportPlace (support i))) = false := by
  rw [contradicts, h.place hi]
  exact decide_eq_false (not_not_intro rfl)

theorem IsNumbered.grounded_tower {pos : OrderedMap String Place}
    (h : IsNumbered height (towerSupport height) pos) (hi : i < height) :
    Grounded pos (numberedBlock i) := by
  -- By induction on the number of blocks below.
  induction hn : height - 1 - i generalizing i with
  | zero =>
      refine .table ((h.place hi).trans ?_)
      rw [supportPlace_towerSupport_last (by omega)]
  | succ n ih =>
      refine .on ((h.place hi).trans ?_) (ih (i := i + 1) (by omega) (by omega))
      rw [supportPlace_towerSupport (by omega)]

theorem IsNumbered.grounded_inverted {pos : OrderedMap String Place}
    (h : IsNumbered height invertedSupport pos) (hi : i < height) :
    Grounded pos (numberedBlock i) := by
  induction i with
  | zero => exact .table (h.place hi)
  | succ i ih =>
      refine .on ((h.place hi).trans ?_) (ih (Nat.lt_of_succ_lt hi))
      rw [supportPlace_invertedSupport_succ]

theorem exists_towerPositions {isKnown : String → Bool}
    (hknown : ∀ i < height, isKnown (numberedBlock i) = true) :
    ∃ pos, positions isKnown (towerFacts height) = .ok pos ∧
      IsNumbered height (towerSupport height) pos := by
  refine exists_numbered_positions hknown (fun i hi => ?_) fun i hi j hj heq hne => ?_
  · by_cases hlast : i + 1 = height
    · exact Or.inl (if_pos hlast)
    · exact Or.inr ⟨i + 1, by omega, by omega, if_neg hlast⟩
  · split_ifs at heq hne with hi' hj'
    · exact absurd rfl hne
    · exact absurd rfl hne
    · exact absurd heq (numberedBlock_ne_tableName _)
    · exact Nat.succ.inj (numberedBlock_inj.mp heq)

theorem exists_invertedPositions {isKnown : String → Bool}
    (hknown : ∀ i < height, isKnown (numberedBlock i) = true) :
    ∃ pos, positions isKnown (invertedFacts height) = .ok pos ∧
      IsNumbered height invertedSupport pos := by
  refine exists_numbered_positions hknown (fun i hi => ?_) fun i hi j hj heq hne => ?_
  · by_cases hfirst : i = 0
    · exact Or.inl (if_pos hfirst)
    · exact Or.inr ⟨i - 1, by omega, by omega, if_neg hfirst⟩
  · split_ifs at heq hne with hi' hj'
    · exact absurd rfl hne
    · exact absurd rfl hne
    · exact absurd heq (numberedBlock_ne_tableName _)
    · have hpred := numberedBlock_inj.mp heq
      omega

/-- The tower and its inversion are an accepted problem. -/
theorem exists_invertedTower (hheight : height ≠ 0) :
    ∃ p start goal, invertedTower height = .ok p ∧ Problem.ofFacts start goal = .ok p ∧
      IsNumbered height (towerSupport height) p.start ∧
      IsNumbered height invertedSupport p.goal := by
  have hlisted (i : Nat) (hi : i < height) :
      ((towerFacts height).any fun f => f.block == numberedBlock i) = true := by
    refine List.any_eq_true.mpr ⟨_, List.mem_map_of_mem (List.mem_range.mpr hi), ?_⟩
    exact beq_self_eq_true _
  obtain ⟨startPos, hstart, htower⟩ : ∃ pos,
      positions (fun name => (towerFacts height).any fun f => f.block == name)
        (towerFacts height) = .ok pos ∧ IsNumbered height (towerSupport height) pos :=
    exists_towerPositions hlisted
  obtain ⟨goalPos, hgoal, hinverted⟩ := exists_invertedPositions fun _ hi => htower.contains hi
  have hmerged : IsNumbered height invertedSupport (startPos.insertAll goalPos.toList) := by
    refine ⟨fun hi => ?_, fun {b} hb => ?_⟩
    · rw [OrderedMap.get?_insertAll_toList, hinverted.place hi, Option.some_or]
    · obtain ⟨place, hb⟩ := Option.isSome_iff_exists.mp hb
      rw [OrderedMap.get?_insertAll_toList] at hb
      rcases Option.or_eq_some_iff.mp hb with hb | ⟨-, hb⟩
      · exact hinverted.exists_number (Option.isSome_iff_exists.mpr ⟨place, hb⟩)
      · exact htower.exists_number (Option.isSome_iff_exists.mpr ⟨place, hb⟩)
  have hp := Problem.ofFacts_eq_ok hstart hgoal
    (fun b hb => by
      obtain ⟨i, hi, rfl⟩ := htower.exists_number hb
      exact htower.grounded_tower hi)
    (fun b hb => by
      obtain ⟨i, hi, rfl⟩ := hmerged.exists_number hb
      exact hmerged.grounded_inverted hi)
  exact ⟨_, _, _, by rw [invertedTower, if_neg hheight, hp]; rfl, hp, htower, hmerged⟩

/-! ## The state after some rounds -/

/-- What each block stands on when so many of them have been moved. -/
def supportAfter (height moved i : Nat) : String :=
  if i < moved then invertedSupport i else towerSupport height i

theorem supportAfter_eq_numberedBlock : supportAfter height moved i = numberedBlock j ↔
    i < moved ∧ i = j + 1 ∨ moved ≤ i ∧ i + 1 = j ∧ i + 1 ≠ height := by
  have hne := Ne.symm (numberedBlock_ne_tableName j)
  unfold supportAfter invertedSupport towerSupport
  split_ifs with hmoved hfirst hlast
  · simp only [hne, false_iff]
    omega
  · rw [numberedBlock_inj]
    omega
  · simp only [hne, false_iff]
    omega
  · rw [numberedBlock_inj]
    omega

/-- The tower is being turned over, and so many blocks have been moved. -/
structure IsTurning (height moved : Nat) (blocks : List String) (s : State) : Prop where
  consistent : s.IsConsistent blocks
  empty : s.holding = none
  numbered : IsNumbered height (supportAfter height moved) s.pos

namespace IsTurning

variable {s : State} {blocks : List String} {goal : Goal} (h : IsTurning height moved blocks s)
  (hgoal : IsNumbered height invertedSupport goal) (hheight : 2 ≤ height)

include h

theorem mem_blocks (hi : i < height) : numberedBlock i ∈ blocks :=
  h.consistent.mem_of_pos (h.numbered.place hi)

/-- A block is clear if no block, in the order of their numbers, stands on it. -/
theorem isClear_iff (hi : i < height) : s.isClear (numberedBlock i) = true ↔
    ∀ j < height, supportAfter height moved j ≠ numberedBlock i := by
  rw [h.consistent.clear (h.mem_blocks hi), and_iff_right (by simp [h.empty])]
  constructor
  · intro hbare j hj heq
    refine hbare (numberedBlock j) ?_
    rw [h.numbered.place hj, heq, supportPlace_numberedBlock]
  · intro hbare above habove
    obtain ⟨j, hj, rfl⟩ := h.numbered.exists_number (Option.isSome_iff_exists.mpr ⟨_, habove⟩)
    rw [h.numbered.place hj, Option.some.injEq] at habove
    exact hbare j hj (supportPlace_eq_on.mp habove).1

theorem isClear_next (hmoved : moved < height) : s.isClear (numberedBlock moved) = true := by
  rw [h.isClear_iff hmoved]
  intro j hj heq
  rcases supportAfter_eq_numberedBlock.mp heq with hcase | hcase
  · omega
  · omega

theorem isClear_last (hmoved : moved < height) :
    s.isClear (numberedBlock (moved - 1)) = true := by
  rw [h.isClear_iff (by omega)]
  intro j hj heq
  rcases supportAfter_eq_numberedBlock.mp heq with hcase | hcase
  · omega
  · omega

theorem not_isClear (hmoved : moved < i) (hi : i < height) :
    s.isClear (numberedBlock i) = false := by
  rw [← Bool.not_eq_true, h.isClear_iff hi]
  intro hbare
  refine hbare (i - 1) (by omega) (supportAfter_eq_numberedBlock.mpr (Or.inr ?_))
  omega

theorem get?_pos_of_lt (hi : i < moved) (hmoved : moved ≤ height) :
    s.pos.get? (numberedBlock i) = some (supportPlace (invertedSupport i)) := by
  rw [h.numbered.place (Nat.lt_of_lt_of_le hi hmoved), supportAfter, if_pos hi]

theorem get?_pos_of_le (hmoved : moved ≤ i) (hi : i < height) :
    s.pos.get? (numberedBlock i) = some (supportPlace (towerSupport height i)) := by
  rw [h.numbered.place hi, supportAfter, if_neg (Nat.not_lt.mpr hmoved)]

include hgoal

theorem isDone_of_lt (hmoved : moved ≤ height) (hi : i < moved) :
    isDone s goal (numberedBlock i) = true := by
  induction i with
  | zero =>
      have hplace := h.get?_pos_of_lt hi hmoved
      exact isDone_of_table hplace (hgoal.not_contradicts (Nat.lt_of_lt_of_le hi hmoved))
  | succ i ih =>
      have hplace := h.get?_pos_of_lt hi hmoved
      have hstays := hgoal.not_contradicts (Nat.lt_of_lt_of_le hi hmoved)
      rw [supportPlace_invertedSupport_succ] at hplace hstays
      exact isDone_of_on hplace hstays (ih (Nat.lt_of_succ_lt hi))

include hheight

/-- A block that was not moved does not stand where it has to end. -/
theorem not_isDone (hi : moved ≤ i) (hlt : i < height) :
    isDone s goal (numberedBlock i) = false := by
  rw [← Bool.not_eq_true]
  intro hdone
  have hat := eq_of_not_contradicts (not_contradicts_of_isDone hdone) (hgoal.place hlt)
  rw [h.get?_pos_of_le hi hlt] at hat
  exact supportPlace_ne hheight hlt (Option.some.inj hat)

/-- The next block can go to its final place: the table, or the block that was moved before it. -/
theorem exists_finalMove_next (hmoved : moved < height) :
    ∃ dest, finalMove s goal (numberedBlock moved) = some (numberedBlock moved, dest) ∧
      Advances s goal (numberedBlock moved) dest (supportPlace (invertedSupport moved)) := by
  have hdone := h.not_isDone hgoal hheight (Nat.le_refl moved) hmoved
  have hclear := h.isClear_next hmoved
  have hwanted := hgoal.place hmoved
  cases moved with
  | zero =>
      have hstays := hgoal.not_contradicts hmoved
      rw [supportPlace_invertedSupport_zero] at hwanted hstays ⊢
      refine ⟨.table, ?_, .settle hstays⟩
      simp [finalMove, status, hdone, hclear, hwanted]
  | succ moved =>
      have hdone' := h.isDone_of_lt hgoal (Nat.le_of_lt hmoved) (Nat.lt_succ_self moved)
      have hclear' : s.isClear (numberedBlock moved) = true := h.isClear_last hmoved
      rw [supportPlace_invertedSupport_succ] at hwanted ⊢
      refine ⟨.block (numberedBlock moved), ?_, .stack hwanted hdone' hclear'⟩
      simp [finalMove, status, hdone, hclear, hwanted, hdone', hclear']

/-- No other block can go to its final place: the blocks moved before are done, and the ones below
are covered. -/
theorem finalMove_eq_none (hmoved : moved < height) (hb : s.pos.contains b = true)
    (hne : b ≠ numberedBlock moved) : finalMove s goal b = none := by
  obtain ⟨i, hi, rfl⟩ := h.numbered.exists_number hb
  rcases Nat.lt_trichotomy i moved with hlt | rfl | hgt
  · have hdone := h.isDone_of_lt hgoal (Nat.le_of_lt hmoved) hlt
    simp [finalMove, status, hdone]
  · exact absurd rfl hne
  · have hdone := h.not_isDone hgoal hheight (Nat.le_of_lt hgt) hi
    simp [finalMove, status, hdone, h.not_isClear hgt hi]

end IsTurning

/-! ## Runs -/

/-- The two steps that move a block. -/
def turnSteps (height i : Nat) : List (Task Arg) :=
  [takeUpTask (numberedBlock i) (supportPlace (towerSupport height i)),
    putDownTask (numberedBlock i) (supportPlace (invertedSupport i))]

theorem flatMap_turnSteps (hheight : 2 ≤ height) :
    (List.range height).flatMap (turnSteps height) = inversionSteps height := by
  obtain ⟨n, rfl⟩ := Nat.exists_eq_add_of_le' hheight
  have hrange : List.range (n + 2) = [0] ++ List.range' 1 n ++ [n + 1] := by
    rw [List.range_eq_range', List.range'_succ, List.range'_concat]
    simp [Nat.add_comm]
  have hmiddle : (List.range' 1 n).flatMap (turnSteps (n + 2)) = (List.range' 1 n).flatMap fun i =>
      [⟨"unstack", [.block (numberedBlock i), .block (numberedBlock (i + 1))]⟩,
        ⟨"stack", [.block (numberedBlock i), .block (numberedBlock (i - 1))]⟩] := by
    refine List.flatMap_congr fun i hi => ?_
    obtain ⟨hpos, hlt⟩ := List.mem_range'_1.mp hi
    obtain ⟨i, rfl⟩ := Nat.exists_eq_add_of_le' hpos
    rw [turnSteps, supportPlace_towerSupport (by omega), supportPlace_invertedSupport_succ]
    rfl
  have hfirst : turnSteps (n + 2) 0 =
      [⟨"unstack", [.block (numberedBlock 0), .block (numberedBlock 1)]⟩,
        ⟨"putdown", [.block (numberedBlock 0)]⟩] := by
    rw [turnSteps, supportPlace_towerSupport (by omega), supportPlace_invertedSupport_zero]
    rfl
  have hlast : turnSteps (n + 2) (n + 1) = [⟨"pickup", [.block (numberedBlock (n + 1))]⟩,
      ⟨"stack", [.block (numberedBlock (n + 1)), .block (numberedBlock n)]⟩] := by
    rw [turnSteps, supportPlace_towerSupport_last rfl, supportPlace_invertedSupport_succ]
    rfl
  rw [hrange, List.flatMap_append, List.flatMap_append, hmiddle, List.flatMap_singleton,
    List.flatMap_singleton, hfirst, hlast]
  rfl

section

variable {s : State} {blocks : List String} {goal : Goal} {d : Domain State Arg}

theorem IsTurning.moveBlocks_eq_nil (h : IsTurning height height blocks s)
    (hgoal : IsNumbered height invertedSupport goal) :
    moveBlocks s [.goal goal] = .ok [] := by
  have hall (b : String) (hb : b ∈ s.clear.keys) : isDone s goal b = true := by
    rw [h.consistent.known_clear, ← h.consistent.known] at hb
    obtain ⟨i, hi, rfl⟩ := h.numbered.exists_number (OrderedMap.mem_keys_iff.mp hb)
    exact h.isDone_of_lt hgoal (Nat.le_refl height) hi
  rcases moveBlocks_cases s goal with
    ⟨b, _, _, hclear, hnot, -, -⟩ | ⟨-, ⟨hok, -⟩ | ⟨-, b, hb, hnot⟩⟩
  · have hb := OrderedMap.mem_keys_iff.mpr (contains_of_isClear hclear)
    exact absurd (hall b hb) (Bool.eq_false_iff.mp hnot)
  · exact hok
  · exact absurd (hall b hb) (Bool.eq_false_iff.mp hnot)

theorem IsTurning.exists_round (h : IsTurning height moved blocks s)
    (hgoal : IsNumbered height invertedSupport goal) (hheight : 2 ≤ height)
    (hd : domain = .ok d) (hmoved : moved < height) :
    ∃ next, Round d ⟨"move_blocks", [.goal goal]⟩ s (turnSteps height moved) next ∧
      IsTurning height (moved + 1) blocks next := by
  obtain ⟨dest, hfinal, hadv⟩ := h.exists_finalMove_next hgoal hheight hmoved
  have hclear := h.isClear_next hmoved
  have hdone := h.not_isDone hgoal hheight (Nat.le_refl moved) hmoved
  obtain ⟨here, next, hm⟩ := exists_moves hd h.consistent h.empty hclear hdone hadv
  obtain rfl : supportPlace (towerSupport height moved) = here :=
    Option.some.inj ((h.get?_pos_of_le (Nat.le_refl moved) hmoved).symm.trans hm.isHere)
  have hmove : moveBlocks s [.goal goal] =
      .ok (moveThenContinue (numberedBlock moved) dest goal) := by
    refine moveBlocks_of_finalMove (OrderedMap.mem_keys_iff.mpr (contains_of_isClear hclear)) hfinal
      fun x hx hlt => ?_
    rw [h.consistent.known_clear, ← h.consistent.known] at hx
    have hne : x ≠ numberedBlock moved := fun heq => String.lt_irrefl _ (heq ▸ hlt)
    exact h.finalMove_eq_none hgoal hheight hmoved (OrderedMap.mem_keys_iff.mp hx) hne
  refine ⟨next, Round.of_declareMoves hd nodup_moveNames hmove hm.derivation,
    hm.consistent h.consistent, hm.empty, fun {i} hi => ?_, fun {b} hb => ?_⟩
  · by_cases hi' : i = moved
    · subst hi'
      rw [hm.pos', supportAfter, if_pos (Nat.lt_succ_self i)]
    · rw [hm.same _ (fun heq => hi' (numberedBlock_inj.mp heq)), h.numbered.place hi]
      have hiff : i < moved ↔ i < moved + 1 := by omega
      simp only [supportAfter, hiff]
  · by_cases hb' : b = numberedBlock moved
    · exact ⟨moved, hmoved, hb'⟩
    · rw [OrderedMap.contains, hm.same b hb'] at hb
      exact h.numbered.exists_number hb

theorem IsTurning.exists_rounds (h : IsTurning height 0 blocks s)
    (hgoal : IsNumbered height invertedSupport goal) (hheight : 2 ≤ height)
    (hd : domain = .ok d) (hmoved : moved ≤ height) :
    ∃ choices next, choices.length = 6 * moved ∧
      Derivation d ⟨s, [⟨"move_blocks", [.goal goal]⟩]⟩ choices
        ((List.range moved).flatMap (turnSteps height)) ⟨next, [⟨"move_blocks", [.goal goal]⟩]⟩ ∧
      IsTurning height moved blocks next := by
  induction moved with
  | zero => exact ⟨[], s, rfl, .refl _, h⟩
  | succ moved ih =>
      obtain ⟨choices, mid, hlen, hder, hmid⟩ := ih (Nat.le_of_succ_le hmoved)
      obtain ⟨next, hround, hnext⟩ := hmid.exists_round hgoal hheight hd hmoved
      have hnext' := hder.trans hround
      rw [← List.flatMap_singleton (turnSteps height), ← List.flatMap_append, ← List.range_succ]
        at hnext'
      refine ⟨_, next, ?_, hnext', hnext⟩
      -- The round adds six: `move_blocks`, `move_one`, `get` and `put` with their operators.
      rw [List.length_append, hlen]
      rfl

end

theorem length_inversionSteps (hheight : 2 ≤ height) :
    (inversionSteps height).length = 2 * height := by
  have hmiddle : ((List.range' 1 (height - 2)).flatMap fun i =>
      ([⟨"unstack", [.block (numberedBlock i), .block (numberedBlock (i + 1))]⟩,
        ⟨"stack", [.block (numberedBlock i), .block (numberedBlock (i - 1))]⟩] :
          List (Task Arg))).length = 2 * (height - 2) := by
    simp [List.length_flatMap, Nat.mul_comm]
  simp only [inversionSteps, List.length_append, hmiddle, List.length_cons, List.length_nil]
  omega

/-- The only derivation of the inversion: six choices for each block and one to end. -/
theorem Problem.exists_inversion {start goal : List Fact} {p : Problem} {d : Domain State Arg}
    (hp : Problem.ofFacts start goal = .ok p)
    (htower : IsNumbered height (towerSupport height) p.start)
    (hgoal : IsNumbered height invertedSupport p.goal) (hheight : 2 ≤ height)
    (hd : domain = .ok d) :
    ∃ choices final, choices.length = 6 * height + 1 ∧
      Derivation.Succeeds d ⟨p.startState, [⟨"move_blocks", [.goal p.goal]⟩]⟩ choices
        (inversionSteps height) final := by
  have hsupport : supportAfter height 0 = towerSupport height :=
    funext fun i => if_neg (Nat.not_lt_zero i)
  have hturning : IsTurning height 0 p.start.keys p.startState :=
    ⟨Reaches.isConsistent hp .start, rfl, hsupport ▸ htower⟩
  obtain ⟨choices, final, hlen, hder, hfinal⟩ :=
    hturning.exists_rounds hgoal hheight hd (Nat.le_refl height)
  have hr : d.resolve "move_blocks" = .compound [⟨"move_by_status", moveBlocks⟩] :=
    Domain.resolve_of_declareMoves hd nodup_moveNames "move_blocks"
  have hlast : Derivation d ⟨final, [⟨"move_blocks", [.goal p.goal]⟩]⟩ [.method 0] [] ⟨final, []⟩ :=
    .head (.method hr rfl (hfinal.moveBlocks_eq_nil hgoal)) (.refl _)
  have hend := hder.trans hlast
  rw [flatMap_turnSteps hheight, List.append_nil] at hend
  refine ⟨_, final, ?_, hend⟩
  rw [List.length_append, hlen]
  rfl

/-- A tower of two or more blocks is turned over in the two steps for each block that
`inversionSteps` lists, without going back, if the depth bound allows six levels for each block and
one more. With any lower bound the search is cut, at one place, and fails. -/
theorem runTraced_invertedTower (policy : Policy) (hheight : 2 ≤ height)
    (hpolicy : policy.validate = .ok ()) :
    ∃ p d planner outcome, invertedTower height = .ok p ∧ p.world.domain = .ok d ∧
      Planner.create d policy = .ok planner ∧
      planner.runTraced p.world.start p.world.initialTasks = outcome ∧
      (6 * height + 1 ≤ policy.maxDepth.toNat →
        outcome.result = .ok ⟨inversionSteps height⟩ ∧
          (inversionSteps height).length = 2 * height ∧
          outcome.trace.metadata.backtracks = 0 ∧
          ∀ e ∈ outcome.trace.events, e.decision ≠ .backtracked) ∧
      (policy.maxDepth.toNat ≤ 6 * height →
        (∃ failure, outcome.result = .error failure ∧ failure.depthBoundReached = true) ∧
          outcome.trace.metadata.depthBoundHits = 1) := by
  have hpos : height ≠ 0 := by omega
  obtain ⟨p, start, goal, htower, hp, hstart, hgoal⟩ := exists_invertedTower hpos
  obtain ⟨d, hd⟩ : ∃ d, domain = .ok d := ⟨_, rfl⟩
  obtain ⟨choices, final, hlen, hsucceeds⟩ := Problem.exists_inversion hp hstart hgoal hheight hd
  have hlin := Domain.isLinear_of_declareMoves hd nodup_moveNames
  refine ⟨p, d, ⟨d, policy⟩, _, htower, hd, Planner.create_of_validate hpolicy, rfl,
    fun hdepth => ?_, fun hdepth => ?_⟩
  · obtain ⟨hresult, hback, hevents, -⟩ :=
      Planner.runTraced_of_succeeds (p := policy) hlin hsucceeds (by omega)
    exact ⟨hresult, length_inversionSteps hheight, hback, hevents⟩
  · exact Planner.runTraced_of_cut hlin hsucceeds (by omega)

/-- Thirteen levels are enough for two blocks, and twelve are not. -/
theorem runTraced_invertedTower_two :
    ∃ p d planner planner', invertedTower 2 = .ok p ∧ p.world.domain = .ok d ∧
      Planner.create d { maxDepth := 13 } = .ok planner ∧
      Planner.create d { maxDepth := 12 } = .ok planner' ∧
      (planner.runTraced p.world.start p.world.initialTasks).result = .ok ⟨[
        ⟨"unstack", [.block "b0", .block "b1"]⟩, ⟨"putdown", [.block "b0"]⟩,
        ⟨"pickup", [.block "b1"]⟩, ⟨"stack", [.block "b1", .block "b0"]⟩]⟩ ∧
      (∃ failure, (planner'.runTraced p.world.start p.world.initialTasks).result =
        .error failure ∧ failure.depthBoundReached = true) ∧
      (planner'.runTraced p.world.start p.world.initialTasks).trace.metadata.depthBoundHits =
        1 := by
  have hsteps : inversionSteps 2 = [
      ⟨"unstack", [.block "b0", .block "b1"]⟩, ⟨"putdown", [.block "b0"]⟩,
      ⟨"pickup", [.block "b1"]⟩, ⟨"stack", [.block "b1", .block "b0"]⟩] := by
    decide +kernel
  obtain ⟨p, d, planner, _, hp, hd, hcreate, rfl, hplan, -⟩ :=
    runTraced_invertedTower { maxDepth := 13 } (Nat.le_refl 2) rfl
  obtain ⟨p', d', planner', _, hp', hd', hcreate', rfl, -, hcut⟩ :=
    runTraced_invertedTower { maxDepth := 12 } (Nat.le_refl 2) rfl
  cases hp.symm.trans hp'
  cases hd.symm.trans hd'
  exact ⟨p, d, planner, planner', hp, hd, hcreate, hcreate', hsteps ▸ (hplan (by decide)).1,
    hcut (by decide)⟩

end TaskNetwork.Blocks
