import TaskNetwork.Proofs.Blocks.Done
import TaskNetwork.Proofs.Search.Rounds

/-!
# Rounds in the blocks world

A round moves one clear block that is not done to its final place, or from a tower to the table. It
lowers the number of moves that the block still needs, of which there are at most two, and raises
that of no other block.
-/

namespace TaskNetwork.Blocks

variable {s s' held next : State} {goal : Goal} {b x : String} {blocks : List String}

/-! ## What a status says -/

/-- When a block has a status. -/
inductive HasStatus (s : State) (goal : Goal) (b : String) : Status → Prop where
  | done : isDone s goal b = true → HasStatus s goal b .done
  | inaccessible :
      isDone s goal b = false → s.isClear b = false → HasStatus s goal b .inaccessible
  | moveToTable :
      isDone s goal b = false → s.isClear b = true → contradicts goal b (some .table) = false →
        HasStatus s goal b .moveToTable
  | moveToBlock {target : String} :
      isDone s goal b = false → s.isClear b = true → goal.get? b = some (.on target) →
        isDone s goal target = true → s.isClear target = true → HasStatus s goal b .moveToBlock
  | waiting {place : Place} :
      isDone s goal b = false → s.isClear b = true → goal.get? b = some place → place ≠ .table →
        (∀ target, place = .on target → isDone s goal target = true → s.isClear target = false) →
          HasStatus s goal b .waiting

theorem hasStatus_status (s : State) (goal : Goal) (b : String) :
    HasStatus s goal b (status s goal b) := by
  unfold status
  split
  · exact .done ‹_›
  · rename_i hdone
    rw [Bool.not_eq_true] at hdone
    split
    · rename_i hclear
      exact .inaccessible hdone (by simpa using hclear)
    · rename_i hclear
      rw [Bool.not_eq_true', Bool.not_eq_false] at hclear
      split
      · rename_i hb
        exact .moveToTable hdone hclear (by simp [contradicts, hb])
      · rename_i hb
        exact .moveToTable hdone hclear (by simp [contradicts, hb])
      · rename_i target hb
        split
        · rename_i hready
          rw [Bool.and_eq_true] at hready
          exact .moveToBlock hdone hclear hb hready.1 hready.2
        · rename_i hready
          refine .waiting hdone hclear hb (by simp) fun t ht hdone => ?_
          cases ht
          simpa [hdone] using hready
      · rename_i hb
        exact .waiting hdone hclear hb (by simp) (by simp)

theorem status_eq_done : status s goal b = .done ↔ isDone s goal b = true := by
  constructor
  · intro h
    have hs := hasStatus_status s goal b
    rw [h] at hs
    cases hs with
    | done hdone => exact hdone
  · intro h
    simp [status, h]

/-! ## What the strategy picks -/

/-- A block may move to a place: to where it has to end, or, if it does not stand there, to the
table. -/
inductive Advances (s : State) (goal : Goal) (b : String) : Arg → Place → Prop where
  | settle : contradicts goal b (some .table) = false → Advances s goal b .table .table
  | park : s.pos.get? b ≠ some .table → Advances s goal b .table .table
  | stack {target : String} :
      goal.get? b = some (.on target) → isDone s goal target = true → s.isClear target = true →
        Advances s goal b (.block target) (.on target)

/-- What the strategy looks for in vain: a block that can go to its final place or be parked. -/
def IsIdle (s : State) (goal : Goal) : Prop :=
  ∀ b ∈ s.clear.keys, finalMove s goal b = none ∧ canPark s goal b = false

theorem advances_of_finalMove {move : String × Arg} (h : finalMove s goal b = some move) :
    move.1 = b ∧ s.isClear b = true ∧ isDone s goal b = false ∧
      ∃ place, Advances s goal b move.2 place := by
  have hs := hasStatus_status s goal b
  unfold finalMove at h
  generalize status s goal b = status at h hs
  cases hs with
  | done _ => cases h
  | inaccessible _ _ => cases h
  | moveToTable hdone hclear hwanted =>
      cases h
      exact ⟨rfl, hclear, hdone, _, .settle hwanted⟩
  | moveToBlock hdone hclear hb hdone' hclear' =>
      rw [hb] at h
      cases h
      exact ⟨rfl, hclear, hdone, _, .stack hb hdone' hclear'⟩
  | waiting _ _ _ _ _ => cases h

theorem advances_of_canPark (h : canPark s goal b = true) :
    s.isClear b = true ∧ isDone s goal b = false ∧ Advances s goal b .table .table := by
  simp only [canPark, Bool.and_eq_true, decide_eq_true_eq] at h
  obtain ⟨hwaits, hpos⟩ := h
  have hs := hasStatus_status s goal b
  rw [hwaits] at hs
  cases hs with
  | waiting hdone hclear _ _ _ => exact ⟨hclear, hdone, .park hpos⟩

/-- The strategy picks a block and a place for it, or finds none. -/
theorem moveBlocks_cases (s : State) (goal : Goal) :
    (∃ b dest place, s.isClear b = true ∧ isDone s goal b = false ∧ Advances s goal b dest place ∧
      moveBlocks s [.goal goal] = .ok (moveThenContinue b dest goal)) ∨
    IsIdle s goal ∧
      (moveBlocks s [.goal goal] = .ok [] ∧ (∀ b ∈ s.clear.keys, isDone s goal b = true) ∨
        moveBlocks s [.goal goal] = .error (.notApplicable "no block can be moved") ∧
          ∃ b ∈ s.clear.keys, isDone s goal b = false) := by
  rw [moveBlocks]
  cases hfinal : s.clear.keys.findSome? (finalMove s goal) with
  | some move =>
      obtain ⟨_, b, _, _, hb, _⟩ := List.findSome?_eq_some_iff.mp hfinal
      obtain ⟨rfl, hclear, hdone, place, hadv⟩ := advances_of_finalMove hb
      exact Or.inl ⟨_, _, place, hclear, hdone, hadv, rfl⟩
  | none =>
      cases hpark : s.clear.keys.find? (canPark s goal) with
      | some b =>
          obtain ⟨hclear, hdone, hadv⟩ := advances_of_canPark (List.find?_some hpark)
          exact Or.inl ⟨b, .table, .table, hclear, hdone, hadv, rfl⟩
      | none =>
          refine Or.inr ⟨fun b hb => ⟨List.findSome?_eq_none_iff.mp hfinal b hb, ?_⟩, ?_⟩
          · simpa using List.find?_eq_none.mp hpark b hb
          · by_cases hall : ∀ b ∈ s.clear.keys, isDone s goal b = true
            · refine Or.inl ⟨if_pos ?_, hall⟩
              simpa [status_eq_done] using hall
            · refine Or.inr ⟨if_neg ?_, by simpa using hall⟩
              simpa [status_eq_done] using hall

/-! ## How many moves a block still needs -/

/-- The moves that a block may still need: none if it is done, one from the table, else two. -/
def effort (s : State) (goal : Goal) (b : String) : Nat :=
  if isDone s goal b then 0 else if s.pos.get? b = some .table then 1 else 2

theorem effort_le_two (s : State) (goal : Goal) (b : String) : effort s goal b ≤ 2 := by
  unfold effort
  split_ifs <;> omega

theorem effort_of_isDone (h : isDone s goal b = true) : effort s goal b = 0 := by
  rw [effort, if_pos h]

theorem effort_le_of_move {block : String}
    (hsame : ∀ x, x ≠ block → s'.pos.get? x = s.pos.get? x)
    (hblock : isDone s goal block = false) (hx : x ≠ block) :
    effort s' goal x ≤ effort s goal x := by
  cases hdone : isDone s goal x with
  | true =>
      rw [effort_of_isDone (isDone_of_move hsame hblock hdone)]
      exact Nat.zero_le _
  | false =>
      simp only [effort, hdone, hsame x hx, Bool.false_eq_true, if_false]
      split_ifs <;> omega

theorem effort_lt_of_advances {dest : Arg} {place : Place} (hadv : Advances s goal b dest place)
    (hb : isDone s goal b = false) (hpos : s'.pos.get? b = some place)
    (hsame : ∀ x, x ≠ b → s'.pos.get? x = s.pos.get? x) :
    effort s' goal b < effort s goal b := by
  have hneeds : 1 ≤ effort s goal b := by
    simp only [effort, hb, Bool.false_eq_true, if_false]
    split_ifs <;> omega
  cases hadv with
  | settle hwanted =>
      rw [effort_of_isDone (isDone_of_table hpos hwanted)]
      exact hneeds
  | park hne =>
      simp only [effort, hb, Bool.false_eq_true, if_false, hne, hpos, if_true]
      split_ifs <;> omega
  | stack hgoal htarget _ =>
      have hdone : isDone s' goal b = true :=
        isDone_of_on hpos (by simp [contradicts, hgoal]) (isDone_of_move hsame hb htarget)
      rw [effort_of_isDone hdone]
      exact hneeds

/-! ## One round -/

/-- How often tasks pick a block up. -/
def pickCount (b : String) (tasks : List (Task Arg)) : Nat :=
  tasks.countP fun t => (t.name = "pickup" ∨ t.name = "unstack") ∧ t.args.head? = some (.block b)

theorem pickCount_append (b : String) (tasks tasks' : List (Task Arg)) :
    pickCount b (tasks ++ tasks') = pickCount b tasks + pickCount b tasks' :=
  List.countP_append

/-- The task that takes a block up from where it is. -/
def takeUpTask (b : String) : Place → Task Arg
  | .on below => ⟨"unstack", [.block b, .block below]⟩
  | _ => ⟨"pickup", [.block b]⟩

/-- The task that puts the held block down at a place. -/
def putDownTask (b : String) : Place → Task Arg
  | .on below => ⟨"stack", [.block b, .block below]⟩
  | _ => ⟨"putdown", [.block b]⟩

theorem pickCount_takeUpTask (b x : String) (here : Place) :
    pickCount x [takeUpTask b here] = if x = b then 1 else 0 := by
  cases here <;> simp [pickCount, takeUpTask, List.countP_cons, eq_comm]

theorem pickCount_putDownTask (b x : String) (place : Place) :
    pickCount x [putDownTask b place] = 0 := by
  cases place <;> rfl

variable {d : Domain State Arg}

theorem nodup_moveNames : (Domain.moveNames operators).Nodup := by
  decide

theorem exists_takeUp (hd : domain = .ok d) (hs : s.IsConsistent blocks) (hempty : s.holding = none)
    (hclear : s.isClear b = true) :
    ∃ held here, get s [.block b] = .ok [takeUpTask b here] ∧
      d.Does operators s (takeUpTask b here) held ∧ TakesUp s b here held := by
  have hb : b ∈ blocks := hs.known_clear ▸ OrderedMap.mem_keys_iff.mpr (contains_of_isClear hclear)
  obtain ⟨place, hpos⟩ := Option.isSome_iff_exists.mp (hs.mem_iff.mp hb)
  cases place with
  | table =>
      have hget : get s [.block b] = .ok [⟨"pickup", [.block b]⟩] := by simp [get, hclear, hpos]
      have happly : pickup s [.block b] = .ok (s.move b .hand false (some b)) := by
        simp [pickup, hpos, hclear, hempty]
      obtain ⟨_, hargs, htakes⟩ := takesUp_of_pickup happly
      cases hargs
      have hop : ⟨"pickup", pickup⟩ ∈ operators := by simp [operators]
      exact ⟨_, .table, hget, .of_declareMoves hd nodup_moveNames hop happly, htakes⟩
  | hand =>
      rw [hs.holding.mpr hpos] at hempty
      cases hempty
  | on below =>
      have hget : get s [.block b] = .ok [⟨"unstack", [.block b, .block below]⟩] := by
        simp [get, hclear, hpos]
      have happly : unstack s [.block b, .block below] =
          .ok ((s.move b .hand false (some b)).setClear below true) := by
        simp [unstack, hpos, hclear, hempty]
      obtain ⟨_, _, hargs, htakes⟩ := takesUp_of_unstack happly
      cases hargs
      have hop : ⟨"unstack", unstack⟩ ∈ operators := by simp [operators]
      exact ⟨_, .on below, hget, .of_declareMoves hd nodup_moveNames hop happly, htakes⟩

/-- Where a task argument puts a block. -/
def destination : Arg → Option Place
  | .block below => some (.on below)
  | .table => some .table
  | .goal _ => none

theorem exists_putDown (hd : domain = .ok d) {dest : Arg} {place : Place} {held : State}
    (hholding : held.holding = some b) (hpos : held.pos.get? b = some .hand)
    (hdest : destination dest = some place)
    (hready : ∀ below, place = .on below → held.isClear below = true) :
    ∃ next, put held [.block b, dest] = .ok [putDownTask b place] ∧
      d.Does operators held (putDownTask b place) next ∧ PutsDown held b place next := by
  cases dest with
  | table =>
      cases hdest
      have hput : put held [.block b, .table] = .ok [⟨"putdown", [.block b]⟩] := by
        simp [put, hholding]
      have happly : putdown held [.block b] = .ok (held.move b .table true none) := by
        simp [putdown, hpos]
      obtain ⟨_, hargs, hdown⟩ := putsDown_of_putdown happly
      cases hargs
      have hop : ⟨"putdown", putdown⟩ ∈ operators := by simp [operators]
      exact ⟨_, hput, .of_declareMoves hd nodup_moveNames hop happly, hdown⟩
  | block below =>
      cases hdest
      have hput : put held [.block b, .block below] =
          .ok [⟨"stack", [.block b, .block below]⟩] := by
        simp [put, hholding]
      have happly : stack held [.block b, .block below] =
          .ok ((held.move b (.on below) true none).setClear below false) := by
        simp [stack, hpos, hready below rfl]
      obtain ⟨_, _, hargs, hdown⟩ := putsDown_of_stack happly
      cases hargs
      have hop : ⟨"stack", stack⟩ ∈ operators := by simp [operators]
      exact ⟨_, hput, .of_declareMoves hd nodup_moveNames hop happly, hdown⟩
  | goal _ => cases hdest

/-- The task `move_one` takes a block up from where it is and puts it down at a place; everything
else stays where it is. -/
structure Moves (d : Domain State Arg) (s : State) (b : String) (dest : Arg) (here place : Place)
    (next : State) : Prop where
  isHere : s.pos.get? b = some here
  derivation (rest : List (Task Arg)) :
    Derivation d ⟨s, ⟨"move_one", [.block b, dest]⟩ :: rest⟩
      [.method 0, .method 0, .operator, .method 0, .operator]
      [takeUpTask b here, putDownTask b place] ⟨next, rest⟩
  reachable (start : State) : Reachable operators start s → Reachable operators start next
  consistent {blocks : List String} : s.IsConsistent blocks → next.IsConsistent blocks
  empty : next.holding = none
  pos' : next.pos.get? b = some place
  same (x : String) : x ≠ b → next.pos.get? x = s.pos.get? x

/-- A move that the strategy may pick can be made. -/
theorem exists_moves (hd : domain = .ok d) (hs : s.IsConsistent blocks) (hempty : s.holding = none)
    {dest : Arg} {place : Place} (hclear : s.isClear b = true) (hb : isDone s goal b = false)
    (hadv : Advances s goal b dest place) : ∃ here next, Moves d s b dest here place next := by
  obtain ⟨held, here, hget, hdoes, htakes⟩ := exists_takeUp hd hs hempty hclear
  have hheld : held.pos.get? b = some .hand := by simp [htakes.get?_pos]
  have hdest : destination dest = some place := by
    cases hadv <;> rfl
  have hready (below : String) (hplace : place = .on below) : held.isClear below = true := by
    cases hadv with
    | settle _ => cases hplace
    | park _ => cases hplace
    | stack _ hdone hclear' =>
        cases hplace
        refine (htakes.clear' (contains_of_isClear hclear')).mpr (Or.inr ⟨?_, hclear'⟩)
        rintro rfl
        simp [hb] at hdone
  obtain ⟨next, hput, hdoes', hdown⟩ := exists_putDown hd htakes.holding' hheld hdest hready
  have hone : moveOne s [.block b, dest] =
      .ok [⟨"get", [.block b]⟩, ⟨"put", [.block b, dest]⟩] := by
    cases hadv <;> rfl
  refine ⟨here, next, htakes.isHere,
    Derivation.of_declareMoves hd nodup_moveNames hone hget hdoes hput hdoes',
    fun start h => hdoes'.reachable (hdoes.reachable h),
    fun hs => (hs.takesUp htakes).putsDown hdown, hdown.holding', ?_, fun x hx => ?_⟩
  · simp [hdown.get?_pos]
  · simp [hdown.get?_pos, htakes.get?_pos, hx]

/-- A move that the strategy picks can be made. -/
theorem exists_round (hd : domain = .ok d) (hs : s.IsConsistent blocks) (hempty : s.holding = none)
    {dest : Arg} {place : Place} (hclear : s.isClear b = true) (hb : isDone s goal b = false)
    (hadv : Advances s goal b dest place)
    (hmove : moveBlocks s [.goal goal] = .ok (moveThenContinue b dest goal)) :
    ∃ steps next, Round d ⟨"move_blocks", [.goal goal]⟩ s steps next ∧ steps.length = 2 ∧
      (∀ start, Reachable operators start s → Reachable operators start next) ∧
      next.holding = none ∧ next.pos.get? b = some place ∧
      (∀ x, x ≠ b → next.pos.get? x = s.pos.get? x) ∧
      ∀ x, pickCount x steps = if x = b then 1 else 0 := by
  obtain ⟨here, next, hm⟩ := exists_moves hd hs hempty hclear hb hadv
  refine ⟨_, next, Round.of_declareMoves hd nodup_moveNames hmove hm.derivation, rfl, hm.reachable,
    hm.empty, hm.pos', hm.same, fun x => ?_⟩
  rw [← pickCount_takeUpTask b x here, ← Nat.add_zero (pickCount x [takeUpTask b here]),
    ← pickCount_putDownTask b x place]
  exact pickCount_append x [takeUpTask b here] [putDownTask b place]

end TaskNetwork.Blocks
