import Mathlib.Data.List.Nodup
import TaskNetwork.Blocks.Problem
import TaskNetwork.OrderedMap.Lemmas
import TaskNetwork.Proofs.Except

/-!
# Accepted blocks problems

The start positions of an accepted problem are towers. Its goal has a place for the same blocks,
and there too the supports below a block lead to the table.
-/

namespace TaskNetwork.Blocks

/-! ## Facts -/

/-- A known block on the table or on another known block. -/
def Placed (isKnown : String → Bool) (block : String) (place : Place) : Prop :=
  isKnown block = true ∧
    (place = .table ∨ ∃ below, place = .on below ∧ below ≠ block ∧ isKnown below = true)

theorem Fact.placed {isKnown : String → Bool} {f : Fact} {place : Place}
    (h : f.place isKnown = .ok place) : Placed isKnown f.block place := by
  unfold Fact.place at h
  split at h
  · cases h
  · rename_i hb
    refine ⟨by simpa using hb, ?_⟩
    split at h
    · cases h
      exact Or.inl rfl
    · split at h
      · cases h
      · rename_i hne
        split at h
        · rename_i hon
          cases h
          exact Or.inr ⟨f.on, rfl, hne, hon⟩
        · cases h

theorem addFacts_cons {isKnown : String → Bool} {pos pos' : OrderedMap String Place} {f : Fact}
    {fs : List Fact} :
    addFacts isKnown pos (f :: fs) = .ok pos' ↔
      ∃ place, f.place isKnown = .ok place ∧ pos.contains f.block = false ∧
        addFacts isKnown (pos.insert f.block place) fs = .ok pos' := by
  rw [addFacts, bind_eq_ok]
  refine exists_congr fun place => and_congr_right fun _ => ?_
  by_cases hc : pos.contains f.block = true
  · simp [hc]
  · simp [hc]

theorem placed_of_addFacts {isKnown : String → Bool} {facts : List Fact}
    {pos pos' : OrderedMap String Place} (h : addFacts isKnown pos facts = .ok pos')
    (hpos : ∀ block place, pos.get? block = some place → Placed isKnown block place)
    (block : String) (place : Place) (hb : pos'.get? block = some place) :
    Placed isKnown block place := by
  induction facts generalizing pos with
  | nil =>
      cases h
      exact hpos block place hb
  | cons f fs ih =>
      obtain ⟨place', hf, -, h⟩ := addFacts_cons.mp h
      refine ih h fun b q hq => ?_
      rw [OrderedMap.get?_insert] at hq
      by_cases hbf : b = f.block
      · subst hbf
        simp only [beq_self_eq_true, if_true, Option.some.injEq] at hq
        exact hq ▸ Fact.placed hf
      · simp only [beq_eq_false_iff_ne.mpr hbf, Bool.false_eq_true, if_false] at hq
        exact hpos b q hq

theorem contains_of_addFacts {isKnown : String → Bool} {facts : List Fact}
    {pos pos' : OrderedMap String Place} (h : addFacts isKnown pos facts = .ok pos')
    (block : String) :
    pos'.contains block = (pos.contains block || facts.any fun f => f.block == block) := by
  induction facts generalizing pos with
  | nil =>
      cases h
      simp
  | cons f fs ih =>
      obtain ⟨place, -, -, h⟩ := addFacts_cons.mp h
      rw [ih h, OrderedMap.contains_insert, List.any_cons]
      by_cases hbf : block = f.block
      · simp [hbf]
      · rw [beq_eq_false_iff_ne.mpr hbf, beq_eq_false_iff_ne.mpr (Ne.symm hbf)]
        rfl

theorem unshared_of_sharedSupport? {pos : OrderedMap String Place} (h : sharedSupport? pos = none)
    {block block' below : String} (hb : pos.get? block = some (.on below))
    (hb' : pos.get? block' = some (.on below)) : block = block' := by
  rw [sharedSupport?, List.findSome?_eq_none_iff] at h
  have hone := h _ (OrderedMap.mem_values_iff.mpr ⟨block, hb⟩)
  refine OrderedMap.eq_of_count_values_le_one ?_ hb hb'
  simpa using hone

/-- What the facts of one side of a problem describe. -/
structure Describes (isKnown : String → Bool) (facts : List Fact)
    (pos : OrderedMap String Place) : Prop where
  placed {block : String} {place : Place} :
    pos.get? block = some place → Placed isKnown block place
  contains (block : String) : pos.contains block = facts.any fun f => f.block == block
  unshared {block block' below : String} :
    pos.get? block = some (.on below) → pos.get? block' = some (.on below) → block = block'

theorem describes_of_positions {isKnown : String → Bool} {facts : List Fact}
    {pos : OrderedMap String Place} (h : positions isKnown facts = .ok pos) :
    Describes isKnown facts pos := by
  obtain ⟨pos', hadd, h⟩ := bind_eq_ok.mp h
  split at h
  · cases h
  · rename_i hshared
    cases h
    refine ⟨fun hb => placed_of_addFacts hadd (fun _ _ hq => by cases hq) _ _ hb, fun block => ?_,
      unshared_of_sharedSupport? hshared⟩
    rw [contains_of_addFacts hadd]
    rfl

/-! ## Chains of supports -/

/-- The first block stands on the second one. -/
def StandsOn (pos : OrderedMap String Place) (block below : String) : Prop :=
  pos.get? block = some (.on below)

theorem leadsTo_mono {pos : OrderedMap String Place} {goal block : String} {bound bound' : Nat}
    (hle : bound ≤ bound') (h : leadsTo pos goal bound block = true) :
    leadsTo pos goal bound' block = true := by
  induction bound generalizing block bound' with
  | zero => cases h
  | succ bound ih =>
      obtain ⟨bound', rfl⟩ := Nat.exists_eq_add_of_lt hle
      rw [leadsTo] at h ⊢
      split at h
      · rw [Bool.or_eq_true] at h ⊢
        exact h.imp_right (ih (by omega))
      · cases h

theorem leadsTo_of_isChain {pos : OrderedMap String Place} {block goal : String}
    {chain : List String} (h : (block :: chain).IsChain (StandsOn pos)) (hm : goal ∈ chain) :
    leadsTo pos goal chain.length block = true := by
  induction chain generalizing block with
  | nil => cases hm
  | cons below chain ih =>
      obtain ⟨hon, hchain⟩ := List.isChain_cons_cons.mp h
      have hon : pos.get? block = some (.on below) := hon
      rw [List.length_cons, leadsTo, hon]
      rcases List.mem_cons.mp hm with rfl | hm
      · simp
      · simp [ih hchain hm]

theorem nodup_of_isChain {pos : OrderedMap String Place} (hfree : cycle? pos = none)
    {chain : List String} (h : chain.IsChain (StandsOn pos)) (hl : chain.length ≤ pos.size + 1)
    (hm : ∀ block ∈ chain, pos.contains block = true) : chain.Nodup := by
  induction chain with
  | nil => exact List.nodup_nil
  | cons block chain ih =>
      have hrest := ih h.of_cons (Nat.le_of_succ_le hl) fun b hb => hm b (List.mem_cons_of_mem _ hb)
      refine List.nodup_cons.mpr ⟨fun hin => ?_, hrest⟩
      have hloop := leadsTo_mono (Nat.le_of_succ_le_succ hl) (leadsTo_of_isChain h hin)
      have hkey := OrderedMap.mem_keys_iff.mpr (hm block List.mem_cons_self)
      exact List.find?_eq_none.mp hfree block hkey hloop

/-- What every block that has it hands down to a block below starts chains of any length. -/
theorem exists_isChain {pos : OrderedMap String Place} {P : String → Prop}
    (hdown : ∀ b, P b → ∃ below, StandsOn pos b below ∧ P below) {block : String} (hb : P block)
    (n : Nat) : ∃ chain : List String,
      chain.length = n ∧ (block :: chain).IsChain (StandsOn pos) ∧ ∀ b ∈ block :: chain, P b := by
  induction n generalizing block with
  | zero => exact ⟨[], rfl, .singleton _, by simpa using hb⟩
  | succ n ih =>
      obtain ⟨below, hon, hbelow⟩ := hdown block hb
      obtain ⟨chain, hl, hchain, hm⟩ := ih hbelow
      exact ⟨below :: chain, by rw [List.length_cons, hl], .cons_cons hon hchain,
        List.forall_mem_cons.mpr ⟨hb, hm⟩⟩

/-- In positions without a cycle nothing is handed down from block to block forever. -/
theorem not_of_checkAcyclic {pos : OrderedMap String Place} (h : checkAcyclic pos = .ok ())
    {P : String → Prop} (hdown : ∀ b, P b → ∃ below, StandsOn pos b below ∧ P below)
    (block : String) : ¬ P block := by
  have hfree : cycle? pos = none := by
    unfold checkAcyclic at h
    split at h
    · cases h
    · assumption
  intro hb
  obtain ⟨chain, hl, hchain, hm⟩ := exists_isChain hdown hb pos.size
  have hcontains (b : String) (hmem : b ∈ block :: chain) : pos.contains b = true := by
    obtain ⟨below, hon, -⟩ := hdown b (hm b hmem)
    exact Option.isSome_iff_exists.mpr ⟨_, hon⟩
  have hlength : (block :: chain).length = pos.size + 1 := by rw [List.length_cons, hl]
  have hnodup := nodup_of_isChain hfree hchain (Nat.le_of_eq hlength) hcontains
  -- The chain has more blocks than there are.
  have hle := hnodup.length_le_of_subset fun b hb => OrderedMap.mem_keys_iff.mpr (hcontains b hb)
  rw [hlength, OrderedMap.keys, List.length_map] at hle
  exact Nat.not_succ_le_self _ hle

theorem grounded_of_checkAcyclic {pos : OrderedMap String Place} (h : checkAcyclic pos = .ok ())
    (hplace : ∀ {block place}, pos.get? block = some place →
      place = .table ∨ ∃ below, place = .on below ∧ pos.contains below = true)
    {block : String} (hb : pos.contains block = true) : Grounded pos block := by
  by_contra hnot
  refine not_of_checkAcyclic h (P := fun b => pos.contains b = true ∧ ¬ Grounded pos b)
    (fun b ⟨hb, hnot⟩ => ?_) block ⟨hb, hnot⟩
  obtain ⟨place, hplace'⟩ := Option.isSome_iff_exists.mp hb
  rcases hplace hplace' with rfl | ⟨below, rfl, hbelow⟩
  · exact absurd (.table hplace') hnot
  · exact ⟨below, hplace', hbelow, fun hg => hnot (.on hplace' hg)⟩

/-! ## Problems -/

/-- How an accepted problem is made of positions that the facts of its two sides describe. -/
structure Problem.IsMade (p : Problem) (start goal : List Fact)
    (goalPos : OrderedMap String Place) : Prop where
  start_eq : positions (fun name => start.any fun f => f.block == name) start = .ok p.start
  goal_eq : positions p.start.contains goal = .ok goalPos
  get?_goal (block : String) :
    p.goal.get? block = (goalPos.get? block).or (p.start.get? block)
  start_acyclic : checkAcyclic p.start = .ok ()
  goal_acyclic : checkAcyclic p.goal = .ok ()

theorem exists_isMade_of_ofFacts {start goal : List Fact} {p : Problem}
    (h : Problem.ofFacts start goal = .ok p) : ∃ goalPos, p.IsMade start goal goalPos := by
  obtain ⟨startPos, hstart, h⟩ := bind_eq_ok.mp h
  obtain ⟨goalPos, hgoal, h⟩ := bind_eq_ok.mp h
  obtain ⟨⟨⟩, hfree, h⟩ := bind_eq_ok.mp h
  obtain ⟨⟨⟩, hfree', h⟩ := bind_eq_ok.mp h
  cases h
  exact ⟨goalPos, hstart, hgoal, OrderedMap.get?_insertAll_toList startPos goalPos, hfree, hfree'⟩

namespace Problem.IsMade

variable {p : Problem} {start goal : List Fact} {goalPos : OrderedMap String Place}
  {block below : String} {place : Place} (h : p.IsMade start goal goalPos)

include h

theorem placed_start (hb : p.start.get? block = some place) :
    Placed p.start.contains block place := by
  have hs := describes_of_positions h.start_eq
  have hknown : (fun name => start.any fun f => f.block == name) = p.start.contains :=
    funext fun block => (hs.contains block).symm
  exact hknown ▸ hs.placed hb

theorem placed_goal (hb : p.goal.get? block = some place) :
    Placed p.start.contains block place := by
  rw [h.get?_goal] at hb
  rcases Option.or_eq_some_iff.mp hb with hb | ⟨-, hb⟩
  · exact (describes_of_positions h.goal_eq).placed hb
  · exact h.placed_start hb

theorem contains_goal (block : String) : p.goal.contains block = p.start.contains block := by
  rw [OrderedMap.contains, h.get?_goal]
  cases hb : goalPos.get? block with
  | none => rfl
  | some place => exact ((describes_of_positions h.goal_eq).placed hb).1.symm

end Problem.IsMade

/-- Positions of some blocks in which the supports below each of them lead to the table. -/
structure IsGrounded (pos : OrderedMap String Place) (blocks : List String) : Prop where
  known : pos.keys = blocks
  grounded {block : String} : block ∈ blocks → Grounded pos block

theorem Placed.support {isKnown : String → Bool} {block below : String}
    (h : Placed isKnown block (.on below)) : isKnown below = true ∧ below ≠ block := by
  rcases h.2 with heq | ⟨_, heq, hne, hbelow⟩
  · cases heq
  · cases heq
    exact ⟨hbelow, hne⟩

theorem isTowers_and_isGrounded_of_ofFacts {start goal : List Fact} {p : Problem}
    (h : Problem.ofFacts start goal = .ok p) :
    IsTowers p.start ∧ IsGrounded p.goal p.start.keys := by
  obtain ⟨goalPos, hmade⟩ := exists_isMade_of_ofFacts h
  have hplace {pos : OrderedMap String Place} {block : String} {place : Place}
      (hcontains : ∀ block, pos.contains block = p.start.contains block)
      (hb : Placed p.start.contains block place) :
      place = .table ∨ ∃ below, place = .on below ∧ pos.contains below = true :=
    hb.2.imp_right fun ⟨below, heq, _, hbelow⟩ => ⟨below, heq, (hcontains below).trans hbelow⟩
  refine ⟨⟨fun hb => (hmade.placed_start hb).support,
    (describes_of_positions hmade.start_eq).unshared, ?_⟩,
    ⟨OrderedMap.keys_eq_of_contains hmade.contains_goal, fun hb => ?_⟩⟩
  · exact grounded_of_checkAcyclic hmade.start_acyclic
      fun hb => hplace (fun _ => rfl) (hmade.placed_start hb)
  · refine grounded_of_checkAcyclic hmade.goal_acyclic
      (fun hb => hplace hmade.contains_goal (hmade.placed_goal hb)) ?_
    rw [hmade.contains_goal]
    exact OrderedMap.mem_keys_iff.mp hb

end TaskNetwork.Blocks
