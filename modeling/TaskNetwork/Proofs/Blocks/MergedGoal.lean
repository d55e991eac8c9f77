import Mathlib.Tactic.SplitIfs
import TaskNetwork.Proofs.Blocks.Towers

/-!
# Goals merged with the start

A block that the goal facts do not name keeps its start position. That merge is not checked for
shared supports, so a goal fact may put a block on one that still carries another: the goals of
accepted problems are towers exactly when the goal facts name every block that they build on top of
the support of.
-/

namespace TaskNetwork.Blocks

variable {isKnown : String → Bool} {f : Fact} {facts : List Fact} {block below : String}
  {place : Place}

theorem Fact.place_eq_ok :
    f.place isKnown = .ok place ↔ isKnown f.block = true ∧
      (f.on = tableName ∧ place = .table ∨
        f.on ≠ tableName ∧ f.on ≠ f.block ∧ isKnown f.on = true ∧ place = .on f.on) := by
  unfold Fact.place
  split_ifs with hblock htable hself hon
  · simp at hblock
    simp [hblock]
  · simp at hblock
    simp [hblock, htable, @eq_comm _ place]
  · simp [hself ▸ htable, hself]
  · simp at hblock
    simp [hblock, htable, hself, hon, @eq_comm _ place]
  · simp [htable, hon]

theorem Fact.place_on (h : f.place isKnown = .ok (.on below)) :
    f.on = below ∧ below ≠ tableName := by
  rcases (Fact.place_eq_ok.mp h).2 with ⟨-, heq⟩ | ⟨htable, -, -, heq⟩
  · cases heq
  · cases heq
    exact ⟨rfl, htable⟩

theorem get?_of_addFacts {pos pos' : OrderedMap String Place}
    (h : addFacts isKnown pos facts = .ok pos') :
    pos'.get? block = some place ↔ pos.get? block = some place ∨
      ∃ f ∈ facts, f.block = block ∧ f.place isKnown = .ok place := by
  induction facts generalizing pos with
  | nil =>
      cases h
      simp
  | cons f fs ih =>
      obtain ⟨place', hf, hnew, h⟩ := addFacts_cons.mp h
      rw [ih h, OrderedMap.get?_insert, List.exists_mem_cons_iff, ← or_assoc]
      refine or_congr_left ?_
      by_cases hb : block = f.block
      · subst hb
        have hnone : pos.get? f.block = none := by simpa [OrderedMap.contains] using hnew
        simp [hf, hnone]
      · simp [hb, Ne.symm hb]

theorem exists_place_of_addFacts {pos pos' : OrderedMap String Place}
    (h : addFacts isKnown pos facts = .ok pos') (hf : f ∈ facts) :
    ∃ place, f.place isKnown = .ok place := by
  induction facts generalizing pos with
  | nil => cases hf
  | cons f' fs ih =>
      obtain ⟨place, hplace, -, h⟩ := addFacts_cons.mp h
      rcases List.mem_cons.mp hf with rfl | hf
      · exact ⟨place, hplace⟩
      · exact ih h hf

theorem addFacts_of_positions {pos : OrderedMap String Place}
    (h : positions isKnown facts = .ok pos) : addFacts isKnown ∅ facts = .ok pos := by
  obtain ⟨pos', hadd, h⟩ := bind_eq_ok.mp h
  split at h
  · cases h
  · cases h
    exact hadd

theorem get?_of_positions {pos : OrderedMap String Place} (h : positions isKnown facts = .ok pos) :
    pos.get? block = some place ↔ ∃ f ∈ facts, f.block = block ∧ f.place isKnown = .ok place := by
  rw [get?_of_addFacts (addFacts_of_positions h)]
  exact or_iff_right nofun

/-! ## Shared supports of a merged goal -/

/-- Each block that stands where a goal fact puts a block is named by a goal fact itself. -/
def Problem.Clears (p : Problem) (goal : List Fact) : Prop :=
  ∀ f ∈ goal, ∀ block, p.start.get? block = some (.on f.on) → ∃ g ∈ goal, g.block = block

namespace Problem.IsMade

variable {p : Problem} {start goal : List Fact} {goalPos : OrderedMap String Place}
  (h : p.IsMade start goal goalPos)

include h

theorem place_eq_on (hf : f ∈ goal) (hb : p.start.get? block = some (.on f.on)) :
    f.place p.start.contains = .ok (.on f.on) := by
  obtain ⟨s, -, -, hs⟩ := (get?_of_positions h.start_eq).mp hb
  obtain ⟨place, hplace⟩ := exists_place_of_addFacts (addFacts_of_positions h.goal_eq) hf
  rcases (Fact.place_eq_ok.mp hplace).2 with ⟨htable, -⟩ | ⟨-, -, -, rfl⟩
  · exact absurd htable (Fact.place_on hs).2
  · exact hplace

theorem get?_eq_none : goalPos.get? block = none ↔ ∀ g ∈ goal, g.block ≠ block := by
  rw [← Option.not_isSome_iff_eq_none, ← OrderedMap.contains,
    (describes_of_positions h.goal_eq).contains]
  simp

theorem unshared_goal (hclears : p.Clears goal) {block block' : String}
    (hb : p.goal.get? block = some (.on below)) (hb' : p.goal.get? block' = some (.on below)) :
    block = block' := by
  -- A block that a goal fact puts down does not share its support with one left where it started.
  have happart {b b' : String} (hput : goalPos.get? b = some (.on below))
      (hleft : goalPos.get? b' = none) (hstart : p.start.get? b' = some (.on below)) : False := by
    obtain ⟨f, hf, -, hplace⟩ := (get?_of_positions h.goal_eq).mp hput
    obtain ⟨rfl, -⟩ := Fact.place_on hplace
    obtain ⟨g, hg, rfl⟩ := hclears f hf b' hstart
    exact h.get?_eq_none.mp hleft g hg rfl
  rw [h.get?_goal] at hb hb'
  rcases Option.or_eq_some_iff.mp hb with hput | ⟨hleft, hstart⟩
  · rcases Option.or_eq_some_iff.mp hb' with hput' | ⟨hleft', hstart'⟩
    · exact (describes_of_positions h.goal_eq).unshared hput hput'
    · exact (happart hput hleft' hstart').elim
  · rcases Option.or_eq_some_iff.mp hb' with hput' | ⟨-, hstart'⟩
    · exact (happart hput' hleft hstart).elim
    · exact (describes_of_positions h.start_eq).unshared hstart hstart'

theorem clears_of_isTowers (htowers : IsTowers p.goal) : p.Clears goal := by
  intro f hf block hb
  by_contra hnone
  have hleft : goalPos.get? block = none :=
    h.get?_eq_none.mpr fun g hg heq => hnone ⟨g, hg, heq⟩
  have hput : goalPos.get? f.block = some (.on f.on) :=
    (get?_of_positions h.goal_eq).mpr ⟨f, hf, rfl, h.place_eq_on hf hb⟩
  have heq : f.block = block :=
    htowers.unshared (by rw [h.get?_goal, hput]; rfl) (by rw [h.get?_goal, hleft]; exact hb)
  exact hnone ⟨f, hf, heq⟩

end Problem.IsMade

/-- The start positions of an accepted problem are towers. In its goal every support is another
block of the start and all supports lead to the table, but two blocks may share one: the goal
positions are towers too exactly if the goal facts clear the supports that they use. -/
theorem ofFacts_isTowers_iff {start goal : List Fact} {p : Problem}
    (h : Problem.ofFacts start goal = .ok p) :
    IsTowers p.start ∧ p.goal.keys = p.start.keys ∧
      (∀ block below, p.goal.get? block = some (.on below) →
        p.start.contains below = true ∧ below ≠ block) ∧
      (∀ block ∈ p.start.keys, Grounded p.goal block) ∧
      (IsTowers p.goal ↔ p.Clears goal) := by
  obtain ⟨goalPos, hmade⟩ := exists_isMade_of_ofFacts h
  obtain ⟨hstart, hgrounded⟩ := isTowers_and_isGrounded_of_ofFacts h
  refine ⟨hstart, hgrounded.known, fun _ _ hb => (hmade.placed_goal hb).support,
    fun _ hb => hgrounded.grounded hb, hmade.clears_of_isTowers, fun hclears => ?_⟩
  refine ⟨fun hb => ?_, hmade.unshared_goal hclears, fun hb => hgrounded.grounded ?_⟩
  · rw [hmade.contains_goal]
    exact (hmade.placed_goal hb).support
  · rw [← hgrounded.known]
    exact OrderedMap.mem_keys_iff.mpr hb

/-- The block `a` makes room for `c`. -/
theorem ofFacts_isTowers_iff_replacing :
    ∃ p, Problem.ofFacts [⟨"a", "b"⟩, ⟨"b", "table"⟩, ⟨"c", "table"⟩]
        [⟨"a", "table"⟩, ⟨"c", "b"⟩] = .ok p ∧ IsTowers p.start ∧ IsTowers p.goal := by
  obtain ⟨p, hp⟩ : ∃ p, Problem.ofFacts [⟨"a", "b"⟩, ⟨"b", "table"⟩, ⟨"c", "table"⟩]
      [⟨"a", "table"⟩, ⟨"c", "b"⟩] = .ok p := ⟨_, rfl⟩
  obtain ⟨hstart, -, -, -, hgoal⟩ := ofFacts_isTowers_iff hp
  refine ⟨p, hp, hstart, hgoal.mpr ?_⟩
  intro f hf block hb
  cases hp
  have hentry : (block, Place.on f.on) ∈ [("a", Place.on "b"), ("b", .table), ("c", .table)] :=
    OrderedMap.mem_entries_iff.mpr hb
  obtain ⟨rfl, -⟩ : block = "a" ∧ f.on = "b" := by simpa using hentry
  exact ⟨_, List.mem_cons_self, rfl⟩

/-- The block `a` stays on `b`, where `c` has to go. -/
theorem ofFacts_shared_support :
    ∃ p, Problem.ofFacts [⟨"a", "b"⟩, ⟨"b", "table"⟩, ⟨"c", "table"⟩] [⟨"c", "b"⟩] = .ok p ∧
      IsTowers p.start ∧ ¬ IsTowers p.goal := by
  obtain ⟨p, hp⟩ : ∃ p, Problem.ofFacts [⟨"a", "b"⟩, ⟨"b", "table"⟩, ⟨"c", "table"⟩]
      [⟨"c", "b"⟩] = .ok p := ⟨_, rfl⟩
  refine ⟨p, hp, (isTowers_and_isGrounded_of_ofFacts hp).1, fun htowers => ?_⟩
  cases hp
  have heq : "a" = "c" := htowers.unshared rfl rfl
  exact absurd heq (by decide)

end TaskNetwork.Blocks
