import Mathlib.Logic.Relation
import TaskNetwork.Proofs.Blocks.MergedGoal

/-!
# Facts that are accepted

Facts are accepted if each has a place for its block, no block is listed twice, no two blocks share
a support, and no block stands on itself over other blocks, in the start and in the merged goal. The
walk along the supports finds every cycle of supports, and nothing else.
-/

namespace TaskNetwork.Blocks

variable {isKnown : String → Bool} {facts : List Fact} {pos pos' : OrderedMap String Place}
  {f : Fact} {place : Place} {block b goal : String} {bound : Nat}

/-! ## Supports -/

/-- The place that a support stands for. -/
def supportPlace (support : String) : Place :=
  if support = tableName then .table else .on support

theorem supportPlace_eq_table {support : String} :
    supportPlace support = .table ↔ support = tableName := by
  rw [supportPlace]
  split <;> simp_all

theorem supportPlace_eq_on {support below : String} :
    supportPlace support = .on below ↔ support = below ∧ below ≠ tableName := by
  rw [supportPlace]
  split
  · rename_i htable
    exact iff_of_false nofun fun ⟨heq, hne⟩ => hne (heq ▸ htable)
  · rename_i hne
    rw [Place.on.injEq]
    exact ⟨fun heq => ⟨heq, heq ▸ hne⟩, And.left⟩

theorem Fact.place_eq_supportPlace (h : f.place isKnown = .ok place) :
    supportPlace f.on = place := by
  rcases (Fact.place_eq_ok.mp h).2 with ⟨htable, rfl⟩ | ⟨hne, -, -, rfl⟩
  · exact if_pos htable
  · exact if_neg hne

/-! ## Positions -/

/-- Facts that agree: each has a place for its block, each block is listed once, and a block is the
support of one block only. -/
structure Agree (isKnown : String → Bool) (facts : List Fact) : Prop where
  place {f : Fact} : f ∈ facts → ∃ place, f.place isKnown = .ok place
  listedOnce : (facts.map Fact.block).Nodup
  unshared {f g : Fact} :
    f ∈ facts → g ∈ facts → f.on = g.on → f.on ≠ tableName → f.block = g.block

theorem exists_addFacts (hplace : ∀ f ∈ facts, ∃ place, f.place isKnown = .ok place)
    (hnodup : (facts.map Fact.block).Nodup) (hnew : ∀ f ∈ facts, pos.contains f.block = false) :
    ∃ pos', addFacts isKnown pos facts = .ok pos' := by
  induction facts generalizing pos with
  | nil => exact ⟨pos, rfl⟩
  | cons f fs ih =>
      obtain ⟨⟨place, hf⟩, hplace⟩ := List.forall_mem_cons.mp hplace
      obtain ⟨hfirst, hnodup⟩ := List.nodup_cons.mp hnodup
      obtain ⟨hfnew, hnew⟩ := List.forall_mem_cons.mp hnew
      have hnew (g : Fact) (hg : g ∈ fs) : (pos.insert f.block place).contains g.block = false := by
        have hne : g.block ≠ f.block := fun heq => hfirst (heq ▸ List.mem_map_of_mem hg)
        simp [OrderedMap.contains_insert, hne, hnew g hg]
      obtain ⟨pos', hadd⟩ := ih hplace hnodup hnew
      exact ⟨pos', addFacts_cons.mpr ⟨place, hf, hfnew, hadd⟩⟩

theorem listedOnce_of_addFacts (h : addFacts isKnown pos facts = .ok pos') :
    (facts.map Fact.block).Nodup ∧ ∀ f ∈ facts, pos.contains f.block = false := by
  induction facts generalizing pos with
  | nil => exact ⟨List.nodup_nil, nofun⟩
  | cons f fs ih =>
      obtain ⟨place, -, hnew, h⟩ := addFacts_cons.mp h
      obtain ⟨hnodup, hrest⟩ := ih h
      simp only [OrderedMap.contains_insert, Bool.or_eq_false_iff, beq_eq_false_iff_ne] at hrest
      refine ⟨List.nodup_cons.mpr ⟨fun hmem => ?_, hnodup⟩, ?_⟩
      · obtain ⟨g, hg, heq⟩ := List.mem_map.mp hmem
        exact (hrest g hg).1 heq
      · exact List.forall_mem_cons.mpr ⟨hnew, fun g hg => (hrest g hg).2⟩

theorem sharedSupport?_eq_none (h : ∀ b b' below, pos.get? b = some (.on below) →
    pos.get? b' = some (.on below) → b = b') : sharedSupport? pos = none := by
  refine List.findSome?_eq_none_iff.mpr fun place _ => ?_
  cases place with
  | table => rfl
  | hand => rfl
  | on below =>
      have hone := OrderedMap.count_values_le_one fun b b' hb hb' => h b b' below hb hb'
      exact if_neg (Nat.not_lt.mpr hone)

theorem Agree.exists_positions (h : Agree isKnown facts) :
    ∃ pos, positions isKnown facts = .ok pos := by
  obtain ⟨pos, hadd⟩ : ∃ pos, addFacts isKnown ∅ facts = .ok pos :=
    exists_addFacts (fun _ => h.place) h.listedOnce fun _ _ => rfl
  refine ⟨pos, bind_eq_ok.mpr ⟨pos, hadd, ?_⟩⟩
  rw [sharedSupport?_eq_none]
  · rfl
  · intro b b' below hb hb'
    rcases (get?_of_addFacts hadd).mp hb with hnone | ⟨f, hf, rfl, hplace⟩
    · cases hnone
    · rcases (get?_of_addFacts hadd).mp hb' with hnone | ⟨g, hg, rfl, hplace'⟩
      · cases hnone
      · obtain ⟨rfl, hne⟩ := Fact.place_on hplace
        exact h.unshared hf hg (Fact.place_on hplace').1.symm hne

theorem get?_iff_of_positions (h : positions isKnown facts = .ok pos) :
    pos.get? block = some place ↔
      ∃ f ∈ facts, f.block = block ∧ supportPlace f.on = place := by
  rw [get?_of_positions h]
  refine exists_congr fun f => and_congr_right fun hf => and_congr_right fun _ => ?_
  obtain ⟨place', hplace⟩ := exists_place_of_addFacts (addFacts_of_positions h) hf
  rw [hplace, Fact.place_eq_supportPlace hplace, Except.ok.injEq]

theorem agree_of_positions (h : positions isKnown facts = .ok pos) : Agree isKnown facts := by
  have hadd := addFacts_of_positions h
  refine ⟨exists_place_of_addFacts hadd, (listedOnce_of_addFacts hadd).1, ?_⟩
  intro f g hf hg hon hne
  have hput := (get?_iff_of_positions h).mpr ⟨f, hf, rfl, supportPlace_eq_on.mpr ⟨hon, hon ▸ hne⟩⟩
  have hput' := (get?_iff_of_positions h).mpr ⟨g, hg, rfl, supportPlace_eq_on.mpr ⟨rfl, hon ▸ hne⟩⟩
  exact (describes_of_positions h).unshared hput hput'

/-- Facts that agree have the positions that they name, and no others. -/
theorem positions_eq_ok_iff : positions isKnown facts = .ok pos ↔
    Agree isKnown facts ∧ ∀ block place, pos.get? block = some place ↔
      ∃ f ∈ facts, f.block = block ∧ supportPlace f.on = place := by
  constructor
  · exact fun h => ⟨agree_of_positions h, fun _ _ => get?_iff_of_positions h⟩
  · rintro ⟨h, hget⟩
    obtain ⟨pos', hpos'⟩ := h.exists_positions
    have hsame : pos = pos' := OrderedMap.ext_get? fun block => Option.ext fun place =>
      (hget block place).trans (get?_iff_of_positions hpos').symm
    exact hsame ▸ hpos'

/-! ## Cycles of supports -/

/-- A block stands, over any number of blocks, on itself. -/
def StandsOnItself (pos : OrderedMap String Place) (block : String) : Prop :=
  Relation.TransGen (StandsOn pos) block block

theorem transGen_of_leadsTo (h : leadsTo pos goal bound block = true) :
    Relation.TransGen (StandsOn pos) block goal := by
  induction bound generalizing block with
  | zero => cases h
  | succ bound ih =>
      rw [leadsTo] at h
      split at h
      · rename_i below hon
        rw [Bool.or_eq_true, decide_eq_true_eq] at h
        rcases h with rfl | h
        · exact .single hon
        · exact .head hon (ih h)
      · cases h

/-- The walk along the supports finds every cycle, and what it finds is one. -/
theorem checkAcyclic_eq_ok_iff :
    checkAcyclic pos = .ok () ↔ ∀ block, ¬ StandsOnItself pos block := by
  constructor
  · intro h block hcycle
    -- Every block above the one on the cycle stands on a block that is above it too.
    refine not_of_checkAcyclic h (P := fun b => Relation.TransGen (StandsOn pos) b block)
      (fun b hb => ?_) block hcycle
    obtain ⟨below, hon, hrest⟩ := Relation.TransGen.head'_iff.mp hb
    refine ⟨below, hon, ?_⟩
    rcases Relation.reflTransGen_iff_eq_or_transGen.mp hrest with rfl | hrest
    · exact hcycle
    · exact hrest
  · intro h
    have hfree : cycle? pos = none :=
      List.find?_eq_none.mpr fun block _ hleads => h block (transGen_of_leadsTo hleads)
    rw [checkAcyclic, hfree]

theorem exists_of_checkAcyclic_error {e : ProblemError} (h : checkAcyclic pos = .error e) :
    ∃ block, e = .supportCycle block ∧ StandsOnItself pos block := by
  rw [checkAcyclic] at h
  split at h
  · rename_i block hfind
    cases h
    have hleads : leadsTo pos block pos.size block = true := by
      simpa using List.find?_some hfind
    exact ⟨block, rfl, transGen_of_leadsTo hleads⟩
  · cases h

theorem Grounded.not_standsOnItself (h : Grounded pos b) : ¬ StandsOnItself pos b := by
  induction h with
  | table hb =>
      intro hcycle
      obtain ⟨below, hon, -⟩ := Relation.TransGen.head'_iff.mp hcycle
      cases hb.symm.trans hon
  | on hb _ ih =>
      intro hcycle
      obtain ⟨below, hon, hrest⟩ := Relation.TransGen.head'_iff.mp hcycle
      cases hb.symm.trans hon
      -- The block below is on the cycle too.
      exact ih (.tail' hrest hb)

theorem checkAcyclic_eq_ok (h : ∀ b, pos.contains b = true → Grounded pos b) :
    checkAcyclic pos = .ok () := by
  refine checkAcyclic_eq_ok_iff.mpr fun b hcycle => ?_
  obtain ⟨below, hon, -⟩ := Relation.TransGen.head'_iff.mp hcycle
  exact (h b (Option.isSome_iff_exists.mpr ⟨_, hon⟩)).not_standsOnItself hcycle

/-! ## Problems -/

theorem Problem.ofFacts_eq_ok {start goal : List Fact} {startPos goalPos : OrderedMap String Place}
    (hstart : positions (fun name => start.any fun f => f.block == name) start = .ok startPos)
    (hgoal : positions startPos.contains goal = .ok goalPos)
    (hgrounded : ∀ b, startPos.contains b = true → Grounded startPos b)
    (hgrounded' : ∀ b, (startPos.insertAll goalPos.toList).contains b = true →
      Grounded (startPos.insertAll goalPos.toList) b) :
    Problem.ofFacts start goal = .ok ⟨startPos, startPos.insertAll goalPos.toList⟩ :=
  bind_eq_ok.mpr ⟨startPos, hstart, bind_eq_ok.mpr ⟨goalPos, hgoal,
    bind_eq_ok.mpr ⟨(), checkAcyclic_eq_ok hgrounded,
      bind_eq_ok.mpr ⟨(), checkAcyclic_eq_ok hgrounded', rfl⟩⟩⟩⟩

end TaskNetwork.Blocks
