import Mathlib.Data.List.Pairwise
import TaskNetwork.Proofs.Blocks.Acceptance

/-!
# Facts that describe towers

The start facts of a problem are accepted exactly if they describe towers, whatever the height of
the towers and the order of the facts. What facts describe does not depend on their order either, so
neither does the problem.
-/

namespace TaskNetwork.Blocks

variable {isKnown : String → Bool} {facts facts' : List Fact} {pos : OrderedMap String Place}
  {f g : Fact} {block : String}

/-! ## The order of facts -/

theorem Agree.perm (h : Agree isKnown facts) (hperm : facts.Perm facts') :
    Agree isKnown facts' where
  place hf := h.place (hperm.mem_iff.mpr hf)
  listedOnce := (hperm.map Fact.block).nodup_iff.mp h.listedOnce
  unshared hf hg := h.unshared (hperm.mem_iff.mpr hf) (hperm.mem_iff.mpr hg)

theorem positions_of_perm (hperm : facts.Perm facts') (h : positions isKnown facts = .ok pos) :
    positions isKnown facts' = .ok pos := by
  obtain ⟨hagree, hget⟩ := positions_eq_ok_iff.mp h
  refine positions_eq_ok_iff.mpr ⟨hagree.perm hperm, fun block place => ?_⟩
  rw [hget]
  exact exists_congr fun f => and_congr_left fun _ => hperm.mem_iff

theorem Problem.ofFacts_of_perm {start start' goal goal' : List Fact} {p : Problem}
    (hstart : start.Perm start') (hgoal : goal.Perm goal') (h : ofFacts start goal = .ok p) :
    ofFacts start' goal' = .ok p := by
  obtain ⟨startPos, hs, h⟩ := bind_eq_ok.mp h
  obtain ⟨goalPos, hg, h⟩ := bind_eq_ok.mp h
  have hknown : (fun name => start.any fun f => f.block == name) =
      fun name => start'.any fun f => f.block == name := funext fun _ => hstart.any_eq
  exact bind_eq_ok.mpr ⟨startPos, hknown ▸ positions_of_perm hstart hs,
    bind_eq_ok.mpr ⟨goalPos, positions_of_perm hgoal hg, h⟩⟩

/-- The facts of the start and those of the goal may come in any order: they are accepted in one
order exactly if they are in the other, with the same start state and the same goal. -/
theorem Problem.ofFacts_perm {start start' goal goal' : List Fact} (hstart : start.Perm start')
    (hgoal : goal.Perm goal') :
    ((∃ p, ofFacts start goal = .ok p) ↔ ∃ p, ofFacts start' goal' = .ok p) ∧
      ∀ p p', ofFacts start goal = .ok p → ofFacts start' goal' = .ok p' →
        p.startState = p'.startState ∧ p.goal = p'.goal := by
  refine ⟨⟨fun ⟨p, hp⟩ => ⟨p, ofFacts_of_perm hstart hgoal hp⟩,
    fun ⟨p, hp⟩ => ⟨p, ofFacts_of_perm hstart.symm hgoal.symm hp⟩⟩, fun p p' hp hp' => ?_⟩
  obtain rfl := Except.ok.inj ((ofFacts_of_perm hstart hgoal hp).symm.trans hp')
  exact ⟨rfl, rfl⟩

/-- The support of `a` is listed after `a` or before it, and `a` leaves it before or after `c` takes
the place. -/
theorem Problem.ofFacts_perm_replacing :
    ∃ p p', List.Perm [Fact.mk "a" "b", ⟨"b", "table"⟩, ⟨"c", "table"⟩]
        [⟨"c", "table"⟩, ⟨"b", "table"⟩, ⟨"a", "b"⟩] ∧
      List.Perm [Fact.mk "a" "table", ⟨"c", "b"⟩] [⟨"c", "b"⟩, ⟨"a", "table"⟩] ∧
      ofFacts [⟨"a", "b"⟩, ⟨"b", "table"⟩, ⟨"c", "table"⟩] [⟨"a", "table"⟩, ⟨"c", "b"⟩] = .ok p ∧
      ofFacts [⟨"c", "table"⟩, ⟨"b", "table"⟩, ⟨"a", "b"⟩] [⟨"c", "b"⟩, ⟨"a", "table"⟩] = .ok p' ∧
      p.startState = p'.startState ∧ p.goal = p'.goal := by
  have hstart : List.Perm [Fact.mk "a" "b", ⟨"b", "table"⟩, ⟨"c", "table"⟩]
      [⟨"c", "table"⟩, ⟨"b", "table"⟩, ⟨"a", "b"⟩] := by decide
  have hgoal : List.Perm [Fact.mk "a" "table", ⟨"c", "b"⟩] [⟨"c", "b"⟩, ⟨"a", "table"⟩] := by
    decide
  obtain ⟨p, hp⟩ : ∃ p, ofFacts [⟨"a", "b"⟩, ⟨"b", "table"⟩, ⟨"c", "table"⟩]
      [⟨"a", "table"⟩, ⟨"c", "b"⟩] = .ok p := ⟨_, rfl⟩
  obtain ⟨hiff, hsame⟩ := ofFacts_perm hstart hgoal
  obtain ⟨p', hp'⟩ := hiff.mp ⟨p, hp⟩
  exact ⟨p, p', hstart, hgoal, hp, hp', hsame p p' hp hp'⟩

/-! ## Start facts -/

/-- The supports that facts name lead from a block to the table. The name of the table as a support
always means the table, even if a block has it. -/
inductive LeadsToTable (facts : List Fact) : String → Prop where
  | table {f : Fact} : f ∈ facts → f.on = tableName → LeadsToTable facts f.block
  | on {f : Fact} :
      f ∈ facts → f.on ≠ tableName → LeadsToTable facts f.on → LeadsToTable facts f.block

/-- Facts that describe towers on the table. -/
structure DescribeTowers (facts : List Fact) : Prop where
  listedOnce : (facts.map Fact.block).Nodup
  support {f : Fact} :
    f ∈ facts → f.on = tableName ∨ f.on ≠ f.block ∧ f.on ∈ facts.map Fact.block
  unshared : facts.Pairwise fun f g => f.on = g.on → f.on = tableName
  grounded {f : Fact} : f ∈ facts → LeadsToTable facts f.block

theorem DescribeTowers.support_eq (h : DescribeTowers facts) (hf : f ∈ facts) (hg : g ∈ facts)
    (hon : f.on = g.on) (hne : f.on ≠ tableName) : f = g := by
  have : Std.Symm fun f g : Fact => f.on = g.on → f.on = tableName :=
    ⟨fun _ _ hfg heq => heq.trans (hfg heq.symm)⟩
  by_contra hdiff
  exact hne (h.unshared.forall hf hg hdiff hon)

theorem grounded_iff_leadsToTable (h : positions isKnown facts = .ok pos) :
    Grounded pos block ↔ LeadsToTable facts block := by
  constructor
  · intro hg
    induction hg with
    | table hb =>
        obtain ⟨f, hf, rfl, hplace⟩ := (get?_iff_of_positions h).mp hb
        exact .table hf (supportPlace_eq_table.mp hplace)
    | on hb _ ih =>
        obtain ⟨f, hf, rfl, hplace⟩ := (get?_iff_of_positions h).mp hb
        obtain ⟨rfl, hne⟩ := supportPlace_eq_on.mp hplace
        exact .on hf hne ih
  · intro hl
    induction hl with
    | table hf htable =>
        exact .table ((get?_iff_of_positions h).mpr ⟨_, hf, rfl, supportPlace_eq_table.mpr htable⟩)
    | on hf hne _ ih =>
        exact .on ((get?_iff_of_positions h).mpr
          ⟨_, hf, rfl, supportPlace_eq_on.mpr ⟨rfl, hne⟩⟩) ih

theorem describeTowers_of_ofFacts {p : Problem} (h : Problem.ofFacts facts [] = .ok p) :
    DescribeTowers facts := by
  obtain ⟨goalPos, hmade⟩ := exists_isMade_of_ofFacts h
  have hagree := agree_of_positions hmade.start_eq
  obtain ⟨htowers, -⟩ := isTowers_and_isGrounded_of_ofFacts h
  refine ⟨hagree.listedOnce, fun {f} hf => ?_, ?_, fun {f} hf => ?_⟩
  · obtain ⟨place, hplace⟩ := hagree.place hf
    refine (Fact.place_eq_ok.mp hplace).2.imp And.left fun ⟨_, hself, hknown, _⟩ => ⟨hself, ?_⟩
    simpa using hknown
  · refine (hagree.listedOnce.of_map Fact.block).pairwise_of_forall_ne fun f hf g hg hdiff hon => ?_
    by_contra hne
    have hblock := hagree.unshared hf hg hon hne
    exact hdiff (List.inj_on_of_nodup_map hagree.listedOnce hf hg hblock)
  · refine (grounded_iff_leadsToTable hmade.start_eq).mp (htowers.grounded ?_)
    rw [(describes_of_positions hmade.start_eq).contains]
    exact List.any_eq_true.mpr ⟨f, hf, beq_self_eq_true _⟩

theorem DescribeTowers.exists_ofFacts (h : DescribeTowers facts) :
    ∃ p, Problem.ofFacts facts [] = .ok p := by
  have hknown {name : String} : name ∈ facts.map Fact.block ↔
      (facts.any fun f => f.block == name) = true := by simp
  have hplace (f : Fact) (hf : f ∈ facts) :
      ∃ place, f.place (fun name => facts.any fun f => f.block == name) = .ok place := by
    have hblock := hknown.mp (List.mem_map_of_mem hf)
    by_cases htable : f.on = tableName
    · exact ⟨_, Fact.place_eq_ok.mpr ⟨hblock, .inl ⟨htable, rfl⟩⟩⟩
    · obtain ⟨hself, hon⟩ := (h.support hf).resolve_left htable
      exact ⟨_, Fact.place_eq_ok.mpr ⟨hblock, .inr ⟨htable, hself, hknown.mp hon, rfl⟩⟩⟩
  obtain ⟨pos, hpos⟩ := Agree.exists_positions ⟨hplace _, h.listedOnce,
    fun hf hg hon hne => congrArg Fact.block (h.support_eq hf hg hon hne)⟩
  have hgrounded (b : String) (hb : pos.contains b = true) : Grounded pos b := by
    rw [(describes_of_positions hpos).contains] at hb
    obtain ⟨f, hf, heq⟩ := List.any_eq_true.mp hb
    obtain rfl := eq_of_beq heq
    exact (grounded_iff_leadsToTable hpos).mpr (h.grounded hf)
  have hgoal : positions pos.contains [] = .ok ∅ := rfl
  exact ⟨_, Problem.ofFacts_eq_ok hpos hgoal hgrounded hgrounded⟩

/-- Start facts are accepted exactly if they describe towers. In whatever positions, the walk along
the supports accepts those without a cycle of supports, of any length, and names a block on a cycle
where it finds one. -/
theorem ofFacts_nil_eq_ok_iff (facts : List Fact) :
    ((∃ p, Problem.ofFacts facts [] = .ok p) ↔ DescribeTowers facts) ∧
      ∀ pos, (checkAcyclic pos = .ok () ↔ ∀ block, ¬ StandsOnItself pos block) ∧
        ∀ e, checkAcyclic pos = .error e → ∃ block, e = .supportCycle block ∧
          StandsOnItself pos block :=
  ⟨⟨fun ⟨_, hp⟩ => describeTowers_of_ofFacts hp, DescribeTowers.exists_ofFacts⟩,
    fun _ => ⟨checkAcyclic_eq_ok_iff, fun _ => exists_of_checkAcyclic_error⟩⟩

end TaskNetwork.Blocks
