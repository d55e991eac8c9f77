import TaskNetwork.Proofs.Blocks.Towers

/-!
# Consistent blocks states

Each operator either takes a clear block up with the empty hand, or puts the held block down on the
table or on a clear block. Both keep a state consistent, so all reachable states are.
-/

namespace TaskNetwork.Blocks

/-! ## What the operators do -/

/-- A clear block is taken up from `here` by the empty hand. -/
structure TakesUp (s : State) (block : String) (here : Place) (s' : State) : Prop where
  empty : s.holding = none
  clear : s.isClear block = true
  isHere : s.pos.get? block = some here
  pos' : s'.pos = s.pos.insert block .hand
  holding' : s'.holding = some block
  keys' : s'.clear.keys = s.clear.keys
  clear' {b : String} : s.clear.contains b = true →
    (s'.isClear b = true ↔ here = .on b ∨ b ≠ block ∧ s.isClear b = true)

/-- The held block is put down at `place`: the table or a clear block. -/
structure PutsDown (s : State) (block : String) (place : Place) (s' : State) : Prop where
  held : s.pos.get? block = some .hand
  isPlace : place = .table ∨ ∃ below, place = .on below ∧ s.isClear below = true
  pos' : s'.pos = s.pos.insert block place
  holding' : s'.holding = none
  keys' : s'.clear.keys = s.clear.keys
  clear' {b : String} : s.clear.contains b = true →
    (s'.isClear b = true ↔ place ≠ .on b ∧ (b = block ∨ s.isClear b = true))

theorem isClear_move {s : State} {b : String} (h : s.clear.contains b = true) (block : String)
    (place : Place) (clear : Bool) (holding : Option String) :
    (s.move block place clear holding).isClear b = if b = block then clear else s.isClear b := by
  simp only [State.isClear, State.move, OrderedMap.get?_replace, Bool.and_eq_true, beq_iff_eq]
  by_cases hb : b = block
  · subst hb
    simp [h]
  · simp [hb]

theorem isClear_setClear {s : State} {b : String} (h : s.clear.contains b = true) (block : String)
    (clear : Bool) :
    (s.setClear block clear).isClear b = if b = block then clear else s.isClear b := by
  simp only [State.isClear, State.setClear, OrderedMap.get?_replace, Bool.and_eq_true, beq_iff_eq]
  by_cases hb : b = block
  · subst hb
    simp [h]
  · simp [hb]

theorem isClear_setClear_move {s : State} {b : String} (h : s.clear.contains b = true)
    (block : String) (place : Place) (clear : Bool) (holding : Option String) (below : String)
    (clear' : Bool) :
    ((s.move block place clear holding).setClear below clear').isClear b =
      if b = below then clear' else if b = block then clear else s.isClear b := by
  rw [isClear_setClear ((OrderedMap.contains_replace ..).trans h), isClear_move h]

theorem contains_of_isClear {s : State} {b : String} (h : s.isClear b = true) :
    s.clear.contains b = true := by
  rw [State.isClear] at h
  rw [OrderedMap.contains]
  cases hb : s.clear.get? b with
  | none => simp [hb] at h
  | some flag => rfl

theorem TakesUp.get?_pos {s s' : State} {block : String} {here : Place}
    (ht : TakesUp s block here s') (b : String) :
    s'.pos.get? b = if b = block then some .hand else s.pos.get? b := by
  simp [ht.pos', OrderedMap.get?_insert]

theorem TakesUp.of_on {s s' : State} {block b below : String} {here : Place}
    (ht : TakesUp s block here s') (hb : s'.pos.get? b = some (.on below)) :
    b ≠ block ∧ s.pos.get? b = some (.on below) := by
  rw [ht.get?_pos] at hb
  split at hb
  · cases hb
  · exact ⟨‹_›, hb⟩

theorem PutsDown.get?_pos {s s' : State} {block : String} {place : Place}
    (hp : PutsDown s block place s') (b : String) :
    s'.pos.get? b = if b = block then some place else s.pos.get? b := by
  simp [hp.pos', OrderedMap.get?_insert]

theorem PutsDown.of_on {s s' : State} {block b below : String} {place : Place}
    (hp : PutsDown s block place s') (hb : s'.pos.get? b = some (.on below)) :
    b = block ∧ place = .on below ∨ b ≠ block ∧ s.pos.get? b = some (.on below) := by
  rw [hp.get?_pos] at hb
  split at hb
  · exact Or.inl ⟨‹_›, Option.some.inj hb⟩
  · exact Or.inr ⟨‹_›, hb⟩

theorem takesUp_of_pickup {s s' : State} {args : List Arg} (h : pickup s args = .ok s') :
    ∃ block, args = [.block block] ∧ TakesUp s block .table s' := by
  unfold pickup at h
  split at h
  · rename_i block
    split at h
    · cases h
    · rename_i hpre
      cases h
      simp only [not_or, Decidable.not_not, Bool.not_eq_true', Bool.not_eq_false,
        Option.not_isSome_iff_eq_none] at hpre
      obtain ⟨hpos, hclear, hempty⟩ := hpre
      refine ⟨block, rfl, hempty, hclear, hpos, rfl, rfl, OrderedMap.keys_replace ..,
        fun {b} hb => ?_⟩
      rw [isClear_move hb]
      by_cases hbb : b = block
      · simp [hbb]
      · simp [hbb]
  · cases h

theorem takesUp_of_unstack {s s' : State} {args : List Arg} (h : unstack s args = .ok s') :
    ∃ block below, args = [.block block, .block below] ∧ TakesUp s block (.on below) s' := by
  unfold unstack at h
  split at h
  · rename_i block below
    split at h
    · cases h
    · rename_i hpre
      cases h
      simp only [not_or, Decidable.not_not, Bool.not_eq_true', Bool.not_eq_false,
        Option.not_isSome_iff_eq_none] at hpre
      obtain ⟨hpos, hclear, hempty⟩ := hpre
      refine ⟨block, below, rfl, hempty, hclear, hpos, rfl, rfl, ?_, fun {b} hb => ?_⟩
      · exact (OrderedMap.keys_replace ..).trans (OrderedMap.keys_replace ..)
      · rw [isClear_setClear_move hb]
        by_cases hbelow : b = below
        · simp [hbelow]
        · simp [hbelow, Ne.symm hbelow]
  · cases h

theorem putsDown_of_putdown {s s' : State} {args : List Arg} (h : putdown s args = .ok s') :
    ∃ block, args = [.block block] ∧ PutsDown s block .table s' := by
  unfold putdown at h
  split at h
  · rename_i block
    split at h
    · cases h
    · rename_i hpos
      cases h
      refine ⟨block, rfl, Decidable.not_not.mp hpos, Or.inl rfl, rfl, rfl,
        OrderedMap.keys_replace .., fun {b} hb => ?_⟩
      rw [isClear_move hb]
      by_cases hbb : b = block
      · simp [hbb]
      · simp [hbb]
  · cases h

theorem putsDown_of_stack {s s' : State} {args : List Arg} (h : stack s args = .ok s') :
    ∃ block below, args = [.block block, .block below] ∧ PutsDown s block (.on below) s' := by
  unfold stack at h
  split at h
  · rename_i block below
    split at h
    · cases h
    · rename_i hpre
      cases h
      simp only [not_or, Decidable.not_not, Bool.not_eq_true', Bool.not_eq_false] at hpre
      obtain ⟨hpos, hclear⟩ := hpre
      refine ⟨block, below, rfl, hpos, Or.inr ⟨below, rfl, hclear⟩, rfl, rfl, ?_, fun {b} hb => ?_⟩
      · exact (OrderedMap.keys_replace ..).trans (OrderedMap.keys_replace ..)
      · rw [isClear_setClear_move hb]
        by_cases hbelow : b = below
        · simp [hbelow]
        · simp [hbelow, Ne.symm hbelow]
  · cases h

/-- Each operator takes a block up or puts one down. -/
theorem takesUp_or_putsDown {s s' : State} {op : Operator State Arg} {args : List Arg}
    (hop : op ∈ operators) (h : op.apply s args = .ok s') :
    (∃ block here, TakesUp s block here s') ∨ ∃ block place, PutsDown s block place s' := by
  simp only [operators, List.mem_cons, List.not_mem_nil, or_false] at hop
  rcases hop with rfl | rfl | rfl | rfl
  · obtain ⟨block, -, ht⟩ := takesUp_of_pickup h
    exact Or.inl ⟨block, _, ht⟩
  · obtain ⟨block, below, -, ht⟩ := takesUp_of_unstack h
    exact Or.inl ⟨block, _, ht⟩
  · obtain ⟨block, -, hp⟩ := putsDown_of_putdown h
    exact Or.inr ⟨block, _, hp⟩
  · obtain ⟨block, below, -, hp⟩ := putsDown_of_stack h
    exact Or.inr ⟨block, _, hp⟩

/-! ## Consistency is kept -/

theorem Grounded.ne_hand {pos : OrderedMap String Place} {b : String} (h : Grounded pos b) :
    pos.get? b ≠ some .hand := by
  cases h with
  | table hb => simp [hb]
  | on hb _ => simp [hb]

theorem Grounded.contains {pos : OrderedMap String Place} {b : String} (h : Grounded pos b) :
    pos.contains b = true := by
  cases h with
  | table hb => exact Option.isSome_iff_exists.mpr ⟨_, hb⟩
  | on hb _ => exact Option.isSome_iff_exists.mpr ⟨_, hb⟩

theorem IsTowers.ne_hand {pos : OrderedMap String Place} (h : IsTowers pos) (b : String) :
    pos.get? b ≠ some .hand := by
  intro hb
  exact (h.grounded (Option.isSome_iff_exists.mpr ⟨_, hb⟩)).ne_hand hb

/-- A change at one block keeps the supports of the others, if none of them stands on it. -/
theorem Grounded.insert {pos : OrderedMap String Place} {block : String}
    (hbare : ∀ above, pos.get? above ≠ some (.on block)) (place : Place) {b : String}
    (h : Grounded pos b) (hne : b ≠ block) : Grounded (pos.insert block place) b := by
  induction h with
  | @table b hb => exact .table (by simpa [OrderedMap.get?_insert, hne] using hb)
  | @on b below hb _ ih =>
      refine .on (by simpa [OrderedMap.get?_insert, hne] using hb) (ih ?_)
      rintro rfl
      exact hbare b hb

namespace State.IsConsistent

variable {s s' : State} {blocks : List String} {block : String}

theorem mem_iff (h : s.IsConsistent blocks) {b : String} :
    b ∈ blocks ↔ s.pos.contains b = true := by
  rw [← h.known, OrderedMap.mem_keys_iff]

theorem mem_of_pos (h : s.IsConsistent blocks) {b : String} {place : Place}
    (hb : s.pos.get? b = some place) : b ∈ blocks :=
  h.mem_iff.mpr (Option.isSome_iff_exists.mpr ⟨place, hb⟩)

theorem contains_clear (h : s.IsConsistent blocks) {b : String} (hb : b ∈ blocks) :
    s.clear.contains b = true :=
  OrderedMap.mem_keys_iff.mp (h.known_clear ▸ hb)

theorem bare_of_clear (h : s.IsConsistent blocks) {b : String} (hb : s.isClear b = true)
    (above : String) : s.pos.get? above ≠ some (.on b) :=
  ((h.clear (h.known_clear ▸ OrderedMap.mem_keys_iff.mpr (contains_of_isClear hb))).mp hb).2 above

/-- Nobody stands on the held block. -/
theorem bare_of_held (h : s.IsConsistent blocks) {b : String} (hb : s.holding = some b)
    (above : String) : s.pos.get? above ≠ some (.on b) := by
  intro habove
  exact (h.support habove).2.2 hb

section

variable {here : Place} (h : s.IsConsistent blocks) (ht : TakesUp s block here s')

include h ht

theorem clear_takesUp {b : String} (hb : b ∈ blocks) : s'.isClear b = true ↔
    s'.holding ≠ some b ∧ ∀ above, s'.pos.get? above ≠ some (.on b) := by
  rw [ht.clear' (h.contains_clear hb), ht.holding', ne_eq (some block), Option.some.injEq]
  constructor
  · rintro (rfl | ⟨hne, hclear⟩)
    · refine ⟨Ne.symm (h.support ht.isHere).2.1, fun above habove => ?_⟩
      obtain ⟨hne, habove⟩ := ht.of_on habove
      exact hne (h.unshared habove ht.isHere)
    · exact ⟨Ne.symm hne, fun above habove => h.bare_of_clear hclear above (ht.of_on habove).2⟩
  · rintro ⟨hne, hall⟩
    by_cases hhere : here = .on b
    · exact Or.inl hhere
    · refine Or.inr ⟨Ne.symm hne, (h.clear hb).mpr ⟨by simp [ht.empty], fun above habove => ?_⟩⟩
      by_cases hab : above = block
      · rw [hab, ht.isHere, Option.some.injEq] at habove
        exact hhere habove
      · exact hall above (by rw [ht.get?_pos, if_neg hab, habove])

theorem takesUp : s'.IsConsistent blocks := by
  have hbare := h.bare_of_clear ht.clear
  refine ⟨?_, ht.keys'.trans h.known_clear, fun {b} => ?_, fun {b below} hb => ?_,
    fun hb hb' => h.unshared (ht.of_on hb).2 (ht.of_on hb').2, h.clear_takesUp ht,
    fun {b} hb => ?_⟩
  · rw [ht.pos', OrderedMap.keys_insert (h.mem_iff.mp (h.mem_of_pos ht.isHere)), h.known]
  · rw [ht.holding', ht.get?_pos]
    by_cases hbb : b = block
    · simp [hbb]
    · simp [hbb, Ne.symm hbb, ← h.holding, ht.empty]
  · obtain ⟨-, hb⟩ := ht.of_on hb
    refine ⟨(h.support hb).1, (h.support hb).2.1, fun heq => hbare b ?_⟩
    rw [ht.holding', Option.some.injEq] at heq
    rw [heq, hb]
  · by_cases hbb : b = block
    · exact Or.inr (hbb ▸ ht.holding')
    · rcases h.ends hb with hg | heq
      · exact Or.inl (ht.pos' ▸ hg.insert hbare .hand hbb)
      · simp [ht.empty] at heq

end

section

variable {place : Place} (h : s.IsConsistent blocks) (hp : PutsDown s block place s')

include h hp

theorem below_putsDown {below : String} (heq : place = .on below) :
    s.isClear below = true ∧ below ∈ blocks ∧ below ≠ block := by
  rcases hp.isPlace with rfl | ⟨below', rfl, hclear⟩
  · cases heq
  · cases heq
    have hmem : below ∈ blocks :=
      h.known_clear ▸ OrderedMap.mem_keys_iff.mpr (contains_of_isClear hclear)
    refine ⟨hclear, hmem, fun hbb => ?_⟩
    exact ((h.clear hmem).mp hclear).1 (hbb ▸ h.holding.mpr hp.held)

theorem clear_putsDown {b : String} (hb : b ∈ blocks) : s'.isClear b = true ↔
    s'.holding ≠ some b ∧ ∀ above, s'.pos.get? above ≠ some (.on b) := by
  have hheld : s.holding = some block := h.holding.mpr hp.held
  rw [hp.clear' (h.contains_clear hb), hp.holding']
  constructor
  · rintro ⟨hplace, hclear⟩
    refine ⟨by simp, fun above habove => ?_⟩
    rcases hp.of_on habove with ⟨-, heq⟩ | ⟨-, habove⟩
    · exact hplace heq
    · rcases hclear with rfl | hclear
      · exact h.bare_of_held hheld above habove
      · exact h.bare_of_clear hclear above habove
  · rintro ⟨-, hall⟩
    refine ⟨fun heq => hall block (by rw [hp.get?_pos, if_pos rfl, heq]), ?_⟩
    by_cases hbb : b = block
    · exact Or.inl hbb
    · refine Or.inr ((h.clear hb).mpr ⟨by simp [hheld, Ne.symm hbb], fun above habove => ?_⟩)
      refine hall above ?_
      rw [hp.get?_pos, if_neg, habove]
      rintro rfl
      simp [hp.held] at habove

theorem grounded_putsDown {b : String} (hb : b ∈ blocks) : Grounded s'.pos b := by
  have hheld : s.holding = some block := h.holding.mpr hp.held
  have hkept {b : String} (hb : b ∈ blocks) (hbb : b ≠ block) : Grounded s'.pos b := by
    rcases h.ends hb with hg | heq
    · exact hp.pos' ▸ hg.insert (h.bare_of_held hheld) place hbb
    · rw [hheld, Option.some.injEq] at heq
      exact absurd heq.symm hbb
  by_cases hbb : b = block
  · subst hbb
    rcases hp.isPlace with rfl | ⟨below, rfl, -⟩
    · exact .table (by rw [hp.get?_pos, if_pos rfl])
    · obtain ⟨-, hmem, hne⟩ := h.below_putsDown hp rfl
      exact .on (by rw [hp.get?_pos, if_pos rfl]) (hkept hmem hne)
  · exact hkept hb hbb

theorem putsDown : s'.IsConsistent blocks := by
  have hheld : s.holding = some block := h.holding.mpr hp.held
  refine ⟨?_, hp.keys'.trans h.known_clear, fun {b} => ?_, fun {b below} hb => ?_,
    fun {b b' below} hb hb' => ?_, h.clear_putsDown hp,
    fun hb => Or.inl (h.grounded_putsDown hp hb)⟩
  · rw [hp.pos', OrderedMap.keys_insert (h.mem_iff.mp (h.mem_of_pos hp.held)), h.known]
  · rw [hp.holding', hp.get?_pos]
    by_cases hbb : b = block
    · rcases hp.isPlace with rfl | ⟨below, rfl, -⟩ <;> simp [hbb]
    · simp [hbb, Ne.symm hbb, ← h.holding, hheld]
  · rw [hp.holding']
    rcases hp.of_on hb with ⟨rfl, hplace⟩ | ⟨-, hb⟩
    · obtain ⟨-, hmem, hne⟩ := h.below_putsDown hp hplace
      exact ⟨hmem, hne, by simp⟩
    · exact ⟨(h.support hb).1, (h.support hb).2.1, by simp⟩
  · rcases hp.of_on hb with ⟨rfl, hplace⟩ | ⟨-, hb⟩
    · rcases hp.of_on hb' with ⟨rfl, -⟩ | ⟨-, hb'⟩
      · rfl
      · exact absurd hb' (h.bare_of_clear (h.below_putsDown hp hplace).1 b')
    · rcases hp.of_on hb' with ⟨rfl, hplace⟩ | ⟨-, hb'⟩
      · exact absurd hb (h.bare_of_clear (h.below_putsDown hp hplace).1 b)
      · exact h.unshared hb hb'

end

theorem apply {op : Operator State Arg} {args : List Arg} (h : s.IsConsistent blocks)
    (hop : op ∈ operators) (ha : op.apply s args = .ok s') : s'.IsConsistent blocks := by
  rcases takesUp_or_putsDown hop ha with ⟨_, _, ht⟩ | ⟨_, _, hp⟩
  · exact h.takesUp ht
  · exact h.putsDown hp

theorem ofPositions {pos : OrderedMap String Place} (h : IsTowers pos)
    (name : String) :
    (State.ofPositions name pos).IsConsistent pos.keys := by
  refine ⟨rfl, OrderedMap.keys_mapValues .., fun {b} => ?_, fun {b below} hb => ?_, h.unshared,
    fun {b} hb => ?_, fun hb => Or.inl (h.grounded (OrderedMap.mem_keys_iff.mp hb))⟩
  · exact iff_of_false nofun (h.ne_hand b)
  · exact ⟨OrderedMap.mem_keys_iff.mpr (h.support hb).1, (h.support hb).2, nofun⟩
  · obtain ⟨place, hplace⟩ := Option.isSome_iff_exists.mp (OrderedMap.mem_keys_iff.mp hb)
    have hclear : (State.ofPositions name pos).isClear b = !pos.values.contains (.on b) := by
      simp [State.isClear, State.ofPositions, OrderedMap.get?_mapValues, hplace]
    rw [hclear, Bool.not_eq_true', ← Bool.not_eq_true, List.contains_iff_mem,
      OrderedMap.mem_values_iff, not_exists]
    exact (and_iff_right nofun).symm

end State.IsConsistent

/-! ## Reachable states -/

theorem Problem.Reaches.isConsistent {start goal : List Fact} {p : Problem} {s : State}
    (hp : Problem.ofFacts start goal = .ok p) (h : p.Reaches s) : s.IsConsistent p.start.keys := by
  obtain ⟨htowers, -⟩ := isTowers_and_isGrounded_of_ofFacts hp
  induction h with
  | start => exact .ofPositions htowers _
  | apply _ hop ha ih => exact ih.apply hop ha

/-- The blocks of an accepted problem are those of its start facts, and whatever tasks follow one
another from the start, accepted or refused, what the state says of these blocks agrees. -/
theorem Problem.consistent_afterTasks {start goal : List Fact} {p : Problem}
    (hp : Problem.ofFacts start goal = .ok p) (tasks : List (Task Arg)) :
    (∀ block, block ∈ p.start.keys ↔ ∃ f ∈ start, f.block = block) ∧
      (afterTasks operators p.world.start tasks).IsConsistent p.start.keys := by
  obtain ⟨goalPos, hmade⟩ := exists_isMade_of_ofFacts hp
  refine ⟨fun block => ?_, Reaches.isConsistent hp (reachable_afterTasks operators _ tasks)⟩
  rw [OrderedMap.mem_keys_iff, (describes_of_positions hmade.start_eq).contains, List.any_eq_true]
  simp only [beq_iff_eq]

/-- The block `a` is taken off `b`; the hand does not take `b` as well, and does not put `a` on
itself. -/
theorem Problem.consistent_afterTasks_held :
    ∃ p s, Problem.ofFacts [⟨"b", "table"⟩, ⟨"a", "b"⟩] [] = .ok p ∧
      afterTasks operators p.world.start
        [⟨"unstack", [.block "a", .block "b"]⟩, ⟨"pickup", [.block "b"]⟩,
          ⟨"stack", [.block "a", .block "a"]⟩] = s ∧
      s.holding = some "a" ∧ s.isClear "b" = true ∧ s.IsConsistent ["a", "b"] := by
  obtain ⟨p, hp, hkeys⟩ : ∃ p, Problem.ofFacts [⟨"b", "table"⟩, ⟨"a", "b"⟩] [] = .ok p ∧
      p.start.keys = ["a", "b"] := ⟨_, rfl, rfl⟩
  refine ⟨p, _, hp, rfl, ?_, ?_, hkeys ▸ (consistent_afterTasks hp _).2⟩
  · cases hp
    rfl
  · cases hp
    rfl

end TaskNetwork.Blocks
