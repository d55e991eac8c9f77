import TaskNetwork.Baxter.Problem
import TaskNetwork.OrderedMap.Lemmas

/-!
# Consistent swap states

A slot has room for one block, and only if a block started there. Picking a block up from a slot
trades the block for the room, and placing one trades the room for the block, so all reachable
states are consistent with the start.
-/

namespace TaskNetwork.Baxter

/-! ## What the operators do -/

/-- A free hand picks a block up from a place in its reach. -/
structure PicksUp (s : State) (block : String) (loc : Location) (hand : Hand) (s' : State) :
    Prop where
  isHere : s.pos.get? block = some loc
  reach : loc = .center ∨ loc = hand.slot
  empty : s.holding hand = none
  pos' : s'.pos = s.pos.insert block (.held hand)
  holding' (h : Hand) : s'.holding h = if h = hand then some block else s.holding h
  vacated' (slot : Location) :
    s'.vacated.contains slot = (s.vacated.contains slot || loc.isSlot && slot == loc)

/-- A hand places its block at the center, or in its slot if this is vacated. -/
structure Places (s : State) (block : String) (dest : Location) (hand : Hand) (s' : State) :
    Prop where
  held : s.pos.get? block = some (.held hand)
  isFree : dest = .center ∨ dest = hand.slot ∧ s.vacated.contains dest = true
  pos' : s'.pos = s.pos.insert block dest
  holding' (h : Hand) : s'.holding h = if h = hand then none else s.holding h
  vacated' (slot : Location) :
    s'.vacated.contains slot = (s.vacated.contains slot && !(dest.isSlot && slot == dest))

theorem Hand.isSlot_slot (hand : Hand) : hand.slot.isSlot = true := by
  cases hand <;> rfl

theorem Hand.slot_ne_held (hand h : Hand) : hand.slot ≠ .held h := by
  cases hand <;> exact nofun

theorem PicksUp.not_held {s s' : State} {block : String} {loc : Location} {hand : Hand}
    (hp : PicksUp s block loc hand s') (h : Hand) : loc ≠ .held h := by
  rcases hp.reach with rfl | rfl
  · simp
  · exact hand.slot_ne_held h

theorem Places.not_held {s s' : State} {block : String} {dest : Location} {hand : Hand}
    (hp : Places s block dest hand s') (h : Hand) : dest ≠ .held h := by
  rcases hp.isFree with rfl | ⟨rfl, -⟩
  · simp
  · exact hand.slot_ne_held h

theorem State.holding_setHolding (s : State) (hand h : Hand) (block : Option String) :
    (s.setHolding hand block).holding h = if h = hand then block else s.holding h := by
  cases hand <;> cases h <;> rfl

theorem State.pos_setHolding (s : State) (hand : Hand) (block : Option String) :
    (s.setHolding hand block).pos = s.pos := by
  cases hand <;> rfl

theorem State.vacated_setHolding (s : State) (hand : Hand) (block : Option String) :
    (s.setHolding hand block).vacated = s.vacated := by
  cases hand <;> rfl

theorem picksUp_takeUp {s : State} {block : String} {loc : Location} {hand : Hand}
    (hpos : s.pos.get? block = some loc) (hreach : loc = .center ∨ loc = hand.slot)
    (hempty : s.holding hand = none) : PicksUp s block loc hand (s.takeUp block loc hand) where
  isHere := hpos
  reach := hreach
  empty := hempty
  pos' := State.pos_setHolding ..
  holding' h := by
    rw [State.takeUp, State.holding_setHolding]
    cases h <;> rfl
  vacated' slot := by
    rw [State.takeUp, State.vacated_setHolding]
    cases hslot : loc.isSlot with
    | true => simp [OrderedSet.add, OrderedMap.contains_insert, Bool.or_comm]
    | false => simp

theorem picksUp_of_pickup {s s' : State} {args : List Arg} (h : pickup s args = .ok s') :
    ∃ block loc hand, args = [.block block, .hand hand] ∧ PicksUp s block loc hand s' := by
  unfold pickup at h
  split at h
  · rename_i block hand
    split at h
    · cases h
    · rename_i loc hpos
      split at h
      · cases h
      · rename_i hreach
        split at h
        · cases h
        · rename_i hempty
          cases h
          refine ⟨block, loc, hand, rfl, picksUp_takeUp hpos ?_ ?_⟩
          · exact Decidable.or_iff_not_not_and_not.mpr hreach
          · simpa using hempty
  · cases h

theorem places_of_place {s s' : State} {args : List Arg} (h : place s args = .ok s') :
    ∃ block dest hand, args = [.block block, .location dest, .hand hand] ∧
      Places s block dest hand s' := by
  unfold place at h
  split at h
  · rename_i block dest hand
    split at h
    · cases h
    · rename_i hheld
      split at h
      · cases h
        refine ⟨block, .center, hand, rfl, Decidable.not_not.mp hheld, Or.inl rfl,
          State.pos_setHolding .., fun h => ?_, fun slot => ?_⟩
        · rw [State.putDown, State.holding_setHolding]
          cases h <;> rfl
        · rw [State.putDown, State.vacated_setHolding]
          simp [Location.isSlot]
      · cases h
      · split at h
        · cases h
        · rename_i hslot
          split at h
          · cases h
          · rename_i hvacated
            cases h
            have hslot : dest = hand.slot := Decidable.not_not.mp hslot
            refine ⟨block, dest, hand, rfl, Decidable.not_not.mp hheld,
              Or.inr ⟨hslot, by simpa using hvacated⟩, State.pos_setHolding .., fun h => ?_,
              fun slot => ?_⟩
            · rw [State.putDown, State.holding_setHolding]
              cases h <;> rfl
            · rw [State.putDown, State.vacated_setHolding, hslot, hand.isSlot_slot]
              simp [OrderedMap.contains_erase]
  · cases h

/-! ## Consistency is kept -/

theorem Problem.countAt_insert (pos : OrderedMap String Location) (block : String)
    (loc slot : Location) :
    Problem.countAt (pos.insert block loc) slot + (if pos.get? block = some slot then 1 else 0) =
      Problem.countAt pos slot + (if loc = slot then 1 else 0) :=
  OrderedMap.count_values_insert pos block loc slot

namespace State.IsConsistent

variable {s s' : State} {start : OrderedMap String Location} {block : String}
  {loc dest : Location} {hand : Hand}

theorem contains_iff (h : s.IsConsistent start) (b : String) :
    s.pos.contains b = start.contains b := by
  rw [Bool.eq_iff_iff, ← OrderedMap.mem_keys_iff, ← OrderedMap.mem_keys_iff, h.known]

section

variable (h : s.IsConsistent start) (hp : PicksUp s block loc hand s')

include h hp

theorem holding_picksUp (b : String) (h' : Hand) :
    s'.holding h' = some b ↔ s'.pos.get? b = some (.held h') := by
  rw [hp.holding', hp.pos', OrderedMap.get?_insert]
  by_cases hb : b = block
  · subst hb
    have hfree : s.holding h' ≠ some b := by
      rw [Ne, h.holding, hp.isHere, Option.some.injEq]
      exact hp.not_held h'
    by_cases hh : h' = hand
    · simp [hh]
    · simp [hh, Ne.symm hh, hfree]
  · by_cases hh : h' = hand
    · subst hh
      simp [hb, Ne.symm hb, ← h.holding, hp.empty]
    · simp [hb, hh, h.holding]

theorem room_picksUp {slot : Location} (hslot : slot.isSlot = true) :
    Problem.countAt s'.pos slot + (if s'.vacated.contains slot then 1 else 0) =
      Problem.countAt start slot := by
  have hcount := Problem.countAt_insert s.pos block (.held hand) slot
  have hroom := h.room hslot
  have hsingle := h.single hslot
  have hne : Location.held hand ≠ slot := by
    rintro rfl
    cases hslot
  rw [hp.isHere, if_neg hne] at hcount
  rw [hp.pos', hp.vacated']
  by_cases hhere : slot = loc
  · subst hhere
    simp only [if_true] at hcount
    simp only [hslot, beq_self_eq_true, Bool.and_self, Bool.or_true, if_true]
    omega
  · simp only [Option.some.injEq, Ne.symm hhere, if_false] at hcount
    simp only [beq_eq_false_iff_ne.mpr hhere, Bool.and_false, Bool.or_false]
    omega

theorem picksUp : s'.IsConsistent start where
  known := by
    rw [hp.pos', OrderedMap.keys_insert (Option.isSome_iff_exists.mpr ⟨_, hp.isHere⟩), h.known]
  holding := h.holding_picksUp hp _ _
  vacated hloc := by
    rw [hp.vacated', Bool.or_eq_true, Bool.and_eq_true, beq_iff_eq] at hloc
    rcases hloc with hloc | ⟨hslot, rfl⟩
    · exact h.vacated hloc
    · exact hslot
  room := h.room_picksUp hp
  single := h.single

end

section

variable (h : s.IsConsistent start) (hp : Places s block dest hand s')

include h hp

theorem holding_places (b : String) (h' : Hand) :
    s'.holding h' = some b ↔ s'.pos.get? b = some (.held h') := by
  rw [hp.holding', hp.pos', OrderedMap.get?_insert]
  by_cases hb : b = block
  · subst hb
    by_cases hh : h' = hand
    · simp [hh, hp.not_held]
    · have hfree : s.holding h' ≠ some b := by
        rw [Ne, h.holding, hp.held, Option.some.injEq, Location.held.injEq]
        exact Ne.symm hh
      simp [hh, hp.not_held, hfree]
  · by_cases hh : h' = hand
    · subst hh
      simp [hb, ← h.holding, h.holding.mpr hp.held, Ne.symm hb]
    · simp [hb, hh, h.holding]

theorem room_places {slot : Location} (hslot : slot.isSlot = true) :
    Problem.countAt s'.pos slot + (if s'.vacated.contains slot then 1 else 0) =
      Problem.countAt start slot := by
  have hcount := Problem.countAt_insert s.pos block dest slot
  have hroom := h.room hslot
  have hne : Location.held hand ≠ slot := by
    rintro rfl
    cases hslot
  simp only [hp.held, Option.some.injEq, hne, if_false] at hcount
  rw [hp.pos', hp.vacated']
  by_cases hdest : slot = dest
  · subst hdest
    rcases hp.isFree with rfl | ⟨-, hvacated⟩
    · cases hslot
    · simp only [if_true] at hcount
      simp only [hvacated, if_true] at hroom
      simp only [hslot, beq_self_eq_true, Bool.and_self, Bool.not_true, Bool.and_false,
        Bool.false_eq_true, if_false]
      omega
  · simp only [Ne.symm hdest, if_false] at hcount
    simp only [beq_eq_false_iff_ne.mpr hdest, Bool.and_false, Bool.not_false, Bool.and_true]
    omega

theorem places : s'.IsConsistent start where
  known := by
    rw [hp.pos', OrderedMap.keys_insert (Option.isSome_iff_exists.mpr ⟨_, hp.held⟩), h.known]
  holding := h.holding_places hp _ _
  vacated hloc := by
    rw [hp.vacated', Bool.and_eq_true] at hloc
    exact h.vacated hloc.1
  room := h.room_places hp
  single := h.single

end

theorem apply {op : Operator State Arg} {args : List Arg} (h : s.IsConsistent start)
    (hop : op ∈ operators) (ha : op.apply s args = .ok s') : s'.IsConsistent start := by
  simp only [operators, List.mem_cons, List.not_mem_nil, or_false] at hop
  rcases hop with rfl | rfl
  · obtain ⟨block, loc, hand, -, hp⟩ := picksUp_of_pickup ha
    exact h.picksUp hp
  · obtain ⟨block, dest, hand, -, hp⟩ := places_of_place ha
    exact h.places hp

end State.IsConsistent

/-! ## Room in the slots -/

theorem Problem.countAt_pos_iff {pos : OrderedMap String Location} {loc : Location} :
    0 < Problem.countAt pos loc ↔ ∃ b, pos.get? b = some loc :=
  OrderedMap.count_values_pos_iff

namespace State.IsConsistent

variable {s : State} {start : OrderedMap String Location} {b b' : String} {slot : Location}

theorem not_vacated (h : s.IsConsistent start) (hslot : slot.isSlot = true)
    (hb : s.pos.get? b = some slot) : s.vacated.contains slot = false := by
  have hroom := h.room hslot
  have hsingle := h.single hslot
  have hcount := Problem.countAt_pos_iff.mpr ⟨b, hb⟩
  cases hvacated : s.vacated.contains slot with
  | false => rfl
  | true =>
      rw [hvacated, if_pos rfl] at hroom
      omega

/-- A slot in which a block started has a block unless it is vacated. -/
theorem exists_at (h : s.IsConsistent start) (hslot : slot.isSlot = true)
    (hb : start.get? b = some slot) (hvacated : s.vacated.contains slot = false) :
    ∃ b', s.pos.get? b' = some slot := by
  have hroom := h.room hslot
  have hcount := Problem.countAt_pos_iff.mpr ⟨b, hb⟩
  rw [hvacated, if_neg Bool.false_ne_true] at hroom
  exact Problem.countAt_pos_iff.mp (by omega)

theorem exists_start (h : s.IsConsistent start) (hslot : slot.isSlot = true)
    (hb : s.pos.get? b = some slot) : ∃ b', start.get? b' = some slot := by
  have hroom := h.room hslot
  have hcount := Problem.countAt_pos_iff.mpr ⟨b, hb⟩
  exact Problem.countAt_pos_iff.mp (by omega)

theorem eq_of_at (h : s.IsConsistent start) (hslot : slot.isSlot = true)
    (hb : s.pos.get? b = some slot) (hb' : s.pos.get? b' = some slot) : b = b' := by
  have hroom := h.room hslot
  have hsingle := h.single hslot
  exact OrderedMap.eq_of_count_values_le_one (v := slot) (by rw [← Problem.countAt]; omega) hb hb'

theorem eq_of_start (h : s.IsConsistent start) (hslot : slot.isSlot = true)
    (hb : start.get? b = some slot) (hb' : start.get? b' = some slot) : b = b' :=
  OrderedMap.eq_of_count_values_le_one (h.single hslot) hb hb'

end State.IsConsistent

/-! ## Accepted problems -/

namespace Problem

variable {start : OrderedMap String Location} {goal : Goal} {p : Problem} {s : State}

/-- What `create` checks. -/
structure IsAccepted (p : Problem) : Prop where
  start_not_held (block : String) (hand : Hand) : p.start.get? block ≠ some (.held hand)
  goal_not_held (block : String) (hand : Hand) : p.goal.get? block ≠ some (.held hand)
  single {slot : Location} : slot.isSlot = true → countAt p.start slot ≤ 1
  known {block : String} : p.goal.contains block = true → p.start.contains block = true

theorem not_held_of_blocksInHand {positions : List (String × Location)}
    (h : blocksInHand positions = []) {block : String} {hand : Hand} :
    (block, Location.held hand) ∉ positions := by
  intro hmem
  have hnone := List.filterMap_eq_nil_iff.mp h _ hmem
  cases hnone

theorem isAccepted_of_create (h : create start goal = .ok p) : p.IsAccepted := by
  unfold create at h
  split at h
  · cases h
  · rename_i hhand
    split at h
    · cases h
    · rename_i hshared
      split at h
      · cases h
      · rename_i hknown
        cases h
        refine ⟨fun block hand hb => ?_, fun block hand hb => ?_, fun {slot} hslot => ?_,
          fun {block} hb => ?_⟩
        · exact not_held_of_blocksInHand hhand
            (List.mem_append_left _ (OrderedMap.mem_entries_iff.mpr hb))
        · exact not_held_of_blocksInHand hhand
            (List.mem_append_right _ (OrderedMap.mem_entries_iff.mpr hb))
        · have hmem : slot ∈ [Location.t1, Location.t2] := by
            cases slot <;> simp_all [Location.isSlot]
          simpa using List.find?_eq_none.mp hshared slot hmem
        · simpa using List.find?_eq_none.mp hknown block (OrderedMap.mem_keys_iff.mpr hb)

theorem IsAccepted.isConsistent_start (h : p.IsAccepted) : p.startState.IsConsistent p.start where
  known := rfl
  holding {block hand} := by
    refine iff_of_false ?_ (h.start_not_held block hand)
    cases hand <;> exact nofun
  vacated := nofun
  room _ := rfl
  single := h.single

theorem IsAccepted.isConsistent (h : p.IsAccepted) (hs : p.Reaches s) : s.IsConsistent p.start := by
  induction hs with
  | start => exact h.isConsistent_start
  | apply _ hop ha ih => exact ih.apply hop ha

theorem start_eq_of_create (h : create start goal = .ok p) : p.start = start := by
  unfold create at h
  repeat' split at h
  all_goals cases h
  rfl

/-- Whatever tasks follow one another from the start of an accepted problem, accepted or refused,
what the state says of the blocks that are given agrees, and its slots have the room that they
started with. So no slot gets a second block, a vacated slot is empty, and a slot without a block at
the start stays empty. -/
theorem slots_afterTasks {s : State} (h : create start goal = .ok p) {tasks : List (Task Arg)}
    (hs : afterTasks operators p.world.start tasks = s) :
    s.IsConsistent start ∧
    ∀ slot, slot.isSlot = true →
      countAt s.pos slot ≤ 1 ∧ (s.vacated.contains slot = true → countAt s.pos slot = 0) ∧
      (countAt start slot = 0 → countAt s.pos slot = 0) := by
  have hcons : s.IsConsistent start := by
    rw [← start_eq_of_create h, ← hs]
    exact (isAccepted_of_create h).isConsistent (reachable_afterTasks operators _ tasks)
  refine ⟨hcons, fun slot hslot => ?_⟩
  have hroom := hcons.room hslot
  have hsingle := hcons.single hslot
  refine ⟨by omega, fun hvacated => ?_, fun hnone => by omega⟩
  rw [hvacated, if_pos rfl] at hroom
  omega

/-- The left hand takes `a` out of its slot and parks it, then puts `b` into the slot; it takes `a`
up again, but the slot does not take `a` as well. -/
theorem slots_afterTasks_exchanged :
    ∃ start p s, start = OrderedMap.ofList [("a", Location.t1), ("b", .center)] ∧
      create start ∅ = .ok p ∧
      afterTasks operators p.world.start
        [⟨"pickup", [.block "a", .hand .left]⟩,
          ⟨"place", [.block "a", .location .center, .hand .left]⟩,
          ⟨"pickup", [.block "b", .hand .left]⟩,
          ⟨"place", [.block "b", .location .t1, .hand .left]⟩,
          ⟨"pickup", [.block "a", .hand .left]⟩,
          ⟨"place", [.block "a", .location .t1, .hand .left]⟩] = s ∧
      s.pos.get? "b" = some .t1 ∧ s.holding .left = some "a" ∧
      s.IsConsistent start ∧ countAt s.pos .t1 ≤ 1 := by
  obtain ⟨start, p, hstart, hp⟩ : ∃ start p,
      start = OrderedMap.ofList [("a", Location.t1), ("b", .center)] ∧ create start ∅ = .ok p :=
    ⟨_, _, rfl, rfl⟩
  obtain ⟨hcons, hslots⟩ := slots_afterTasks hp rfl
  refine ⟨start, p, _, hstart, hp, rfl, ?_, ?_, hcons, (hslots .t1 rfl).1⟩
  · cases hstart
    cases hp
    rfl
  · cases hstart
    cases hp
    rfl

end Problem

end TaskNetwork.Baxter
