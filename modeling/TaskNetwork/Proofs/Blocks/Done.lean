import Mathlib.Logic.Relation
import TaskNetwork.Blocks.Domain
import TaskNetwork.Proofs.Blocks.Invariant

/-!
# Done blocks

A block is done exactly if its tower, from the block down to the table, has no block that the goal
wants elsewhere; the bound on the walk down never decides. Moving a block that is not done leaves
the done ones done.
-/

namespace TaskNetwork.Blocks

variable {s s' : State} {goal : Goal} {pos pos' : OrderedMap String Place} {b below : String}
  {tower tower' : List String}

/-! ## Towers from a block down -/

/-- The blocks from one down to the table. -/
inductive Tower (pos : OrderedMap String Place) : String → List String → Prop where
  | table {b : String} : pos.get? b = some .table → Tower pos b [b]
  | on {b below : String} {tower : List String} :
      pos.get? b = some (.on below) → Tower pos below tower → Tower pos b (b :: tower)

namespace Tower

theorem unique (h : Tower pos b tower) (h' : Tower pos b tower') : tower = tower' := by
  induction h generalizing tower' with
  | table hb =>
      cases h' with
      | table _ => rfl
      | on hb' _ => simp [hb] at hb'
  | on hb _ ih =>
      cases h' with
      | table hb' => simp [hb] at hb'
      | on hb' h' =>
          simp only [hb, Option.some.injEq, Place.on.injEq] at hb'
          subst hb'
          rw [ih h']

/-- The tower of a block in a tower is the part from there down. -/
theorem of_mem (h : Tower pos b tower) {x : String} (hx : x ∈ tower) :
    ∃ part, Tower pos x part ∧ part <:+ tower := by
  induction h with
  | table hb =>
      rw [List.mem_singleton] at hx
      subst hx
      exact ⟨_, .table hb, List.suffix_refl _⟩
  | on hb h ih =>
      rcases List.mem_cons.mp hx with rfl | hx
      · exact ⟨_, .on hb h, List.suffix_refl _⟩
      · obtain ⟨part, hpart, hsuffix⟩ := ih hx
        exact ⟨part, hpart, hsuffix.trans (List.suffix_cons ..)⟩

theorem nodup (h : Tower pos b tower) : tower.Nodup := by
  induction h with
  | table _ => exact List.nodup_singleton _
  | on hb h ih =>
      refine List.nodup_cons.mpr ⟨fun hmem => ?_, ih⟩
      obtain ⟨part, hpart, hsuffix⟩ := h.of_mem hmem
      have hle := hsuffix.length_le
      rw [hpart.unique (.on hb h), List.length_cons] at hle
      exact Nat.not_succ_le_self _ hle

theorem contains (h : Tower pos b tower) {x : String} (hx : x ∈ tower) :
    pos.contains x = true := by
  obtain ⟨part, hpart, -⟩ := h.of_mem hx
  cases hpart with
  | table hx => exact Option.isSome_iff_exists.mpr ⟨_, hx⟩
  | on hx _ => exact Option.isSome_iff_exists.mpr ⟨_, hx⟩

theorem length_le (h : Tower pos b tower) : tower.length ≤ pos.size := by
  have hle := h.nodup.length_le_of_subset fun x hx => OrderedMap.mem_keys_iff.mpr (h.contains hx)
  rwa [OrderedMap.keys, List.length_map] at hle

theorem congr (h : Tower pos b tower) (hsame : ∀ x ∈ tower, pos'.get? x = pos.get? x) :
    Tower pos' b tower := by
  induction h with
  | table hb => exact .table ((hsame _ List.mem_cons_self).trans hb)
  | on hb _ ih =>
      exact .on ((hsame _ List.mem_cons_self).trans hb)
        (ih fun x hx => hsame x (List.mem_cons_of_mem _ hx))

theorem mem_self (h : Tower pos b tower) : b ∈ tower := by
  cases h with
  | table _ => exact List.mem_cons_self
  | on _ _ => exact List.mem_cons_self

end Tower

theorem Tower.grounded (h : Tower pos b tower) : Grounded pos b := by
  induction h with
  | table hb => exact .table hb
  | on hb _ ih => exact .on hb ih

/-- A tower has the blocks that one gets to by going down from support to support. -/
theorem Tower.mem_iff (h : Tower pos b tower) {x : String} :
    x ∈ tower ↔ Relation.ReflTransGen (StandsOn pos) b x := by
  induction h with
  | @table b hb =>
      refine ⟨fun hx => List.mem_singleton.mp hx ▸ .refl, fun hx => List.mem_singleton.mpr ?_⟩
      rcases hx.cases_head with rfl | ⟨below, hon, -⟩
      · rfl
      · have hon : pos.get? b = some (.on below) := hon
        simp [hb] at hon
  | @on b below tower hb _ ih =>
      rw [List.mem_cons, Relation.ReflTransGen.cases_head_iff, ih, eq_comm]
      refine or_congr_right ⟨fun hx => ⟨below, hb, hx⟩, ?_⟩
      rintro ⟨below', hon, hx⟩
      have hon : pos.get? b = some (.on below') := hon
      rw [hb, Option.some.injEq, Place.on.injEq] at hon
      exact hon ▸ hx

theorem Grounded.exists_tower (h : Grounded pos b) : ∃ tower, Tower pos b tower := by
  induction h with
  | table hb => exact ⟨_, .table hb⟩
  | on hb _ ih =>
      obtain ⟨tower, htower⟩ := ih
      exact ⟨_, .on hb htower⟩

/-- What holds of a block if it holds of all blocks on it holds of every block in a tower. -/
theorem Grounded.induction_above {P : String → Prop} (h : Grounded pos b)
    (step : ∀ x, (∀ above, pos.get? above = some (.on x) → P above) → P x) : P b := by
  obtain ⟨tower, htower⟩ := h.exists_tower
  induction hn : pos.size - tower.length using Nat.strongRecOn generalizing b tower with
  | ind n ih =>
      refine step b fun above habove => ?_
      have hon : Tower pos above (above :: tower) := .on habove htower
      have hlt : pos.size - (above :: tower).length < n := by
        have hle := hon.length_le
        rw [List.length_cons] at hle ⊢
        omega
      exact ih _ hlt (.on habove h) _ hon rfl

/-! ## Done blocks -/

theorem isDoneWithin_iff {bound : Nat} :
    isDoneWithin s goal bound b = true ↔ ∃ tower, Tower s.pos b tower ∧ tower.length ≤ bound ∧
      ∀ x ∈ tower, contradicts goal x (s.pos.get? x) = false := by
  induction bound generalizing b with
  | zero =>
      refine iff_of_false nofun ?_
      rintro ⟨tower, htower, hl, -⟩
      exact absurd (List.length_pos_of_mem htower.mem_self) (Nat.not_lt.mpr hl)
  | succ bound ih =>
      rw [isDoneWithin, Bool.and_eq_true, Bool.not_eq_true']
      constructor
      · rintro ⟨hwanted, hdown⟩
        split at hdown
        · rename_i below hb
          obtain ⟨tower, htower, hl, hall⟩ := ih.mp hdown
          exact ⟨b :: tower, .on hb htower, Nat.succ_le_succ hl,
            List.forall_mem_cons.mpr ⟨hwanted, hall⟩⟩
        · rename_i hb
          exact ⟨[b], .table hb, Nat.succ_le_succ (Nat.zero_le _), by simpa using hwanted⟩
        · cases hdown
      · rintro ⟨tower, htower, hl, hall⟩
        refine ⟨hall b htower.mem_self, ?_⟩
        cases htower with
        | table hb => rw [hb]
        | on hb htower =>
            rw [hb]
            exact ih.mpr ⟨_, htower, Nat.le_of_succ_le_succ hl, fun x hx =>
              hall x (List.mem_cons_of_mem _ hx)⟩

theorem isDone_iff : isDone s goal b = true ↔ ∃ tower, Tower s.pos b tower ∧
    ∀ x ∈ tower, contradicts goal x (s.pos.get? x) = false := by
  rw [isDone, isDoneWithin_iff]
  refine exists_congr fun tower => and_congr_right fun htower => and_iff_right ?_
  exact Nat.le_succ_of_le htower.length_le

theorem not_contradicts_of_isDone (h : isDone s goal b = true) :
    contradicts goal b (s.pos.get? b) = false := by
  obtain ⟨tower, htower, hall⟩ := isDone_iff.mp h
  exact hall b htower.mem_self

theorem not_contradicts_iff {here : Option Place} :
    contradicts goal b here = false ↔ ∀ place, goal.get? b = some place → here = some place := by
  rw [contradicts]
  cases goal.get? b with
  | none => exact iff_of_true rfl nofun
  | some target => simp

theorem eq_of_not_contradicts {here : Option Place} {place : Place}
    (h : contradicts goal b here = false) (hb : goal.get? b = some place) : here = some place :=
  not_contradicts_iff.mp h place hb

theorem isDone_of_mem {x : String} (htower : Tower s.pos b tower)
    (hall : ∀ x ∈ tower, contradicts goal x (s.pos.get? x) = false) (hx : x ∈ tower) :
    isDone s goal x = true := by
  obtain ⟨part, hpart, hsuffix⟩ := htower.of_mem hx
  exact isDone_iff.mpr ⟨part, hpart, fun y hy => hall y (hsuffix.subset hy)⟩

theorem isDone_below (h : isDone s goal b = true) (hb : s.pos.get? b = some (.on below)) :
    isDone s goal below = true := by
  obtain ⟨tower, htower, hall⟩ := isDone_iff.mp h
  cases htower with
  | table hb' => simp [hb] at hb'
  | on hb' hrest =>
      rw [hb, Option.some.injEq, Place.on.injEq] at hb'
      subst hb'
      exact isDone_of_mem (.on hb hrest) hall (List.mem_cons_of_mem _ hrest.mem_self)

theorem isDone_of_table (hb : s.pos.get? b = some .table)
    (hwanted : contradicts goal b (some .table) = false) : isDone s goal b = true :=
  isDone_iff.mpr ⟨[b], .table hb, by simpa [hb] using hwanted⟩

theorem isDone_of_on (hb : s.pos.get? b = some (.on below))
    (hwanted : contradicts goal b (some (.on below)) = false)
    (hbelow : isDone s goal below = true) : isDone s goal b = true := by
  obtain ⟨tower, htower, hall⟩ := isDone_iff.mp hbelow
  exact isDone_iff.mpr ⟨b :: tower, .on hb htower, List.forall_mem_cons.mpr ⟨hb ▸ hwanted, hall⟩⟩

/-- A done block stays done while a block that is not done moves. -/
theorem isDone_of_move {block : String} (hsame : ∀ x, x ≠ block → s'.pos.get? x = s.pos.get? x)
    (hblock : isDone s goal block = false) (h : isDone s goal b = true) :
    isDone s' goal b = true := by
  obtain ⟨tower, htower, hall⟩ := isDone_iff.mp h
  have hpos (x : String) (hx : x ∈ tower) : s'.pos.get? x = s.pos.get? x := by
    refine hsame x fun heq => ?_
    have hdone := isDone_of_mem htower hall (heq ▸ hx)
    simp [hblock] at hdone
  exact isDone_iff.mpr ⟨tower, htower.congr hpos, fun x hx => (hpos x hx).symm ▸ hall x hx⟩

/-- The walk down a tower is right in every state, whether or not it is consistent, and for every
goal: a block is done exactly if its supports lead to the table and the block and all its supports
are where the goal wants them, if it lists them. A bound as large as the number of blocks does not
matter. -/
theorem isDone_correct (s : State) (goal : Goal) (b : String) :
    (isDone s goal b = true ↔ Grounded s.pos b ∧
      ∀ x place, Relation.ReflTransGen (StandsOn s.pos) b x → goal.get? x = some place →
        s.pos.get? x = some place) ∧
    ∀ bound, s.pos.size ≤ bound → isDoneWithin s goal bound b = isDone s goal b := by
  constructor
  · rw [isDone_iff]
    constructor
    · rintro ⟨tower, htower, hall⟩
      refine ⟨htower.grounded, fun x place hx => ?_⟩
      exact not_contradicts_iff.mp (hall x (htower.mem_iff.mpr hx)) place
    · rintro ⟨hgrounded, hall⟩
      obtain ⟨tower, htower⟩ := hgrounded.exists_tower
      refine ⟨tower, htower, fun x hx => not_contradicts_iff.mpr fun place => ?_⟩
      exact hall x place (htower.mem_iff.mp hx)
  · intro bound hbound
    rw [Bool.eq_iff_iff, isDoneWithin_iff, isDone_iff]
    -- A tower has each of its blocks once, so it is no longer than the bound.
    refine exists_congr fun tower => and_congr_right fun htower => and_iff_right ?_
    exact Nat.le_trans htower.length_le hbound

/-- A tower of all three blocks of a state is walked down to the table, and blocks that stand on
each other are walked round until the bound. -/
theorem isDone_correct_circle :
    ∃ tower circle : State,
      tower.pos = .ofList [("a", .on "b"), ("b", .on "c"), ("c", .table)] ∧
      isDone tower (.ofList [("b", .on "c"), ("d", .table)]) "a" = true ∧
      Grounded tower.pos "a" ∧
      isDoneWithin tower (.ofList [("b", .on "c"), ("d", .table)]) 3 "a" = true ∧
      circle.pos = .ofList [("a", .on "b"), ("b", .on "a")] ∧ isDone circle ∅ "a" = false ∧
      isDoneWithin circle ∅ 1000 "a" = false := by
  refine ⟨.ofPositions "tower" (.ofList [("a", .on "b"), ("b", .on "c"), ("c", .table)]),
    .ofPositions "circle" (.ofList [("a", .on "b"), ("b", .on "a")]), rfl, ?_⟩
  have htower : isDone (.ofPositions "tower" (.ofList [("a", .on "b"), ("b", .on "c"),
    ("c", .table)])) (.ofList [("b", .on "c"), ("d", .table)]) "a" = true := by decide
  have hcircle : isDone (.ofPositions "circle" (.ofList [("a", .on "b"), ("b", .on "a")])) ∅ "a" =
    false := by decide
  refine ⟨htower, ((isDone_correct _ _ _).1.mp htower).1, ?_, rfl, hcircle, ?_⟩
  · exact ((isDone_correct _ _ _).2 3 (by decide)).trans htower
  · exact ((isDone_correct _ _ _).2 1000 (by decide)).trans hcircle

end TaskNetwork.Blocks
