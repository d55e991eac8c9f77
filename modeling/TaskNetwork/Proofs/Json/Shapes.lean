import Mathlib.Algebra.Group.Nat.Defs
import Mathlib.Data.List.Nodup
import TaskNetwork.OrderedMap.Lemmas
import TaskNetwork.Proofs.Json.Scanning

/-!
# Canonical values of a shape

The values that are written for a type of some shape. How deep their brackets nest is bounded by the
shape.
-/

namespace TaskNetwork.Json

variable {α β : Type}

/-! ## Lists that are mapped to themselves -/

theorem mapM_eq_pure_of_zip {m : Type → Type} [Monad m] [LawfulMonad m] {f : α → m β}
    {xs : List α} {ys : List β} (hlength : ys.length = xs.length)
    (h : ∀ p ∈ xs.zip ys, f p.1 = pure p.2) : xs.mapM f = pure ys := by
  induction xs generalizing ys with
  | nil =>
      rw [List.eq_nil_of_length_eq_zero hlength]
      exact List.mapM_nil
  | cons x xs ih =>
      cases ys with
      | nil => cases hlength
      | cons y ys =>
          have hrest := ih (Nat.succ.inj hlength) fun p hp => h p (List.mem_cons_of_mem _ hp)
          rw [List.mapM_cons, h (x, y) List.mem_cons_self, pure_bind, hrest, pure_bind]

theorem mem_zip_self {xs : List α} {p : α × α} (h : p ∈ xs.zip xs) :
    p.1 ∈ xs ∧ p.1 = p.2 := by
  induction xs with
  | nil => cases h
  | cons x xs ih =>
      rcases List.mem_cons.mp h with rfl | h
      · exact ⟨List.mem_cons_self, rfl⟩
      · exact (ih h).imp_left (List.mem_cons_of_mem x)

theorem mapM_eq_pure_self {m : Type → Type} [Monad m] [LawfulMonad m] {f : α → m α} {xs : List α}
    (h : ∀ x ∈ xs, f x = pure x) : xs.mapM f = pure xs := by
  refine mapM_eq_pure_of_zip rfl fun p hp => ?_
  obtain ⟨hmem, heq⟩ := mem_zip_self hp
  rw [h p.1 hmem, heq]

theorem lookup_map (f : α → β) (es : List (String × α)) (k : String) :
    (es.map fun e => (e.1, f e.2)).lookup k = (es.lookup k).map f := by
  induction es with
  | nil => rfl
  | cons e es ih =>
      rw [List.map_cons, List.lookup_cons, List.lookup_cons, ih]
      cases k == e.1 <;> rfl

theorem lookup_eq_none {es : List (String × α)} {k : String} (h : k ∉ es.map (·.1)) :
    es.lookup k = none := by
  refine List.lookup_eq_none_iff.mpr fun e he => bne_iff_ne.mpr fun heq => h ?_
  exact List.mem_map.mpr ⟨e, he, heq.symm⟩

/-! ## Members of a record -/

/-- The field of a member, where the members come in the order of the fields. -/
theorem exists_field {fields : List (String × α)} {before after : List (String × β)}
    {m : String × β} (h : (before ++ m :: after).map (·.1) = fields.map (·.1)) :
    ∃ before' f after', fields = before' ++ f :: after' ∧
      before'.map (·.1) = before.map (·.1) ∧ f.1 = m.1 ∧
        (f, m) ∈ fields.zip (before ++ m :: after) := by
  rw [List.map_append, List.map_cons] at h
  obtain ⟨before', rest, rfl, hbefore, hrest⟩ := List.map_eq_append_iff.mp h.symm
  obtain ⟨f, after', rfl, hf, -⟩ := List.map_eq_cons_iff.mp hrest
  have hlength : before'.length = before.length := by
    simpa using congrArg List.length hbefore
  refine ⟨before', f, after', rfl, hbefore, hf, ?_⟩
  rw [List.zip_append hlength]
  exact List.mem_append_right _ List.mem_cons_self

theorem fst_eq_of_mem_zip {fields : List (String × α)} {members : List (String × β)}
    (h : members.map (·.1) = fields.map (·.1)) {p : (String × α) × (String × β)}
    (hp : p ∈ fields.zip members) : p.1.1 = p.2.1 := by
  induction fields generalizing members with
  | nil => cases hp
  | cons f fields ih =>
      cases members with
      | nil => cases hp
      | cons m members =>
          rw [List.map_cons, List.map_cons] at h
          rcases List.mem_cons.mp hp with rfl | hp
          · exact (List.head_eq_of_cons_eq h).symm
          · exact ih (List.tail_eq_of_cons_eq h) hp

theorem Fits.mono {room room' : Nat} {j : Json} (h : Fits room j)
    (hle : room ≤ room') : Fits room' j := by
  induction h generalizing room' with
  | null _ => exact .null _
  | bool _ b => exact .bool _ b
  | number _ hlow hhigh => exact .number _ hlow hhigh
  | text _ s => exact .text _ s
  | list _ ih =>
      obtain ⟨n, rfl⟩ := Nat.exists_eq_add_of_le' (Nat.le_trans (Nat.le_add_left 1 _) hle)
      exact .list fun item hi => ih item hi (Nat.le_of_succ_le_succ hle)
  | object _ ih =>
      obtain ⟨n, rfl⟩ := Nat.exists_eq_add_of_le' (Nat.le_trans (Nat.le_add_left 1 _) hle)
      exact .object fun m hm => ih m hm (Nat.le_of_succ_le_succ hle)

namespace Schema

/-! ## Canonical values -/

/-- The canonical values of a shape. -/
inductive Holds : Schema → Json → Prop where
  | text (s : String) : Holds .text (.text s)
  | word {bits n : Nat} : n < 2 ^ bits → bits ≤ 64 → Holds (.word bits) (.ofNat n)
  | bool (b : Bool) : Holds .bool (.bool b)
  | null (s : Schema) : Holds (.option s) .null
  | some {s : Schema} {j : Json} : Holds s j → j ≠ .null → Holds (.option s) j
  | list {s : Schema} {items : List Json} :
      (∀ item ∈ items, Holds s item) → Holds (.list s) (.list items)
  | map {s : Schema} {entries : OrderedMap String Json} :
      (∀ e ∈ entries.toList, Holds s e.2) → Holds (.map s) (.object entries.toList)
  /-- All fields are there, in their order. -/
  | record {fields : List (String × Schema)} {members : List (String × Json)} :
      (fields.map (·.1)).Nodup → members.map (·.1) = fields.map (·.1) →
        (∀ p ∈ fields.zip members, Holds p.1.2 p.2.2) → Holds (.record fields) (.object members)
  /-- The tag comes first. -/
  | tagged {tag name : String} {variants : List (String × Schema)} {s : Schema}
      {members : List (String × Json)} :
      variants.lookup name = Option.some s → (∀ m ∈ members, m.1 ≠ tag) →
        Holds s (.object members) →
          Holds (.tagged tag variants) (.object ((tag, .text name) :: members))
  | plain {plain : List String} {wrapped : List (String × Schema)} {name : String} :
      plain.contains name = true → Holds (.choice plain wrapped) (.text name)
  | wrapped {plain : List String} {wrapped : List (String × Schema)} {name : String} {s : Schema}
      {j : Json} : plain.contains name = false → wrapped.lookup name = Option.some s → Holds s j →
        Holds (.choice plain wrapped) (.object [(name, j)])

/-! ## Nesting -/

mutual

/-- How many brackets may be open at once in a canonical value. -/
def nesting : Schema → Nat
  | .text => 0
  | .word _ => 0
  | .bool => 0
  | .option s => s.nesting
  | .list s => s.nesting + 1
  | .map s => s.nesting + 1
  | .record fields => nestingOfAll fields + 1
  | .tagged _ variants => nestingOfAll variants + 1
  | .choice _ wrapped => nestingOfAll wrapped + 1

/-- The nesting of the deepest shape of a list. -/
def nestingOfAll : List (String × Schema) → Nat
  | [] => 0
  | (_, s) :: rest => max s.nesting (nestingOfAll rest)

end

theorem nesting_le_of_mem {f : String × Schema} {fields : List (String × Schema)}
    (h : f ∈ fields) : f.2.nesting ≤ nestingOfAll fields := by
  induction fields with
  | nil => cases h
  | cons f' fields ih =>
      rw [nestingOfAll]
      rcases List.mem_cons.mp h with rfl | h
      · exact Nat.le_max_left _ _
      · exact Nat.le_trans (ih h) (Nat.le_max_right _ _)

/-- A canonical value nests as deep as its shape at most. -/
theorem Holds.fits {s : Schema} {j : Json} (h : Holds s j) : Fits s.nesting j := by
  induction h with
  | text s => exact .text _ s
  | @word bits n hn hbits =>
      have hlt : n < 2 ^ 64 := Nat.lt_of_lt_of_le hn (Nat.pow_le_pow_right (by decide) hbits)
      exact .number _ (by omega) (by omega)
  | bool b => exact .bool _ b
  | null s => exact .null _
  | some _ _ ih => exact ih
  | list _ ih => exact .list ih
  | map _ ih => exact .object ih
  | record _ hnames _ ih =>
      refine .object fun m hm => ?_
      obtain ⟨before, after, rfl⟩ := List.append_of_mem hm
      obtain ⟨_, f, _, rfl, _, _, hzip⟩ := exists_field hnames
      exact (ih (f, m) hzip).mono (nesting_le_of_mem (by simp))
  | @tagged tag name variants s members hvariant _ _ ih =>
      have hle : s.nesting ≤ nestingOfAll variants :=
        nesting_le_of_mem (OrderedMap.mem_of_lookup_eq_some hvariant)
      refine .object fun m hm => ?_
      rcases List.mem_cons.mp hm with rfl | hm
      · exact .text _ _
      · generalize s.nesting = n at ih hle
        cases ih with
        | object hmembers => exact (hmembers m hm).mono (Nat.le_of_succ_le hle)
  | plain _ => exact .text _ _
  | wrapped _ hvariant _ ih =>
      refine .object fun m hm => ?_
      obtain rfl := List.mem_singleton.mp hm
      exact ih.mono (nesting_le_of_mem (OrderedMap.mem_of_lookup_eq_some hvariant))

end Schema

end TaskNetwork.Json
