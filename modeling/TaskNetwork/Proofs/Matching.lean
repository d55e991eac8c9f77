import Mathlib.Data.List.Forall2
import TaskNetwork.OrderedMap.Lemmas

/-!
# Values that match

Two computations are compared in which names of the one stand for names of the other. Options,
lists, results and maps match if what they hold does. If matching keys compare alike, then maps that
match are bound, changed and listed alike.
-/

namespace TaskNetwork

open Relator (BiUnique)

variable {α β γ δ ε ε' : Type} {V : α → β → Prop} {W : γ → δ → Prop}

/-! ## Options and lists -/

section

variable {o : Option α} {o' : Option β} {as : List α} {as' : List β} {a : α} {a' : β}

theorem isSome_eq_of_rel (h : Option.Rel V o o') : o.isSome = o'.isSome := by
  cases h <;> rfl

theorem eq_of_rel_eq {o o' : Option α} (h : Option.Rel Eq o o') : o = o' := by
  cases h with
  | some h => exact congrArg some h
  | none => rfl

theorem eq_some_iff_of_rel (hV : BiUnique V) (ha : V a a') (h : Option.Rel V o o') :
    o = some a ↔ o' = some a' := by
  cases h with
  | some hb =>
      rw [Option.some_inj, Option.some_inj]
      exact Relator.rel_eq hV hb ha
  | none => exact ⟨nofun, nofun⟩

theorem rel_findSome? {f : α → Option γ} {f' : β → Option δ}
    (hf : ∀ a a', V a a' → Option.Rel W (f a) (f' a')) (h : List.Forall₂ V as as') :
    Option.Rel W (as.findSome? f) (as'.findSome? f') := by
  induction h with
  | nil => exact .none
  | @cons a a' as as' ha _ ih =>
      rw [List.findSome?_cons, List.findSome?_cons]
      have hfirst := hf a a' ha
      generalize f a = o at hfirst
      generalize f' a' = o' at hfirst
      cases hfirst with
      | some hb => exact .some hb
      | none => exact ih

theorem rel_find? {p : α → Bool} {p' : β → Bool} (hp : ∀ a a', V a a' → p a = p' a')
    (h : List.Forall₂ V as as') : Option.Rel V (as.find? p) (as'.find? p') := by
  induction h with
  | nil => exact .none
  | @cons a a' as as' ha _ ih =>
      rw [List.find?_cons, List.find?_cons, hp a a' ha]
      cases p' a' with
      | true => exact .some ha
      | false => exact ih

theorem any_eq_of_forall₂ {p : α → Bool} {p' : β → Bool} (hp : ∀ a a', V a a' → p a = p' a')
    (h : List.Forall₂ V as as') : as.any p = as'.any p' := by
  induction h with
  | nil => rfl
  | @cons a a' as as' ha _ ih => rw [List.any_cons, List.any_cons, hp a a' ha, ih]

theorem all_eq_of_forall₂ {p : α → Bool} {p' : β → Bool} (hp : ∀ a a', V a a' → p a = p' a')
    (h : List.Forall₂ V as as') : as.all p = as'.all p' := by
  induction h with
  | nil => rfl
  | @cons a a' as as' ha _ ih => rw [List.all_cons, List.all_cons, hp a a' ha, ih]

theorem forall₂_getD_nil {as : Option (List α)} {as' : Option (List β)}
    (h : Option.Rel (List.Forall₂ V) as as') : List.Forall₂ V (as.getD []) (as'.getD []) := by
  cases h with
  | some h => exact h
  | none => exact .nil

theorem isEmpty_eq_of_forall₂ (h : List.Forall₂ V as as') : as.isEmpty = as'.isEmpty := by
  cases h <;> rfl

variable [BEq α] [LawfulBEq α] [BEq β] [LawfulBEq β]

theorem beq_eq_of_rel (hV : BiUnique V) {b : α} {b' : β} (ha : V a a') (hb : V b b') :
    (a == b) = (a' == b') := by
  rw [Bool.eq_iff_iff, beq_iff_eq, beq_iff_eq]
  exact Relator.rel_eq hV ha hb

theorem count_eq_of_forall₂ (hV : BiUnique V) (ha : V a a') (h : List.Forall₂ V as as') :
    as.count a = as'.count a' := by
  induction h with
  | nil => rfl
  | cons hb _ ih => rw [List.count_cons, List.count_cons, beq_eq_of_rel hV hb ha, ih]

theorem contains_eq_of_forall₂ (hV : BiUnique V) (ha : V a a') (h : List.Forall₂ V as as') :
    as.contains a = as'.contains a' := by
  rw [Bool.eq_iff_iff, List.contains_iff_mem, List.contains_iff_mem]
  exact List.rel_mem hV ha h

end

/-! ## Results -/

/-- Both computations succeed with values that match, or both fail. -/
inductive ExceptRel (V : α → β → Prop) : Except ε α → Except ε' β → Prop where
  | ok {a : α} {a' : β} : V a a' → ExceptRel V (.ok a) (.ok a')
  | error (e : ε) (e' : ε') : ExceptRel V (.error e) (.error e')

namespace ExceptRel

variable {x y : Except ε α} {x' y' : Except ε' β}

theorem rel_of_eq_ok {a : α} {a' : β} (h : ExceptRel V x x') (hx : x = .ok a) (hx' : x' = .ok a') :
    V a a' := by
  cases h with
  | ok ha =>
      cases hx
      cases hx'
      exact ha
  | error _ _ => cases hx

theorem ok_or_error (h : ExceptRel V x x') :
    (∃ a a', x = .ok a ∧ x' = .ok a' ∧ V a a') ∨ ∃ e e', x = .error e ∧ x' = .error e' := by
  cases h with
  | ok ha => exact .inl ⟨_, _, rfl, rfl, ha⟩
  | error e e' => exact .inr ⟨e, e', rfl, rfl⟩

theorem exists_ok_iff (h : ExceptRel V x x') : (∃ a, x = .ok a) ↔ ∃ a', x' = .ok a' := by
  cases h with
  | ok _ => exact ⟨fun _ => ⟨_, rfl⟩, fun _ => ⟨_, rfl⟩⟩
  | error _ _ => exact ⟨nofun, nofun⟩

theorem bind {f : α → Except ε γ} {f' : β → Except ε' δ} (h : ExceptRel V x x')
    (hf : ∀ a a', V a a' → ExceptRel W (f a) (f' a')) : ExceptRel W (x >>= f) (x' >>= f') := by
  cases h with
  | ok ha => exact hf _ _ ha
  | error e e' => exact .error e e'

theorem map {ζ ζ' : Type} {g : ε → ζ} {g' : ε' → ζ'} {f : α → γ} {f' : β → δ}
    (h : ExceptRel V x x') (hf : ∀ a a', V a a' → W (f a) (f' a')) :
    ExceptRel W ((x.mapError g).map f) ((x'.mapError g').map f') := by
  cases h with
  | ok ha => exact .ok (hf _ _ ha)
  | error _ _ => exact .error _ _

theorem ite {c c' : Prop} [Decidable c] [Decidable c'] (hc : c ↔ c') (hx : ExceptRel V x x')
    (hy : ExceptRel V y y') : ExceptRel V (if c then x else y) (if c' then x' else y') := by
  by_cases h : c
  · rwa [if_pos h, if_pos (hc.mp h)]
  · rwa [if_neg h, if_neg (mt hc.mpr h)]

end ExceptRel

/-! ## Ordered maps -/

variable {κ : Type} [Ord κ] {R : κ → κ → Prop}

/-- Keys that match compare alike. -/
def KeepsOrder (R : κ → κ → Prop) : Prop :=
  ∀ ⦃k k' l l' : κ⦄, R k k' → R l l' → compare k l = compare k' l'

/-- Bindings match if their keys and their values do. -/
def EntryRel (R : κ → κ → Prop) (V : α → β → Prop) (e : κ × α) (e' : κ × β) : Prop :=
  R e.1 e'.1 ∧ V e.2 e'.2

/-- Maps match if their bindings do, one by one. -/
def OrderedMap.Matches (R : κ → κ → Prop) (V : α → β → Prop) (m : OrderedMap κ α)
    (m' : OrderedMap κ β) : Prop :=
  List.Forall₂ (EntryRel R V) m.entries m'.entries

theorem KeepsOrder.biUnique [Std.LawfulEqOrd κ] (hR : KeepsOrder R) : BiUnique R :=
  ⟨fun _ _ _ h h' => Std.LawfulEqOrd.eq_of_compare ((hR h h').trans Std.ReflCmp.compare_self),
    fun _ _ _ h h' => Std.LawfulEqOrd.eq_of_compare ((hR h h').symm.trans Std.ReflCmp.compare_self)⟩

namespace OrderedMap.Matches

variable {m n : OrderedMap κ α} {m' n' : OrderedMap κ β} {k k' : κ} {v : α} {v' : β}
  {es : List (κ × α)} {es' : List (κ × β)}

theorem empty : (OrderedMap.empty : OrderedMap κ α).Matches R V OrderedMap.empty := .nil

theorem keys (hm : m.Matches R V m') : List.Forall₂ R m.keys m'.keys :=
  List.rel_map (fun _ _ he => he.1) hm

theorem values (hm : m.Matches R V m') : List.Forall₂ V m.values m'.values :=
  List.rel_map (fun _ _ he => he.2) hm

theorem size_eq (hm : m.Matches R V m') : m.size = m'.size := hm.length_eq

theorem mapValues {f : κ → α → γ} {f' : κ → β → δ} (hm : m.Matches R V m')
    (hf : ∀ k k' v v', R k k' → V v v' → W (f k v) (f' k' v')) :
    (m.mapValues f).Matches R W (m'.mapValues f') :=
  List.rel_map (fun _ _ he => ⟨he.1, hf _ _ _ _ he.1 he.2⟩) hm

theorem rel_lookup [Std.LawfulEqOrd κ] [BEq κ] [LawfulBEq κ] (hR : KeepsOrder R) (hk : R k k')
    (h : List.Forall₂ (EntryRel R V) es es') : Option.Rel V (es.lookup k) (es'.lookup k') := by
  induction h with
  | nil => exact .none
  | cons he _ ih =>
      rw [List.lookup_cons, List.lookup_cons, beq_eq_of_rel hR.biUnique hk he.1]
      split
      · exact .some he.2
      · exact ih

theorem get? [Std.LawfulEqOrd κ] [BEq κ] [LawfulBEq κ] (hm : m.Matches R V m')
    (hR : KeepsOrder R) (hk : R k k') : Option.Rel V (m.get? k) (m'.get? k') :=
  rel_lookup hR hk hm

theorem contains_eq [Std.LawfulEqOrd κ] [BEq κ] [LawfulBEq κ] (hm : m.Matches R V m')
    (hR : KeepsOrder R) (hk : R k k') : m.contains k = m'.contains k' :=
  isSome_eq_of_rel (hm.get? hR hk)

theorem forall₂_insertEntry (hR : KeepsOrder R) (hk : R k k') (hv : V v v')
    (h : List.Forall₂ (EntryRel R V) es es') :
    List.Forall₂ (EntryRel R V) (insertEntry k v es) (insertEntry k' v' es') := by
  induction h with
  | nil => exact .cons ⟨hk, hv⟩ .nil
  | @cons e e' es es' he hes ih =>
      rw [insertEntry, insertEntry, hR hk he.1]
      split
      · exact .cons ⟨hk, hv⟩ (.cons he hes)
      · exact .cons ⟨hk, hv⟩ hes
      · exact .cons he ih

variable [Std.TransOrd κ] [Std.LawfulEqOrd κ]

theorem insert (hm : m.Matches R V m') (hR : KeepsOrder R) (hk : R k k') (hv : V v v') :
    (m.insert k v).Matches R V (m'.insert k' v') :=
  forall₂_insertEntry hR hk hv hm

theorem replace [BEq κ] [LawfulBEq κ] (hm : m.Matches R V m') (hR : KeepsOrder R) (hk : R k k')
    (hv : V v v') : (m.replace k v).Matches R V (m'.replace k' v') := by
  rw [OrderedMap.replace, OrderedMap.replace, hm.contains_eq hR hk]
  split
  · exact hm.insert hR hk hv
  · exact hm

theorem insertAll (hm : m.Matches R V m') (hR : KeepsOrder R) (hn : n.Matches R V n') :
    (m.insertAll n.toList).Matches R V (m'.insertAll n'.toList) :=
  List.rel_foldl (P := fun m m' => OrderedMap.Matches R V m m')
    (fun _ _ hm _ _ he => insert hm hR he.1 he.2) hm hn

end OrderedMap.Matches

end TaskNetwork
