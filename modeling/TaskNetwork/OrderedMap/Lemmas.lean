import TaskNetwork.OrderedMap.Basic

/-!
# Looking up in ordered maps

Each operation is described by what `get?` answers after it. Maps that answer alike are equal
(`OrderedMap.ext_get?`), so laws about maps need not look at their lists of entries.
-/

namespace TaskNetwork.OrderedMap

variable {κ α β : Type} [Ord κ]

/-! ## Entries and look-up -/

/-- No key has two bindings. -/
theorem nodup_keys [Std.TransOrd κ] (m : OrderedMap κ α) : m.keys.Nodup := by
  refine List.pairwise_map.2 (m.ascending.imp fun h heq => ?_)
  simp [heq, Std.ReflCmp.compare_self] at h

theorem pairwise_keys (m : OrderedMap String α) : m.keys.Pairwise (· < ·) :=
  List.pairwise_map.mpr (m.ascending.imp compareOfLessAndEq_eq_lt.mp)

variable [BEq κ] [LawfulBEq κ]

omit [Ord κ] in
theorem lookup_eq_some_of_mem {es : List (κ × α)} (hn : (es.map (·.1)).Nodup) {k : κ} {v : α}
    (h : (k, v) ∈ es) : es.lookup k = some v := by
  induction es with
  | nil => simp at h
  | cons e es ih =>
      obtain ⟨hne, hes⟩ := List.nodup_cons.1 hn
      rcases List.mem_cons.1 h with rfl | h
      · simp
      · have : k ≠ e.1 := fun heq => hne (List.mem_map.2 ⟨_, h, heq⟩)
        rw [List.lookup_cons, beq_eq_false_iff_ne.2 this]
        exact ih hes h

omit [Ord κ] in
theorem mem_of_lookup_eq_some {es : List (κ × α)} {k : κ} {v : α} (h : es.lookup k = some v) :
    (k, v) ∈ es := by
  obtain ⟨l, r, rfl, -⟩ := List.lookup_eq_some_iff.1 h
  simp

/-- A binding is listed exactly if looking up its key finds it. -/
theorem mem_entries_iff [Std.TransOrd κ] {m : OrderedMap κ α} {k : κ} {v : α} :
    (k, v) ∈ m.entries ↔ m.get? k = some v :=
  ⟨lookup_eq_some_of_mem m.nodup_keys, mem_of_lookup_eq_some⟩

/-- A key is listed exactly if it is bound. -/
theorem mem_keys_iff [Std.TransOrd κ] {m : OrderedMap κ α} {k : κ} :
    k ∈ m.keys ↔ m.contains k = true := by
  simp only [keys, List.mem_map, Prod.exists, exists_and_right, exists_eq_right, contains,
    Option.isSome_iff_exists, mem_entries_iff]

/-! ## Operations -/

omit [LawfulBEq κ] in
@[simp] theorem get?_empty (k : κ) : (empty : OrderedMap κ α).get? k = none := rfl

theorem lookup_insertEntry [Std.LawfulEqOrd κ] [Std.TransOrd κ] (k k' : κ) (v : α)
    (es : List (κ × α)) :
    (insertEntry k v es).lookup k' = if k' == k then some v else es.lookup k' := by
  induction es with
  | nil =>
      by_cases h : k' = k
      · simp [insertEntry, h]
      · simp [insertEntry, List.lookup_cons, beq_eq_false_iff_ne.2 h]
  | cons e es ih =>
      obtain ⟨k₁, v₁⟩ := e
      rw [insertEntry]
      split
      · by_cases h : k' = k
        · simp [h]
        · simp [List.lookup_cons, beq_eq_false_iff_ne.2 h]
      · rename_i heq
        have := Std.LawfulEqOrd.eq_of_compare heq
        subst this
        by_cases h : k' = k
        · simp [h]
        · simp [List.lookup_cons, beq_eq_false_iff_ne.2 h]
      · rename_i hgt
        have hne : k ≠ k₁ := by
          rintro rfl
          simp [Std.ReflCmp.compare_self] at hgt
        by_cases h₁ : k' = k₁
        · subst h₁
          simp [Ne.symm hne]
        · simp only [List.lookup_cons, beq_eq_false_iff_ne.2 h₁, ih]

/-- After an insertion the key has the new value, and other keys keep theirs. -/
theorem get?_insert [Std.LawfulEqOrd κ] [Std.TransOrd κ] (m : OrderedMap κ α) (k k' : κ) (v : α) :
    (m.insert k v).get? k' = if k' == k then some v else m.get? k' :=
  lookup_insertEntry k k' v m.entries

omit [Ord κ] in
theorem lookup_filter_ne (k k' : κ) (es : List (κ × α)) :
    (es.filter fun e => !(e.1 == k)).lookup k' = if k' == k then none else es.lookup k' := by
  induction es with
  | nil => simp
  | cons e es ih =>
      obtain ⟨k₁, v₁⟩ := e
      by_cases h₁ : k₁ = k
      · subst h₁
        simp only [List.filter_cons, beq_self_eq_true, Bool.not_true, Bool.false_eq_true,
          if_false, ih]
        by_cases h : k' = k₁
        · simp [h]
        · simp [List.lookup_cons, beq_eq_false_iff_ne.2 h]
      · simp only [List.filter_cons, beq_eq_false_iff_ne.2 h₁, Bool.not_false, if_true,
          List.lookup_cons, ih]
        by_cases h : k' = k₁
        · subst h
          simp [h₁]
        · simp [beq_eq_false_iff_ne.2 h]

/-- After an erasure the key is unbound, and other keys keep their values. -/
theorem get?_erase (m : OrderedMap κ α) (k k' : κ) :
    (m.erase k).get? k' = if k' == k then none else m.get? k' :=
  lookup_filter_ne k k' m.entries

theorem get?_mapValues (f : κ → α → β) (m : OrderedMap κ α) (k : κ) :
    (m.mapValues f).get? k = (m.get? k).map (f k) := by
  simp only [get?, mapValues]
  induction m.entries with
  | nil => simp
  | cons e es ih =>
      obtain ⟨k₁, v₁⟩ := e
      by_cases h : k = k₁
      · subst h
        simp
      · simp [List.lookup_cons, beq_eq_false_iff_ne.2 h, ih]

theorem get?_replace [Std.LawfulEqOrd κ] [Std.TransOrd κ] (m : OrderedMap κ α) (k k' : κ) (v : α) :
    (m.replace k v).get? k' = if k' == k && m.contains k then some v else m.get? k' := by
  rw [replace]
  split
  · rename_i h
    rw [get?_insert, h, Bool.and_true]
  · rename_i h
    rw [Bool.eq_false_iff.mpr h, Bool.and_false]
    rfl

theorem contains_insert [Std.LawfulEqOrd κ] [Std.TransOrd κ] (m : OrderedMap κ α) (k k' : κ)
    (v : α) : (m.insert k v).contains k' = (k' == k || m.contains k') := by
  rw [contains, get?_insert]
  by_cases h : k' = k
  · simp [h]
  · simp [h, contains]

theorem contains_erase (m : OrderedMap κ α) (k k' : κ) :
    (m.erase k).contains k' = (m.contains k' && !(k' == k)) := by
  rw [contains, get?_erase]
  by_cases h : k' = k
  · simp [h]
  · simp [h, contains]

theorem contains_replace [Std.LawfulEqOrd κ] [Std.TransOrd κ] (m : OrderedMap κ α) (k : κ) (v : α)
    (k' : κ) : (m.replace k v).contains k' = m.contains k' := by
  rw [replace]
  split
  · rename_i h
    rw [contains_insert]
    by_cases hk : k' = k
    · simp [hk, h]
    · simp [hk]
  · rfl

/-- Bindings that are added from a map win over those that are there. -/
theorem get?_insertAll_toList [Std.LawfulEqOrd κ] [Std.TransOrd κ] (m n : OrderedMap κ α) (k : κ) :
    (m.insertAll n.toList).get? k = (n.get? k).or (m.get? k) := by
  have go (es : List (κ × α)) (hn : (es.map (·.1)).Nodup) (m : OrderedMap κ α) :
      (m.insertAll es).get? k = (es.lookup k).or (m.get? k) := by
    induction es generalizing m with
    | nil => rfl
    | cons e es ih =>
        obtain ⟨k₁, v₁⟩ := e
        obtain ⟨hne, hes⟩ := List.nodup_cons.mp hn
        rw [insertAll, List.foldl_cons, ← insertAll, ih hes, get?_insert, List.lookup_cons]
        by_cases h : k = k₁
        · subst h
          have hnone : es.lookup k = none := by
            refine List.lookup_eq_none_iff.mpr fun e' he' => ?_
            have hk : k ≠ e'.1 := fun heq => hne (List.mem_map.mpr ⟨e', he', heq.symm⟩)
            simpa using hk
          simp [hnone]
        · simp [beq_eq_false_iff_ne.mpr h]
  exact go n.toList n.nodup_keys m

/-- A binding after additions was added or was there. -/
theorem mem_or_get?_of_insertAll [Std.LawfulEqOrd κ] [Std.TransOrd κ] {m : OrderedMap κ α}
    {es : List (κ × α)} {k : κ} {v : α} (h : (m.insertAll es).get? k = some v) :
    (k, v) ∈ es ∨ m.get? k = some v := by
  induction es generalizing m with
  | nil => exact .inr h
  | cons e es ih =>
      rcases ih (m := m.insert e.1 e.2) h with hes | hm
      · exact .inl (List.mem_cons_of_mem _ hes)
      · rw [get?_insert] at hm
        split at hm
        · rename_i hk
          cases hm
          obtain rfl := eq_of_beq hk
          exact .inl List.mem_cons_self
        · exact .inr hm

/-! ## Values -/

theorem mem_values_iff [Std.TransOrd κ] {m : OrderedMap κ α} {v : α} :
    v ∈ m.values ↔ ∃ k, m.get? k = some v := by
  simp only [values, List.mem_map, Prod.exists, exists_eq_right, mem_entries_iff]

/-- A value that is listed once has one key. -/
theorem eq_of_count_values_le_one [Std.TransOrd κ] [BEq α] [LawfulBEq α] {m : OrderedMap κ α}
    {v : α} (h : m.values.count v ≤ 1) {k k' : κ} (hk : m.get? k = some v)
    (hk' : m.get? k' = some v) : k = k' := by
  have hlen : (m.entries.filter fun e => e.2 == v).length ≤ 1 := by
    rwa [values, List.count, List.countP_map, List.countP_eq_length_filter] at h
  have hmem {k : κ} (hk : m.get? k = some v) : (k, v) ∈ m.entries.filter fun e => e.2 == v :=
    List.mem_filter.mpr ⟨mem_entries_iff.mpr hk, by simp⟩
  match hes : m.entries.filter fun e => e.2 == v with
  | [] =>
      rw [hes] at hmem
      cases hmem hk
  | [e] =>
      rw [hes] at hmem
      have he := List.mem_singleton.mp (hmem hk)
      have he' := List.mem_singleton.mp (hmem hk')
      exact congrArg Prod.fst (he.trans he'.symm)
  | _ :: _ :: _ =>
      rw [hes] at hlen
      simp at hlen

theorem count_values_le_one [Std.TransOrd κ] [BEq α] [LawfulBEq α] {m : OrderedMap κ α} {v : α}
    (h : ∀ k k', m.get? k = some v → m.get? k' = some v → k = k') : m.values.count v ≤ 1 := by
  have hnodup : ((m.entries.filter fun e => e.2 == v).map (·.1)).Nodup :=
    m.nodup_keys.sublist (List.filter_sublist.map _)
  have hsame : ∀ e ∈ m.entries.filter fun e => e.2 == v, m.get? e.1 = some v := fun e he => by
    obtain ⟨hmem, heq⟩ := List.mem_filter.mp he
    exact mem_entries_iff.mp (eq_of_beq heq ▸ hmem)
  have hlen : m.values.count v = (m.entries.filter fun e => e.2 == v).length := by
    rw [values, List.count, List.countP_map, List.countP_eq_length_filter]
    rfl
  rw [hlen]
  match hes : m.entries.filter fun e => e.2 == v with
  | [] =>
      rw [hes]
      exact Nat.zero_le 1
  | [_] =>
      rw [hes]
      exact Nat.le_refl 1
  | e :: e' :: _ =>
      rw [hes] at hnodup hsame
      have heq := h e.1 e'.1 (hsame e List.mem_cons_self)
        (hsame e' (List.mem_cons_of_mem _ List.mem_cons_self))
      simp [heq] at hnodup

theorem count_values_pos_iff [Std.TransOrd κ] [BEq α] [LawfulBEq α] {m : OrderedMap κ α} {v : α} :
    0 < m.values.count v ↔ ∃ k, m.get? k = some v :=
  List.count_pos_iff.trans mem_values_iff

/-- An insertion adds an occurrence of the new value and takes away one of the old value. -/
theorem count_values_insert [Std.LawfulEqOrd κ] [Std.TransOrd κ] [DecidableEq α]
    (m : OrderedMap κ α) (k : κ) (v w : α) :
    (m.insert k v).values.count w + (if m.get? k = some w then 1 else 0) =
      m.values.count w + (if v = w then 1 else 0) := by
  have go (es : List (κ × α)) (hes : Ascending es) :
      ((insertEntry k v es).map (·.2)).count w + (if es.lookup k = some w then 1 else 0) =
        (es.map (·.2)).count w + (if v = w then 1 else 0) := by
    induction es with
    | nil => simp [insertEntry, List.count_cons]
    | cons e es ih =>
        obtain ⟨k₁, v₁⟩ := e
        obtain ⟨hfirst, hrest⟩ := List.pairwise_cons.mp hes
        rw [insertEntry]
        split
        · rename_i hlt
          have hnone : ((k₁, v₁) :: es).lookup k = none := by
            refine List.lookup_eq_none_iff.mpr fun e he => ?_
            have hk : compare k e.1 = .lt := by
              rcases List.mem_cons.mp he with rfl | he
              · exact hlt
              · exact Std.TransCmp.lt_trans hlt (hfirst e he)
            have hne : k ≠ e.1 := by
              rintro heq
              simp [heq, Std.ReflCmp.compare_self] at hk
            simpa using hne
          simp [hnone, List.count_cons]
        · rename_i heq
          obtain rfl := Std.LawfulEqOrd.eq_of_compare heq
          simp only [List.map_cons, List.count_cons, List.lookup_cons_self, Option.some.injEq,
            beq_iff_eq]
          omega
        · rename_i hgt
          have hne : k ≠ k₁ := by
            rintro rfl
            simp [Std.ReflCmp.compare_self] at hgt
          have hrec := ih hrest
          simp only [List.map_cons, List.count_cons, List.lookup_cons,
            beq_eq_false_iff_ne.mpr hne] at hrec ⊢
          omega
  exact go m.entries m.ascending

/-! ## Equality -/

omit [BEq κ] [LawfulBEq κ] in
theorem eq_of_ascending_of_mem_iff [Std.TransOrd κ] {es fs : List (κ × α)} (he : Ascending es)
    (hf : Ascending fs) (h : ∀ e, e ∈ es ↔ e ∈ fs) : es = fs := by
  have irrefl (e : κ × α) : compare e.1 e.1 ≠ .lt := by simp [Std.ReflCmp.compare_self]
  induction es generalizing fs with
  | nil =>
      cases fs with
      | nil => rfl
      | cons f fs => simpa using (h f).2 List.mem_cons_self
  | cons e es ih =>
      cases fs with
      | nil => simpa using (h e).1 List.mem_cons_self
      | cons f fs =>
          obtain ⟨hle, hes⟩ := List.pairwise_cons.1 he
          obtain ⟨hlf, hfs⟩ := List.pairwise_cons.1 hf
          have hef : e = f := by
            rcases List.mem_cons.1 ((h e).1 List.mem_cons_self) with heq | hmem
            · exact heq
            · rcases List.mem_cons.1 ((h f).2 List.mem_cons_self) with heq | hmem'
              · exact heq.symm
              · exact absurd (Std.TransCmp.lt_trans (hlf e hmem) (hle f hmem')) (irrefl f)
          subst hef
          congr 1
          refine ih hes hfs fun x => ⟨fun hx => ?_, fun hx => ?_⟩
          · rcases List.mem_cons.1 ((h x).1 (List.mem_cons_of_mem _ hx)) with rfl | hx'
            · exact absurd (hle x hx) (irrefl x)
            · exact hx'
          · rcases List.mem_cons.1 ((h x).2 (List.mem_cons_of_mem _ hx)) with rfl | hx'
            · exact absurd (hlf x hx) (irrefl x)
            · exact hx'

/-- Maps that answer every look-up alike are equal. -/
theorem ext_get? [Std.TransOrd κ] {m n : OrderedMap κ α} (h : ∀ k, m.get? k = n.get? k) :
    m = n := by
  have : m.entries = n.entries :=
    eq_of_ascending_of_mem_iff m.ascending n.ascending fun ⟨k, v⟩ => by
      rw [mem_entries_iff, mem_entries_iff, h]
  cases m
  cases n
  simp_all

theorem ofList_toList [Std.LawfulEqOrd κ] [Std.TransOrd κ] (m : OrderedMap κ α) :
    ofList m.toList = m := by
  refine ext_get? fun k => ?_
  rw [ofList, get?_insertAll_toList, get?_empty]
  exact Option.or_none

omit [BEq κ] [LawfulBEq κ] in
theorem keys_mapValues (f : κ → α → β) (m : OrderedMap κ α) : (m.mapValues f).keys = m.keys := by
  simp [keys, mapValues]

/-- Maps that bind the same keys list the same keys. -/
theorem keys_eq_of_contains [Std.TransOrd κ] {m : OrderedMap κ α} {n : OrderedMap κ β}
    (h : ∀ k, m.contains k = n.contains k) : m.keys = n.keys := by
  have hmaps : (m.mapValues fun _ _ => ()) = n.mapValues fun _ _ => () := by
    refine ext_get? fun k => ?_
    have hk := h k
    rw [contains, contains] at hk
    rw [get?_mapValues, get?_mapValues]
    cases hm : m.get? k <;> cases hn : n.get? k <;> simp_all
  rw [← keys_mapValues (fun _ _ => ()) m, hmaps, keys_mapValues]

theorem keys_insert [Std.LawfulEqOrd κ] [Std.TransOrd κ] {m : OrderedMap κ α} {k : κ}
    (h : m.contains k = true) (v : α) : (m.insert k v).keys = m.keys := by
  refine keys_eq_of_contains fun k' => ?_
  rw [contains_insert]
  by_cases hk : k' = k
  · simp [hk, h]
  · simp [hk]

theorem keys_replace [Std.LawfulEqOrd κ] [Std.TransOrd κ] (m : OrderedMap κ α) (k : κ) (v : α) :
    (m.replace k v).keys = m.keys :=
  keys_eq_of_contains (contains_replace m k v)

/-- Sets with the same members are equal. -/
theorem ext_contains [Std.TransOrd κ] {s t : OrderedSet κ}
    (h : ∀ k, s.contains k = t.contains k) : s = t := by
  refine ext_get? fun k => ?_
  have hk := h k
  rw [contains, contains] at hk
  cases hs : s.get? k <;> cases ht : t.get? k <;> simp_all

/-! ## Changes that are taken back -/

section

variable [Std.LawfulEqOrd κ] [Std.TransOrd κ] {m : OrderedMap κ α} {k : κ} {v w : α}

theorem insert_insert_eq_self (h : m.get? k = some w) (v : α) : (m.insert k v).insert k w = m := by
  refine ext_get? fun k' => ?_
  rw [get?_insert, get?_insert]
  by_cases hk : k' = k
  · simp [hk, h]
  · simp [hk]

theorem replace_replace_eq_self (h : m.get? k = some w) (v : α) :
    (m.replace k v).replace k w = m := by
  have hk : m.contains k = true := Option.isSome_iff_exists.mpr ⟨w, h⟩
  rw [replace, contains_replace, if_pos hk, replace, if_pos hk, insert_insert_eq_self h]

theorem replace_comm {k' : κ} (hne : k ≠ k') (m : OrderedMap κ α) (v w : α) :
    (m.replace k v).replace k' w = (m.replace k' w).replace k v := by
  refine ext_get? fun x => ?_
  rw [get?_replace, get?_replace, get?_replace, get?_replace, contains_replace, contains_replace]
  by_cases hx : x = k
  · simp [hx, hne]
  · simp [hx]

end

end TaskNetwork.OrderedMap
