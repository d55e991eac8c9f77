/-!
# Steps that may fail

What is known of a computation that went through.
-/

namespace TaskNetwork

theorem bind_eq_ok {ε α β : Type} {x : Except ε α} {f : α → Except ε β} {b : β} :
    x >>= f = .ok b ↔ ∃ a, x = .ok a ∧ f a = .ok b := by
  cases x with
  | error e =>
      refine ⟨fun h => ?_, fun ⟨a, h, _⟩ => ?_⟩
      · cases h
      · cases h
  | ok a => exact ⟨fun h => ⟨a, rfl, h⟩, fun ⟨_, h, hf⟩ => by cases h; exact hf⟩

theorem mapError_eq_ok {ε ε' α : Type} {f : ε → ε'} {x : Except ε α} {a : α} :
    x.mapError f = .ok a ↔ x = .ok a := by
  cases x with
  | error e => exact ⟨nofun, nofun⟩
  | ok b =>
      refine ⟨fun h => ?_, fun h => ?_⟩
      · exact congrArg Except.ok (Except.ok.inj h)
      · exact congrArg Except.ok (Except.ok.inj h)

theorem eq_ok_of_toBool {ε σ : Type} {run : Except ε Unit × σ} (h : run.1.toBool = true) :
    run = (.ok (), run.2) := by
  obtain ⟨result, s⟩ := run
  cases result with
  | error e => cases h
  | ok u => rfl

theorem elim_eq_ok {ε α : Type} {o : Option α} {e : ε} {a : α} :
    o.elim (Except.error e) Except.ok = .ok a ↔ o = some a := by
  cases o <;> simp

variable {ε α β : Type} {xs : List α}

/-- What a list is mapped to comes from its items. -/
theorem exists_of_mem_mapM {f : α → Except ε β} {ys : List β} (h : xs.mapM f = .ok ys) {y : β}
    (hy : y ∈ ys) : ∃ x ∈ xs, f x = .ok y := by
  induction xs generalizing ys with
  | nil =>
      cases h
      cases hy
  | cons x xs ih =>
      rw [List.mapM_cons] at h
      obtain ⟨z, hz, h⟩ := bind_eq_ok.mp h
      obtain ⟨zs, hzs, h⟩ := bind_eq_ok.mp h
      cases h
      rcases List.mem_cons.mp hy with rfl | hy
      · exact ⟨x, List.mem_cons_self, hz⟩
      · obtain ⟨x', hx', hy⟩ := ih hzs hy
        exact ⟨x', List.mem_cons_of_mem _ hx', hy⟩

/-- Items that a list was made of are found again one by one. -/
theorem mapM_map_eq_ok {f : α → Except ε β} {g : β → α} {ys : List β}
    (h : ∀ y ∈ ys, f (g y) = .ok y) : (ys.map g).mapM f = .ok ys := by
  induction ys with
  | nil => rfl
  | cons y ys ih =>
      obtain ⟨hfirst, hrest⟩ := List.forall_mem_cons.mp h
      rw [List.map_cons, List.mapM_cons]
      exact bind_eq_ok.mpr ⟨y, hfirst, bind_eq_ok.mpr ⟨ys, ih hrest, rfl⟩⟩

/-- A check of all items is a check of each. -/
theorem eq_ok_of_forM {f : α → Except ε Unit} (h : xs.forM f = .ok ()) {x : α} (hx : x ∈ xs) :
    f x = .ok () := by
  induction xs with
  | nil => cases hx
  | cons x' xs ih =>
      obtain ⟨⟨⟩, hfirst, hrest⟩ := bind_eq_ok.mp h
      rcases List.mem_cons.mp hx with rfl | hx
      · exact hfirst
      · exact ih hrest hx

theorem forM_eq_ok {f : α → Except ε Unit} (h : ∀ x ∈ xs, f x = .ok ()) :
    xs.forM f = .ok () := by
  induction xs with
  | nil => rfl
  | cons x xs ih =>
      refine bind_eq_ok.mpr ⟨(), h x List.mem_cons_self, ?_⟩
      exact ih fun y hy => h y (List.mem_cons_of_mem _ hy)

end TaskNetwork
