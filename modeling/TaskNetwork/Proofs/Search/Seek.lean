import TaskNetwork.Search.Basic

/-!
# One frame of the search

What a frame does, said by cases on its head task, and what the loop over the methods of a
compound task does, said without its recursion. The other modules on the search open neither.
-/

namespace TaskNetwork.Search

variable {S A M : Type}

/-! ## Alternatives in order -/

section

variable {attempt : M → Journal A → Bool × Journal A} {ms ns : List M} {j j' : Journal A}

theorem firstSuccess_append (h : firstSuccess attempt ms j = (false, j')) :
    firstSuccess attempt (ms ++ ns) j = firstSuccess attempt ns j' := by
  induction ms generalizing j with
  | nil =>
      cases h
      rfl
  | cons m ms ih =>
      rw [firstSuccess] at h
      rw [List.cons_append, firstSuccess]
      split at h
      · cases h
      · exact ih h

theorem firstSuccess_of_true {m : M} (h : firstSuccess attempt ms j = (false, j'))
    {j'' : Journal A} (hm : attempt m j' = (true, j'')) :
    firstSuccess attempt (ms ++ m :: ns) j = (true, j'') := by
  rw [firstSuccess_append h, firstSuccess, hm]

/-- A success is that of one alternative, and all alternatives before it have failed. -/
theorem firstSuccess_true (h : firstSuccess attempt ms j = (true, j')) :
    ∃ before m after j₁, ms = before ++ m :: after ∧
      firstSuccess attempt before j = (false, j₁) ∧ attempt m j₁ = (true, j') := by
  induction ms generalizing j with
  | nil => cases h
  | cons m ms ih =>
      rw [firstSuccess] at h
      split at h
      · rename_i j₁ hm
        cases h
        exact ⟨[], m, ms, j, rfl, rfl, hm⟩
      · rename_i j₁ hm
        obtain ⟨before, m', after, j₂, rfl, hb, hm'⟩ := ih h
        exact ⟨m :: before, m', after, j₂, rfl, by rw [firstSuccess, hm]; exact hb, hm'⟩

/-- After a failure each alternative has been tried once, and has failed. -/
theorem firstSuccess_false (h : firstSuccess attempt ms j = (false, j')) {m : M} (hm : m ∈ ms) :
    ∃ j₁ j₂, attempt m j₁ = (false, j₂) := by
  induction ms generalizing j with
  | nil => cases hm
  | cons m' ms ih =>
      rw [firstSuccess] at h
      split at h
      · cases h
      · rename_i j₁ hm'
        rcases List.mem_cons.mp hm with rfl | hm
        · exact ⟨j, j₁, hm'⟩
        · exact ih h hm

/-- What each failing alternative preserves is preserved by a failure. -/
theorem firstSuccess_false_preserves {P : Journal A → Prop}
    (hP : ∀ m ∈ ms, ∀ j₁ j₂, P j₁ → attempt m j₁ = (false, j₂) → P j₂)
    (h : firstSuccess attempt ms j = (false, j')) (hj : P j) : P j' := by
  induction ms generalizing j with
  | nil =>
      cases h
      exact hj
  | cons m ms ih =>
      rw [firstSuccess] at h
      split at h
      · cases h
      · rename_i j₁ hm
        refine ih (fun m' hm' => hP m' (List.mem_cons_of_mem _ hm')) h ?_
        exact hP m List.mem_cons_self j j₁ hj hm

theorem firstSuccess_false_keeps {β : Type} {f : Journal A → β}
    (hf : ∀ m ∈ ms, ∀ j₁ j₂, attempt m j₁ = (false, j₂) → f j₂ = f j₁)
    (h : firstSuccess attempt ms j = (false, j')) : f j' = f j :=
  firstSuccess_false_preserves (P := fun j₁ => f j₁ = f j)
    (fun m hm j₁ j₂ hj₁ hfail => (hf m hm j₁ j₂ hfail).trans hj₁) h rfl

end

/-! ## Head tasks -/

variable [Argument A]

/-- The journal of the frame behind an applied operator. -/
def behindOperator (p : Policy) (depth : UInt32) (head : Task A) (j : Journal A) : Journal A :=
  ((j.enter depth).countApplication.note p depth head .operatorApplied).pushStep head

/-- The journal of the frame behind a method that gave subtasks. -/
def behindMethod (p : Policy) (depth : UInt32) (head : Task A) (m : Method S A)
    (subtasks : List (Task A)) (j : Journal A) : Journal A :=
  j.countExpansion.note p depth head (.methodDecomposed m.name subtasks.length.toUInt64)

/-- Tries one method of a compound head task. -/
def tryMethod (d : Domain S A) (p : Policy) (room : Nat) (depth : UInt32) (state : S)
    (head : Task A) (rest : List (Task A)) (m : Method S A) (j : Journal A) :
    Bool × Journal A :=
  match m.decompose state head.args with
  | .error failure => (false, j.note p depth head (.methodInapplicable m.name failure.message))
  | .ok subtasks =>
    match seek d p room (depth + 1) state (subtasks ++ rest)
      (behindMethod p depth head m subtasks j) with
    | (true, j) => (true, j)
    | (false, j) => (false, j.countBacktrack.note p depth head .backtracked)

section

variable {d : Domain S A} {p : Policy} {room : Nat} {depth : UInt32} {state next : S}
  {head : Task A} {rest subtasks : List (Task A)} {j j' : Journal A} {op : Operator S A}
  {m : Method S A} {methods : List (Method S A)}

theorem seek_rejected {failure : ApplyFailure} (hr : d.resolve head.name = .primitive op)
    (ha : op.apply state head.args = .error failure) :
    seek d p (room + 1) depth state (head :: rest) j =
      (false, (j.enter depth).note p depth head (.operatorRejected failure.message)) := by
  simp only [seek, hr, ha]

theorem seek_applied_true (hr : d.resolve head.name = .primitive op)
    (ha : op.apply state head.args = .ok next) :
    seek d p (room + 1) depth state (head :: rest) j = (true, j') ↔
      seek d p room (depth + 1) next rest (behindOperator p depth head j) = (true, j') := by
  simp only [seek, hr, ha]
  rw [← behindOperator]
  split <;> simp_all

theorem seek_applied_false (hr : d.resolve head.name = .primitive op)
    (ha : op.apply state head.args = .ok next) :
    seek d p (room + 1) depth state (head :: rest) j = (false, j') ↔
      ∃ j₁, seek d p room (depth + 1) next rest (behindOperator p depth head j) = (false, j₁) ∧
        (j₁.popStep.countBacktrack).note p depth head .backtracked = j' := by
  simp only [seek, hr, ha]
  rw [← behindOperator]
  split <;> simp_all

theorem seek_compound (hr : d.resolve head.name = .compound methods) :
    seek d p (room + 1) depth state (head :: rest) j =
      firstSuccess (tryMethod d p room depth state head rest) methods (j.enter depth) := by
  simp only [seek, hr]
  rfl

theorem seek_unknown (hr : d.resolve head.name = .unknown) :
    seek d p (room + 1) depth state (head :: rest) j =
      (false, ((j.enter depth).addUnresolved head.name).note p depth head .unresolved) := by
  simp only [seek, hr]

theorem tryMethod_inapplicable {failure : MethodFailure}
    (hd : m.decompose state head.args = .error failure) :
    tryMethod d p room depth state head rest m j =
      (false, j.note p depth head (.methodInapplicable m.name failure.message)) := by
  simp only [tryMethod, hd]

theorem tryMethod_true (hd : m.decompose state head.args = .ok subtasks) :
    tryMethod d p room depth state head rest m j = (true, j') ↔
      seek d p room (depth + 1) state (subtasks ++ rest)
        (behindMethod p depth head m subtasks j) = (true, j') := by
  simp only [tryMethod, hd]
  split <;> simp_all

theorem tryMethod_false (hd : m.decompose state head.args = .ok subtasks) :
    tryMethod d p room depth state head rest m j = (false, j') ↔
      ∃ j₁, seek d p room (depth + 1) state (subtasks ++ rest)
        (behindMethod p depth head m subtasks j) = (false, j₁) ∧
        j₁.countBacktrack.note p depth head .backtracked = j' := by
  simp only [tryMethod, hd]
  split <;> simp_all

end

end TaskNetwork.Search
