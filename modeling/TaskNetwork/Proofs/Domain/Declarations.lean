import TaskNetwork.Domain
import TaskNetwork.OrderedMap.Lemmas

/-!
# What names mean after declarations

An accepted batch of operators gives each of its names the last operator that has it; an accepted
batch of methods adds them behind the methods of its task. All other names keep their meaning.
-/

namespace TaskNetwork

variable {S A : Type}

theorem OperatorTable.get?_foldl_register (ops : List (Operator S A)) (t : OperatorTable S A)
    (name : String) :
    (ops.foldl register t).get? name =
      (ops.findRev? fun op => op.name == name).or (t.get? name) := by
  induction ops generalizing t with
  | nil => rfl
  | cons op ops ih =>
      rw [List.foldl_cons, ih, register, OrderedMap.get?_insert, List.findRev?]
      cases ops.findRev? fun op => op.name == name with
      | some op' => rfl
      | none =>
          by_cases h : name = op.name
          · simp [h]
          · simp [h, Ne.symm h]

theorem MethodTable.get?_foldl_register (ms : List (Method S A)) (t : MethodTable S A)
    (task name : String) :
    (ms.foldl (fun t m => t.register task m) t).get? name =
      if name = task ∧ ms ≠ [] then some (t.methodsOf task ++ ms) else t.get? name := by
  induction ms generalizing t with
  | nil => simp
  | cons m ms ih =>
      have hof : (t.register task m).methodsOf task = t.methodsOf task ++ [m] := by
        simp [methodsOf, register, OrderedMap.get?_insert]
      rw [List.foldl_cons, ih, hof]
      by_cases h : name = task
      · subst h
        by_cases hms : ms = []
        · simp [hms, register, OrderedMap.get?_insert]
        · simp [hms]
      · simp [h, register, OrderedMap.get?_insert]

/-- The methods of a compound task, none for other names. -/
def Resolution.methods : Resolution S A → List (Method S A)
  | .compound ms => ms
  | _ => []

namespace Domain

variable {d d' : Domain S A}

theorem resolve_empty (name task : String) : (empty name : Domain S A).resolve task = .unknown :=
  rfl

theorem declareAll_cons_eq_ok {b : Batch S A} {bs : List (Batch S A)} :
    d.declareAll (b :: bs) = (.ok (), d') ↔
      ∃ d₁, d.declare b = (.ok (), d₁) ∧ d₁.declareAll bs = (.ok (), d') := by
  rw [declareAll]
  rcases d.declare b with ⟨⟨e⟩ | ⟨⟨⟩⟩, d₁⟩ <;> simp

theorem ofBatches_eq_ok {name : String} {bs : List (Batch S A)} :
    ofBatches name bs = .ok d ↔ (empty name).declareAll bs = (.ok (), d) := by
  rw [ofBatches]
  rcases (empty name).declareAll bs with ⟨⟨e⟩ | ⟨⟨⟩⟩, d₁⟩ <;> simp

theorem resolve_declareOperators {ops : List (Operator S A)}
    (h : d.declareOperators ops = (.ok (), d')) (name : String) :
    d'.resolve name =
      match ops.findRev? fun op => op.name == name with
      | some op => .primitive op
      | none => d.resolve name := by
  rw [declareOperators] at h
  split at h
  · cases h
  · cases h
    simp only [resolve, OperatorTable.get?_foldl_register]
    cases ops.findRev? fun op => op.name == name with
    | some op => rfl
    | none => rfl

theorem resolve_declareMethods {task : String} {ms : List (Method S A)}
    (h : d.declareMethods task ms = (.ok (), d')) (name : String) :
    d'.resolve name =
      if name = task ∧ ms ≠ [] then .compound ((d.resolve task).methods ++ ms)
      else d.resolve name := by
  rw [declareMethods] at h
  split at h
  · cases h
  · rename_i hc
    cases h
    have hnone : d.operators.get? task = none := by
      simpa [OrderedMap.contains] using hc
    have hof : (d.resolve task).methods = d.methods.methodsOf task := by
      rw [resolve, hnone, MethodTable.methodsOf]
      cases d.methods.get? task with
      | none => rfl
      | some ms => rfl
    rw [hof]
    simp only [resolve, MethodTable.get?_foldl_register]
    by_cases hname : name = task ∧ ms ≠ []
    · simp [hname, hnone]
    · simp [hname]

end Domain

end TaskNetwork
