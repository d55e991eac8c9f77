import TaskNetwork.Domain
import TaskNetwork.Proofs.Domain.Declarations
import TaskNetwork.Travel

/-!
# What names mean after batches

The tables of a domain hold what the accepted batches declare: of each operator the last one, and
of each task all methods. A batch is checked as a whole before any of it is declared, so no name
gets into both tables, and a batch that is refused leaves them as they were.
-/

namespace TaskNetwork

variable {S A : Type}

namespace Batch

variable (bs bs' : List (Batch S A)) (name : String)

theorem lastOperator?_append :
    lastOperator? (bs ++ bs') name = (lastOperator? bs' name).or (lastOperator? bs name) := by
  simp only [lastOperator?, List.findRev?_eq_find?_reverse, List.flatMap_append,
    List.reverse_append, List.find?_append]

theorem allMethods_append :
    allMethods (bs ++ bs') name = allMethods bs name ++ allMethods bs' name :=
  List.flatMap_append

theorem lastOperator?_operators (ops : List (Operator S A)) :
    lastOperator? [.operators ops] name = ops.findRev? fun op => op.name == name := by
  rw [lastOperator?, List.flatMap_singleton, declaredOperators]

theorem allMethods_methods (task : String) (ms : List (Method S A)) :
    allMethods [.methods task ms] name = if name = task then ms else [] := by
  rw [allMethods, List.flatMap_singleton, declaredMethods]

end Batch

namespace Domain

variable {d d' : Domain S A} {bs : List (Batch S A)} {b : Batch S A} {task name : String}
  {ops : List (Operator S A)} {op : Operator S A} {ms : List (Method S A)} {e : DomainError}

/-! ## When a batch is accepted, and what is left when it is refused -/

theorem declareOperators_eq_ok :
    d.declareOperators ops = (.ok (), d') ↔ (∀ op ∈ ops, d.methods.contains op.name = false) ∧
      { d with operators := ops.foldl OperatorTable.register d.operators } = d' := by
  rw [declareOperators]
  split
  · rename_i op hop
    refine ⟨fun h => ?_, fun h => ?_⟩
    · cases h
    · have htaken : d.methods.contains op.name = true := by simpa using List.find?_some hop
      exact absurd htaken (Bool.eq_false_iff.mp (h.1 op (List.mem_of_find?_eq_some hop)))
  · rename_i hnone
    have hfree : ∀ op ∈ ops, d.methods.contains op.name = false := by
      simpa using List.find?_eq_none.mp hnone
    rw [and_iff_right hfree, Prod.mk.injEq, and_iff_right rfl]

theorem declareMethods_eq_ok :
    d.declareMethods task ms = (.ok (), d') ↔ d.operators.contains task = false ∧
      { d with methods := ms.foldl (fun t m => t.register task m) d.methods } = d' := by
  rw [declareMethods]
  cases d.operators.contains task <;> simp

theorem exists_of_declareOperators_error (h : d.declareOperators ops = (.error e, d')) :
    d' = d ∧ ∃ before op after, ops = before ++ op :: after ∧
      e = .ambiguousName op.name .compound ∧ d.methods.contains op.name = true ∧
      ∀ op' ∈ before, d.methods.contains op'.name = false := by
  rw [declareOperators] at h
  split at h
  · rename_i op hop
    cases h
    obtain ⟨hc, before, after, heq, hbefore⟩ := List.find?_eq_some_iff_append.mp hop
    exact ⟨rfl, before, op, after, heq, rfl, hc,
      fun op' hop' => by simpa using hbefore op' hop'⟩
  · cases h

theorem eq_of_declareMethods_error (h : d.declareMethods task ms = (.error e, d')) :
    d' = d ∧ e = .ambiguousName task .primitive ∧ d.operators.contains task = true := by
  rw [declareMethods] at h
  split at h
  · rename_i hc
    cases h
    exact ⟨rfl, rfl, hc⟩
  · cases h

/-- A batch that is refused changes nothing. -/
theorem eq_of_declare_error (h : d.declare b = (.error e, d')) : d' = d := by
  cases b with
  | operators ops => exact (exists_of_declareOperators_error h).1
  | methods task ms => exact (eq_of_declareMethods_error h).1

/-! ## What the tables hold -/

/-- The tables of a domain hold what some batches declare, and no name is in both of them. -/
structure Holds (d : Domain S A) (bs : List (Batch S A)) : Prop where
  operator_eq (name : String) : d.operators.get? name = Batch.lastOperator? bs name
  methods_eq (name : String) :
    d.methods.get? name =
      if Batch.allMethods bs name = [] then none else some (Batch.allMethods bs name)
  exclusive {name : String} : d.operators.contains name = true → d.methods.contains name = false

theorem holds_empty (name : String) : (empty name : Domain S A).Holds [] where
  operator_eq _ := rfl
  methods_eq _ := rfl
  exclusive := nofun

theorem Holds.methodsOf_eq (h : d.Holds bs) (name : String) :
    d.methods.methodsOf name = Batch.allMethods bs name := by
  rw [MethodTable.methodsOf, h.methods_eq]
  split
  · rename_i hnil
    exact hnil.symm
  · rfl

theorem Holds.declareOperators (h : d.Holds bs) (hd : d.declareOperators ops = (.ok (), d')) :
    d'.Holds (bs ++ [.operators ops]) := by
  obtain ⟨hfree, rfl⟩ := declareOperators_eq_ok.mp hd
  have hget (name : String) : (ops.foldl OperatorTable.register d.operators).get? name =
      Batch.lastOperator? (bs ++ [.operators ops]) name := by
    rw [OperatorTable.get?_foldl_register, Batch.lastOperator?_append,
      Batch.lastOperator?_operators, h.operator_eq]
  refine ⟨hget, fun name => ?_, fun {name} hc => ?_⟩
  · have hnone : Batch.allMethods [.operators ops] name = [] := rfl
    rw [Batch.allMethods_append, hnone, List.append_nil]
    exact h.methods_eq name
  · obtain ⟨op, hop⟩ := Option.isSome_iff_exists.mp hc
    rw [hget, Batch.lastOperator?_append, Batch.lastOperator?_operators] at hop
    rcases Option.or_eq_some_iff.mp hop with hop | ⟨-, hop⟩
    · rw [List.findRev?_eq_find?_reverse] at hop
      have hname : op.name = name := by simpa using List.find?_some hop
      exact hname ▸ hfree op (List.mem_reverse.mp (List.mem_of_find?_eq_some hop))
    · exact h.exclusive (Option.isSome_iff_exists.mpr ⟨op, (h.operator_eq name).trans hop⟩)

theorem Holds.declareMethods (h : d.Holds bs) (hd : d.declareMethods task ms = (.ok (), d')) :
    d'.Holds (bs ++ [.methods task ms]) := by
  obtain ⟨hfree, rfl⟩ := declareMethods_eq_ok.mp hd
  refine ⟨fun name => ?_, fun name => ?_, fun {name} hc => ?_⟩
  · rw [Batch.lastOperator?_append]
    exact h.operator_eq name
  · rw [MethodTable.get?_foldl_register, h.methodsOf_eq, h.methods_eq, Batch.allMethods_append,
      Batch.allMethods_methods]
    by_cases hname : name = task
    · subst hname
      -- an empty batch does not make its name a task with methods
      by_cases hms : ms = []
      · simp [hms]
      · simp [hms]
    · simp [hname]
  · have hname : name ≠ task := by
      rintro rfl
      exact Bool.eq_false_iff.mp hfree hc
    rw [OrderedMap.contains, MethodTable.get?_foldl_register, if_neg fun heq => hname heq.1]
    exact h.exclusive hc

theorem Holds.declare (h : d.Holds bs) (hd : d.declare b = (.ok (), d')) :
    d'.Holds (bs ++ [b]) := by
  cases b with
  | operators ops => exact h.declareOperators hd
  | methods task ms => exact h.declareMethods hd

theorem Holds.afterBatches (h : d.Holds bs) (bs' : List (Batch S A)) :
    (d.afterBatches bs').Holds (bs ++ d.accepted bs') := by
  induction bs' generalizing d bs with
  | nil =>
      rw [accepted, List.append_nil]
      exact h
  | cons b bs' ih =>
      rw [Domain.afterBatches, List.foldl_cons, ← Domain.afterBatches, accepted]
      rcases hd : d.declare b with ⟨⟨e⟩ | ⟨⟨⟩⟩, d'⟩
      · exact ih (eq_of_declare_error hd ▸ h)
      · rw [List.append_cons]
        exact ih (h.declare hd)

/-! ## What names mean -/

theorem Holds.resolve_eq_primitive (h : d.Holds bs) :
    d.resolve name = .primitive op ↔ Batch.lastOperator? bs name = some op := by
  rw [← h.operator_eq, resolve]
  cases d.operators.get? name with
  | some op' => simp
  | none => cases d.methods.get? name <;> simp

theorem Holds.resolve_eq_compound (h : d.Holds bs) :
    d.resolve name = .compound ms ↔ ms ≠ [] ∧ Batch.allMethods bs name = ms := by
  have hget : d.methods.get? name = some ms ↔ ms ≠ [] ∧ Batch.allMethods bs name = ms := by
    rw [h.methods_eq]
    by_cases hnil : Batch.allMethods bs name = []
    · simp only [hnil, if_true]
      exact iff_of_false nofun fun hms => hms.1 hms.2.symm
    · simp only [hnil, if_false, Option.some.injEq]
      exact ⟨fun heq => ⟨heq ▸ hnil, heq⟩, fun hms => hms.2⟩
  rw [← hget, resolve]
  cases hop : d.operators.get? name with
  | some op =>
      have hnone : d.methods.get? name = none := by
        simpa [OrderedMap.contains] using h.exclusive (Option.isSome_iff_exists.mpr ⟨op, hop⟩)
      simp [hnone]
  | none => cases d.methods.get? name <;> simp

theorem Holds.resolve_eq_unknown (h : d.Holds bs) :
    d.resolve name = .unknown ↔
      Batch.lastOperator? bs name = none ∧ Batch.allMethods bs name = [] := by
  have hget : d.methods.get? name = none ↔ Batch.allMethods bs name = [] := by
    rw [h.methods_eq]
    split <;> simp_all
  rw [← h.operator_eq, ← hget, resolve]
  cases d.operators.get? name with
  | some op => simp
  | none => cases d.methods.get? name <;> simp

theorem kind?_eq_primitive :
    (d.resolve name).kind? = some .primitive ↔ d.operators.contains name = true := by
  rw [resolve, OrderedMap.contains]
  cases d.operators.get? name with
  | some op => simp [Resolution.kind?]
  | none => cases d.methods.get? name <;> simp [Resolution.kind?]

theorem Holds.kind?_eq_compound (h : d.Holds bs) :
    (d.resolve name).kind? = some .compound ↔ d.methods.contains name = true := by
  rw [resolve]
  cases hop : d.operators.get? name with
  | some op =>
      have hfree := h.exclusive (Option.isSome_iff_exists.mpr ⟨op, hop⟩)
      simp [Resolution.kind?, hfree]
  | none =>
      rw [OrderedMap.contains]
      cases d.methods.get? name <;> simp [Resolution.kind?]

/-- A batch is refused for the first of its names that stands for a task of the other kind. -/
theorem Holds.exists_of_declare_error (h : d.Holds bs) (he : d.declare b = (.error e, d')) :
    ∃ before task after kind, b.names = before ++ task :: after ∧ e = .ambiguousName task kind ∧
      kind ≠ b.kind ∧ (d.resolve task).kind? = some kind ∧
      ∀ earlier ∈ before, (d.resolve earlier).kind? ≠ some kind := by
  cases b with
  | operators ops =>
      obtain ⟨-, before, op, after, rfl, rfl, hc, hbefore⟩ := exists_of_declareOperators_error he
      refine ⟨before.map Operator.name, op.name, after.map Operator.name, .compound,
        by rw [Batch.names, List.map_append, List.map_cons], rfl, nofun,
        h.kind?_eq_compound.mpr hc, fun earlier hmem => ?_⟩
      obtain ⟨op', hop', rfl⟩ := List.mem_map.mp hmem
      rw [Ne, h.kind?_eq_compound, hbefore op' hop']
      exact Bool.false_ne_true
  | methods task ms =>
      obtain ⟨-, rfl, hc⟩ := eq_of_declareMethods_error he
      exact ⟨[], task, [], .primitive, rfl, rfl, nofun, kind?_eq_primitive.mpr hc, nofun⟩

/-- Whatever batches are declared, and whichever of them are refused: no name is in both tables. A
name means the last operator or all the methods that the accepted batches declare for it, and
nothing if they declare none. A batch is refused for the first of its names that stands for a task
of the other kind, and in the domain that it then leaves each name keeps its meaning. -/
theorem resolve_afterBatches {batches accepted : List (Batch S A)}
    (hd : (empty name).afterBatches batches = d)
    (haccepted : (empty name).accepted batches = accepted) :
    (∀ task, ¬ (d.operators.contains task = true ∧ d.methods.contains task = true)) ∧
    (∀ task,
      (∀ op, d.resolve task = .primitive op ↔ Batch.lastOperator? accepted task = some op) ∧
      (∀ ms, d.resolve task = .compound ms ↔
        ms ≠ [] ∧ Batch.allMethods accepted task = ms) ∧
      (d.resolve task = .unknown ↔
        Batch.lastOperator? accepted task = none ∧ Batch.allMethods accepted task = [])) ∧
    ∀ b e d', d.declare b = (.error e, d') →
      (∃ before task after kind, b.names = before ++ task :: after ∧
        e = .ambiguousName task kind ∧ kind ≠ b.kind ∧ (d.resolve task).kind? = some kind ∧
        ∀ earlier ∈ before, (d.resolve earlier).kind? ≠ some kind) ∧
      ∀ task, d'.resolve task = d.resolve task := by
  have h : d.Holds accepted := by
    rw [← hd, ← haccepted]
    exact (holds_empty name).afterBatches batches
  refine ⟨fun task htwo => ?_, fun task => ?_, fun b e d' he => ?_⟩
  · exact Bool.eq_false_iff.mp (h.exclusive htwo.1) htwo.2
  · exact ⟨fun op => h.resolve_eq_primitive, fun ms => h.resolve_eq_compound, h.resolve_eq_unknown⟩
  · refine ⟨h.exists_of_declare_error he, fun task => ?_⟩
    rw [eq_of_declare_error he]

/-- The travel world is filled, then walking is declared anew. Sleeping stays unknown: it is
declared as an operator together with travelling, which is refused, and as a task without methods.
A last batch has sleeping before travelling, so it is refused at its second name and leaves the
first unknown. -/
theorem resolve_afterBatches_travel :
    ∃ (batches : List (Batch Travel.State String)) (d d' : Domain Travel.State String)
      (accepted : _),
      batches =
        [.operators Travel.operators, .methods Travel.travelTask Travel.methods,
          .operators [⟨"sleep", Travel.walk⟩, ⟨Travel.travelTask, Travel.walk⟩],
          .methods "sleep" [], .operators [⟨"walk", Travel.rideTaxi⟩]] ∧
      (empty Travel.worldId).afterBatches batches = d ∧
      (empty Travel.worldId).accepted batches = accepted ∧ accepted.length = 4 ∧
      d.resolve "walk" = .primitive ⟨"walk", Travel.rideTaxi⟩ ∧
      d.resolve Travel.travelTask = .compound Travel.methods ∧ d.resolve "sleep" = .unknown ∧
      d.declare (.operators [⟨"sleep", Travel.walk⟩, ⟨Travel.travelTask, Travel.walk⟩]) =
        (.error (.ambiguousName Travel.travelTask .compound), d') ∧
      ∀ task, d'.resolve task = d.resolve task := by
  refine ⟨_, _, _, _, rfl, rfl, rfl, rfl, ?_, ?_, ?_,
    (and_iff_left_of_imp fun hrefused => ?_).mpr rfl⟩
  · exact ((resolve_afterBatches rfl rfl).2.1 _).1 _ |>.mpr rfl
  · exact ((resolve_afterBatches rfl rfl).2.1 _).2.1 _ |>.mpr ⟨nofun, rfl⟩
  · exact ((resolve_afterBatches rfl rfl).2.1 _).2.2.mpr ⟨rfl, rfl⟩
  · exact ((resolve_afterBatches rfl rfl).2.2 _ _ _ hrefused).2

end Domain

end TaskNetwork
