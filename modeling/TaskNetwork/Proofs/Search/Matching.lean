import TaskNetwork.Proofs.Matching
import TaskNetwork.Proofs.Search.Course
import TaskNetwork.Proofs.Search.Rounds

/-!
# Searches that match

Operators and methods that cannot tell matching states and arguments apart lead a search from
matching frames over the same decisions. So two such searches count alike, and find plans whose
tasks have the same names and matching arguments, or find none.
-/

namespace TaskNetwork

variable {S A : Type} {V : S → S → Prop} {R : A → A → Prop}

/-! ## Tasks and domains -/

/-- Tasks match if they have one name and matching arguments. -/
structure Task.Matches (R : A → A → Prop) (t t' : Task A) : Prop where
  name_eq : t.name = t'.name
  args : List.Forall₂ R t.args t'.args

/-- An operator cannot tell matching states and arguments apart. -/
def Operator.Respects (V : S → S → Prop) (R : A → A → Prop) (op : Operator S A) : Prop :=
  ∀ ⦃s s' args args'⦄, V s s' → List.Forall₂ R args args' →
    ExceptRel V (op.apply s args) (op.apply s' args')

/-- A method cannot tell matching states and arguments apart. -/
def Method.Respects (V : S → S → Prop) (R : A → A → Prop) (m : Method S A) : Prop :=
  ∀ ⦃s s' args args'⦄, V s s' → List.Forall₂ R args args' →
    ExceptRel (List.Forall₂ (Task.Matches R)) (m.decompose s args) (m.decompose s' args')

/-- The operators and methods of a domain cannot tell matching states and arguments apart. -/
structure Domain.Respects (d : Domain S A) (V : S → S → Prop) (R : A → A → Prop) : Prop where
  operator {name : String} {op : Operator S A} :
    d.resolve name = .primitive op → op.Respects V R
  method {name : String} {methods : List (Method S A)} {m : Method S A} :
    d.resolve name = .compound methods → m ∈ methods → m.Respects V R

theorem Domain.respects_of_declareMoves {d : Domain S A} {id : String} {ops : List (Operator S A)}
    {put get moveOne moveBlocks : Method S A}
    (h : declareMoves id ops put get moveOne moveBlocks = .ok d) (hnames : (moveNames ops).Nodup)
    (hops : ∀ op ∈ ops, op.Respects V R)
    (hmethods : ∀ m ∈ [put, get, moveOne, moveBlocks], m.Respects V R) : d.Respects V R := by
  refine ⟨fun {name op} hr => ?_, fun {name methods m} hr hm => ?_⟩
  · rcases resolve_cases_of_declareMoves h hnames name with ⟨_, -, hr'⟩ | ⟨op', hop, hr'⟩ | hr'
    · cases hr.symm.trans hr'
    · cases hr.symm.trans hr'
      exact hops op hop
    · cases hr.symm.trans hr'
  · rcases resolve_cases_of_declareMoves h hnames name with ⟨m', hm', hr'⟩ | ⟨_, -, hr'⟩ | hr'
    · cases hr.symm.trans hr'
      exact hmethods m (List.mem_singleton.mp hm ▸ hm')
    · cases hr.symm.trans hr'
    · cases hr.symm.trans hr'

/-! ## Courses -/

/-- The decision without the words of a refusal. -/
def Decision.withoutDetail : Decision → Decision
  | .operatorRejected _ => .operatorRejected ""
  | .methodInapplicable method _ => .methodInapplicable method ""
  | decision => decision

namespace Search

/-- Acts match if they are of one kind and about matching tasks. -/
inductive Act.Matches (R : A → A → Prop) : Act A → Act A → Prop where
  | enter (depth : UInt32) : Matches R (.enter depth) (.enter depth)
  | decide (depth : UInt32) {task task' : Option (Task A)} {decision decision' : Decision} :
      Option.Rel (Task.Matches R) task task' → decision.withoutDetail = decision'.withoutDetail →
        Matches R (.decide depth task decision) (.decide depth task' decision')

/-- Courses match if their acts do, one by one, and they find matching tasks or nothing. -/
structure Course.Matches (R : A → A → Prop) (c c' : Course A) : Prop where
  found : Option.Rel (List.Forall₂ (Task.Matches R)) c.found c'.found
  acts : List.Forall₂ (Act.Matches R) c.acts c'.acts

namespace Course.Matches

variable {M : Type} {c c' e e' : Course A} {depth : UInt32} {head head' : Task A}
  {decision decision' : Decision} {done done' : List (Task A)}

theorem entering (h : c.Matches R c') (depth : UInt32) :
    (c.entering depth).Matches R (c'.entering depth) :=
  ⟨h.found, .cons (.enter depth) h.acts⟩

theorem refusal {task task' : Option (Task A)} (depth : UInt32)
    (htask : Option.Rel (Task.Matches R) task task')
    (hdecision : decision.withoutDetail = decision'.withoutDetail) :
    (Course.refusal depth task decision).Matches R (Course.refusal depth task' decision') :=
  ⟨.none, .cons (.decide depth htask hdecision) .nil⟩

theorem behind (h : c.Matches R c') (depth : UInt32) (hhead : head.Matches R head')
    (hdecision : decision.withoutDetail = decision'.withoutDetail)
    (hdone : List.Forall₂ (Task.Matches R) done done') :
    (c.behind depth head decision done).Matches R (c'.behind depth head' decision' done') := by
  obtain ⟨found, acts⟩ := c
  obtain ⟨found', acts'⟩ := c'
  obtain ⟨hfound, hacts⟩ := h
  have hfirst : Act.Matches R (.decide depth head decision) (.decide depth head' decision') :=
    .decide depth (.some hhead) hdecision
  cases hfound with
  | some hsteps => exact ⟨.some (List.rel_append hdone hsteps), .cons hfirst hacts⟩
  | none =>
      exact ⟨.none, .cons hfirst (List.rel_append hacts
        (.cons (.decide depth (.some hhead) rfl) .nil))⟩

theorem orElse (h : c.Matches R c') (he : e.Matches R e') :
    (c.orElse e).Matches R (c'.orElse e') := by
  obtain ⟨found, acts⟩ := c
  obtain ⟨found', acts'⟩ := c'
  obtain ⟨hfound, hacts⟩ := h
  cases hfound with
  | some hsteps => exact ⟨.some hsteps, hacts⟩
  | none => exact ⟨he.found, List.rel_append hacts he.acts⟩

theorem firstFound {told told' : M → Course A} {ms : List M}
    (h : ∀ m ∈ ms, (told m).Matches R (told' m)) :
    (Course.firstFound told ms).Matches R (Course.firstFound told' ms) := by
  induction ms with
  | nil => exact ⟨.none, .nil⟩
  | cons m ms ih =>
      obtain ⟨hfirst, hrest⟩ := List.forall_mem_cons.mp h
      exact hfirst.orElse (ih hrest)

end Course.Matches

variable {d : Domain S A} {state state' : S} {tasks tasks' : List (Task A)}

theorem methodCourse_matches {room : Nat} {depth : UInt32} {head head' : Task A}
    {rest rest' : List (Task A)} {m : Method S A}
    (hcourse : ∀ subtasks subtasks', List.Forall₂ (Task.Matches R) subtasks subtasks' →
      (course d room (depth + 1) state subtasks).Matches R
        (course d room (depth + 1) state' subtasks'))
    (hm : ExceptRel (List.Forall₂ (Task.Matches R)) (m.decompose state head.args)
      (m.decompose state' head'.args))
    (hhead : head.Matches R head') (hrest : List.Forall₂ (Task.Matches R) rest rest') :
    (methodCourse d room depth state head rest m).Matches R
      (methodCourse d room depth state' head' rest' m) := by
  rcases hm.ok_or_error with ⟨subtasks, subtasks', hd, hd', hsubtasks⟩ | ⟨_, _, hd, hd'⟩
  · rw [methodCourse_decomposed hd, methodCourse_decomposed hd', hsubtasks.length_eq]
    exact (hcourse _ _ (List.rel_append hsubtasks hrest)).behind depth hhead rfl .nil
  · rw [methodCourse_inapplicable hd, methodCourse_inapplicable hd']
    exact .refusal depth (.some hhead) rfl

/-- Searches from matching frames take matching courses. -/
theorem course_matches (hd : d.Respects V R) (room : Nat) (depth : UInt32) (hs : V state state')
    (ht : List.Forall₂ (Task.Matches R) tasks tasks') :
    (course d room depth state tasks).Matches R (course d room depth state' tasks') := by
  induction room generalizing depth state state' tasks tasks' with
  | zero =>
      refine (Course.Matches.refusal depth ?_ rfl).entering depth
      cases ht with
      | nil => exact .none
      | cons hhead _ => exact .some hhead
  | succ room ih =>
      cases ht with
      | nil => exact ⟨.some .nil, .cons (.enter depth) .nil⟩
      | @cons head head' rest rest' hhead hrest =>
          -- Heads that match have one name, so they resolve alike.
          cases hr : d.resolve head.name with
          | primitive op =>
              have hr' : d.resolve head'.name = .primitive op := hhead.name_eq ▸ hr
              rcases (hd.operator hr hs hhead.args).ok_or_error with
                ⟨next, next', ha, ha', hnext⟩ | ⟨_, _, ha, ha'⟩
              · rw [course_applied hr ha, course_applied hr' ha']
                exact ((ih (depth + 1) hnext hrest).behind depth hhead rfl
                  (.cons hhead .nil)).entering depth
              · rw [course_rejected hr ha, course_rejected hr' ha']
                refine (Course.Matches.refusal depth (.some hhead) ?_).entering depth
                rfl
          | compound methods =>
              have hr' : d.resolve head'.name = .compound methods := hhead.name_eq ▸ hr
              rw [course_compound hr, course_compound hr']
              refine (Course.Matches.firstFound fun m hm => ?_).entering depth
              exact methodCourse_matches (fun _ _ => ih (depth + 1) hs)
                (hd.method hr hm hs hhead.args) hhead hrest
          | unknown =>
              have hr' : d.resolve head'.name = .unknown := hhead.name_eq ▸ hr
              rw [course_unknown hr, course_unknown hr']
              exact (Course.Matches.refusal depth (.some hhead) rfl).entering depth

end Search

/-! ## Journals -/

namespace Journal

open Search (Act Course)

/-- What a journal has counted. -/
def counts (j : Journal A) : Journal A := { j with plan := #[], events := #[], nextOrder := 0 }

variable {p : Policy} {j j' : Journal A} {c c' : Course A}

theorem count_withoutDetail (task : Option (Task A)) (decision : Decision) :
    j.count task decision.withoutDetail = j.count task decision := by
  cases decision <;> cases task <;> rfl

theorem count_counts (task : Option (Task A)) (decision : Decision) :
    (j.count task decision).counts = j.counts.count task decision := by
  cases decision <;> cases task <;> rfl

theorem count_eq_of_rel {task task' : Option (Task A)} (h : Option.Rel (Task.Matches R) task task')
    (decision : Decision) : j.count task decision = j.count task' decision := by
  cases h with
  | some ht => cases decision <;> simp [count, ht.name_eq]
  | none => rfl

variable [Argument A]

theorem counts_take {act act' : Act A} (hact : act.Matches R act') (h : j.counts = j'.counts) :
    (take p j act).counts = (take p j' act').counts := by
  cases hact with
  | enter depth => exact congrArg (fun j => (j.enter depth).counts) h
  | @decide depth task task' decision decision' htask hdecision =>
      show (j.count task decision).counts = (j'.count task' decision').counts
      rw [count_counts, count_counts, h, ← count_withoutDetail task, hdecision,
        count_withoutDetail, count_eq_of_rel htask]

/-- Courses that match are counted alike. -/
theorem counts_follow (hc : c.Matches R c') (h : j.counts = j'.counts) :
    (j.follow p c).counts = (j'.follow p c').counts := by
  have hfold {acts acts' : List (Act A)} (hacts : List.Forall₂ (Act.Matches R) acts acts') :
      (acts.foldl (take p) j).counts = (acts'.foldl (take p) j').counts := by
    induction hacts generalizing j j' with
    | nil => exact h
    | cons hact _ ih => exact ih (counts_take hact h)
  exact hfold hc.acts

theorem plan_start_follow (c : Course A) : (start.follow p c).plan.toList = c.found.getD [] := by
  show (#[] ++ (c.found.getD []).toArray).toList = _
  rw [Array.empty_append]

end Journal

/-! ## Runs -/

section

variable [Argument A] {d : Domain S A} {p : Policy} {start start' : S}
  {tasks tasks' : List (Task A)} (hd : d.Respects V R) (hs : V start start')
  (ht : List.Forall₂ (Task.Matches R) tasks tasks')

include hd hs ht

theorem Search.run_matches :
    ∃ found j j', Search.run d p start tasks = (found, j) ∧
      Search.run d p start' tasks' = (found, j') ∧ j.counts = j'.counts ∧
      List.Forall₂ (Task.Matches R) j.plan.toList j'.plan.toList := by
  have hcourse : (courseOfRun d p start tasks).Matches R (courseOfRun d p start' tasks') :=
    course_matches hd _ _ hs ht
  have hrun := run_eq d p start tasks
  have hrun' := run_eq d p start' tasks'
  rw [← isSome_eq_of_rel hcourse.found] at hrun'
  refine ⟨_, _, _, hrun, hrun', Journal.counts_follow hcourse rfl, ?_⟩
  rw [Journal.plan_start_follow, Journal.plan_start_follow]
  exact forall₂_getD_nil hcourse.found

variable [PlanningState S]

/-- Runs from matching states and tasks have the same metadata, and find matching plans or fail in
the same way. -/
theorem Planner.runTraced_matches (hname : PlanningState.name start = PlanningState.name start') :
    (runTraced ⟨d, p⟩ start tasks).trace.metadata =
        (runTraced ⟨d, p⟩ start' tasks').trace.metadata ∧
      ((∃ plan plan', (runTraced ⟨d, p⟩ start tasks).result = .ok plan ∧
          (runTraced ⟨d, p⟩ start' tasks').result = .ok plan' ∧
          List.Forall₂ (Task.Matches R) plan.steps plan'.steps) ∨
        ∃ failure, (runTraced ⟨d, p⟩ start tasks).result = .error failure ∧
          (runTraced ⟨d, p⟩ start' tasks').result = .error failure) := by
  obtain ⟨found, j, j', hrun, hrun', hcounts, hplan⟩ := Search.run_matches (p := p) hd hs ht
  have hfailure := congrArg (fun j : Journal A => resultOf (false, j)) hcounts
  have htermination : terminationOf (found, j) = terminationOf (found, j') := by
    cases found with
    | true => exact congrArg (fun n => Termination.planFound n.toUInt64) hplan.length_eq
    | false =>
        have h := congrArg (fun j : Journal A => terminationOf (false, j)) hcounts
        exact h
  rw [runTraced, runTraced, hrun, hrun']
  refine ⟨?_, ?_⟩
  · calc (traceOf ⟨d, p⟩ start (found, j)).metadata
      _ = { (traceOf ⟨d, p⟩ start (found, j.counts)).metadata with
            termination := terminationOf (found, j) } := rfl
      _ = { (traceOf ⟨d, p⟩ start' (found, j'.counts)).metadata with
            termination := terminationOf (found, j') } := by
        rw [hcounts, htermination, traceOf, traceOf, hname]
      _ = (traceOf ⟨d, p⟩ start' (found, j')).metadata := rfl
  · cases found with
    | true => exact .inl ⟨_, _, rfl, rfl, hplan⟩
    | false => exact .inr ⟨_, rfl, hfailure.symm⟩

end

end TaskNetwork
