import Mathlib.Algebra.Ring.GeomSum
import TaskNetwork.Proofs.Search.Counts

/-!
# What the depth bound bounds

Nothing is tried in a frame that lies deeper than the bound, and the depth of a frame does not wrap
around. As a frame leads on to one frame for each method of its head task at most, the number of
frames is bounded by a sum of powers of the largest number of methods.
-/

namespace TaskNetwork

variable {S A M : Type}

/-- Whether an operator or a method is tried on the task. -/
def Decision.isTrial : Decision → Bool
  | operatorApplied | operatorRejected _ | methodDecomposed _ _ | methodInapplicable _ _ => true
  | backtracked | unresolved | depthBoundReached => false

/-! ## Branching -/

namespace Domain

variable {d : Domain S A} {name : String} {ms : List (Method S A)}

/-- The largest number of methods of a task, at least one. -/
def branching (d : Domain S A) : Nat := (d.methods.values.map List.length).foldl max 1

/-- No task has more methods, and some task has as many unless it is one. -/
theorem branching_eq (d : Domain S A) :
    (d.branching = 1 ∨ ∃ ms ∈ d.methods.values, ms.length = d.branching) ∧
      1 ≤ d.branching ∧ ∀ ms ∈ d.methods.values, ms.length ≤ d.branching := by
  have hmax : (1 :: d.methods.values.map List.length).max? = some d.branching := List.max?_cons'
  obtain ⟨hmem, hle⟩ := List.max?_eq_some_iff.mp hmax
  refine ⟨?_, hle 1 List.mem_cons_self, fun ms hms => ?_⟩
  · exact (List.mem_cons.mp hmem).imp_right List.mem_map.mp
  · exact hle _ (List.mem_cons_of_mem _ (List.mem_map_of_mem hms))

theorem length_le_branching (hr : d.resolve name = .compound ms) : ms.length ≤ d.branching := by
  refine (branching_eq d).2.2 ms (OrderedMap.mem_values_iff.mpr ⟨name, ?_⟩)
  rw [resolve] at hr
  split at hr
  · cases hr
  · split at hr
    · rename_i hget
      cases hr
      exact hget
    · cases hr

end Domain

/-! ## The number of frames -/

namespace Search

variable {d : Domain S A} {room : Nat} {depth : UInt32} {state : S} {head : Task A}
  {rest : List (Task A)} {m : Method S A} {n : Nat}

theorem Course.entries_firstFound_le {told : M → Course A} {ms : List M}
    (h : ∀ m ∈ ms, (told m).entries ≤ n) : (firstFound told ms).entries ≤ ms.length * n := by
  induction ms with
  | nil => exact Nat.zero_le _
  | cons m ms ih =>
      have hfirst := h m List.mem_cons_self
      have hrest := ih fun m' hm' => h m' (List.mem_cons_of_mem _ hm')
      rw [firstFound_cons, List.length_cons, Nat.succ_mul]
      cases hfound : (told m).found with
      | some steps =>
          rw [orElse_of_some hfound]
          exact Nat.le_trans hfirst (Nat.le_add_left _ _)
      | none =>
          rw [entries_orElse_of_none hfound, Nat.add_comm]
          exact Nat.add_le_add hrest hfirst

theorem entries_methodCourse_le
    (hcourse : ∀ depth state tasks, (course d room depth state tasks).entries ≤ n) :
    (methodCourse d room depth state head rest m).entries ≤ n := by
  cases hd : m.decompose state head.args with
  | error failure =>
      rw [methodCourse_inapplicable hd]
      exact Nat.zero_le _
  | ok subtasks =>
      rw [methodCourse_decomposed hd, Course.entries_behind]
      exact hcourse _ _ _

/-- A frame with room for some levels below it leads to at most so many frames as there are in a
tree of that height that branches as much as the domain. -/
theorem entries_course_le (d : Domain S A) (room : Nat) (depth : UInt32) (state : S)
    (tasks : List (Task A)) :
    (course d room depth state tasks).entries ≤
      ∑ i ∈ Finset.range (room + 1), d.branching ^ i := by
  induction room generalizing depth state tasks with
  | zero => exact Nat.le_refl 1
  | succ room ih =>
      rw [geom_sum_succ]
      cases tasks with
      | nil => exact Nat.le_add_left 1 _
      | cons head rest =>
          cases hr : d.resolve head.name with
          | primitive op =>
              cases ha : op.apply state head.args with
              | error failure =>
                  rw [course_rejected hr ha, Course.entries_entering]
                  exact Nat.le_add_left 1 _
              | ok next =>
                  rw [course_applied hr ha, Course.entries_entering, Course.entries_behind]
                  refine Nat.succ_le_succ (Nat.le_trans (ih _ _ _) ?_)
                  exact Nat.le_mul_of_pos_left _ (d.branching_eq).2.1
          | compound methods =>
              rw [course_compound hr, Course.entries_entering]
              refine Nat.succ_le_succ (Nat.le_trans ?_ (Nat.mul_le_mul_right _
                (Domain.length_le_branching hr)))
              exact Course.entries_firstFound_le fun m _ => entries_methodCourse_le ih
          | unknown =>
              rw [course_unknown hr, Course.entries_entering]
              exact Nat.le_add_left 1 _

end Search

/-! ## Runs -/

namespace Planner

open Search (courseOfRun)

variable [PlanningState S] [Argument A] {d : Domain S A} {p : Policy} {planner : Planner S A}
  {start : S} {tasks : List (Task A)}

theorem maxDepthReached_le (hvalid : p.validate = .ok ()) (d : Domain S A) (start : S)
    (tasks : List (Task A)) :
    (runTraced ⟨d, p⟩ start tasks).trace.metadata.maxDepthReached.toNat ≤
      p.maxDepth.toNat + 1 := by
  have hmax : (0 :: (courseOfRun d p start tasks).acts.filterMap Search.Act.entered?).max? =
      some (runTraced ⟨d, p⟩ start tasks).trace.metadata.maxDepthReached := by
    rw [List.max?_cons']
    show _ = some (Search.run d p start tasks).2.maxDepthReached
    rw [Search.run_eq, Journal.maxDepthReached_follow]
    rfl
  rcases List.mem_cons.mp (List.max?_eq_some_iff.mp hmax).1 with hzero | hmem
  · rw [hzero]
    exact Nat.zero_le _
  · obtain ⟨act, hact, hentered⟩ := List.mem_filterMap.mp hmem
    have hwithin := Search.within_of_mem_courseOfRun hvalid hact
    cases act with
    | enter depth =>
        cases hentered
        exact hwithin
    | decide depth task decision => cases hentered

/-- Operators and methods are tried in frames within the bound only, where depths do not wrap
around. Events lie within the bound, too, but for those that say so and come one level deeper, which
is the greatest depth of all. The steps of a plan are no more than the bound, and the number of
frames is that of a tree at most that branches as much as the domain. -/
theorem runTraced_within_bound (h : create d p = .ok planner) {outcome : PlanningOutcome A}
    (hrun : planner.runTraced start tasks = outcome) :
    (∀ depth task decision,
      .decide depth task decision ∈ (courseOfRun d p start tasks).acts →
        decision.isTrial = true →
          depth.toNat ≤ p.maxDepth.toNat ∧ (depth + 1).toNat = depth.toNat + 1) ∧
    (∀ e ∈ outcome.trace.events,
      (e.decision ≠ .depthBoundReached → e.depth.toNat ≤ p.maxDepth.toNat) ∧
      (e.decision = .depthBoundReached → e.depth.toNat = p.maxDepth.toNat + 1)) ∧
    outcome.trace.metadata.maxDepthReached.toNat ≤ p.maxDepth.toNat + 1 ∧
    (∀ plan, outcome.result = .ok plan → plan.steps.length ≤ p.maxDepth.toNat) ∧
    (courseOfRun d p start tasks).entries ≤
      ∑ i ∈ Finset.range (p.maxDepth.toNat + 2), d.branching ^ i ∧
    outcome.trace.metadata.framesVisited = UInt64.ofNat (courseOfRun d p start tasks).entries := by
  obtain rfl := eq_of_create h
  subst hrun
  have hvalid := validate_of_create h
  refine ⟨fun depth task decision hact htrial => ?_, fun e he => ?_,
    maxDepthReached_le hvalid _ _ _, fun plan => length_steps_le,
    Search.entries_course_le d _ _ _ _, framesVisited_runTraced⟩
  · have hne : decision ≠ .depthBoundReached := by
      rintro rfl
      cases htrial
    have hlt := (Search.within_of_mem_courseOfRun hvalid hact).toNat_lt hne
    exact ⟨Nat.le_of_lt_succ hlt, Search.toNat_add_one_of_mem_courseOfRun hvalid hact hne⟩
  · obtain ⟨task, hact⟩ := exists_act_of_mem_events he
    have hwithin := Search.within_of_mem_courseOfRun hvalid hact
    refine ⟨fun hne => Nat.le_of_lt_succ (hwithin.toNat_lt hne), fun heq => ?_⟩
    rwa [Search.Act.Within, if_pos heq] at hwithin

/-- There are two ways to travel, and a bound of three steps cuts the ride, one level deeper. -/
theorem runTraced_within_bound_asleep :
    ∃ d planner outcome, Travel.domain = .ok d ∧ create d { maxDepth := 3 } = .ok planner ∧
      planner.runTraced (Travel.startState 20)
        [⟨Travel.travelTask, ["home", "shop"]⟩, ⟨"sleep", []⟩] = outcome ∧
      (∃ e ∈ outcome.trace.events, e.decision = .depthBoundReached ∧ e.depth.toNat = 4) ∧
      outcome.trace.metadata.maxDepthReached.toNat ≤ 4 ∧ d.branching = 2 ∧
      (courseOfRun d { maxDepth := 3 } (Travel.startState 20)
        [⟨Travel.travelTask, ["home", "shop"]⟩, ⟨"sleep", []⟩]).entries ≤
          2 ^ 0 + 2 ^ 1 + 2 ^ 2 + 2 ^ 3 + 2 ^ 4 := by
  obtain ⟨d, planner, outcome, hd, hcreate, hrun, ⟨e, he, hcut⟩, hbranching⟩ :
      ∃ d planner outcome, Travel.domain = .ok d ∧ create d { maxDepth := 3 } = .ok planner ∧
        planner.runTraced (Travel.startState 20)
          [⟨Travel.travelTask, ["home", "shop"]⟩, ⟨"sleep", []⟩] = outcome ∧
        (∃ e ∈ outcome.trace.events, e.decision = .depthBoundReached) ∧ d.branching = 2 :=
    ⟨_, _, _, rfl, rfl, rfl, by decide, by decide⟩
  obtain ⟨-, hevents, hreached, -, hentries, -⟩ := runTraced_within_bound hcreate hrun
  rw [hbranching] at hentries
  exact ⟨d, planner, outcome, hd, hcreate, hrun, ⟨e, he, hcut, (hevents e he).2 hcut⟩, hreached,
    hbranching, hentries⟩

end Planner

end TaskNetwork
