import TaskNetwork.Problem
import TaskNetwork.Proofs.Baxter.Solvability
import TaskNetwork.Proofs.Blocks.Solvability
import TaskNetwork.Proofs.Report.Built
import TaskNetwork.Proofs.Search.Replay
import TaskNetwork.Runner

/-!
# Runs of the built-in worlds

A run of a world fails if a plan that was found does not replay or misses the goal. In the built-in
worlds neither happens, at whatever depth the search is cut: a plan ends in a state in which the
strategy has nothing left to move, and there the goal is satisfied.
-/

namespace TaskNetwork

/-! ## Worlds -/

namespace World

variable {S A : Type} {w : World S A} {d : Domain S A} {policy : Policy}

theorem checkPlan_of_replay {plan : Plan A} {final : S}
    (hreplay : replay d w.start plan.steps = .ok final) (hgoal : w.goalSatisfied final = true) :
    w.checkPlan d plan = .ok () :=
  bind_eq_ok.mpr ⟨final, mapError_eq_ok.mpr hreplay, if_pos hgoal⟩

variable [PlanningState S] [Argument A]

/-- A run goes through, and if it finds a plan this replays to a state that satisfies the goal. -/
def RunsSoundly (w : World S A) (policy : Policy) : Prop :=
  ∃ d planner run, w.domain = .ok d ∧ Planner.create d policy = .ok planner ∧
    w.run policy = .ok run ∧ run.result = planner.run w.start w.initialTasks ∧
    ∀ plan, run.result = .ok plan →
      ∃ final, replay d w.start plan.steps = .ok final ∧ w.goalSatisfied final = true

theorem nodup_names_contents (o : PlanningOutcome A) (v : Verification) :
    ((contents o v).map Prod.fst).Nodup := by
  rw [contents]
  cases o.result with
  | error failure =>
      show [Report.traceArtifact, Report.verificationArtifact].Nodup
      decide
  | ok plan =>
      show [Report.traceArtifact, Report.verificationArtifact, Report.planArtifact].Nodup
      decide

theorem run_of_checkPlan (hd : w.domain = .ok d) (hpolicy : policy.validate = .ok ())
    {o : PlanningOutcome A} (ho : Planner.runTraced ⟨d, policy⟩ w.start w.initialTasks = o)
    (hcheck : ∀ plan, o.result = .ok plan → w.checkPlan d plan = .ok ()) :
    ∃ report, w.run policy = .ok ⟨w.id, o.result, o.trace, w.verdict o, report⟩ := by
  obtain ⟨report, hreport⟩ := Report.exists_build (nodup_names_contents o (w.verdict o))
  have hpack : (Report.build (contents o (w.verdict o))).mapError RunError.report = .ok report :=
    mapError_eq_ok.mpr hreport
  refine ⟨report, bind_eq_ok.mpr ⟨d, mapError_eq_ok.mpr hd, bind_eq_ok.mpr ⟨⟨d, policy⟩, ?_, ?_⟩⟩⟩
  · exact mapError_eq_ok.mpr (Planner.create_of_validate hpolicy)
  · simp only [ho]
    split
    · rename_i plan hplan
      refine bind_eq_ok.mpr ⟨(), hcheck plan hplan, bind_eq_ok.mpr ⟨report, hpack, ?_⟩⟩
      rfl
    · exact bind_eq_ok.mpr ⟨report, hpack, rfl⟩

theorem runsSoundly_of_sound (hd : w.domain = .ok d) (hpolicy : policy.validate = .ok ())
    (hsound : ∀ plan, Planner.run ⟨d, policy⟩ w.start w.initialTasks = .ok plan →
      ∃ final, replay d w.start plan.steps = .ok final ∧ w.goalSatisfied final = true) :
    w.RunsSoundly policy := by
  obtain ⟨report, hrun⟩ := run_of_checkPlan hd hpolicy rfl fun plan hplan =>
    have ⟨final, hreplay, hgoal⟩ := hsound plan hplan
    checkPlan_of_replay hreplay hgoal
  exact ⟨d, _, _, hd, Planner.create_of_validate hpolicy, hrun, rfl, hsound⟩

end World

/-! ## Built-in worlds -/

theorem Blocks.Problem.runsSoundly {start goal : List Blocks.Fact} {p : Blocks.Problem}
    {policy : Policy} (hp : Blocks.Problem.ofFacts start goal = .ok p)
    (hpolicy : policy.validate = .ok ()) : p.world.RunsSoundly policy := by
  obtain ⟨d, hd⟩ : ∃ d, Blocks.domain = .ok d := ⟨_, rfl⟩
  refine World.runsSoundly_of_sound hd hpolicy fun plan hplan => ?_
  obtain ⟨choices, final, hs, hunder, hend⟩ :=
    Planner.exists_end_of_rounds hd nodup_moveNames (fun _ _ h => h.progress hp hd)
      p.isUnderway_start hplan
  exact ⟨final, hs.fromIndex_eq 0, hunder.goalSatisfied_of_end hp hend⟩

theorem Baxter.Problem.runsSoundly {start goal : OrderedMap String Baxter.Location}
    {p : Baxter.Problem} {policy : Policy} (hp : Baxter.Problem.create start goal = .ok p)
    (hpolicy : policy.validate = .ok ()) : p.world.RunsSoundly policy := by
  obtain ⟨d, hd⟩ : ∃ d, Baxter.domain = .ok d := ⟨_, rfl⟩
  have hacc := isAccepted_of_create hp
  have hprogress (_ : List (Task Arg)) (s : State) (h : p.IsUnderway s) := h.progress hacc hd
  refine World.runsSoundly_of_sound hd hpolicy fun plan hplan => ?_
  obtain ⟨choices, final, hs, hunder, hend⟩ :=
    Planner.exists_end_of_rounds hd nodup_moveNames hprogress p.isUnderway_start hplan
  exact ⟨final, hs.fromIndex_eq 0, hunder.goalSatisfied_of_end hacc hend⟩

/-- The world of a problem runs soundly. -/
def Problem.RunsSoundly (policy : Policy) : Problem → Prop
  | .baxter p => p.world.RunsSoundly policy
  | .blocks p => p.world.RunsSoundly policy

/-- Every accepted problem runs soundly under every valid policy. -/
theorem ProblemFile.runsSoundly_of_problem {file : ProblemFile} {problem : Problem}
    {policy : Policy} (h : file.problem = .ok problem) (hpolicy : policy.validate = .ok ()) :
    problem.RunsSoundly policy := by
  cases file with
  | baxterSwap start goal =>
      cases hp : Baxter.Problem.create start goal with
      | error e =>
          rw [ProblemFile.problem, hp] at h
          cases h
      | ok p =>
          rw [ProblemFile.problem, hp] at h
          cases h
          exact Baxter.Problem.runsSoundly hp hpolicy
  | blocksWorld start goal =>
      cases hp : Blocks.Problem.ofFacts start goal with
      | error e =>
          rw [ProblemFile.problem, hp] at h
          cases h
      | ok p =>
          rw [ProblemFile.problem, hp] at h
          cases h
          exact Blocks.Problem.runsSoundly hp hpolicy

/-- Two blocks are stacked: the plan replays to a state in which one is on the other. With too
little depth for more than the first half of a round the run goes through all the same. -/
theorem ProblemFile.runsSoundly_of_problem_stacked :
    ∃ p d run final,
      (blocksWorld [⟨"a", "table"⟩, ⟨"b", "table"⟩] [⟨"a", "b"⟩]).problem = .ok (.blocks p) ∧
      (Problem.blocks p).RunsSoundly {} ∧ (Problem.blocks p).RunsSoundly { maxDepth := 3 } ∧
      p.world.domain = .ok d ∧ p.world.run {} = .ok run ∧
      run.result =
        .ok ⟨[⟨"pickup", [.block "a"]⟩, ⟨"stack", [.block "a", .block "b"]⟩]⟩ ∧
      replay d p.world.start
        [⟨"pickup", [.block "a"]⟩, ⟨"stack", [.block "a", .block "b"]⟩] = .ok final ∧
      p.world.goalSatisfied final = true := by
  obtain ⟨p, h⟩ : ∃ p, (blocksWorld [⟨"a", "table"⟩, ⟨"b", "table"⟩] [⟨"a", "b"⟩]).problem =
      .ok (.blocks p) := ⟨_, rfl⟩
  have hsound : p.world.RunsSoundly {} := runsSoundly_of_problem h rfl
  have hcut : p.world.RunsSoundly { maxDepth := 3 } := runsSoundly_of_problem h rfl
  have ⟨d, planner, run, hd, hcreate, hrun, hresult, hreplays⟩ := hsound
  have hfound : run.result =
      .ok ⟨[⟨"pickup", [.block "a"]⟩, ⟨"stack", [.block "a", .block "b"]⟩]⟩ := by
    rw [hresult]
    cases h
    cases hd
    cases hcreate
    rfl
  obtain ⟨final, hreplay, hgoal⟩ := hreplays _ hfound
  exact ⟨p, d, run, final, h, hsound, hcut, hd, hrun, hfound, hreplay, hgoal⟩

end TaskNetwork
