import TaskNetwork.Proofs.Json.Documents
import TaskNetwork.Proofs.Report.Sound
import TaskNetwork.Proofs.Runner

/-!
# Runs and their reports

The report that a run makes of itself verifies, and its documents say what the run has found: they
are read back as the trace, the verdict and the plan of the run, and all of these agree.
-/

namespace TaskNetwork

open Json (Document)

/-! ## Reports that verify -/

namespace Report

variable {r : Report}

/-- A sound report verifies if its verdict can be read and names the digests of its contents. -/
theorem IsSound.verify (hr : r.IsSound) {v : Verification} (hread : r.readVerification = .ok v)
    (htrace : r.checkTrace v = .ok ()) (hplan : r.checkPlan v = .ok ()) : r.verify = .ok () := by
  have hcontents : r.artifacts.values.forM checkContent = .ok () := by
    refine forM_eq_ok fun a ha => ?_
    obtain ⟨name, ha⟩ := OrderedMap.mem_values_iff.mp ha
    exact if_pos (congrArg Artifact.contentHash (hr.artifact_eq ha)).symm
  refine bind_eq_ok.mpr ⟨(), hcontents, bind_eq_ok.mpr ⟨(), if_pos hr.manifest_eq.symm, ?_⟩⟩
  refine bind_eq_ok.mpr ⟨(), if_pos hr.digest_eq.symm, bind_eq_ok.mpr ⟨v, hread, ?_⟩⟩
  exact bind_eq_ok.mpr ⟨(), htrace, hplan⟩

theorem parse_ofContent {α : Type} [Document α] [Json.LawfulDocument α] (name : String) (a : α) :
    Document.parse α (Artifact.ofContent name (Document.bytes a)).content = .ok a := by
  rw [Artifact.ofContent]
  exact Document.parse_bytes a

theorem readVerification_eq_ok {a : Artifact} {v : Verification}
    (ha : r.artifacts.get? verificationArtifact = some a)
    (hparse : Document.parse Verification a.content = .ok v)
    (hversion : v.schemaVersion = Verification.currentVersion) : r.readVerification = .ok v := by
  refine bind_eq_ok.mpr ⟨a, by rw [require, ha], ?_⟩
  simp only [hparse, hversion, if_true]
  rfl

theorem checkTrace_eq_ok {a : Artifact} {v : Verification}
    (ha : r.artifacts.get? traceArtifact = some a)
    (hdigest : (Subject.planTrace.hash a.content).text = v.traceDigest) :
    r.checkTrace v = .ok () :=
  bind_eq_ok.mpr ⟨a, by rw [require, ha], if_pos hdigest⟩

end Report

/-! ## Runs -/

namespace World

variable {S A : Type} [Argument A] {w : World S A}

/-- The artifacts of a run's report. -/
theorem get?_of_build_contents {o : PlanningOutcome A} {v : Verification} {r : Report}
    (h : Report.build (contents o v) = .ok r) :
    r.artifacts.get? Report.traceArtifact =
      some (.ofContent Report.traceArtifact (Document.bytes o.trace)) ∧
    r.artifacts.get? Report.verificationArtifact =
      some (.ofContent Report.verificationArtifact (Document.bytes v)) ∧
    r.artifacts.get? Report.planArtifact = o.result.toOption.map fun plan =>
      .ofContent Report.planArtifact (Document.bytes plan.record) := by
  have hget := Report.get?_of_build h
  refine ⟨hget _, hget _, (hget _).trans ?_⟩
  cases hresult : o.result with
  | ok plan =>
      rw [contents, hresult]
      rfl
  | error failure =>
      rw [contents, hresult]
      rfl

theorem checkPlan_of_build_contents {o : PlanningOutcome A} {r : Report}
    (h : Report.build (contents o (w.verdict o)) = .ok r) :
    r.checkPlan (w.verdict o) = .ok () := by
  obtain ⟨-, -, hplan⟩ := get?_of_build_contents h
  cases hresult : o.result with
  | ok plan =>
      have hdigest : (w.verdict o).planDigest = some plan.record.digest.text := by
        rw [verdict, hresult]
        rfl
      rw [hresult] at hplan
      rw [Report.checkPlan, hplan, hdigest]
      exact if_pos rfl
  | error failure =>
      have hdigest : (w.verdict o).planDigest = none := by
        rw [verdict, hresult]
        rfl
      rw [hresult] at hplan
      rw [Report.checkPlan, hplan, hdigest]
      rfl

theorem verify_of_build_contents {o : PlanningOutcome A} {r : Report}
    (h : Report.build (contents o (w.verdict o)) = .ok r) : r.verify = .ok () := by
  obtain ⟨htrace, hverification, -⟩ := get?_of_build_contents h
  have hread : r.readVerification = .ok (w.verdict o) :=
    Report.readVerification_eq_ok hverification (Report.parse_ofContent _ (w.verdict o)) rfl
  exact (Report.isSound_of_build h).verify hread (Report.checkTrace_eq_ok htrace rfl)
    (checkPlan_of_build_contents h)

variable [PlanningState S] {policy : Policy} {run : WorldRun A}

/-- What a run that went through has done. -/
theorem exists_of_run (h : w.run policy = .ok run) :
    ∃ d o, policy.validate = .ok () ∧ Planner.runTraced ⟨d, policy⟩ w.start w.initialTasks = o ∧
      Report.build (contents o (w.verdict o)) = .ok run.report ∧ run.result = o.result ∧
      run.trace = o.trace ∧ run.verification = w.verdict o := by
  obtain ⟨d, -, h⟩ := bind_eq_ok.mp h
  obtain ⟨planner, hplanner, h⟩ := bind_eq_ok.mp h
  have hcreate := mapError_eq_ok.mp hplanner
  obtain rfl := Planner.eq_of_create hcreate
  refine ⟨d, _, Planner.validate_of_create hcreate, rfl, ?_⟩
  have hpack {o : PlanningOutcome A}
      (h : ((Report.build (contents o (w.verdict o))).mapError RunError.report >>= fun report =>
        pure (WorldRun.mk w.id o.result o.trace (w.verdict o) report)) = .ok run) :
      Report.build (contents o (w.verdict o)) = .ok run.report ∧ run.result = o.result ∧
        run.trace = o.trace ∧ run.verification = w.verdict o := by
    obtain ⟨report, hreport, h⟩ := bind_eq_ok.mp h
    obtain rfl := Except.ok.inj h
    exact ⟨mapError_eq_ok.mp hreport, rfl, rfl, rfl⟩
  dsimp only at h
  split at h
  · obtain ⟨-, -, h⟩ := bind_eq_ok.mp h
    exact hpack h
  · exact hpack h

/-- The report of a run that went through verifies, and its documents are read back as the trace,
the verdict and the plan. With a plan all of them say so and count its steps, and without one all of
them say why there is none. -/
theorem run_agrees (h : w.run policy = .ok run) :
    run.report.verify = .ok () ∧
    (∃ a, run.report.artifacts.get? Report.traceArtifact = some a ∧
      Document.parse Trace a.content = .ok run.trace) ∧
    (∃ a, run.report.artifacts.get? Report.verificationArtifact = some a ∧
      Document.parse Verification a.content = .ok run.verification) ∧
    (∀ plan, run.result = .ok plan →
      (∃ a, run.report.artifacts.get? Report.planArtifact = some a ∧
        Document.parse PlanRecord a.content = .ok plan.record) ∧
      (∃ stepCount, stepCount.toNat = plan.steps.length ∧
        run.verification.outcome = .planFound stepCount ∧
        run.trace.metadata.termination = .planFound stepCount) ∧
      run.verification.replayVerified = true ∧ run.verification.goalSatisfied = true) ∧
    ∀ failure, run.result = .error failure →
      run.report.artifacts.get? Report.planArtifact = none ∧
      run.verification.outcome =
        .noPlan failure.unresolvedTaskNames failure.depthBoundReached ∧
      run.trace.metadata.unresolvedTaskNames = failure.unresolvedTaskNames ∧
      run.trace.metadata.termination = .searchExhausted failure.depthBoundReached ∧
      run.verification.replayVerified = false ∧ run.verification.goalSatisfied = false := by
  obtain ⟨d, o, hpolicy, rfl, hbuild, hresult, htrace, hverification⟩ := exists_of_run h
  obtain ⟨htraceAt, hverificationAt, hplanAt⟩ := get?_of_build_contents hbuild
  rw [htrace, hverification, hresult]
  refine ⟨verify_of_build_contents hbuild, ⟨_, htraceAt, Report.parse_ofContent _ _⟩,
    ⟨_, hverificationAt, Report.parse_ofContent _ _⟩, fun plan hplan => ?_,
    fun failure hfailure => ?_⟩
  · have hlength := Planner.length_steps_le hplan
    have hceiling := (Policy.validate_eq_ok.mp hpolicy).2
    have hcount : plan.steps.length.toUInt64.toNat = plan.steps.length :=
      UInt64.toNat_ofNat_of_lt' (Nat.lt_of_le_of_lt (Nat.le_trans hlength hceiling) (by decide))
    rw [hplan] at hplanAt
    refine ⟨⟨_, hplanAt, Report.parse_ofContent _ _⟩,
      ⟨plan.steps.length.toUInt64, hcount, ?_, ?_⟩, ?_⟩
    · rw [verdict, hplan]
      rfl
    · exact Planner.termination_of_run_ok hplan
    · rw [verdict, PlanningOutcome.isPlanFound, hplan]
      exact ⟨rfl, rfl⟩
  · obtain ⟨hnames, -, htermination, -⟩ := Planner.metadata_of_run_error hfailure
    rw [hfailure] at hplanAt
    refine ⟨hplanAt, ?_, hnames, htermination, ?_⟩
    · rw [verdict, hfailure]
      rfl
    · rw [verdict, PlanningOutcome.isPlanFound, hfailure]
      exact ⟨rfl, rfl⟩

/-- Two blocks are stacked in one round, and the report on it says so. -/
theorem run_agrees_two_blocks :
    ∃ p run, Blocks.Problem.ofFacts [⟨"a", "table"⟩, ⟨"b", "table"⟩] [⟨"a", "b"⟩] = .ok p ∧
      p.world.run {} = .ok run ∧ run.report.verify = .ok () ∧
      ∃ a, run.report.artifacts.get? Report.traceArtifact = some a ∧
        Document.parse Trace a.content = .ok run.trace := by
  obtain ⟨p, hp⟩ : ∃ p, Blocks.Problem.ofFacts [⟨"a", "table"⟩, ⟨"b", "table"⟩] [⟨"a", "b"⟩] =
    .ok p := ⟨_, rfl⟩
  have hpolicy : Policy.validate {} = .ok () := rfl
  obtain ⟨d, planner, run, -, -, hrun, -⟩ := Blocks.Problem.runsSoundly hp hpolicy
  exact ⟨p, run, hp, hrun, (run_agrees hrun).1, (run_agrees hrun).2.1⟩

end World

end TaskNetwork
