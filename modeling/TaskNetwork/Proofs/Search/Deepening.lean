import Mathlib.Algebra.Group.Nat.Defs
import TaskNetwork.Proofs.Search.Completeness
import TaskNetwork.Proofs.Search.Course

/-!
# Searching with a larger depth bound

A plan that is found within a depth bound is not lost with a larger one, though a branch that the
smaller bound cuts may then lead to another plan first. A search that is not cut at all does the
same with every larger bound.
-/

namespace TaskNetwork

variable {S A M : Type} {d : Domain S A}

namespace Search

variable {room : Nat} {depth : UInt32} {state : S} {tasks rest : List (Task A)} {head : Task A}
  {m : Method S A}

/-! ## Courses that are not cut -/

theorem Course.firstFound_congr {told told' : M → Course A} {ms : List M}
    (h : ∀ m ∈ ms, (told m).cuts = 0 → told' m = told m) (hc : (firstFound told ms).cuts = 0) :
    firstFound told' ms = firstFound told ms := by
  induction ms with
  | nil => rfl
  | cons m ms ih =>
      have hm := h m List.mem_cons_self
      rw [firstFound_cons] at hc ⊢
      rw [firstFound_cons]
      cases hfound : (told m).found with
      | some steps =>
          rw [orElse_of_some hfound] at hc ⊢
          rw [hm hc, orElse_of_some hfound]
      | none =>
          rw [cuts_orElse_of_none hfound, Nat.add_eq_zero_iff] at hc
          rw [hm hc.1, ih (fun m' hm' => h m' (List.mem_cons_of_mem _ hm')) hc.2]

theorem methodCourse_succ_of_cuts_eq_zero
    (hcourse : ∀ {depth state tasks}, (course d room depth state tasks).cuts = 0 →
      course d (room + 1) depth state tasks = course d room depth state tasks)
    (hc : (methodCourse d room depth state head rest m).cuts = 0) :
    methodCourse d (room + 1) depth state head rest m =
      methodCourse d room depth state head rest m := by
  cases hd : m.decompose state head.args with
  | error failure => rw [methodCourse_inapplicable hd, methodCourse_inapplicable hd]
  | ok subtasks =>
      rw [methodCourse_decomposed hd, Course.cuts_behind] at hc
      · rw [methodCourse_decomposed hd, methodCourse_decomposed hd, hcourse hc]
      · nofun

theorem course_succ_of_cuts_eq_zero (hc : (course d room depth state tasks).cuts = 0) :
    course d (room + 1) depth state tasks = course d room depth state tasks := by
  induction room generalizing depth state tasks with
  | zero => cases hc
  | succ room ih =>
      cases tasks with
      | nil => rfl
      | cons head rest =>
          cases hr : d.resolve head.name with
          | primitive op =>
              cases ha : op.apply state head.args with
              | error failure => rw [course_rejected hr ha, course_rejected hr ha]
              | ok next =>
                  rw [course_applied hr ha, Course.cuts_entering, Course.cuts_behind] at hc
                  · rw [course_applied hr ha, course_applied hr ha, ih hc]
                  · nofun
          | compound methods =>
              rw [course_compound hr, Course.cuts_entering] at hc
              rw [course_compound hr, course_compound hr]
              congr 1
              exact Course.firstFound_congr
                (fun m _ hm => methodCourse_succ_of_cuts_eq_zero ih hm) hc
          | unknown => rw [course_unknown hr, course_unknown hr]

/-- A course without cuts is the same with more room. -/
theorem course_eq_of_le {room' : Nat} (hle : room ≤ room')
    (hc : (course d room depth state tasks).cuts = 0) :
    course d room' depth state tasks = course d room depth state tasks := by
  induction hle with
  | refl => rfl
  | step _ ih => rw [course_succ_of_cuts_eq_zero (ih ▸ hc), ih]

end Search

/-! ## Journals -/

theorem Journal.follow_congr [Argument A] {p q : Policy} (j : Journal A) (c : Search.Course A)
    (h : q.recordDecisions = p.recordDecisions) : j.follow q c = j.follow p c := by
  have htake : take (A := A) q = take p := by
    funext j act
    cases act with
    | enter depth => rfl
    | decide depth task decision => rw [take, take, note, note, h]
  rw [follow, follow, htake]

/-! ## Planners -/

namespace Planner

open Search (courseOfRun)

variable [PlanningState S] [Argument A] {p q : Policy} {planner planner' : Planner S A}
  {start : S} {tasks : List (Task A)}

theorem cuts_eq_zero_of_depthBoundHits (hframes : (courseOfRun d p start tasks).entries < 2 ^ 64)
    (h : (runTraced ⟨d, p⟩ start tasks).trace.metadata.depthBoundHits = 0) :
    (courseOfRun d p start tasks).cuts = 0 := by
  have hle : (courseOfRun d p start tasks).cuts ≤ (courseOfRun d p start tasks).entries :=
    Search.cuts_course_le d _ _ _ _
  rw [depthBoundHits_runTraced, ← UInt64.toNat_inj, UInt64.toNat_ofNat_of_lt' (by
    exact Nat.lt_of_le_of_lt hle hframes)] at h
  exact h

/-- Without a cut a run is the same with a larger bound, but for the bound in its trace. -/
theorem runTraced_eq_of_cuts_eq_zero (hle : p.maxDepth ≤ q.maxDepth)
    (hrecord : q.recordDecisions = p.recordDecisions)
    (hc : (courseOfRun d p start tasks).cuts = 0) :
    runTraced ⟨d, q⟩ start tasks =
      { result := (runTraced ⟨d, p⟩ start tasks).result
        trace :=
          { events := (runTraced ⟨d, p⟩ start tasks).trace.events
            metadata := { (runTraced ⟨d, p⟩ start tasks).trace.metadata with
              maxDepth := q.maxDepth } } } := by
  have hcourse : courseOfRun d q start tasks = courseOfRun d p start tasks :=
    Search.course_eq_of_le (Nat.succ_le_succ (UInt32.le_iff_toNat_le.mp hle)) hc
  have hrun : Search.run d q start tasks = Search.run d p start tasks := by
    rw [Search.run_eq, Search.run_eq, hcourse, Journal.follow_congr _ _ hrecord]
  rw [runTraced, hrun]
  rfl

/-- With a larger bound a plan is not lost. A run that visits fewer frames than are counted, and is
not cut, is the same but for the bound in its trace; so is the failure of such a run. -/
theorem runTraced_deepens (h : create d p = .ok planner) (h' : create d q = .ok planner')
    (hle : p.maxDepth ≤ q.maxDepth) (hrecord : q.recordDecisions = p.recordDecisions)
    (hframes : (courseOfRun d p start tasks).entries < 2 ^ 64) :
    ((∃ plan, planner.run start tasks = .ok plan) →
      ∃ plan, planner'.run start tasks = .ok plan) ∧
    ((planner.runTraced start tasks).trace.metadata.depthBoundHits = 0 →
      (planner'.runTraced start tasks).result = (planner.runTraced start tasks).result ∧
      (planner'.runTraced start tasks).trace.events =
        (planner.runTraced start tasks).trace.events ∧
      (planner'.runTraced start tasks).trace.metadata =
        { (planner.runTraced start tasks).trace.metadata with maxDepth := q.maxDepth }) ∧
    ∀ failure, planner.run start tasks = .error failure → failure.depthBoundReached = false →
      planner'.run start tasks = .error failure := by
  obtain rfl := eq_of_create h
  obtain rfl := eq_of_create h'
  refine ⟨?_, ?_, ?_⟩
  · rintro ⟨plan, hrun⟩
    obtain ⟨choices, final, hs, hl⟩ := exists_succeeds_of_run hrun
    exact exists_run_of_succeeds hs (Nat.le_trans hl (UInt32.le_iff_toNat_le.mp hle))
  · intro hhits
    rw [runTraced_eq_of_cuts_eq_zero hle hrecord (cuts_eq_zero_of_depthBoundHits hframes hhits)]
    exact ⟨rfl, rfl, rfl⟩
  · intro failure hrun hreached
    have hhits : (runTraced ⟨d, p⟩ start tasks).trace.metadata.depthBoundHits = 0 := by
      refine UInt64.le_zero_iff.mp (UInt64.not_lt.mp fun hpos => ?_)
      rw [(metadata_of_run_error hrun).2.2.2.mpr hpos] at hreached
      cases hreached
    have hc := cuts_eq_zero_of_depthBoundHits hframes hhits
    rw [run, runTraced_eq_of_cuts_eq_zero hle hrecord hc]
    exact hrun

/-- A traveller without cash cannot get to the park, whatever the bound. -/
theorem runTraced_deepens_stranded :
    ∃ d planner planner' failure, Travel.domain = .ok d ∧ create d ⟨50, true⟩ = .ok planner ∧
      create d ⟨60, true⟩ = .ok planner' ∧
      (courseOfRun d ⟨50, true⟩ (Travel.startState 0)
        [⟨Travel.travelTask, ["home", "park"]⟩]).entries < 2 ^ 64 ∧
      planner.run (Travel.startState 0) [⟨Travel.travelTask, ["home", "park"]⟩] = .error failure ∧
      failure.depthBoundReached = false ∧
      planner'.run (Travel.startState 0) [⟨Travel.travelTask, ["home", "park"]⟩] =
        .error failure := by
  refine ⟨_, _, _, _, rfl, rfl, rfl, by decide, rfl, rfl, ?_⟩
  exact (runTraced_deepens (p := ⟨50, true⟩) (q := ⟨60, true⟩) rfl rfl (by decide) rfl
    (by decide)).2.2 _ rfl rfl

end Planner

end TaskNetwork
