import TaskNetwork.Proofs.Search.Completeness
import TaskNetwork.Replay

/-!
# Found plans replay

A frame calls the frames behind its operator or its methods, each with the journal that the search
has by then. Along calls that lead to success the journal's plan is what a derivation does, so the
plan of a run replays to the state of the frame that had no task left.
-/

namespace TaskNetwork

variable {S A : Type}

/-! ## Derivations replay -/

theorem Derivation.fromIndex_eq {d : Domain S A} {c c' : Configuration S A} {choices : List Choice}
    {steps : List (Task A)} (h : Derivation d c choices steps c') (index : Nat) :
    Replay.fromIndex d index c.state steps = .ok c'.state := by
  induction h generalizing index with
  | refl => rfl
  | head hs _ ih =>
      cases hs with
      | operator hr ha =>
          simp only [Option.toList_some, List.singleton_append, Replay.fromIndex, hr, ha]
          exact ih (index + 1)
      | method _ _ _ => exact ih index

theorem Derivation.resolve_of_mem {d : Domain S A} {c c' : Configuration S A}
    {choices : List Choice} {steps : List (Task A)} (h : Derivation d c choices steps c')
    {step : Task A} (hm : step ∈ steps) : ∃ op, d.resolve step.name = .primitive op := by
  induction h with
  | refl => cases hm
  | head hs _ ih =>
      cases hs with
      | operator hr _ =>
          rcases List.mem_cons.mp hm with rfl | hm
          · exact ⟨_, hr⟩
          · exact ih hm
      | method _ _ _ => exact ih hm

namespace Search

/-! ## Frames -/

/-- The arguments of one call of the search. -/
structure Frame (S A : Type) where
  room : Nat
  depth : UInt32
  state : S
  tasks : List (Task A)
  journal : Journal A

namespace Frame

/-- The frame that a run starts with. -/
def initial (p : Policy) (start : S) (tasks : List (Task A)) : Frame S A :=
  ⟨p.maxDepth.toNat + 1, 0, start, tasks, .start⟩

/-- Whether the frame succeeds by itself: it lies within the bound and has no task left. -/
def IsGoal (f : Frame S A) : Prop := 0 < f.room ∧ f.tasks = []

variable [Argument A]

/-- The verdict on a frame, and the journal after it. -/
def outcome (d : Domain S A) (p : Policy) (f : Frame S A) : Bool × Journal A :=
  seek d p f.room f.depth f.state f.tasks f.journal

/-- A frame calls the one behind its operator, and those behind its methods as far as the methods
before have failed. -/
inductive Calls (d : Domain S A) (p : Policy) : Frame S A → Frame S A → Prop where
  | operator {room : Nat} {depth : UInt32} {state next : S} {head : Task A} {rest : List (Task A)}
      {j : Journal A} {op : Operator S A} :
      d.resolve head.name = .primitive op → op.apply state head.args = .ok next →
        Calls d p ⟨room + 1, depth, state, head :: rest, j⟩
          ⟨room, depth + 1, next, rest, behindOperator p depth head j⟩
  | method {room : Nat} {depth : UInt32} {state : S} {head : Task A}
      {rest subtasks : List (Task A)} {j j' : Journal A} {before after : List (Method S A)}
      {m : Method S A} :
      d.resolve head.name = .compound (before ++ m :: after) →
        firstSuccess (tryMethod d p room depth state head rest) before (j.enter depth) =
          (false, j') →
        m.decompose state head.args = .ok subtasks →
          Calls d p ⟨room + 1, depth, state, head :: rest, j⟩
            ⟨room, depth + 1, state, subtasks ++ rest, behindMethod p depth head m subtasks j'⟩

/-- The frames that are entered from a frame, itself included. -/
inductive Enters (d : Domain S A) (p : Policy) : Frame S A → Frame S A → Prop where
  | refl (f : Frame S A) : Enters d p f f
  | call {f g h : Frame S A} : Calls d p f g → Enters d p g h → Enters d p f h

variable {d : Domain S A} {p : Policy} {f g : Frame S A} {j : Journal A}

theorem Calls.outcome_eq (h : Calls d p f g) (hg : g.outcome d p = (true, j)) :
    f.outcome d p = (true, j) := by
  cases h with
  | operator hr ha => exact (seek_applied_true hr ha).mpr hg
  | method hr hb hd =>
      rw [outcome, seek_compound hr]
      exact firstSuccess_of_true hb ((tryMethod_true hd).mpr hg)

theorem Calls.step (h : Calls d p f g) :
    ∃ choice done, Step d ⟨f.state, f.tasks⟩ choice done ⟨g.state, g.tasks⟩ ∧
      g.journal.plan.toList = f.journal.plan.toList ++ done.toList := by
  cases h with
  | operator hr ha => exact ⟨_, _, .operator hr ha, Array.toList_push⟩
  | @method _ _ _ _ _ _ _ j' before after m hr hb hd =>
      have hat : (before ++ m :: after)[before.length]? = some m := by simp
      refine ⟨_, _, .method hr hat hd, ?_⟩
      show j'.plan.toList = _
      rw [plan_of_methods_false plan_of_seek_false hb]
      exact (List.append_nil _).symm

theorem Enters.outcome_eq (h : Enters d p f g) (hg : g.outcome d p = (true, j)) :
    f.outcome d p = (true, j) := by
  induction h with
  | refl => exact hg
  | call hc _ ih => exact hc.outcome_eq (ih hg)

theorem Enters.derivation (h : Enters d p f g) :
    ∃ choices steps, Derivation d ⟨f.state, f.tasks⟩ choices steps ⟨g.state, g.tasks⟩ ∧
      g.journal.plan.toList = f.journal.plan.toList ++ steps := by
  induction h with
  | refl f => exact ⟨_, _, .refl _, (List.append_nil _).symm⟩
  | call hc _ ih =>
      obtain ⟨choice, done, hs, hplan⟩ := hc.step
      obtain ⟨choices, steps, hd, hplan'⟩ := ih
      exact ⟨_, _, .head hs hd, by rw [hplan', hplan, List.append_assoc]⟩

theorem IsGoal.outcome_eq (h : f.IsGoal) : f.outcome d p = (true, f.journal.enter f.depth) := by
  obtain ⟨room, depth, state, tasks, journal⟩ := f
  obtain ⟨hroom, rfl⟩ := h
  cases room with
  | zero => cases hroom
  | succ room => rfl

/-- A success comes from a frame that had no task left. -/
theorem exists_goal (h : f.outcome d p = (true, j)) : ∃ g, Enters d p f g ∧ g.IsGoal := by
  obtain ⟨room, depth, state, tasks, journal⟩ := f
  rw [outcome] at h
  induction room generalizing depth state tasks journal with
  | zero => cases h
  | succ room ih =>
      cases tasks with
      | nil => exact ⟨_, .refl _, Nat.succ_pos room, rfl⟩
      | cons head rest =>
          cases hr : d.resolve head.name with
          | primitive op =>
              cases ha : op.apply state head.args with
              | error failure =>
                  rw [seek_rejected hr ha] at h
                  cases h
              | ok next =>
                  obtain ⟨g, hg, hgoal⟩ := ih _ _ _ _ ((seek_applied_true hr ha).mp h)
                  exact ⟨g, .call (.operator hr ha) hg, hgoal⟩
          | compound methods =>
              rw [seek_compound hr] at h
              obtain ⟨before, m, after, j₁, rfl, hb, hm⟩ := firstSuccess_true h
              cases hd : m.decompose state head.args with
              | error failure =>
                  rw [tryMethod_inapplicable hd] at hm
                  cases hm
              | ok subtasks =>
                  obtain ⟨g, hg, hgoal⟩ := ih _ _ _ _ ((tryMethod_true hd).mp hm)
                  exact ⟨g, .call (.method hr hb hd) hg, hgoal⟩
          | unknown =>
              rw [seek_unknown hr] at h
              cases h

end Frame

end Search

/-! ## Runs -/

namespace Planner

open Search (Frame)

variable [PlanningState S] [Argument A] {d : Domain S A} {p : Policy} {planner : Planner S A}
  {start : S} {tasks : List (Task A)} {plan : Plan A}

theorem derivation_of_goal (hrun : run ⟨d, p⟩ start tasks = .ok plan) {f : Frame S A}
    (hf : Frame.Enters d p (.initial p start tasks) f) (hgoal : f.IsGoal) :
    ∃ choices, Derivation d ⟨start, tasks⟩ choices plan.steps ⟨f.state, []⟩ := by
  obtain ⟨j, hj, hplan⟩ := run_eq_ok.mp hrun
  obtain ⟨choices, steps, hd, hsteps⟩ := hf.derivation
  have hout := (hf.outcome_eq hgoal.outcome_eq).symm.trans hj
  cases hout
  rw [hgoal.2] at hd
  obtain rfl : f.journal.plan.toList = steps := hsteps
  exact ⟨choices, hplan ▸ hd⟩

/-- The steps of a found plan are primitive, and they replay to the state of the frame with which
the search ended, the one without tasks. -/
theorem run_replays (h : create d p = .ok planner) (hrun : planner.run start tasks = .ok plan) :
    (∀ step ∈ plan.steps, ∃ op, d.resolve step.name = .primitive op) ∧
      ∃ final, replay d start plan.steps = .ok final ∧
        (∃ f, Frame.Enters d p (.initial p start tasks) f ∧ f.IsGoal) ∧
        ∀ f, Frame.Enters d p (.initial p start tasks) f → f.IsGoal → f.state = final := by
  obtain rfl := eq_of_create h
  obtain ⟨j, hj, -⟩ := run_eq_ok.mp hrun
  obtain ⟨g, hg, hgoal⟩ := Frame.exists_goal (f := .initial p start tasks) hj
  obtain ⟨choices, hd⟩ := derivation_of_goal hrun hg hgoal
  refine ⟨fun step hm => hd.resolve_of_mem hm, g.state, hd.fromIndex_eq 0, ⟨g, hg, hgoal⟩, ?_⟩
  intro f hf hfgoal
  obtain ⟨choices', hd'⟩ := derivation_of_goal hrun hf hfgoal
  have hsame := (hd'.fromIndex_eq 0).symm.trans (hd.fromIndex_eq 0)
  exact Except.ok.inj hsame

theorem run_replays_on_foot :
    ∃ d planner, Travel.domain = .ok d ∧ create d {} = .ok planner ∧
      (∀ step ∈ [(⟨"walk", ["home", "shop"]⟩ : Task String)],
        ∃ op, d.resolve step.name = .primitive op) ∧
      ∃ final, replay d (Travel.startState 0) [⟨"walk", ["home", "shop"]⟩] = .ok final ∧
        (∃ f, Frame.Enters d {} (.initial {} (Travel.startState 0)
          [⟨Travel.travelTask, ["home", "shop"]⟩]) f ∧ f.IsGoal) ∧
        ∀ f, Frame.Enters d {} (.initial {} (Travel.startState 0)
          [⟨Travel.travelTask, ["home", "shop"]⟩]) f → f.IsGoal → f.state = final :=
  ⟨_, _, rfl, rfl, run_replays (p := {}) rfl rfl⟩

end Planner

end TaskNetwork
