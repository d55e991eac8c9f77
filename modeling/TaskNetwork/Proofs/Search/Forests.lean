import TaskNetwork.Proofs.Search.Linear
import TaskNetwork.Search.Derivation

/-!
# Derivations as forests

A derivation works off one flat list of tasks, whereas a forest keeps the subtasks of each task
together. The first tasks of a list are worked off before the others are touched, so a successful
derivation falls apart wherever its list of tasks does. So it is a forest told step by step: each
step is a leaf or a node.
-/

namespace TaskNetwork

variable {S A : Type} {d : Domain S A} {state next final : S} {first rest tasks : List (Task A)}
  {choices choices₁ choices₂ : List Choice} {steps steps₁ steps₂ : List (Task A)}

/-! ## Lists of tasks one behind the other -/

namespace Derivation

/-- Tasks that stand behind are not touched. -/
theorem append_tasks {c c' : Configuration S A} (h : Derivation d c choices steps c')
    (rest : List (Task A)) :
    Derivation d ⟨c.state, c.tasks ++ rest⟩ choices steps ⟨c'.state, c'.tasks ++ rest⟩ := by
  induction h with
  | refl => exact .refl _
  | head hs _ ih =>
      cases hs with
      | operator hr ha => exact .head (.operator hr ha) ih
      | method hr hm hd =>
          rw [List.append_assoc] at ih
          exact .head (.method hr hm hd) ih

theorem Succeeds.append (h₁ : Succeeds d ⟨state, first⟩ choices₁ steps₁ next)
    (h₂ : Succeeds d ⟨next, rest⟩ choices₂ steps₂ final) :
    Succeeds d ⟨state, first ++ rest⟩ (choices₁ ++ choices₂) (steps₁ ++ steps₂) final :=
  (h₁.append_tasks rest).trans h₂

/-- The first tasks are done before the rest is begun. -/
theorem Succeeds.exists_of_append (h : Succeeds d ⟨state, first ++ rest⟩ choices steps final) :
    ∃ next choices₁ choices₂ steps₁ steps₂, choices = choices₁ ++ choices₂ ∧
      steps = steps₁ ++ steps₂ ∧ Succeeds d ⟨state, first⟩ choices₁ steps₁ next ∧
      Succeeds d ⟨next, rest⟩ choices₂ steps₂ final := by
  induction choices generalizing state first steps with
  | nil =>
      cases first with
      | nil => exact ⟨state, [], [], [], steps, rfl, rfl, .refl _, h⟩
      | cons head first => cases h
  | cons choice choices ih =>
      cases first with
      | nil => exact ⟨state, [], choice :: choices, [], steps, rfl, rfl, .refl _, h⟩
      | cons head first =>
          rw [List.cons_append] at h
          cases h with
          | head hs h =>
              cases hs with
              | operator hr ha =>
                  obtain ⟨next, choices₁, choices₂, steps₁, steps₂, rfl, rfl, hfirst, hrest⟩ := ih h
                  exact ⟨next, .operator :: choices₁, choices₂, head :: steps₁, steps₂, rfl, rfl,
                    .head (.operator hr ha) hfirst, hrest⟩
              | @method _ _ _ _ _ position _ hr hm hd =>
                  rw [← List.append_assoc] at h
                  obtain ⟨next, choices₁, choices₂, steps₁, steps₂, rfl, rfl, hfirst, hrest⟩ := ih h
                  exact ⟨next, .method position :: choices₁, choices₂, steps₁, steps₂, rfl, rfl,
                    .head (.method hr hm hd) hfirst, hrest⟩

end Derivation

/-! ## Forests and derivations -/

open TaskNetwork.Derivation (Succeeds)
open Forest (Decomposes)

/-- A forest is worked off from left to right, and each node before what lies below it. -/
theorem Forest.Decomposes.exists_succeeds {forest : Forest A}
    (h : Decomposes d state tasks forest final) :
    ∃ choices, Succeeds d ⟨state, tasks⟩ choices forest.leaves final ∧
      choices.length = forest.size := by
  induction h with
  | empty => exact ⟨[], .refl _, rfl⟩
  | leaf hr ha _ ih =>
      obtain ⟨choices, hs, hlen⟩ := ih
      exact ⟨.operator :: choices, .head (.operator hr ha) hs, congrArg (· + 1) hlen⟩
  | @node _ _ _ _ _ _ _ position _ below right hr hm hd _ _ ihbelow ihright =>
      obtain ⟨choices₁, hs₁, hlen₁⟩ := ihbelow
      obtain ⟨choices₂, hs₂, hlen₂⟩ := ihright
      refine ⟨.method position :: (choices₁ ++ choices₂), .head (.method hr hm hd) ?_, ?_⟩
      · exact hs₁.append hs₂
      · rw [List.length_cons, List.length_append, hlen₁, hlen₂, Forest.size]

theorem Derivation.Succeeds.exists_forest (h : Succeeds d ⟨state, tasks⟩ choices steps final) :
    ∃ forest, Decomposes d state tasks forest final ∧ forest.leaves = steps ∧
      forest.size = choices.length := by
  -- A node splits the choices behind it in two parts, so the induction is on their number.
  induction hn : choices.length using Nat.strongRecOn
    generalizing state tasks choices steps final with
  | ind n ih =>
      cases h with
      | refl => exact ⟨.empty, .empty _, rfl, hn⟩
      | head hs h =>
          cases hs with
          | operator hr ha =>
              rw [List.length_cons] at hn
              obtain ⟨right, hright, rfl, hsize⟩ := ih _ (by omega) h rfl
              exact ⟨.leaf _ right, .leaf hr ha hright, rfl, by rw [Forest.size, hsize, hn]⟩
          | method hr hm hd =>
              obtain ⟨next, choices₁, choices₂, steps₁, steps₂, rfl, rfl, hfirst, hrest⟩ :=
                Succeeds.exists_of_append h
              rw [List.length_cons, List.length_append] at hn
              obtain ⟨below, hbelow, rfl, hsize₁⟩ := ih _ (by omega) hfirst rfl
              obtain ⟨right, hright, rfl, hsize₂⟩ := ih _ (by omega) hrest rfl
              refine ⟨.node _ _ below right, .node hr hm hd hbelow hright, rfl, ?_⟩
              rw [Forest.size, hsize₁, hsize₂, hn]

/-! ## Planners -/

namespace Planner

variable [PlanningState S] [Argument A] {p : Policy} {planner : Planner S A}

/-- A run finds a plan exactly if the tasks have a forest that the depth bound has room for, and
the steps of the plan are the leaves of such a forest. -/
theorem run_decomposes (h : create d p = .ok planner) (start : S) (tasks : List (Task A)) :
    ((∃ plan, planner.run start tasks = .ok plan) ↔
      ∃ forest final, Decomposes d start tasks forest final ∧ forest.size ≤ p.maxDepth.toNat) ∧
    ∀ plan, planner.run start tasks = .ok plan →
      ∃ forest final, Decomposes d start tasks forest final ∧ forest.size ≤ p.maxDepth.toNat ∧
        plan.steps = forest.leaves := by
  obtain rfl := eq_of_create h
  have hforest (plan : Plan A) (hrun : run ⟨d, p⟩ start tasks = .ok plan) :
      ∃ forest final, Decomposes d start tasks forest final ∧ forest.size ≤ p.maxDepth.toNat ∧
        plan.steps = forest.leaves := by
    obtain ⟨choices, final, hs, hl⟩ := exists_succeeds_of_run hrun
    obtain ⟨forest, hd, hleaves, hsize⟩ := hs.exists_forest
    exact ⟨forest, final, hd, hsize ▸ hl, hleaves.symm⟩
  refine ⟨⟨?_, ?_⟩, hforest⟩
  · rintro ⟨plan, hrun⟩
    obtain ⟨forest, final, hd, hsize, -⟩ := hforest plan hrun
    exact ⟨forest, final, hd, hsize⟩
  · rintro ⟨forest, final, hd, hsize⟩
    obtain ⟨choices, hs, hlen⟩ := hd.exists_succeeds
    exact exists_run_of_succeeds hs (hlen ▸ hsize)

/-- The plan to walk is the only leaf below the task to travel. -/
theorem run_decomposes_on_foot :
    ∃ d planner, Travel.domain = .ok d ∧ create d {} = .ok planner ∧
      ∃ forest final,
        Decomposes d (Travel.startState 0) [⟨Travel.travelTask, ["home", "shop"]⟩] forest final ∧
          forest.size ≤ 50 ∧ [⟨"walk", ["home", "shop"]⟩] = forest.leaves :=
  ⟨_, _, rfl, rfl, (run_decomposes (p := {}) rfl _ _).2 ⟨[⟨"walk", ["home", "shop"]⟩]⟩ rfl⟩

end Planner

end TaskNetwork
