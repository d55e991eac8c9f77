import TaskNetwork.Proofs.Search.Replay

/-!
# Planning the steps of a plan

Tasks that replay have one successful derivation only, the one that applies their operators in
turn. So the search and the replay agree on such tasks as far as the depth bound reaches, and
planning the steps of a plan anew gives the plan itself.
-/

namespace TaskNetwork

variable {S A : Type} {d : Domain S A} {state final : S} {steps : List (Task A)} {index : Nat}

/-! ## Steps that replay -/

theorem Replay.fromIndex_cons_eq_ok {step : Task A} :
    fromIndex d index state (step :: steps) = .ok final ↔
      ∃ op next, d.resolve step.name = .primitive op ∧ op.apply state step.args = .ok next ∧
        fromIndex d (index + 1) next steps = .ok final := by
  rw [fromIndex]
  cases hr : d.resolve step.name with
  | primitive op => cases ha : op.apply state step.args <;> simp [ha]
  | compound methods => simp
  | unknown => simp

namespace Derivation

/-- Steps that replay are a derivation of themselves that applies one operator for each step. -/
theorem succeeds_of_fromIndex (h : Replay.fromIndex d index state steps = .ok final) :
    Succeeds d ⟨state, steps⟩ (List.replicate steps.length .operator) steps final := by
  induction steps generalizing index state with
  | nil =>
      cases h
      exact .refl _
  | cons step steps ih =>
      obtain ⟨op, next, hr, ha, h⟩ := Replay.fromIndex_cons_eq_ok.mp h
      exact .head (.operator hr ha) (ih h)

/-- From steps that replay no derivation leads to other steps. -/
theorem Succeeds.steps_eq_of_fromIndex (h : Replay.fromIndex d index state steps = .ok final)
    {choices : List Choice} {steps' : List (Task A)} {final' : S}
    (hs : Succeeds d ⟨state, steps⟩ choices steps' final') : steps' = steps := by
  induction steps generalizing index state choices steps' with
  | nil => exact hs.of_nil.2.1
  | cons step steps ih =>
      obtain ⟨op, next, hr, ha, h⟩ := Replay.fromIndex_cons_eq_ok.mp h
      obtain ⟨next', choices', steps'', ha', rfl, rfl, hs'⟩ := hs.of_primitive hr
      rw [ha] at ha'
      cases ha'
      rw [ih h hs']

end Derivation

/-! ## Runs -/

namespace Planner

variable [PlanningState S] [Argument A] {p : Policy} {planner : Planner S A} {start : S}
  {tasks : List (Task A)} {plan : Plan A}

theorem exists_replay_of_run (h : run ⟨d, p⟩ start tasks = .ok plan) :
    ∃ final, replay d start plan.steps = .ok final := by
  obtain ⟨choices, final, hs, -⟩ := exists_succeeds_of_run h
  exact ⟨final, Derivation.fromIndex_eq hs 0⟩

theorem run_of_replay (h : replay d start steps = .ok final)
    (hl : steps.length ≤ p.maxDepth.toNat) : run ⟨d, p⟩ start steps = .ok ⟨steps⟩ := by
  have hs := Derivation.succeeds_of_fromIndex h
  obtain ⟨plan, hrun⟩ := exists_run_of_succeeds (p := p) hs (by rwa [List.length_replicate])
  obtain ⟨choices, final', hs', -⟩ := exists_succeeds_of_run hrun
  rw [hrun, ← hs'.steps_eq_of_fromIndex h]

/-- The search gives tasks back as the plan exactly if they replay and are no more than the bound
allows. Planning the steps of a plan anew gives the plan. -/
theorem run_eq_ok_iff_replay (h : create d p = .ok planner) (start : S) :
    (∀ steps, planner.run start steps = .ok ⟨steps⟩ ↔
      (∃ final, replay d start steps = .ok final) ∧ steps.length ≤ p.maxDepth.toNat) ∧
    ∀ tasks plan, planner.run start tasks = .ok plan →
      planner.run start plan.steps = .ok plan := by
  obtain rfl := eq_of_create h
  refine ⟨fun steps => ⟨fun hrun => ?_, ?_⟩, fun tasks plan hrun => ?_⟩
  · exact ⟨exists_replay_of_run hrun, length_steps_le hrun⟩
  · rintro ⟨⟨final, hreplay⟩, hl⟩
    exact run_of_replay hreplay hl
  · obtain ⟨final, hreplay⟩ := exists_replay_of_run hrun
    exact run_of_replay hreplay (length_steps_le hrun)

/-- Two walks there and back are planned within a bound of two, three are not; what a traveller
without cash does to get to the shop is planned anew as it is. -/
theorem run_eq_ok_iff_replay_on_foot :
    ∃ d planner, Travel.domain = .ok d ∧ create d { maxDepth := 2 } = .ok planner ∧
      planner.run (Travel.startState 0) [⟨"walk", ["home", "shop"]⟩, ⟨"walk", ["shop", "home"]⟩] =
        .ok ⟨[⟨"walk", ["home", "shop"]⟩, ⟨"walk", ["shop", "home"]⟩]⟩ ∧
      (∃ final, replay d (Travel.startState 0)
        [⟨"walk", ["home", "shop"]⟩, ⟨"walk", ["shop", "home"]⟩, ⟨"walk", ["home", "shop"]⟩] =
          .ok final) ∧
      planner.run (Travel.startState 0)
        [⟨"walk", ["home", "shop"]⟩, ⟨"walk", ["shop", "home"]⟩, ⟨"walk", ["home", "shop"]⟩] ≠
          .ok ⟨[⟨"walk", ["home", "shop"]⟩, ⟨"walk", ["shop", "home"]⟩,
            ⟨"walk", ["home", "shop"]⟩]⟩ ∧
      planner.run (Travel.startState 0) [⟨Travel.travelTask, ["home", "shop"]⟩] =
        .ok ⟨[⟨"walk", ["home", "shop"]⟩]⟩ ∧
      planner.run (Travel.startState 0) [⟨"walk", ["home", "shop"]⟩] =
        .ok ⟨[⟨"walk", ["home", "shop"]⟩]⟩ := by
  refine ⟨_, _, rfl, rfl, ?_, ⟨_, rfl⟩, ?_, rfl, ?_⟩
  · exact ((run_eq_ok_iff_replay (p := { maxDepth := 2 }) rfl _).1 _).mpr ⟨⟨_, rfl⟩, by decide⟩
  · intro hrun
    have hreplay := ((run_eq_ok_iff_replay (p := { maxDepth := 2 }) rfl _).1 _).mp hrun
    exact absurd hreplay.2 (by decide)
  · exact (run_eq_ok_iff_replay (p := { maxDepth := 2 }) rfl _).2
      [⟨Travel.travelTask, ["home", "shop"]⟩] ⟨[⟨"walk", ["home", "shop"]⟩]⟩ rfl

end Planner

end TaskNetwork
