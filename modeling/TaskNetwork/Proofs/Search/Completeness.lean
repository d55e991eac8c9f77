import TaskNetwork.Planner
import TaskNetwork.Proofs.Search.Seek
import TaskNetwork.Search.Derivation
import TaskNetwork.Travel

/-!
# Completeness of the search up to the depth bound

A search that succeeds has found the first of the successful derivations within the bound, in the
order in which their methods are declared; a search that fails leaves none within the bound.
-/

namespace TaskNetwork

variable {S A : Type}

/-! ## Successful derivations by their head task -/

namespace Derivation

variable {d : Domain S A} {state final : S} {head : Task A} {rest steps : List (Task A)}
  {choices : List Choice}

theorem length_dones_le {c c' : Configuration S A} {dones : List (Task A)}
    (h : Derivation d c choices dones c') : dones.length ≤ choices.length := by
  induction h with
  | refl => exact Nat.le_refl _
  | @head _ _ _ _ done _ _ _ _ ih =>
      rw [List.length_append, List.length_cons]
      cases done with
      | none => exact Nat.le_trans (Nat.le_of_eq (Nat.zero_add _)) (Nat.le_succ_of_le ih)
      | some t => exact Nat.le_trans (Nat.le_of_eq (Nat.add_comm _ _)) (Nat.succ_le_succ ih)

theorem Succeeds.of_nil (h : Succeeds d ⟨state, []⟩ choices steps final) :
    choices = [] ∧ steps = [] ∧ final = state := by
  cases h with
  | refl => exact ⟨rfl, rfl, rfl⟩
  | head hs _ => cases hs

theorem Succeeds.of_primitive {op : Operator S A} (hr : d.resolve head.name = .primitive op)
    (h : Succeeds d ⟨state, head :: rest⟩ choices steps final) :
    ∃ next choices' steps', op.apply state head.args = .ok next ∧ choices = .operator :: choices' ∧
      steps = head :: steps' ∧ Succeeds d ⟨next, rest⟩ choices' steps' final := by
  cases h with
  | head hs h =>
      cases hs with
      | operator hr' ha =>
          rw [hr] at hr'
          cases hr'
          exact ⟨_, _, _, ha, rfl, rfl, h⟩
      | method hr' _ _ =>
          rw [hr] at hr'
          cases hr'

theorem Succeeds.of_compound {methods : List (Method S A)}
    (hr : d.resolve head.name = .compound methods)
    (h : Succeeds d ⟨state, head :: rest⟩ choices steps final) :
    ∃ position m subtasks choices', methods[position]? = some m ∧
      m.decompose state head.args = .ok subtasks ∧ choices = .method position :: choices' ∧
      Succeeds d ⟨state, subtasks ++ rest⟩ choices' steps final := by
  cases h with
  | head hs h =>
      cases hs with
      | operator hr' _ =>
          rw [hr] at hr'
          cases hr'
      | method hr' hm hd =>
          rw [hr] at hr'
          cases hr'
          exact ⟨_, _, _, _, hm, hd, rfl, h⟩

theorem Succeeds.not_unknown (hr : d.resolve head.name = .unknown) :
    ¬ Succeeds d ⟨state, head :: rest⟩ choices steps final := by
  intro h
  cases h with
  | head hs _ =>
      cases hs with
      | operator hr' _ =>
          rw [hr] at hr'
          cases hr'
      | method hr' _ _ =>
          rw [hr] at hr'
          cases hr'

/-- The successful derivation of at most `bound` steps that takes the earliest methods: every other
one differs from it first at a task for which it takes a later method. -/
structure IsFirst (d : Domain S A) (c : Configuration S A) (bound : Nat) (choices : List Choice)
    (steps : List (Task A)) (final : S) : Prop where
  succeeds : Succeeds d c choices steps final
  length_le : choices.length ≤ bound
  first {choices' : List Choice} {steps' : List (Task A)} {final' : S} :
    Succeeds d c choices' steps' final' → choices'.length ≤ bound →
      choices' = choices ∨ Choice.positions choices < Choice.positions choices'

@[simp] theorem positions_operator (choices : List Choice) :
    Choice.positions (.operator :: choices) = Choice.positions choices := rfl

@[simp] theorem positions_method (position : Nat) (choices : List Choice) :
    Choice.positions (.method position :: choices) = position :: Choice.positions choices := rfl

theorem IsFirst.nil (bound : Nat) : IsFirst d ⟨state, []⟩ bound [] [] state where
  succeeds := .refl _
  length_le := Nat.zero_le _
  first hs _ := Or.inl hs.of_nil.1

theorem IsFirst.operator {next : S} {op : Operator S A} {bound : Nat}
    (hr : d.resolve head.name = .primitive op) (ha : op.apply state head.args = .ok next)
    (h : IsFirst d ⟨next, rest⟩ bound choices steps final) :
    IsFirst d ⟨state, head :: rest⟩ (bound + 1) (.operator :: choices) (head :: steps) final where
  succeeds := .head (.operator hr ha) h.succeeds
  length_le := Nat.succ_le_succ h.length_le
  first hs hl := by
    obtain ⟨next', choices', steps', ha', rfl, rfl, hs'⟩ := hs.of_primitive hr
    rw [ha] at ha'
    cases ha'
    simpa using h.first hs' (Nat.le_of_succ_le_succ hl)

/-- A method takes part in the first derivation if those before it lead nowhere in the bound. -/
theorem IsFirst.method {methods : List (Method S A)} {position : Nat} {m : Method S A}
    {subtasks : List (Task A)} {bound : Nat} (hr : d.resolve head.name = .compound methods)
    (hm : methods[position]? = some m) (hd : m.decompose state head.args = .ok subtasks)
    (hbefore : ∀ i < position, ∀ m' subtasks' choices' steps' final', methods[i]? = some m' →
      m'.decompose state head.args = .ok subtasks' →
        Succeeds d ⟨state, subtasks' ++ rest⟩ choices' steps' final' → bound < choices'.length)
    (h : IsFirst d ⟨state, subtasks ++ rest⟩ bound choices steps final) :
    IsFirst d ⟨state, head :: rest⟩ (bound + 1) (.method position :: choices) steps final where
  succeeds := .head (.method hr hm hd) h.succeeds
  length_le := Nat.succ_le_succ h.length_le
  first hs hl := by
    obtain ⟨i, m', subtasks', choices', hm', hd', rfl, hs'⟩ := hs.of_compound hr
    have hl : choices'.length ≤ bound := Nat.le_of_succ_le_succ hl
    rw [positions_method, positions_method, List.cons_lt_cons_iff]
    rcases Nat.lt_trichotomy i position with hlt | rfl | hgt
    · exact absurd hl (Nat.not_le.mpr (hbefore i hlt m' subtasks' _ _ _ hm' hd' hs'))
    · rw [hm] at hm'
      cases hm'
      rw [hd] at hd'
      cases hd'
      rcases h.first hs' hl with rfl | hlt
      · exact Or.inl rfl
      · exact Or.inr (Or.inr ⟨rfl, hlt⟩)
    · exact Or.inr (Or.inl hgt)

end Derivation

namespace Search

open TaskNetwork.Derivation (Succeeds IsFirst)

variable [Argument A] {d : Domain S A} {p : Policy} {room bound : Nat} {depth : UInt32} {state : S}
  {tasks : List (Task A)} {j j' : Journal A}

/-! ## Failures -/

theorem plan_of_tryMethod_false {head : Task A} {rest : List (Task A)} {m : Method S A}
    (hseek : ∀ {depth state tasks} {j j' : Journal A},
      seek d p room depth state tasks j = (false, j') → j'.plan = j.plan)
    (h : tryMethod d p room depth state head rest m j = (false, j')) : j'.plan = j.plan := by
  cases hd : m.decompose state head.args with
  | error failure =>
      rw [tryMethod_inapplicable hd] at h
      cases h
      rfl
  | ok subtasks =>
      obtain ⟨j₁, hs, rfl⟩ := (tryMethod_false hd).mp h
      have hp := hseek hs
      exact hp

theorem plan_of_methods_false {head : Task A} {rest : List (Task A)} {methods : List (Method S A)}
    (hseek : ∀ {depth state tasks} {j j' : Journal A},
      seek d p room depth state tasks j = (false, j') → j'.plan = j.plan)
    (h : firstSuccess (tryMethod d p room depth state head rest) methods j = (false, j')) :
    j'.plan = j.plan :=
  firstSuccess_false_keeps (f := Journal.plan)
    (fun _ _ _ _ hm => plan_of_tryMethod_false hseek hm) h

/-- A failing frame takes its steps off the plan again. -/
theorem plan_of_seek_false (h : seek d p room depth state tasks j = (false, j')) :
    j'.plan = j.plan := by
  induction room generalizing depth state tasks j j' with
  | zero =>
      cases h
      rfl
  | succ room ih =>
      cases tasks with
      | nil => cases h
      | cons head rest =>
          cases hr : d.resolve head.name with
          | primitive op =>
              cases ha : op.apply state head.args with
              | error failure =>
                  rw [seek_rejected hr ha] at h
                  cases h
                  rfl
              | ok next =>
                  obtain ⟨j₁, hs, rfl⟩ := (seek_applied_false hr ha).mp h
                  show j₁.plan.pop = j.plan
                  rw [ih hs]
                  exact Array.pop_push
          | compound methods =>
              rw [seek_compound hr] at h
              have hp := plan_of_methods_false ih h
              exact hp
          | unknown =>
              rw [seek_unknown hr] at h
              cases h
              rfl

/-- A failing frame leaves no successful derivation within its room. -/
theorem room_le_of_seek_false (h : seek d p room depth state tasks j = (false, j'))
    {choices : List Choice} {steps : List (Task A)} {final : S}
    (hs : Succeeds d ⟨state, tasks⟩ choices steps final) : room ≤ choices.length := by
  induction room generalizing depth state tasks j j' choices steps with
  | zero => exact Nat.zero_le _
  | succ room ih =>
      cases tasks with
      | nil => cases h
      | cons head rest =>
          cases hr : d.resolve head.name with
          | primitive op =>
              obtain ⟨next, choices, steps, ha, rfl, rfl, hs'⟩ := hs.of_primitive hr
              obtain ⟨j₁, hf, -⟩ := (seek_applied_false hr ha).mp h
              exact Nat.succ_le_succ (ih hf hs')
          | compound methods =>
              obtain ⟨position, m, subtasks, choices, hm, hd, rfl, hs'⟩ := hs.of_compound hr
              rw [seek_compound hr] at h
              obtain ⟨j₁, j₂, hf⟩ := firstSuccess_false h (List.mem_of_getElem? hm)
              obtain ⟨j₃, hf, -⟩ := (tryMethod_false hd).mp hf
              exact Nat.succ_le_succ (ih hf hs')
          | unknown => exact absurd hs (Succeeds.not_unknown hr)

/-! ## Successes -/

/-- A successful frame adds the steps of the first successful derivation to the plan. -/
theorem first_of_seek_true (h : seek d p room depth state tasks j = (true, j')) :
    ∃ bound choices steps final, room = bound + 1 ∧
      IsFirst d ⟨state, tasks⟩ bound choices steps final ∧
      j'.plan.toList = j.plan.toList ++ steps := by
  induction room generalizing depth state tasks j j' with
  | zero => cases h
  | succ room ih =>
      cases tasks with
      | nil =>
          cases h
          exact ⟨room, [], [], state, rfl, .nil room, (List.append_nil _).symm⟩
      | cons head rest =>
          cases hr : d.resolve head.name with
          | primitive op =>
              cases ha : op.apply state head.args with
              | error failure =>
                  rw [seek_rejected hr ha] at h
                  cases h
              | ok next =>
                  obtain ⟨bound, choices, steps, final, rfl, hf, hp⟩ :=
                    ih ((seek_applied_true hr ha).mp h)
                  refine ⟨_, _, _, final, rfl, hf.operator hr ha, ?_⟩
                  rw [hp]
                  simp [behindOperator, Journal.pushStep, Journal.note, Journal.countApplication,
                    Journal.enter]
          | compound methods =>
              rw [seek_compound hr] at h
              obtain ⟨before, m, after, j₁, rfl, hb, hm⟩ := firstSuccess_true h
              cases hd : m.decompose state head.args with
              | error failure =>
                  rw [tryMethod_inapplicable hd] at hm
                  cases hm
              | ok subtasks =>
                  obtain ⟨bound, choices, steps, final, rfl, hf, hp⟩ :=
                    ih ((tryMethod_true hd).mp hm)
                  have hat : (before ++ m :: after)[before.length]? = some m := by simp
                  refine ⟨_, _, _, final, rfl, hf.method hr hat hd ?_, ?_⟩
                  · intro i hi m' subtasks' choices' steps' final' hm' hd' hs
                    rw [List.getElem?_append_left hi] at hm'
                    obtain ⟨j₂, j₃, hfail⟩ := firstSuccess_false hb (List.mem_of_getElem? hm')
                    obtain ⟨j₄, hfail, -⟩ := (tryMethod_false hd').mp hfail
                    exact room_le_of_seek_false hfail hs
                  · have hkept := plan_of_methods_false plan_of_seek_false hb
                    rw [hp]
                    show j₁.plan.toList ++ steps = j.plan.toList ++ steps
                    rw [hkept]
                    rfl
          | unknown =>
              rw [seek_unknown hr] at h
              cases h

end Search

/-! ## Planners -/

theorem Policy.validate_eq_ok {p : Policy} :
    p.validate = .ok () ↔ 1 ≤ p.maxDepth.toNat ∧ p.maxDepth.toNat ≤ 1024 := by
  have hzero : p.maxDepth = 0 ↔ p.maxDepth.toNat = 0 := by
    rw [← UInt32.toNat_inj, UInt32.toNat_zero]
  have hceiling : p.maxDepth > maxDepthCeiling ↔ 1024 < p.maxDepth.toNat := UInt32.lt_iff_toNat_lt
  simp only [validate, hzero, hceiling]
  split
  · exact iff_of_false nofun (by omega)
  · split
    · exact iff_of_false nofun (by omega)
    · exact iff_of_true rfl (by omega)

namespace Planner

open TaskNetwork.Derivation (Succeeds IsFirst)

variable {d : Domain S A} {p : Policy} {planner : Planner S A}

theorem eq_of_create (h : create d p = .ok planner) : planner = ⟨d, p⟩ := by
  cases hv : p.validate with
  | error e =>
      rw [create, hv] at h
      cases h
  | ok u =>
      rw [create, hv] at h
      cases h
      rfl

theorem validate_of_create (h : create d p = .ok planner) : p.validate = .ok () := by
  cases hv : p.validate with
  | error e =>
      rw [create, hv] at h
      cases h
  | ok u => rfl

theorem create_of_validate (h : p.validate = .ok ()) : create d p = .ok ⟨d, p⟩ := by
  rw [create, h]
  rfl

variable [PlanningState S] [Argument A]

theorem run_eq_ok {start : S} {tasks : List (Task A)} {plan : Plan A} :
    run ⟨d, p⟩ start tasks = .ok plan ↔
      ∃ j, Search.run d p start tasks = (true, j) ∧ j.plan.toList = plan.steps := by
  show resultOf (Search.run d p start tasks) = .ok plan ↔ _
  rcases Search.run d p start tasks with ⟨_ | _, j⟩
  · simp [resultOf]
  · obtain ⟨steps⟩ := plan
    simp [resultOf]

theorem exists_succeeds_of_run {start : S} {tasks : List (Task A)} {plan : Plan A}
    (h : run ⟨d, p⟩ start tasks = .ok plan) :
    ∃ choices final, Succeeds d ⟨start, tasks⟩ choices plan.steps final ∧
      choices.length ≤ p.maxDepth.toNat := by
  obtain ⟨j, hj, hplan⟩ := run_eq_ok.mp h
  obtain ⟨bound, choices, steps, final, hb, hf, hp⟩ := Search.first_of_seek_true hj
  cases hb
  rw [← hplan, hp]
  exact ⟨choices, final, hf.succeeds, hf.length_le⟩

theorem run_eq_error {start : S} {tasks : List (Task A)} {failure : PlanFailure} :
    run ⟨d, p⟩ start tasks = .error failure ↔
      ∃ j, Search.run d p start tasks = (false, j) ∧
        failure = ⟨j.unresolved.keys, j.depthBoundHits > 0, j.framesVisited⟩ := by
  show resultOf (Search.run d p start tasks) = .error failure ↔ _
  rcases Search.run d p start tasks with ⟨_ | _, j⟩ <;> simp [resultOf, eq_comm]

theorem metadata_of_run_error {start : S} {tasks : List (Task A)} {failure : PlanFailure}
    (h : run ⟨d, p⟩ start tasks = .error failure) :
    (runTraced ⟨d, p⟩ start tasks).trace.metadata.unresolvedTaskNames =
      failure.unresolvedTaskNames ∧
    (runTraced ⟨d, p⟩ start tasks).trace.metadata.framesVisited = failure.framesVisited ∧
    (runTraced ⟨d, p⟩ start tasks).trace.metadata.termination =
      .searchExhausted failure.depthBoundReached ∧
    (failure.depthBoundReached = true ↔
      0 < (runTraced ⟨d, p⟩ start tasks).trace.metadata.depthBoundHits) := by
  obtain ⟨j, hj, rfl⟩ := run_eq_error.mp h
  rw [runTraced, hj]
  exact ⟨rfl, rfl, rfl, decide_eq_true_iff⟩

theorem termination_of_run_ok {start : S} {tasks : List (Task A)} {plan : Plan A}
    (h : run ⟨d, p⟩ start tasks = .ok plan) :
    (runTraced ⟨d, p⟩ start tasks).trace.metadata.termination =
      .planFound plan.steps.length.toUInt64 := by
  obtain ⟨j, hj, hplan⟩ := run_eq_ok.mp h
  rw [runTraced, hj, ← hplan, Array.length_toList]
  rfl

theorem length_steps_le {start : S} {tasks : List (Task A)} {plan : Plan A}
    (h : run ⟨d, p⟩ start tasks = .ok plan) : plan.steps.length ≤ p.maxDepth.toNat := by
  obtain ⟨choices, final, hs, hl⟩ := exists_succeeds_of_run h
  exact Nat.le_trans hs.length_dones_le hl

theorem exists_run_of_succeeds {start final : S} {tasks steps : List (Task A)}
    {choices : List Choice} (hs : Succeeds d ⟨start, tasks⟩ choices steps final)
    (hl : choices.length ≤ p.maxDepth.toNat) : ∃ plan, run ⟨d, p⟩ start tasks = .ok plan := by
  cases hrun : run ⟨d, p⟩ start tasks with
  | ok plan => exact ⟨plan, rfl⟩
  | error failure =>
      obtain ⟨j, hj, -⟩ := run_eq_error.mp hrun
      exact absurd (Search.room_le_of_seek_false hj hs) (by omega)

/-- A run finds a plan exactly if some derivation within the bound succeeds. The plan is then what
the first such derivation does. -/
theorem run_finds_first (h : create d p = .ok planner) (start : S) (tasks : List (Task A)) :
    ((∃ plan, planner.run start tasks = .ok plan) ↔
      ∃ choices steps final, Succeeds d ⟨start, tasks⟩ choices steps final ∧
        choices.length ≤ p.maxDepth.toNat) ∧
    (∀ plan, planner.run start tasks = .ok plan →
      ∃ choices final, IsFirst d ⟨start, tasks⟩ p.maxDepth.toNat choices plan.steps final) ∧
    ((∃ failure, planner.run start tasks = .error failure) ↔
      ∀ choices steps final, Succeeds d ⟨start, tasks⟩ choices steps final →
        p.maxDepth.toNat < choices.length) := by
  obtain rfl := eq_of_create h
  have hfirst (plan : Plan A) (hrun : run ⟨d, p⟩ start tasks = .ok plan) :
      ∃ choices final, IsFirst d ⟨start, tasks⟩ p.maxDepth.toNat choices plan.steps final := by
    obtain ⟨j, hj, hplan⟩ := run_eq_ok.mp hrun
    obtain ⟨bound, choices, steps, final, hb, hf, hp⟩ := Search.first_of_seek_true hj
    cases hb
    rw [← hplan, hp]
    exact ⟨choices, final, hf⟩
  have hnone (failure : PlanFailure) (hrun : run ⟨d, p⟩ start tasks = .error failure)
      {choices : List Choice} {steps : List (Task A)} {final : S}
      (hs : Succeeds d ⟨start, tasks⟩ choices steps final) :
      p.maxDepth.toNat < choices.length := by
    obtain ⟨j, hj, -⟩ := run_eq_error.mp hrun
    exact Search.room_le_of_seek_false hj hs
  refine ⟨⟨?_, ?_⟩, hfirst, ⟨?_, ?_⟩⟩
  · rintro ⟨plan, hrun⟩
    obtain ⟨choices, final, hf⟩ := hfirst plan hrun
    exact ⟨choices, plan.steps, final, hf.succeeds, hf.length_le⟩
  · rintro ⟨choices, steps, final, hs, hl⟩
    cases hrun : run ⟨d, p⟩ start tasks with
    | ok plan => exact ⟨plan, rfl⟩
    | error failure => exact absurd hl (Nat.not_le.mpr (hnone failure hrun hs))
  · rintro ⟨failure, hrun⟩ choices steps final hs
    exact hnone failure hrun hs
  · intro hall
    cases hrun : run ⟨d, p⟩ start tasks with
    | ok plan =>
        obtain ⟨choices, final, hf⟩ := hfirst plan hrun
        exact absurd hf.length_le (Nat.not_le.mpr (hall _ _ _ hf.succeeds))
    | error failure => exact ⟨failure, rfl⟩

/-- A traveller without cash walks to the shop, after the taxi has been tried in vain. -/
theorem run_finds_first_on_foot :
    ∃ d planner, Travel.domain = .ok d ∧ create d {} = .ok planner ∧
      ∃ choices final, IsFirst d ⟨Travel.startState 0, [⟨Travel.travelTask, ["home", "shop"]⟩]⟩ 50
        choices [⟨"walk", ["home", "shop"]⟩] final :=
  ⟨_, _, rfl, rfl, (run_finds_first (p := {}) rfl _ _).2.1 ⟨[⟨"walk", ["home", "shop"]⟩]⟩ rfl⟩

end Planner

end TaskNetwork
