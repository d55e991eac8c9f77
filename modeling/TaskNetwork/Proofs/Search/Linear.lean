import TaskNetwork.Proofs.Search.Completeness

/-!
# Domains without alternatives

In a domain with at most one method for each task the search has no choice: it follows the one
longest derivation, without going back, and ends as this does.
-/

namespace TaskNetwork

variable {S A : Type}

theorem Derivation.trans {d : Domain S A} {c₁ c₂ c₃ : Configuration S A}
    {choices₁ choices₂ : List Choice} {steps₁ steps₂ : List (Task A)}
    (h₁ : Derivation d c₁ choices₁ steps₁ c₂) (h₂ : Derivation d c₂ choices₂ steps₂ c₃) :
    Derivation d c₁ (choices₁ ++ choices₂) (steps₁ ++ steps₂) c₃ := by
  induction h₁ with
  | refl => exact h₂
  | head hs _ ih =>
      rw [List.append_assoc]
      exact .head hs (ih h₂)

/-- At most one method for each task. -/
def Domain.IsLinear (d : Domain S A) : Prop :=
  ∀ name methods, d.resolve name = .compound methods → methods.length ≤ 1

/-- A task is left, but no step deals with it. -/
def Configuration.IsStuck (d : Domain S A) (c : Configuration S A) : Prop :=
  c.tasks ≠ [] ∧ ∀ choice done c', ¬ Step d c choice done c'

theorem Step.eq_of_isLinear {d : Domain S A} (hlin : d.IsLinear) {c c₁ c₂ : Configuration S A}
    {choice₁ choice₂ : Choice} {done₁ done₂ : Option (Task A)} (h₁ : Step d c choice₁ done₁ c₁)
    (h₂ : Step d c choice₂ done₂ c₂) : done₁ = done₂ ∧ c₁ = c₂ := by
  have hchoice : choice₁ = choice₂ := by
    cases h₁ with
    | operator hr _ =>
        cases h₂ with
        | operator _ _ => rfl
        | method hr' _ _ =>
            rw [hr] at hr'
            cases hr'
    | method hr hm _ =>
        cases h₂ with
        | operator hr' _ =>
            rw [hr] at hr'
            cases hr'
        | method hr' hm' _ =>
            rw [hr] at hr'
            cases hr'
            have hl := hlin _ _ hr
            have hlt := (List.getElem?_eq_some_iff.mp hm).1
            have hlt' := (List.getElem?_eq_some_iff.mp hm').1
            congr 1
            omega
  exact h₁.unique (hchoice ▸ h₂)

/-- A successful derivation goes on from the end of each other one. -/
theorem Derivation.Succeeds.of_derivation {d : Domain S A} (hlin : d.IsLinear)
    {c c' : Configuration S A} {choices choices' : List Choice} {steps steps' : List (Task A)}
    {final : S} (h : Derivation d c choices steps c') (hs : Succeeds d c choices' steps' final) :
    ∃ choices'' steps'', steps' = steps ++ steps'' ∧ Succeeds d c' choices'' steps'' final := by
  induction h generalizing choices' steps' with
  | refl => exact ⟨choices', steps', rfl, hs⟩
  | head hstep _ ih =>
      cases hs with
      | refl => cases hstep
      | head hstep' hs =>
          obtain ⟨rfl, rfl⟩ := hstep.eq_of_isLinear hlin hstep'
          obtain ⟨choices'', steps'', rfl, hrest⟩ := ih hs
          exact ⟨choices'', steps'', (List.append_assoc ..).symm, hrest⟩

/-- No branch has been given up, by the count and by the events. -/
structure Journal.IsForward (j : Journal A) : Prop where
  backtracks : j.backtracks = 0
  events : ∀ e ∈ j.events.toList, e.decision ≠ .backtracked

namespace Search

open TaskNetwork.Derivation (Succeeds)

variable [Argument A] {d : Domain S A} {p : Policy} {room : Nat} {depth : UInt32}
  {state state' : S} {tasks tasks' : List (Task A)}

/-! ## Following a derivation -/

theorem isForward_note {depth : UInt32} {task : Option (Task A)} {decision : Decision}
    {j : Journal A} (h : j.IsForward) (hne : decision ≠ .backtracked) :
    (j.note p depth task decision).IsForward where
  backtracks := h.backtracks
  events e he := by
    rw [Journal.note] at he
    split at he
    · rw [Array.toList_push] at he
      rcases List.mem_append.mp he with he | he
      · exact h.events e he
      · rw [List.mem_singleton.mp he]
        exact hne
    · exact h.events e he

/-- Behind a step the search goes on with a journal that has the step's task on the plan, and its
verdict there is the verdict on the whole frame. -/
theorem seek_of_step (hlin : d.IsLinear) {choice : Choice} {done : Option (Task A)}
    (h : Step d ⟨state, tasks⟩ choice done ⟨state', tasks'⟩) (j : Journal A) :
    ∃ j₁, j₁.plan.toList = j.plan.toList ++ done.toList ∧ (j.IsForward → j₁.IsForward) ∧
      j₁.depthBoundHits = j.depthBoundHits ∧
      (∀ j', seek d p room (depth + 1) state' tasks' j₁ = (true, j') →
        seek d p (room + 1) depth state tasks j = (true, j')) ∧
      ∀ j', seek d p room (depth + 1) state' tasks' j₁ = (false, j') →
        ∃ j'', seek d p (room + 1) depth state tasks j = (false, j'') ∧
          j''.depthBoundHits = j'.depthBoundHits := by
  cases h with
  | @operator _ _ head _ _ hr ha =>
      refine ⟨behindOperator p depth head j, Array.toList_push, ?_, rfl, ?_, ?_⟩
      · intro hj
        have hn : ((j.enter depth).countApplication.note p depth head .operatorApplied).IsForward :=
          isForward_note ⟨hj.backtracks, hj.events⟩ nofun
        exact ⟨hn.backtracks, hn.events⟩
      · intro j' hs
        exact (seek_applied_true hr ha).mpr hs
      · intro j' hs
        exact ⟨_, (seek_applied_false hr ha).mpr ⟨j', hs, rfl⟩, rfl⟩
  | @method _ head _ subtasks methods position m hr hm hd =>
      obtain rfl : methods = [m] := by
        have hl := hlin _ _ hr
        match methods, position with
        | [m'], 0 => simpa using hm
        | [m'], position + 1 => simp at hm
        | [], _ => simp at hm
        | _ :: _ :: _, _ => simp at hl
      refine ⟨behindMethod p depth head m subtasks (j.enter depth), (List.append_nil _).symm,
        ?_, rfl, ?_, ?_⟩
      · intro hj
        exact isForward_note ⟨hj.backtracks, hj.events⟩ nofun
      · intro j' hs
        rw [seek_compound hr, firstSuccess, (tryMethod_true hd).mpr hs]
      · intro j' hs
        rw [seek_compound hr, firstSuccess, (tryMethod_false hd).mpr ⟨j', hs, rfl⟩]
        exact ⟨_, rfl, rfl⟩

theorem seek_of_succeeds (hlin : d.IsLinear) {choices : List Choice} {steps : List (Task A)}
    {final : S} (h : Succeeds d ⟨state, tasks⟩ choices steps final) (hl : choices.length < room)
    (j : Journal A) :
    ∃ j', seek d p room depth state tasks j = (true, j') ∧
      j'.plan.toList = j.plan.toList ++ steps ∧ (j.IsForward → j'.IsForward) ∧
      j'.depthBoundHits = j.depthBoundHits := by
  induction choices generalizing room depth state tasks steps j with
  | nil =>
      cases h
      cases room with
      | zero => cases hl
      | succ room =>
          exact ⟨j.enter depth, rfl, (List.append_nil _).symm, fun hj => ⟨hj.1, hj.2⟩, rfl⟩
  | cons choice choices ih =>
      cases h with
      | @head _ c' _ _ _ _ _ hs h =>
          cases room with
          | zero => cases hl
          | succ room =>
              obtain ⟨j₁, hplan, hforward, hhits, htrue, -⟩ := seek_of_step hlin hs j
              obtain ⟨j', hseek, hplan', hforward', hhits'⟩ := ih h (Nat.lt_of_succ_lt_succ hl) j₁
              refine ⟨j', htrue j' hseek, ?_, fun hj => hforward' (hforward hj), hhits'.trans hhits⟩
              rw [hplan', hplan, List.append_assoc]

theorem seek_of_isStuck (h : Configuration.IsStuck d ⟨state, tasks⟩) (j : Journal A) :
    ∃ j', seek d p (room + 1) depth state tasks j = (false, j') ∧
      j'.depthBoundHits = j.depthBoundHits := by
  cases tasks with
  | nil => exact absurd rfl h.1
  | cons head rest =>
      cases hr : d.resolve head.name with
      | primitive op =>
          cases ha : op.apply state head.args with
          | error failure => exact ⟨_, seek_rejected hr ha, rfl⟩
          | ok next => exact absurd (.operator hr ha) (h.2 _ _ _)
      | compound methods =>
          have hnone (m : Method S A) (hm : m ∈ methods) (j : Journal A) :
              ∃ j', tryMethod d p room depth state head rest m j = (false, j') ∧
                j'.depthBoundHits = j.depthBoundHits := by
            cases hd : m.decompose state head.args with
            | error failure => exact ⟨_, tryMethod_inapplicable hd, rfl⟩
            | ok subtasks =>
                obtain ⟨position, hat⟩ := List.mem_iff_getElem?.mp hm
                exact absurd (.method hr hat hd) (h.2 _ _ _)
          rw [seek_compound hr]
          rcases hs : firstSuccess _ methods (j.enter depth) with ⟨_ | _, j'⟩
          · refine ⟨j', rfl, ?_⟩
            have hkept := firstSuccess_false_keeps (f := Journal.depthBoundHits) ?_ hs
            · exact hkept
            · intro m hm j₁ j₂ hfail
              obtain ⟨j₃, hfail', hhits⟩ := hnone m hm j₁
              rw [hfail] at hfail'
              cases hfail'
              exact hhits
          · obtain ⟨before, m, after, j₁, rfl, -, hm⟩ := firstSuccess_true hs
            obtain ⟨j₂, hfail, -⟩ := hnone m (by simp) j₁
            rw [hm] at hfail
            cases hfail
      | unknown => exact ⟨_, seek_unknown hr, rfl⟩

theorem seek_of_derivation_isStuck (hlin : d.IsLinear) {choices : List Choice}
    {steps : List (Task A)} (h : Derivation d ⟨state, tasks⟩ choices steps ⟨state', tasks'⟩)
    (hstuck : Configuration.IsStuck d ⟨state', tasks'⟩) (hl : choices.length < room)
    (j : Journal A) :
    ∃ j', seek d p room depth state tasks j = (false, j') ∧
      j'.depthBoundHits = j.depthBoundHits := by
  induction choices generalizing room depth state tasks steps j with
  | nil =>
      cases h
      cases room with
      | zero => cases hl
      | succ room => exact seek_of_isStuck hstuck j
  | cons choice choices ih =>
      cases h with
      | @head _ c' _ _ _ _ _ hs h =>
          cases room with
          | zero => cases hl
          | succ room =>
              obtain ⟨j₁, -, -, hhits, -, hfalse⟩ := seek_of_step hlin hs j
              obtain ⟨j₂, hseek, hhits'⟩ := ih h (Nat.lt_of_succ_lt_succ hl) j₁
              obtain ⟨j', hseek, hhits''⟩ := hfalse j₂ hseek
              exact ⟨j', hseek, by rw [hhits'', hhits', hhits]⟩

/-- A derivation that leaves the depth bound is cut there, once. -/
theorem seek_of_derivation_cut (hlin : d.IsLinear) {choices : List Choice} {steps : List (Task A)}
    (h : Derivation d ⟨state, tasks⟩ choices steps ⟨state', tasks'⟩) (hl : room ≤ choices.length)
    (j : Journal A) :
    ∃ j', seek d p room depth state tasks j = (false, j') ∧
      j'.depthBoundHits = j.depthBoundHits + 1 := by
  induction room generalizing depth state tasks choices steps j with
  | zero => exact ⟨_, rfl, rfl⟩
  | succ room ih =>
      cases h with
      | refl => cases hl
      | @head _ c' _ _ _ _ _ hs h =>
          obtain ⟨j₁, -, -, hhits, -, hfalse⟩ := seek_of_step hlin hs j
          obtain ⟨j₂, hseek, hhits'⟩ := ih h (Nat.le_of_succ_le_succ hl) j₁
          obtain ⟨j', hseek, hhits''⟩ := hfalse j₂ hseek
          exact ⟨j', hseek, by rw [hhits'', hhits', hhits]⟩

end Search

/-! ## Runs -/

namespace Planner

open TaskNetwork.Derivation (Succeeds)

variable [PlanningState S] [Argument A] {d : Domain S A} {p : Policy} {start : S}
  {tasks : List (Task A)} {choices : List Choice} {steps : List (Task A)}

theorem runTraced_of_succeeds (hlin : d.IsLinear) {final : S}
    (h : Succeeds d ⟨start, tasks⟩ choices steps final) (hl : choices.length ≤ p.maxDepth.toNat) :
    (runTraced ⟨d, p⟩ start tasks).result = .ok ⟨steps⟩ ∧
      (runTraced ⟨d, p⟩ start tasks).trace.metadata.backtracks = 0 ∧
      (∀ e ∈ (runTraced ⟨d, p⟩ start tasks).trace.events, e.decision ≠ .backtracked) ∧
      (runTraced ⟨d, p⟩ start tasks).trace.metadata.depthBoundHits = 0 := by
  obtain ⟨j, hrun, hplan, hforward, hhits⟩ : ∃ j, Search.run d p start tasks = (true, j) ∧
      j.plan.toList = steps ∧ (Journal.start.IsForward → j.IsForward) ∧ j.depthBoundHits = 0 :=
    Search.seek_of_succeeds hlin h (Nat.lt_succ_of_le hl) .start
  have hj : j.IsForward := hforward ⟨rfl, nofun⟩
  have htrace : (runTraced ⟨d, p⟩ start tasks).trace = traceOf ⟨d, p⟩ start (true, j) := by
    rw [runTraced, hrun]
  refine ⟨run_eq_ok.mpr ⟨j, hrun, hplan⟩, ?_, ?_, ?_⟩
  · rw [htrace]
    exact hj.backtracks
  · rw [htrace]
    exact hj.events
  · rw [htrace]
    exact hhits

theorem runTraced_of_isStuck (hlin : d.IsLinear) {c : Configuration S A}
    (h : Derivation d ⟨start, tasks⟩ choices steps c) (hstuck : c.IsStuck d)
    (hl : choices.length ≤ p.maxDepth.toNat) :
    (∃ failure, (runTraced ⟨d, p⟩ start tasks).result = .error failure ∧
      failure.depthBoundReached = false) ∧
      (runTraced ⟨d, p⟩ start tasks).trace.metadata.depthBoundHits = 0 := by
  obtain ⟨j, hrun, hhits⟩ : ∃ j, Search.run d p start tasks = (false, j) ∧ j.depthBoundHits = 0 :=
    Search.seek_of_derivation_isStuck hlin h hstuck (Nat.lt_succ_of_le hl) .start
  refine ⟨⟨_, run_eq_error.mpr ⟨j, hrun, rfl⟩, ?_⟩, ?_⟩
  · rw [hhits]
    rfl
  · show (Search.run d p start tasks).2.depthBoundHits = 0
    rw [hrun]
    exact hhits

theorem runTraced_of_cut (hlin : d.IsLinear) {c : Configuration S A}
    (h : Derivation d ⟨start, tasks⟩ choices steps c) (hl : p.maxDepth.toNat < choices.length) :
    (∃ failure, (runTraced ⟨d, p⟩ start tasks).result = .error failure ∧
      failure.depthBoundReached = true) ∧
      (runTraced ⟨d, p⟩ start tasks).trace.metadata.depthBoundHits = 1 := by
  obtain ⟨j, hrun, hhits⟩ : ∃ j, Search.run d p start tasks = (false, j) ∧ j.depthBoundHits = 1 :=
    Search.seek_of_derivation_cut hlin h hl .start
  refine ⟨⟨_, run_eq_error.mpr ⟨j, hrun, rfl⟩, ?_⟩, ?_⟩
  · rw [hhits]
    rfl
  · show (Search.run d p start tasks).2.depthBoundHits = 1
    rw [hrun]
    exact hhits

end Planner

end TaskNetwork
