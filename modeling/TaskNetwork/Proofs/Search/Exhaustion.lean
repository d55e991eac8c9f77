import Mathlib.Data.List.Sigma
import Mathlib.Data.Set.Card
import TaskNetwork.Proofs.Search.Completeness
import TaskNetwork.Proofs.Search.Course

/-!
# What a failing search goes through

A search that fails has entered one frame for each derivation within its room, in the order in which
the choices branch off, and what it reports is what it met in these frames: the names that the
domain does not know and the derivations that use up all room.
-/

namespace TaskNetwork

variable {S A M : Type} {d : Domain S A}

namespace Derivation

/-- The choices of the derivations of at most `bound` steps; they determine the derivations. -/
def choicesWithin (d : Domain S A) (c : Configuration S A) (bound : Nat) : Set (List Choice) :=
  {choices | choices.length ≤ bound ∧ ∃ dones c', Derivation d c choices dones c'}

end Derivation

namespace Search

/-! ## All derivations within a room -/

section

variable {state : S} {head : Task A} {rest : List (Task A)} {c c' : Configuration S A}

/-- The step by a method at a position, if it gives subtasks. -/
def methodStep? (state : S) (head : Task A) (rest : List (Task A)) (m : Method S A × Nat) :
    Option (Choice × Configuration S A) :=
  match m.1.decompose state head.args with
  | .error _ => none
  | .ok subtasks => some (.method m.2, ⟨state, subtasks ++ rest⟩)

/-- The steps that can be taken from a configuration, by their choices and what is after them. -/
def nextSteps (d : Domain S A) : Configuration S A → List (Choice × Configuration S A)
  | ⟨_, []⟩ => []
  | ⟨state, head :: rest⟩ =>
    match d.resolve head.name with
    | .primitive op =>
      match op.apply state head.args with
      | .error _ => []
      | .ok next => [(.operator, ⟨next, rest⟩)]
    | .compound methods => methods.zipIdx.filterMap (methodStep? state head rest)
    | .unknown => []

/-- The derivations of at most `room` steps, by their choices and what is after them. -/
def derivations (d : Domain S A) : (room : Nat) → Configuration S A →
    List (List Choice × Configuration S A)
  | 0, c => [([], c)]
  | room + 1, c => ([], c) :: (nextSteps d c).flatMap fun step =>
      (derivations d room step.2).map fun e => (step.1 :: e.1, e.2)

section

variable {op : Operator S A} {methods : List (Method S A)}

theorem nextSteps_rejected {failure : ApplyFailure} (hr : d.resolve head.name = .primitive op)
    (ha : op.apply state head.args = .error failure) : nextSteps d ⟨state, head :: rest⟩ = [] := by
  simp only [nextSteps, hr, ha]

theorem nextSteps_applied {next : S} (hr : d.resolve head.name = .primitive op)
    (ha : op.apply state head.args = .ok next) :
    nextSteps d ⟨state, head :: rest⟩ = [(.operator, ⟨next, rest⟩)] := by
  simp only [nextSteps, hr, ha]

theorem nextSteps_compound (hr : d.resolve head.name = .compound methods) :
    nextSteps d ⟨state, head :: rest⟩ =
      methods.zipIdx.filterMap (methodStep? state head rest) := by
  simp only [nextSteps, hr]

theorem nextSteps_unknown (hr : d.resolve head.name = .unknown) :
    nextSteps d ⟨state, head :: rest⟩ = [] := by
  simp only [nextSteps, hr]

end

theorem methodStep?_eq_some {m : Method S A} {i : Nat} {choice : Choice} :
    methodStep? state head rest (m, i) = some (choice, c') ↔ ∃ subtasks,
      m.decompose state head.args = .ok subtasks ∧ choice = .method i ∧
        c' = ⟨state, subtasks ++ rest⟩ := by
  cases hd : m.decompose state head.args with
  | error failure => simp [methodStep?, hd]
  | ok subtasks => simp [methodStep?, hd, eq_comm]

theorem mem_nextSteps {choice : Choice} :
    (choice, c') ∈ nextSteps d c ↔ ∃ done, Step d c choice done c' := by
  obtain ⟨state, tasks⟩ := c
  refine ⟨fun h => ?_, fun ⟨done, h⟩ => ?_⟩
  · cases tasks with
    | nil => cases h
    | cons head rest =>
        cases hr : d.resolve head.name with
        | primitive op =>
            cases ha : op.apply state head.args with
            | error failure =>
                rw [nextSteps_rejected hr ha] at h
                cases h
            | ok next =>
                rw [nextSteps_applied hr ha] at h
                cases List.mem_singleton.mp h
                exact ⟨_, .operator hr ha⟩
        | compound methods =>
            rw [nextSteps_compound hr] at h
            obtain ⟨⟨m, i⟩, hm, hstep⟩ := List.mem_filterMap.mp h
            obtain ⟨subtasks, hd, rfl, rfl⟩ := methodStep?_eq_some.mp hstep
            exact ⟨none, .method hr (List.mem_zipIdx_iff_getElem?.mp hm) hd⟩
        | unknown =>
            rw [nextSteps_unknown hr] at h
            cases h
  · cases h with
    | operator hr ha =>
        rw [nextSteps_applied hr ha]
        exact List.mem_singleton_self _
    | method hr hm hd =>
        rw [nextSteps_compound hr]
        refine List.mem_filterMap.mpr ⟨(_, _), List.mem_zipIdx_iff_getElem?.mpr hm, ?_⟩
        exact methodStep?_eq_some.mpr ⟨_, hd, rfl, rfl⟩

theorem pairwise_nextSteps (d : Domain S A) (c : Configuration S A) :
    (nextSteps d c).Pairwise fun step step' => step.1 ≠ step'.1 := by
  obtain ⟨state, _ | ⟨head, rest⟩⟩ := c
  · exact .nil
  · rw [nextSteps]
    split
    · split
      · exact .nil
      · exact List.pairwise_singleton _ _
    · rename_i methods hr
      have hpositions := List.pairwise_map.mp (List.nodup_zipIdx_map_snd methods)
      refine hpositions.filterMap _ ?_
      rintro ⟨m, i⟩ ⟨m', i'⟩ hne ⟨choice, c₁⟩ hstep ⟨choice', c₂⟩ hstep'
      obtain ⟨subtasks, -, rfl, rfl⟩ := methodStep?_eq_some.mp hstep
      obtain ⟨subtasks', -, rfl, rfl⟩ := methodStep?_eq_some.mp hstep'
      intro heq
      cases heq
      exact hne rfl
    · exact .nil

theorem mem_derivations {room : Nat} {choices : List Choice} :
    (choices, c') ∈ derivations d room c ↔
      choices.length ≤ room ∧ ∃ dones, Derivation d c choices dones c' := by
  induction room generalizing c choices with
  | zero =>
      rw [derivations, List.mem_singleton, Prod.mk.injEq, Nat.le_zero, List.length_eq_zero_iff]
      refine ⟨?_, ?_⟩
      · rintro ⟨rfl, rfl⟩
        exact ⟨rfl, [], .refl _⟩
      · rintro ⟨rfl, dones, hd⟩
        cases hd
        exact ⟨rfl, rfl⟩
  | succ room ih =>
      rw [derivations, List.mem_cons, List.mem_flatMap]
      refine ⟨?_, ?_⟩
      · rintro (heq | ⟨⟨choice, c₁⟩, hstep, hmem⟩)
        · cases heq
          exact ⟨Nat.zero_le _, [], .refl _⟩
        · obtain ⟨⟨choices', c₂⟩, hrest, heq⟩ := List.mem_map.mp hmem
          cases heq
          obtain ⟨done, hs⟩ := mem_nextSteps.mp hstep
          obtain ⟨hl, dones, hd⟩ := ih.mp hrest
          exact ⟨Nat.succ_le_succ hl, _, .head hs hd⟩
      · rintro ⟨hl, dones, hd⟩
        cases hd with
        | refl => exact Or.inl rfl
        | head hs hd =>
            refine Or.inr ⟨_, mem_nextSteps.mpr ⟨_, hs⟩, List.mem_map.mpr ⟨(_, c'), ?_, rfl⟩⟩
            exact ih.mpr ⟨Nat.le_of_succ_le_succ hl, _, hd⟩

theorem nodup_derivations (d : Domain S A) (room : Nat) (c : Configuration S A) :
    ((derivations d room c).map (·.1)).Nodup := by
  induction room generalizing c with
  | zero => exact List.nodup_singleton _
  | succ room ih =>
      rw [derivations, List.map_cons, List.map_flatMap, List.nodup_cons]
      refine ⟨?_, List.nodup_flatMap.mpr ⟨fun step _ => ?_, ?_⟩⟩
      · simp
      · rw [List.map_map]
        have hinner := (ih step.2).map (List.cons_injective (a := step.1))
        rwa [List.map_map] at hinner
      · refine (pairwise_nextSteps d c).imp fun {step step'} hne => ?_
        intro choices hmem hmem'
        simp only [List.map_map, List.mem_map, Function.comp_apply] at hmem hmem'
        obtain ⟨_, _, rfl⟩ := hmem
        obtain ⟨_, _, heq⟩ := hmem'
        exact hne (List.cons.inj heq).1.symm

end

/-! ## Frames of a failing search -/

/-- Whether a frame is entered, or ends because its head task is unknown or no room is left. -/
def Act.isMark : Act A → Bool
  | enter _ => true
  | decide _ _ .unresolved => true
  | decide _ _ .depthBoundReached => true
  | decide _ _ _ => false

/-- The acts that mark the frames of a course. -/
def Course.marks (c : Course A) : List (Act A) := c.acts.filter Act.isMark

/-- The marks of one frame. -/
def frameMarks (d : Domain S A) : (room : Nat) → (depth : UInt32) → List (Task A) → List (Act A)
  | 0, depth, tasks => [.enter depth, .decide depth tasks.head? .depthBoundReached]
  | _ + 1, depth, [] => [.enter depth]
  | _ + 1, depth, head :: _ =>
    match d.resolve head.name with
    | .unknown => [.enter depth, .decide depth head .unresolved]
    | _ => [.enter depth]

namespace Course

variable {c : Course A} {depth : UInt32} {head : Task A} {decision : Decision}
  {done : List (Task A)} {told : M → Course A} {ms : List M}

theorem marks_entering : (c.entering depth).marks = .enter depth :: c.marks := rfl

theorem marks_behind (h : (Act.decide depth (some head) decision).isMark = false) :
    (c.behind depth head decision done).marks = c.marks := by
  have hback : (Act.decide depth (some head) .backtracked).isMark = false := rfl
  cases hfound : c.found <;> simp [marks, behind, hfound, h, hback]

theorem found_of_firstFound (h : (firstFound told ms).found = none) {m : M} (hm : m ∈ ms) :
    (told m).found = none := by
  induction ms with
  | nil => cases hm
  | cons m' ms ih =>
      rw [firstFound_cons] at h
      cases hfound : (told m').found with
      | some steps =>
          rw [orElse_of_some hfound, hfound] at h
          cases h
      | none =>
          rw [found_orElse_of_none hfound] at h
          rcases List.mem_cons.mp hm with rfl | hm
          · exact hfound
          · exact ih h hm

/-- If no alternative finds anything each of them is tried. -/
theorem marks_firstFound (h : (firstFound told ms).found = none) :
    (firstFound told ms).marks = ms.flatMap fun m => (told m).marks := by
  induction ms with
  | nil => rfl
  | cons m ms ih =>
      have hfound := found_of_firstFound h List.mem_cons_self
      rw [firstFound_cons, found_orElse_of_none hfound] at h
      rw [firstFound_cons, marks, acts_orElse_of_none hfound, List.filter_append, List.flatMap_cons]
      exact congrArg _ (ih h)

end Course

section

variable {room : Nat} {depth : UInt32} {state : S} {tasks rest : List (Task A)} {head : Task A}
  {m : Method S A} {methods : List (Method S A)}

theorem methodCourse_of_methodStep? {i : Nat} {step : Choice × Configuration S A}
    (h : methodStep? state head rest (m, i) = some step)
    (hfound : (methodCourse d room depth state head rest m).found = none) :
    (course d room (depth + 1) step.2.state step.2.tasks).found = none ∧
      (methodCourse d room depth state head rest m).marks =
        (course d room (depth + 1) step.2.state step.2.tasks).marks := by
  obtain ⟨subtasks, hd, -, hc⟩ := methodStep?_eq_some.mp h
  rw [methodCourse_decomposed hd, Course.found_behind_eq_none] at hfound
  rw [hc, methodCourse_decomposed hd, Course.marks_behind rfl]
  exact ⟨hfound, rfl⟩

theorem marks_methodCourse_of_methodStep? {i : Nat}
    (h : methodStep? state head rest (m, i) = none) :
    (methodCourse d room depth state head rest m).marks = [] := by
  cases hd : m.decompose state head.args with
  | error failure =>
      rw [methodCourse_inapplicable hd]
      rfl
  | ok subtasks => simp [methodStep?, hd] at h

theorem flatMap_marks_methodCourse (k : Nat)
    (hfound : ∀ m ∈ methods, (methodCourse d room depth state head rest m).found = none) :
    (methods.flatMap fun m => (methodCourse d room depth state head rest m).marks) =
      ((methods.zipIdx k).filterMap (methodStep? state head rest)).flatMap
        fun step => (course d room (depth + 1) step.2.state step.2.tasks).marks := by
  induction methods generalizing k with
  | nil => rfl
  | cons m ms ih =>
      have hrest := ih (k + 1) fun m' hm' => hfound m' (List.mem_cons_of_mem _ hm')
      rw [List.flatMap_cons, List.zipIdx_cons, hrest]
      cases hstep : methodStep? state head rest (m, k) with
      | none =>
          rw [List.filterMap_cons_none hstep, marks_methodCourse_of_methodStep? hstep]
          rfl
      | some step =>
          rw [List.filterMap_cons_some hstep, List.flatMap_cons,
            (methodCourse_of_methodStep? hstep (hfound m List.mem_cons_self)).2]

/-- A failing frame goes on to all steps that can be taken from it, and each of them fails. -/
theorem course_succ_of_found_eq_none (h : (course d (room + 1) depth state tasks).found = none) :
    (∀ step ∈ nextSteps d ⟨state, tasks⟩,
      (course d room (depth + 1) step.2.state step.2.tasks).found = none) ∧
    (course d (room + 1) depth state tasks).marks =
      frameMarks d (room + 1) depth tasks ++ (nextSteps d ⟨state, tasks⟩).flatMap fun step =>
        (course d room (depth + 1) step.2.state step.2.tasks).marks := by
  cases tasks with
  | nil => cases h
  | cons head rest =>
      cases hr : d.resolve head.name with
      | primitive op =>
          have hown : frameMarks d (room + 1) depth (head :: rest) = [.enter depth] := by
            simp only [frameMarks, hr]
          rw [hown]
          cases ha : op.apply state head.args with
          | error failure =>
              rw [course_rejected hr ha, nextSteps_rejected hr ha]
              exact ⟨nofun, rfl⟩
          | ok next =>
              rw [course_applied hr ha] at h ⊢
              rw [nextSteps_applied hr ha]
              refine ⟨fun step hstep => ?_, ?_⟩
              · cases List.mem_singleton.mp hstep
                exact Course.found_behind_eq_none.mp h
              · rw [Course.marks_entering, Course.marks_behind rfl]
                exact congrArg _ (List.append_nil _).symm
      | compound methods =>
          have hown : frameMarks d (room + 1) depth (head :: rest) = [.enter depth] := by
            simp only [frameMarks, hr]
          rw [course_compound hr] at h ⊢
          rw [hown, nextSteps_compound hr]
          have hfound (m : Method S A) (hm : m ∈ methods) :
              (methodCourse d room depth state head rest m).found = none :=
            Course.found_of_firstFound h hm
          refine ⟨fun step hstep => ?_, ?_⟩
          · obtain ⟨⟨m, i⟩, hm, hstep⟩ := List.mem_filterMap.mp hstep
            have hm := List.mem_of_getElem? (List.mem_zipIdx_iff_getElem?.mp hm)
            exact (methodCourse_of_methodStep? hstep (hfound m hm)).1
          · rw [Course.marks_entering, Course.marks_firstFound h,
              flatMap_marks_methodCourse 0 hfound]
            rfl
      | unknown =>
          have hown : frameMarks d (room + 1) depth (head :: rest) =
              [.enter depth, .decide depth head .unresolved] := by
            simp only [frameMarks, hr]
          rw [hown, course_unknown hr, nextSteps_unknown hr]
          exact ⟨nofun, rfl⟩

/-- A failing search marks the frames of all derivations within its room, each once. -/
theorem marks_course (h : (course d room depth state tasks).found = none) :
    (course d room depth state tasks).marks =
      (derivations d room ⟨state, tasks⟩).flatMap fun e =>
        frameMarks d (room - e.1.length) (depth + UInt32.ofNat e.1.length) e.2.tasks := by
  induction room generalizing depth state tasks with
  | zero =>
      rw [derivations, List.flatMap_singleton]
      exact congrArg (frameMarks d 0 · tasks) (UInt32.add_zero depth).symm
  | succ room ih =>
      obtain ⟨hfound, hmarks⟩ := course_succ_of_found_eq_none h
      have hdepth (n : Nat) : depth + UInt32.ofNat (n + 1) = depth + 1 + UInt32.ofNat n := by
        rw [Nat.add_comm, UInt32.ofNat_add, UInt32.add_assoc]
        rfl
      have hrest (step : Choice × Configuration S A) (hstep : step ∈ nextSteps d ⟨state, tasks⟩) :
          (course d room (depth + 1) step.2.state step.2.tasks).marks =
            ((derivations d room step.2).map fun e => (step.1 :: e.1, e.2)).flatMap fun e =>
              frameMarks d (room + 1 - e.1.length) (depth + UInt32.ofNat e.1.length)
                e.2.tasks := by
        rw [ih (hfound step hstep), List.flatMap_map]
        simp only [List.length_cons, hdepth, Nat.add_sub_add_right]
      rw [hmarks, derivations, List.flatMap_cons, List.flatMap_assoc]
      refine congrArg₂ _ ?_ (List.flatMap_congr hrest)
      exact congrArg (frameMarks d (room + 1) · tasks) (UInt32.add_zero depth).symm

/-! ## What a failing search reports -/

theorem exists_mem_frameMarks_isCut (n : Nat) :
    (∃ act ∈ frameMarks d n depth tasks, act.isCut = true) ↔ n = 0 := by
  cases n with
  | zero => simp [frameMarks, Act.isCut]
  | succ n =>
      cases tasks with
      | nil => simp [frameMarks, Act.isCut]
      | cons head rest => cases hr : d.resolve head.name <;> simp [frameMarks, hr, Act.isCut]

theorem exists_mem_frameMarks_missingName {n : Nat} {name : String} :
    (∃ act ∈ frameMarks d n depth tasks, act.missingName? = some name) ↔
      0 < n ∧ d.resolve name = .unknown ∧ ∃ args rest, tasks = ⟨name, args⟩ :: rest := by
  cases n with
  | zero => simp [frameMarks, Act.missingName?]
  | succ n =>
      cases tasks with
      | nil => simp [frameMarks, Act.missingName?]
      | cons head rest =>
          obtain ⟨name', args⟩ := head
          cases hr : d.resolve name' with
          | unknown =>
              simp only [frameMarks, hr, List.mem_cons, List.not_mem_nil, or_false,
                exists_eq_or_imp, exists_eq_left, Act.missingName?, Option.some_inj, reduceCtorEq,
                false_or, Nat.zero_lt_succ, true_and, List.cons.injEq, Task.mk.injEq]
              refine ⟨?_, ?_⟩
              · rintro rfl
                exact ⟨hr, args, rest, ⟨rfl, rfl⟩, rfl⟩
              · rintro ⟨-, _, _, ⟨rfl, -⟩, -⟩
                rfl
          | _ =>
              simp only [frameMarks, hr, List.mem_singleton, exists_eq_left, Act.missingName?,
                reduceCtorEq, false_iff]
              rintro ⟨-, hunknown, _, _, heq⟩
              cases heq
              rw [hr] at hunknown
              cases hunknown

theorem countP_isEntry_frameMarks (n : Nat) :
    (frameMarks d n depth tasks).countP Act.isEntry = 1 := by
  cases n with
  | zero => rfl
  | succ n =>
      cases tasks with
      | nil => rfl
      | cons head rest => cases hr : d.resolve head.name <;> simp only [frameMarks, hr] <;> rfl

/-- What is marked in a failing search is marked in the frame after some derivation. -/
theorem exists_act_iff {P : Act A → Prop} (hP : ∀ act, P act → act.isMark = true)
    (h : (course d room depth state tasks).found = none) :
    (∃ act ∈ (course d room depth state tasks).acts, P act) ↔
      ∃ choices dones c, Derivation d ⟨state, tasks⟩ choices dones c ∧ choices.length ≤ room ∧
        ∃ act ∈ frameMarks d (room - choices.length) (depth + UInt32.ofNat choices.length) c.tasks,
          P act := by
  have hmarks : (∃ act ∈ (course d room depth state tasks).acts, P act) ↔
      ∃ act ∈ (course d room depth state tasks).marks, P act :=
    ⟨fun ⟨act, hact, hp⟩ => ⟨act, List.mem_filter.mpr ⟨hact, hP act hp⟩, hp⟩,
      fun ⟨act, hact, hp⟩ => ⟨act, (List.mem_filter.mp hact).1, hp⟩⟩
  rw [hmarks, marks_course h]
  refine ⟨?_, ?_⟩
  · rintro ⟨act, hact, hp⟩
    obtain ⟨⟨choices, c⟩, he, hact⟩ := List.mem_flatMap.mp hact
    obtain ⟨hl, dones, hd⟩ := mem_derivations.mp he
    exact ⟨choices, dones, c, hd, hl, act, hact, hp⟩
  · rintro ⟨choices, dones, c, hd, hl, act, hact, hp⟩
    exact ⟨act, List.mem_flatMap.mpr ⟨_, mem_derivations.mpr ⟨hl, dones, hd⟩, hact⟩, hp⟩

theorem missingName_iff (h : (course d room depth state tasks).found = none) {name : String} :
    (∃ act ∈ (course d room depth state tasks).acts, act.missingName? = some name) ↔
      d.resolve name = .unknown ∧ ∃ choices dones state' args rest,
        Derivation d ⟨state, tasks⟩ choices dones ⟨state', ⟨name, args⟩ :: rest⟩ ∧
          choices.length < room := by
  have hmark (act : Act A) (hname : act.missingName? = some name) : act.isMark = true := by
    cases act with
    | enter depth => rfl
    | decide depth task decision =>
        cases decision with
        | unresolved => rfl
        | _ => cases task <;> cases hname
  rw [exists_act_iff hmark h]
  refine ⟨?_, ?_⟩
  · rintro ⟨choices, dones, ⟨state', tasks'⟩, hd, hl, hact⟩
    obtain ⟨hpos, hunknown, args, rest, rfl⟩ := exists_mem_frameMarks_missingName.mp hact
    exact ⟨hunknown, choices, dones, state', args, rest, hd, Nat.lt_of_sub_pos hpos⟩
  · rintro ⟨hunknown, choices, dones, state', args, rest, hd, hl⟩
    refine ⟨choices, dones, _, hd, Nat.le_of_lt hl, exists_mem_frameMarks_missingName.mpr ?_⟩
    exact ⟨Nat.sub_pos_of_lt hl, hunknown, args, rest, rfl⟩

theorem cuts_pos_iff (h : (course d room depth state tasks).found = none) :
    0 < (course d room depth state tasks).cuts ↔
      ∃ choices dones c, Derivation d ⟨state, tasks⟩ choices dones c ∧ choices.length = room := by
  have hmark (act : Act A) (hcut : act.isCut = true) : act.isMark = true := by
    cases act with
    | enter depth => rfl
    | decide depth task decision =>
        cases decision with
        | depthBoundReached => rfl
        | _ => cases hcut
  rw [Course.cuts, List.countP_pos_iff, exists_act_iff hmark h]
  simp only [exists_mem_frameMarks_isCut, Nat.sub_eq_zero_iff_le, ← Nat.le_antisymm_iff]

theorem entries_eq_length (h : (course d room depth state tasks).found = none) :
    (course d room depth state tasks).entries = (derivations d room ⟨state, tasks⟩).length := by
  have hmark : (fun act : Act A => act.isEntry && act.isMark) = Act.isEntry := by
    funext act
    cases act <;> rfl
  have hmarks : (course d room depth state tasks).entries =
      (course d room depth state tasks).marks.countP Act.isEntry := by
    rw [Course.marks, List.countP_filter, hmark, Course.entries]
  rw [hmarks, marks_course h, List.countP_flatMap]
  simp [Function.comp_def, countP_isEntry_frameMarks]

theorem encard_choicesWithin (d : Domain S A) (c : Configuration S A) (room : Nat) :
    (Derivation.choicesWithin d c room).encard = (derivations d room c).length := by
  have hset : Derivation.choicesWithin d c room =
      (((derivations d room c).map (·.1)).toFinset : Set (List Choice)) := by
    ext choices
    simp only [Derivation.choicesWithin, List.coe_toFinset, Set.mem_ofPred_eq, List.mem_map]
    refine ⟨?_, ?_⟩
    · rintro ⟨hl, dones, c', hd⟩
      exact ⟨(choices, c'), mem_derivations.mpr ⟨hl, dones, hd⟩, rfl⟩
    · rintro ⟨⟨_, c'⟩, he, rfl⟩
      obtain ⟨hl, dones, hd⟩ := mem_derivations.mp he
      exact ⟨hl, dones, c', hd⟩
  rw [hset, Set.encard_coe_eq_coe_finsetCard,
    List.toFinset_card_of_nodup (nodup_derivations d room c), List.length_map]

end

end Search

/-! ## Planners -/

namespace Planner

open Search (courseOfRun)
open TaskNetwork.Derivation (choicesWithin)

variable [PlanningState S] [Argument A] {p : Policy} {planner : Planner S A} {start : S}
  {tasks : List (Task A)} {failure : PlanFailure}

theorem found_courseOfRun (h : run ⟨d, p⟩ start tasks = .error failure) :
    (courseOfRun d p start tasks).found = none := by
  obtain ⟨j, hj, -⟩ := run_eq_error.mp h
  rw [Search.run_eq] at hj
  exact Option.isSome_eq_false_iff.mp (congrArg Prod.fst hj) |> Option.isNone_iff_eq_none.mp

theorem mem_unresolvedTaskNames_iff (h : run ⟨d, p⟩ start tasks = .error failure) {name : String} :
    name ∈ failure.unresolvedTaskNames ↔
      ∃ act ∈ (courseOfRun d p start tasks).acts, act.missingName? = some name := by
  obtain ⟨j, hj, rfl⟩ := run_eq_error.mp h
  rw [Search.run_eq] at hj
  obtain rfl := congrArg Prod.snd hj
  show name ∈ (Journal.follow p Journal.start _).unresolved.keys ↔ _
  rw [Journal.mem_unresolved_follow]
  exact or_iff_right List.not_mem_nil

/-- A run without a plan reports the names that head the tasks after some derivation within the
bound and are not known, whether a derivation goes one step beyond the bound, and how many
derivations go no further, unless these are too many to be counted. -/
theorem runTraced_exhausts (h : create d p = .ok planner)
    (hrun : (planner.runTraced start tasks).result = .error failure) :
    failure.unresolvedTaskNames.Pairwise (· < ·) ∧
    (∀ name, name ∈ failure.unresolvedTaskNames ↔
      d.resolve name = .unknown ∧ ∃ choices dones state args rest,
        Derivation d ⟨start, tasks⟩ choices dones ⟨state, ⟨name, args⟩ :: rest⟩ ∧
          choices.length ≤ p.maxDepth.toNat) ∧
    (failure.depthBoundReached = true → ∃ choices dones c,
      Derivation d ⟨start, tasks⟩ choices dones c ∧ choices.length = p.maxDepth.toNat + 1) ∧
    ((choicesWithin d ⟨start, tasks⟩ (p.maxDepth.toNat + 1)).encard < 2 ^ 64 →
      (failure.depthBoundReached = true ↔ ∃ choices dones c,
        Derivation d ⟨start, tasks⟩ choices dones c ∧ choices.length = p.maxDepth.toNat + 1) ∧
      (failure.framesVisited.toNat : ENat) =
        (choicesWithin d ⟨start, tasks⟩ (p.maxDepth.toNat + 1)).encard) ∧
    (planner.runTraced start tasks).trace.metadata.unresolvedTaskNames =
      failure.unresolvedTaskNames ∧
    (planner.runTraced start tasks).trace.metadata.framesVisited = failure.framesVisited ∧
    (planner.runTraced start tasks).trace.metadata.termination =
      .searchExhausted failure.depthBoundReached := by
  obtain rfl := eq_of_create h
  have hfound := found_courseOfRun hrun
  have hcuts : 0 < (courseOfRun d p start tasks).cuts ↔ ∃ choices dones c,
      Derivation d ⟨start, tasks⟩ choices dones c ∧ choices.length = p.maxDepth.toNat + 1 :=
    Search.cuts_pos_iff hfound
  obtain ⟨hnames, hframes, htermination, hreached⟩ := metadata_of_run_error hrun
  rw [depthBoundHits_runTraced] at hreached
  refine ⟨?_, fun name => ?_, fun h => ?_, fun hsize => ?_, hnames, hframes, htermination⟩
  · obtain ⟨j, -, rfl⟩ := run_eq_error.mp hrun
    exact OrderedMap.pairwise_keys j.unresolved
  · rw [mem_unresolvedTaskNames_iff hrun, courseOfRun, Search.missingName_iff hfound]
    simp only [Nat.lt_succ_iff]
  · refine hcuts.mp (Nat.pos_of_ne_zero fun hzero => ?_)
    rw [hzero] at hreached
    exact absurd (hreached.mp h) (UInt64.lt_irrefl 0)
  · have hentries := Search.entries_eq_length hfound
    rw [Search.encard_choicesWithin, ← hentries] at hsize ⊢
    have hsize : (courseOfRun d p start tasks).entries < 2 ^ 64 := by exact_mod_cast hsize
    have hle : (courseOfRun d p start tasks).cuts ≤ (courseOfRun d p start tasks).entries :=
      Search.cuts_course_le d _ _ _ _
    refine ⟨?_, ?_⟩
    · rw [hreached, ← hcuts, UInt64.lt_iff_toNat_lt,
        UInt64.toNat_ofNat_of_lt' (Nat.lt_of_le_of_lt hle hsize)]
      rfl
    · rw [← hframes, framesVisited_runTraced, UInt64.toNat_ofNat_of_lt' hsize]
      rfl

/-- Nobody knows how to sleep in the travel world, which is left to do after the walk, and what is
left to do after the ride is beyond a bound of three steps. -/
theorem runTraced_exhausts_asleep :
    ∃ d planner failure, Travel.domain = .ok d ∧ create d { maxDepth := 3 } = .ok planner ∧
      (planner.runTraced (Travel.startState 20)
        [⟨Travel.travelTask, ["home", "shop"]⟩, ⟨"sleep", []⟩]).result = .error failure ∧
      failure.unresolvedTaskNames = ["sleep"] ∧ failure.depthBoundReached = true ∧
      failure.framesVisited = 7 ∧
      (∃ choices dones state args rest, Derivation d
        ⟨Travel.startState 20, [⟨Travel.travelTask, ["home", "shop"]⟩, ⟨"sleep", []⟩]⟩ choices dones
        ⟨state, ⟨"sleep", args⟩ :: rest⟩ ∧ choices.length ≤ 3) ∧
      (∃ choices dones c, Derivation d
        ⟨Travel.startState 20, [⟨Travel.travelTask, ["home", "shop"]⟩, ⟨"sleep", []⟩]⟩ choices dones
        c ∧ choices.length = 4) ∧
      (choicesWithin d
        ⟨Travel.startState 20, [⟨Travel.travelTask, ["home", "shop"]⟩, ⟨"sleep", []⟩]⟩
        4).encard = 7 := by
  obtain ⟨d, planner, failure, hd, hcreate, hrun, hnames, hreached, hframes⟩ :
      ∃ d planner failure, Travel.domain = .ok d ∧ create d { maxDepth := 3 } = .ok planner ∧
        (planner.runTraced (Travel.startState 20)
          [⟨Travel.travelTask, ["home", "shop"]⟩, ⟨"sleep", []⟩]).result = .error failure ∧
        failure.unresolvedTaskNames = ["sleep"] ∧ failure.depthBoundReached = true ∧
        failure.framesVisited = 7 :=
    ⟨_, _, _, rfl, rfl, rfl, by decide, by decide, by decide⟩
  obtain ⟨-, hname, -, hcount, -⟩ := runTraced_exhausts hcreate hrun
  have hfew : (choicesWithin d
      ⟨Travel.startState 20, [⟨Travel.travelTask, ["home", "shop"]⟩, ⟨"sleep", []⟩]⟩
      4).encard < 2 ^ 64 := by
    rw [Search.encard_choicesWithin]
    cases hd
    exact Nat.cast_lt.mpr (by decide)
  obtain ⟨hcut, hvisited⟩ := hcount hfew
  refine ⟨d, planner, failure, hd, hcreate, hrun, hnames, hreached, hframes, ?_,
    hcut.mp hreached, ?_⟩
  · exact ((hname "sleep").mp (hnames ▸ List.mem_cons_self)).2
  · rw [hframes] at hvisited
    exact hvisited.symm

end Planner

end TaskNetwork
