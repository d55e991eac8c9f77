import Mathlib.Algebra.Group.Nat.Defs
import TaskNetwork.Proofs.Search.Completeness
import TaskNetwork.Trace.Basic

/-!
# The trace of a run as a log

While decisions are recorded, the journal of a search is a log: each event has its number and fits
the decisions that stand before it, and what stands are those of the current branch. So a failing
frame takes back what it has decided, and after a success the plan can be read off the trace.
-/

namespace TaskNetwork

/-! ## Logs -/

namespace Event

/-- Events with their numbers, each fitting what stands before it; `next` is the number of the event
to come. -/
structure IsLog (next : UInt64) (events stack : List Event) : Prop where
  next_eq : next = UInt64.ofNat events.length
  standing_eq : standing events = stack
  fits {before after : List Event} {e : Event} : events = before ++ e :: after →
    e.order = UInt64.ofNat before.length ∧ e.Fits (standing before)

theorem IsLog.nil : IsLog 0 [] [] where
  next_eq := rfl
  standing_eq := rfl
  fits h := by simp at h

theorem IsLog.concat {next : UInt64} {events stack : List Event} {e : Event}
    (h : IsLog next events stack) (horder : e.order = next) (hfits : e.Fits stack) :
    IsLog (next + 1) (events ++ [e]) (advance stack e) where
  next_eq := by
    rw [h.next_eq, List.length_append, List.length_singleton, UInt64.ofNat_add]
    rfl
  standing_eq := by
    rw [standing, List.foldl_append, ← standing, h.standing_eq]
    rfl
  fits {before after e'} heq := by
    rcases List.eq_nil_or_concat after with rfl | ⟨after, last, rfl⟩
    · obtain ⟨rfl, hlast⟩ := List.append_inj' heq rfl
      cases hlast
      rw [horder, h.standing_eq]
      exact ⟨h.next_eq, hfits⟩
    · have hinit : events ++ [e] = (before ++ e' :: after) ++ [last] := by
        rw [heq, List.concat_eq_append, List.append_assoc, List.cons_append]
      exact h.fits (List.append_inj' hinit rfl).1

theorem appliedTasks_cons (stack : List Event) (e : Event) :
    appliedTasks (e :: stack) =
      appliedTasks stack ++ if e.decision = .operatorApplied then [e.task] else [] := by
  simp only [appliedTasks, List.reverse_cons, List.filter_append, List.map_append]
  congr 1
  split <;> simp_all

end Event

/-! ## Journals -/

namespace Search

variable {S A : Type} [Argument A] {d : Domain S A} {p : Policy} {room : Nat} {depth : UInt32}
  {state : S} {tasks : List (Task A)} {j j' : Journal A} {stack : List Event}

/-- The events of a journal are a log, and its plan is what stands of the applied operators. -/
structure Keeps (j : Journal A) (stack : List Event) : Prop where
  isLog : Event.IsLog j.nextOrder j.events.toList stack
  plan_eq : Event.appliedTasks stack = j.plan.toList.map fun t => some t.record

theorem isLog_note (hrecord : p.recordDecisions = true) (task : Option (Task A))
    {decision : Decision} (h : Event.IsLog j.nextOrder j.events.toList stack)
    (hfits : Event.Fits stack ⟨j.nextOrder, depth, task.map Task.record, decision⟩) :
    Event.IsLog (j.note p depth task decision).nextOrder
      (j.note p depth task decision).events.toList
      (Event.advance stack ⟨j.nextOrder, depth, task.map Task.record, decision⟩) := by
  simp only [Journal.note, hrecord, if_true, Array.toList_push]
  exact h.concat rfl hfits

/-- What is recorded about the head task alone leaves the stack as it is. -/
theorem Keeps.note (hrecord : p.recordDecisions = true) {task : Option (Task A)}
    {decision : Decision} (h : Keeps j stack) (hdepth : depth.toNat = stack.length)
    (hne : decision ≠ .backtracked)
    (hstack : Event.advance stack ⟨j.nextOrder, depth, task.map Task.record, decision⟩ = stack) :
    Keeps (j.note p depth task decision) stack where
  isLog := by
    have hfits : Event.Fits stack ⟨j.nextOrder, depth, task.map Task.record, decision⟩ :=
      ⟨fun _ => hdepth, fun heq => absurd heq hne⟩
    have hlog := isLog_note hrecord task h.isLog hfits
    rwa [hstack] at hlog
  plan_eq := h.plan_eq

theorem Keeps.behindOperator (hrecord : p.recordDecisions = true) {head : Task A}
    (h : Keeps j stack) (hdepth : depth.toNat = stack.length) :
    Keeps (behindOperator p depth head j)
      (⟨j.nextOrder, depth, some head.record, .operatorApplied⟩ :: stack) where
  isLog := isLog_note (j := (j.enter depth).countApplication) hrecord (some head) h.isLog
    ⟨fun _ => hdepth, nofun⟩
  plan_eq := by
    rw [Event.appliedTasks_cons, h.plan_eq, if_pos rfl]
    simp [Search.behindOperator, Journal.pushStep, Journal.note, Journal.countApplication,
      Journal.enter]

theorem Keeps.behindMethod (hrecord : p.recordDecisions = true) {head : Task A} {m : Method S A}
    {subtasks : List (Task A)} (h : Keeps j stack) (hdepth : depth.toNat = stack.length) :
    Keeps (behindMethod p depth head m subtasks j)
      (⟨j.nextOrder, depth, some head.record,
        .methodDecomposed m.name subtasks.length.toUInt64⟩ :: stack) where
  isLog := isLog_note (j := j.countExpansion) hrecord (some head) h.isLog
    ⟨fun _ => hdepth, nofun⟩
  plan_eq := by
    rw [Event.appliedTasks_cons, if_neg nofun, List.append_nil]
    exact h.plan_eq

theorem Keeps.takeBackOperator (hrecord : p.recordDecisions = true) {order : UInt64} {head : Task A}
    (h : Keeps j (⟨order, depth, some head.record, .operatorApplied⟩ :: stack)) :
    Keeps (j.popStep.countBacktrack.note p depth head .backtracked) stack where
  isLog := isLog_note (j := j.popStep.countBacktrack) hrecord (some head) h.isLog
    ⟨fun hne => absurd rfl hne, fun _ => ⟨_, _, rfl, rfl, rfl⟩⟩
  plan_eq := by
    have hplan := h.plan_eq
    rw [Event.appliedTasks_cons, if_pos rfl] at hplan
    show Event.appliedTasks stack = j.plan.pop.toList.map _
    rw [Array.toList_pop, List.map_dropLast, ← hplan, List.dropLast_concat]

theorem Keeps.takeBackMethod (hrecord : p.recordDecisions = true) {order count : UInt64}
    {head : Task A} {name : String}
    (h : Keeps j (⟨order, depth, some head.record, .methodDecomposed name count⟩ :: stack)) :
    Keeps (j.countBacktrack.note p depth head .backtracked) stack where
  isLog := isLog_note (j := j.countBacktrack) hrecord (some head) h.isLog
    ⟨fun hne => absurd rfl hne, fun _ => ⟨_, _, rfl, rfl, rfl⟩⟩
  plan_eq := by
    have hplan := h.plan_eq
    rwa [Event.appliedTasks_cons, if_neg nofun, List.append_nil] at hplan

/-! ## Frames -/

theorem toNat_add_one_eq_length {e : Event} (hdepth : depth.toNat = stack.length)
    (hroom : stack.length + (room + 1) < 2 ^ 32) : (depth + 1).toNat = (e :: stack).length := by
  rw [UInt32.toNat_add, hdepth, UInt32.toNat_one, List.length_cons]
  exact Nat.mod_eq_of_lt (by omega)

theorem keeps_of_tryMethod_false (hrecord : p.recordDecisions = true) {head : Task A}
    {rest : List (Task A)} {m : Method S A}
    (hseek : ∀ {depth state tasks} {j j' : Journal A} {stack : List Event},
      seek d p room depth state tasks j = (false, j') → Keeps j stack →
        depth.toNat = stack.length → stack.length + room < 2 ^ 32 → Keeps j' stack)
    (h : tryMethod d p room depth state head rest m j = (false, j')) (hj : Keeps j stack)
    (hdepth : depth.toNat = stack.length) (hroom : stack.length + (room + 1) < 2 ^ 32) :
    Keeps j' stack := by
  cases hd : m.decompose state head.args with
  | error failure =>
      rw [tryMethod_inapplicable hd] at h
      cases h
      exact hj.note hrecord hdepth nofun rfl
  | ok subtasks =>
      obtain ⟨j₁, hs, rfl⟩ := (tryMethod_false hd).mp h
      have hj₁ := hseek hs (hj.behindMethod hrecord hdepth)
        (toNat_add_one_eq_length hdepth hroom) (by rw [List.length_cons]; omega)
      exact hj₁.takeBackMethod hrecord

theorem keeps_of_methods_false (hrecord : p.recordDecisions = true) {head : Task A}
    {rest : List (Task A)} {methods : List (Method S A)}
    (hseek : ∀ {depth state tasks} {j j' : Journal A} {stack : List Event},
      seek d p room depth state tasks j = (false, j') → Keeps j stack →
        depth.toNat = stack.length → stack.length + room < 2 ^ 32 → Keeps j' stack)
    (h : firstSuccess (tryMethod d p room depth state head rest) methods j = (false, j'))
    (hj : Keeps j stack) (hdepth : depth.toNat = stack.length)
    (hroom : stack.length + (room + 1) < 2 ^ 32) : Keeps j' stack :=
  firstSuccess_false_preserves (P := fun j => Keeps j stack)
    (fun _ _ _ _ hj hm => keeps_of_tryMethod_false hrecord hseek hm hj hdepth hroom) h hj

/-- A failing frame takes back all that it has decided. -/
theorem keeps_of_seek_false (hrecord : p.recordDecisions = true)
    (h : seek d p room depth state tasks j = (false, j')) (hj : Keeps j stack)
    (hdepth : depth.toNat = stack.length) (hroom : stack.length + room < 2 ^ 32) :
    Keeps j' stack := by
  induction room generalizing depth state tasks j j' stack with
  | zero =>
      cases h
      have hcut : Keeps (j.enter depth).countCut stack := ⟨hj.isLog, hj.plan_eq⟩
      exact hcut.note hrecord hdepth nofun rfl
  | succ room ih =>
      have henter : Keeps (j.enter depth) stack := ⟨hj.isLog, hj.plan_eq⟩
      cases tasks with
      | nil => cases h
      | cons head rest =>
          cases hr : d.resolve head.name with
          | primitive op =>
              cases ha : op.apply state head.args with
              | error failure =>
                  rw [seek_rejected hr ha] at h
                  cases h
                  exact henter.note hrecord hdepth nofun rfl
              | ok next =>
                  obtain ⟨j₁, hs, rfl⟩ := (seek_applied_false hr ha).mp h
                  have hj₁ := ih hs (hj.behindOperator hrecord hdepth)
                    (toNat_add_one_eq_length hdepth hroom) (by rw [List.length_cons]; omega)
                  exact hj₁.takeBackOperator hrecord
          | compound methods =>
              rw [seek_compound hr] at h
              exact keeps_of_methods_false hrecord ih h henter hdepth hroom
          | unknown =>
              rw [seek_unknown hr] at h
              cases h
              have hadd : Keeps ((j.enter depth).addUnresolved head.name) stack :=
                ⟨hj.isLog, hj.plan_eq⟩
              exact hadd.note hrecord hdepth nofun rfl

/-- After a success the branch that led to it stands. -/
theorem keeps_of_seek_true (hrecord : p.recordDecisions = true)
    (h : seek d p room depth state tasks j = (true, j')) (hj : Keeps j stack)
    (hdepth : depth.toNat = stack.length) (hroom : stack.length + room < 2 ^ 32) :
    ∃ stack', Keeps j' stack' := by
  induction room generalizing depth state tasks j j' stack with
  | zero => cases h
  | succ room ih =>
      cases tasks with
      | nil =>
          cases h
          exact ⟨stack, hj.isLog, hj.plan_eq⟩
      | cons head rest =>
          cases hr : d.resolve head.name with
          | primitive op =>
              cases ha : op.apply state head.args with
              | error failure =>
                  rw [seek_rejected hr ha] at h
                  cases h
              | ok next =>
                  exact ih ((seek_applied_true hr ha).mp h) (hj.behindOperator hrecord hdepth)
                    (toNat_add_one_eq_length hdepth hroom) (by rw [List.length_cons]; omega)
          | compound methods =>
              rw [seek_compound hr] at h
              obtain ⟨before, m, after, j₁, rfl, hb, hm⟩ := firstSuccess_true h
              have hj₁ : Keeps j₁ stack :=
                keeps_of_methods_false hrecord (keeps_of_seek_false hrecord) hb
                  ⟨hj.isLog, hj.plan_eq⟩ hdepth hroom
              cases hd : m.decompose state head.args with
              | error failure =>
                  rw [tryMethod_inapplicable hd] at hm
                  cases hm
              | ok subtasks =>
                  exact ih ((tryMethod_true hd).mp hm) (hj₁.behindMethod hrecord hdepth)
                    (toNat_add_one_eq_length hdepth hroom) (by rw [List.length_cons]; omega)
          | unknown =>
              rw [seek_unknown hr] at h
              cases h

end Search

/-! ## Runs -/

namespace Planner

variable {S A : Type} [PlanningState S] [Argument A] {d : Domain S A} {p : Policy}
  {planner : Planner S A} {start : S} {tasks : List (Task A)}

/-- Each event has its number and fits the decisions that stand before it. Without a plan nothing
stands at the end, and the steps of a plan are the applied operators that do. -/
theorem runTraced_standing (h : create d p = .ok planner) (hrecord : p.recordDecisions = true)
    {outcome : PlanningOutcome A} (hrun : planner.runTraced start tasks = outcome)
    (hsize : outcome.trace.events.length < 2 ^ 64) :
    (∀ before e after, outcome.trace.events = before ++ e :: after →
      e.order.toNat = before.length ∧ e.Fits (Event.standing before)) ∧
    (∀ failure, outcome.result = .error failure → Event.standing outcome.trace.events = []) ∧
    ∀ plan, outcome.result = .ok plan →
      Event.appliedTasks (Event.standing outcome.trace.events) = plan.record.steps.map some := by
  obtain rfl := eq_of_create h
  obtain ⟨-, hceiling⟩ := Policy.validate_eq_ok.mp (validate_of_create h)
  have hstart : Search.Keeps (Journal.start : Journal A) [] := ⟨.nil, rfl⟩
  have hroom : ([] : List Event).length + (p.maxDepth.toNat + 1) < 2 ^ 32 := by
    rw [List.length_nil]
    omega
  have hevents {stack : List Event} {j : Journal A} (hj : Search.Keeps j stack)
      (hlt : j.events.toList.length < UInt64.size) (before : List Event) (e : Event)
      (after : List Event) (heq : j.events.toList = before ++ e :: after) :
      e.order.toNat = before.length ∧ e.Fits (Event.standing before) := by
    obtain ⟨horder, hfits⟩ := hj.isLog.fits heq
    rw [heq, List.length_append] at hlt
    rw [horder, UInt64.toNat_ofNat_of_lt' (by omega)]
    exact ⟨rfl, hfits⟩
  rcases hfound : Search.run d p start tasks with ⟨_ | _, j⟩
  · have hj := Search.keeps_of_seek_false hrecord hfound hstart rfl hroom
    rw [runTraced, hfound] at hrun
    subst hrun
    refine ⟨hevents hj hsize, fun failure hfail => hj.isLog.standing_eq, fun plan hplan => ?_⟩
    cases hplan
  · obtain ⟨stack, hj⟩ := Search.keeps_of_seek_true hrecord hfound hstart rfl hroom
    rw [runTraced, hfound] at hrun
    subst hrun
    refine ⟨hevents hj hsize, fun failure hfail => ?_, fun plan hplan => ?_⟩
    · cases hfail
    · cases hplan
      show Event.appliedTasks (Event.standing j.events.toList) = (j.plan.toList.map _).map some
      rw [hj.isLog.standing_eq, hj.plan_eq, List.map_map]
      rfl

/-- A traveller without cash tries the taxi in vain, and only the walk stands at the end. -/
theorem runTraced_standing_on_foot :
    ∃ d planner outcome, Travel.domain = .ok d ∧ create d {} = .ok planner ∧
      planner.runTraced (Travel.startState 0) [⟨Travel.travelTask, ["home", "shop"]⟩] = outcome ∧
      outcome.trace.events.length = 9 ∧
      (∀ before e after, outcome.trace.events = before ++ e :: after →
        e.order.toNat = before.length ∧ e.Fits (Event.standing before)) ∧
      Event.appliedTasks (Event.standing outcome.trace.events) =
        [some ⟨"walk", ["home", "shop"]⟩] := by
  refine ⟨_, _, _, rfl, rfl, rfl, rfl, ?_, ?_⟩
  · exact (runTraced_standing (p := {}) rfl rfl rfl (by decide)).1
  · exact (runTraced_standing (p := {}) rfl rfl rfl (by decide)).2.2
      ⟨[⟨"walk", ["home", "shop"]⟩]⟩ rfl

end Planner

end TaskNetwork
