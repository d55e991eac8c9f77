import TaskNetwork.OrderedMap.Lemmas
import TaskNetwork.Planner
import TaskNetwork.Proofs.Search.Seek
import TaskNetwork.Search.Course
import TaskNetwork.Trace.Basic

/-!
# A search takes down its course

What a search returns is determined by its course: the verdict says whether something is found, and
the journal is the one before with the course taken down. So what holds of a search need only be
shown of its course, and the counts of the journal are those of the acts.
-/

namespace TaskNetwork

variable {S A : Type} [Argument A] {p : Policy} {j : Journal A}

open Search (Act Course)

/-! ## Taking down -/

namespace Journal

theorem take_plan (plan : Array (Task A)) (act : Act A) :
    take p { j with plan := plan } act = { take p j act with plan := plan } := by
  cases act with
  | enter depth => rfl
  | decide depth task decision => cases decision <;> cases task <;> rfl

theorem foldl_take_plan (plan : Array (Task A)) (acts : List (Act A)) :
    acts.foldl (take p) { j with plan := plan } = { acts.foldl (take p) j with plan := plan } := by
  induction acts generalizing j with
  | nil => rfl
  | cons act acts ih => rw [List.foldl_cons, take_plan, ih, List.foldl_cons]

theorem plan_foldl_take (acts : List (Act A)) : (acts.foldl (take p) j).plan = j.plan := by
  have h := congrArg plan (foldl_take_plan (p := p) (j := j) j.plan acts)
  exact h

variable {c c' : Course A}

theorem follow_of_none (h : c.found = none) : j.follow p c = c.acts.foldl (take p) j := by
  have hplan : j.plan ++ (c.found.getD []).toArray = (c.acts.foldl (take p) j).plan := by
    rw [h, plan_foldl_take]
    exact Array.append_empty
  rw [follow, hplan]

theorem follow_pushStep (t : Task A) :
    (j.pushStep t).follow p c =
      { j.follow p c with plan := j.plan ++ (t :: c.found.getD []).toArray } := by
  have hplan : j.plan.push t ++ (c.found.getD []).toArray =
      j.plan ++ (t :: c.found.getD []).toArray := by simp
  rw [pushStep, follow, foldl_take_plan, hplan]
  rfl

theorem popStep_follow_pushStep (t : Task A) (h : c.found = none) :
    ((j.pushStep t).follow p c).popStep = j.follow p c := by
  have hplan : (j.plan ++ (t :: c.found.getD []).toArray).pop = (j.follow p c).plan := by
    rw [follow_of_none h, plan_foldl_take, h]
    exact Array.pop_push
  rw [follow_pushStep, popStep, hplan]

theorem follow_orElse (h : c.found = none) :
    j.follow p (c.orElse c') = (j.follow p c).follow p c' := by
  rw [follow_of_none h, Course.orElse, h, follow, follow, plan_foldl_take, List.foldl_append]

theorem follow_entering (depth : UInt32) :
    j.follow p (c.entering depth) = (j.enter depth).follow p c := rfl

theorem follow_behind_of_none {depth : UInt32} {head : Task A} {decision : Decision}
    {done : List (Task A)} (h : c.found = none) :
    j.follow p (c.behind depth head decision done) =
      (((take p j (.decide depth head decision)).follow p c).countBacktrack).note p depth head
        .backtracked := by
  rw [follow_of_none h, Course.behind, h, follow_of_none rfl, List.foldl_cons, List.foldl_append]
  rfl

theorem follow_behind_of_some {depth : UInt32} {head : Task A} {decision : Decision}
    {done steps : List (Task A)} (h : c.found = some steps) :
    j.follow p (c.behind depth head decision done) =
      { (take p j (.decide depth head decision)).follow p c with
        plan := j.plan ++ (done ++ steps).toArray } := by
  rw [Course.behind, h]
  rfl

/-! ## Counting -/

/-- A number that goes up by one at the acts of some kind goes up by the number of these acts. -/
theorem foldl_take_count {f : Journal A → UInt64} {isCounted : Act A → Bool}
    (h : ∀ j act, f (take p j act) = f j + UInt64.ofNat (if isCounted act then 1 else 0))
    (acts : List (Act A)) :
    f (acts.foldl (take p) j) = f j + UInt64.ofNat (acts.countP isCounted) := by
  induction acts generalizing j with
  | nil => exact (UInt64.add_zero _).symm
  | cons act acts ih =>
      rw [List.foldl_cons, ih, h, List.countP_cons, Nat.add_comm, UInt64.ofNat_add,
        UInt64.add_assoc]

theorem framesVisited_follow :
    (j.follow p c).framesVisited = j.framesVisited + UInt64.ofNat c.entries := by
  refine foldl_take_count (f := framesVisited) (fun j act => ?_) c.acts
  cases act with
  | enter depth => rfl
  | decide depth task decision =>
      refine Eq.trans ?_ (UInt64.add_zero _).symm
      cases decision <;> cases task <;> rfl

theorem depthBoundHits_follow :
    (j.follow p c).depthBoundHits = j.depthBoundHits + UInt64.ofNat c.cuts := by
  refine foldl_take_count (f := depthBoundHits) (fun j act => ?_) c.acts
  cases act with
  | enter depth => exact (UInt64.add_zero _).symm
  | decide depth task decision =>
      cases decision with
      | depthBoundReached => cases task <;> rfl
      | _ =>
          refine Eq.trans ?_ (UInt64.add_zero _).symm
          cases task <;> rfl

theorem mem_unresolved_take {act : Act A} {name : String} :
    name ∈ (take p j act).unresolved.keys ↔
      name ∈ j.unresolved.keys ∨ act.missingName? = some name := by
  cases act with
  | enter depth => simp [take, enter, Act.missingName?]
  | decide depth task decision =>
      cases decision with
      | unresolved =>
          cases task with
          | none => simp [take, note, count, Act.missingName?]
          | some t =>
              show name ∈ (j.unresolved.insert t.name ()).keys ↔ _ ∨ some t.name = some name
              rw [OrderedMap.mem_keys_iff, OrderedMap.contains_insert, OrderedMap.mem_keys_iff,
                Bool.or_eq_true, beq_iff_eq, Option.some_inj, or_comm, eq_comm (a := name)]
      | _ =>
          cases task <;> simp [take, note, count, countApplication, countExpansion, countBacktrack,
            countCut, Act.missingName?]

theorem mem_unresolved_follow {name : String} :
    name ∈ (j.follow p c).unresolved.keys ↔
      name ∈ j.unresolved.keys ∨ ∃ act ∈ c.acts, act.missingName? = some name := by
  show name ∈ (c.acts.foldl (take p) j).unresolved.keys ↔ _
  induction c.acts generalizing j with
  | nil => simp
  | cons act acts ih => simp [ih, mem_unresolved_take, or_assoc]

end Journal

namespace Search

variable {M : Type} {d : Domain S A} {room : Nat} {depth : UInt32} {state next : S}
  {head : Task A} {rest subtasks : List (Task A)} {op : Operator S A} {m : Method S A}
  {methods : List (Method S A)}

/-! ## Courses by the head task -/

section

omit [Argument A]

theorem course_rejected {failure : ApplyFailure} (hr : d.resolve head.name = .primitive op)
    (ha : op.apply state head.args = .error failure) :
    course d (room + 1) depth state (head :: rest) =
      (Course.refusal depth head (.operatorRejected failure.message)).entering depth := by
  simp only [course, hr, ha]

theorem course_applied (hr : d.resolve head.name = .primitive op)
    (ha : op.apply state head.args = .ok next) :
    course d (room + 1) depth state (head :: rest) =
      ((course d room (depth + 1) next rest).behind depth head .operatorApplied [head]).entering
        depth := by
  simp only [course, hr, ha]

theorem course_compound (hr : d.resolve head.name = .compound methods) :
    course d (room + 1) depth state (head :: rest) =
      (Course.firstFound (methodCourse d room depth state head rest) methods).entering depth := by
  simp only [course, hr]
  rfl

theorem course_unknown (hr : d.resolve head.name = .unknown) :
    course d (room + 1) depth state (head :: rest) =
      (Course.refusal depth head .unresolved).entering depth := by
  simp only [course, hr]

theorem methodCourse_inapplicable {failure : MethodFailure}
    (hd : m.decompose state head.args = .error failure) :
    methodCourse d room depth state head rest m =
      .refusal depth head (.methodInapplicable m.name failure.message) := by
  simp only [methodCourse, hd]

theorem methodCourse_decomposed (hd : m.decompose state head.args = .ok subtasks) :
    methodCourse d room depth state head rest m =
      (course d room (depth + 1) state (subtasks ++ rest)).behind depth head
        (.methodDecomposed m.name subtasks.length.toUInt64) [] := by
  simp only [methodCourse, hd]

/-! ## Counts of a course -/

namespace Course

variable {c c' : Course A} {decision : Decision} {done steps : List (Task A)}

theorem orElse_of_some (h : c.found = some steps) : c.orElse c' = c := by
  rw [orElse, h]

theorem found_orElse_of_none (h : c.found = none) : (c.orElse c').found = c'.found := by
  rw [orElse, h]

theorem acts_orElse_of_none (h : c.found = none) : (c.orElse c').acts = c.acts ++ c'.acts := by
  rw [orElse, h]

theorem found_behind_eq_none :
    (c.behind depth head decision done).found = none ↔ c.found = none := by
  cases h : c.found <;> simp [behind, h]

/-- The decisions around a course count only as far as decisions of their kinds do. -/
theorem countP_behind {isCounted : Act A → Bool}
    (hhead : isCounted (.decide depth head decision) = false)
    (hback : isCounted (.decide depth head .backtracked) = false) :
    (c.behind depth head decision done).acts.countP isCounted = c.acts.countP isCounted := by
  cases h : c.found <;> simp [behind, h, hhead, hback]

theorem entries_entering : (c.entering depth).entries = c.entries + 1 :=
  List.countP_cons_of_pos rfl

theorem cuts_entering : (c.entering depth).cuts = c.cuts :=
  List.countP_cons_of_neg Bool.false_ne_true

theorem entries_behind : (c.behind depth head decision done).entries = c.entries :=
  countP_behind rfl rfl

theorem cuts_behind (h : decision ≠ .depthBoundReached) :
    (c.behind depth head decision done).cuts = c.cuts := by
  refine countP_behind ?_ rfl
  cases decision with
  | depthBoundReached => exact absurd rfl h
  | _ => rfl

theorem entries_orElse_of_none (h : c.found = none) :
    (c.orElse c').entries = c.entries + c'.entries := by
  rw [entries, acts_orElse_of_none h]
  exact List.countP_append

theorem cuts_orElse_of_none (h : c.found = none) : (c.orElse c').cuts = c.cuts + c'.cuts := by
  rw [cuts, acts_orElse_of_none h]
  exact List.countP_append

theorem firstFound_cons (told : M → Course A) (m : M) (ms : List M) :
    firstFound told (m :: ms) = (told m).orElse (firstFound told ms) := rfl

end Course

/-! ## Induction on courses -/

/-- Predicates on the courses of frames, and on what is done inside a frame, that hold of whatever a
search is made of. -/
structure Course.IsClosed (Frame Inner : (room : Nat) → (depth : UInt32) → Course A → Prop) :
    Prop where
  cut (depth : UInt32) (task : Option (Task A)) :
    Frame 0 depth ((refusal depth task .depthBoundReached).entering depth)
  success (room : Nat) (depth : UInt32) : Frame (room + 1) depth (entering depth ⟨some [], []⟩)
  enter {room : Nat} {depth : UInt32} {c : Course A} :
    Inner room depth c → Frame (room + 1) depth (c.entering depth)
  nothing (room : Nat) (depth : UInt32) : Inner room depth ⟨none, []⟩
  refuse (room : Nat) (depth : UInt32) (head : Task A) {decision : Decision} :
    decision.leadsOn = false → decision ≠ .backtracked → decision ≠ .depthBoundReached →
      Inner room depth (refusal depth head decision)
  behind {room : Nat} {depth : UInt32} (head : Task A) {decision : Decision}
    (done : List (Task A)) {c : Course A} :
    decision.leadsOn = true → Frame room (depth + 1) c →
      Inner room depth (c.behind depth head decision done)
  orElse {room : Nat} {depth : UInt32} {c c' : Course A} :
    c.found = none → Inner room depth c → Inner room depth c' → Inner room depth (c.orElse c')

namespace Course.IsClosed

variable {Frame Inner : Nat → UInt32 → Course A → Prop} (h : IsClosed Frame Inner)

include h

theorem firstFound {told : M → Course A} {ms : List M}
    (hm : ∀ m ∈ ms, Inner room depth (told m)) : Inner room depth (Course.firstFound told ms) := by
  induction ms with
  | nil => exact h.nothing room depth
  | cons m ms ih =>
      have hfirst := hm m List.mem_cons_self
      rw [firstFound_cons]
      cases hfound : (told m).found with
      | some steps => rwa [orElse_of_some hfound]
      | none => exact h.orElse hfound hfirst (ih fun m' hm' => hm m' (List.mem_cons_of_mem _ hm'))

theorem methodCourse
    (hcourse : ∀ depth state tasks, Frame room depth (course d room depth state tasks)) :
    Inner room depth (methodCourse d room depth state head rest m) := by
  cases hd : m.decompose state head.args with
  | error failure =>
      rw [methodCourse_inapplicable hd]
      exact h.refuse room depth head rfl nofun nofun
  | ok subtasks =>
      rw [methodCourse_decomposed hd]
      exact h.behind head [] rfl (hcourse _ _ _)

/-- What is closed holds of all courses. -/
theorem course (d : Domain S A) (room : Nat) (depth : UInt32) (state : S) (tasks : List (Task A)) :
    Frame room depth (course d room depth state tasks) := by
  induction room generalizing depth state tasks with
  | zero => exact h.cut depth tasks.head?
  | succ room ih =>
      cases tasks with
      | nil => exact h.success room depth
      | cons head rest =>
          cases hr : d.resolve head.name with
          | primitive op =>
              cases ha : op.apply state head.args with
              | error failure =>
                  rw [course_rejected hr ha]
                  exact h.enter (h.refuse room depth head rfl nofun nofun)
              | ok next =>
                  rw [course_applied hr ha]
                  exact h.enter (h.behind head [head] rfl (ih _ _ _))
          | compound methods =>
              rw [course_compound hr]
              exact h.enter (h.firstFound fun m _ => h.methodCourse ih)
          | unknown =>
              rw [course_unknown hr]
              exact h.enter (h.refuse room depth head rfl nofun nofun)

end Course.IsClosed

theorem Course.isClosed_cuts : Course.IsClosed (A := A) (fun _ _ c => c.cuts ≤ c.entries)
    (fun _ _ c => c.cuts ≤ c.entries) where
  cut _ _ := Nat.le_refl _
  success _ _ := Nat.zero_le _
  enter {room depth c} h := by
    rw [cuts_entering, entries_entering]
    exact Nat.le_succ_of_le h
  nothing _ _ := Nat.le_refl _
  refuse room depth head decision hleads hback hcut := by
    cases decision with
    | depthBoundReached => exact absurd rfl hcut
    | _ => exact Nat.zero_le _
  behind {room depth} head {decision} done {c} hleads h := by
    rw [cuts_behind, entries_behind]
    · exact h
    · rintro rfl
      cases hleads
  orElse {room depth c c'} hfound h h' := by
    rw [cuts_orElse_of_none hfound, entries_orElse_of_none hfound]
    exact Nat.add_le_add h h'

/-- Each cut is that of a frame that was entered. -/
theorem cuts_course_le (d : Domain S A) (room : Nat) (depth : UInt32) (state : S)
    (tasks : List (Task A)) :
    (course d room depth state tasks).cuts ≤ (course d room depth state tasks).entries :=
  Course.isClosed_cuts.course d room depth state tasks

end

/-! ## Searching -/

theorem firstSuccess_eq {attempt : M → Journal A → Bool × Journal A} {told : M → Course A}
    {ms : List M} (h : ∀ m ∈ ms, ∀ j, attempt m j = ((told m).found.isSome, j.follow p (told m)))
    (j : Journal A) :
    firstSuccess attempt ms j =
      ((Course.firstFound told ms).found.isSome, j.follow p (Course.firstFound told ms)) := by
  induction ms generalizing j with
  | nil => rfl
  | cons m ms ih =>
      have hrest := ih fun m' hm' => h m' (List.mem_cons_of_mem _ hm')
      rw [firstSuccess, h m List.mem_cons_self]
      cases hfound : (told m).found with
      | some steps => simp [Course.firstFound, Course.orElse, hfound]
      | none =>
          show firstSuccess attempt ms (j.follow p (told m)) = _
          rw [hrest, ← Journal.follow_orElse hfound]
          simp [Course.firstFound, Course.orElse, hfound]

theorem tryMethod_eq
    (hseek : ∀ depth state tasks (j : Journal A), seek d p room depth state tasks j =
      ((course d room depth state tasks).found.isSome,
        j.follow p (course d room depth state tasks))) (j : Journal A) :
    tryMethod d p room depth state head rest m j =
      ((methodCourse d room depth state head rest m).found.isSome,
        j.follow p (methodCourse d room depth state head rest m)) := by
  cases hd : m.decompose state head.args with
  | error failure =>
      rw [tryMethod_inapplicable hd, methodCourse_inapplicable hd]
      rfl
  | ok subtasks =>
      rw [methodCourse_decomposed hd]
      have hs := hseek (depth + 1) state (subtasks ++ rest) (behindMethod p depth head m subtasks j)
      cases hfound : (course d room (depth + 1) state (subtasks ++ rest)).found with
      | some steps =>
          rw [hfound] at hs
          rw [(tryMethod_true hd).mpr hs, Journal.follow_behind_of_some hfound, Course.behind,
            hfound, Journal.follow, hfound]
          rfl
      | none =>
          rw [hfound] at hs
          rw [(tryMethod_false hd).mpr ⟨_, hs, rfl⟩, Journal.follow_behind_of_none hfound,
            Course.behind, hfound]
          rfl

/-- The verdict of a search and the journal after it are those of its course. -/
theorem seek_eq (d : Domain S A) (p : Policy) (room : Nat) (depth : UInt32) (state : S)
    (tasks : List (Task A)) (j : Journal A) :
    seek d p room depth state tasks j =
      ((course d room depth state tasks).found.isSome,
        j.follow p (course d room depth state tasks)) := by
  induction room generalizing depth state tasks j with
  | zero => rfl
  | succ room ih =>
      cases tasks with
      | nil =>
          show (true, j.enter depth) = (true, (j.enter depth).follow p ⟨some [], []⟩)
          rw [Journal.follow]
          simp
      | cons head rest =>
          cases hr : d.resolve head.name with
          | primitive op =>
              cases ha : op.apply state head.args with
              | error failure =>
                  rw [seek_rejected hr ha, course_rejected hr ha]
                  rfl
              | ok next =>
                  rw [course_applied hr ha, Journal.follow_entering]
                  have hs := ih (depth + 1) next rest (behindOperator p depth head j)
                  cases hfound : (course d room (depth + 1) next rest).found with
                  | some steps =>
                      rw [hfound] at hs
                      rw [(seek_applied_true hr ha).mpr hs, Journal.follow_behind_of_some hfound,
                        behindOperator, Journal.follow_pushStep, Course.entering, Course.behind,
                        hfound]
                      rfl
                  | none =>
                      rw [hfound] at hs
                      rw [(seek_applied_false hr ha).mpr ⟨_, hs, rfl⟩,
                        Journal.follow_behind_of_none hfound, behindOperator,
                        Journal.popStep_follow_pushStep head hfound, Course.entering,
                        Course.behind, hfound]
                      rfl
          | compound methods =>
              rw [seek_compound hr, course_compound hr, Journal.follow_entering]
              exact firstSuccess_eq (fun m _ => tryMethod_eq ih) _
          | unknown =>
              rw [seek_unknown hr, course_unknown hr]
              rfl

theorem run_eq (d : Domain S A) (p : Policy) (start : S) (tasks : List (Task A)) :
    run d p start tasks = ((courseOfRun d p start tasks).found.isSome,
      Journal.start.follow p (courseOfRun d p start tasks)) :=
  seek_eq d p _ _ start tasks .start

end Search

/-! ## Runs -/

namespace Planner

open Search (courseOfRun)

variable [PlanningState S] {d : Domain S A} {start : S} {tasks : List (Task A)}

theorem framesVisited_runTraced :
    (runTraced ⟨d, p⟩ start tasks).trace.metadata.framesVisited =
      UInt64.ofNat (courseOfRun d p start tasks).entries := by
  show (Search.run d p start tasks).2.framesVisited = _
  rw [Search.run_eq, Journal.framesVisited_follow]
  exact UInt64.zero_add _

theorem depthBoundHits_runTraced :
    (runTraced ⟨d, p⟩ start tasks).trace.metadata.depthBoundHits =
      UInt64.ofNat (courseOfRun d p start tasks).cuts := by
  show (Search.run d p start tasks).2.depthBoundHits = _
  rw [Search.run_eq, Journal.depthBoundHits_follow]
  exact UInt64.zero_add _

end Planner

end TaskNetwork
