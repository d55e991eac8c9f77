import Mathlib.Algebra.Group.Nat.Defs
import TaskNetwork.Proofs.Search.Exhaustion

/-!
# What a run counts

The metadata of a trace come from the journal, which counts along with the search, before and after
its recursive calls. They agree with the events, because both are taken down from one course: each
frame but the first one is entered right behind a decision that leads on, and each decision is
recorded and counted together. What is recorded changes nothing else.
-/

namespace TaskNetwork

variable {S A : Type}

/-- An event without its number. -/
def Event.unnumbered (e : Event) : Event := { e with order := 0 }

/-- The depth of the frame behind an event, if the search goes on there. -/
def Event.behind? (e : Event) : Option UInt32 :=
  if e.decision.leadsOn then some (e.depth + 1) else none

theorem Event.behind?_eq_some {e : Event} {depth : UInt32} :
    e.behind? = some depth ↔ e.decision.leadsOn = true ∧ e.depth + 1 = depth := by
  rw [behind?, Option.ite_none_right_eq_some, Option.some_inj]

namespace Search

/-! ## Frames and the decisions before them -/

namespace Act

/-- Whether the act is a decision of a kind. -/
def decides (kind : Decision → Bool) : Act A → Bool
  | enter _ => false
  | decide _ _ decision => kind decision

/-- What is recorded of the act, but for the number. -/
def event? [Argument A] : Act A → Option Event
  | enter _ => none
  | decide depth task decision => some ⟨0, depth, task.map Task.record, decision⟩

/-- The depth of the frame that is entered. -/
def entered? : Act A → Option UInt32
  | enter depth => some depth
  | decide _ _ _ => none

/-- The depth of the frame behind a decision, if the search goes on there. -/
def behind? : Act A → Option UInt32
  | enter _ => none
  | decide depth _ decision => if decision.leadsOn then some (depth + 1) else none

/-- No frame lies deeper than the limit, and one at the limit is cut at once. -/
def Within (limit : Nat) : Act A → Prop
  | enter depth => depth.toNat ≤ limit
  | decide depth _ decision =>
    if decision = .depthBoundReached then depth.toNat = limit else depth.toNat < limit

theorem within_decide {limit : Nat} {depth : UInt32} {task : Option (Task A)} {decision : Decision}
    (hne : decision ≠ .depthBoundReached) (hlt : depth.toNat < limit) :
    (decide depth task decision).Within limit := by
  rwa [Within, if_neg hne]

theorem Within.toNat_lt {limit : Nat} {depth : UInt32} {task : Option (Task A)}
    {decision : Decision} (h : (decide depth task decision).Within limit)
    (hne : decision ≠ .depthBoundReached) : depth.toNat < limit := by
  rwa [Within, if_neg hne] at h

end Act

namespace Course

variable {c c' : Course A} {depth : UInt32} {head : Task A} {decision : Decision}
  {done steps : List (Task A)}

/-- The number of decisions of a kind. -/
def decisions (c : Course A) (kind : Decision → Bool) : Nat := c.acts.countP (Act.decides kind)

theorem acts_behind_of_some (h : c.found = some steps) :
    (c.behind depth head decision done).acts = .decide depth head decision :: c.acts := by
  rw [behind, h]

theorem acts_behind_of_none (h : c.found = none) :
    (c.behind depth head decision done).acts =
      .decide depth head decision :: (c.acts ++ [.decide depth head .backtracked]) := by
  rw [behind, h]

theorem forall_acts_behind {P : Act A → Prop} (hhead : P (.decide depth head decision))
    (hback : P (.decide depth head .backtracked)) (h : ∀ act ∈ c.acts, P act) :
    ∀ act ∈ (c.behind depth head decision done).acts, P act := by
  cases hfound : c.found with
  | some steps =>
      rw [acts_behind_of_some hfound]
      exact List.forall_mem_cons.mpr ⟨hhead, h⟩
  | none =>
      rw [acts_behind_of_none hfound]
      refine List.forall_mem_cons.mpr ⟨hhead, List.forall_mem_append.mpr ⟨h, ?_⟩⟩
      exact List.forall_mem_singleton.mpr hback

/-- Behind each decision that leads on a frame is entered, one level deeper. -/
theorem isClosed_entered : IsClosed (A := A)
    (fun _ depth c => c.acts.filterMap Act.entered? = depth :: c.acts.filterMap Act.behind?)
    (fun _ _ c => c.acts.filterMap Act.entered? = c.acts.filterMap Act.behind?) where
  cut _ _ := rfl
  success _ _ := rfl
  enter {room depth c} h := congrArg (depth :: ·) h
  nothing _ _ := rfl
  refuse room depth head decision hleads _ _ := by
    simp [refusal, Act.entered?, Act.behind?, hleads]
  behind {room depth} head {decision} done {c} hleads h := by
    have hhead : Act.behind? (.decide depth (some head) decision) = some (depth + 1) :=
      if_pos hleads
    cases hfound : c.found with
    | some steps =>
        rw [acts_behind_of_some hfound, List.filterMap_cons_some hhead, ← h]
        rfl
    | none =>
        rw [acts_behind_of_none hfound, List.filterMap_cons_some hhead,
          List.filterMap_cons_none rfl, List.filterMap_append, List.filterMap_append, h]
        rfl
  orElse hfound h h' := by
    rw [acts_orElse_of_none hfound, List.filterMap_append, List.filterMap_append, h, h']

/-- Decisions are taken in frames within the limit, if a frame with room for some levels lies so
many levels above the limit. -/
theorem isClosed_within (limit : Nat) (hlimit : limit < 2 ^ 32) : IsClosed (A := A)
    (fun room depth c => depth.toNat + room = limit → ∀ act ∈ c.acts, act.Within limit)
    (fun room depth c => depth.toNat + (room + 1) = limit → ∀ act ∈ c.acts, act.Within limit) where
  cut depth task heq :=
    List.forall_mem_cons.mpr ⟨Nat.le_of_eq heq, List.forall_mem_singleton.mpr heq⟩
  success room depth heq :=
    List.forall_mem_singleton.mpr (Nat.le_of_add_right_le (Nat.le_of_eq heq))
  enter h heq :=
    List.forall_mem_cons.mpr ⟨Nat.le_of_add_right_le (Nat.le_of_eq heq), h heq⟩
  nothing _ _ _ _ := nofun
  refuse room depth head decision _ _ hcut heq :=
    List.forall_mem_singleton.mpr (Act.within_decide hcut (by omega))
  behind {room depth} head {decision} done {c} hleads h heq := by
    have hnext : (depth + 1).toNat + room = limit := by
      rw [UInt32.toNat_add, UInt32.toNat_one, Nat.mod_eq_of_lt (by omega)]
      omega
    have hne : decision ≠ .depthBoundReached := by
      rintro rfl
      cases hleads
    exact forall_acts_behind (Act.within_decide hne (by omega))
      (Act.within_decide nofun (by omega)) (h hnext)
  orElse hfound h h' heq := by
    rw [acts_orElse_of_none hfound]
    exact List.forall_mem_append.mpr ⟨h heq, h' heq⟩

/-- A decision that leads on is taken back unless it stands at the end, and no more decisions stand
than there is room for. -/
theorem isClosed_takenBack : IsClosed (A := A)
    (fun room _ c =>
      (c.found = none → c.decisions Decision.leadsOn ≤ c.decisions (· = .backtracked)) ∧
      c.decisions Decision.leadsOn ≤ c.decisions (· = .backtracked) + room)
    (fun room _ c =>
      (c.found = none → c.decisions Decision.leadsOn ≤ c.decisions (· = .backtracked)) ∧
      c.decisions Decision.leadsOn ≤ c.decisions (· = .backtracked) + (room + 1)) where
  cut _ _ := ⟨fun _ => Nat.le_refl _, Nat.le_refl _⟩
  success _ _ := ⟨nofun, Nat.zero_le _⟩
  enter h := h
  nothing _ _ := ⟨fun _ => Nat.le_refl _, Nat.zero_le _⟩
  refuse room depth head decision hleads _ _ := by
    have hzero : (refusal depth (some head) decision).decisions Decision.leadsOn = 0 := by
      simp [decisions, refusal, Act.decides, hleads]
    rw [hzero]
    exact ⟨fun _ => Nat.zero_le _, Nat.zero_le _⟩
  behind {room depth} head {decision} done {c} hleads h := by
    have hne : decision ≠ .backtracked := by
      rintro rfl
      cases hleads
    simp only [decisions] at h ⊢
    cases hfound : c.found with
    | some steps =>
        rw [acts_behind_of_some hfound]
        simp only [List.countP_cons, Act.decides, hleads, hne, decide_false, if_true,
          Bool.false_eq_true, if_false]
        refine ⟨fun hnone => ?_, Nat.succ_le_succ h.2⟩
        rw [found_behind_eq_none, hfound] at hnone
        cases hnone
    | none =>
        have hback := h.1 hfound
        have hlast : Decision.leadsOn .backtracked = false := rfl
        rw [acts_behind_of_none hfound]
        simp only [List.countP_cons, List.countP_append, List.countP_nil, Act.decides, hleads, hne,
          hlast, decide_false, decide_true, if_true, Bool.false_eq_true, if_false]
        omega
  orElse {room depth c c'} hfound h h' := by
    have hnone := h.1 hfound
    simp only [decisions] at *
    rw [acts_orElse_of_none hfound, found_orElse_of_none hfound, List.countP_append,
      List.countP_append]
    refine ⟨fun hfound' => ?_, by omega⟩
    exact Nat.add_le_add hnone (h'.1 hfound')

/-- One frame is entered for the whole course, and one behind each decision that leads on. -/
theorem entries_course (d : Domain S A) (room : Nat) (depth : UInt32) (state : S)
    (tasks : List (Task A)) :
    (course d room depth state tasks).entries =
      1 + (course d room depth state tasks).decisions Decision.leadsOn := by
  have hentered : (fun act : Act A => act.entered?.isSome) = Act.isEntry := by
    funext act
    cases act <;> rfl
  have hbehind : (fun act : Act A => act.behind?.isSome) = Act.decides Decision.leadsOn := by
    funext act
    cases act with
    | enter depth => rfl
    | decide depth task decision => cases decision <;> rfl
  have h := congrArg List.length (isClosed_entered.course d room depth state tasks)
  rwa [List.length_cons, List.length_filterMap_eq_countP, List.length_filterMap_eq_countP, hentered,
    hbehind, Nat.add_comm] at h

/-! ## Kinds of decisions -/

theorem decisions_or {kind kind' : Decision → Bool}
    (h : ∀ decision, kind decision = true → kind' decision = false) :
    c.decisions (fun decision => kind decision || kind' decision) =
      c.decisions kind + c.decisions kind' := by
  simp only [decisions]
  induction c.acts with
  | nil => rfl
  | cons act acts ih =>
      simp only [List.countP_cons, ih]
      cases act with
      | enter depth => rfl
      | decide depth task decision =>
          cases hkind : kind decision with
          | true =>
              simp only [Act.decides, hkind, h decision hkind, Bool.or_false, if_true,
                Bool.false_eq_true, if_false]
              exact Nat.add_right_comm _ _ _
          | false =>
              simp only [Act.decides, hkind, Bool.false_or, Bool.false_eq_true, if_false]
              exact Nat.add_assoc _ _ _

theorem decisions_le (kind : Decision → Bool) :
    c.decisions kind ≤ c.decisions fun _ => true := by
  refine List.countP_mono_left fun act _ hact => ?_
  cases act with
  | enter depth => cases hact
  | decide depth task decision => rfl

theorem decisions_leadsOn :
    c.decisions Decision.leadsOn =
      c.decisions (· = .operatorApplied) + c.decisions Decision.isDecomposition := by
  have hkinds : Decision.leadsOn =
      fun decision => decide (decision = .operatorApplied) || decision.isDecomposition := by
    funext decision
    cases decision <;> rfl
  rw [hkinds, decisions_or]
  rintro decision hdecision
  obtain rfl := of_decide_eq_true hdecision
  rfl

theorem cuts_eq_decisions : c.cuts = c.decisions (· = .depthBoundReached) := by
  refine congrArg (List.countP · c.acts) ?_
  funext act
  cases act with
  | enter depth => rfl
  | decide depth task decision => cases decision <;> rfl

/-- If the decisions can be counted, so can the frames. -/
theorem entries_course_lt {d : Domain S A} {room : Nat} {state : S} {tasks : List (Task A)}
    (hroom : room < 2 ^ 63)
    (h : (course d room depth state tasks).decisions (fun _ => true) < 2 ^ 64) :
    (course d room depth state tasks).entries < 2 ^ 64 := by
  have htaken := (isClosed_takenBack.course d room depth state tasks).2
  have hboth : (course d room depth state tasks).decisions Decision.leadsOn +
      (course d room depth state tasks).decisions (· = .backtracked) ≤
        (course d room depth state tasks).decisions fun _ => true := by
    rw [← decisions_or]
    · exact decisions_le _
    · rintro decision hleads
      cases decision with
      | backtracked => cases hleads
      | _ => rfl
  rw [entries_course]
  omega

end Course

/-- All frames of a run, and all that is decided in them, lie within its bound. -/
theorem within_of_mem_courseOfRun {d : Domain S A} {p : Policy} {start : S} {tasks : List (Task A)}
    (hvalid : p.validate = .ok ()) {act : Act A} (hact : act ∈ (courseOfRun d p start tasks).acts) :
    act.Within (p.maxDepth.toNat + 1) := by
  obtain ⟨-, hceiling⟩ := Policy.validate_eq_ok.mp hvalid
  exact (Course.isClosed_within (p.maxDepth.toNat + 1) (by omega)).course d _ 0 start tasks
    (Nat.zero_add _) act hact

/-- The depth of a frame in which something is decided leaves room for the next one. -/
theorem toNat_add_one_of_mem_courseOfRun {d : Domain S A} {p : Policy} {start : S}
    {tasks : List (Task A)} (hvalid : p.validate = .ok ()) {depth : UInt32}
    {task : Option (Task A)} {decision : Decision}
    (hact : .decide depth task decision ∈ (courseOfRun d p start tasks).acts)
    (hne : decision ≠ .depthBoundReached) : (depth + 1).toNat = depth.toNat + 1 := by
  obtain ⟨-, hceiling⟩ := Policy.validate_eq_ok.mp hvalid
  have hlt := (within_of_mem_courseOfRun hvalid hact).toNat_lt hne
  rw [UInt32.toNat_add, UInt32.toNat_one, Nat.mod_eq_of_lt (by omega)]

end Search

/-! ## Journals -/

namespace Journal

open Search (Act Course)

variable [Argument A] {p q : Policy} {j : Journal A} {c : Course A}

theorem events_take (hrecord : p.recordDecisions = true) (act : Act A) :
    (take p j act).events.toList.map Event.unnumbered =
      j.events.toList.map Event.unnumbered ++ act.event?.toList := by
  cases act with
  | enter depth => exact (List.append_nil _).symm
  | decide depth task decision =>
      have hcount : (j.count task decision).events = j.events := by
        cases decision <;> cases task <;> rfl
      simp [take, note, hrecord, hcount, Act.event?, Event.unnumbered]

/-- If decisions are recorded each of them becomes an event. -/
theorem events_follow (hrecord : p.recordDecisions = true) :
    (j.follow p c).events.toList.map Event.unnumbered =
      j.events.toList.map Event.unnumbered ++ c.acts.filterMap Act.event? := by
  show (c.acts.foldl (take p) j).events.toList.map Event.unnumbered = _
  induction c.acts generalizing j with
  | nil => exact (List.append_nil _).symm
  | cons act acts ih =>
      rw [List.foldl_cons, ih, events_take hrecord, List.append_assoc]
      cases hevent : act.event? with
      | none =>
          rw [List.filterMap_cons_none hevent]
          rfl
      | some e =>
          rw [List.filterMap_cons_some hevent]
          rfl

/-- A number that goes up by one with the decisions of a kind, and with nothing else. -/
theorem follow_decisions {f : Journal A → UInt64} {kind : Decision → Bool}
    (henter : ∀ (j : Journal A) depth, f (j.enter depth) = f j)
    (hnote : ∀ (j : Journal A) depth task decision, f (j.note p depth task decision) = f j)
    (hcount : ∀ (j : Journal A) task decision,
      f (j.count task decision) = f j + UInt64.ofNat (if kind decision then 1 else 0))
    (hplan : ∀ (j : Journal A) plan, f { j with plan := plan } = f j) :
    f (j.follow p c) = f j + UInt64.ofNat (c.decisions kind) := by
  rw [follow, hplan]
  refine foldl_take_count (f := f) (fun j act => ?_) c.acts
  cases act with
  | enter depth => exact (henter j depth).trans (UInt64.add_zero _).symm
  | decide depth task decision => exact (hnote _ depth task decision).trans (hcount j task decision)

theorem operatorApplications_follow :
    (j.follow p c).operatorApplications =
      j.operatorApplications + UInt64.ofNat (c.decisions (· = .operatorApplied)) := by
  refine follow_decisions (f := operatorApplications) (fun _ _ => rfl) (fun _ _ _ _ => rfl)
    (fun j task decision => ?_) (fun _ _ => rfl)
  cases decision <;> cases task <;> simp [count, countApplication, countExpansion, countBacktrack,
    countCut, addUnresolved]

theorem methodExpansions_follow :
    (j.follow p c).methodExpansions =
      j.methodExpansions + UInt64.ofNat (c.decisions Decision.isDecomposition) := by
  refine follow_decisions (f := methodExpansions) (fun _ _ => rfl) (fun _ _ _ _ => rfl)
    (fun j task decision => ?_) (fun _ _ => rfl)
  cases decision <;> cases task <;> simp [count, countApplication, countExpansion, countBacktrack,
    countCut, addUnresolved, Decision.isDecomposition]

theorem backtracks_follow :
    (j.follow p c).backtracks =
      j.backtracks + UInt64.ofNat (c.decisions (· = .backtracked)) := by
  refine follow_decisions (f := backtracks) (fun _ _ => rfl) (fun _ _ _ _ => rfl)
    (fun j task decision => ?_) (fun _ _ => rfl)
  cases decision <;> cases task <;> simp [count, countApplication, countExpansion, countBacktrack,
    countCut, addUnresolved]

theorem maxDepthReached_follow :
    (j.follow p c).maxDepthReached =
      (c.acts.filterMap Act.entered?).foldl max j.maxDepthReached := by
  show (c.acts.foldl (take p) j).maxDepthReached = _
  induction c.acts generalizing j with
  | nil => rfl
  | cons act acts ih =>
      rw [List.foldl_cons, ih]
      cases act with
      | enter depth => rfl
      | decide depth task decision => cases decision <;> cases task <;> rfl

/-! ## Journals without events -/

/-- The journal without its events. -/
def silent (j : Journal A) : Journal A := { j with events := #[] }

theorem take_silent (hq : q.recordDecisions = false) (act : Act A) :
    take q j.silent act = (take p j act).silent := by
  cases act with
  | enter depth => rfl
  | decide depth task decision =>
      rw [take, note, hq]
      cases decision <;> cases task <;> rfl

/-- What is not recorded changes nothing else. -/
theorem follow_silent (hq : q.recordDecisions = false) :
    j.silent.follow q c = (j.follow p c).silent := by
  have hfold (acts : List (Act A)) :
      acts.foldl (take q) j.silent = (acts.foldl (take p) j).silent := by
    induction acts generalizing j with
    | nil => rfl
    | cons act acts ih => rw [List.foldl_cons, take_silent (p := p) hq, ih, List.foldl_cons]
  rw [follow, hfold]
  rfl

end Journal

/-! ## Runs -/

instance lawfulOrderMaxUInt32 : Std.LawfulOrderMax UInt32 where
  max_eq_or a b := by
    by_cases h : a ≤ b
    · exact .inr (if_pos h)
    · exact .inl (if_neg h)
  max_le_iff a b c := by
    by_cases h : a ≤ b
    · rw [show max a b = b from if_pos h]
      exact ⟨fun hb => ⟨UInt32.le_trans h hb, hb⟩, And.right⟩
    · rw [show max a b = a from if_neg h]
      have hle := UInt32.le_of_lt (UInt32.not_le.mp h)
      exact ⟨fun ha => ⟨ha, UInt32.le_trans hle ha⟩, And.left⟩

namespace Planner

open Search (Act courseOfRun)

variable [PlanningState S] [Argument A] {d : Domain S A} {p q : Policy} {planner : Planner S A}
  {start : S} {tasks : List (Task A)} {kind : Decision → Bool}

/-- Without events a run has the same result and the same metadata. -/
theorem runTraced_silent (hq : q.recordDecisions = false) (hbound : q.maxDepth = p.maxDepth) :
    runTraced ⟨d, q⟩ start tasks = ⟨(runTraced ⟨d, p⟩ start tasks).result,
      ⟨[], (runTraced ⟨d, p⟩ start tasks).trace.metadata⟩⟩ := by
  have hcourse : courseOfRun d q start tasks = courseOfRun d p start tasks := by
    rw [courseOfRun, courseOfRun, hbound]
  have hrun : Search.run d q start tasks =
      ((Search.run d p start tasks).1, (Search.run d p start tasks).2.silent) := by
    rw [Search.run_eq, Search.run_eq, hcourse, ← Journal.follow_silent hq]
    rfl
  rw [runTraced, runTraced, hrun, traceOf, hbound]
  rcases Search.run d p start tasks with ⟨_ | _, j⟩ <;> rfl

section

variable (hrecord : p.recordDecisions = true)

include hrecord

theorem events_runTraced :
    (runTraced ⟨d, p⟩ start tasks).trace.events.map Event.unnumbered =
      (courseOfRun d p start tasks).acts.filterMap Act.event? := by
  show (Search.run d p start tasks).2.events.toList.map Event.unnumbered = _
  rw [Search.run_eq, Journal.events_follow hrecord]
  rfl

theorem count_runTraced :
    (runTraced ⟨d, p⟩ start tasks).trace.count kind =
      (courseOfRun d p start tasks).decisions kind := by
  have hevents : (runTraced ⟨d, p⟩ start tasks).trace.count kind =
      ((runTraced ⟨d, p⟩ start tasks).trace.events.map Event.unnumbered).countP
        fun e => kind e.decision := by
    rw [List.countP_map]
    rfl
  rw [hevents, events_runTraced hrecord, List.countP_filterMap, Search.Course.decisions]
  refine congrArg (List.countP · _) ?_
  funext act
  cases act <;> rfl

theorem length_events_runTraced :
    (runTraced ⟨d, p⟩ start tasks).trace.events.length =
      (courseOfRun d p start tasks).decisions fun _ => true := by
  rw [← count_runTraced hrecord, Trace.count, List.countP_true]

theorem toNat_decisions (hsize : (runTraced ⟨d, p⟩ start tasks).trace.events.length < 2 ^ 64) :
    (0 + UInt64.ofNat ((courseOfRun d p start tasks).decisions kind)).toNat =
      (runTraced ⟨d, p⟩ start tasks).trace.count kind := by
  rw [length_events_runTraced hrecord] at hsize
  rw [UInt64.zero_add, count_runTraced hrecord, UInt64.toNat_ofNat_of_lt']
  exact Nat.lt_of_le_of_lt (Search.Course.decisions_le kind) hsize

/-- Events are the decisions among the acts, up to their numbers. -/
theorem exists_event_iff {P : Event → Prop} :
    (∃ e ∈ (runTraced ⟨d, p⟩ start tasks).trace.events, P e.unnumbered) ↔
      ∃ act ∈ (courseOfRun d p start tasks).acts, ∃ e, act.event? = some e ∧ P e := by
  have hmem (e : Event) :
      e ∈ (runTraced ⟨d, p⟩ start tasks).trace.events.map Event.unnumbered ↔
        ∃ act ∈ (courseOfRun d p start tasks).acts, act.event? = some e := by
    rw [events_runTraced hrecord, List.mem_filterMap]
  refine ⟨?_, ?_⟩
  · rintro ⟨e, he, hp⟩
    obtain ⟨act, hact, hevent⟩ := (hmem _).mp (List.mem_map_of_mem he)
    exact ⟨act, hact, _, hevent, hp⟩
  · rintro ⟨act, hact, e, hevent, hp⟩
    obtain ⟨e', he', rfl⟩ := List.mem_map.mp ((hmem e).mpr ⟨act, hact, hevent⟩)
    exact ⟨e', he', hp⟩

theorem mem_unresolvedTaskNames_runTraced {name : String} :
    name ∈ (runTraced ⟨d, p⟩ start tasks).trace.metadata.unresolvedTaskNames ↔
      ∃ e ∈ (runTraced ⟨d, p⟩ start tasks).trace.events,
        e.decision = .unresolved ∧ ∃ args, e.task = some ⟨name, args⟩ := by
  show name ∈ (Search.run d p start tasks).2.unresolved.keys ↔ _
  rw [Search.run_eq, Journal.mem_unresolved_follow, or_iff_right (by exact List.not_mem_nil)]
  refine Iff.trans (exists_congr fun act => and_congr_right fun _ => ?_)
    (exists_event_iff (P := fun e => e.decision = .unresolved ∧ ∃ args, e.task = some ⟨name, args⟩)
      hrecord).symm
  cases act with
  | enter depth => simp [Act.missingName?, Act.event?]
  | decide depth task decision =>
      cases decision <;> cases task <;> simp [Act.missingName?, Act.event?, Task.record]

theorem maxDepthReached_runTraced :
    (runTraced ⟨d, p⟩ start tasks).trace.metadata.maxDepthReached =
      ((runTraced ⟨d, p⟩ start tasks).trace.events.filterMap Event.behind?).foldl max 0 := by
  have hbehind : (runTraced ⟨d, p⟩ start tasks).trace.events.filterMap Event.behind? =
      (courseOfRun d p start tasks).acts.filterMap Act.behind? := by
    have hact : (fun act : Act A => act.event?.bind Event.behind?) = Act.behind? := by
      funext act
      cases act <;> rfl
    rw [← hact, ← List.filterMap_filterMap, ← events_runTraced hrecord, List.filterMap_map]
    rfl
  have hentered := Search.Course.isClosed_entered.course d (p.maxDepth.toNat + 1) 0 start tasks
  rw [hbehind]
  show (Search.run d p start tasks).2.maxDepthReached = _
  rw [Search.run_eq, Journal.maxDepthReached_follow, courseOfRun, hentered]
  rfl

/-- The greatest depth is that of the first frame or of one behind an event, and no frame behind an
event lies deeper. -/
theorem maxDepthReached_greatest (d : Domain S A) (start : S) (tasks : List (Task A)) :
    ((runTraced ⟨d, p⟩ start tasks).trace.metadata.maxDepthReached = 0 ∨
      ∃ e ∈ (runTraced ⟨d, p⟩ start tasks).trace.events, e.decision.leadsOn = true ∧
        e.depth + 1 = (runTraced ⟨d, p⟩ start tasks).trace.metadata.maxDepthReached) ∧
    ∀ e ∈ (runTraced ⟨d, p⟩ start tasks).trace.events, e.decision.leadsOn = true →
      e.depth + 1 ≤ (runTraced ⟨d, p⟩ start tasks).trace.metadata.maxDepthReached := by
  have hmax :
      (0 :: (runTraced ⟨d, p⟩ start tasks).trace.events.filterMap Event.behind?).max? =
        some (runTraced ⟨d, p⟩ start tasks).trace.metadata.maxDepthReached := by
    rw [List.max?_cons', maxDepthReached_runTraced hrecord]
  obtain ⟨hmem, hle⟩ := List.max?_eq_some_iff.mp hmax
  refine ⟨(List.mem_cons.mp hmem).imp_right fun hmem => ?_, fun e he hleads => ?_⟩
  · obtain ⟨e, he, hbehind⟩ := List.mem_filterMap.mp hmem
    exact ⟨e, he, Event.behind?_eq_some.mp hbehind⟩
  · refine hle _ (List.mem_cons_of_mem _ (List.mem_filterMap.mpr ⟨e, he, ?_⟩))
    exact Event.behind?_eq_some.mpr ⟨hleads, rfl⟩

omit hrecord in
/-- An event is a decision among the acts, whether or not there are events. -/
theorem exists_act_of_mem_events {e : Event}
    (he : e ∈ (runTraced ⟨d, p⟩ start tasks).trace.events) :
    ∃ task, .decide e.depth task e.decision ∈ (courseOfRun d p start tasks).acts := by
  cases hrecord : p.recordDecisions with
  | false =>
      rw [runTraced_silent (p := p) hrecord rfl] at he
      cases he
  | true =>
      obtain ⟨act, hact, e', hevent, hdepth, hdecision⟩ :=
        (exists_event_iff (P := fun e' => e'.depth = e.depth ∧ e'.decision = e.decision)
          hrecord).mp ⟨e, he, rfl, rfl⟩
      cases act with
      | enter depth => cases hevent
      | decide depth task decision =>
          cases hevent
          exact ⟨task, hdepth ▸ hdecision ▸ hact⟩

omit hrecord in
/-- The depth of the frame behind an event does not wrap around. -/
theorem toNat_depth_add_one (hvalid : p.validate = .ok ()) {e : Event}
    (he : e ∈ (runTraced ⟨d, p⟩ start tasks).trace.events) (hleads : e.decision.leadsOn = true) :
    (e.depth + 1).toNat = e.depth.toNat + 1 := by
  obtain ⟨task, hact⟩ := exists_act_of_mem_events he
  have hne : e.decision ≠ .depthBoundReached := by
    intro heq
    rw [heq] at hleads
    cases hleads
  exact Search.toNat_add_one_of_mem_courseOfRun hvalid hact hne

section

variable (hsize : (runTraced ⟨d, p⟩ start tasks).trace.events.length < 2 ^ 64)

include hsize

theorem toNat_operatorApplications_runTraced :
    (runTraced ⟨d, p⟩ start tasks).trace.metadata.operatorApplications.toNat =
      (runTraced ⟨d, p⟩ start tasks).trace.count (· = .operatorApplied) := by
  show (Search.run d p start tasks).2.operatorApplications.toNat = _
  rw [Search.run_eq, Journal.operatorApplications_follow]
  exact toNat_decisions hrecord hsize

theorem toNat_methodExpansions_runTraced :
    (runTraced ⟨d, p⟩ start tasks).trace.metadata.methodExpansions.toNat =
      (runTraced ⟨d, p⟩ start tasks).trace.count Decision.isDecomposition := by
  show (Search.run d p start tasks).2.methodExpansions.toNat = _
  rw [Search.run_eq, Journal.methodExpansions_follow]
  exact toNat_decisions hrecord hsize

theorem toNat_depthBoundHits_runTraced :
    (runTraced ⟨d, p⟩ start tasks).trace.metadata.depthBoundHits.toNat =
      (runTraced ⟨d, p⟩ start tasks).trace.count (· = .depthBoundReached) := by
  rw [depthBoundHits_runTraced, Search.Course.cuts_eq_decisions, ← UInt64.zero_add (.ofNat _)]
  exact toNat_decisions hrecord hsize

variable (hvalid : p.validate = .ok ())

include hvalid

/-- The metadata agree with the events, if these can be numbered. -/
theorem isCounted_runTraced : (runTraced ⟨d, p⟩ start tasks).trace.IsCounted where
  operatorApplications := toNat_operatorApplications_runTraced hrecord hsize
  methodExpansions := toNat_methodExpansions_runTraced hrecord hsize
  backtracks := by
    show (Search.run d p start tasks).2.backtracks.toNat = _
    rw [Search.run_eq, Journal.backtracks_follow]
    exact toNat_decisions hrecord hsize
  depthBoundHits := toNat_depthBoundHits_runTraced hrecord hsize
  framesVisited := by
    obtain ⟨-, hceiling⟩ := Policy.validate_eq_ok.mp hvalid
    have hlt : (courseOfRun d p start tasks).entries < 2 ^ 64 := by
      refine Search.Course.entries_course_lt (by omega) ?_
      rwa [length_events_runTraced hrecord] at hsize
    rw [toNat_operatorApplications_runTraced hrecord hsize,
      toNat_methodExpansions_runTraced hrecord hsize, count_runTraced hrecord,
      count_runTraced hrecord, framesVisited_runTraced, UInt64.toNat_ofNat_of_lt' hlt,
      Nat.add_assoc, ← Search.Course.decisions_leadsOn]
    exact Search.Course.entries_course d _ _ _ _
  maxDepthReached := by
    obtain ⟨hreached, hle⟩ := maxDepthReached_greatest hrecord d start tasks
    have hnext {e : Event} (he : e ∈ (runTraced ⟨d, p⟩ start tasks).trace.events)
        (hleads : e.decision.leadsOn = true) : e.depth.toNat + 1 ≤
          (runTraced ⟨d, p⟩ start tasks).trace.metadata.maxDepthReached.toNat := by
      rw [← toNat_depth_add_one hvalid he hleads]
      exact UInt32.le_iff_toNat_le.mp (hle e he hleads)
    rcases hreached with hzero | ⟨e, he, hleads, hlast⟩
    · refine .inl ⟨hzero, fun e he => Bool.eq_false_iff.mpr fun hleads => ?_⟩
      have hlow := hnext he hleads
      rw [hzero] at hlow
      exact Nat.not_succ_le_zero _ hlow
    · have hdepth := toNat_depth_add_one hvalid he hleads
      rw [hlast] at hdepth
      refine .inr ⟨e, he, hleads, hdepth, fun e' he' hleads' => UInt32.le_iff_toNat_le.mpr ?_⟩
      have hlow := hnext he' hleads'
      rw [hdepth] at hlow
      exact Nat.le_of_succ_le_succ hlow
  ascending := OrderedMap.pairwise_keys _
  mem_unresolved name := mem_unresolvedTaskNames_runTraced hrecord

end

end

/-- The metadata of a run agree with its events, unless these are too many to be numbered, and so do
its termination and its failure. A run that records nothing is the same but for the events. -/
theorem runTraced_counts (h : create d p = .ok planner) (hrecord : p.recordDecisions = true)
    {outcome : PlanningOutcome A} (hrun : planner.runTraced start tasks = outcome)
    (hsize : outcome.trace.events.length < 2 ^ 64) :
    outcome.trace.IsCounted ∧
    (∀ plan, outcome.result = .ok plan → ∃ steps,
      outcome.trace.metadata.termination = .planFound steps ∧ steps.toNat = plan.steps.length) ∧
    (∀ failure, outcome.result = .error failure →
      outcome.trace.metadata.termination = .searchExhausted failure.depthBoundReached ∧
      (failure.depthBoundReached = true ↔
        ∃ e ∈ outcome.trace.events, e.decision = .depthBoundReached) ∧
      failure.framesVisited = outcome.trace.metadata.framesVisited ∧
      failure.unresolvedTaskNames = outcome.trace.metadata.unresolvedTaskNames) ∧
    ∃ silent, create d { p with recordDecisions := false } = .ok silent ∧
      silent.runTraced start tasks = ⟨outcome.result, ⟨[], outcome.trace.metadata⟩⟩ := by
  obtain rfl := eq_of_create h
  have hvalid := validate_of_create h
  subst hrun
  refine ⟨isCounted_runTraced hrecord hsize hvalid, fun plan hplan => ?_, fun failure hfail => ?_,
    ⟨d, { p with recordDecisions := false }⟩, create_of_validate hvalid, runTraced_silent rfl rfl⟩
  · refine ⟨_, termination_of_run_ok hplan, UInt64.toNat_ofNat_of_lt' ?_⟩
    exact Nat.lt_of_le_of_lt (length_steps_le hplan)
      (Nat.lt_trans p.maxDepth.toNat_lt (by decide))
  · obtain ⟨hnames, hframes, htermination, hreached⟩ := metadata_of_run_error hfail
    refine ⟨htermination, ?_, hframes.symm, hnames.symm⟩
    rw [hreached, UInt64.lt_iff_toNat_lt, toNat_depthBoundHits_runTraced hrecord hsize,
      Trace.count]
    refine List.countP_pos_iff.trans ?_
    simp only [decide_eq_true_iff]

/-- Nobody knows how to sleep in the travel world: the walk leads to that task, and the ride beyond
a bound of three steps. All that is decided before is taken back. -/
theorem runTraced_counts_asleep :
    ∃ d planner outcome failure, Travel.domain = .ok d ∧
      create d { maxDepth := 3 } = .ok planner ∧
      planner.runTraced (Travel.startState 20)
        [⟨Travel.travelTask, ["home", "shop"]⟩, ⟨"sleep", []⟩] = outcome ∧
      outcome.trace.events.length = 14 ∧ outcome.result = .error failure ∧
      failure.framesVisited = 7 ∧ outcome.trace.IsCounted ∧
      (∃ e ∈ outcome.trace.events, e.decision = .depthBoundReached) ∧
      ∃ silent, create d ⟨3, false⟩ = .ok silent ∧
        silent.runTraced (Travel.startState 20)
          [⟨Travel.travelTask, ["home", "shop"]⟩, ⟨"sleep", []⟩] =
            ⟨outcome.result, ⟨[], outcome.trace.metadata⟩⟩ := by
  obtain ⟨d, planner, outcome, failure, hd, hcreate, hrun, hlength, hfail, hreached, hframes⟩ :
      ∃ d planner outcome failure, Travel.domain = .ok d ∧
        create d { maxDepth := 3 } = .ok planner ∧
        planner.runTraced (Travel.startState 20)
          [⟨Travel.travelTask, ["home", "shop"]⟩, ⟨"sleep", []⟩] = outcome ∧
        outcome.trace.events.length = 14 ∧ outcome.result = .error failure ∧
        failure.depthBoundReached = true ∧ failure.framesVisited = 7 :=
    ⟨_, _, _, _, rfl, rfl, rfl, by decide, rfl, by decide, by decide⟩
  have hsize : outcome.trace.events.length < 2 ^ 64 := by
    rw [hlength]
    decide
  obtain ⟨hcounted, -, hfailure, hsilent⟩ := runTraced_counts hcreate rfl hrun hsize
  exact ⟨d, planner, outcome, failure, hd, hcreate, hrun, hlength, hfail, hframes, hcounted,
    (hfailure failure hfail).2.1.mp hreached, hsilent⟩

end Planner

end TaskNetwork
