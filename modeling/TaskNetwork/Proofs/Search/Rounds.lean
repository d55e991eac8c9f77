import Mathlib.Data.List.Nodup
import Mathlib.Tactic.SplitIfs
import TaskNetwork.Proofs.Domain.Declarations
import TaskNetwork.Proofs.Except
import TaskNetwork.Proofs.Search.Linear
import TaskNetwork.Replay

/-!
# Moving blocks in rounds

Both worlds with blocks declare the same compound tasks. One round of the task `move_blocks` gets a
block, puts it, and leaves `move_blocks` to be done again; so a run is as many rounds as some effort
can decrease, and then ends with a plan or without one.
-/

namespace TaskNetwork

variable {S A : Type}

/-! ## Domains that move blocks -/

namespace Domain

/-- A domain with operators, and with one method for each of the tasks of moving blocks. -/
def declareMoves (id : String) (ops : List (Operator S A))
    (put get moveOne moveBlocks : Method S A) : Except DomainError (Domain S A) :=
  ofBatches id
    [.operators ops, .methods "put" [put], .methods "get" [get], .methods "move_one" [moveOne],
      .methods "move_blocks" [moveBlocks]]

/-- The names of all tasks of such a domain. -/
def moveNames (ops : List (Operator S A)) : List String :=
  ["put", "get", "move_one", "move_blocks"] ++ ops.map (·.name)

variable {d : Domain S A} {id : String} {ops : List (Operator S A)} {op : Operator S A}
  {put get moveOne moveBlocks : Method S A}

theorem findRev?_eq_none (hnames : (moveNames ops).Nodup) {name : String}
    (hname : name ∈ ["put", "get", "move_one", "move_blocks"]) :
    (ops.findRev? fun op => op.name == name) = none := by
  rw [List.findRev?_eq_find?_reverse, List.find?_eq_none]
  intro op hop heq
  have hop := List.mem_map.mpr ⟨op, List.mem_reverse.mp hop, beq_iff_eq.mp heq⟩
  exact (List.nodup_append.mp hnames).2.2 name hname name hop rfl

theorem findRev?_eq_some (hnames : (moveNames ops).Nodup) (hop : op ∈ ops) :
    (ops.findRev? fun op' => op'.name == op.name) = some op := by
  rw [List.findRev?_eq_find?_reverse]
  cases hfind : ops.reverse.find? fun op' => op'.name == op.name with
  | none => exact absurd (List.find?_eq_none.mp hfind op (List.mem_reverse.mpr hop)) (by simp)
  | some op' =>
      have hop' := List.mem_reverse.mp (List.mem_of_find?_eq_some hfind)
      have hname : op'.name = op.name := by simpa using List.find?_some hfind
      rw [List.inj_on_of_nodup_map (List.nodup_append.mp hnames).2.1 hop' hop hname]

section

variable (h : declareMoves id ops put get moveOne moveBlocks = .ok d)
  (hnames : (moveNames ops).Nodup)

include h hnames

theorem resolve_of_declareMoves (name : String) :
    d.resolve name =
      if name = "move_blocks" then .compound [moveBlocks]
      else if name = "move_one" then .compound [moveOne]
      else if name = "get" then .compound [get]
      else if name = "put" then .compound [put]
      else match ops.findRev? fun op => op.name == name with
        | some op => .primitive op
        | none => .unknown := by
  obtain ⟨d₁, h₁, h⟩ := declareAll_cons_eq_ok.mp (ofBatches_eq_ok.mp h)
  obtain ⟨d₂, h₂, h⟩ := declareAll_cons_eq_ok.mp h
  obtain ⟨d₃, h₃, h⟩ := declareAll_cons_eq_ok.mp h
  obtain ⟨d₄, h₄, h⟩ := declareAll_cons_eq_ok.mp h
  obtain ⟨d₅, h₅, ⟨⟩⟩ := declareAll_cons_eq_ok.mp h
  have hnew {name : String} (hname : name ∈ ["put", "get", "move_one", "move_blocks"]) :
      d₁.resolve name = .unknown := by
    rw [resolve_declareOperators h₁, findRev?_eq_none hnames hname, resolve_empty]
  have hold : d₁.resolve name = match ops.findRev? fun op => op.name == name with
      | some op => .primitive op
      | none => .unknown := resolve_declareOperators h₁ name
  rw [resolve_declareMethods h₅, resolve_declareMethods h₄, resolve_declareMethods h₃,
    resolve_declareMethods h₂]
  simp [hnew, Resolution.methods, resolve_declareMethods h₄, resolve_declareMethods h₃,
    resolve_declareMethods h₂, hold]

/-- Such a domain has one method for a compound task, and no operators but those it was given. -/
theorem resolve_cases_of_declareMoves (name : String) :
    (∃ m ∈ [put, get, moveOne, moveBlocks], d.resolve name = .compound [m]) ∨
      (∃ op ∈ ops, d.resolve name = .primitive op) ∨ d.resolve name = .unknown := by
  rw [resolve_of_declareMoves h hnames]
  split_ifs
  · exact .inl ⟨moveBlocks, by simp, rfl⟩
  · exact .inl ⟨moveOne, by simp, rfl⟩
  · exact .inl ⟨get, by simp, rfl⟩
  · exact .inl ⟨put, by simp, rfl⟩
  · split
    · rename_i op hfind
      rw [List.findRev?_eq_find?_reverse] at hfind
      exact .inr (.inl ⟨op, List.mem_reverse.mp (List.mem_of_find?_eq_some hfind), rfl⟩)
    · exact .inr (.inr rfl)

theorem isLinear_of_declareMoves : d.IsLinear := by
  intro name methods hr
  rcases resolve_cases_of_declareMoves h hnames name with ⟨m, -, hr'⟩ | ⟨op, -, hr'⟩ | hr'
  · cases hr.symm.trans hr'
    exact Nat.le_refl 1
  · cases hr.symm.trans hr'
  · cases hr.symm.trans hr'

theorem resolve_operator_of_declareMoves (hop : op ∈ ops) :
    d.resolve op.name = .primitive op := by
  have hne {name : String} (hname : name ∈ ["put", "get", "move_one", "move_blocks"]) :
      op.name ≠ name := by
    rintro rfl
    exact (List.nodup_append.mp hnames).2.2 _ hname _ (List.mem_map_of_mem hop) rfl
  rw [resolve_of_declareMoves h hnames, if_neg (hne (by simp)), if_neg (hne (by simp)),
    if_neg (hne (by simp)), if_neg (hne (by simp)), findRev?_eq_some hnames hop]

end

/-- A task is that of an operator which leads from one state to another. -/
def Does (d : Domain S A) (ops : List (Operator S A)) (state : S) (t : Task A) (next : S) : Prop :=
  ∃ op ∈ ops, d.resolve t.name = .primitive op ∧ op.apply state t.args = .ok next

theorem Does.of_declareMoves (h : declareMoves id ops put get moveOne moveBlocks = .ok d)
    (hnames : (moveNames ops).Nodup) {state next : S} {args : List A} (hop : op ∈ ops)
    (ha : op.apply state args = .ok next) : d.Does ops state ⟨op.name, args⟩ next :=
  ⟨op, hop, resolve_operator_of_declareMoves h hnames hop, ha⟩

theorem Does.reachable {state next start : S} {t : Task A} (h : d.Does ops state t next)
    (hs : Reachable ops start state) : Reachable ops start next := by
  obtain ⟨op, hop, -, ha⟩ := h
  exact hs.apply hop ha

end Domain

/-! ## Rounds -/

/-- One round of work on a task that is its own last subtask. -/
def Round (d : Domain S A) (t : Task A) (state : S) (steps : List (Task A)) (next : S) : Prop :=
  Derivation d ⟨state, [t]⟩
    [.method 0, .method 0, .method 0, .operator, .method 0, .operator] steps ⟨next, [t]⟩

/-- Rounds that keep an invariant over the steps done so far, each of which lowers the effort, come
to a halt within the effort. -/
theorem exists_rounds {d : Domain S A} {t : Task A} {Inv : List (Task A) → S → Prop}
    {Halted : S → Prop} {effort : S → Nat}
    (progress : ∀ done state, Inv done state → Halted state ∨
      ∃ steps next, Round d t state steps next ∧ steps.length = 2 ∧ Inv (done ++ steps) next ∧
        effort next < effort state)
    {done : List (Task A)} {state : S} (h : Inv done state) :
    ∃ choices steps final, Derivation d ⟨state, [t]⟩ choices steps ⟨final, [t]⟩ ∧
      choices.length ≤ 6 * effort state ∧ steps.length ≤ 2 * effort state ∧
      Inv (done ++ steps) final ∧ Halted final := by
  induction he : effort state using Nat.strongRecOn generalizing done state with
  | ind n ih =>
      rcases progress done state h with hhalt | ⟨steps, next, hround, hlen, hinv, hlt⟩
      · refine ⟨[], [], state, .refl _, Nat.zero_le _, Nat.zero_le _, ?_, hhalt⟩
        rwa [List.append_nil]
      · obtain ⟨choices, steps', final, hd, hc, hs, hinv', hhalt⟩ := ih _ (he ▸ hlt) hinv rfl
        refine ⟨_, _, final, hround.trans hd, ?_, ?_, ?_, hhalt⟩
        · simp only [List.length_append, List.length_cons, List.length_nil]
          omega
        · simp only [List.length_append]
          omega
        · rwa [← List.append_assoc]

section

variable {d : Domain S A} {id : String} {ops : List (Operator S A)}
  {put get moveOne moveBlocks : Method S A} {args : List A}

/-- The task `move_one` is done by getting a block and putting it. -/
theorem Derivation.of_declareMoves
    (h : Domain.declareMoves id ops put get moveOne moveBlocks = .ok d)
    (hnames : (Domain.moveNames ops).Nodup)
    {state held next : S} {oneArgs getArgs putArgs : List A} {pick drop : Task A}
    (hone : moveOne.decompose state oneArgs = .ok [⟨"get", getArgs⟩, ⟨"put", putArgs⟩])
    (hget : get.decompose state getArgs = .ok [pick])
    (hpick : d.Does ops state pick held) (hput : put.decompose held putArgs = .ok [drop])
    (hdrop : d.Does ops held drop next) (rest : List (Task A)) :
    Derivation d ⟨state, ⟨"move_one", oneArgs⟩ :: rest⟩
      [.method 0, .method 0, .operator, .method 0, .operator] [pick, drop] ⟨next, rest⟩ := by
  obtain ⟨op₁, -, hr₁, ha₁⟩ := hpick
  obtain ⟨op₂, -, hr₂, ha₂⟩ := hdrop
  have hr (name : String) := Domain.resolve_of_declareMoves h hnames name
  refine .head (.method (hr "move_one") rfl hone) ?_
  refine .head (.method (hr "get") rfl hget) ?_
  refine .head (.operator hr₁ ha₁) ?_
  refine .head (.method (hr "put") rfl hput) ?_
  exact .head (.operator hr₂ ha₂) (.refl _)

theorem Round.of_declareMoves
    (h : Domain.declareMoves id ops put get moveOne moveBlocks = .ok d)
    (hnames : (Domain.moveNames ops).Nodup) {state next : S} {oneArgs : List A}
    {steps : List (Task A)}
    (hall : moveBlocks.decompose state args =
      .ok [⟨"move_one", oneArgs⟩, ⟨"move_blocks", args⟩])
    (hone : ∀ rest, Derivation d ⟨state, ⟨"move_one", oneArgs⟩ :: rest⟩
      [.method 0, .method 0, .operator, .method 0, .operator] steps ⟨next, rest⟩) :
    Round d ⟨"move_blocks", args⟩ state steps next :=
  .head (.method (Domain.resolve_of_declareMoves h hnames "move_blocks") rfl hall) (hone _)

/-- Whether the task `move_blocks` is over, because all is done or because it cannot go on. -/
def Method.IsOver (moveBlocks : Method S A) (args : List A) (state : S) : Prop :=
  moveBlocks.decompose state args = .ok [] ∨ ∃ e, moveBlocks.decompose state args = .error e

theorem Configuration.IsStuck.of_error (hr : d.resolve "move_blocks" = .compound [moveBlocks])
    {state : S} {e : MethodFailure} (he : moveBlocks.decompose state args = .error e) :
    Configuration.IsStuck d ⟨state, [⟨"move_blocks", args⟩]⟩ := by
  refine ⟨List.cons_ne_nil _ _, fun choice done c' hstep => ?_⟩
  cases hstep with
  | operator hr' _ =>
      rw [hr] at hr'
      cases hr'
  | method hr' hm hd =>
      rw [hr] at hr'
      cases hr'
      obtain rfl := List.mem_singleton.mp (List.mem_of_getElem? hm)
      rw [he] at hd
      cases hd

variable [PlanningState S] [Argument A] {p : Policy} {Inv : List (Task A) → S → Prop}
  {effort : S → Nat} {start : S}

/-- A run of rounds finds a plan exactly for solvable problems, if only these let `move_blocks` end
and only others leave it stuck. It never goes back, and if it fails it is not for want of depth. -/
theorem Planner.runTraced_of_rounds
    (h : Domain.declareMoves id ops put get moveOne moveBlocks = .ok d)
    (hnames : (Domain.moveNames ops).Nodup)
    (progress : ∀ done state, Inv done state → moveBlocks.IsOver args state ∨
      ∃ steps next, Round d ⟨"move_blocks", args⟩ state steps next ∧ steps.length = 2 ∧
        Inv (done ++ steps) next ∧ effort next < effort state)
    (hstart : Inv [] start) (hdepth : 6 * effort start + 1 ≤ p.maxDepth.toNat) {Solvable : Prop}
    (hend : ∀ steps final, Inv steps final → moveBlocks.decompose final args = .ok [] → Solvable)
    (hstuck : ∀ steps final e, Inv steps final → moveBlocks.decompose final args = .error e →
      ¬ Solvable) :
    ∃ outcome, Planner.runTraced ⟨d, p⟩ start [⟨"move_blocks", args⟩] = outcome ∧
      outcome.trace.metadata.depthBoundHits = 0 ∧
      ((∃ plan, outcome.result = .ok plan) ↔ Solvable) ∧
      (∀ plan, outcome.result = .ok plan → (∃ final, Inv plan.steps final) ∧
        plan.steps.length ≤ 2 * effort start ∧ outcome.trace.metadata.backtracks = 0 ∧
          ∀ e ∈ outcome.trace.events, e.decision ≠ .backtracked) ∧
      ∀ failure, outcome.result = .error failure → failure.depthBoundReached = false := by
  have hlin := Domain.isLinear_of_declareMoves h hnames
  have hr : d.resolve "move_blocks" = .compound [moveBlocks] :=
    Domain.resolve_of_declareMoves h hnames "move_blocks"
  obtain ⟨choices, steps, final, hd, hc, hs, hinv, hdone | ⟨e, he⟩⟩ :=
    exists_rounds progress hstart
  · have hlast : Derivation d ⟨final, [⟨"move_blocks", args⟩]⟩ [.method 0] [] ⟨final, []⟩ :=
      .head (.method hr rfl hdone) (.refl _)
    have hlen : (choices ++ [Choice.method 0]).length ≤ p.maxDepth.toNat := by
      simp only [List.length_append, List.length_cons, List.length_nil]
      omega
    obtain ⟨hres, hback, hevents, hhits⟩ :=
      Planner.runTraced_of_succeeds (p := p) hlin (hd.trans hlast) hlen
    rw [List.append_nil] at hres
    refine ⟨_, rfl, hhits, iff_of_true ⟨_, hres⟩ (hend steps final hinv hdone), ?_, ?_⟩
    · intro plan hplan
      cases hres.symm.trans hplan
      exact ⟨⟨final, hinv⟩, hs, hback, hevents⟩
    · intro failure hfail
      cases hres.symm.trans hfail
  · have hlen : choices.length ≤ p.maxDepth.toNat := by omega
    obtain ⟨⟨failure, hres, hreached⟩, hhits⟩ :=
      Planner.runTraced_of_isStuck (p := p) hlin hd (.of_error hr he) hlen
    refine ⟨_, rfl, hhits, iff_of_false ?_ (hstuck steps final e hinv he), ?_, ?_⟩
    · rintro ⟨plan, hplan⟩
      cases hres.symm.trans hplan
    · intro plan hplan
      cases hres.symm.trans hplan
    · intro failure' hfail
      cases hres.symm.trans hfail
      exact hreached

/-- Whatever its depth bound, a run that finds a plan has gone through all rounds to a state in
which nothing is left to move. -/
theorem Planner.exists_end_of_rounds
    (h : Domain.declareMoves id ops put get moveOne moveBlocks = .ok d)
    (hnames : (Domain.moveNames ops).Nodup)
    (progress : ∀ done state, Inv done state → moveBlocks.IsOver args state ∨
      ∃ steps next, Round d ⟨"move_blocks", args⟩ state steps next ∧ steps.length = 2 ∧
        Inv (done ++ steps) next ∧ effort next < effort state)
    (hstart : Inv [] start) {plan : Plan A}
    (hrun : Planner.run ⟨d, p⟩ start [⟨"move_blocks", args⟩] = .ok plan) :
    ∃ choices final,
      Derivation.Succeeds d ⟨start, [⟨"move_blocks", args⟩]⟩ choices plan.steps final ∧
        Inv plan.steps final ∧ moveBlocks.decompose final args = .ok [] := by
  have hlin := Domain.isLinear_of_declareMoves h hnames
  have hr : d.resolve "move_blocks" = .compound [moveBlocks] :=
    Domain.resolve_of_declareMoves h hnames "move_blocks"
  obtain ⟨choices, final, hs, -⟩ := Planner.exists_succeeds_of_run hrun
  obtain ⟨_, steps, last, hd, -, -, hinv, hover⟩ := exists_rounds progress hstart
  obtain ⟨choices', steps', heq, hs'⟩ := Derivation.Succeeds.of_derivation hlin hd hs
  obtain ⟨position, m, subtasks, choices', hm, hd', rfl, hs'⟩ := hs'.of_compound hr
  obtain rfl := List.mem_singleton.mp (List.mem_of_getElem? hm)
  rcases hover with hdone | ⟨e, he⟩
  · cases hd'.symm.trans hdone
    obtain ⟨-, rfl, rfl⟩ := hs'.of_nil
    rw [List.append_nil] at heq
    exact ⟨choices, final, hs, heq ▸ hinv, hdone⟩
  · cases hd'.symm.trans he

end

end TaskNetwork
