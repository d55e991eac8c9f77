import TaskNetwork.Problem
import TaskNetwork.Proofs.Baxter.Strategy
import TaskNetwork.Proofs.Blocks.Strategy
import TaskNetwork.Proofs.Search.Replanning
import TaskNetwork.Task

/-!
# What plan records determine

A record has the arguments of a step as texts, and arguments of different kinds may have the same
text: a block can be named as a hand is. But in each place an operator accepts arguments of one kind
only. So the steps of a plan that replays, from whatever state, can be read back from its record.
-/

namespace TaskNetwork

variable {S A : Type} [Argument A] {d : Domain S A} {read : List String → Option (List A)}

/-! ## Reading arguments back -/

/-- The arguments that the operator accepts are read back from their written forms. -/
def Operator.IsReadBack (op : Operator S A) (read : List String → Option (List A)) : Prop :=
  ∀ ⦃state next : S⦄ ⦃args : List A⦄,
    op.apply state args = .ok next → read (args.map Argument.text) = some args

/-- The steps of a record, with their arguments read back. -/
def PlanRecord.restore? (read : List String → Option (List A)) (r : PlanRecord) :
    Option (List (Task A)) :=
  r.steps.mapM fun t => (read t.args).map (Task.mk t.name)

theorem Replay.restore?_record
    (hread : ∀ name op, d.resolve name = .primitive op → op.IsReadBack read) {index : Nat}
    {state final : S} {steps : List (Task A)} (h : fromIndex d index state steps = .ok final) :
    (Plan.mk steps).record.restore? read = some steps := by
  induction steps generalizing index state with
  | nil => rfl
  | cons step steps ih =>
      obtain ⟨op, next, hr, ha, h⟩ := fromIndex_cons_eq_ok.mp h
      have hargs : read step.argTexts = some step.args := hread step.name op hr ha
      have hrest := ih h
      simp only [PlanRecord.restore?, Plan.record] at hrest ⊢
      rw [List.map_cons, List.mapM_cons, hrest, Task.record, hargs]
      rfl

namespace Domain

/-- Steps that replay, from whatever states, are the same if they are written down alike. -/
def RecordsPlans (d : Domain S A) : Prop :=
  ∀ ⦃start start' final final' : S⦄ ⦃steps steps' : List (Task A)⦄,
    replay d start steps = .ok final → replay d start' steps' = .ok final' →
      (Plan.mk steps).record = (Plan.mk steps').record → steps = steps'

theorem recordsPlans_of_declareMoves {id : String} {ops : List (Operator S A)}
    {put get moveOne moveBlocks : Method S A}
    (h : declareMoves id ops put get moveOne moveBlocks = .ok d) (hnames : (moveNames ops).Nodup)
    (hread : ∀ op ∈ ops, op.IsReadBack read) : d.RecordsPlans := by
  have hresolve (name : String) (op : Operator S A) (hr : d.resolve name = .primitive op) :
      op.IsReadBack read := by
    rcases resolve_cases_of_declareMoves h hnames name with
      ⟨m, -, hr'⟩ | ⟨op', hop, hr'⟩ | hr'
    · cases hr.symm.trans hr'
    · cases hr.symm.trans hr'
      exact hread op hop
    · cases hr.symm.trans hr'
  intro start start' final final' steps steps' hrun hrun' hrecord
  have hrestore := Replay.restore?_record hresolve hrun
  rw [hrecord, Replay.restore?_record hresolve hrun'] at hrestore
  exact (Option.some.inj hrestore).symm

end Domain

/-! ## The blocks world -/

namespace Blocks

/-- All texts as names of blocks. -/
def readArgs (texts : List String) : Option (List Arg) := some (texts.map .block)

theorem isReadBack_of_mem {op : Operator State Arg} (hop : op ∈ operators) :
    op.IsReadBack readArgs := by
  intro s s' args h
  simp only [operators, List.mem_cons, List.not_mem_nil, or_false] at hop
  rcases hop with rfl | rfl | rfl | rfl
  · obtain ⟨block, rfl, -⟩ := takesUp_of_pickup h
    rfl
  · obtain ⟨block, below, rfl, -⟩ := takesUp_of_unstack h
    rfl
  · obtain ⟨block, rfl, -⟩ := putsDown_of_putdown h
    rfl
  · obtain ⟨block, below, rfl, -⟩ := putsDown_of_stack h
    rfl

end Blocks

/-! ## The swap world -/

namespace Baxter

/-- A block and a hand, or a block, a place and a hand. -/
def readArgs : List String → Option (List Arg)
  | [block, hand] => do return [.block block, .hand (← Hand.ofText? hand)]
  | [block, dest, hand] => do
    return [.block block, .location (← Location.ofText? dest), .hand (← Hand.ofText? hand)]
  | _ => none

theorem Hand.ofText?_text (hand : Hand) : ofText? hand.text = some hand := by
  cases hand <;> rfl

/-- The text of a place is read back, but for the text of a hand. -/
theorem Location.ofText?_text {loc : Location} (h : ∀ hand, loc ≠ .held hand) :
    ofText? loc.text = some loc := by
  cases loc with
  | center => rfl
  | t1 => rfl
  | t2 => rfl
  | held hand => exact absurd rfl (h hand)

theorem isReadBack_of_mem {op : Operator State Arg} (hop : op ∈ operators) :
    op.IsReadBack readArgs := by
  intro s s' args h
  simp only [operators, List.mem_cons, List.not_mem_nil, or_false] at hop
  rcases hop with rfl | rfl
  · obtain ⟨block, loc, hand, rfl, -⟩ := picksUp_of_pickup h
    have hhand := hand.ofText?_text
    simp [readArgs, Argument.text, hhand]
  · obtain ⟨block, dest, hand, rfl, hp⟩ := places_of_place h
    have hhand := hand.ofText?_text
    have hdest := Location.ofText?_text hp.not_held
    simp [readArgs, Argument.text, hhand, hdest]

end Baxter

/-! ## Built-in worlds -/

/-- In both built-in worlds a plan record loses nothing: steps that replay from any states, and that
are written down alike, are the same with the kinds of all their arguments. -/
theorem recordsPlans_domains :
    (∃ d, Baxter.domain = .ok d ∧ d.RecordsPlans) ∧
      ∃ d, Blocks.domain = .ok d ∧ d.RecordsPlans := by
  obtain ⟨d, hd⟩ : ∃ d, Baxter.domain = .ok d := ⟨_, rfl⟩
  obtain ⟨d', hd'⟩ : ∃ d, Blocks.domain = .ok d := ⟨_, rfl⟩
  refine ⟨⟨d, hd, ?_⟩, ⟨d', hd', ?_⟩⟩
  · exact Domain.recordsPlans_of_declareMoves hd Baxter.nodup_moveNames
      fun _ => Baxter.isReadBack_of_mem
  · exact Domain.recordsPlans_of_declareMoves hd' Blocks.nodup_moveNames
      fun _ => Blocks.isReadBack_of_mem

/-- The left hand picks up a block of its own name. With that hand in the place of the block the
record is the same, and the step is refused in every state. -/
theorem recordsPlans_domains_left :
    ∃ d, Baxter.domain = .ok d ∧
      (∃ final, replay d (.ofPositions "start" (.ofList [("left", .center)]))
        [⟨"pickup", [.block "left", .hand .left]⟩] = .ok final) ∧
      (Plan.mk [⟨"pickup", [Baxter.Arg.hand .left, .hand .left]⟩]).record =
        (Plan.mk [⟨"pickup", [Baxter.Arg.block "left", .hand .left]⟩]).record ∧
      ∀ start final, replay d start [⟨"pickup", [.hand .left, .hand .left]⟩] ≠ .ok final := by
  obtain ⟨⟨d, hd, hrecords⟩, -⟩ := recordsPlans_domains
  obtain ⟨final, hfinal⟩ : ∃ final, replay d (.ofPositions "start" (.ofList [("left", .center)]))
      [⟨"pickup", [.block "left", .hand .left]⟩] = .ok final := by
    cases hd
    exact ⟨_, rfl⟩
  refine ⟨d, hd, ⟨final, hfinal⟩, rfl, fun start final' h => ?_⟩
  have hsame := hrecords h hfinal rfl
  simp at hsame

end TaskNetwork
