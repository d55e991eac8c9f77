import TaskNetwork.Proofs.Domain.Batches
import TaskNetwork.Proofs.Search.Completeness

/-!
# Searching with more knowledge

Further declarations extend a domain: new names get a meaning, and tasks get methods behind those
that they have. What can be derived before can be derived after, with the same choices, so a plan is
not lost, though another one may then be found first.
-/

namespace TaskNetwork

variable {S A : Type}

/-! ## Extended domains -/

/-- A meaning is kept, but for methods that are added at the end; an unknown name may get any. -/
inductive Resolution.IsExtendedBy : Resolution S A → Resolution S A → Prop where
  | unknown (r : Resolution S A) : IsExtendedBy .unknown r
  | primitive (op : Operator S A) : IsExtendedBy (.primitive op) (.primitive op)
  | compound (ms more : List (Method S A)) : IsExtendedBy (.compound ms) (.compound (ms ++ more))

namespace Domain

variable {d d' d'' : Domain S A} {b : Batch S A} {ops : List (Operator S A)} {task : String}
  {ms : List (Method S A)}

/-- All meanings of a domain are kept by another one, as far as they can be added to. -/
def IsExtendedBy (d d' : Domain S A) : Prop :=
  ∀ name, (d.resolve name).IsExtendedBy (d'.resolve name)

theorem IsExtendedBy.refl (d : Domain S A) : d.IsExtendedBy d := by
  intro name
  cases d.resolve name with
  | primitive op => exact .primitive op
  | compound ms => simpa using Resolution.IsExtendedBy.compound ms []
  | unknown => exact .unknown _

theorem IsExtendedBy.declareOperators (h : d.IsExtendedBy d')
    (hnew : ∀ op ∈ ops, d.resolve op.name = .unknown)
    (hd : d'.declareOperators ops = (.ok (), d'')) : d.IsExtendedBy d'' := by
  intro name
  rw [resolve_declareOperators hd]
  cases hop : ops.findRev? fun op => op.name == name with
  | none => exact h name
  | some op =>
      rw [List.findRev?_eq_find?_reverse] at hop
      have hname : op.name = name := by simpa using List.find?_some hop
      have hunknown := hnew op (List.mem_reverse.mp (List.mem_of_find?_eq_some hop))
      rw [← hname, hunknown]
      exact .unknown _

theorem IsExtendedBy.declareMethods (h : d.IsExtendedBy d')
    (hd : d'.declareMethods task ms = (.ok (), d'')) : d.IsExtendedBy d'' := by
  obtain ⟨hfree, -⟩ := declareMethods_eq_ok.mp hd
  intro name
  rw [resolve_declareMethods hd]
  split
  · rename_i hname
    obtain ⟨rfl, -⟩ := hname
    have hkept := h name
    generalize hr : d.resolve name = r at hkept
    generalize hr' : d'.resolve name = r' at hkept
    cases hkept with
    | unknown => exact .unknown _
    | primitive op =>
        have hprimitive : (d'.resolve name).kind? = some .primitive := by rw [hr']; rfl
        exact absurd (kind?_eq_primitive.mp hprimitive) (Bool.eq_false_iff.mp hfree)
    | compound ms' more =>
        rw [Resolution.methods, List.append_assoc]
        exact .compound ms' (more ++ ms)
  · exact h name

theorem IsExtendedBy.declare (h : d.IsExtendedBy d')
    (hnew : ∀ op ∈ b.declaredOperators, d.resolve op.name = .unknown)
    (hd : d'.declare b = (.ok (), d'')) : d.IsExtendedBy d'' := by
  cases b with
  | operators ops => exact h.declareOperators hnew hd
  | methods task ms => exact h.declareMethods hd

/-- Batches extend a domain if the operators in them that are accepted have new names. -/
theorem IsExtendedBy.afterBatches {bs : List (Batch S A)} (h : d.IsExtendedBy d')
    (hnew : ∀ b ∈ d'.accepted bs, ∀ op ∈ b.declaredOperators, d.resolve op.name = .unknown) :
    d.IsExtendedBy (d'.afterBatches bs) := by
  induction bs generalizing d' with
  | nil => exact h
  | cons b bs ih =>
      rw [Domain.afterBatches, List.foldl_cons, ← Domain.afterBatches]
      rw [accepted] at hnew
      rcases hd : d'.declare b with ⟨⟨e⟩ | ⟨⟨⟩⟩, d''⟩
      · rw [hd] at hnew
        exact ih (eq_of_declare_error hd ▸ h) hnew
      · rw [hd] at hnew
        obtain ⟨hfirst, hrest⟩ := List.forall_mem_cons.mp hnew
        exact ih (h.declare hfirst hd) hrest

theorem IsExtendedBy.resolve_eq_primitive {op : Operator S A} (h : d.IsExtendedBy d')
    (hr : d.resolve task = .primitive op) : d'.resolve task = .primitive op := by
  have hkept := h task
  rw [hr] at hkept
  generalize d'.resolve task = r at hkept ⊢
  cases hkept
  rfl

theorem IsExtendedBy.exists_resolve_eq_compound (h : d.IsExtendedBy d')
    (hr : d.resolve task = .compound ms) : ∃ more, d'.resolve task = .compound (ms ++ more) := by
  have hkept := h task
  rw [hr] at hkept
  generalize d'.resolve task = r at hkept ⊢
  cases hkept with
  | compound _ more => exact ⟨more, rfl⟩

end Domain

/-! ## Derivations -/

section

variable {d d' : Domain S A} {c c' : Configuration S A}

/-- A step is a step by the same choice in an extended domain, where methods keep their
positions. -/
theorem Step.of_isExtendedBy {choice : Choice} {done : Option (Task A)} (h : d.IsExtendedBy d')
    (hs : Step d c choice done c') : Step d' c choice done c' := by
  cases hs with
  | operator hr ha => exact .operator (h.resolve_eq_primitive hr) ha
  | method hr hm hd =>
      obtain ⟨more, hr'⟩ := h.exists_resolve_eq_compound hr
      have hlt := (List.getElem?_eq_some_iff.mp hm).1
      exact .method hr' (by rwa [List.getElem?_append_left hlt]) hd

theorem Derivation.of_isExtendedBy {choices : List Choice} {dones : List (Task A)}
    (h : d.IsExtendedBy d') (hd : Derivation d c choices dones c') :
    Derivation d' c choices dones c' := by
  induction hd with
  | refl c => exact .refl c
  | head hs _ ih => exact .head (hs.of_isExtendedBy h) ih

end

/-! ## Runs -/

namespace Planner

variable [PlanningState S] [Argument A] {d d' : Domain S A} {p : Policy} {planner : Planner S A}
  {batches : List (Batch S A)}

/-- A plan is not lost when methods are added and when operators are declared under names that were
unknown before. -/
theorem run_afterBatches (h : create d p = .ok planner) (hd : d.afterBatches batches = d')
    (hnew : ∀ b ∈ d.accepted batches, ∀ op ∈ b.declaredOperators, d.resolve op.name = .unknown)
    (start : S) (tasks : List (Task A)) :
    ∃ planner', create d' p = .ok planner' ∧
      ((∃ plan, planner.run start tasks = .ok plan) →
        ∃ plan, planner'.run start tasks = .ok plan) := by
  obtain rfl := eq_of_create h
  refine ⟨⟨d', p⟩, create_of_validate (validate_of_create h), ?_⟩
  rintro ⟨plan, hrun⟩
  obtain ⟨choices, final, hs, hl⟩ := exists_succeeds_of_run hrun
  have hextended : d.IsExtendedBy d' := hd ▸ (Domain.IsExtendedBy.refl d).afterBatches hnew
  exact exists_run_of_succeeds (hs.of_isExtendedBy hextended) hl

/-- Who cannot fly walks. When flying becomes known, and so do more ways to travel, another plan is
found first; that walking is to be decomposed is refused. -/
theorem run_afterBatches_flight :
    ∃ (d : Domain Travel.State String) (batches : List (Batch Travel.State String))
      (planner planner' : Planner Travel.State String),
      d = (Domain.empty Travel.worldId).afterBatches
        [.operators Travel.operators,
          .methods Travel.travelTask [⟨"travel_by_air", fun _ args => .ok [⟨"fly", args⟩]⟩],
          .methods Travel.travelTask Travel.methods] ∧
      batches =
        [.operators [⟨"fly", Travel.walk⟩], .methods Travel.travelTask Travel.methods,
          .methods "walk" Travel.methods] ∧
      create d {} = .ok planner ∧ create (d.afterBatches batches) {} = .ok planner' ∧
      planner.run (Travel.startState 0) [⟨Travel.travelTask, ["home", "shop"]⟩] =
        .ok ⟨[⟨"walk", ["home", "shop"]⟩]⟩ ∧
      planner'.run (Travel.startState 0) [⟨Travel.travelTask, ["home", "shop"]⟩] =
        .ok ⟨[⟨"fly", ["home", "shop"]⟩]⟩ ∧
      (∀ b ∈ d.accepted batches, ∀ op ∈ b.declaredOperators, d.resolve op.name = .unknown) ∧
      ∃ plan, planner'.run (Travel.startState 0) [⟨Travel.travelTask, ["home", "shop"]⟩] =
        .ok plan := by
  refine ⟨_, _, _, _, rfl, rfl, rfl, rfl, rfl, rfl, (and_iff_left_of_imp fun hnew => ?_).mpr ?_⟩
  · obtain ⟨planner', hcreate, hkept⟩ := run_afterBatches (p := {}) rfl rfl hnew
      (Travel.startState 0) [⟨Travel.travelTask, ["home", "shop"]⟩]
    cases hcreate
    exact hkept ⟨⟨[⟨"walk", ["home", "shop"]⟩]⟩, rfl⟩
  · refine List.forall_mem_cons.mpr ⟨List.forall_mem_singleton.mpr rfl, ?_⟩
    exact List.forall_mem_singleton.mpr nofun

end Planner

end TaskNetwork
