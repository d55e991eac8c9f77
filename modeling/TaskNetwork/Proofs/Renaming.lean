import TaskNetwork.Proofs.Baxter.Matching
import TaskNetwork.Proofs.Blocks.Matching
import TaskNetwork.Proofs.Runner

/-!
# Renaming blocks

The names of blocks matter only through their order. A problem file whose blocks are renamed in
order is accepted exactly if the file itself is. Its runs go the same way, and find the same plans
under the new names.
-/

namespace TaskNetwork

/-! ## New names -/

/-- The map with its keys renamed and its values changed. -/
def OrderedMap.rename {α β : Type} (f : String → String) (g : α → β) (m : OrderedMap String α) :
    OrderedMap String β :=
  .ofList (m.toList.map (Prod.map f g))

/-- The argument with its block renamed. -/
def Baxter.Arg.rename (f : String → String) : Arg → Arg
  | .block b => .block (f b)
  | .goal wanted => .goal (wanted.rename f id)
  | arg => arg

/-- The place with the block below renamed. -/
def Blocks.Place.rename (f : String → String) : Place → Place
  | .on below => .on (f below)
  | place => place

/-- The argument with its block renamed. -/
def Blocks.Arg.rename (f : String → String) : Arg → Arg
  | .block b => .block (f b)
  | .table => .table
  | .goal wanted => .goal (wanted.rename f (Place.rename f))

/-- The names of the blocks in a fact. -/
def Blocks.Fact.names (fact : Fact) : List String :=
  if fact.on = tableName then [fact.block] else [fact.block, fact.on]

/-- The fact with its blocks renamed; the table keeps its name. -/
def Blocks.Fact.rename (f : String → String) (fact : Fact) : Fact :=
  ⟨f fact.block, if fact.on = tableName then tableName else f fact.on⟩

namespace ProblemFile

/-- The names of the blocks in a problem file. -/
def names : ProblemFile → List String
  | .baxterSwap start goal => start.keys ++ goal.keys
  | .blocksWorld start goal => (start ++ goal).flatMap Blocks.Fact.names

/-- The problem file with its blocks renamed. -/
def rename (f : String → String) : ProblemFile → ProblemFile
  | .baxterSwap start goal => .baxterSwap (start.rename f id) (goal.rename f id)
  | .blocksWorld start goal =>
    .blocksWorld (start.map (Blocks.Fact.rename f)) (goal.map (Blocks.Fact.rename f))

/-- New names for the blocks of a problem file: they are in the order of the old ones, and none of
either is the name of the table. -/
structure IsRenaming (file : ProblemFile) (f : String → String) : Prop where
  lt {a b : String} : a ∈ file.names → b ∈ file.names → a < b → f a < f b
  ne_table {a : String} : a ∈ file.names → a ≠ Blocks.tableName ∧ f a ≠ Blocks.tableName

end ProblemFile

/-! ## Old and new names match -/

/-- A name matches its new name. -/
def Renamed (f : String → String) (names : List String) (a a' : String) : Prop :=
  a ∈ names ∧ a' = f a

section

variable {f : String → String} {names : List String} {α β : Type}

theorem keepsOrder_renamed (hlt : ∀ a ∈ names, ∀ b ∈ names, a < b → f a < f b) :
    KeepsOrder (Renamed f names) := by
  have hcompare {a b : String} (ha : a ∈ names) (hb : b ∈ names) (h : compare a b = .lt) :
      compare (f a) (f b) = .lt :=
    compareOfLessAndEq_eq_lt.mpr (hlt a ha b hb (compareOfLessAndEq_eq_lt.mp h))
  rintro a _ b _ ⟨ha, rfl⟩ ⟨hb, rfl⟩
  -- Only `<` is kept by assumption, and `>` is `<` the other way round.
  cases h : compare a b with
  | lt => exact (hcompare ha hb h).symm
  | eq =>
      obtain rfl := Std.LawfulEqOrd.eq_of_compare h
      exact Std.ReflCmp.compare_self.symm
  | gt =>
      have hgt := hcompare hb ha (Std.OrientedCmp.lt_of_gt h)
      exact (Std.OrientedCmp.gt_of_lt hgt).symm

theorem OrderedMap.matches_rename (hR : KeepsOrder (Renamed f names)) {m : OrderedMap String α}
    (hkeys : ∀ k ∈ m.keys, k ∈ names) : m.Matches (Renamed f names) Eq (m.rename f id) := by
  have hmatch (e : String × α) (he : e ∈ m.entries) : Renamed f names e.1 (f e.1) :=
    ⟨hkeys e.1 (List.mem_map_of_mem he), rfl⟩
  have hascending : Ascending (m.entries.map (Prod.map f id)) := by
    refine List.pairwise_map.mpr (m.ascending.imp_of_mem fun he he' h => ?_)
    exact (hR (hmatch _ he) (hmatch _ he')).symm.trans h
  have hentries : m.rename f id = ⟨_, hascending⟩ := ofList_toList ⟨_, hascending⟩
  rw [hentries]
  exact List.forall₂_map_right_iff.mpr (List.forall₂_same.mpr fun e he => ⟨hmatch e he, rfl⟩)

theorem eq_map_of_forall₂ {V : α → β → Prop} {g : α → β} {as : List α} {bs : List β}
    (h : List.Forall₂ V as bs) (hV : ∀ a b, V a b → b = g a) : bs = as.map g := by
  have heq : List.Forall₂ Eq (as.map g) bs :=
    List.forall₂_map_left_iff.mpr (h.imp fun a b hab => (hV a b hab).symm)
  rw [List.forall₂_eq_eq_eq] at heq
  exact heq.symm

theorem OrderedMap.Matches.eq_rename {V : α → β → Prop} {g : α → β} {m : OrderedMap String α}
    {m' : OrderedMap String β} (h : m.Matches (Renamed f names) V m')
    (hV : ∀ v v', V v v' → v' = g v) : m' = m.rename f g := by
  have hentries : m'.toList = m.toList.map (Prod.map f g) :=
    eq_map_of_forall₂ h fun e e' he => Prod.ext he.1.2 (hV _ _ he.2)
  rw [rename, ← hentries, ofList_toList]

theorem Baxter.Arg.eq_rename {arg arg' : Arg} (h : Arg.Matches (Renamed f names) arg arg') :
    arg' = arg.rename f := by
  cases h with
  | block hb => rw [Arg.rename, hb.2]
  | location _ => rfl
  | hand _ => rfl
  | goal hgoal => exact congrArg Arg.goal (hgoal.eq_rename fun _ _ hloc => hloc.symm)

theorem Blocks.Arg.eq_rename {arg arg' : Arg} (h : Arg.Matches (Renamed f names) arg arg') :
    arg' = arg.rename f := by
  cases h with
  | block hb => rw [Arg.rename, hb.2]
  | table => rfl
  | goal hgoal =>
      refine congrArg Arg.goal (OrderedMap.Matches.eq_rename hgoal fun place place' hplace => ?_)
      cases hplace with
      | table => rfl
      | hand => rfl
      | on hbelow => rw [Place.rename, hbelow.2]

theorem Blocks.matches_rename {facts : List Fact}
    (h : ∀ fact ∈ facts, ∀ a ∈ fact.names, a ∈ names) :
    List.Forall₂ (Fact.Matches (Renamed f names)) facts (facts.map (Fact.rename f)) := by
  refine List.forall₂_map_right_iff.mpr (List.forall₂_same.mpr fun fact hfact => ?_)
  have hnames := h fact hfact
  by_cases hon : fact.on = tableName
  · rw [Fact.names, if_pos hon] at hnames
    exact ⟨⟨hnames _ List.mem_cons_self, rfl⟩, .inl ⟨hon, if_pos hon⟩⟩
  · rw [Fact.names, if_neg hon] at hnames
    refine ⟨⟨hnames _ List.mem_cons_self, rfl⟩, .inr ⟨hnames _ (by simp), if_neg hon⟩⟩

end

/-! ## Runs -/

/-- The task with its arguments changed. -/
def Task.mapArgs {A : Type} (change : A → A) (t : Task A) : Task A := ⟨t.name, t.args.map change⟩

theorem Task.Matches.eq_mapArgs {A : Type} {R : A → A → Prop} {change : A → A} {t t' : Task A}
    (h : t.Matches R t') (hR : ∀ arg arg', R arg arg' → arg' = change arg) :
    t' = t.mapArgs change := by
  have hargs : t'.args = t.args.map change := eq_map_of_forall₂ h.args hR
  rw [mapArgs, h.name_eq, ← hargs]

/-- The plan with the arguments of its steps changed. -/
def Plan.mapArgs {A : Type} (change : A → A) (plan : Plan A) : Plan A :=
  ⟨plan.steps.map (Task.mapArgs change)⟩

namespace World

variable {S A : Type} [PlanningState S] [Argument A] {w w' : World S A} {d : Domain S A}
  {policy : Policy} {change : A → A}

/-- Both runs go through with the same metadata. Both find a plan, the same but for a change of the
arguments, or both fail in the same way. -/
def RunsAlike (change : A → A) (policy : Policy) (w w' : World S A) : Prop :=
  ∃ run run', w.run policy = .ok run ∧ w'.run policy = .ok run' ∧
    run'.result = run.result.map (Plan.mapArgs change) ∧
    run'.trace.metadata = run.trace.metadata

theorem RunsSoundly.exists_run (h : w.RunsSoundly policy) (hd : w.domain = .ok d)
    (hpolicy : policy.validate = .ok ()) :
    ∃ run, w.run policy = .ok run ∧
      run.result = (Planner.runTraced ⟨d, policy⟩ w.start w.initialTasks).result ∧
      run.trace = (Planner.runTraced ⟨d, policy⟩ w.start w.initialTasks).trace := by
  obtain ⟨d', planner, run, hd', hcreate, -, hresult, hsound⟩ := h
  cases hd.symm.trans hd'
  cases (Planner.create_of_validate hpolicy).symm.trans hcreate
  obtain ⟨report, hrun⟩ := run_of_checkPlan hd hpolicy rfl fun plan hplan =>
    have ⟨final, hreplay, hgoal⟩ := hsound plan (hresult.trans hplan)
    checkPlan_of_replay hreplay hgoal
  exact ⟨_, hrun, rfl, rfl⟩

theorem runsAlike_of_matches {V : S → S → Prop} {R : A → A → Prop} (hd : w.domain = .ok d)
    (hd' : w'.domain = .ok d) (hrespects : d.Respects V R) (hstart : V w.start w'.start)
    (hname : PlanningState.name w.start = PlanningState.name w'.start)
    (htasks : List.Forall₂ (Task.Matches R) w.initialTasks w'.initialTasks)
    (hchange : ∀ arg arg', R arg arg' → arg' = change arg) (hpolicy : policy.validate = .ok ())
    (hsound : w.RunsSoundly policy) (hsound' : w'.RunsSoundly policy) :
    w.RunsAlike change policy w' := by
  obtain ⟨run, hrun, hresult, htrace⟩ := hsound.exists_run hd hpolicy
  obtain ⟨run', hrun', hresult', htrace'⟩ := hsound'.exists_run hd' hpolicy
  obtain ⟨hmeta, hfound⟩ := Planner.runTraced_matches (p := policy) hrespects hstart htasks hname
  refine ⟨run, run', hrun, hrun', ?_, by rw [htrace, htrace', hmeta]⟩
  rw [hresult, hresult']
  rcases hfound with ⟨plan, plan', hplan, hplan', hsteps⟩ | ⟨failure, hfail, hfail'⟩
  · have hmap : plan'.steps = plan.steps.map (Task.mapArgs change) :=
      eq_map_of_forall₂ hsteps fun t t' ht => ht.eq_mapArgs hchange
    rw [hplan, hplan']
    exact congrArg (fun steps => Except.ok (Plan.mk steps)) hmap
  · rw [hfail, hfail']
    rfl

end World

/-! ## Problem files -/

/-- The worlds of two problems run alike, but for new names of the blocks. -/
def Problem.RunsAlike (f : String → String) (policy : Policy) : Problem → Problem → Prop
  | .baxter p, .baxter p' => p.world.RunsAlike (Baxter.Arg.rename f) policy p'.world
  | .blocks p, .blocks p' => p.world.RunsAlike (Blocks.Arg.rename f) policy p'.world
  | _, _ => False

/-- Problems match if they are of one world and match there. -/
inductive Problem.Matches (R : String → String → Prop) : Problem → Problem → Prop where
  | baxter {p p' : Baxter.Problem} : p.Matches R p' → Matches R (.baxter p) (.baxter p')
  | blocks {p p' : Blocks.Problem} : p.Matches R p' → Matches R (.blocks p) (.blocks p')

namespace ProblemFile

variable {file : ProblemFile} {f : String → String}

theorem IsRenaming.keepsOrder (h : file.IsRenaming f) : KeepsOrder (Renamed f file.names) :=
  keepsOrder_renamed fun _ ha _ hb => h.lt ha hb

theorem IsRenaming.problem_matches (h : file.IsRenaming f) :
    ExceptRel (Problem.Matches (Renamed f file.names)) file.problem (file.rename f).problem := by
  have hR := h.keepsOrder
  cases file with
  | baxterSwap start goal =>
      have hstart := OrderedMap.matches_rename hR fun _ hk => List.mem_append_left goal.keys hk
      have hgoal := OrderedMap.matches_rename hR fun _ hk => List.mem_append_right start.keys hk
      exact (Baxter.Problem.create_matches hR hstart hgoal).map fun _ _ => .baxter
  | blocksWorld start goal =>
      have htable : Blocks.AvoidsTable (Renamed f (blocksWorld start goal).names) :=
        fun _ _ hb => hb.2 ▸ h.ne_table hb.1
      have hnames (fact : Blocks.Fact) (hfact : fact ∈ start ++ goal) (a : String)
          (ha : a ∈ fact.names) : a ∈ (blocksWorld start goal).names :=
        List.mem_flatMap.mpr ⟨fact, hfact, ha⟩
      have hstart := Blocks.matches_rename (f := f)
        fun fact hfact => hnames fact (List.mem_append_left goal hfact)
      have hgoal := Blocks.matches_rename (f := f)
        fun fact hfact => hnames fact (List.mem_append_right start hfact)
      exact (Blocks.Problem.ofFacts_matches hR htable hstart hgoal).map fun _ _ => .blocks

theorem IsRenaming.runsAlike (h : file.IsRenaming f) {problem problem' : Problem}
    {policy : Policy} (hp : file.problem = .ok problem)
    (hp' : (file.rename f).problem = .ok problem') (hpolicy : policy.validate = .ok ()) :
    problem.RunsAlike f policy problem' := by
  have hR := h.keepsOrder
  -- A run checks its own plan. That never fails, on either side.
  have hsound := runsSoundly_of_problem hp hpolicy
  have hsound' := runsSoundly_of_problem hp' hpolicy
  cases h.problem_matches.rel_of_eq_ok hp hp' with
  | baxter hmatch =>
      obtain ⟨d, hd⟩ : ∃ d, Baxter.domain = .ok d := ⟨_, rfl⟩
      exact World.runsAlike_of_matches hd hd (Baxter.respects_of_domain hd hR) hmatch.startState rfl
        (.cons ⟨rfl, .cons (.goal hmatch.goal) .nil⟩ .nil) (fun _ _ => Baxter.Arg.eq_rename)
        hpolicy hsound hsound'
  | blocks hmatch =>
      obtain ⟨d, hd⟩ : ∃ d, Blocks.domain = .ok d := ⟨_, rfl⟩
      exact World.runsAlike_of_matches hd hd (Blocks.respects_of_domain hd hR)
        (hmatch.startState hR) rfl (.cons ⟨rfl, .cons (.goal hmatch.goal) .nil⟩ .nil)
        (fun _ _ => Blocks.Arg.eq_rename) hpolicy hsound hsound'

/-- The names of blocks matter only through their order. If the blocks of a problem file are renamed
in order, then the file is accepted exactly if it was, and under every valid policy its world runs
alike: with the same counts, and with the same plan but for the new names or with none as before. -/
theorem rename_runsAlike (h : file.IsRenaming f) :
    ((∃ problem, file.problem = .ok problem) ↔
        ∃ problem, (file.rename f).problem = .ok problem) ∧
      ∀ problem problem', file.problem = .ok problem → (file.rename f).problem = .ok problem' →
        ∀ policy, policy.validate = .ok () → problem.RunsAlike f policy problem' :=
  ⟨h.problem_matches.exists_ok_iff, fun _ _ hp hp' _ hpolicy => h.runsAlike hp hp' hpolicy⟩

/-- The name of the table comes after all old names, and between the second and third new ones. -/
theorem rename_runsAlike_around_table :
    ∃ problem problem',
      (blocksWorld [⟨"a", "b"⟩, ⟨"b", "table"⟩, ⟨"c", "table"⟩] [⟨"b", "c"⟩]).IsRenaming
        ("ta" ++ ·) ∧
      (blocksWorld [⟨"a", "b"⟩, ⟨"b", "table"⟩, ⟨"c", "table"⟩] [⟨"b", "c"⟩]).problem =
        .ok problem ∧
      (blocksWorld [⟨"taa", "tab"⟩, ⟨"tab", "table"⟩, ⟨"tac", "table"⟩] [⟨"tab", "tac"⟩]).problem =
        .ok problem' ∧
      Policy.validate {} = .ok () ∧ problem.RunsAlike ("ta" ++ ·) {} problem' := by
  have hnames : (blocksWorld [⟨"a", "b"⟩, ⟨"b", "table"⟩, ⟨"c", "table"⟩] [⟨"b", "c"⟩]).IsRenaming
      ("ta" ++ ·) := by
    have hlt : ∀ a ∈ ["a", "b", "b", "c", "b", "c"], ∀ b ∈ ["a", "b", "b", "c", "b", "c"],
        a < b → "ta" ++ a < "ta" ++ b := by decide
    have htable : ∀ a ∈ ["a", "b", "b", "c", "b", "c"],
        a ≠ Blocks.tableName ∧ "ta" ++ a ≠ Blocks.tableName := by decide
    exact ⟨fun ha hb => hlt _ ha _ hb, fun ha => htable _ ha⟩
  obtain ⟨problem, hp⟩ : ∃ problem, (blocksWorld [⟨"a", "b"⟩, ⟨"b", "table"⟩, ⟨"c", "table"⟩]
      [⟨"b", "c"⟩]).problem = .ok problem := ⟨_, rfl⟩
  obtain ⟨hiff, hruns⟩ := rename_runsAlike hnames
  obtain ⟨problem', hp'⟩ := hiff.mp ⟨problem, hp⟩
  exact ⟨problem, problem', hnames, hp, hp', rfl, hruns _ _ hp hp' {} rfl⟩

end ProblemFile

end TaskNetwork
