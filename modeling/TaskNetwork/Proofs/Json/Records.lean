import TaskNetwork.Policy
import TaskNetwork.Problem
import TaskNetwork.Proofs.ContentHash
import TaskNetwork.Proofs.Json.Documents

/-!
# Records that are kept

All that is kept or handed on is read back: traces, plans, verdicts and manifests, and also
policies, messages for an executor and problem files. So the bytes of a record stand for that record
alone, and so does the message that is hashed for it. Documents that were written by another program
are read too, whatever it has added to their records.
-/

namespace TaskNetwork

open Json (Document LawfulDocument toJson ofJson? Schema)

/-! ## Policies and messages -/

instance : LawfulDocument Policy where
  holds p := .record (by decide) rfl (by simp)
  nesting_le := by decide
  ofJson?_toJson p := by
    delta Policy.instDocument
    simp

instance : LawfulDocument StepMessage where
  holds m := .record (by decide) rfl (by simp)
  nesting_le := by decide
  ofJson?_toJson m := by
    delta instDocumentStepMessage
    simp

/-! ## Problem files -/

namespace Baxter

instance : LawfulDocument Hand where
  holds h := by cases h <;> exact .plain rfl
  nesting_le := by decide
  ofJson?_toJson h := by cases h <;> rfl

instance : LawfulDocument Location where
  holds loc := by
    cases loc with
    | held hand => exact .wrapped rfl rfl (LawfulDocument.holds hand)
    | _ => exact .plain rfl
  nesting_le := by decide
  ofJson?_toJson loc := by
    cases loc with
    | held hand => cases hand <;> rfl
    | _ => rfl

theorem holds_positionsToJson (positions : OrderedMap String Location) :
    (Schema.map (Document.schema Location)).Holds (positionsToJson positions) := by
  show Schema.Holds _ (.object (positions.mapValues fun _ loc => toJson loc).toList)
  refine .map fun e he => ?_
  obtain ⟨e', -, rfl⟩ := List.mem_map.mp he
  exact LawfulDocument.holds e'.2

@[simp] theorem positionsOfJson?_positionsToJson (positions : OrderedMap String Location) :
    positionsOfJson? (positionsToJson positions) = some positions := by
  rw [positionsToJson, positionsOfJson?, List.mapM_map,
    Json.mapM_eq_pure_self fun e _ => by simp]
  exact congrArg some (OrderedMap.ofList_toList positions)

end Baxter

instance : LawfulDocument Blocks.Fact where
  holds f := .record (by decide) rfl (by simp)
  nesting_le := by decide
  ofJson?_toJson f := by
    delta instDocumentFact
    simp

instance : LawfulDocument ProblemFile where
  holds f := by
    cases f with
    | baxterSwap start goal =>
        have hstart := Baxter.holds_positionsToJson start
        have hgoal := Baxter.holds_positionsToJson goal
        exact .tagged rfl (by simp) (.record (by decide) rfl (by simp [hstart, hgoal]))
    | blocksWorld start goal =>
        have hfacts := Schema.Holds.listOf (Schema.Holds.document (α := Blocks.Fact))
        exact .tagged rfl (by simp) (.record (by decide) rfl (by simp [hfacts]))
  nesting_le := by decide
  ofJson?_toJson f := by
    have hfacts := Json.listOf?_map (Json.ofJson?_toJson (α := Blocks.Fact))
    delta instDocumentProblemFile
    cases f <;> simp [hfacts]

/-! ## Bytes that stand for a value -/

namespace Json.Document

/-- The documents of a type stand for its values: each is read back, no two are alike, and neither
are the messages that are hashed for them on any subjects. -/
structure IsFaithful (α : Type) [Document α] : Prop where
  parse_bytes (a : α) : parse α (bytes a) = .ok a
  bytes_injective : Function.Injective (bytes (α := α))
  message_inj {s t : Subject} {a b : α} : s.message (bytes a) = t.message (bytes b) → s = t ∧ a = b

theorem isFaithful (α : Type) [Document α] [LawfulDocument α] : IsFaithful α where
  parse_bytes := parse_bytes
  bytes_injective := bytes_injective
  message_inj h := by
    obtain rfl := Subject.eq_of_message_eq h
    exact ⟨rfl, bytes_injective (Subject.message_inj h)⟩

/-- Whatever the strings, numbers, lists and maps in a record are, and whichever variants it is made
of, its document stands for it. -/
theorem isFaithful_records :
    IsFaithful Trace ∧ IsFaithful PlanRecord ∧ IsFaithful StepMessage ∧ IsFaithful Policy ∧
      IsFaithful Manifest ∧ IsFaithful Verification ∧ IsFaithful ProblemFile :=
  ⟨isFaithful _, isFaithful _, isFaithful _, isFaithful _, isFaithful _, isFaithful _,
    isFaithful _⟩

/-! ## Documents with unknown members -/

/-- A document of the type is read as its value also if the members of its records have changed
places and unknown ones have been added, whatever these hold, unless it nests too deep. -/
def ReadsExtensions (α : Type) [Document α] : Prop :=
  ∀ (a : α) (j : Json), (schema α).Extends j (toJson a) → Json.Fits Schema.maxNesting j →
    parse α j.render.toUTF8 = .ok a

theorem readsExtensions (α : Type) [Document α] [LawfulDocument α] : ReadsExtensions α :=
  fun _ _ => parse_render

/-- Records stay readable when they are extended, at any depth, in records inside variants too. -/
theorem readsExtensions_records :
    ReadsExtensions Trace ∧ ReadsExtensions PlanRecord ∧ ReadsExtensions Manifest ∧
      ReadsExtensions Verification ∧ ReadsExtensions StepMessage ∧ ReadsExtensions Policy ∧
      ReadsExtensions ProblemFile :=
  ⟨readsExtensions _, readsExtensions _, readsExtensions _, readsExtensions _, readsExtensions _,
    readsExtensions _, readsExtensions _⟩

/-- A problem file with a note, in which the goal has a fact with a reason and comes first. -/
theorem readsExtensions_records_note :
    parse ProblemFile (Json.object
      [("goal", .list [.object
          [("on", .text "b"), ("block", .text "a"), ("why", .object [("on", .bool true)])]]),
        ("world", .text "blocks_world"), ("start", .list []),
        ("note", .list [.null, .number (.integer (-7))])]).render.toUTF8 =
      .ok (.blocksWorld [] [⟨"a", "b"⟩]) := by
  obtain ⟨fact, hfact, hextends⟩ : ∃ fact, fact = Json.object
      [("on", .text "b"), ("block", .text "a"), ("why", .object [("on", .bool true)])] ∧
        (schema Blocks.Fact).Extends fact (toJson (⟨"a", "b"⟩ : Blocks.Fact)) := by
    refine ⟨_, rfl, @Schema.Extends.record _ _ [("block", .text "a"), ("on", .text "b")] [_] _ rfl
      (fun name s j' j hs hj' hj => ?_) (by simp) (.swap _ _ _)⟩
    obtain rfl := Schema.eq_of_mem_of_nodup (by decide) hj' hj
    rcases List.mem_pair.mp hs with h | h
    · cases h
      exact .text j'
    · cases h
      exact .text j'
  rw [← hfact]
  refine readsExtensions_records.2.2.2.2.2.2 (.blocksWorld [] [⟨"a", "b"⟩]) _ ?_ ?_
  · refine @Schema.Extends.tagged "world" "blocks_world" _ _ [_] [_, _] _ rfl (by simp) ?_
    refine @Schema.Extends.record _ _ [("start", .list []), ("goal", .list [fact])] [_] _ rfl
      (fun name s j' j hs hj' hj => ?_) (by simp) (.swap _ _ _)
    rcases List.mem_pair.mp hs with h | h
    · cases h
      obtain rfl : j' = .list [] := by simpa using hj'
      obtain rfl : j = .list [] := by simpa using hj
      exact .list rfl nofun
    · cases h
      obtain rfl : j' = .list [fact] := by simpa using hj'
      obtain rfl : j = .list [toJson (⟨"a", "b"⟩ : Blocks.Fact)] := by simpa using hj
      exact .list rfl (List.forall_mem_singleton.mpr hextends)
  · subst hfact
    refine .object ?_
    simp only [List.forall_mem_cons]
    refine ⟨.list ?_, .text _ _, .list nofun, .list ?_, nofun⟩
    · refine List.forall_mem_singleton.mpr (.object ?_)
      simp only [List.forall_mem_cons]
      exact ⟨.text _ _, .text _ _, .object (List.forall_mem_singleton.mpr (.bool _ _)), nofun⟩
    · refine List.forall_mem_cons.mpr ⟨.null _, List.forall_mem_singleton.mpr ?_⟩
      exact .number _ (by decide) (by decide)

end Json.Document

end TaskNetwork
