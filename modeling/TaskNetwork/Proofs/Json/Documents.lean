import TaskNetwork.Proofs.Json.Reading
import TaskNetwork.Report.Verification
import TaskNetwork.Trace.Document

/-!
# Documents of runs

Traces, plans, verdicts and manifests are read back from their documents.
-/

namespace TaskNetwork

namespace Json

variable {α : Type}

/-! ## Parts of canonical values -/

namespace Schema.Holds

attribute [simp] Holds.text Holds.bool

@[simp] theorem uint32 (n : UInt32) : Holds (.word 32) (.ofNat n.toNat) :=
  .word n.toNat_lt (by decide)

@[simp] theorem uint64 (n : UInt64) : Holds (.word 64) (.ofNat n.toNat) :=
  .word n.toNat_lt (by decide)

@[simp] theorem document [Document α] [LawfulDocument α] (a : α) :
    (Document.schema α).Holds (toJson a) := LawfulDocument.holds a

theorem listOf {s : Schema} {write : α → Json} (h : ∀ a, Holds s (write a)) (xs : List α) :
    Holds (.list s) (.list (xs.map write)) := by
  refine .list fun item hi => ?_
  obtain ⟨a, -, rfl⟩ := List.mem_map.mp hi
  exact h a

@[simp] theorem texts (ts : List String) : Holds (.list .text) (.ofTexts ts) := listOf .text ts

theorem ofOption {s : Schema} {write : α → Json} (h : ∀ a, Holds s (write a))
    (hne : ∀ a, write a ≠ .null) (o : Option α) : Holds (.option s) (.ofOption write o) := by
  cases o with
  | none => exact .null s
  | some a => exact .some (h a) (hne a)

end Schema.Holds

@[simp] theorem text?_text (s : String) : (Json.text s).text? = some s := rfl

@[simp] theorem bool?_bool (b : Bool) : (Json.bool b).bool? = some b := rfl

@[simp] theorem uint32?_ofNat (n : UInt32) : (Json.ofNat n.toNat).uint32? = some n := by
  simp [uint32?, ofNat]

@[simp] theorem uint64?_ofNat (n : UInt64) : (Json.ofNat n.toNat).uint64? = some n := by
  simp [uint64?, ofNat]

theorem listOf?_map {write : α → Json} {item? : Json → Option α}
    (h : ∀ a, item? (write a) = some a) (xs : List α) :
    (Json.list (xs.map write)).listOf? item? = some xs := by
  rw [listOf?, List.mapM_map]
  exact mapM_eq_pure_self fun a _ => h a

@[simp] theorem ofJson?_toJson [Document α] [LawfulDocument α] (a : α) :
    ofJson? (toJson a) = some a := LawfulDocument.ofJson?_toJson a

@[simp] theorem texts?_ofTexts (ts : List String) : (Json.ofTexts ts).texts? = some ts :=
  listOf?_map text?_text ts

theorem optionOf?_ofOption {write : α → Json} {value? : Json → Option α}
    (h : ∀ a, value? (write a) = some a) (hne : ∀ a, write a ≠ .null) (o : Option α) :
    (Json.ofOption write o).optionOf? value? = some o := by
  cases o with
  | none => rfl
  | some a =>
      rw [ofOption, optionOf?, h]
      · rfl
      · exact hne a

end Json

open Json (Document LawfulDocument toJson ofJson? Schema)

/-! ## Traces -/

instance : LawfulDocument TaskRecord where
  holds t := .record (by decide) rfl (by simp)
  nesting_le := by decide
  ofJson?_toJson t := by simp [toJson, ofJson?]

instance : LawfulDocument Decision where
  holds d := by
    cases d <;> exact .tagged rfl (by simp) (.record (by decide) rfl (by simp))
  nesting_le := by decide
  ofJson?_toJson d := by cases d <;> simp [toJson, ofJson?]

theorem toJson_taskRecord_ne_null (t : TaskRecord) : toJson t ≠ .null := nofun

instance : LawfulDocument Event where
  holds e := by
    have htask := Schema.Holds.ofOption Schema.Holds.document toJson_taskRecord_ne_null e.task
    exact .record (by decide) rfl (by simp [htask])
  nesting_le := by decide
  ofJson?_toJson e := by
    have htask := Json.optionOf?_ofOption Json.ofJson?_toJson toJson_taskRecord_ne_null e.task
    delta instDocumentEvent
    simp [htask]

instance : LawfulDocument Termination where
  holds t := by
    cases t <;> exact .tagged rfl (by simp) (.record (by decide) rfl (by simp))
  nesting_le := by decide
  ofJson?_toJson t := by cases t <;> simp [toJson, ofJson?]

instance : LawfulDocument TraceMetadata where
  holds m := .record (by decide) rfl (by simp)
  nesting_le := by decide
  ofJson?_toJson m := by
    delta instDocumentTraceMetadata
    simp

instance : LawfulDocument Trace where
  holds t := by
    have hevents := Schema.Holds.listOf Schema.Holds.document t.events
    exact .record (by decide) rfl (by simp [hevents])
  nesting_le := by decide
  ofJson?_toJson t := by
    have hevents := Json.listOf?_map Json.ofJson?_toJson t.events
    delta instDocumentTrace
    simp [hevents]

instance : LawfulDocument PlanRecord where
  holds p := by
    have hsteps := Schema.Holds.listOf Schema.Holds.document p.steps
    exact .record (by decide) rfl (by simp [hsteps])
  nesting_le := by decide
  ofJson?_toJson p := by
    have hsteps := Json.listOf?_map Json.ofJson?_toJson p.steps
    delta instDocumentPlanRecord
    simp [hsteps]

/-! ## Reports -/

instance : LawfulDocument ManifestEntry where
  holds e := .record (by decide) rfl (by simp)
  nesting_le := by decide
  ofJson?_toJson e := by
    delta instDocumentManifestEntry
    simp

instance : LawfulDocument Manifest where
  holds m := by
    have hartifacts := Schema.Holds.listOf Schema.Holds.document m.artifacts
    exact .record (by decide) rfl (by simp [hartifacts])
  nesting_le := by decide
  ofJson?_toJson m := by
    have hartifacts := Json.listOf?_map Json.ofJson?_toJson m.artifacts
    delta instDocumentManifest
    simp [hartifacts]

instance : LawfulDocument RunOutcome where
  holds o := by
    cases o <;> exact .tagged rfl (by simp) (.record (by decide) rfl (by simp))
  nesting_le := by decide
  ofJson?_toJson o := by cases o <;> simp [toJson, ofJson?]

instance : LawfulDocument Verification where
  holds v := by
    have hplan := Schema.Holds.ofOption Schema.Holds.text nofun v.planDigest
    exact .record (by decide) rfl (by simp [hplan])
  nesting_le := by decide
  ofJson?_toJson v := by
    have hplan := Json.optionOf?_ofOption Json.text?_text nofun v.planDigest
    delta instDocumentVerification
    simp [hplan]

end TaskNetwork
