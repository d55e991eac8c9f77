import TaskNetwork.Report.Directory

/-!
# Interrupted writes

A write may break off after any of its steps, by a fault or with the whole program. A rename puts
the new file in place at once, but what is written of a file by then may be anything.
-/

namespace TaskNetwork.ReportDirectory

/-- Steps that break off, or come to their end, may leave this tree. -/
inductive Leaves (cwd : FileTree.Place) : FileTree → List Step → FileTree → Prop where
  | stop {t : FileTree} {steps : List Step} : Leaves cwd t steps t
  | torn {t t' : FileTree} {p : Path} {content written : ByteArray} {steps : List Step} :
      t.write? cwd p written = some t' → Leaves cwd t (.ok (.write p content) :: steps) t'
  | next {t t₁ t' : FileTree} {change : Change} {steps : List Step} :
      change.apply t cwd = .ok t₁ → Leaves cwd t₁ steps t' →
        Leaves cwd t (.ok change :: steps) t'

/-- The writing of a report, broken off or not, may leave this tree. -/
inductive WriteLeaves (cwd : FileTree.Place) (directory : Path) (r : Report) (t : FileTree) :
    FileTree → Prop where
  | start : WriteLeaves cwd directory r t t
  | made {t' : FileTree} {ok : Bool} :
      t.makeDirectory cwd directory = (t', ok) → WriteLeaves cwd directory r t t'
  | steps {t₁ t' : FileTree} {present : List String} :
      t.makeDirectory cwd directory = (t₁, true) → files? t₁ cwd directory = some present →
        Leaves cwd t₁ (writeSteps r directory present) t' → WriteLeaves cwd directory r t t'

theorem leaves_perform (cwd : FileTree.Place) (t : FileTree) (steps : List Step) :
    Leaves cwd t steps (perform cwd t steps).2 := by
  induction steps generalizing t with
  | nil => exact .stop
  | cons step steps ih =>
      cases step with
      | error e => exact .stop
      | ok change =>
          rw [perform]
          cases happly : change.apply t cwd with
          | error e => exact .stop
          | ok t₁ => exact .next happly (ih t₁)

/-- What a write leaves is among what it may leave. -/
theorem writeLeaves_write (t : FileTree) (cwd : FileTree.Place) (directory : Path) (r : Report) :
    WriteLeaves cwd directory r t (write t cwd directory r).2 := by
  rw [write]
  split
  · exact .made ‹_›
  · rename_i t₁ hmade
    split
    · exact .made hmade
    · rename_i present hpresent
      exact .steps hmade hpresent (leaves_perform cwd t₁ _)

/-- Steps are broken off in their first part or behind it. -/
theorem Leaves.exists_of_append {cwd : FileTree.Place} {t t' : FileTree} {xs ys : List Step}
    (h : Leaves cwd t (xs ++ ys) t') : ∃ t₁, Leaves cwd t xs t₁ ∧ Leaves cwd t₁ ys t' := by
  induction xs generalizing t with
  | nil => exact ⟨t, .stop, h⟩
  | cons x xs ih =>
      cases h with
      | stop => exact ⟨_, .stop, .stop⟩
      | torn hwrite => exact ⟨_, .torn hwrite, .stop⟩
      | next happly hrest =>
          obtain ⟨t₁, hfirst, hsecond⟩ := ih hrest
          exact ⟨t₁, .next happly hfirst, hsecond⟩

/-! ## Properties that are kept -/

/-- Whatever the steps leave, a property is kept. -/
def Keep (cwd : FileTree.Place) (P : FileTree → Prop) (steps : List Step) : Prop :=
  ∀ ⦃t t' : FileTree⦄, Leaves cwd t steps t' → P t → P t'

variable {cwd : FileTree.Place} {P : FileTree → Prop}

theorem Keep.append {xs ys : List Step} (hxs : Keep cwd P xs) (hys : Keep cwd P ys) :
    Keep cwd P (xs ++ ys) := by
  intro t t' hleft ht
  obtain ⟨t₁, hfirst, hsecond⟩ := hleft.exists_of_append
  exact hys hsecond (hxs hfirst ht)

theorem Keep.flatMap {α : Type} {xs : List α} {f : α → List Step}
    (h : ∀ x ∈ xs, Keep cwd P (f x)) : Keep cwd P (xs.flatMap f) := by
  induction xs with
  | nil =>
      rintro t t' ⟨⟩ ht
      exact ht
  | cons x xs ih =>
      rw [List.flatMap_cons]
      exact (h x List.mem_cons_self).append (ih fun y hy => h y (List.mem_cons_of_mem _ hy))

end TaskNetwork.ReportDirectory
