import XmlWorkload.Proofs.Document.Emitting
import XmlWorkload.Proofs.Pattern.Plain
import XmlWorkload.Proofs.Random.Digits
import XmlWorkload.Run.Basic

/-!
# Cycles that can be written

A cycle can be written when it resolves and what it emits can be written, which depends on the
workload, the seed and the cycle alone.  Main statement: every operation of a workload that was
loaded has a path, and so has everything that its cycles emit (`Workload.path_ne_nil_of_resolve`).
-/

set_option autoImplicit false

namespace XmlWorkload

open XmlWorkload.Random (Draw Yields yields_pure run_bind_eq_some_iff run_pure_eq_some_iff)

/-- What a cycle emits. -/
def CycleStep.emission (step : CycleStep) : Emission := ⟨step.path, step.template⟩

namespace Operation

variable {ρ : Type} [Random.WordSource ρ]

/-- Filling in patterns keeps their number. -/
theorem yields_length_fillAll (index : Nat) (patterns : List String) :
    Yields (fillAll index patterns : Draw ρ (List String)) fun texts =>
      texts.length = patterns.length := by
  induction patterns with
  | nil => exact yields_pure rfl
  | cons pattern rest ih =>
    intro source drawn hrun
    obtain ⟨text, -, hrun⟩ := run_bind_eq_some_iff.1 hrun
    have hrest : Yields (fillAll index rest >>= fun texts => pure (text.1 :: texts) :
        Draw ρ (List String)) fun texts => texts.length = (pattern :: rest).length :=
      ih.bind fun texts htexts => yields_pure (congrArg Nat.succ htexts)
    exact hrest text.2 drawn hrun

/-- Filling in the patterns of an operation keeps the length of its path. -/
theorem yields_length_path (operation : Operation) (index : Nat) :
    Yields (operation.fill index : Draw ρ (List String × Template)) fun filled =>
      filled.1.length = operation.path.length := by
  refine (yields_length_fillAll index operation.path).bind fun path hpath source drawn hrun => ?_
  obtain ⟨template, -, hpure⟩ := run_bind_eq_some_iff.1 hrun
  rw [← run_pure_eq_some_iff.1 hpure]
  exact hpath

end Operation

namespace Workload

/-- Every operation of a workload has a path. -/
def HasPaths (workload : Workload) : Prop :=
  ∀ operation ∈ workload.operations, operation.path ≠ []

/-- A cycle can be written. -/
def IsWritable (workload : Workload) (seed cycle : Nat) : Prop :=
  ∃ step, workload.resolve seed cycle = .ok step ∧ Document.IsWritable step.emission

/-- A cycle ends the work of whoever meets it, for a text that would become too long. -/
def Overflows (workload : Workload) (seed cycle : Nat) : Prop :=
  workload.resolve seed cycle = .error .overflow

/-- What the cycles of a range do, as far as they resolve, the cycles ascending. -/
def stepsOf (workload : Workload) (range : CycleRange) : List CycleStep :=
  range.cycles.filterMap fun cycle => (workload.resolve range.seed cycle).toOption

variable {workload : Workload} {seed cycle : Nat} {step : CycleStep}

/-- The only error that ends the work of the one who meets it is that of a text that would become too
long. -/
theorem eq_overflow_of_isFatal {error : CycleError} (h : error.isFatal = true) :
    error = .overflow := by
  cases error with
  | overflow => rfl
  | fileIndex cycle value => cases h
  | document error => cases h

/-- A cycle that resolves ends nobody's work. -/
theorem not_overflows_of_resolve (h : workload.resolve seed cycle = .ok step) :
    ¬ workload.Overflows seed cycle := by
  intro hoverflows
  cases h.symm.trans hoverflows

/-- Nor does a cycle with another error. -/
theorem not_overflows_of_error {error : CycleError}
    (h : workload.resolve seed cycle = .error error) (hmild : error.isFatal = false) :
    ¬ workload.Overflows seed cycle := by
  intro hoverflows
  cases h.symm.trans hoverflows
  cases hmild

/-- A cycle that ends somebody's work cannot be written. -/
theorem Overflows.not_isWritable (h : workload.Overflows seed cycle) :
    ¬ workload.IsWritable seed cycle := by
  rintro ⟨step, hstep, -⟩
  exact not_overflows_of_resolve hstep h

/-- A cycle that resolves does what belongs to it, with a path as long as that of its operation. -/
theorem of_resolve (h : workload.resolve seed cycle = .ok step) :
    step.cycle = cycle ∧ step.path.length = (workload.operationOf cycle).path.length := by
  obtain ⟨named, file, filled, -, -, hfilled, rfl⟩ := eq_of_resolve h
  exact ⟨rfl, (workload.operationOf cycle).yields_length_path cycle _ _ hfilled⟩

/-- Where every operation has a path, so has what a cycle resolves to. -/
theorem path_ne_nil_of_resolve (hpaths : HasPaths workload)
    (h : workload.resolve seed cycle = .ok step) : step.path ≠ [] := by
  have hlength := (of_resolve h).2
  have hoperation := hpaths (workload.operationOf cycle) (List.get_mem _ _)
  have hpositive := List.length_pos_iff.2 hoperation
  rw [← hlength] at hpositive
  exact List.length_pos_iff.1 hpositive

end Workload

/-- An operation that passes its check has a path. -/
theorem OperationDeclaration.path_ne_nil_of_check {declaration : OperationDeclaration}
    {name : String} {operation : Operation} (h : declaration.check name = .ok operation) :
    operation.path ≠ [] := by
  unfold check at h
  simp only [bind, Except.bind, pure, Except.pure] at h
  split at h
  · cases h
  · next hpath =>
    repeat' split at h
    all_goals
      cases h
      try exact hpath

/-- Every operation that was accepted has passed the check of a declaration. -/
theorem WorkloadDeclaration.exists_check_of_mem {position : Nat}
    {declarations : List OperationDeclaration} {operations : List Operation}
    (h : checkOperations position declarations = .ok operations) :
    ∀ operation ∈ operations, ∃ declaration ∈ declarations, ∃ name,
      declaration.check name = .ok operation := by
  induction declarations generalizing position operations with
  | nil =>
    cases h
    simp
  | cons declaration rest ih =>
    simp only [checkOperations, bind, Except.bind, pure, Except.pure] at h
    split at h
    · cases h
    · next first hfirst =>
      split at h
      · cases h
      · next others hothers =>
        cases h
        intro operation hoperation
        rcases List.mem_cons.1 hoperation with rfl | hrest
        · refine ⟨declaration, List.mem_cons_self, declaration.name.getD ("op" ++ toString position), ?_⟩
          cases hcheck : declaration.check (declaration.name.getD ("op" ++ toString position)) with
          | error fault =>
            rw [hcheck] at hfirst
            cases hfirst
          | ok checked =>
            rw [hcheck] at hfirst
            cases hfirst
            rfl
        · obtain ⟨other, hother, name, hcheck⟩ := ih hothers operation hrest
          exact ⟨other, List.mem_cons_of_mem _ hother, name, hcheck⟩

/-- Every operation of a workload that a text declares has passed the check of a declaration. -/
theorem Workload.exists_check_of_ofText {text : String} {workload : Workload}
    (h : Workload.ofText text = .ok workload) : ∀ operation ∈ workload.operations,
      ∃ (declaration : OperationDeclaration) (name : String),
        declaration.check name = .ok operation := by
  have hcheck : ∃ declaration : WorkloadDeclaration, declaration.check = .ok workload := by
    unfold Workload.ofText at h
    split at h
    · next declaration _ =>
      cases hcheck : declaration.check with
      | error fault =>
        simp only [hcheck] at h
        cases h
      | ok checked =>
        simp only [hcheck] at h
        cases h
        exact ⟨declaration, hcheck⟩
    · cases h
  obtain ⟨declaration, hcheck⟩ := hcheck
  unfold WorkloadDeclaration.check at hcheck
  simp only at hcheck
  split at hcheck
  · cases hcheck
  · split at hcheck
    · cases hcheck
    · split at hcheck
      · cases hcheck
      · next operations hoperations =>
        cases hcheck
        intro operation hoperation
        obtain ⟨checked, -, name, hchecked⟩ :=
          WorkloadDeclaration.exists_check_of_mem hoperations operation hoperation
        exact ⟨checked, name, hchecked⟩

/-- A workload that was loaded is one that a text declares. -/
theorem Run.exists_ofText_of_loadWorkload {path : String} {disk : Disk} {workload : Workload}
    (h : Run.loadWorkload path disk = .ok workload) :
    ∃ text, Workload.ofText text = .ok workload := by
  unfold Run.loadWorkload at h
  simp only [bind, Except.bind] at h
  split at h
  · cases h
  · exact ⟨_, h⟩

/-- Every operation of a workload that was loaded has a path. -/
theorem Workload.hasPaths_of_loadWorkload {path : String} {disk : Disk} {workload : Workload}
    (h : Run.loadWorkload path disk = .ok workload) : HasPaths workload := by
  obtain ⟨text, htext⟩ := Run.exists_ofText_of_loadWorkload h
  intro operation hoperation
  obtain ⟨declaration, name, hcheck⟩ := Workload.exists_check_of_ofText htext operation hoperation
  exact OperationDeclaration.path_ne_nil_of_check hcheck

/-! ## A workload without patterns -/

/-- An operation that writes an element without content. -/
def Operation.plain : Operation := ⟨"op0", .element, none, ["n"], .empty⟩

/-- A workload with this operation alone, whose cycles go over so many files in turn. -/
def Workload.plain (files : Nat) (h : 0 < files) : Workload :=
  ⟨none, "root", files, [.plain], h, List.cons_ne_nil _ _⟩

/-- There is nothing to fill in in such an operation. -/
theorem Operation.fill_plain {ρ : Type} [Random.WordSource ρ] (cycle : Nat) :
    (Operation.plain.fill cycle : Draw ρ (List String × Template)) = pure (["n"], .empty) := by
  have hname : (Pattern.resolve "n" cycle : Draw ρ String) = pure "n" :=
    Pattern.resolve_of_plain (by decide) cycle
  have hbody : (Pattern.resolve "" cycle : Draw ρ String) = pure "" :=
    Pattern.resolve_of_plain (by decide) cycle
  have htemplate : (Template.empty.mapTextM fun text => Pattern.resolve text cycle) =
      (pure .empty : Draw ρ Template) := by
    show (do
      let body ← Pattern.resolve "" cycle
      pure ⟨.empty, .empty, body⟩ : Draw ρ Template) = _
    rw [hbody]
    rfl
  simp only [Operation.fill, Operation.plain, Operation.fillAll, hname, htemplate, pure_bind]

/-- Every cycle of such a workload resolves. -/
theorem Workload.resolve_plain {files : Nat} (h : 0 < files) (seed cycle : Nat) :
    (Workload.plain files h).resolve seed cycle =
      .ok ⟨cycle, "op0", .element, cycle % files, ["n"], .empty⟩ := by
  have hoperation : (Workload.plain files h).operationOf cycle = .plain :=
    List.mem_singleton.1 (List.get_mem _ _)
  have hfile : ∀ source : Random.ChaCha,
      (Operation.plain.fillFile cycle).run source = some (none, source) := fun _ => rfl
  unfold Workload.resolve
  simp only [hoperation, hfile, Operation.fill_plain]
  rfl

end XmlWorkload
