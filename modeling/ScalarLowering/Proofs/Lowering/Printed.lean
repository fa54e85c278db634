import ScalarLowering.Proofs.Lowering.Construction
import ScalarLowering.Proofs.Lowering.Templates

set_option autoImplicit false

/- The text of a kernel tells the kernel. Each line tells what is recorded at its
position, and the instructions tell how many parameters there are. -/

namespace ScalarLowering

/-- The definition, with one NaN for all NaNs. -/
def Definition.oneNaN (d : Definition) : Definition :=
  { d with instruction := d.instruction.oneNaN }

theorem Definition.line_oneNaN (d : Definition) : d.oneNaN.line = d.line :=
  d.instruction.line_oneNaN d.id

namespace Kernel

variable {k k' : Kernel}

theorem WellTyped.lines_of_text (typed : k.WellTyped) (typed' : k'.WellTyped)
    (same : k.text = k'.text) : k.lines = k'.lines := by
  rw [← linesOf_join typed.single_lines, ← linesOf_join typed'.single_lines]
  exact congrArg linesOf same

/-- Which NaN a constant is does not show in its line. -/
theorem lines_eq_oneNaN (k : Kernel) :
    k.lines = (k.definitions.map (·.oneNaN)).toList.map (·.line) := by
  rw [lines_eq, Array.toList_map, List.map_map]
  exact List.map_congr_left fun d _ => d.line_oneNaN.symm

theorem paramIndices_eq (k : Kernel) :
    k.paramIndices =
      (k.definitions.map (·.oneNaN)).toList.filterMap (·.instruction.operation.param?) := by
  have kept (i : Instruction) : i.oneNaN.operation.param? = i.operation.param? := by
    obtain ⟨type, operation⟩ := i
    cases operation <;> rfl
  rw [paramIndices, Array.toList_map, List.filterMap_map]
  exact List.filterMap_congr fun d _ => (kept d.instruction).symm

theorem Numbered.paramCount_eq (numbered : k.Numbered) (numbered' : k'.Numbered)
    (same : k.definitions.map (·.oneNaN) = k'.definitions.map (·.oneNaN)) :
    k.paramCount = k'.paramCount := by
  have indices : k.paramIndices = k'.paramIndices := by
    rw [paramIndices_eq, same, paramIndices_eq]
  rw [numbered, numbered'] at indices
  simpa using congrArg List.length indices

/-- At the same position, the same line is that of the same definition. -/
theorem Reachable.oneNaN_of_line (reachable : k.Reachable) (reachable' : k'.Reachable)
    {position : Nat} {d d' : Definition} (found : k.definitions[position]? = some d)
    (found' : k'.definitions[position]? = some d') (same : d.line = d'.line) :
    d.oneNaN = d'.oneNaN := by
  have recorded := instruction?_of_definition found
  have recorded' := instruction?_of_definition found'
  have id := reachable.identified position d found
  have id' := reachable'.identified position d' found'
  rw [Definition.line, Definition.line, id, id'] at same
  have typed := reachable.wellTyped _ _ recorded
  have typed' := reachable'.wellTyped _ _ recorded'
  have told := typed.oneNaN_of_line typed' (reachable.templatesBefore _ _ recorded)
    (reachable'.templatesBefore _ _ recorded') same
  rw [Definition.oneNaN, Definition.oneNaN, id, id', told]

theorem Reachable.definitions_of_lines (reachable : k.Reachable) (reachable' : k'.Reachable)
    (same : k.lines = k'.lines) :
    k.definitions.map (·.oneNaN) = k'.definitions.map (·.oneNaN) := by
  apply Array.ext_getElem?
  intro position
  have line : k.definitions[position]?.map (·.line) = k'.definitions[position]?.map (·.line) := by
    rw [← Array.getElem?_toList, ← Array.getElem?_toList, ← List.getElem?_map, ← List.getElem?_map,
      ← lines_eq, ← lines_eq, same]
  rw [Array.getElem?_map, Array.getElem?_map]
  cases found : k.definitions[position]? with
  | none =>
    rw [found] at line
    rw [Option.map_eq_none_iff.mp line.symm]
  | some d =>
    rw [found] at line
    obtain ⟨d', found', shown⟩ := Option.map_eq_some_iff.mp line.symm
    rw [found', Option.map_some, Option.map_some,
      reachable.oneNaN_of_line reachable' found found' shown.symm]

/-- The text of a kernel made of parameters and lowered calls leaves nothing out but which NaN a
constant is: kernels with the same text have equally many parameters and the same instructions,
under the same identifiers and with the same templates of calls. -/
theorem Reachable.text_eq_iff (reachable : k.Reachable) (reachable' : k'.Reachable) :
    k.text = k'.text ↔ k.paramCount = k'.paramCount ∧
      k.definitions.map (·.oneNaN) = k'.definitions.map (·.oneNaN) := by
  constructor
  · intro same
    have lines := reachable.wellTyped.lines_of_text reachable'.wellTyped same
    have definitions := reachable.definitions_of_lines reachable' lines
    exact ⟨reachable.numbered.paramCount_eq reachable'.numbered definitions, definitions⟩
  · rintro ⟨_, definitions⟩
    rw [text, text, lines_eq_oneNaN, lines_eq_oneNaN, definitions]

/-- The root of a literal that is no number. -/
def rootOfNaN (negative : Bool) : Kernel where
  definitions :=
    #[⟨⟨0⟩, .literal (.float (.nan negative)) .float64⟩, ⟨⟨1⟩, .literal (.int 0) .float64⟩,
      ⟨⟨2⟩, .scalar .float64, .call "sqrt" [⟨0⟩] ⟨1⟩ false⟩]

theorem rootOfNaN_reachable (negative : Bool) : (rootOfNaN negative).Reachable := by
  have lowered : ((Registry.empty.register "root" (.helper .sqrt) none).lowerCall (.name "root")
      [.literal (.float (.nan negative))]).run .empty = .ok (.ok ⟨2⟩, rootOfNaN negative) := rfl
  exact .call .empty lowered

theorem rootOfNaN_instructions :
    (rootOfNaN false).text = (rootOfNaN true).text ∧ rootOfNaN false ≠ rootOfNaN true ∧
      (rootOfNaN false).definitions.map (·.oneNaN) =
        (rootOfNaN true).definitions.map (·.oneNaN) := by
  have same : (rootOfNaN false).text = (rootOfNaN true).text := by decide +kernel
  have told := (rootOfNaN_reachable false).text_eq_iff (rootOfNaN_reachable true)
  exact ⟨same, by decide +kernel, (told.mp same).2⟩

end Kernel

end ScalarLowering
