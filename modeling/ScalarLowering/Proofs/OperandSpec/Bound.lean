import ScalarLowering.Proofs.Lowering.Construction

set_option autoImplicit false

/- Described operands with parameters that are not bound, which a tuple can hide. -/

namespace ScalarLowering

namespace OperandSpec

/-- Some scalar parameter of the operand has no value, be it inside a tuple. -/
inductive LacksValue : OperandSpec → Prop
  | param (t : NumType) : LacksValue (.param t none)
  | tuple {items : List OperandSpec} {item : OperandSpec} (member : item ∈ items)
    (inside : LacksValue item) : LacksValue (.tuple items)

mutual

/-- A parameter without a value is one of the leaves. -/
theorem lacksValue_iff (spec : OperandSpec) :
    spec.LacksValue ↔ ∃ t, ⟨.scalar t, none⟩ ∈ spec.leaves := by
  cases spec with
  | literal l => exact iff_of_false nofun (by rintro ⟨t, ⟨⟩⟩)
  | param t value =>
    cases value with
    | none => exact iff_of_true (.param t) ⟨t, List.mem_singleton_self _⟩
    | some l => exact iff_of_false nofun (by rintro ⟨u, _ | ⟨_, ⟨⟩⟩⟩)
  | array length => exact iff_of_false nofun (by rintro ⟨t, _ | ⟨_, ⟨⟩⟩⟩)
  | tuple items =>
    rw [leaves, ← lacksValue_all_iff]
    constructor
    · rintro (_ | ⟨member, inside⟩)
      exact ⟨_, member, inside⟩
    · rintro ⟨item, member, inside⟩
      exact .tuple member inside

theorem lacksValue_all_iff (specs : List OperandSpec) :
    (∃ spec ∈ specs, spec.LacksValue) ↔ ∃ t, ⟨.scalar t, none⟩ ∈ leavesAll specs := by
  cases specs with
  | nil => exact iff_of_false nofun (by rintro ⟨t, ⟨⟩⟩)
  | cons spec rest =>
    simp only [List.mem_cons, exists_eq_or_imp, leavesAll, List.mem_append, exists_or]
    rw [lacksValue_iff spec, lacksValue_all_iff rest]

end

/-- The values are complete unless some operand lacks one. -/
theorem fullyBound_materializeAll {specs : List OperandSpec} {k k' : Kernel} {m : Materialized}
    (run : (materializeAll specs).run k = .ok (m, k')) :
    m.fullyBound = false ↔ ∃ spec ∈ specs, spec.LacksValue := by
  cases run.symm.trans (materializeAll_run_eq specs k)
  rw [numbered, List.all_eq_false, lacksValue_all_iff]
  constructor
  · rintro ⟨⟨type, value⟩, member, unbound⟩
    cases type with
    | array elem length => exact absurd rfl unbound
    | scalar t =>
      cases value with
      | none => exact ⟨t, member⟩
      | some l => exact absurd rfl unbound
  · rintro ⟨t, member⟩
    exact ⟨_, member, Bool.false_ne_true⟩

end OperandSpec

end ScalarLowering
