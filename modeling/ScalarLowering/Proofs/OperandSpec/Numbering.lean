import ScalarLowering.OperandSpec.Materialize
import ScalarLowering.Proofs.Lowering.Parameters

set_option autoImplicit false

/- The parameters that described operands bring along. Scalars and arrays share one
numbering, from left to right through all tuples, and only scalars are bound. -/

namespace ScalarLowering

/-- A parameter of a described operand, with the literal that a scalar may be bound to. -/
structure ParamLeaf where
  type : ValueType
  value : Option Literal

namespace ParamLeaf

/-- The parameter of the leaf, under its index. -/
def instruction (leaf : ParamLeaf) (index : Nat) : Instruction := ⟨leaf.type, .param index⟩

/-- Only a scalar needs a value. -/
def isBound : ParamLeaf → Bool
  | ⟨.scalar _, none⟩ => false
  | _ => true

def binding? (leaf : ParamLeaf) (index : Nat) : Option (Nat × Value) :=
  match leaf with
  | ⟨.scalar t, some l⟩ => some (index, (Value.ofLiteral l).cast t)
  | _ => none

theorem binding?_eq_some_iff {leaf : ParamLeaf} {index other : Nat} {v : Value} :
    leaf.binding? index = some (other, v) ↔
      ∃ t l, leaf = ⟨.scalar t, some l⟩ ∧ other = index ∧ v = (Value.ofLiteral l).cast t := by
  constructor
  · intro bound
    obtain ⟨type, value⟩ := leaf
    cases type with
    | array elem length => cases bound
    | scalar t =>
      cases value with
      | none => cases bound
      | some l =>
        cases bound
        exact ⟨t, l, rfl, rfl, rfl⟩
  · rintro ⟨t, l, rfl, rfl, rfl⟩
    rfl

end ParamLeaf

namespace Kernel

variable {k : Kernel}

/-- The kernel with more parameters. -/
def addParams (k : Kernel) (leaves : List ParamLeaf) : Kernel :=
  leaves.foldl (fun k leaf => k.addParam leaf.type) k

theorem addParams_cons (k : Kernel) (leaf : ParamLeaf) (rest : List ParamLeaf) :
    k.addParams (leaf :: rest) = (k.addParam leaf.type).addParams rest := rfl

theorem addParams_append (k : Kernel) (leaves others : List ParamLeaf) :
    k.addParams (leaves ++ others) = (k.addParams leaves).addParams others :=
  List.foldl_append

theorem addParams_addsParams (leaves : List ParamLeaf) : k.AddsParams (k.addParams leaves) := by
  induction leaves generalizing k with
  | nil => exact .refl
  | cons leaf rest ih => exact (AddsParams.add .refl leaf.type).trans ih

theorem paramCount_addParams (k : Kernel) (leaves : List ParamLeaf) :
    (k.addParams leaves).paramCount = k.paramCount + leaves.length := by
  induction leaves generalizing k with
  | nil => rfl
  | cons leaf rest ih =>
    rw [addParams_cons, ih, List.length_cons, Nat.add_comm rest.length, ← Nat.add_assoc]
    rfl

theorem definitions_addParams (k : Kernel) (leaves : List ParamLeaf) :
    (k.addParams leaves).definitions.toList = k.definitions.toList ++
      definitionsFrom k.size
        (leaves.mapIdx fun i leaf => leaf.instruction (k.paramCount + i)) := by
  induction leaves generalizing k with
  | nil => exact (List.append_nil _).symm
  | cons leaf rest ih =>
    have size : (k.addParam leaf.type).size = k.size + 1 := Array.size_push _
    have count : (k.addParam leaf.type).paramCount = k.paramCount + 1 := rfl
    rw [addParams_cons, ih, size, count, addParam, Array.toList_push, List.mapIdx_cons,
      definitionsFrom_cons, List.append_assoc, List.singleton_append]
    simp only [ParamLeaf.instruction, Nat.add_zero, Nat.add_assoc, Nat.add_comm 1]

theorem size_addParams (k : Kernel) (leaves : List ParamLeaf) :
    (k.addParams leaves).size = k.size + leaves.length := by
  rw [← length_definitions, definitions_addParams, List.length_append, length_definitions,
    length_definitionsFrom, List.length_mapIdx]

end Kernel

/-- The bindings of parameters that are numbered from an index on. -/
def bindingsFrom (first : Nat) (leaves : List ParamLeaf) : Bindings :=
  (leaves.zipIdx first).filterMap fun (leaf, index) => leaf.binding? index

theorem bindingsFrom_append (first : Nat) (leaves others : List ParamLeaf) :
    bindingsFrom first (leaves ++ others) =
      bindingsFrom first leaves ++ bindingsFrom (first + leaves.length) others := by
  rw [bindingsFrom, List.zipIdx_append, List.filterMap_append]
  rfl

theorem mem_bindingsFrom {first index : Nat} {leaves : List ParamLeaf} {v : Value} :
    (index, v) ∈ bindingsFrom first leaves ↔
      ∃ i t l, leaves[i]? = some ⟨.scalar t, some l⟩ ∧ index = first + i ∧
        v = (Value.ofLiteral l).cast t := by
  rw [bindingsFrom, List.mem_filterMap]
  constructor
  · rintro ⟨⟨leaf, position⟩, member, bound⟩
    obtain ⟨t, l, rfl, rfl, rfl⟩ := ParamLeaf.binding?_eq_some_iff.mp bound
    obtain ⟨behind, found⟩ := List.mem_zipIdx_iff_le_and_getElem?_sub.mp member
    exact ⟨index - first, t, l, found, by omega, rfl⟩
  · rintro ⟨i, t, l, found, rfl, rfl⟩
    refine ⟨(⟨.scalar t, some l⟩, first + i), ?_, rfl⟩
    rw [List.mem_zipIdx_iff_le_and_getElem?_sub, Nat.add_sub_cancel_left]
    exact ⟨Nat.le_add_right first i, found⟩

theorem bindingsFrom_ascending (first : Nat) (leaves : List ParamLeaf) :
    (bindingsFrom first leaves).Pairwise fun a b => a.1 < b.1 := by
  have ascending : (leaves.zipIdx first).Pairwise fun a b => a.2 < b.2 := by
    rw [← List.pairwise_map, List.zipIdx_map_snd]
    exact List.pairwise_lt_range'
  apply ascending.filterMap
  rintro ⟨leaf, index⟩ ⟨leaf', index'⟩ less ⟨other, v⟩ bound ⟨other', v'⟩ bound'
  obtain ⟨_, _, _, rfl, _⟩ := ParamLeaf.binding?_eq_some_iff.mp bound
  obtain ⟨_, _, _, rfl, _⟩ := ParamLeaf.binding?_eq_some_iff.mp bound'
  exact less

namespace OperandSpec

mutual

/-- The parameters and arrays of an operand, from left to right. -/
def leaves : OperandSpec → List ParamLeaf
  | .literal _ => []
  | .param t value => [⟨.scalar t, value⟩]
  | .array length => [⟨.array arrayElem length, none⟩]
  | .tuple items => leavesAll items

def leavesAll : List OperandSpec → List ParamLeaf
  | [] => []
  | spec :: specs => spec.leaves ++ leavesAll specs

end

mutual

/-- The operand with values in place of its parameters and arrays. They are identified from left
to right, from `first` on. -/
def placed (first : Nat) : OperandSpec → Operand
  | .literal l => .literal l
  | .param .. | .array _ => .value ⟨first⟩
  | .tuple items => .tuple (placedAll first items)

def placedAll (first : Nat) : List OperandSpec → List Operand
  | [] => []
  | spec :: specs => spec.placed first :: placedAll (first + spec.leaves.length) specs

end

/-- Operands that brought these leaves along, in a kernel with so many parameters. -/
def numbered (count : Nat) (operands : List Operand) (leaves : List ParamLeaf) : Materialized :=
  ⟨operands, bindingsFrom count leaves, leaves.all (·.isBound)⟩

theorem append_numbered (count : Nat) (operands others : List Operand)
    (leaves rest : List ParamLeaf) :
    (numbered count operands leaves).append (numbered (count + leaves.length) others rest) =
      numbered count (operands ++ others) (leaves ++ rest) := by
  rw [numbered, numbered, numbered, bindingsFrom_append, List.all_append, Materialized.append]

mutual

theorem materialize_run_eq (spec : OperandSpec) (k : Kernel) :
    spec.materialize.run k =
      .ok (numbered k.paramCount [spec.placed k.size] spec.leaves, k.addParams spec.leaves) := by
  cases spec with
  | literal l => rfl
  | param t value => cases value <;> rfl
  | array length => rfl
  | tuple items =>
    rw [materialize, StateT.run_bind, materializeAll_run_eq items k]
    rfl

/-- The operands are numbered on from the kernel in which they are materialized. -/
theorem materializeAll_run_eq (specs : List OperandSpec) (k : Kernel) :
    (materializeAll specs).run k =
      .ok (numbered k.paramCount (placedAll k.size specs) (leavesAll specs),
        k.addParams (leavesAll specs)) := by
  cases specs with
  | nil => rfl
  | cons spec rest =>
    -- The rest is numbered on from the kernel that the first operand leaves behind.
    have joined := append_numbered k.paramCount [spec.placed k.size]
      (placedAll (k.size + spec.leaves.length) rest) spec.leaves (leavesAll rest)
    rw [materializeAll, StateT.run_bind, materialize_run_eq spec k, ok_bind, StateT.run_bind,
      materializeAll_run_eq rest, k.size_addParams, k.paramCount_addParams, leavesAll,
      k.addParams_append, ok_bind]
    dsimp only
    rw [joined]
    rfl

end

end OperandSpec

end ScalarLowering
