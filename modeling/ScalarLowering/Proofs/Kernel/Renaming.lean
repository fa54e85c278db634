import ScalarLowering.Proofs.Kernel.Recording

set_option autoImplicit false

/- Values of one kernel that stand for values of another, and what is recorded in
both kernels alike from there on. An identifier is a position, so that the new
identifiers of the two kernels differ by where the kernels end. -/

namespace ScalarLowering

/-- The operation on other values. -/
def Operation.rename (name : ValueId → ValueId) : Operation → Operation
  | .param index => .param index
  | .const v => .const v
  | .cast source => .cast (name source)
  | .compare predicate lhs rhs => .compare predicate (name lhs) (name rhs)
  | .select condition onTrue onFalse => .select (name condition) (name onTrue) (name onFalse)
  | .neg operand => .neg (name operand)
  | .call symbol args template decorated =>
    .call symbol (args.map name) (name template) decorated

/-- The instruction on other values: its type, constant and symbol stay. -/
def Instruction.rename (name : ValueId → ValueId) (i : Instruction) : Instruction where
  type := i.type
  operation := i.operation.rename name

def ScalarOperand.rename (name : ValueId → ValueId) : ScalarOperand → ScalarOperand
  | .literal l => .literal l
  | .value id t => .value (name id) t

@[simp] theorem ScalarOperand.type_rename (name : ValueId → ValueId) (o : ScalarOperand) :
    (o.rename name).type = o.type := by
  cases o <;> rfl

/-- Some values of `k` stand for values of `k'`, one to one and of the same type or length. -/
structure Renaming (k k' : Kernel) where
  values : ValueId → Prop
  name : ValueId → ValueId
  defined : ∀ id, values id → id.index < k.size
  named : ∀ id, values id → (name id).index < k'.size
  scalarType : ∀ id, values id → k'.scalarType? (name id) = k.scalarType? id
  length : ∀ id, values id → k'.staticLength? (name id) = k.staticLength? id
  injective : ∀ id other, values id → values other → name id = name other → id = other

namespace Renaming

variable {k k' : Kernel} (c : Renaming k k') {added later : List Instruction}

/-- Behind the two kernels, values stand for each other in the order of their positions. -/
def extended (id : ValueId) : ValueId :=
  if id.index < k.size then c.name id else ⟨k'.size + (id.index - k.size)⟩

theorem extended_of_values {id : ValueId} (value : c.values id) : c.extended id = c.name id :=
  if_pos (c.defined id value)

theorem extended_of_le {id : ValueId} (late : k.size ≤ id.index) :
    c.extended id = ⟨k'.size + (id.index - k.size)⟩ :=
  if_neg (Nat.not_lt.mpr late)

/-- `k'` with the same instructions appended as `k`, on its own values. -/
def image (added : List Instruction) : Kernel :=
  k'.append (added.map (·.rename c.extended))

theorem extended_next (added : List Instruction) :
    c.extended ⟨(k.append added).size⟩ = ⟨(c.image added).size⟩ := by
  rw [extended_of_le, image, Kernel.size_append, Kernel.size_append, List.length_map]
  · simp
  · simp

theorem image_push (added : List Instruction) (i : Instruction) :
    (c.image added).push (i.rename c.extended) = c.image (added ++ [i]) := by
  rw [image, Kernel.append_push, image, List.map_append, List.map_singleton]

/-- An appended instruction keeps its type. -/
theorem typeOf?_image {id : ValueId} (late : k.size ≤ id.index) :
    (c.image added).typeOf? (c.extended id) = (k.append added).typeOf? id := by
  rw [c.extended_of_le late, Kernel.typeOf?, image, Kernel.instruction?_append,
    Kernel.typeOf?, Kernel.instruction?_append late, Nat.add_sub_cancel_left, List.getElem?_map,
    Option.map_map]
  · rfl
  · exact Nat.le_add_right _ _

/-- A value keeps its type in the kernels that continue the two. -/
theorem typeOf?_value (added : List Instruction) {id : ValueId} (value : c.values id) :
    (c.image added).typeOf? (c.extended id) = k'.typeOf? (c.name id) ∧
      (k.append added).typeOf? id = k.typeOf? id := by
  rw [c.extended_of_values value]
  exact ⟨(Kernel.continues_append k' _).typeOf?_eq (c.named id value),
    (Kernel.continues_append k added).typeOf?_eq (c.defined id value)⟩

/-- The values of the renaming and those that are appended. -/
def valuesWith (added : List Instruction) (id : ValueId) : Prop :=
  c.values id ∨ k.size ≤ id.index ∧ id.index < (k.append added).size

theorem index_lt_of_valuesWith {id : ValueId} (value : c.valuesWith added id) :
    id.index < (k.append added).size := by
  rcases value with old | ⟨_, inside⟩
  · exact Nat.lt_of_lt_of_le (c.defined id old) (Kernel.continues_append k added).size_le
  · exact inside

theorem extended_lt {id : ValueId} (value : c.valuesWith added id) :
    (c.extended id).index < (c.image added).size := by
  rcases value with old | ⟨late, inside⟩
  · rw [c.extended_of_values old]
    exact Nat.lt_of_lt_of_le (c.named id old) (Kernel.continues_append k' _).size_le
  · rw [Kernel.size_append] at inside
    rw [c.extended_of_le late, image, Kernel.size_append, List.length_map]
    simp only
    omega

theorem scalarType?_extended {id : ValueId} (value : c.valuesWith added id) :
    (c.image added).scalarType? (c.extended id) = (k.append added).scalarType? id := by
  rcases value with old | ⟨late, _⟩
  · obtain ⟨image, kept⟩ := c.typeOf?_value added old
    rw [Kernel.scalarType?, image, Kernel.scalarType?, kept]
    exact c.scalarType id old
  · rw [Kernel.scalarType?, c.typeOf?_image late, Kernel.scalarType?]

theorem staticLength?_extended {id : ValueId} (value : c.valuesWith added id) :
    (c.image added).staticLength? (c.extended id) = (k.append added).staticLength? id := by
  rcases value with old | ⟨late, _⟩
  · obtain ⟨image, kept⟩ := c.typeOf?_value added old
    rw [Kernel.staticLength?, image, Kernel.staticLength?, kept]
    exact c.length id old
  · rw [Kernel.staticLength?, c.typeOf?_image late, Kernel.staticLength?]

/-- An old value stands for one before the end of the second kernel, a new one for one behind. -/
theorem extended_ne {id other : ValueId} (old : c.values id) (late : k.size ≤ other.index) :
    c.extended id ≠ c.extended other := by
  intro same
  have early := c.named id old
  rw [c.extended_of_values old, c.extended_of_le late] at same
  rw [same] at early
  exact Nat.not_lt.mpr (Nat.le_add_right _ _) early

theorem extended_injective {id other : ValueId} (value : c.valuesWith added id)
    (value' : c.valuesWith added other) (same : c.extended id = c.extended other) :
    id = other := by
  rcases value with old | ⟨late, _⟩
  · rcases value' with old' | ⟨late', _⟩
    · rw [c.extended_of_values old, c.extended_of_values old'] at same
      exact c.injective id other old old' same
    · exact absurd same (c.extended_ne old late')
  · rcases value' with old' | ⟨late', _⟩
    · exact absurd same.symm (c.extended_ne old' late)
    · rw [c.extended_of_le late, c.extended_of_le late'] at same
      obtain ⟨position⟩ := id
      obtain ⟨position'⟩ := other
      simp only [ValueId.mk.injEq] at same late late' ⊢
      omega

/-- The renaming between the kernels with the same instructions appended. -/
def extend (added : List Instruction) : Renaming (k.append added) (c.image added) where
  values := c.valuesWith added
  name := c.extended
  defined := fun _ value => c.index_lt_of_valuesWith value
  named := fun _ value => c.extended_lt value
  scalarType := fun _ value => c.scalarType?_extended value
  length := fun _ value => c.staticLength?_extended value
  injective := fun _ _ value value' same => c.extended_injective value value' same

end Renaming

end ScalarLowering
