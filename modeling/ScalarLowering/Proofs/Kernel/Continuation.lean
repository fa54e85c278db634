import ScalarLowering.Proofs.Evaluation.Demand

set_option autoImplicit false

/- Kernels that continue others. What is recorded behind a kernel takes the positions
that follow for identifiers, and leaves everything before it as it was. -/

namespace ScalarLowering

namespace Kernel

/-- Instructions as they are recorded from a position on. -/
def definitionsFrom (first : Nat) (instructions : List Instruction) : List Definition :=
  instructions.mapIdx fun offset i => ⟨⟨first + offset⟩, i⟩

/-- `k'` has all definitions of `k` and continues them, under the identifiers that follow. -/
def Continues (k k' : Kernel) : Prop :=
  ∃ added, k'.definitions.toList = k.definitions.toList ++ definitionsFrom k.size added

/-- Every instruction is recorded with the identifier that is its position. -/
def Identified (k : Kernel) : Prop :=
  ∀ (position : Nat) (d : Definition), k.definitions[position]? = some d → d.id = ⟨position⟩

variable {k k' k'' : Kernel}

@[simp] theorem length_definitionsFrom (first : Nat) (instructions : List Instruction) :
    (definitionsFrom first instructions).length = instructions.length :=
  List.length_mapIdx

theorem definitionsFrom_cons (first : Nat) (i : Instruction) (rest : List Instruction) :
    definitionsFrom first (i :: rest) = ⟨⟨first⟩, i⟩ :: definitionsFrom (first + 1) rest := by
  simp only [definitionsFrom, List.mapIdx_cons, Nat.add_zero, Nat.add_assoc, Nat.add_comm 1]

theorem definitionsFrom_append (first : Nat) (before after : List Instruction) :
    definitionsFrom first (before ++ after) =
      definitionsFrom first before ++ definitionsFrom (first + before.length) after := by
  simp only [definitionsFrom, List.mapIdx_append, Nat.add_assoc, Nat.add_comm before.length]

theorem getElem?_definitionsFrom (first : Nat) (instructions : List Instruction) (offset : Nat) :
    (definitionsFrom first instructions)[offset]? =
      instructions[offset]?.map fun i => ⟨⟨first + offset⟩, i⟩ :=
  List.getElem?_mapIdx

theorem instruction_mem_of_definitionsFrom {first : Nat} {instructions : List Instruction}
    {d : Definition} (member : d ∈ definitionsFrom first instructions) :
    d.instruction ∈ instructions := by
  obtain ⟨offset, found⟩ := List.mem_iff_getElem?.mp member
  rw [getElem?_definitionsFrom] at found
  obtain ⟨i, recorded, rfl⟩ := Option.map_eq_some_iff.mp found
  exact List.mem_of_getElem? recorded

theorem length_definitions (k : Kernel) : k.definitions.toList.length = k.size :=
  Array.length_toList

theorem instruction?_eq (k : Kernel) (id : ValueId) :
    k.instruction? id = k.definitions.toList[id.index]?.map (·.instruction) := by
  rw [instruction?, Array.getElem?_toList]

/-- What is recorded behind a kernel is told by what has been added. -/
theorem instruction?_of_append {added : List Instruction}
    (whole : k'.definitions.toList = k.definitions.toList ++ definitionsFrom k.size added)
    {id : ValueId} (late : k.size ≤ id.index) :
    k'.instruction? id = added[id.index - k.size]? := by
  rw [instruction?_eq, whole, List.getElem?_append_right (by rwa [length_definitions]),
    length_definitions, getElem?_definitionsFrom, Option.map_map]
  exact Option.map_id_apply

theorem Continues.refl (k : Kernel) : k.Continues k := ⟨[], (List.append_nil _).symm⟩

theorem Continues.trans (first : k.Continues k') (second : k'.Continues k'') :
    k.Continues k'' := by
  obtain ⟨added, whole⟩ := first
  obtain ⟨later, whole'⟩ := second
  have size : k'.size = k.size + added.length := by
    rw [← length_definitions, whole, List.length_append, length_definitions,
      length_definitionsFrom]
  refine ⟨added ++ later, ?_⟩
  rw [whole', whole, size, definitionsFrom_append, List.append_assoc]

/-- Identifiers count from the beginning, since every step counts them on. -/
theorem Continues.identified (continues : Kernel.empty.Continues k) : k.Identified := by
  obtain ⟨instructions, whole⟩ := continues
  intro position d found
  rw [← Array.getElem?_toList, whole] at found
  change (definitionsFrom 0 instructions)[position]? = some d at found
  rw [getElem?_definitionsFrom, Nat.zero_add] at found
  obtain ⟨i, _, rfl⟩ := Option.map_eq_some_iff.mp found
  rfl

theorem Continues.size_le (continues : k.Continues k') : k.size ≤ k'.size := by
  obtain ⟨added, whole⟩ := continues
  rw [← length_definitions, ← length_definitions, whole, List.length_append]
  exact Nat.le_add_right _ _

theorem Continues.instruction?_eq (continues : k.Continues k') {id : ValueId}
    (inside : id.index < k.size) : k'.instruction? id = k.instruction? id := by
  obtain ⟨added, whole⟩ := continues
  rw [Kernel.instruction?_eq, Kernel.instruction?_eq, whole, List.getElem?_append_left]
  rwa [length_definitions]

theorem Continues.typeOf?_eq (continues : k.Continues k') {id : ValueId}
    (inside : id.index < k.size) : k'.typeOf? id = k.typeOf? id := by
  rw [typeOf?, continues.instruction?_eq inside, typeOf?]

theorem Continues.instruction?_some (continues : k.Continues k') {id : ValueId} {i : Instruction}
    (recorded : k.instruction? id = some i) : k'.instruction? id = some i := by
  rw [continues.instruction?_eq (index_lt_size recorded)]
  exact recorded

theorem index_lt_of_typeOf? {id : ValueId} {type : ValueType} (typed : k.typeOf? id = some type) :
    id.index < k.size := by
  obtain ⟨i, recorded, _⟩ := Option.map_eq_some_iff.mp typed
  exact index_lt_size recorded

theorem Continues.typeOf?_some (continues : k.Continues k') {id : ValueId} {type : ValueType}
    (typed : k.typeOf? id = some type) : k'.typeOf? id = some type := by
  rw [continues.typeOf?_eq (index_lt_of_typeOf? typed)]
  exact typed

theorem typeOf?_of_scalarType? {id : ValueId} {t : NumType} (typed : k.scalarType? id = some t) :
    k.typeOf? id = some (.scalar t) := by
  obtain ⟨type, recorded, scalar⟩ := Option.bind_eq_some_iff.mp typed
  cases type with
  | scalar s =>
    cases scalar
    exact recorded
  | array elem length => cases scalar

theorem scalarType?_of_typeOf? {id : ValueId} {t : NumType}
    (typed : k.typeOf? id = some (.scalar t)) : k.scalarType? id = some t := by
  rw [scalarType?, typed]
  rfl

theorem index_lt_of_scalarType? {id : ValueId} {t : NumType}
    (typed : k.scalarType? id = some t) : id.index < k.size :=
  index_lt_of_typeOf? (typeOf?_of_scalarType? typed)

theorem Continues.scalarType?_some (continues : k.Continues k') {id : ValueId} {t : NumType}
    (typed : k.scalarType? id = some t) : k'.scalarType? id = some t :=
  scalarType?_of_typeOf? (continues.typeOf?_some (typeOf?_of_scalarType? typed))

/-- A defined value stays what it is, whatever is recorded after it. -/
theorem Continues.demand_eq (continues : k.Continues k') (bound : Nat → Option Value)
    {id : ValueId} (inside : id.index < k.size) : k'.demand bound id = k.demand bound id := by
  apply demand_congr_of_prefix bound k.size _ id inside
  intro other before
  exact continues.instruction?_eq before

/-- The kernel with one more instruction. -/
def push (k : Kernel) (i : Instruction) : Kernel :=
  { k with definitions := k.definitions.push ⟨⟨k.size⟩, i⟩ }

@[simp] theorem size_push (i : Instruction) : (k.push i).size = k.size + 1 := by
  simp [push, size]

theorem instruction?_push (i : Instruction) : (k.push i).instruction? ⟨k.size⟩ = some i := by
  simp [instruction?, push, size]

theorem scalarType?_push {i : Instruction} {t : NumType} (scalar : i.type = .scalar t) :
    (k.push i).scalarType? ⟨k.size⟩ = some t := by
  apply scalarType?_of_typeOf?
  rw [typeOf?, instruction?_push, Option.map_some, scalar]

theorem continues_push (i : Instruction) : k.Continues (k.push i) :=
  ⟨[i], Array.toList_push⟩

/-- What is recorded under a pushed kernel's identifiers is the old instruction or the new one. -/
theorem instruction?_push_cases {i j : Instruction} {id : ValueId}
    (recorded : (k.push i).instruction? id = some j) :
    k.instruction? id = some j ∨ id = ⟨k.size⟩ ∧ j = i := by
  have inside := index_lt_size recorded
  rw [size_push] at inside
  by_cases old : id.index < k.size
  · rw [(continues_push i).instruction?_eq old] at recorded
    exact Or.inl recorded
  · have position : id.index = k.size := by omega
    obtain rfl : id = ⟨k.size⟩ := congrArg ValueId.mk position
    rw [instruction?_push] at recorded
    exact Or.inr ⟨rfl, (Option.some.inj recorded).symm⟩

variable {added later : List Instruction}

/-- The kernel with instructions recorded behind its own. -/
def append (k : Kernel) (added : List Instruction) : Kernel where
  definitions := (k.definitions.toList ++ definitionsFrom k.size added).toArray
  paramCount := k.paramCount

@[simp] theorem append_nil (k : Kernel) : k.append [] = k := by
  simp [append, definitionsFrom]

@[simp] theorem size_append (k : Kernel) (added : List Instruction) :
    (k.append added).size = k.size + added.length := by
  simp [append, size]

theorem append_push (k : Kernel) (added : List Instruction) (i : Instruction) :
    (k.append added).push i = k.append (added ++ [i]) := by
  simp [append, push, size, definitionsFrom]

theorem append_continues (ahead : added <+: later) :
    (k.append added).Continues (k.append later) := by
  obtain ⟨rest, rfl⟩ := ahead
  refine ⟨rest, ?_⟩
  rw [size_append, append, append, definitionsFrom_append, List.append_assoc]

theorem continues_append (k : Kernel) (added : List Instruction) :
    k.Continues (k.append added) :=
  ⟨added, rfl⟩

/-- What is recorded behind the kernel is told by what has been appended. -/
theorem instruction?_append {id : ValueId} (late : k.size ≤ id.index) :
    (k.append added).instruction? id = added[id.index - k.size]? :=
  instruction?_of_append rfl late

end Kernel

end ScalarLowering
