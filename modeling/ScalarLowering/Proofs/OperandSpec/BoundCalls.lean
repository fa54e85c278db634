import ScalarLowering.Proofs.OperandSpec.Bound

set_option autoImplicit false

/- Calls on described operands. Their parameters are numbered from left to right
through all tuples, and where all scalars among them are bound, evaluation finds a
value of the right type for each. -/

namespace ScalarLowering

namespace Bindings

variable {bindings : Bindings} {index : Nat} {v : Value}

/-- Later bindings of other parameters do not matter. -/
theorem foldl_absent (absent : ∀ b ∈ bindings, b.1 ≠ index) (bound : Option Value) :
    bindings.foldl (fun bound (i, v) => if i = index then some v else bound) bound = bound := by
  induction bindings generalizing bound with
  | nil => rfl
  | cons b rest ih =>
    obtain ⟨i, v⟩ := b
    obtain ⟨first, later⟩ := List.forall_mem_cons.mp absent
    rw [List.foldl_cons, ih later]
    exact if_neg first

theorem value?_of_mem (ascending : bindings.Pairwise fun a b => a.1 < b.1)
    (member : (index, v) ∈ bindings) : bindings.value? index = some v := by
  obtain ⟨before, after, rfl⟩ := List.append_of_mem member
  have greater := (List.pairwise_cons.mp (List.pairwise_append.mp ascending).2.1).1
  have absent : ∀ b ∈ after, b.1 ≠ index := fun b later => (greater b later).ne'
  rw [value?, List.foldl_append, List.foldl_cons, foldl_absent absent]
  exact if_pos rfl

end Bindings

namespace Kernel

theorem instruction?_addParams (k : Kernel) (leaves : List ParamLeaf) (i : Nat) :
    (k.addParams leaves).instruction? ⟨k.size + i⟩ =
      leaves[i]?.map (·.instruction (k.paramCount + i)) := by
  rw [instruction?_of_append (k.definitions_addParams leaves) (Nat.le_add_right k.size i),
    Nat.add_sub_cancel_left, List.getElem?_mapIdx]

end Kernel

namespace OperandSpec

variable {specs : List OperandSpec} {k k' : Kernel} {m : Materialized}

/-- What the operands `specs` become when they are materialized in `k`, which makes `k'` of it. -/
structure Materializes (specs : List OperandSpec) (k : Kernel) (m : Materialized) (k' : Kernel) :
    Prop where
  /-- Each leaf is recorded as one parameter. -/
  definitions : k'.definitions.toList = k.definitions.toList ++
    (leavesAll specs).mapIdx fun i leaf => ⟨⟨k.size + i⟩, leaf.type, .param (k.paramCount + i)⟩
  paramCount : k'.paramCount = k.paramCount + (leavesAll specs).length
  operands : m.operands = placedAll k.size specs
  ascending : m.bindings.Pairwise fun a b => a.1 < b.1
  /-- The bound parameters are the scalar leaves with a literal, at the type of the leaf. -/
  bindings : ∀ index v, (index, v) ∈ m.bindings ↔
    ∃ i t l, (leavesAll specs)[i]? = some ⟨.scalar t, some l⟩ ∧ index = k.paramCount + i ∧
      v = (Value.ofLiteral l).cast t
  types : ∀ index v, (index, v) ∈ m.bindings →
    ∃ id, k'.instruction? id = some ⟨.scalar v.type, .param index⟩
  complete : m.fullyBound = true ↔ ¬ ∃ spec ∈ specs, spec.LacksValue

theorem materializeAll_materializes (run : (materializeAll specs).run k = .ok (m, k')) :
    Materializes specs k m k' := by
  have complete := fullyBound_materializeAll run
  cases run.symm.trans (materializeAll_run_eq specs k)
  constructor
  · rw [k.definitions_addParams (leavesAll specs), Kernel.definitionsFrom, List.mapIdx_mapIdx]
    rfl
  · exact k.paramCount_addParams (leavesAll specs)
  · rfl
  · exact bindingsFrom_ascending k.paramCount (leavesAll specs)
  · exact fun index v => mem_bindingsFrom
  · intro index v member
    obtain ⟨i, t, l, found, rfl, rfl⟩ := mem_bindingsFrom.mp member
    refine ⟨⟨k.size + i⟩, ?_⟩
    rw [k.instruction?_addParams, found, Value.type_cast]
    rfl
  · rw [← complete, Bool.not_eq_false]

/-- With a value for every scalar leaf, the parameters that the empty kernel gets are all bound, and
so they are in a kernel that goes on from there. -/
theorem binds_of_complete {l : Kernel} (complete : ¬ ∃ spec ∈ specs, spec.LacksValue)
    (grows : (Kernel.empty.addParams (leavesAll specs)).Grows l) :
    l.Binds (bindingsFrom 0 (leavesAll specs)).value? := by
  intro ⟨i⟩ t index recorded
  have old : i < (Kernel.empty.addParams (leavesAll specs)).size := by
    by_contra late
    exact grows.noParams ⟨i⟩ _ (Nat.not_lt.mp late) recorded index rfl
  rw [grows.continues.instruction?_eq old] at recorded
  have leaf := Kernel.instruction?_addParams .empty (leavesAll specs) i
  rw [show Kernel.empty.size = 0 from rfl, show Kernel.empty.paramCount = 0 from rfl, Nat.zero_add,
    recorded] at leaf
  obtain ⟨⟨type, value⟩, found, same⟩ := Option.map_eq_some_iff.mp leaf.symm
  cases same
  cases value with
  | none =>
    exact absurd ((lacksValue_all_iff specs).mpr ⟨t, List.mem_of_getElem? found⟩) complete
  | some l =>
    have member : (i, (Value.ofLiteral l).cast t) ∈ bindingsFrom 0 (leavesAll specs) :=
      mem_bindingsFrom.mpr ⟨i, t, l, found, (Nat.zero_add i).symm, rfl⟩
    exact ⟨_, Bindings.value?_of_mem (bindingsFrom_ascending 0 _) member, Value.type_cast _ t⟩

/-- Materialized operands bring one parameter for each of their leaves, numbered on from left to
right, and bind those scalars that have a value, at their types. If no scalar is without one, the
result of a call on the operands never misses a binding. -/
theorem materialize_numbers_and_binds :
    (∀ (specs : List OperandSpec) (k : Kernel), ∃ m k',
      (materializeAll specs).run k = .ok (m, k') ∧ Materializes specs k m k') ∧
    ∀ (specs : List OperandSpec) (m : Materialized) (r : Registry) (key : Key) (k k' : Kernel)
      (id : ValueId), (materializeAll specs).run .empty = .ok (m, k) → m.fullyBound = true →
      (r.lowerCall key m.operands).run k = .ok (.ok id, k') →
      ∃ outcome, k'.eval? m.bindings.value? id = some outcome ∧
        (∀ index, outcome ≠ .error (.unbound index)) ∧
        ∀ index expected found, outcome ≠ .error (.bindingType index expected found) := by
  constructor
  · intro specs k
    exact ⟨_, _, materializeAll_run_eq specs k,
      materializeAll_materializes (materializeAll_run_eq specs k)⟩
  · intro specs m r key k k' id run full lowered
    have complete := (materializeAll_materializes run).complete.mp full
    cases run.symm.trans (materializeAll_run_eq specs .empty)
    have before : (Kernel.empty.addParams (leavesAll specs)).Reachable :=
      (Kernel.addParams_addsParams _).reachable .empty
    have binds := binds_of_complete complete (Registry.lowerCall_grows lowered)
    obtain ⟨t, scalar⟩ := Registry.lowerCall_scalar lowered
    rcases ((Kernel.Reachable.call before lowered).eval?_sound binds scalar).1 with
      ⟨v, value, _⟩ | ⟨symbol, _, missing⟩
    · exact ⟨_, value, nofun, nofun⟩
    · exact ⟨_, missing, nofun, nofun⟩

/-- The absolute value of a bound parameter. -/
theorem absolute_of_bound :
    ∃ outcome, Kernel.absoluteParam.eval?
        (Bindings.value? [(0, .int .signed .w64 (-3))]) ⟨4⟩ = some outcome ∧
      ∀ index, outcome ≠ .error (.unbound index) := by
  have lowered : ((Registry.empty.register "abs" .abs none).lowerCall (.name "abs")
      [.value ⟨0⟩]).run (Kernel.empty.addParam (.scalar .int64)) =
      .ok (.ok ⟨4⟩, Kernel.absoluteParam) := rfl
  have run : (materializeAll [.param .int64 (some (.int (-3)))]).run .empty =
      .ok (⟨[.value ⟨0⟩], [(0, .int .signed .w64 (-3))], true⟩,
        Kernel.empty.addParam (.scalar .int64)) := rfl
  obtain ⟨outcome, value, bound, _⟩ :=
    materialize_numbers_and_binds.2 _ _ _ _ _ _ _ run rfl lowered
  exact ⟨outcome, value, bound⟩

end OperandSpec

end ScalarLowering
