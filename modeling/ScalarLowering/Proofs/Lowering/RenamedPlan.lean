import ScalarLowering.Proofs.Lowering.Acceptance
import ScalarLowering.Proofs.Lowering.Alike

set_option autoImplicit false

/- Calls on the values of one kernel and on those of another that these stand for.
Planning learns the types and the lengths of the operands and nothing else of a
kernel, so that the plans differ by the renaming alone. -/

namespace ScalarLowering

namespace Operand

mutual

/-- The operand on other values. -/
def rename (name : ValueId → ValueId) : Operand → Operand
  | .literal l => .literal l
  | .tuple items => .tuple (renameAll name items)
  | .value id => .value (name id)

def renameAll (name : ValueId → ValueId) : List Operand → List Operand
  | [] => []
  | o :: rest => o.rename name :: renameAll name rest

end

mutual

/-- All values of the operand have a property, those within tuples included. -/
def Over (property : ValueId → Prop) : Operand → Prop
  | .literal _ => True
  | .tuple items => OverAll property items
  | .value id => property id

def OverAll (property : ValueId → Prop) : List Operand → Prop
  | [] => True
  | o :: rest => o.Over property ∧ OverAll property rest

end

variable {name other : ValueId → ValueId} {property weaker : ValueId → Prop}

theorem renameAll_eq_map (name : ValueId → ValueId) (args : List Operand) :
    renameAll name args = args.map (·.rename name) := by
  induction args with
  | nil => rfl
  | cons o rest ih => rw [renameAll, List.map_cons, ih]

theorem overAll_iff {args : List Operand} :
    OverAll property args ↔ ∀ o ∈ args, o.Over property := by
  induction args with
  | nil => simp [OverAll]
  | cons o rest ih => rw [OverAll, List.forall_mem_cons, ih]

mutual

theorem Over.mono {o : Operand} (covered : o.Over property)
    (implies : ∀ id, property id → weaker id) : o.Over weaker := by
  cases o with
  | literal l => trivial
  | tuple items => exact OverAll.mono covered implies
  | value id => exact implies id covered

theorem OverAll.mono {args : List Operand} (covered : OverAll property args)
    (implies : ∀ id, property id → weaker id) : OverAll weaker args := by
  cases args with
  | nil => trivial
  | cons o rest => exact ⟨covered.1.mono implies, covered.2.mono implies⟩

end

mutual

/-- Only the values of the operand matter to renaming. -/
theorem rename_congr {o : Operand} (agree : o.Over fun id => name id = other id) :
    o.rename name = o.rename other := by
  cases o with
  | literal l => rfl
  | tuple items => rw [rename, rename, renameAll_congr agree]
  | value id => rw [rename, rename, agree]

theorem renameAll_congr {args : List Operand}
    (agree : OverAll (fun id => name id = other id) args) :
    renameAll name args = renameAll other args := by
  cases args with
  | nil => rfl
  | cons o rest =>
    rw [renameAll, renameAll, rename_congr agree.1, renameAll_congr agree.2]

end

end Operand

/-- What a handler can learn about a value is the same about the value that it is renamed to. -/
def Kernel.Resembles (k k' : Kernel) (name : ValueId → ValueId) (id : ValueId) : Prop :=
  k'.scalarType? (name id) = k.scalarType? id ∧ k'.staticLength? (name id) = k.staticLength? id

section

variable {k k' : Kernel} {name : ValueId → ValueId}

namespace Operand

theorem scalar?_rename {o : Operand} (covered : o.Over (k.Resembles k' name)) :
    (o.rename name).scalar? k' = (o.scalar? k).map (·.rename name) := by
  cases o with
  | literal l => rfl
  | tuple items => rfl
  | value id =>
    rw [rename, scalar?, covered.1, scalar?, Option.map_map]
    rfl

theorem length?_rename {o : Operand} (covered : o.Over (k.Resembles k' name)) :
    (o.rename name).length? k' = o.length? k := by
  cases o with
  | literal l => rfl
  | tuple items => rw [rename, length?, renameAll_eq_map, List.length_map, length?]
  | value id => rw [rename, length?, covered.2, length?]

theorem scalarAt_rename {o : Operand} (covered : o.Over (k.Resembles k' name)) (index : Nat) :
    (o.rename name).scalarAt k' index = (·.rename name) <$> o.scalarAt k index := by
  rw [scalarAt, scalar?_rename covered, scalarAt]
  cases o.scalar? k <;> rfl

theorem only_rename (args : List Operand) :
    only (args.map (·.rename name)) = (·.rename name) <$> only args := by
  match args with
  | [] => rfl
  | [_] => rfl
  | _ :: _ :: _ => simp [only]

theorem only_mem {args : List Operand} {o : Operand} (alone : only args = .ok o) : o ∈ args := by
  rw [only_ok alone]
  exact List.mem_singleton_self o

theorem scalarsFrom_rename {args : List Operand}
    (covered : ∀ o ∈ args, o.Over (k.Resembles k' name)) (index : Nat) :
    scalarsFrom k' index (args.map (·.rename name)) =
      List.map (·.rename name) <$> scalarsFrom k index args := by
  induction args generalizing index with
  | nil => rfl
  | cons o rest ih =>
    obtain ⟨first, others⟩ := List.forall_mem_cons.mp covered
    rw [List.map_cons, scalarsFrom, scalarAt_rename first, ih others, scalarsFrom]
    cases o.scalarAt k index with
    | error reason => rfl
    | ok s => cases scalarsFrom k (index + 1) rest <;> rfl

end Operand

namespace Plan

theorem firstComplex?_rename (operands : List ScalarOperand) :
    firstComplex? (operands.map (·.rename name)) =
      (firstComplex? operands).map fun found => (found.1.rename name, found.2) := by
  rw [firstComplex?, List.zipIdx_map, List.find?_map, firstComplex?]
  congr 2
  funext ⟨o, index⟩
  exact congrArg NumType.isComplex (o.type_rename name)

theorem sameTypeFrom_rename {args : List Operand}
    (covered : ∀ o ∈ args, o.Over (k.Resembles k' name)) (t : NumType) (index : Nat) :
    sameTypeFrom k' t index (args.map (·.rename name)) =
      List.map (·.rename name) <$> sameTypeFrom k t index args := by
  induction args generalizing index with
  | nil => rfl
  | cons o rest ih =>
    obtain ⟨first, others⟩ := List.forall_mem_cons.mp covered
    rw [List.map_cons, sameTypeFrom, Operand.scalarAt_rename first, sameTypeFrom]
    cases o.scalarAt k index with
    | error reason => rfl
    | ok s =>
      rw [map_ok, ok_bind, ok_bind, ScalarOperand.type_rename, ih others]
      by_cases same : s.type = t
      · rw [if_pos same, if_pos same]
        cases sameTypeFrom k t (index + 1) rest <;> rfl
      · rw [if_neg same, if_neg same]
        rfl

theorem routine_rename (symbol : String) (realMark : Bool) (operands : List ScalarOperand)
    (argType resultType declined : NumType) :
    routine symbol realMark (operands.map (·.rename name)) argType resultType declined =
      (·.rename name) <$> routine symbol realMark operands argType resultType declined := by
  rw [routine, routine]
  cases mathSymbol? symbol argType realMark <;> rfl

variable {args : List Operand} (covered : ∀ o ∈ args, o.Over (k.Resembles k' name))

include covered

theorem ofCast_rename (t : NumType) :
    ofCast k' t (args.map (·.rename name)) = (·.rename name) <$> ofCast k t args := by
  refine bind_map (Operand.only_rename args) fun o alone => ?_
  refine bind_map (Operand.scalarAt_rename (covered o (Operand.only_mem alone)) 0) fun s _ => ?_
  rfl

theorem ofLen_rename :
    ofLen k' (args.map (·.rename name)) = (·.rename name) <$> ofLen k args := by
  refine bind_map (Operand.only_rename args) fun o alone => ?_
  rw [Operand.length?_rename (covered o (Operand.only_mem alone))]
  cases o.length? k with
  | none => rfl
  | some n =>
    by_cases small : (n : Int) ≤ Int64.maxValue.toInt
    · simp only [small, if_true]
      rfl
    · simp only [small, if_false]
      rfl

theorem ofExtremum_rename (which : Extremum) :
    ofExtremum k' which (args.map (·.rename name)) =
      (·.rename name) <$> ofExtremum k which args := by
  rw [ofExtremum, ofExtremum, List.length_map]
  by_cases few : args.length < 2
  · rw [if_pos few, if_pos few]
    rfl
  · rw [if_neg few, if_neg few]
    refine bind_map (Operand.scalarsFrom_rename covered 0) fun operands _ => ?_
    rw [firstComplex?_rename, List.getLast?_map]
    cases firstComplex? operands with
    | some found =>
      obtain ⟨o, index⟩ := found
      simp
    | none =>
      cases operands.getLast? with
      | none => rfl
      | some last => simp [rename]

theorem ofAbs_rename :
    ofAbs k' (args.map (·.rename name)) = (·.rename name) <$> ofAbs k args := by
  refine bind_map (Operand.only_rename args) fun o alone => ?_
  refine bind_map (Operand.scalarAt_rename (covered o (Operand.only_mem alone)) 0) fun s _ => ?_
  rw [ScalarOperand.type_rename]
  by_cases int : s.type.isInt = true
  · rw [if_pos int, if_pos int]
    rfl
  · rw [if_neg int, if_neg int]
    exact routine_rename Builtin.abs.name true [s] _ _ _

theorem ofMath_rename (f : MathFunction) :
    ofMath k' f (args.map (·.rename name)) = (·.rename name) <$> ofMath k f args := by
  cases args with
  | nil =>
    rw [List.map_nil, ofMath, ofMath]
    by_cases count : ([] : List Operand).length ≠ f.arity
    · rw [if_pos count]
      rfl
    · rw [if_neg count]
      rfl
  | cons first rest =>
    obtain ⟨firstOver, restOver⟩ := List.forall_mem_cons.mp covered
    rw [List.map_cons, ofMath, ofMath, List.length_cons, List.length_map, List.length_cons]
    by_cases count : rest.length + 1 ≠ f.arity
    · rw [if_pos count, if_pos count]
      rfl
    · rw [if_neg count, if_neg count]
      refine bind_map (Operand.scalarAt_rename firstOver 0) fun s _ => ?_
      rw [ScalarOperand.type_rename]
      by_cases kind : (s.type.isInt || s.type.isFloat) = true
      · rw [if_pos kind, if_pos kind]
        refine bind_map (sameTypeFrom_rename restOver s.type 1) fun others _ => ?_
        exact routine_rename f.name false (s :: others) _ _ _
      · rw [if_neg kind, if_neg kind]
        rfl

theorem ofHelper_rename (f : HelperFunction) :
    ofHelper k' f (args.map (·.rename name)) = (·.rename name) <$> ofHelper k f args := by
  refine bind_map (Operand.only_rename args) fun o alone => ?_
  refine bind_map (Operand.scalarAt_rename (covered o (Operand.only_mem alone)) 0) fun s _ => ?_
  rw [ScalarOperand.type_rename]
  exact routine_rename f.name false [s] _ _ _

end Plan

/-- A call on other values is planned alike, and it is declined for the same reason. -/
theorem Handler.plan_rename (h : Handler) {args : List Operand}
    (covered : ∀ o ∈ args, o.Over (k.Resembles k' name)) :
    h.plan k' (args.map (·.rename name)) = (·.rename name) <$> h.plan k args := by
  cases h with
  | cast t => exact Plan.ofCast_rename covered t
  | len => exact Plan.ofLen_rename covered
  | extremum which => exact Plan.ofExtremum_rename covered which
  | abs => exact Plan.ofAbs_rename covered
  | math f => exact Plan.ofMath_rename covered f
  | helper f => exact Plan.ofHelper_rename covered f

end

section

variable {k : Kernel} {property : ValueId → Prop} {args : List Operand} {plan : Plan}

theorem Operand.scalar?_over {o : Operand} {s : ScalarOperand} (scalar : o.scalar? k = some s)
    (covered : o.Over property) : s.Over property := by
  cases o with
  | literal l =>
    cases scalar
    trivial
  | tuple items => cases scalar
  | value id =>
    obtain ⟨t, _, rfl⟩ := Option.map_eq_some_iff.mp scalar
    exact covered

theorem Operand.scalars_over {operands : List ScalarOperand}
    (scalars : args.map (·.scalar? k) = operands.map some) (covered : OverAll property args) :
    ∀ s ∈ operands, s.Over property := by
  intro s member
  obtain ⟨o, listed, scalar⟩ := exists_of_scalars scalars member
  exact scalar?_over scalar (overAll_iff.mp covered o listed)

/-- The values in a plan are values among the operands. -/
theorem Handler.Accepts.operands_over {h : Handler} (accepts : h.Accepts k args plan)
    (covered : Operand.OverAll property args) : ∀ s ∈ plan.operands, s.Over property := by
  cases accepts with
  | len known small => simp [Plan.operands]
  | extremum two scalars real => exact Operand.scalars_over scalars covered
  | math count scalars kind same exported => exact Operand.scalars_over scalars covered
  | cast scalar | integerAbs scalar _ | magnitude scalar _ | helper scalar _ =>
    exact Operand.scalars_over (Operand.scalars_of_scalar scalar) covered

end

end ScalarLowering
