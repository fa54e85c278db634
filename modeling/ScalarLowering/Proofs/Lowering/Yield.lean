import ScalarLowering.Proofs.Lowering.BoundLiterals

set_option autoImplicit false

/- Calls on operands that have values. What such a call yields is told by these values
alone; the result can be an operand of a later call. -/

namespace ScalarLowering

namespace Instruction

/-- Only scalars have values. -/
theorem scalar_of_demand {bound : Nat → Option Value} {id : ValueId} {i : Instruction}
    {value : ValueId → Except EvalError Value} {v : Value}
    (computed : i.demand bound id value = .ok v) : ∃ t, i.type = .scalar t := by
  obtain ⟨type, operation⟩ := i
  cases type with
  | scalar t => exact ⟨t, rfl⟩
  | array elem length =>
    have none : ValueType.demanded id (.array elem length) = .error (.notScalar id) := rfl
    cases operation with
    | param index => cases computed
    | const w => cases computed
    | cast source =>
      obtain ⟨_, _, computed⟩ := bind_ok.mp computed
      cases computed
    | compare predicate lhs rhs =>
      obtain ⟨_, _, computed⟩ := bind_ok.mp computed
      obtain ⟨_, _, computed⟩ := bind_ok.mp computed
      cases computed
    | select condition onTrue onFalse =>
      obtain ⟨c, _, computed⟩ := bind_ok.mp computed
      cases c with
      | bool b =>
        obtain ⟨_, _, computed⟩ := bind_ok.mp computed
        cases computed
      | _ => cases computed
    | neg operand =>
      obtain ⟨_, _, computed⟩ := bind_ok.mp computed
      cases computed
    | call symbol args template decorated =>
      obtain ⟨_, _, computed⟩ := bind_ok.mp computed
      cases computed

end Instruction

namespace Kernel

variable {k : Kernel} {bound : Nat → Option Value} {id : ValueId} {v : Value}

theorem WellTyped.demand_of_eval? (typed : k.WellTyped)
    (computed : k.eval? bound id = some (.ok v)) : k.demand bound id = .ok v := by
  rw [typed.ordered.eval?_eq] at computed
  exact Option.some.inj computed

/-- What has a value is a scalar of the value's type. -/
theorem WellTyped.scalarType?_of_demand (typed : k.WellTyped)
    (computed : k.demand bound id = .ok v) : k.scalarType? id = some v.type := by
  cases recorded : k.instruction? id with
  | none =>
    rw [demand_of_none bound recorded] at computed
    cases computed
  | some i =>
    have unfolded := computed
    rw [demand, recorded] at unfolded
    obtain ⟨t, scalar⟩ := Instruction.scalar_of_demand unfolded
    have known : k.scalarType? id = some t := by
      rw [scalarType?, typeOf?, recorded, Option.map_some, scalar]
      rfl
    have outcome := typed.sound bound id t known
    rw [computed] at outcome
    rw [known, show v.type = t from outcome]

end Kernel

namespace Operand

/-- The operand is a scalar with a value. -/
def Evaluates (k : Kernel) (bound : Nat → Option Value) : Operand → Value → Prop
  | .literal l, v => v = .ofLiteral l
  | .tuple _, _ => False
  | .value id, v => k.eval? bound id = some (.ok v)

variable {k k' : Kernel} {bound : Nat → Option Value} {o : Operand} {v : Value}
variable {args : List Operand} {vs : List Value}

theorem Evaluates.shape_eq (evaluates : o.Evaluates k bound v) (typed : k.WellTyped) :
    o.shape k = .scalar v.type := by
  cases o with
  | literal l =>
    obtain rfl : v = .ofLiteral l := evaluates
    cases l <;> rfl
  | tuple items => cases evaluates
  | value id =>
    have scalar := typed.scalarType?_of_demand (typed.demand_of_eval? evaluates)
    rw [shape, Kernel.typeOf?_of_scalarType? scalar]

theorem Evaluates.meaning_eq (evaluates : o.Evaluates k bound v) (typed : k.WellTyped) :
    o.meaning k bound = .scalar (.ok v) := by
  cases o with
  | literal l =>
    obtain rfl : v = .ofLiteral l := evaluates
    rfl
  | tuple items => cases evaluates
  | value id =>
    have computed := typed.demand_of_eval? evaluates
    have scalar := typed.scalarType?_of_demand computed
    rw [meaning, Kernel.typeOf?_of_scalarType? scalar, computed]

/-- An operand keeps its value when more is recorded. -/
theorem Evaluates.grow (evaluates : o.Evaluates k bound v) (typed : k.WellTyped)
    (grows : k.Grows k') : o.Evaluates k' bound v := by
  cases o with
  | literal l => exact evaluates
  | tuple items => exact evaluates
  | value id =>
    have computed := typed.demand_of_eval? evaluates
    have inside := Kernel.index_lt_of_scalarType? (typed.scalarType?_of_demand computed)
    have kept := grows.continues.demand_eq bound inside
    rw [Evaluates, (grows.wellTyped typed).ordered.eval?_eq, kept, computed]

theorem shapes_of_evaluate (typed : k.WellTyped)
    (values : List.Forall₂ (Evaluates k bound) args vs) :
    args.map (·.shape k) = (vs.map (·.type)).map .scalar := by
  induction values with
  | nil => rfl
  | cons first _ ih => rw [List.map_cons, first.shape_eq typed, ih, List.map_cons, List.map_cons]

theorem meanings_of_evaluate (typed : k.WellTyped)
    (values : List.Forall₂ (Evaluates k bound) args vs) :
    args.map (·.meaning k bound) = (vs.map Except.ok).map .scalar := by
  induction values with
  | nil => rfl
  | cons first _ ih => rw [List.map_cons, first.meaning_eq typed, ih, List.map_cons, List.map_cons]

end Operand

namespace Handler

theorem meaning?_of_values {h : Handler} (notLen : h ≠ .len) (vs : List Value) :
    h.meaning? ((vs.map Except.ok).map .scalar) = h.onValues? vs := by
  have all : (vs.map Except.ok).mapM id = (.ok vs : Except EvalError (List Value)) := by
    rw [List.mapM_map]
    exact List.mapM_pure.trans (by rw [List.map_id']; rfl)
  cases h with
  | len => exact absurd rfl notLen
  | _ => simp only [meaning?, Meaning.mapM_outcome?, Option.bind_eq_bind, Option.bind_some, all]

/-- The call is lowered in `k`, which makes `k'` of it. Its result `id` has the value `v` there and
the type of `v`. -/
structure Yields (h : Handler) (k : Kernel) (bound : Nat → Option Value) (args : List Operand)
    (id : ValueId) (k' : Kernel) (v : Value) : Prop where
  lowered : (h.lower args).run k = .ok (.ok id, k')
  type : k'.scalarType? id = some v.type
  value : k'.eval? bound id = some (.ok v)
  grows : k.Grows k'

variable {k k' : Kernel} {bound : Nat → Option Value} {h : Handler} {args : List Operand}
variable {vs : List Value} {v : Value} {id : ValueId}

/-- The result of a call is an operand of the next. -/
theorem Yields.evaluates (yields : h.Yields k bound args id k' v) :
    (Operand.value id).Evaluates k' bound v := yields.value

/-- A call on values of accepted types yields what the handler makes of the values. -/
theorem yields_of_values {t : NumType} (typed : k.WellTyped) (notLen : h ≠ .len)
    (values : List.Forall₂ (Operand.Evaluates k bound) args vs)
    (signature : h.Signature ((vs.map (·.type)).map .scalar) t)
    (computed : h.onValues? vs = some (.ok v)) : ∃ id k', h.Yields k bound args id k' v := by
  rw [← Operand.shapes_of_evaluate typed values] at signature
  obtain ⟨plan, id, k', _, lowered, recorded⟩ := lower_of_signature signature
  have value : k'.eval? bound id = some (.ok v) := by
    rw [eval?_of_lower typed lowered, Operand.meanings_of_evaluate typed values,
      meaning?_of_values notLen, computed]
  have typed' := recorded.grows.wellTyped typed
  exact ⟨id, k', lowered, typed'.scalarType?_of_demand (typed'.demand_of_eval? value), value,
    recorded.grows⟩

end Handler

end ScalarLowering
