import ScalarLowering.Proofs.Lowering.Yield

set_option autoImplicit false

/- The extremum of values: what a call yields is a fold from the right, of a choice
between two values at their common type. -/

namespace ScalarLowering

namespace Kernel

/-- The kernel of scalar parameters alone. -/
def ofParams (types : List NumType) : Kernel :=
  types.foldl (fun k t => k.addParam (.scalar t)) .empty

theorem ofParams_wellTyped (types : List NumType) : (ofParams types).WellTyped := by
  suffices extended : ∀ k : Kernel, k.WellTyped →
      (types.foldl (fun k t => k.addParam (.scalar t)) k).WellTyped from
    extended .empty Reachable.empty.wellTyped
  induction types with
  | nil => exact fun k typed => typed
  | cons t rest ih => exact fun k typed => ih _ (typed.addParam (.scalar t))

end Kernel

namespace Value

theorem type_choose (which : Extremum) (a b : Value) :
    (a.choose which b).type = a.type.promote b.type := by
  rw [choose]
  by_cases ahead : (a.cast (a.type.promote b.type)).compare? which.predicate
      (b.cast (a.type.promote b.type)) = some true
  · rw [if_pos ahead, type_cast]
  · rw [if_neg ahead, type_cast]

theorem type_foldr_choose (which : Extremum) (earlier : List Value) (last : Value) :
    (earlier.foldr (·.choose which ·) last).type =
      (earlier.map (·.type)).foldr .promote last.type := by
  induction earlier with
  | nil => rfl
  | cons v rest ih => rw [List.foldr_cons, type_choose, ih, List.map_cons, List.foldr_cons]

theorem broadcastType_choose (which : Extremum) (earlier : List Value) (last : Value) :
    broadcastType (((earlier ++ [last]).map (·.type)).map .typed) =
      some (earlier.foldr (·.choose which ·) last).type := by
  rw [List.map_append, List.map_singleton, broadcastType_typed_concat, type_foldr_choose]

end Value

namespace Extremum

theorem holds_min_iff {o : Option Ordering} :
    Extremum.min.predicate.holds o = true ↔ o = some .lt := by
  rcases o with _ | (_ | _ | _) <;> decide

theorem holds_max_iff {o : Option Ordering} :
    Extremum.max.predicate.holds o = true ↔ o = some .gt := by
  rcases o with _ | (_ | _ | _) <;> decide

variable {k : Kernel} {bound : Nat → Option Value} {args : List Operand} {vs : List Value}

/-- A list of two or more ends in a value with others before it. -/
theorem exists_concat (two : 2 ≤ args.length)
    (values : List.Forall₂ (Operand.Evaluates k bound) args vs) :
    ∃ earlier last, vs = earlier ++ [last] ∧ earlier ≠ [] := by
  rw [values.length_eq] at two
  have nonempty : vs ≠ [] := List.ne_nil_of_length_pos (by omega)
  refine ⟨vs.dropLast, vs.getLast nonempty, (List.dropLast_concat_getLast nonempty).symm, ?_⟩
  refine List.ne_nil_of_length_pos ?_
  rw [List.length_dropLast]
  omega

/-- Values without complex ones among them have an extremum. -/
theorem yields (typed : k.WellTyped) (which : Extremum) (earlier : List Value) (last : Value)
    (several : earlier ≠ [])
    (values : List.Forall₂ (Operand.Evaluates k bound) args (earlier ++ [last]))
    (real : ∀ v ∈ earlier ++ [last], v.type.isComplex = false) :
    ∃ id k', (Handler.extremum which).Yields k bound args id k'
      (earlier.foldr (·.choose which ·) last) := by
  have two : 2 ≤ ((earlier ++ [last]).map (·.type)).length := by
    have positive := List.length_pos_of_ne_nil several
    rw [List.length_map, List.length_append, List.length_singleton]
    omega
  have signature : (Handler.extremum which).Signature
      (((earlier ++ [last]).map (·.type)).map .scalar)
      (earlier.foldr (·.choose which ·) last).type :=
    .extremum two (List.forall_mem_map.mpr real) (Value.broadcastType_choose which earlier last)
  refine Handler.yields_of_values typed nofun values signature ?_
  rw [Handler.onValues?, List.getLast?_concat, List.dropLast_concat, Option.map_some]

end Extremum

end ScalarLowering
