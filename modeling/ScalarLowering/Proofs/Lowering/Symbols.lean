import ScalarLowering.Proofs.Lowering.History
import ScalarLowering.Proofs.Lowering.Reachable
import ScalarLowering.Proofs.Lowering.Signature

set_option autoImplicit false

/- The symbols that lowering emits and the symbols that the library answers to. Both
sides are told by the same routines, each at the types that it accepts. -/

namespace ScalarLowering

namespace MathRoutine

/-- A symbol is its base name with the mark of the precision behind it. -/
theorem eq_of_base? {p : Precision} {symbol base : String} (found : base? p symbol = some base) :
    symbol = base ++ mathSymbol?.tail p := by
  cases p with
  | double =>
    cases found
    exact (String.append_empty).symm
  | single =>
    rw [base?] at found
    by_cases marked : symbol.toList.getLast? = some 'f'
    · rw [if_pos marked] at found
      cases found
      have split := List.dropLast_append_getLast? _ marked
      apply String.toList_inj.mp
      rw [String.toList_append, String.toList_ofList]
      exact split.symm
    · rw [if_neg marked] at found
      cases found

theorem routine_of_unary? {p : Precision} {base : String} {x y : Binary p}
    (computed : unary? base x = some y) :
    ∃ r : Routine, r ≠ .math .erf ∧ r.arity = 1 ∧ r.accepts (.float p) = true ∧
      r.symbol? (.float p) = some (base ++ mathSymbol?.tail p) := by
  unfold unary? at computed
  split at computed
  · exact ⟨.magnitude, nofun, rfl, rfl, rfl⟩
  · exact ⟨.math .floor, nofun, rfl, rfl, rfl⟩
  · exact ⟨.math .log, nofun, rfl, rfl, rfl⟩
  · exact ⟨.math .sqrt, nofun, rfl, rfl, rfl⟩
  · exact ⟨.math .exp, nofun, rfl, rfl, rfl⟩
  · exact ⟨.math .sin, nofun, rfl, rfl, rfl⟩
  · exact ⟨.math .cos, nofun, rfl, rfl, rfl⟩
  · exact ⟨.math .tanh, nofun, rfl, rfl, rfl⟩
  · cases computed

theorem routine_of_complex? {p : Precision} {base : String} {re im : Binary p} {v : Value}
    (computed : complex? base re im = some v) :
    ∃ r : Routine, r ≠ .math .erf ∧ r.arity = 1 ∧ r.accepts (.complex p) = true ∧
      r.symbol? (.complex p) = some (base ++ mathSymbol?.tail p) := by
  unfold complex? at computed
  split at computed
  · exact ⟨.magnitude, nofun, rfl, rfl, rfl⟩
  · exact ⟨.helper .exp, nofun, rfl, rfl, rfl⟩
  · exact ⟨.helper .sqrt, nofun, rfl, rfl, rfl⟩
  · cases computed

/-- The library answers to the symbols of routines only, on as many arguments as they take and of a
type that they accept. -/
theorem routine_of_call? {symbol : String} {args : List Value} {v : Value}
    (called : call? symbol args = some v) :
    ∃ (r : Routine) (t : NumType), r ≠ .math .erf ∧ r.accepts t = true ∧
      r.symbol? t = some symbol ∧ args.map (·.type) = List.replicate r.arity t := by
  unfold call? at called
  split at called
  · rename_i p x
    obtain ⟨base, found, called⟩ := Option.bind_eq_some_iff.mp called
    obtain ⟨y, computed, _⟩ := Option.map_eq_some_iff.mp called
    obtain ⟨r, present, single, accepted, exported⟩ := routine_of_unary? computed
    rw [← eq_of_base? found] at exported
    exact ⟨r, .float p, present, accepted, exported, by rw [single]; rfl⟩
  · rename_i p re im
    obtain ⟨base, found, computed⟩ := Option.bind_eq_some_iff.mp called
    obtain ⟨r, present, single, accepted, exported⟩ := routine_of_complex? computed
    rw [← eq_of_base? found] at exported
    exact ⟨r, .complex p, present, accepted, exported, by rw [single]; rfl⟩
  · rename_i y x
    by_cases pair : symbol = "atan2"
    · exact ⟨.math .atan2, .float64, nofun, rfl, by rw [pair]; rfl, rfl⟩
    · rw [if_neg pair] at called
      cases called
  · rename_i y x
    by_cases pair : symbol = "atan2f"
    · exact ⟨.math .atan2, .float32, nofun, rfl, by rw [pair]; rfl, rfl⟩
    · rw [if_neg pair] at called
      cases called
  · cases called

/-- Under an exported symbol, the library returns a value of the type of the routine's result. -/
theorem call?_of_routine {r : Routine} {t : NumType} {symbol : String} {args : List Value}
    (accepted : r.accepts t = true) (exported : r.symbol? t = some symbol)
    (types : args.map (·.type) = List.replicate r.arity t) (double : symbol ≠ "erf")
    (single : symbol ≠ "erff") : ∃ v, call? symbol args = some v ∧ v.type = r.result t := by
  have typed : ∀ v ∈ args, v.type = t := fun v member =>
    List.eq_of_mem_replicate (types ▸ List.mem_map_of_mem member)
  have count : args.length = r.arity := by simpa using congrArg List.length types
  obtain ⟨outcome, _, called, result⟩ := r.call_eq accepted exported typed count
  rw [call] at called
  -- Without an answer the outcome is an error, and a routine's only error names the error function.
  cases answer : call? symbol args with
  | none =>
    rw [answer] at called
    subst called
    obtain ⟨p, missing⟩ := result
    cases p with
    | single => exact absurd (EvalError.unknownSymbol.inj missing).1 single
    | double => exact absurd (EvalError.unknownSymbol.inj missing).1 double
  | some v =>
    refine ⟨v, rfl, ?_⟩
    by_contra other
    rw [answer] at called
    simp only [other, if_false] at called
    subst called
    obtain ⟨p, missing⟩ := result
    cases missing

end MathRoutine

namespace NumType

theorem mathType_of_isFloat {t : NumType} (float : t.isFloat = true) : t.mathType = t := by
  cases t with
  | float p => cases p <;> rfl
  | _ => cases float

theorem helperType_of_numeric {t : NumType} (numeric : (t.isFloat || t.isComplex) = true) :
    t.helperType = t := by
  cases t with
  | float p => rfl
  | complex p => rfl
  | _ => cases numeric

end NumType

namespace Operand

variable {k : Kernel} {args : List Operand} {operands : List ScalarOperand} {t : NumType} {n : Nat}

theorem shape_of_scalar? {o : Operand} {s : ScalarOperand} (scalar : o.scalar? k = some s) :
    o.shape k = .scalar s.type := by
  rcases shape_cases k o with ⟨s', scalar', _, shape⟩ | ⟨absent, _⟩
  · cases scalar.symm.trans scalar'
    exact shape
  · cases scalar.symm.trans absent

theorem shapes_of_scalars (scalars : args.map (·.scalar? k) = operands.map some) :
    args.map (·.shape k) = operands.map fun s => .scalar s.type :=
  map_of_scalars scalars fun _ _ scalar => shape_of_scalar? scalar

theorem types_of_shapes (scalars : args.map (·.scalar? k) = operands.map some)
    (shapes : args.map (·.shape k) = List.replicate n (.scalar t)) :
    operands.length = n ∧ ∀ s ∈ operands, s.type = t := by
  rw [shapes_of_scalars scalars] at shapes
  refine ⟨by simpa using congrArg List.length shapes, ?_⟩
  intro s member
  have listed : Shape.scalar s.type ∈ List.replicate n (.scalar t) := by
    rw [← shapes]
    exact List.mem_map_of_mem member
  exact Shape.scalar.inj (List.eq_of_mem_replicate listed)

end Operand

namespace Routine

/-- The error function is the only routine that goes by its symbols. -/
theorem symbol_ne_erf {r : Routine} {t : NumType} {symbol : String} (present : r ≠ .math .erf)
    (exported : r.symbol? t = some symbol) : symbol ≠ "erf" ∧ symbol ≠ "erff" := by
  cases t with
  | bool => cases exported
  | int s w => cases exported
  | float p =>
    cases exported
    cases r with
    | magnitude => cases p <;> decide
    | math f =>
      cases f with
      | erf => exact absurd rfl present
      | _ => cases p <;> decide
    | helper f => cases f <;> cases p <;> decide
  | complex p =>
    cases exported
    cases r with
    | magnitude => cases p <;> decide
    | math f => cases f <;> cases p <;> decide
    | helper f => cases f <;> cases p <;> decide

/-- The handler that lowers to the routine, and the name that it is registered under. -/
def handler : Routine → Handler
  | .magnitude => .abs
  | .math f => .math f
  | .helper f => .helper f

def key : Routine → String
  | .magnitude => Builtin.abs.name
  | .math f => f.key
  | .helper f => f.key

theorem standard_resolves (r : Routine) :
    Registry.standard.resolve? (.name r.key) = some (r.key, r.handler) := by
  cases r with
  | magnitude => rfl
  | math f => cases f <;> rfl
  | helper f => cases f <;> rfl

variable {r : Routine} {t : NumType}

/-- Handlers take the types that their routines accept as they are. -/
theorem signature_of_accepts (accepted : r.accepts t = true) :
    r.handler.Signature (List.replicate r.arity (.scalar t)) (r.result t) := by
  have number : t ≠ .bool := by
    rintro rfl
    cases r <;> cases accepted
  cases r with
  | magnitude => exact .abs number
  | math f =>
    have float : t.isFloat = true := accepted
    have kind : (t.isInt || t.isFloat) = true := by rw [float, Bool.or_true]
    have signature := Handler.Signature.math (f := f) kind
    rwa [NumType.mathType_of_isFloat float] at signature
  | helper f =>
    have signature := Handler.Signature.helper (f := f) number
    rwa [NumType.helperType_of_numeric accepted] at signature

/-- The plan for scalars of an accepted type is a call of the routine on them. -/
theorem plan_of_accepts {k : Kernel} {args : List Operand} {plan : Plan} {symbol : String}
    (accepted : r.accepts t = true) (exported : r.symbol? t = some symbol)
    (shapes : args.map (·.shape k) = List.replicate r.arity (.scalar t))
    (accepts : r.handler.Accepts k args plan) :
    ∃ operands, plan = .call symbol operands t (r.result t) ∧ operands.length = r.arity := by
  cases r with
  | magnitude =>
    cases accepts with
    | integerAbs scalar int =>
      obtain ⟨_, types⟩ := Operand.types_of_shapes (Operand.scalars_of_scalar scalar) shapes
      rw [types _ List.mem_cons_self] at int
      cases t with
      | int sign width => cases accepted
      | _ => cases int
    | @magnitude o s symbol' scalar exported' =>
      obtain ⟨_, types⟩ := Operand.types_of_shapes (Operand.scalars_of_scalar scalar) shapes
      rw [types s List.mem_cons_self] at exported' ⊢
      cases exported.symm.trans exported'
      exact ⟨[s], rfl, rfl⟩
  | math f =>
    cases accepts with
    | @math _ _ s rest symbol' count scalars kind same exported' =>
      obtain ⟨length, types⟩ := Operand.types_of_shapes scalars shapes
      rw [types s List.mem_cons_self, NumType.mathType_of_isFloat accepted] at exported' ⊢
      cases exported.symm.trans exported'
      exact ⟨s :: rest, rfl, length⟩
  | helper f =>
    cases accepts with
    | @helper _ o s symbol' scalar exported' =>
      obtain ⟨_, types⟩ := Operand.types_of_shapes (Operand.scalars_of_scalar scalar) shapes
      rw [types s List.mem_cons_self, NumType.helperType_of_numeric accepted] at exported' ⊢
      cases exported.symm.trans exported'
      exact ⟨[s], rfl, rfl⟩

end Routine

/-- A plan for a routine ends in the call of it, on arguments of one type. -/
theorem Plan.call_emit {k : Kernel} {symbol : String} {args : List ScalarOperand}
    {argType resultType : NumType} (fits : (call symbol args argType resultType).Fits k) :
    ∃ id k' ids template, (call symbol args argType resultType).emit.run k = .ok (id, k') ∧
      k.size ≤ id.index ∧
      k'.instruction? id = some ⟨.scalar resultType, .call symbol ids template false⟩ ∧
      ids.map k'.scalarType? = List.replicate args.length (some argType) := by
  obtain ⟨_, _, _, _, inside, _⟩ := fits
  obtain ⟨ids, k₁, runArgs, grows, length, types, _⟩ :=
    ScalarOperand.emitAs_mapM argType inside
  let k₂ := k₁.push (.literal (.int 0) resultType)
  let i : Instruction := ⟨.scalar resultType, .call symbol ids ⟨k₁.size⟩ false⟩
  have continues : k₁.Continues (k₂.push i) :=
    (Kernel.continues_push _).trans (Kernel.continues_push i)
  have late : k.Continues k₂ := grows.continues.trans (Kernel.continues_push _)
  refine ⟨⟨k₂.size⟩, k₂.push i, ids, ⟨k₁.size⟩, ?_, late.size_le, Kernel.instruction?_push i, ?_⟩
  · rw [emit, StateT.run_bind, runArgs, ok_bind, StateT.run_bind, Build.constant_run]
    exact Build.call_run symbol ids false (Kernel.scalarType?_push rfl)
  · rw [← length]
    exact List.map_eq_replicate_iff.mpr fun id member =>
      continues.scalarType?_some (types id member)

/-- In `k`, some call is lowered to an external call of `symbol` on arguments of the given types,
and `type` is recorded for it. -/
def Registry.RecordsCall (r : Registry) (k : Kernel) (symbol : String) (types : List NumType)
    (type : ValueType) : Prop :=
  ∃ key operands result k' id ids template decorated,
    (r.lowerCall key operands).run k = .ok (.ok result, k') ∧ k.instruction? id = none ∧
      k'.instruction? id = some ⟨type, .call symbol ids template decorated⟩ ∧
      ids.map k'.scalarType? = types.map some

namespace Routine

variable {r : Routine} {t : NumType} {symbol : String}

/-- Every routine is reached by some call, at each of its types. -/
theorem recordsCall (accepted : r.accepts t = true) (exported : r.symbol? t = some symbol) :
    Registry.standard.RecordsCall (Kernel.empty.addParam (.scalar t)) symbol
      (List.replicate r.arity t) (.scalar (r.result t)) := by
  let k := Kernel.empty.addParam (.scalar t)
  let operands := List.replicate r.arity (Operand.value ⟨0⟩)
  have shapes : operands.map (·.shape k) = List.replicate r.arity (.scalar t) :=
    List.map_replicate
  have signature := signature_of_accepts accepted
  rw [← shapes] at signature
  obtain ⟨plan, planned, _⟩ := Handler.plan_of_signature signature
  have accepts := Handler.accepts_of_plan planned
  obtain ⟨scalars, rfl, count⟩ := plan_of_accepts accepted exported shapes accepts
  obtain ⟨id, k', ids, template, run, late, recorded, types⟩ := Plan.call_emit accepts.fits
  have lowered : (r.handler.lower operands).run k = .ok (.ok id, k') := by
    rw [Handler.lower_of_ok planned, run]
    rfl
  refine ⟨.name r.key, operands, id, k', id, ids, template, false, ?_,
    Kernel.instruction?_eq_none_iff.mpr late, recorded, ?_⟩
  · exact Registry.lowerCall_ok_iff.mpr ⟨r.key, r.handler, r.standard_resolves, lowered⟩
  · rw [types, count, List.map_replicate]

end Routine

namespace Registry

variable {r : Registry} {k : Kernel} {symbol : String} {types : List NumType} {type : ValueType}

/-- Lowering emits the symbols of routines only. -/
theorem RecordsCall.routine (records : r.RecordsCall k symbol types type) :
    ∃ (routine : Routine) (t : NumType), routine.accepts t = true ∧
      routine.symbol? t = some symbol ∧ types = List.replicate routine.arity t ∧
      type = .scalar (routine.result t) := by
  obtain ⟨key, operands, result, k', id, ids, template, decorated, lowered, new, recorded, known⟩ :=
    records
  have typed := (lowerCall_grows lowered).typed id _ (Kernel.instruction?_eq_none_iff.mp new) recorded
  cases typed with
  | @call routine t _ _ _ _ accepted exported count arguments before constant =>
    refine ⟨routine, t, accepted, exported, ?_, rfl⟩
    have each : ids.map k'.scalarType? = List.replicate ids.length (some t) :=
      List.map_eq_replicate_iff.mpr fun id member => (arguments id member).2
    rw [known, count, ← List.map_replicate] at each
    exact List.map_injective_iff.mpr (Option.some_injective NumType) each

end Registry

namespace MathRoutine

/-- The library and lowering share one table of symbols. The library answers to a symbol on
arguments exactly if some call is lowered to an external call of that symbol on arguments of these
types, the error function apart, and it returns a value of the type that is recorded for the call;
otherwise the symbol is unknown. -/
theorem call?_iff_recordsCall (symbol : String) (args : List Value) :
    ((∃ v, call? symbol args = some v) ↔
      (∃ k type, k.Reachable ∧
        Registry.standard.RecordsCall k symbol (args.map (·.type)) type) ∧
      symbol ≠ "erf" ∧ symbol ≠ "erff") ∧
    (∀ k type, Registry.standard.RecordsCall k symbol (args.map (·.type)) type →
      symbol ≠ "erf" → symbol ≠ "erff" →
        ∃ v, call? symbol args = some v ∧ type = .scalar v.type) ∧
    (call? symbol args = none →
      ∀ t, call symbol args t = .error (.unknownSymbol symbol args.length)) := by
  have answers : ∀ k type, Registry.standard.RecordsCall k symbol (args.map (·.type)) type →
      symbol ≠ "erf" → symbol ≠ "erff" →
        ∃ v, call? symbol args = some v ∧ type = .scalar v.type := by
    intro k type records double single
    obtain ⟨r, t, accepted, exported, types, rfl⟩ := records.routine
    obtain ⟨v, answer, result⟩ := call?_of_routine accepted exported types double single
    exact ⟨v, answer, by rw [result]⟩
  refine ⟨⟨?_, ?_⟩, answers, ?_⟩
  · rintro ⟨v, called⟩
    obtain ⟨r, t, present, accepted, exported, types⟩ := routine_of_call? called
    refine ⟨⟨Kernel.empty.addParam (.scalar t), .scalar (r.result t), ?_, ?_⟩,
      Routine.symbol_ne_erf present exported⟩
    · exact .param .empty (Build.newParam_run (.scalar t) .empty)
    · rw [types]
      exact Routine.recordsCall accepted exported
  · rintro ⟨⟨k, type, _, records⟩, double, single⟩
    obtain ⟨v, answer, _⟩ := answers k type records double single
    exact ⟨v, answer⟩
  · intro absent t
    rw [call, absent]

end MathRoutine

end ScalarLowering
