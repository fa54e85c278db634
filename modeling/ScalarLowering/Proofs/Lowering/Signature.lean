import ScalarLowering.Proofs.Lowering.Acceptance
import ScalarLowering.Proofs.NumType.Promotion

set_option autoImplicit false

/- The signatures of the handlers: which operands each of them takes, the type of
the result, and the reason that is given for all other operands. What an operand
is for this purpose, its shape, is its scalar type or else its length. -/

namespace ScalarLowering

/-- What a handler checks of an operand: a scalar has a type, and of all others only a length can be
known. -/
inductive Shape where
  | scalar (type : NumType)
  | sized (length : Option Nat)
deriving DecidableEq, Repr

/-- What is wrong with an operand where a scalar of type `t` is needed. -/
def Shape.mismatch (t : NumType) (index : Nat) : Shape → Decline
  | .scalar s => .typeMismatch index t s
  | .sized _ => .operandKind index

/-- A value that is not defined is like an array of unknown length. -/
def Operand.shape (k : Kernel) : Operand → Shape
  | .literal l => .scalar l.type
  | .tuple items => .sized (some items.length)
  | .value id =>
    match k.typeOf? id with
    | some (.scalar t) => .scalar t
    | some (.array _ length) => .sized (length.map (·.toNat))
    | none => .sized none

namespace Handler

/-- The number of operands, where only one is allowed. -/
def arity? : Handler → Option Nat
  | .extremum _ => none
  | .math f => some f.arity
  | .cast _ | .len | .abs | .helper _ => some 1

/-- The operands that a handler accepts, and the type of the result. -/
inductive Signature : Handler → List Shape → NumType → Prop
  | cast (s t : NumType) : Signature (.cast t) [.scalar s] t
  | len {n : Nat} (fits : (n : Int) ≤ Int64.maxValue.toInt) :
    Signature .len [.sized (some n)] .int64
  | extremum {which : Extremum} {types : List NumType} {t : NumType} (two : 2 ≤ types.length)
    (real : ∀ s ∈ types, s.isComplex = false) (common : broadcastType (types.map .typed) = some t) :
    Signature (.extremum which) (types.map .scalar) t
  | abs {t : NumType} (number : t ≠ .bool) : Signature .abs [.scalar t] t.realType
  | math {f : MathFunction} {t : NumType} (kind : (t.isInt || t.isFloat) = true) :
    Signature (.math f) (List.replicate f.arity (.scalar t)) t.mathType
  | helper {f : HelperFunction} {t : NumType} (number : t ≠ .bool) :
    Signature (.helper f) [.scalar t] t.helperType

/-- The first requirement that operands do not meet. The number of operands comes first; an extremum
then looks at the kind of all operands before it looks at their types, and a math function looks at
both from one operand to the next. -/
inductive Refuses : Handler → List Shape → Decline → Prop
  | arity {h : Handler} {n : Nat} {shapes : List Shape} (fixed : h.arity? = some n)
    (wrong : shapes.length ≠ n) : Refuses h shapes (.arity n shapes.length)
  | noLength {shape : Shape}
    (unknown : ∀ n : Nat, (n : Int) ≤ Int64.maxValue.toInt → shape ≠ .sized (some n)) :
    Refuses .len [shape] .noStaticLength
  | firstKind {h : Handler} {length : Option Nat} {rest : List Shape} (scalars : h ≠ .len)
    (count : h.arity? = some (rest.length + 1)) :
    Refuses h (.sized length :: rest) (.operandKind 0)
  | absType : Refuses .abs [.scalar .bool] (.operandType 0 .bool)
  | helperType {f : HelperFunction} : Refuses (.helper f) [.scalar .bool] (.operandType 0 .bool)
  | mathType {f : MathFunction} {t : NumType} {rest : List Shape}
    (count : rest.length + 1 = f.arity) (kind : (t.isInt || t.isFloat) = false) :
    Refuses (.math f) (.scalar t :: rest) (.operandType 0 t)
  | mathLater {f : MathFunction} {t : NumType} {same : Nat} {other : Shape} {rest : List Shape}
    (count : same + 1 + (rest.length + 1) = f.arity) (kind : (t.isInt || t.isFloat) = true)
    (differs : other ≠ .scalar t) :
    Refuses (.math f) (List.replicate (same + 1) (.scalar t) ++ other :: rest)
      (other.mismatch t (same + 1))
  | minArity {which : Extremum} {shapes : List Shape} (few : shapes.length < 2) :
    Refuses (.extremum which) shapes (.minArity 2 shapes.length)
  | extremumKind {which : Extremum} {types : List NumType} {length : Option Nat}
    {rest : List Shape} (two : 2 ≤ types.length + (rest.length + 1)) :
    Refuses (.extremum which) (types.map .scalar ++ .sized length :: rest)
      (.operandKind types.length)
  | extremumType {which : Extremum} {before after : List NumType} {t : NumType}
    (two : 2 ≤ before.length + (after.length + 1)) (real : ∀ s ∈ before, s.isComplex = false)
    (complex : t.isComplex = true) :
    Refuses (.extremum which) ((before ++ t :: after).map .scalar) (.operandType before.length t)

end Handler

namespace Operand

variable {k : Kernel} {o : Operand}

/-- An operand is a scalar of its shape's type, or no scalar and of its shape's length. -/
theorem shape_cases (k : Kernel) (o : Operand) :
    (∃ s, o.scalar? k = some s ∧ o.length? k = none ∧ o.shape k = .scalar s.type) ∨
      (o.scalar? k = none ∧ o.shape k = .sized (o.length? k)) := by
  cases o with
  | literal l => cases l <;> exact Or.inl ⟨_, rfl, rfl, rfl⟩
  | tuple items => exact Or.inr ⟨rfl, rfl⟩
  | value id =>
    simp only [scalar?, length?, shape, Kernel.scalarType?, Kernel.staticLength?]
    cases k.typeOf? id with
    | none => exact Or.inr ⟨rfl, rfl⟩
    | some type =>
      cases type with
      | scalar t => exact Or.inl ⟨.value id t, rfl, rfl, rfl⟩
      | array elem length => exact Or.inr ⟨rfl, rfl⟩

theorem scalar?_of_shape {t : NumType} (shape : o.shape k = .scalar t) :
    ∃ s, o.scalar? k = some s ∧ s.type = t := by
  rcases shape_cases k o with ⟨s, scalar, _, found⟩ | ⟨_, found⟩
  · rw [shape] at found
    cases found
    exact ⟨s, scalar, rfl⟩
  · rw [shape] at found
    cases found

theorem of_sized {length : Option Nat} (shape : o.shape k = .sized length) :
    o.scalar? k = none ∧ o.length? k = length := by
  rcases shape_cases k o with ⟨s, _, _, found⟩ | ⟨absent, found⟩
  · rw [shape] at found
    cases found
  · rw [shape] at found
    cases found
    exact ⟨absent, rfl⟩

theorem only_of_length {args : List Operand} (wrong : args.length ≠ 1) :
    only args = .error (.arity 1 args.length) := by
  match args with
  | [] => rfl
  | [_] => exact absurd rfl wrong
  | _ :: _ :: _ => rfl

theorem scalarAt_of_shape {t : NumType} (shape : o.shape k = .scalar t) (index : Nat) :
    ∃ s, o.scalarAt k index = .ok s ∧ s.type = t := by
  obtain ⟨s, scalar, type⟩ := scalar?_of_shape shape
  exact ⟨s, scalarAt_of_scalar? scalar index, type⟩

theorem scalarAt_of_sized {length : Option Nat} (shape : o.shape k = .sized length)
    (index : Nat) : o.scalarAt k index = .error (.operandKind index) := by
  rw [scalarAt, (of_sized shape).1]

theorem scalarsFrom_of_shapes {args : List Operand} {types : List NumType}
    (shapes : args.map (·.shape k) = types.map .scalar) (index : Nat) :
    ∃ operands, scalarsFrom k index args = .ok operands ∧ operands.map (·.type) = types := by
  induction args generalizing types index with
  | nil =>
    obtain rfl := List.map_eq_nil_iff.mp shapes.symm
    exact ⟨[], rfl, rfl⟩
  | cons o rest ih =>
    cases types with
    | nil => cases shapes
    | cons t others =>
      obtain ⟨first, later⟩ := List.cons.inj shapes
      obtain ⟨s, scalar, type⟩ := scalarAt_of_shape first index
      obtain ⟨operands, found, types⟩ := ih later (index + 1)
      refine ⟨s :: operands, ?_, ?_⟩
      · simp [scalarsFrom, scalar, found]
      · rw [List.map_cons, type, types]

theorem scalarsFrom_of_sized {args : List Operand} {types : List NumType} {length : Option Nat}
    {rest : List Shape} (shapes : args.map (·.shape k) = types.map .scalar ++ .sized length :: rest)
    (index : Nat) :
    scalarsFrom k index args = .error (.operandKind (index + types.length)) := by
  induction types generalizing args index with
  | nil =>
    obtain ⟨o, others, rfl, first, _⟩ := List.map_eq_cons_iff.mp shapes
    simp [scalarsFrom, scalarAt_of_sized first]
  | cons t types ih =>
    obtain ⟨o, others, rfl, first, later⟩ := List.map_eq_cons_iff.mp shapes
    obtain ⟨s, scalar, _⟩ := scalarAt_of_shape first index
    have failed := ih later (index + 1)
    have position : index + 1 + types.length = index + (types.length + 1) := by omega
    simp [scalarsFrom, scalar, failed, position]

end Operand

namespace Plan

variable {k : Kernel} {args : List Operand}

theorem sameTypeFrom_of_shapes {t : NumType} {count : Nat}
    (shapes : args.map (·.shape k) = List.replicate count (.scalar t)) (index : Nat) :
    ∃ operands, sameTypeFrom k t index args = .ok operands := by
  induction count generalizing args index with
  | zero =>
    obtain rfl := List.map_eq_nil_iff.mp shapes
    exact ⟨[], rfl⟩
  | succ count ih =>
    rw [List.replicate_succ] at shapes
    obtain ⟨o, others, rfl, first, later⟩ := List.map_eq_cons_iff.mp shapes
    obtain ⟨s, scalar, type⟩ := Operand.scalarAt_of_shape first index
    obtain ⟨operands, found⟩ := ih later (index + 1)
    exact ⟨s :: operands, by simp [sameTypeFrom, scalar, type, found]⟩

/-- Behind operands of the right type, the first other one decides. -/
theorem sameTypeFrom_of_other {t : NumType} {count : Nat} {other : Shape} {rest : List Shape}
    (shapes : args.map (·.shape k) = List.replicate count (.scalar t) ++ other :: rest)
    (differs : other ≠ .scalar t) (index : Nat) :
    sameTypeFrom k t index args = .error (other.mismatch t (index + count)) := by
  induction count generalizing args index with
  | zero =>
    obtain ⟨o, others, rfl, first, _⟩ := List.map_eq_cons_iff.mp shapes
    cases other with
    | sized length => simp [sameTypeFrom, Operand.scalarAt_of_sized first, Shape.mismatch]
    | scalar s =>
      obtain ⟨found, scalar, rfl⟩ := Operand.scalarAt_of_shape first index
      have unequal : found.type ≠ t := fun same => differs (congrArg Shape.scalar same)
      simp [sameTypeFrom, scalar, unequal, Shape.mismatch]
  | succ count ih =>
    rw [List.replicate_succ, List.cons_append] at shapes
    obtain ⟨o, others, rfl, first, later⟩ := List.map_eq_cons_iff.mp shapes
    obtain ⟨s, scalar, type⟩ := Operand.scalarAt_of_shape first index
    have failed := ih later (index + 1)
    have position : index + 1 + count = index + (count + 1) := by omega
    simp only [sameTypeFrom, scalar, ok_bind, type, if_true, failed, error_bind, position]

theorem firstComplex?_of_real {operands : List ScalarOperand}
    (real : ∀ s ∈ operands, s.type.isComplex = false) (start : Nat) :
    ((operands.zipIdx start).find? fun (o, _) => o.type.isComplex) = none := by
  rw [List.find?_eq_none]
  intro numbered member
  have ordinary := real numbered.1 (List.fst_mem_of_mem_zipIdx member)
  simp [ordinary]

theorem firstComplex?_of_types {operands : List ScalarOperand} {before after : List NumType}
    {t : NumType} (types : operands.map (·.type) = before ++ t :: after)
    (real : ∀ s ∈ before, s.isComplex = false) (complex : t.isComplex = true) :
    ∃ o, firstComplex? operands = some (o, before.length) ∧ o.type = t := by
  obtain ⟨earlier, others, rfl, rfl, later⟩ := List.map_eq_append_iff.mp types
  obtain ⟨o, rest, rfl, rfl, _⟩ := List.map_eq_cons_iff.mp later
  refine ⟨o, ?_, rfl⟩
  have none := firstComplex?_of_real
    (fun s member => real s.type (List.mem_map_of_mem member)) 0
  rw [firstComplex?, List.zipIdx_append, List.find?_append, none]
  simp [List.zipIdx_cons, complex]

/-- Floating and complex arguments have a routine, whatever its name. -/
theorem routine_of_numeric {argType : NumType}
    (numeric : (argType.isFloat || argType.isComplex) = true) (name : String) (realMark : Bool)
    (operands : List ScalarOperand) (resultType declined : NumType) :
    ∃ symbol, routine name realMark operands argType resultType declined =
      .ok (.call symbol operands argType resultType) := by
  cases argType with
  | bool => cases numeric
  | int s w => cases numeric
  | float p => exact ⟨_, rfl⟩
  | complex p => exact ⟨_, rfl⟩

end Plan

theorem NumType.numeric_helperType {t : NumType} (number : t ≠ .bool) :
    (t.helperType.isFloat || t.helperType.isComplex) = true := by
  cases t with
  | bool => exact absurd rfl number
  | int s w => rfl
  | float p => rfl
  | complex p => rfl

namespace Handler

variable {k : Kernel} {args : List Operand} {t : NumType}

theorem plan_of_cast {s : NumType} (shapes : args.map (·.shape k) = [.scalar s]) (t : NumType) :
    ∃ plan, (Handler.cast t).plan k args = .ok plan ∧ plan.type = t := by
  obtain ⟨o, rfl, shape⟩ := List.map_eq_singleton_iff.mp shapes
  obtain ⟨found, scalar, _⟩ := Operand.scalarAt_of_shape shape 0
  exact ⟨.cast found t, by simp [plan, Plan.ofCast, Operand.only, scalar], rfl⟩

theorem plan_of_len {n : Nat} (shapes : args.map (·.shape k) = [.sized (some n)])
    (fits : (n : Int) ≤ Int64.maxValue.toInt) :
    ∃ plan, Handler.len.plan k args = .ok plan ∧ plan.type = .int64 := by
  obtain ⟨o, rfl, shape⟩ := List.map_eq_singleton_iff.mp shapes
  have length := (Operand.of_sized shape).2
  exact ⟨.length (Int64.ofNat n), by simp [plan, Plan.ofLen, Operand.only, length, fits], rfl⟩

theorem plan_of_extremum {types : List NumType} (which : Extremum)
    (shapes : args.map (·.shape k) = types.map .scalar) (two : 2 ≤ types.length)
    (real : ∀ s ∈ types, s.isComplex = false)
    (common : broadcastType (types.map .typed) = some t) :
    ∃ plan, (Handler.extremum which).plan k args = .ok plan ∧ plan.type = t := by
  obtain ⟨operands, found, rfl⟩ := Operand.scalarsFrom_of_shapes shapes 0
  have count : args.length = operands.length := by simpa using congrArg List.length shapes
  rw [List.length_map] at two
  have enough : ¬ args.length < 2 := by omega
  have none := Plan.firstComplex?_of_real
    (fun s member => real s.type (List.mem_map_of_mem member)) 0
  rcases List.eq_nil_or_concat' operands with rfl | ⟨earlier, last, rfl⟩
  · rw [List.length_nil] at two
    omega
  · refine ⟨.extremum which earlier last, ?_, ?_⟩
    · simp [plan, Plan.ofExtremum, enough, found, Plan.firstComplex?, none]
    · rw [List.map_append, List.map_singleton, broadcastType_typed_concat] at common
      exact Option.some.inj common

theorem plan_of_abs (shapes : args.map (·.shape k) = [.scalar t]) (number : t ≠ .bool) :
    ∃ plan, Handler.abs.plan k args = .ok plan ∧ plan.type = t.realType := by
  obtain ⟨o, rfl, shape⟩ := List.map_eq_singleton_iff.mp shapes
  obtain ⟨found, scalar, rfl⟩ := Operand.scalarAt_of_shape shape 0
  by_cases int : found.type.isInt = true
  · refine ⟨.integerAbs found, by simp [plan, Plan.ofAbs, Operand.only, scalar, int], ?_⟩
    cases type : found.type with
    | int s w => exact type
    | _ =>
      rw [type] at int
      cases int
  · have numeric : (found.type.isFloat || found.type.isComplex) = true := by
      cases type : found.type with
      | bool => exact absurd type number
      | int s w =>
        rw [type] at int
        exact absurd rfl int
      | float p => rfl
      | complex p => rfl
    obtain ⟨symbol, routine⟩ := Plan.routine_of_numeric numeric Builtin.abs.name true [found]
      found.type.realType found.type
    refine ⟨.call symbol [found] found.type found.type.realType, ?_, rfl⟩
    simp [plan, Plan.ofAbs, Operand.only, scalar, int, routine]

theorem plan_of_math {f : MathFunction}
    (shapes : args.map (·.shape k) = List.replicate f.arity (.scalar t))
    (kind : (t.isInt || t.isFloat) = true) :
    ∃ plan, (Handler.math f).plan k args = .ok plan ∧ plan.type = t.mathType := by
  have count : args.length = f.arity := by simpa using congrArg List.length shapes
  obtain ⟨others, positive⟩ : ∃ n, f.arity = n + 1 := by cases f <;> exact ⟨_, rfl⟩
  rw [positive, List.replicate_succ] at shapes
  obtain ⟨o, rest, rfl, first, later⟩ := List.map_eq_cons_iff.mp shapes
  obtain ⟨found, scalar, rfl⟩ := Operand.scalarAt_of_shape first 0
  obtain ⟨operands, same⟩ := Plan.sameTypeFrom_of_shapes later 1
  have numeric : (found.type.mathType.isFloat || found.type.mathType.isComplex) = true := by
    rw [NumType.isFloat_mathType]
    rfl
  obtain ⟨symbol, routine⟩ := Plan.routine_of_numeric numeric f.name false (found :: operands)
    found.type.mathType found.type
  refine ⟨.call symbol (found :: operands) found.type.mathType found.type.mathType, ?_, rfl⟩
  rw [← routine]
  simp only [plan, Plan.ofMath, count, ne_eq, not_true, if_false, scalar, ok_bind, kind, if_true,
    same, NumType.mathType]

theorem plan_of_helper (f : HelperFunction) (shapes : args.map (·.shape k) = [.scalar t])
    (number : t ≠ .bool) :
    ∃ plan, (Handler.helper f).plan k args = .ok plan ∧ plan.type = t.helperType := by
  obtain ⟨o, rfl, shape⟩ := List.map_eq_singleton_iff.mp shapes
  obtain ⟨found, scalar, rfl⟩ := Operand.scalarAt_of_shape shape 0
  obtain ⟨symbol, routine⟩ := Plan.routine_of_numeric (NumType.numeric_helperType number) f.name
    false [found] found.type.helperType found.type
  refine ⟨.call symbol [found] found.type.helperType found.type.helperType, ?_, rfl⟩
  rw [← routine]
  simp [plan, Plan.ofHelper, Operand.only, scalar, NumType.helperType]

theorem plan_of_signature {h : Handler} (signature : h.Signature (args.map (·.shape k)) t) :
    ∃ plan, h.plan k args = .ok plan ∧ plan.type = t := by
  generalize found : args.map (·.shape k) = shapes at signature
  cases signature with
  | cast s t => exact plan_of_cast found t
  | len fits => exact plan_of_len found fits
  | extremum two real common => exact plan_of_extremum _ found two real common
  | abs number => exact plan_of_abs found number
  | math kind => exact plan_of_math found kind
  | helper number => exact plan_of_helper _ found number

variable {reason : Decline}

theorem plan_of_arity {h : Handler} {n : Nat} (fixed : h.arity? = some n)
    (wrong : args.length ≠ n) : h.plan k args = .error (.arity n args.length) := by
  cases h with
  | extremum which => cases fixed
  | math f =>
    cases fixed
    simp [plan, Plan.ofMath, wrong]
  | cast t =>
    cases fixed
    simp [plan, Plan.ofCast, Operand.only_of_length wrong]
  | len =>
    cases fixed
    simp [plan, Plan.ofLen, Operand.only_of_length wrong]
  | abs =>
    cases fixed
    simp [plan, Plan.ofAbs, Operand.only_of_length wrong]
  | helper f =>
    cases fixed
    simp [plan, Plan.ofHelper, Operand.only_of_length wrong]

theorem plan_of_firstKind {h : Handler} {length : Option Nat} {rest : List Shape}
    (scalars : h ≠ .len) (count : h.arity? = some (rest.length + 1))
    (shapes : args.map (·.shape k) = .sized length :: rest) :
    h.plan k args = .error (.operandKind 0) := by
  obtain ⟨o, others, rfl, first, later⟩ := List.map_eq_cons_iff.mp shapes
  have failed := Operand.scalarAt_of_sized first 0
  have total : h.arity? = some (others.length + 1) := by rw [count, ← later, List.length_map]
  cases h with
  | extremum which => cases total
  | len => exact absurd rfl scalars
  | math f =>
    have exact : others.length + 1 = f.arity := (Option.some.inj total).symm
    simp [plan, Plan.ofMath, exact, failed]
  | _ =>
    obtain rfl : others = [] := List.eq_nil_of_length_eq_zero (by simpa [arity?] using total)
    simp [plan, Plan.ofCast, Plan.ofAbs, Plan.ofHelper, Operand.only, failed]

theorem plan_of_noLength
    (unknown : ∀ n : Nat, (n : Int) ≤ Int64.maxValue.toInt →
      args.map (·.shape k) ≠ [.sized (some n)])
    (single : args.length = 1) : Handler.len.plan k args = .error .noStaticLength := by
  obtain ⟨o, rfl⟩ := List.length_eq_one_iff.mp single
  have large : ∀ n : Nat, o.length? k = some n → ¬ (n : Int) ≤ Int64.maxValue.toInt := by
    intro n known fits
    apply unknown n fits
    rcases Operand.shape_cases k o with ⟨s, _, none, _⟩ | ⟨_, shape⟩
    · rw [none] at known
      cases known
    · rw [List.map_singleton, shape, known]
  cases known : o.length? k with
  | none => simp [plan, Plan.ofLen, Operand.only, known]
  | some n => simp [plan, Plan.ofLen, Operand.only, known, large n known]

theorem plan_of_mathType {f : MathFunction} {rest : List Shape}
    (shapes : args.map (·.shape k) = .scalar t :: rest) (count : rest.length + 1 = f.arity)
    (kind : (t.isInt || t.isFloat) = false) :
    (Handler.math f).plan k args = .error (.operandType 0 t) := by
  obtain ⟨o, others, rfl, first, rfl⟩ := List.map_eq_cons_iff.mp shapes
  obtain ⟨found, scalar, rfl⟩ := Operand.scalarAt_of_shape first 0
  have exact : (o :: others).length = f.arity := by rw [← count, List.length_map, List.length_cons]
  simp only [plan, Plan.ofMath, exact, ne_eq, not_true, if_false, scalar, ok_bind, kind,
    Bool.false_eq_true, throw_eq_error, error_bind]

theorem plan_of_mathLater {f : MathFunction} {same : Nat} {other : Shape} {rest : List Shape}
    (shapes : args.map (·.shape k) = List.replicate (same + 1) (.scalar t) ++ other :: rest)
    (count : same + 1 + (rest.length + 1) = f.arity) (kind : (t.isInt || t.isFloat) = true)
    (differs : other ≠ .scalar t) :
    (Handler.math f).plan k args = .error (other.mismatch t (same + 1)) := by
  have exact : args.length = f.arity := by simpa [count] using congrArg List.length shapes
  rw [List.replicate_succ, List.cons_append] at shapes
  obtain ⟨o, others, rfl, first, later⟩ := List.map_eq_cons_iff.mp shapes
  obtain ⟨found, scalar, rfl⟩ := Operand.scalarAt_of_shape first 0
  have failed := Plan.sameTypeFrom_of_other later differs 1
  simp only [plan, Plan.ofMath, exact, ne_eq, not_true, if_false, scalar, ok_bind, kind, if_true,
    failed, error_bind, Nat.add_comm 1 same]

theorem plan_of_extremumKind (which : Extremum) {types : List NumType} {length : Option Nat}
    {rest : List Shape}
    (shapes : args.map (·.shape k) = types.map .scalar ++ .sized length :: rest)
    (two : 2 ≤ types.length + (rest.length + 1)) :
    (Handler.extremum which).plan k args = .error (.operandKind types.length) := by
  have count : args.length = types.length + (rest.length + 1) := by
    simpa using congrArg List.length shapes
  have enough : ¬ args.length < 2 := by omega
  have failed := Operand.scalarsFrom_of_sized shapes 0
  simp [plan, Plan.ofExtremum, enough, failed]

theorem plan_of_extremumType (which : Extremum) {before after : List NumType}
    (shapes : args.map (·.shape k) = (before ++ t :: after).map .scalar)
    (two : 2 ≤ before.length + (after.length + 1)) (real : ∀ s ∈ before, s.isComplex = false)
    (complex : t.isComplex = true) :
    (Handler.extremum which).plan k args = .error (.operandType before.length t) := by
  have count : args.length = before.length + (after.length + 1) := by
    simpa using congrArg List.length shapes
  have enough : ¬ args.length < 2 := by omega
  obtain ⟨operands, found, types⟩ := Operand.scalarsFrom_of_shapes shapes 0
  obtain ⟨o, first, rfl⟩ := Plan.firstComplex?_of_types types real complex
  simp [plan, Plan.ofExtremum, enough, found, first]

theorem plan_of_refuses {h : Handler} (refuses : h.Refuses (args.map (·.shape k)) reason) :
    h.plan k args = .error reason := by
  generalize found : args.map (·.shape k) = shapes at refuses
  have length : shapes.length = args.length := by rw [← found, List.length_map]
  cases refuses with
  | arity fixed wrong =>
    rw [length] at wrong ⊢
    exact plan_of_arity fixed wrong
  | noLength unknown =>
    refine plan_of_noLength ?_ (by simpa using length.symm)
    rw [found]
    intro n fits same
    exact unknown n fits (List.cons.inj same).1
  | firstKind scalars count => exact plan_of_firstKind scalars count found
  | absType =>
    obtain ⟨o, rfl, shape⟩ := List.map_eq_singleton_iff.mp found
    obtain ⟨s, scalar, type⟩ := Operand.scalarAt_of_shape shape 0
    simp [plan, Plan.ofAbs, Operand.only, scalar, type, NumType.isInt, Plan.routine, mathSymbol?]
  | helperType =>
    obtain ⟨o, rfl, shape⟩ := List.map_eq_singleton_iff.mp found
    obtain ⟨s, scalar, type⟩ := Operand.scalarAt_of_shape shape 0
    simp [plan, Plan.ofHelper, Operand.only, scalar, type, NumType.isInt, Plan.routine,
      mathSymbol?]
  | mathType count kind => exact plan_of_mathType found count kind
  | mathLater count kind differs => exact plan_of_mathLater found count kind differs
  | minArity few =>
    rw [length] at few ⊢
    simp [plan, Plan.ofExtremum, few]
  | extremumKind two => exact plan_of_extremumKind _ found two
  | extremumType two real complex => exact plan_of_extremumType _ found two real complex

end Handler

/-- Either no item has the property, or there is a first one. -/
theorem none_or_first {α : Type} (property : α → Bool) (items : List α) :
    (∀ a ∈ items, property a = false) ∨
      ∃ before a after, items = before ++ a :: after ∧ (∀ b ∈ before, property b = false) ∧
        property a = true := by
  cases found : items.find? property with
  | none =>
    have absent := List.find?_eq_none.mp found
    exact Or.inl fun a member => Bool.eq_false_of_not_eq_true (absent a member)
  | some a =>
    obtain ⟨holds, before, after, whole, earlier⟩ := List.find?_eq_some_iff_append.mp found
    exact Or.inr ⟨before, a, after, whole, fun b member => by simpa using earlier b member, holds⟩

namespace Shape

theorem scalars_or_sized (shapes : List Shape) :
    (∃ types : List NumType, shapes = types.map .scalar) ∨
      ∃ (types : List NumType) (length : Option Nat) (rest : List Shape),
        shapes = types.map .scalar ++ .sized length :: rest := by
  induction shapes with
  | nil => exact Or.inl ⟨[], rfl⟩
  | cons shape rest ih =>
    cases shape with
    | sized length => exact Or.inr ⟨[], length, rest, rfl⟩
    | scalar t =>
      rcases ih with ⟨types, rfl⟩ | ⟨types, length, others, rfl⟩
      · exact Or.inl ⟨t :: types, rfl⟩
      · exact Or.inr ⟨t :: types, length, others, rfl⟩

theorem same_or_other (t : NumType) (shapes : List Shape) :
    shapes = List.replicate shapes.length (.scalar t) ∨
      ∃ same other rest, shapes = List.replicate same (.scalar t) ++ other :: rest ∧
        other ≠ .scalar t := by
  rcases none_or_first (fun shape => shape != Shape.scalar t) shapes with
    all | ⟨before, other, rest, rfl, earlier, differs⟩
  · exact Or.inl (List.eq_replicate_of_mem fun shape member => by simpa using all shape member)
  · refine Or.inr ⟨before.length, other, rest, ?_, by simpa using differs⟩
    rw [← List.eq_replicate_of_mem fun shape member => by simpa using earlier shape member]

end Shape

namespace Handler

theorem signature_or_refuses_one {h : Handler} (fixed : h.arity? = some 1) (scalars : h ≠ .len)
    (scalar : ∀ t, (∃ u, h.Signature [.scalar t] u) ∨ ∃ reason, h.Refuses [.scalar t] reason)
    (shapes : List Shape) :
    (∃ t, h.Signature shapes t) ∨ ∃ reason, h.Refuses shapes reason := by
  by_cases single : shapes.length = 1
  · obtain ⟨shape, rfl⟩ := List.length_eq_one_iff.mp single
    cases shape with
    | scalar t => exact scalar t
    | sized length => exact Or.inr ⟨_, .firstKind scalars fixed⟩
  · exact Or.inr ⟨_, .arity fixed single⟩

theorem signature_or_refuses_len (shapes : List Shape) :
    (∃ t, Handler.len.Signature shapes t) ∨ ∃ reason, Handler.len.Refuses shapes reason := by
  by_cases single : shapes.length = 1
  · obtain ⟨shape, rfl⟩ := List.length_eq_one_iff.mp single
    by_cases known : ∃ n : Nat, (n : Int) ≤ Int64.maxValue.toInt ∧ shape = .sized (some n)
    · obtain ⟨n, fits, rfl⟩ := known
      exact Or.inl ⟨_, .len fits⟩
    · refine Or.inr ⟨_, .noLength ?_⟩
      intro n fits same
      exact known ⟨n, fits, same⟩
  · exact Or.inr ⟨_, .arity rfl single⟩

theorem signature_or_refuses_math (f : MathFunction) (shapes : List Shape) :
    (∃ t, (Handler.math f).Signature shapes t) ∨
      ∃ reason, (Handler.math f).Refuses shapes reason := by
  by_cases count : shapes.length = f.arity
  · cases shapes with
    | nil => cases f <;> cases count
    | cons first rest =>
      rw [List.length_cons] at count
      cases first with
      | sized length => exact Or.inr ⟨_, .firstKind nofun (by rw [arity?, count])⟩
      | scalar t =>
        cases kind : t.isInt || t.isFloat with
        | false => exact Or.inr ⟨_, .mathType count kind⟩
        | true =>
          rcases Shape.same_or_other t rest with all | ⟨same, other, behind, rfl, differs⟩
          · have signature := Signature.math (f := f) kind
            rw [← count, List.replicate_succ, ← all] at signature
            exact Or.inl ⟨_, signature⟩
          · have total : same + 1 + (behind.length + 1) = f.arity := by
              rw [← count, List.length_append, List.length_replicate, List.length_cons]
              omega
            exact Or.inr ⟨_, .mathLater total kind differs⟩
  · exact Or.inr ⟨_, .arity rfl count⟩

theorem signature_or_refuses_extremum (which : Extremum) (shapes : List Shape) :
    (∃ t, (Handler.extremum which).Signature shapes t) ∨
      ∃ reason, (Handler.extremum which).Refuses shapes reason := by
  by_cases few : shapes.length < 2
  · exact Or.inr ⟨_, .minArity few⟩
  · have two : 2 ≤ shapes.length := Nat.le_of_not_lt few
    rcases Shape.scalars_or_sized shapes with ⟨types, rfl⟩ | ⟨types, length, rest, rfl⟩
    · rw [List.length_map] at two
      rcases none_or_first NumType.isComplex types with
        real | ⟨before, t, after, rfl, real, complex⟩
      · cases types with
        | nil => cases two
        | cons t rest =>
          exact Or.inl ⟨_, .extremum two real (broadcastType_typed t rest)⟩
      · rw [List.length_append, List.length_cons] at two
        exact Or.inr ⟨_, .extremumType two real complex⟩
    · rw [List.length_append, List.length_map, List.length_cons] at two
      exact Or.inr ⟨_, .extremumKind two⟩

/-- Nothing falls between the signatures and the reasons to decline. -/
theorem signature_or_refuses (h : Handler) (shapes : List Shape) :
    (∃ t, h.Signature shapes t) ∨ ∃ reason, h.Refuses shapes reason := by
  cases h with
  | cast t =>
    refine signature_or_refuses_one (h := .cast t) rfl nofun ?_ shapes
    exact fun s => Or.inl ⟨_, .cast s t⟩
  | len => exact signature_or_refuses_len shapes
  | extremum which => exact signature_or_refuses_extremum which shapes
  | abs =>
    refine signature_or_refuses_one (h := .abs) rfl nofun ?_ shapes
    intro t
    by_cases bool : t = .bool
    · subst bool
      exact Or.inr ⟨_, .absType⟩
    · exact Or.inl ⟨_, .abs bool⟩
  | math f => exact signature_or_refuses_math f shapes
  | helper f =>
    refine signature_or_refuses_one (h := .helper f) rfl nofun ?_ shapes
    intro t
    by_cases bool : t = .bool
    · subst bool
      exact Or.inr ⟨_, .helperType⟩
    · exact Or.inl ⟨_, .helper bool⟩

variable {k k' : Kernel} {h : Handler} {args : List Operand} {t : NumType}

theorem lower_of_signature (signature : h.Signature (args.map (·.shape k)) t) :
    ∃ plan id k', h.Accepts k args plan ∧ (h.lower args).run k = .ok (.ok id, k') ∧
      Recorded k k' (.value id t) (plan.outcome k) := by
  obtain ⟨plan, planned, rfl⟩ := plan_of_signature signature
  have accepts := accepts_of_plan planned
  obtain ⟨id, k', run, recorded⟩ := Plan.emit_records accepts.fits
  refine ⟨plan, id, k', accepts, ?_, recorded⟩
  rw [lower_of_ok planned, run]
  rfl

theorem lower_of_refuses {reason : Decline} (refuses : h.Refuses (args.map (·.shape k)) reason) :
    (h.lower args).run k = .ok (.error reason, k) :=
  lower_of_error (plan_of_refuses refuses)

theorem signature_of_lower {id : ValueId} (lowered : (h.lower args).run k = .ok (.ok id, k')) :
    ∃ t, h.Signature (args.map (·.shape k)) t ∧ k'.scalarType? id = some t := by
  rcases h.signature_or_refuses (args.map (·.shape k)) with ⟨t, signature⟩ | ⟨reason, refuses⟩
  · obtain ⟨plan, id', grown, _, run, recorded⟩ := lower_of_signature signature
    cases lowered.symm.trans run
    exact ⟨t, signature, recorded.inside⟩
  · cases lowered.symm.trans (lower_of_refuses refuses)

theorem refuses_of_lower {reason : Decline}
    (declined : (h.lower args).run k = .ok (.error reason, k')) :
    h.Refuses (args.map (·.shape k)) reason := by
  rcases h.signature_or_refuses (args.map (·.shape k)) with ⟨t, signature⟩ | ⟨other, refuses⟩
  · obtain ⟨plan, id, grown, _, run, _⟩ := lower_of_signature signature
    cases declined.symm.trans run
  · cases declined.symm.trans (lower_of_refuses refuses)
    exact refuses

/-- A call is lowered exactly where the shapes of its operands are in the signature of the handler,
to a result of the type that the signature gives, and all other calls are declined for the first
requirement that is not met, in the kernel as it was. -/
theorem lower_iff_signature (h : Handler) (k : Kernel) (args : List Operand) :
    ((∃ id k', (h.lower args).run k = .ok (.ok id, k')) ↔
      ∃ t, h.Signature (args.map (·.shape k)) t) ∧
    (∀ id k' t, (h.lower args).run k = .ok (.ok id, k') →
      (k'.scalarType? id = some t ↔ h.Signature (args.map (·.shape k)) t)) ∧
    (∀ reason, (h.lower args).run k = .ok (.error reason, k) ↔
      h.Refuses (args.map (·.shape k)) reason) := by
  refine ⟨⟨?_, ?_⟩, ?_, ?_⟩
  · rintro ⟨id, k', lowered⟩
    obtain ⟨t, signature, _⟩ := signature_of_lower lowered
    exact ⟨t, signature⟩
  · rintro ⟨t, signature⟩
    obtain ⟨plan, id, k', _, run, _⟩ := lower_of_signature signature
    exact ⟨id, k', run⟩
  · intro id k' t lowered
    constructor
    · intro typed
      obtain ⟨s, signature, found⟩ := signature_of_lower lowered
      cases typed.symm.trans found
      exact signature
    · intro signature
      obtain ⟨plan, id', grown, _, run, recorded⟩ := lower_of_signature signature
      cases lowered.symm.trans run
      exact recorded.inside
  · intro reason
    exact ⟨refuses_of_lower, lower_of_refuses⟩

end Handler

end ScalarLowering
