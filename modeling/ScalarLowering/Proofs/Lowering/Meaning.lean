import ScalarLowering.Proofs.Lowering.Acceptance

set_option autoImplicit false

/- What calls mean, told by the values of their operands and without a kernel, and
that plans have this meaning. -/

namespace ScalarLowering

/-- What an operand stands for: a scalar, or something that only a length can be asked of. -/
inductive Meaning where
  | scalar (outcome : Except EvalError Value)
  | sized (length : Option Nat)

def Meaning.outcome? : Meaning → Option (Except EvalError Value)
  | .scalar outcome => some outcome
  | .sized _ => none

namespace Handler

/-- A call on scalars that have values. The extremum of many values is taken from the right. -/
def onValues? : Handler → List Value → Option (Except EvalError Value)
  | .cast t, [v] => some (.ok (v.cast t))
  | .extremum which, vs =>
    vs.getLast?.map fun last => .ok (vs.dropLast.foldr (·.choose which ·) last)
  | .abs, [v] => v.magnitude?.map .ok
  | .math f, v :: vs => f.meaning? ((v :: vs).map (·.cast v.type.mathType))
  | .helper f, [v] => (f.meaning? (v.cast v.type.helperType)).map .ok
  | _, _ => none

/-- The value of a call. Scalar operands are computed from left to right, and the first one that
fails decides. -/
def meaning? (h : Handler) (args : List Meaning) : Option (Except EvalError Value) :=
  match h, args with
  | .len, [.sized (some n)] => some (.ok (.int .signed .w64 (BitVec.ofNat 64 n)))
  | .len, _ => none
  | h, args => do
    let outcomes ← args.mapM (·.outcome?)
    match outcomes.mapM id with
    | .error e => return .error e
    | .ok vs => h.onValues? vs

end Handler

namespace Operand

/-- What an operand stands for in a kernel. -/
def meaning (k : Kernel) (bound : Nat → Option Value) : Operand → Meaning
  | .literal l => .scalar (.ok (.ofLiteral l))
  | .tuple items => .sized (some items.length)
  | .value id =>
    match k.typeOf? id with
    | some (.array _ length) => .sized (length.map (·.toNat))
    | _ => .scalar (k.demand bound id)

variable {k : Kernel} {bound : Nat → Option Value}

theorem meaning_of_scalar {o : Operand} {s : ScalarOperand} (scalar : o.scalar? k = some s) :
    o.meaning k bound = .scalar (s.outcome k bound) := by
  cases o with
  | literal l =>
    cases scalar
    rfl
  | tuple items => cases scalar
  | value id =>
    obtain ⟨t, type, rfl⟩ := Option.map_eq_some_iff.mp scalar
    rw [meaning, Kernel.typeOf?_of_scalarType? type]
    rfl

theorem meanings_of_scalars {args : List Operand} {operands : List ScalarOperand}
    (scalars : args.map (·.scalar? k) = operands.map some) :
    args.map (·.meaning k bound) = operands.map fun s => .scalar (s.outcome k bound) :=
  map_of_scalars scalars fun _ _ scalar => meaning_of_scalar scalar

theorem meaning_of_length {o : Operand} {n : Nat} (known : o.length? k = some n) :
    o.meaning k bound = .sized (some n) := by
  cases o with
  | literal l => cases known
  | tuple items =>
    cases known
    rfl
  | value id =>
    obtain ⟨length, found, rfl⟩ := Option.map_eq_some_iff.mp known
    obtain ⟨type, recorded, array⟩ := Option.bind_eq_some_iff.mp found
    cases type with
    | scalar t => cases array
    | array elem size =>
      cases array
      rw [meaning, recorded]
      rfl

end Operand

theorem Meaning.mapM_outcome? (outcomes : List (Except EvalError Value)) :
    (outcomes.map Meaning.scalar).mapM Meaning.outcome? = some outcomes := by
  induction outcomes with
  | nil => rfl
  | cons first rest ih =>
    rw [List.map_cons, List.mapM_cons, ih]
    rfl

/-- The operands of a sound kernel have values of their types. -/
theorem ScalarOperand.types_of_mapM {k : Kernel} {bound : Nat → Option Value}
    (sound : k.Sound bound) {operands : List ScalarOperand} (inside : ∀ s ∈ operands, s.In k)
    {vs : List Value} (computed : operands.mapM (·.outcome k bound) = .ok vs) :
    vs.map (·.type) = operands.map (·.type) := by
  induction operands generalizing vs with
  | nil =>
    cases computed
    rfl
  | cons s rest ih =>
    rw [List.mapM_cons] at computed
    obtain ⟨v, first, computed⟩ := bind_ok.mp computed
    obtain ⟨others, later, computed⟩ := bind_ok.mp computed
    cases computed
    have typed := (inside s List.mem_cons_self).typed sound
    rw [first] at typed
    have restIn : ∀ s ∈ rest, s.In k := fun s member => inside s (List.mem_cons_of_mem _ member)
    rw [List.map_cons, List.map_cons, ih restIn later, typed]

/-- A call that is recorded for a routine computes what the routine does. -/
theorem Plan.call_outcome {k : Kernel} {bound : Nat → Option Value} {r : Routine} {t : NumType}
    {symbol : String} {operands : List ScalarOperand} {vs : List Value}
    (accepted : r.accepts t = true) (exported : r.symbol? t = some symbol)
    (count : operands.length = r.arity)
    (computed : operands.mapM (·.outcome k bound) = .ok vs) :
    r.meaning? (vs.map (·.cast t)) =
      some ((call symbol operands t (r.result t)).outcome k bound) := by
  have typed : ∀ v ∈ vs.map (·.cast t), v.type = t := by
    intro v member
    obtain ⟨w, _, rfl⟩ := List.mem_map.mp member
    exact w.type_cast t
  have length : (vs.map (·.cast t)).length = r.arity := by
    rw [List.length_map, length_of_mapM computed, count]
  obtain ⟨outcome, meaning, called, _⟩ := r.call_eq accepted exported typed length
  rw [Plan.outcome, mapM_map_result, computed, meaning, ← called]
  rfl

theorem Plan.call_fails {k : Kernel} {bound : Nat → Option Value} {symbol : String}
    {operands : List ScalarOperand} {t resultType : NumType} {e : EvalError}
    (failed : operands.mapM (·.outcome k bound) = .error e) :
    (call symbol operands t resultType).outcome k bound = .error e := by
  rw [outcome, mapM_map_result, failed]
  rfl

theorem Plan.extremum_fails {k : Kernel} {bound : Nat → Option Value} {which : Extremum}
    {earlier : List ScalarOperand} {last : ScalarOperand} {e : EvalError}
    (failed : (earlier ++ [last]).mapM (·.outcome k bound) = .error e) :
    (extremum which earlier last).outcome k bound = .error e := by
  rw [mapM_concat] at failed
  cases firsts : earlier.mapM (·.outcome k bound) with
  | error e' =>
    rw [firsts] at failed
    cases failed
    rw [outcome, firsts, error_bind]
  | ok vs =>
    rw [firsts, ok_bind] at failed
    cases result : last.outcome k bound with
    | error e' =>
      rw [result] at failed
      cases failed
      rw [outcome, firsts, ok_bind, result, error_bind]
    | ok v =>
      rw [result] at failed
      cases failed

theorem Plan.extremum_outcome {k : Kernel} {bound : Nat → Option Value} (which : Extremum)
    {earlier : List ScalarOperand} {last : ScalarOperand} {vs : List Value}
    (computed : (earlier ++ [last]).mapM (·.outcome k bound) = .ok vs) :
    (Handler.extremum which).onValues? vs =
      some ((extremum which earlier last).outcome k bound) := by
  rw [mapM_concat] at computed
  obtain ⟨firsts, first, computed⟩ := bind_ok.mp computed
  obtain ⟨v, result, computed⟩ := bind_ok.mp computed
  cases computed
  rw [outcome, first, ok_bind, result, ok_bind, Handler.onValues?]
  simp

namespace Handler

variable {k : Kernel} {bound : Nat → Option Value} {h : Handler}

/-- Handlers other than `len` compute their operands first. An outcome is the meaning of a call if
it is the first failure of an operand, or else what the handler makes of the values. -/
theorem meaning?_of_scalars (notLen : h ≠ .len) (sound : k.Sound bound) {args : List Operand}
    {operands : List ScalarOperand} (scalars : args.map (·.scalar? k) = operands.map some)
    {outcome : Except EvalError Value}
    (fails : ∀ e, operands.mapM (·.outcome k bound) = .error e → outcome = .error e)
    (computes : ∀ vs, operands.mapM (·.outcome k bound) = .ok vs →
      vs.map (·.type) = operands.map (·.type) → h.onValues? vs = some outcome) :
    h.meaning? (args.map (·.meaning k bound)) = some outcome := by
  have split : args.map (·.meaning k bound) =
      (operands.map (·.outcome k bound)).map .scalar :=
    (Operand.meanings_of_scalars scalars).trans List.map_map.symm
  have each : (operands.map (·.outcome k bound)).mapM id =
      operands.mapM (·.outcome k bound) := List.mapM_map
  have meaning : h.meaning? (args.map (·.meaning k bound)) =
      match operands.mapM (·.outcome k bound) with
      | .error e => some (.error e)
      | .ok vs => h.onValues? vs := by
    rw [split, ← each]
    cases h with
    | len => exact absurd rfl notLen
    | _ => simp only [meaning?, Meaning.mapM_outcome?]; rfl
  rw [meaning]
  cases computed : operands.mapM (·.outcome k bound) with
  | error e => rw [fails e computed]
  | ok vs =>
    have types := ScalarOperand.types_of_mapM sound (Operand.in_of_scalars scalars) computed
    exact computes vs computed types

theorem meaning?_of_scalar (notLen : h ≠ .len) (sound : k.Sound bound) {o : Operand}
    {s : ScalarOperand} (scalar : o.scalar? k = some s) {outcome : Except EvalError Value}
    (fails : ∀ e, s.outcome k bound = .error e → outcome = .error e)
    (computes : ∀ v, s.outcome k bound = .ok v → v.type = s.type →
      h.onValues? [v] = some outcome) :
    h.meaning? ([o].map (·.meaning k bound)) = some outcome := by
  have single : [s].mapM (·.outcome k bound) = (fun v => [v]) <$> s.outcome k bound := by
    cases result : s.outcome k bound <;> simp [List.mapM_cons, result]
  apply meaning?_of_scalars notLen sound (Operand.scalars_of_scalar scalar)
  · intro e failed
    rw [single] at failed
    cases result : s.outcome k bound with
    | error e' =>
      rw [result] at failed
      cases failed
      exact fails e result
    | ok v =>
      rw [result] at failed
      cases failed
  · intro vs computed types
    rw [single] at computed
    cases result : s.outcome k bound with
    | error e' =>
      rw [result] at computed
      cases computed
    | ok v =>
      rw [result] at computed
      cases computed
      exact computes v result (List.cons.inj types).1

/-- A handler that leaves its values to a routine means the recorded call of the routine. -/
theorem meaning?_of_routine (notLen : h ≠ .len) (sound : k.Sound bound) {args : List Operand}
    {operands : List ScalarOperand} (scalars : args.map (·.scalar? k) = operands.map some)
    {r : Routine} {t : NumType} {symbol : String} (accepted : r.accepts t = true)
    (exported : r.symbol? t = some symbol) (count : operands.length = r.arity)
    (routine : ∀ vs : List Value, vs.map (·.type) = operands.map (·.type) →
      h.onValues? vs = r.meaning? (vs.map (·.cast t))) :
    h.meaning? (args.map (·.meaning k bound)) =
      some ((Plan.call symbol operands t (r.result t)).outcome k bound) := by
  apply meaning?_of_scalars notLen sound scalars
  · intro e failed
    exact Plan.call_fails failed
  · intro vs computed types
    rw [routine vs types]
    exact Plan.call_outcome accepted exported count computed

/-- The plan for an accepted call has the meaning of the call. -/
theorem Accepts.meaning?_eq {args : List Operand} {plan : Plan} (accepts : h.Accepts k args plan)
    (sound : k.Sound bound) :
    h.meaning? (args.map (·.meaning k bound)) = some (plan.outcome k bound) := by
  cases accepts with
  | @cast t o s scalar =>
    apply meaning?_of_scalar (by rintro ⟨⟩) sound scalar
    · intro e failed
      rw [Plan.outcome, failed, map_error]
    · intro v computed _
      rw [Plan.outcome, computed, map_ok]
      rfl
  | @len o n known small =>
    rw [List.map_singleton, Operand.meaning_of_length known]
    rfl
  | @extremum which args earlier last two scalars real =>
    apply meaning?_of_scalars (by rintro ⟨⟩) sound scalars
    · intro e failed
      exact Plan.extremum_fails failed
    · intro vs computed _
      exact Plan.extremum_outcome which computed
  | @integerAbs o s scalar int =>
    apply meaning?_of_scalar (by rintro ⟨⟩) sound scalar
    · intro e failed
      rw [Plan.outcome, failed, map_error]
    · intro v computed typed
      have integer : v.type.isInt = true := by rw [typed, int]
      obtain ⟨w, magnitude⟩ := Value.magnitude?_isSome_of_isInt integer
      rw [Plan.outcome, computed, map_ok, onValues?, magnitude]
      rfl
  | @magnitude o s symbol scalar exported =>
    have accepted : Routine.magnitude.accepts s.type = true :=
      Routine.numeric_of_symbol? exported
    apply meaning?_of_routine (by rintro ⟨⟩) sound (Operand.scalars_of_scalar scalar) accepted
      exported rfl
    intro vs types
    obtain ⟨v, rfl, single⟩ := List.map_eq_singleton_iff.mp types
    have typed : v.type = s.type := single
    rw [List.map_singleton, Value.cast_of_type typed]
    rfl
  | @math f args s rest symbol count scalars kind same exported =>
    have float : (Routine.math f).accepts s.type.mathType = true :=
      NumType.isFloat_mathType s.type
    have length := (Operand.length_eq_of_scalars scalars).symm.trans count
    apply meaning?_of_routine (by rintro ⟨⟩) sound scalars float exported length
    intro vs types
    obtain ⟨v, others, rfl, first, _⟩ := List.map_eq_cons_iff.mp types
    have typed : v.type = s.type := first
    rw [← typed]
    rfl
  | @helper f o s symbol scalar exported =>
    have accepted : (Routine.helper f).accepts s.type.helperType = true :=
      Routine.numeric_of_symbol? exported
    apply meaning?_of_routine (by rintro ⟨⟩) sound (Operand.scalars_of_scalar scalar) accepted
      exported rfl
    intro vs types
    obtain ⟨v, rfl, single⟩ := List.map_eq_singleton_iff.mp types
    have typed : v.type = s.type := single
    rw [← typed]
    rfl

end Handler

end ScalarLowering
