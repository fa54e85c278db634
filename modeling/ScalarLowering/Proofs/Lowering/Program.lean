import ScalarLowering.Proofs.Lowering.Meaning
import ScalarLowering.Proofs.Lowering.Reachable

set_option autoImplicit false

/- Whole programs: parameters are added and calls are lowered one after another, and
calls use what earlier steps came to. A program is read twice, as a kernel to
build and as values to compute, and both readings agree. -/

namespace ScalarLowering

/-- An operand of a call in a program. Steps count from zero. -/
inductive Argument where
  | literal (l : Literal)
  | tuple (items : List Argument)
  | result (step : Nat)

inductive Step where
  | param (t : NumType)
  | arrayParam (elem : NumType) (length : Option UInt64)
  | call (key : Key) (args : List Argument)

namespace Argument

mutual

/-- The operand, where `ids` are the values that the earlier steps have led to. -/
def operand? (ids : List ValueId) : Argument → Option Operand
  | .literal l => some (.literal l)
  | .tuple items => (operands? ids items).map .tuple
  | .result step => ids[step]?.map .value

def operands? (ids : List ValueId) : List Argument → Option (List Operand)
  | [] => some []
  | a :: rest => do return (← a.operand? ids) :: (← operands? ids rest)

end

/-- What the operand stands for, told by what the earlier steps stand for. -/
def meaning? (results : List Meaning) : Argument → Option Meaning
  | .literal l => some (.scalar (.ok (.ofLiteral l)))
  | .tuple items => some (.sized (some items.length))
  | .result step => results[step]?

end Argument

namespace Step

/-- Carries out a step and returns its value; none if its call is declined or refers to a step that
is not there. -/
def lower? (r : Registry) (ids : List ValueId) : Step → Build (Option ValueId)
  | .param t => some <$> Build.param t
  | .arrayParam elem length => some <$> Build.arrayParam elem length
  | .call key args => do
    match Argument.operands? ids args with
    | none => return none
    | some operands => return (← r.lowerCall key operands).toOption

/-- What a step stands for, where `params` is the number of parameters before it. -/
def meaning? (r : Registry) (bound : Nat → Option Value) (params : Nat) (results : List Meaning) :
    Step → Option Meaning
  | .param t => some (.scalar (boundValue bound params t))
  | .arrayParam _ length => some (.sized (length.map (·.toNat)))
  | .call key args => do
    let h ← r.lookup? key
    return .scalar (← h.meaning? (← args.mapM (·.meaning? results)))

/-- How many parameters a step adds. -/
def params : Step → Nat
  | .param _ | .arrayParam .. => 1
  | .call .. => 0

end Step

/-- A sequence of steps. -/
abbrev Program := List Step

namespace Program

/-- Carries out the steps after those that have led to `ids`. -/
def lowerFrom? (r : Registry) (ids : List ValueId) : Program → Build (Option (List ValueId))
  | [] => return some ids
  | step :: rest => do
    match ← step.lower? r ids with
    | none => return none
    | some id => lowerFrom? r (ids ++ [id]) rest

def meaningFrom? (r : Registry) (bound : Nat → Option Value) (params : Nat)
    (results : List Meaning) : Program → Option (List Meaning)
  | [] => some results
  | step :: rest => do
    let result ← step.meaning? r bound params results
    meaningFrom? r bound (params + step.params) (results ++ [result]) rest

/-- The values of all steps, recorded in an empty kernel; none unless every call is accepted. -/
def lower? (r : Registry) (p : Program) : Build (Option (List ValueId)) := lowerFrom? r [] p

/-- What all steps stand for under the bound parameters. -/
def meaning? (r : Registry) (bound : Nat → Option Value) (p : Program) : Option (List Meaning) :=
  meaningFrom? r bound 0 [] p

end Program

namespace Operand

variable {k k' : Kernel} {bound : Nat → Option Value}

/-- What a defined value stands for does not change when more is recorded. -/
theorem meaning_value_eq (continues : k.Continues k') (bound : Nat → Option Value) {id : ValueId}
    (defined : id.index < k.size) :
    (Operand.value id).meaning k' bound = (Operand.value id).meaning k bound := by
  rw [meaning, meaning, continues.typeOf?_eq defined, continues.demand_eq bound defined]

theorem demand_of_meaning {id : ValueId} {outcome : Except EvalError Value}
    (stands : (Operand.value id).meaning k bound = .scalar outcome) :
    k.demand bound id = outcome := by
  cases type : k.typeOf? id with
  | none =>
    rw [meaning, type] at stands
    exact Meaning.scalar.inj stands
  | some type' =>
    cases type' with
    | scalar t =>
      rw [meaning, type] at stands
      exact Meaning.scalar.inj stands
    | array elem length =>
      rw [meaning, type] at stands
      cases stands

end Operand

namespace Argument

variable {ids : List ValueId}

theorem length_of_operands? {args : List Argument} {operands : List Operand}
    (resolved : operands? ids args = some operands) : operands.length = args.length := by
  induction args generalizing operands with
  | nil =>
    cases resolved
    rfl
  | cons a rest ih =>
    obtain ⟨o, _, resolved⟩ := Option.bind_eq_some_iff.mp resolved
    obtain ⟨others, later, resolved⟩ := Option.bind_eq_some_iff.mp resolved
    cases resolved
    rw [List.length_cons, List.length_cons, ih later]

/-- An operand stands for the same in the kernel and in the program. -/
theorem meaning?_of_operand? (k : Kernel) (bound : Nat → Option Value) {a : Argument}
    {o : Operand} (resolved : a.operand? ids = some o) :
    a.meaning? (ids.map fun id => (Operand.value id).meaning k bound) =
      some (o.meaning k bound) := by
  cases a with
  | literal l =>
    cases resolved
    rfl
  | tuple items =>
    obtain ⟨operands, found, rfl⟩ := Option.map_eq_some_iff.mp resolved
    rw [meaning?, Operand.meaning, length_of_operands? found]
  | result step =>
    obtain ⟨id, found, rfl⟩ := Option.map_eq_some_iff.mp resolved
    rw [meaning?, List.getElem?_map, found]
    rfl

theorem meanings?_of_operands? (k : Kernel) (bound : Nat → Option Value) {args : List Argument}
    {operands : List Operand} (resolved : operands? ids args = some operands) :
    args.mapM (·.meaning? (ids.map fun id => (Operand.value id).meaning k bound)) =
      some (operands.map (·.meaning k bound)) := by
  induction args generalizing operands with
  | nil =>
    cases resolved
    rfl
  | cons a rest ih =>
    obtain ⟨o, first, resolved⟩ := Option.bind_eq_some_iff.mp resolved
    obtain ⟨others, later, resolved⟩ := Option.bind_eq_some_iff.mp resolved
    cases resolved
    rw [List.mapM_cons, meaning?_of_operand? k bound first, ih later]
    rfl

end Argument

namespace Program

/-- The values that the steps so far have led to, and what these steps stand for. -/
structure Related (k : Kernel) (bound : Nat → Option Value) (ids : List ValueId) (params : Nat)
    (results : List Meaning) : Prop where
  reachable : k.Reachable
  params : k.paramCount = params
  defined : ∀ id ∈ ids, id.index < k.size
  results : results = ids.map fun id => (Operand.value id).meaning k bound

variable {r : Registry} {k k' : Kernel} {bound : Nat → Option Value} {ids : List ValueId}
variable {params : Nat} {results : List Meaning}

theorem empty_related (bound : Nat → Option Value) : Related .empty bound [] 0 [] :=
  ⟨.empty, rfl, by simp, rfl⟩

/-- The earlier values keep what they stand for. -/
theorem Related.extend (related : Related k bound ids params results) {id : ValueId}
    {params' : Nat} {result : Meaning} (reachable : k'.Reachable) (continues : k.Continues k')
    (count : k'.paramCount = params') (defined : id.index < k'.size)
    (stands : (Operand.value id).meaning k' bound = result) :
    Related k' bound (ids ++ [id]) params' (results ++ [result]) := by
  refine ⟨reachable, count, ?_, ?_⟩
  · intro other member
    rcases List.mem_append.mp member with earlier | new
    · exact Nat.lt_of_lt_of_le (related.defined other earlier) continues.size_le
    · obtain rfl := List.mem_singleton.mp new
      exact defined
  · rw [List.map_append, related.results, ← stands]
    congr 1
    apply List.map_congr_left
    intro other member
    exact (Operand.meaning_value_eq continues bound (related.defined other member)).symm

theorem Related.addParam (related : Related k bound ids params results) {type : ValueType}
    {result : Meaning} (reachable : (k.addParam type).Reachable)
    (stands : (Operand.value ⟨k.size⟩).meaning (k.addParam type) bound = result) :
    Related (k.addParam type) bound (ids ++ [⟨k.size⟩]) (params + 1) (results ++ [result]) := by
  apply related.extend reachable (Kernel.continues_addParam type) _ _ stands
  · rw [← related.params]
    rfl
  · exact Kernel.index_lt_size (Kernel.instruction?_push ⟨type, .param k.paramCount⟩)

theorem meaning_param (k : Kernel) (bound : Nat → Option Value) (t : NumType) :
    (Operand.value ⟨k.size⟩).meaning (k.addParam (.scalar t)) bound =
      .scalar (boundValue bound k.paramCount t) := by
  have recorded : (k.addParam (.scalar t)).instruction? ⟨k.size⟩ =
      some ⟨.scalar t, .param k.paramCount⟩ := Kernel.instruction?_push _
  have value := Kernel.demand_of_some bound recorded (fun operand member => nomatch member)
  rw [Operand.meaning, Kernel.typeOf?, recorded, value]
  rfl

theorem meaning_arrayParam (k : Kernel) (bound : Nat → Option Value) (elem : NumType)
    (length : Option UInt64) :
    (Operand.value ⟨k.size⟩).meaning (k.addParam (.array elem length)) bound =
      .sized (length.map (·.toNat)) := by
  have recorded : (k.addParam (.array elem length)).instruction? ⟨k.size⟩ =
      some ⟨.array elem length, .param k.paramCount⟩ := Kernel.instruction?_push _
  rw [Operand.meaning, Kernel.typeOf?, recorded]
  rfl

theorem Related.call (related : Related k bound ids params results) {key : Key}
    {args : List Argument} {id : ValueId}
    (lowered : ((Step.call key args).lower? r ids).run k = .ok (some id, k')) :
    ∃ result, (Step.call key args).meaning? r bound params results = some result ∧
      Related k' bound (ids ++ [id]) params (results ++ [result]) := by
  cases resolved : Argument.operands? ids args with
  | none =>
    rw [Step.lower?, resolved] at lowered
    cases lowered
  | some operands =>
    have run : ((Step.call key args).lower? r ids).run k =
        (fun p => (p.1.toOption, p.2)) <$> (r.lowerCall key operands).run k := by
      rw [Step.lower?, resolved]
      simp
    rcases r.lowerCall_cases k key operands with
      ⟨e, declined⟩ | ⟨name, h, plan, value, grown, found, planned, accepted, recorded⟩
    · rw [run, declined] at lowered
      cases lowered
    · rw [run, accepted] at lowered
      cases lowered
      have sound := related.reachable.wellTyped.sound bound
      have meaning := (Handler.accepts_of_plan planned).meaning?_eq sound
      have meanings := Argument.meanings?_of_operands? k bound resolved
      rw [← related.results] at meanings
      refine ⟨.scalar (plan.outcome k bound), ?_, ?_⟩
      · simp [Step.meaning?, Registry.lookup?, found, meanings, meaning]
      · apply related.extend (.call related.reachable accepted) recorded.grows.continues
        · rw [recorded.grows.params, related.params]
        · exact Kernel.index_lt_of_scalarType? recorded.inside
        · rw [Operand.meaning, Kernel.typeOf?_of_scalarType? recorded.inside,
            recorded.demand_eq sound]

theorem Related.step (related : Related k bound ids params results) {step : Step} {id : ValueId}
    (lowered : (step.lower? r ids).run k = .ok (some id, k')) :
    ∃ result, step.meaning? r bound params results = some result ∧
      Related k' bound (ids ++ [id]) (params + step.params) (results ++ [result]) := by
  cases step with
  | param t =>
    cases lowered
    refine ⟨.scalar (boundValue bound params t), rfl, ?_⟩
    have stands := meaning_param k bound t
    rw [related.params] at stands
    exact related.addParam (.param related.reachable (Build.newParam_run _ k)) stands
  | arrayParam elem length =>
    cases lowered
    refine ⟨.sized (length.map (·.toNat)), rfl, ?_⟩
    exact related.addParam (.arrayParam related.reachable (Build.newParam_run _ k))
      (meaning_arrayParam k bound elem length)
  | call key args => exact related.call lowered

/-- The two readings of a program go side by side. -/
theorem Related.run (related : Related k bound ids params results) {p : Program}
    {ids' : List ValueId} (lowered : (p.lowerFrom? r ids).run k = .ok (some ids', k')) :
    ∃ results' params', p.meaningFrom? r bound params results = some results' ∧
      Related k' bound ids' params' results' := by
  induction p generalizing k ids params results with
  | nil =>
    cases lowered
    exact ⟨results, params, rfl, related⟩
  | cons step rest ih =>
    rw [lowerFrom?, StateT.run_bind] at lowered
    obtain ⟨⟨found, k₁⟩, first, lowered⟩ := bind_ok.mp lowered
    cases found with
    | none => cases lowered
    | some id =>
      obtain ⟨result, meaning, next⟩ := related.step first
      obtain ⟨results', params', later, final⟩ := ih next lowered
      refine ⟨results', params', ?_, final⟩
      rw [meaningFrom?, meaning]
      exact later

/-- What the earlier steps stand for is not looked at again. -/
theorem meaningFrom?_keeps {p : Program} {results' : List Meaning}
    (computed : p.meaningFrom? r bound params results = some results') :
    results <+: results' := by
  induction p generalizing params results with
  | nil =>
    cases computed
    exact List.prefix_refl _
  | cons step rest ih =>
    obtain ⟨result, _, later⟩ := Option.bind_eq_some_iff.mp computed
    exact (List.prefix_append results [result]).trans (ih later)

/-- A call stands for a scalar. -/
theorem meaningFrom?_call {p : Program} {results' : List Meaning} {n : Nat} {key : Key}
    {args : List Argument} (computed : p.meaningFrom? r bound params results = some results')
    (call : p[n]? = some (.call key args)) :
    ∃ outcome, results'[results.length + n]? = some (.scalar outcome) := by
  induction p generalizing params results n with
  | nil => cases call
  | cons step rest ih =>
    obtain ⟨result, first, later⟩ := Option.bind_eq_some_iff.mp computed
    cases n with
    | zero =>
      obtain rfl : step = .call key args := Option.some.inj call
      obtain ⟨h, _, first⟩ := Option.bind_eq_some_iff.mp first
      obtain ⟨meanings, _, first⟩ := Option.bind_eq_some_iff.mp first
      obtain ⟨outcome, _, first⟩ := Option.bind_eq_some_iff.mp first
      cases first
      refine ⟨outcome, ?_⟩
      have kept := List.prefix_iff_getElem?.mp (meaningFrom?_keeps later) results.length (by simp)
      simpa using kept
    | succ n =>
      obtain ⟨outcome, found⟩ := ih later call
      refine ⟨outcome, ?_⟩
      rw [← found, List.length_append, List.length_singleton]
      congr 1
      omega

/-- Lowering preserves meaning: in the kernel of a program whose calls are all accepted, the value
of each call is what the call stands for. -/
theorem lower?_preserves_meaning (r : Registry) (p : Program) (bound : Nat → Option Value)
    (ids : List ValueId) (k : Kernel) (lowered : (p.lower? r).run .empty = .ok (some ids, k)) :
    ∃ results, p.meaning? r bound = some results ∧
      ∀ (n : Nat) (key : Key) (args : List Argument), p[n]? = some (.call key args) →
        ∃ id outcome, ids[n]? = some id ∧ results[n]? = some (.scalar outcome) ∧
          k.eval? bound id = some outcome := by
  obtain ⟨results, params, meaning, related⟩ := (empty_related bound).run lowered
  refine ⟨results, meaning, ?_⟩
  intro n key args call
  obtain ⟨outcome, found⟩ := meaningFrom?_call meaning call
  rw [List.length_nil, Nat.zero_add] at found
  have stands := found
  rw [related.results, List.getElem?_map] at stands
  obtain ⟨id, at?, stands⟩ := Option.map_eq_some_iff.mp stands
  refine ⟨id, outcome, at?, found, ?_⟩
  rw [related.reachable.wellTyped.ordered.eval?_eq, Operand.demand_of_meaning stands]

/-- The absolute value of a parameter. -/
def absolute : Program := [.param .int64, .call (.name "abs") [.result 0]]

theorem absolute_preserves_meaning :
    (absolute.lower? .standard).run .empty = .ok (some [⟨0⟩, ⟨4⟩], Kernel.absoluteParam) ∧
      Kernel.absoluteParam.eval? (fun _ => some (.int .signed .w64 (-3))) ⟨4⟩ =
        some (.ok (.int .signed .w64 3)) := by
  have lowered : (absolute.lower? .standard).run .empty =
      .ok (some [⟨0⟩, ⟨4⟩], Kernel.absoluteParam) := rfl
  have computed : absolute.meaning? .standard (fun _ => some (.int .signed .w64 (-3))) =
      some [.scalar (.ok (.int .signed .w64 (-3))), .scalar (.ok (.int .signed .w64 3))] := rfl
  obtain ⟨results, meaning, calls⟩ := lower?_preserves_meaning .standard absolute
    (fun _ => some (.int .signed .w64 (-3))) _ _ lowered
  cases computed.symm.trans meaning
  obtain ⟨id, outcome, position, found, value⟩ := calls 1 _ _ rfl
  cases position
  cases found
  exact ⟨lowered, value⟩

end Program

end ScalarLowering
