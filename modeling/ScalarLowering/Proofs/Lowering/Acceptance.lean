import ScalarLowering.Lowering
import ScalarLowering.Proofs.Lowering.Emission

set_option autoImplicit false

/- Which calls the handlers accept, and what becomes of an accepted call. All
checks are made before anything is recorded, so that a declined call leaves the
kernel as it was. -/

namespace ScalarLowering

/-- The type at which a routine of the math module computes. -/
def NumType.mathType (t : NumType) : NumType := if t = .float32 then .float32 else .float64

theorem NumType.isFloat_mathType (t : NumType) : t.mathType.isFloat = true := by
  by_cases single : t = .float32
  · rw [mathType, if_pos single]
    rfl
  · rw [mathType, if_neg single]
    rfl

/-- The type at which a helper computes. -/
def NumType.helperType (t : NumType) : NumType := if t.isInt then .float64 else t

/-- The plan for an accepted call. -/
inductive Handler.Accepts (k : Kernel) : Handler → List Operand → Plan → Prop
  | cast {t : NumType} {o : Operand} {s : ScalarOperand} (scalar : o.scalar? k = some s) :
    Accepts k (.cast t) [o] (.cast s t)
  | len {o : Operand} {n : Nat} (known : o.length? k = some n)
    (small : (n : Int) ≤ Int64.maxValue.toInt) : Accepts k .len [o] (.length (Int64.ofNat n))
  | extremum {which : Extremum} {args : List Operand} {earlier : List ScalarOperand}
    {last : ScalarOperand} (two : earlier ≠ [])
    (scalars : args.map (·.scalar? k) = (earlier ++ [last]).map some)
    (real : ∀ s ∈ earlier ++ [last], s.type.isComplex = false) :
    Accepts k (.extremum which) args (.extremum which earlier last)
  | integerAbs {o : Operand} {s : ScalarOperand} (scalar : o.scalar? k = some s)
    (int : s.type.isInt = true) : Accepts k .abs [o] (.integerAbs s)
  | magnitude {o : Operand} {s : ScalarOperand} {symbol : String} (scalar : o.scalar? k = some s)
    (exported : Routine.magnitude.symbol? s.type = some symbol) :
    Accepts k .abs [o] (.call symbol [s] s.type s.type.realType)
  | math {f : MathFunction} {args : List Operand} {s : ScalarOperand} {rest : List ScalarOperand}
    {symbol : String} (count : args.length = f.arity)
    (scalars : args.map (·.scalar? k) = (s :: rest).map some)
    (kind : (s.type.isInt || s.type.isFloat) = true) (same : ∀ o ∈ rest, o.type = s.type)
    (exported : (Routine.math f).symbol? s.type.mathType = some symbol) :
    Accepts k (.math f) args (.call symbol (s :: rest) s.type.mathType s.type.mathType)
  | helper {f : HelperFunction} {o : Operand} {s : ScalarOperand} {symbol : String}
    (scalar : o.scalar? k = some s)
    (exported : (Routine.helper f).symbol? s.type.helperType = some symbol) :
    Accepts k (.helper f) [o] (.call symbol [s] s.type.helperType s.type.helperType)

namespace Operand

variable {k : Kernel}

theorem only_ok {args : List Operand} {o : Operand} (accepted : only args = .ok o) :
    args = [o] := by
  cases args with
  | nil => cases accepted
  | cons first rest =>
    cases rest with
    | nil =>
      cases accepted
      rfl
    | cons _ _ => cases accepted

theorem scalarAt_ok {index : Nat} {o : Operand} {s : ScalarOperand}
    (accepted : o.scalarAt k index = .ok s) : o.scalar? k = some s := by
  rw [scalarAt] at accepted
  cases found : o.scalar? k with
  | none =>
    rw [found] at accepted
    cases accepted
  | some s' =>
    rw [found] at accepted
    rw [Except.ok.inj accepted]

theorem scalarAt_of_scalar? {o : Operand} {s : ScalarOperand} (scalar : o.scalar? k = some s)
    (index : Nat) : o.scalarAt k index = .ok s := by
  rw [scalarAt, scalar]

theorem scalar?_mono {k' : Kernel} {o : Operand} {s : ScalarOperand}
    (scalar : o.scalar? k = some s) (continues : k.Continues k') : o.scalar? k' = some s := by
  cases o with
  | literal l => exact scalar
  | tuple items => cases scalar
  | value id =>
    obtain ⟨t, type, rfl⟩ := Option.map_eq_some_iff.mp scalar
    rw [scalar?, continues.scalarType?_some type]
    rfl

/-- What is told of each scalar is told of all. -/
theorem map_of_scalars {β : Type} {f : Operand → β} {g : ScalarOperand → β} {args : List Operand}
    {operands : List ScalarOperand} (scalars : args.map (·.scalar? k) = operands.map some)
    (each : ∀ o s, o.scalar? k = some s → f o = g s) : args.map f = operands.map g := by
  induction args generalizing operands with
  | nil =>
    obtain rfl := List.map_eq_nil_iff.mp scalars.symm
    rfl
  | cons o rest ih =>
    cases operands with
    | nil => cases scalars
    | cons s others =>
      obtain ⟨first, later⟩ := List.cons.inj scalars
      rw [List.map_cons, List.map_cons, each o s first, ih later]

theorem scalars_mono {k' : Kernel} {args : List Operand} {operands : List ScalarOperand}
    (scalars : args.map (·.scalar? k) = operands.map some) (continues : k.Continues k') :
    args.map (·.scalar? k') = operands.map some :=
  map_of_scalars scalars fun _ _ scalar => scalar?_mono scalar continues

theorem scalarsFrom_ok {index : Nat} {args : List Operand} {operands : List ScalarOperand}
    (accepted : scalarsFrom k index args = .ok operands) :
    args.map (·.scalar? k) = operands.map some := by
  induction args generalizing index operands with
  | nil =>
    cases accepted
    rfl
  | cons o rest ih =>
    obtain ⟨s, first, accepted⟩ := bind_ok.mp accepted
    obtain ⟨others, later, accepted⟩ := bind_ok.mp accepted
    cases accepted
    rw [List.map_cons, List.map_cons, scalarAt_ok first, ih later]

theorem length_eq_of_scalars {args : List Operand} {operands : List ScalarOperand}
    (scalars : args.map (·.scalar? k) = operands.map some) : args.length = operands.length := by
  have lengths := congrArg List.length scalars
  rwa [List.length_map, List.length_map] at lengths

theorem scalars_of_scalar {o : Operand} {s : ScalarOperand} (scalar : o.scalar? k = some s) :
    [o].map (·.scalar? k) = [s].map some := by
  rw [List.map_singleton, List.map_singleton, scalar]

theorem scalar?_in {o : Operand} {s : ScalarOperand} (scalar : o.scalar? k = some s) : s.In k := by
  cases o with
  | literal l =>
    cases scalar
    trivial
  | tuple items => cases scalar
  | value id =>
    obtain ⟨t, type, rfl⟩ := Option.map_eq_some_iff.mp scalar
    exact type

theorem exists_of_scalars {args : List Operand} {operands : List ScalarOperand}
    (scalars : args.map (·.scalar? k) = operands.map some) {s : ScalarOperand}
    (member : s ∈ operands) : ∃ o ∈ args, o.scalar? k = some s := by
  have found : some s ∈ args.map (·.scalar? k) := by
    rw [scalars]
    exact List.mem_map_of_mem member
  exact List.mem_map.mp found

theorem in_of_scalars {args : List Operand} {operands : List ScalarOperand}
    (scalars : args.map (·.scalar? k) = operands.map some) : ∀ s ∈ operands, s.In k := by
  intro s member
  obtain ⟨o, _, scalar⟩ := exists_of_scalars scalars member
  exact scalar?_in scalar

end Operand

namespace Plan

variable {k : Kernel} {args : List Operand} {plan : Plan}

theorem ofCast_ok {t : NumType} (accepted : ofCast k t args = .ok plan) :
    Handler.Accepts k (.cast t) args plan := by
  obtain ⟨o, only, accepted⟩ := bind_ok.mp accepted
  obtain ⟨s, scalar, accepted⟩ := bind_ok.mp accepted
  cases accepted
  rw [Operand.only_ok only]
  exact .cast (Operand.scalarAt_ok scalar)

theorem ofLen_ok (accepted : ofLen k args = .ok plan) : Handler.Accepts k .len args plan := by
  obtain ⟨o, only, accepted⟩ := bind_ok.mp accepted
  rw [Operand.only_ok only]
  cases length : o.length? k with
  | none =>
    rw [length] at accepted
    cases accepted
  | some n =>
    rw [length] at accepted
    by_cases small : (n : Int) ≤ Int64.maxValue.toInt
    · simp only [small, if_true] at accepted
      cases accepted
      exact .len length small
    · simp only [small, if_false] at accepted
      cases accepted

theorem real_of_firstComplex? {operands : List ScalarOperand}
    (absent : firstComplex? operands = none) : ∀ s ∈ operands, s.type.isComplex = false := by
  intro s member
  obtain ⟨index, inside, rfl⟩ := List.mem_iff_getElem.mp member
  have numbered : (operands[index], index) ∈ operands.zipIdx :=
    List.mk_mem_zipIdx_iff_getElem?.mpr (List.getElem?_eq_getElem inside)
  simpa using List.find?_eq_none.mp absent _ numbered

theorem ofExtremum_ok {which : Extremum} (accepted : ofExtremum k which args = .ok plan) :
    Handler.Accepts k (.extremum which) args plan := by
  by_cases few : args.length < 2
  · rw [ofExtremum, if_pos few] at accepted
    cases accepted
  · rw [ofExtremum, if_neg few] at accepted
    obtain ⟨operands, found, accepted⟩ := bind_ok.mp accepted
    have scalars := Operand.scalarsFrom_ok found
    have count := Operand.length_eq_of_scalars scalars
    cases complex : firstComplex? operands with
    | some found =>
      rw [complex] at accepted
      cases accepted
    | none =>
      have real := real_of_firstComplex? complex
      rw [complex] at accepted
      cases end? : operands.getLast? with
      | none =>
        rw [end?] at accepted
        cases accepted
      | some last =>
        rw [end?] at accepted
        cases accepted
        have split := List.dropLast_append_getLast? last end?
        rw [← split] at scalars real
        refine .extremum ?_ scalars real
        intro alone
        have shorter : operands.dropLast.length = operands.length - 1 := List.length_dropLast
        rw [alone, List.length_nil] at shorter
        omega

theorem routine_ok {name : String} {realMark : Bool} {operands : List ScalarOperand}
    {argType resultType declined : NumType}
    (accepted : routine name realMark operands argType resultType declined = .ok plan) :
    ∃ symbol, mathSymbol? name argType realMark = some symbol ∧
      plan = .call symbol operands argType resultType := by
  rw [routine] at accepted
  cases exported : mathSymbol? name argType realMark with
  | none =>
    rw [exported] at accepted
    cases accepted
  | some symbol =>
    rw [exported] at accepted
    cases accepted
    exact ⟨symbol, rfl, rfl⟩

theorem ofAbs_ok (accepted : ofAbs k args = .ok plan) : Handler.Accepts k .abs args plan := by
  obtain ⟨o, only, accepted⟩ := bind_ok.mp accepted
  obtain ⟨s, scalar, accepted⟩ := bind_ok.mp accepted
  rw [Operand.only_ok only]
  by_cases int : s.type.isInt = true
  · rw [if_pos int] at accepted
    cases accepted
    exact .integerAbs (Operand.scalarAt_ok scalar) int
  · rw [if_neg int] at accepted
    obtain ⟨symbol, exported, rfl⟩ := routine_ok accepted
    exact .magnitude (Operand.scalarAt_ok scalar) exported

theorem sameTypeFrom_ok {t : NumType} {index : Nat} {operands : List ScalarOperand}
    (accepted : sameTypeFrom k t index args = .ok operands) :
    args.map (·.scalar? k) = operands.map some ∧ ∀ s ∈ operands, s.type = t := by
  induction args generalizing index operands with
  | nil =>
    cases accepted
    exact ⟨rfl, by simp⟩
  | cons o rest ih =>
    obtain ⟨s, first, accepted⟩ := bind_ok.mp accepted
    by_cases same : s.type = t
    · rw [if_pos same] at accepted
      obtain ⟨others, later, accepted⟩ := bind_ok.mp accepted
      cases accepted
      obtain ⟨scalars, types⟩ := ih later
      refine ⟨?_, ?_⟩
      · rw [List.map_cons, List.map_cons, Operand.scalarAt_ok first, scalars]
      · intro s' member
        rcases List.mem_cons.mp member with rfl | behind
        · exact same
        · exact types s' behind
    · rw [if_neg same] at accepted
      cases accepted

theorem ofMath_ok {f : MathFunction} (accepted : ofMath k f args = .ok plan) :
    Handler.Accepts k (.math f) args plan := by
  cases args with
  | nil =>
    rw [ofMath] at accepted
    by_cases wrong : ([] : List Operand).length ≠ f.arity
    · rw [if_pos wrong] at accepted
      cases accepted
    · rw [if_neg wrong] at accepted
      cases accepted
  | cons first rest =>
    rw [ofMath] at accepted
    by_cases count : (first :: rest).length = f.arity
    · rw [if_neg (not_not_intro count)] at accepted
      obtain ⟨s, scalar, accepted⟩ := bind_ok.mp accepted
      by_cases kind : (s.type.isInt || s.type.isFloat) = true
      · rw [if_pos kind] at accepted
        obtain ⟨others, later, accepted⟩ := bind_ok.mp accepted
        obtain ⟨scalars, same⟩ := sameTypeFrom_ok later
        obtain ⟨symbol, exported, rfl⟩ := routine_ok accepted
        refine .math count ?_ kind same exported
        rw [List.map_cons, List.map_cons, Operand.scalarAt_ok scalar, scalars]
      · rw [if_neg kind] at accepted
        cases accepted
    · rw [if_pos count] at accepted
      cases accepted

theorem ofHelper_ok {f : HelperFunction} (accepted : ofHelper k f args = .ok plan) :
    Handler.Accepts k (.helper f) args plan := by
  obtain ⟨o, only, accepted⟩ := bind_ok.mp accepted
  obtain ⟨s, scalar, accepted⟩ := bind_ok.mp accepted
  obtain ⟨symbol, exported, rfl⟩ := routine_ok accepted
  rw [Operand.only_ok only]
  exact .helper (Operand.scalarAt_ok scalar) exported

end Plan

namespace Handler

variable {k : Kernel} {h : Handler} {args : List Operand} {plan : Plan}

theorem accepts_of_plan (accepted : h.plan k args = .ok plan) : h.Accepts k args plan := by
  cases h with
  | cast t => exact Plan.ofCast_ok accepted
  | len => exact Plan.ofLen_ok accepted
  | extremum which => exact Plan.ofExtremum_ok accepted
  | abs => exact Plan.ofAbs_ok accepted
  | math f => exact Plan.ofMath_ok accepted
  | helper f => exact Plan.ofHelper_ok accepted

theorem lower_of_error {reason : Decline} (declined : h.plan k args = .error reason) :
    (h.lower args).run k = .ok (.error reason, k) := by
  simp [lower, declined]

theorem lower_of_ok (planned : h.plan k args = .ok plan) :
    (h.lower args).run k = (fun p => (.ok p.1, p.2)) <$> plan.emit.run k := by
  simp [lower, planned]

/-- Whatever is accepted can be recorded. -/
theorem Accepts.fits (accepts : h.Accepts k args plan) : plan.Fits k := by
  cases accepts with
  | cast scalar => exact Operand.scalar?_in scalar
  | len known small => trivial
  | extremum two scalars real =>
    intro s member
    exact ⟨Operand.in_of_scalars scalars s member, real s member⟩
  | integerAbs scalar int => exact ⟨Operand.scalar?_in scalar, int⟩
  | @magnitude o s symbol scalar exported =>
    refine ⟨.magnitude, Routine.numeric_of_symbol? exported, exported, rfl, ?_, rfl⟩
    intro s' member
    obtain rfl := List.mem_singleton.mp member
    exact Operand.scalar?_in scalar
  | @math f _ s rest symbol count scalars kind same exported =>
    have length := Operand.length_eq_of_scalars scalars
    exact ⟨.math f, NumType.isFloat_mathType s.type, exported, length.symm.trans count,
      Operand.in_of_scalars scalars, rfl⟩
  | @helper f o s symbol scalar exported =>
    refine ⟨.helper f, Routine.numeric_of_symbol? exported, exported, rfl, ?_, rfl⟩
    intro s' member
    obtain rfl := List.mem_singleton.mp member
    exact Operand.scalar?_in scalar

end Handler

namespace Registry

/-- A call is accepted if its handler is found and accepts the operands. -/
theorem lowerCall_ok_iff {r : Registry} {k k' : Kernel} {key : Key} {args : List Operand}
    {id : ValueId} : (r.lowerCall key args).run k = .ok (.ok id, k') ↔
      ∃ name h, r.resolve? key = some (name, h) ∧ (h.lower args).run k = .ok (.ok id, k') := by
  rw [lowerCall]
  cases resolved : r.resolve? key with
  | none => simp
  | some entry =>
    obtain ⟨name, h⟩ := entry
    constructor
    · intro lowered
      obtain ⟨⟨outcome, grown⟩, run, lowered⟩ := bind_ok.mp lowered
      cases outcome with
      | error reason => cases lowered
      | ok result =>
        cases lowered
        exact ⟨name, h, rfl, run⟩
    · rintro ⟨_, _, ⟨⟩, run⟩
      rw [StateT.run_bind, run]
      rfl

/-- The plan of a handler is carried out. -/
theorem lowerCall_of_plan {r : Registry} {k : Kernel} {key : Key} {args : List Operand}
    {name : String} {h : Handler} {plan : Plan} (resolved : r.resolve? key = some (name, h))
    (planned : h.plan k args = .ok plan) :
    ∃ id k', (r.lowerCall key args).run k = .ok (.ok id, k') ∧
      Recorded k k' (.value id plan.type) (plan.outcome k) := by
  obtain ⟨id, k', run, recorded⟩ := Plan.emit_records (Handler.accepts_of_plan planned).fits
  refine ⟨id, k', ?_, recorded⟩
  simp [lowerCall, resolved, Handler.lower_of_ok planned, run, Except.mapError]

/-- A call is declined in the kernel as it was, or its plan is carried out. -/
theorem lowerCall_cases (r : Registry) (k : Kernel) (key : Key) (args : List Operand) :
    (∃ e, (r.lowerCall key args).run k = .ok (.error e, k)) ∨
    (∃ name h plan id k', r.resolve? key = some (name, h) ∧ h.plan k args = .ok plan ∧
      (r.lowerCall key args).run k = .ok (.ok id, k') ∧
      Recorded k k' (.value id plan.type) (plan.outcome k)) := by
  cases resolved : r.resolve? key with
  | none =>
    refine Or.inl ⟨.unknownBuiltin key, ?_⟩
    rw [lowerCall, resolved]
    rfl
  | some entry =>
    obtain ⟨name, h⟩ := entry
    cases planned : h.plan k args with
    | error reason =>
      refine Or.inl ⟨.unsupported name reason, ?_⟩
      simp [lowerCall, resolved, Handler.lower_of_error planned, Except.mapError]
    | ok plan =>
      obtain ⟨id, k', run, recorded⟩ := lowerCall_of_plan resolved planned
      exact Or.inr ⟨name, h, plan, id, k', rfl, planned, run, recorded⟩

end Registry

end ScalarLowering
