import ScalarLowering.Proofs.Lowering.Acceptance
import ScalarLowering.Proofs.NumType.Promotion

set_option autoImplicit false

/- Lowering that checks operands while it records. Every use of an operand checks
it anew, also when instructions have been recorded before, and nothing is taken
back where a check fails. It comes to the same as planning first, because no
check fails once something has been recorded. -/

namespace ScalarLowering

/-- Building that may decline halfway. What has been recorded by then stays recorded. -/
abbrev Checked := ExceptT Decline Build

namespace Checked

/-- A check of the kernel as it is now. -/
def check {α : Type} (c : Kernel → Except Decline α) : Checked α := ExceptT.mk do return c (← get)

def scalarType (index : Nat) (o : Operand) : Checked NumType := do
  return (← check (o.scalarAt · index)).type

/-- The operand as a value of a type. -/
def castOperand (index : Nat) (t : NumType) (o : Operand) : Checked ValueId := do
  (← check (o.scalarAt · index)).emitAs t

/-- The operand as a value of its own type. -/
def materialize (index : Nat) (o : Operand) : Checked ValueId := do
  (← check (o.scalarAt · index)).emit

/-- The operands from a position on as values of one type. -/
def castFrom (t : NumType) : Nat → List Operand → Checked (List ValueId)
  | _, [] => return []
  | index, o :: rest => do
    let id ← castOperand index t o
    return id :: (← castFrom t (index + 1) rest)

def combine (which : Extremum) (index : Nat) (lhs rhs : Operand) : Checked ValueId := do
  let t := (← scalarType index lhs).promote (← scalarType (index + 1) rhs)
  let lhs ← castOperand index t lhs
  let rhs ← castOperand (index + 1) t rhs
  let condition ← Build.compare which.predicate lhs rhs
  Build.select condition lhs rhs

/-- Combines two or more operands from a position on, from the right. -/
def reduce (which : Extremum) : Nat → Operand → Operand → List Operand → Checked ValueId
  | index, o, next, [] => combine which index o next
  | index, o, next, later :: rest => do
    combine which index o (.value (← reduce which (index + 1) next later rest))

def lowerCast (t : NumType) (args : List Operand) : Checked ValueId := do
  castOperand 0 t (← check fun _ => Operand.only args)

def staticLength (args : List Operand) (k : Kernel) : Except Decline Int64 := do
  match (← Operand.only args).length? k with
  | some n =>
    if (n : Int) ≤ Int64.maxValue.toInt then return Int64.ofNat n else throw .noStaticLength
  | none => throw .noStaticLength

def lowerLen (args : List Operand) : Checked ValueId := do
  let n ← check (staticLength args)
  Build.constant (.int n) .int64

/-- The operands are scalars without an order only if one of them is complex. -/
def ordered (operands : List ScalarOperand) : Except Decline Unit :=
  if (broadcastType (operands.map (·.candidate))).any (·.isComplex) then
    match Plan.firstComplex? operands with
    | some (o, index) => .error (.operandType index o.type)
    | none => .error (.operandType 0 (.complex .double))
  else .ok ()

def lowerExtremum (which : Extremum) (args : List Operand) : Checked ValueId := do
  if args.length < 2 then throw (.minArity 2 args.length)
  let operands ← check (Operand.scalarsFrom · 0 args)
  check fun _ => ordered operands
  match args with
  | first :: next :: rest => reduce which 0 first next rest
  | _ => throw (.minArity 2 args.length)

/-- A call of an exported routine, with its template. -/
def callRoutine (symbol : String) (args : List ValueId) (t : NumType) : Build ValueId := do
  Build.call symbol args (← Build.constant (.int 0) t) false

def exported (name : String) (realMark : Bool) (argType declined : NumType) :
    Except Decline String :=
  match mathSymbol? name argType realMark with
  | some symbol => .ok symbol
  | none => .error (.operandType 0 declined)

def lowerAbs (args : List Operand) : Checked ValueId := do
  let o ← check fun _ => Operand.only args
  let t ← scalarType 0 o
  if t.isInt then
    let value ← materialize 0 o
    let zero ← Build.constant (.int 0) t
    let negative ← Build.compare .lt value zero
    let negated ← Build.neg value
    Build.select negative negated value
  else
    let symbol ← check fun _ => exported Builtin.abs.name true t t
    callRoutine symbol [← materialize 0 o] t.realType

/-- A call on a first operand of type `t` that is an integer or a floating number. -/
def callMath (f : MathFunction) (t : NumType) (first : Operand) (rest : List Operand) :
    Checked ValueId := do
  let _ ← check fun k => Plan.sameTypeFrom k t 1 rest
  let symbol ← check fun _ => exported f.name false t.mathType t
  callRoutine symbol (← castFrom t.mathType 0 (first :: rest)) t.mathType

def lowerMath (f : MathFunction) (args : List Operand) : Checked ValueId :=
  if args.length ≠ f.arity then throw (.arity f.arity args.length)
  else
    match args with
    | [] => throw (.arity f.arity 0)
    | first :: rest => do
      let t ← scalarType 0 first
      if t.isInt || t.isFloat then callMath f t first rest else throw (.operandType 0 t)

/-- Only integers are converted. -/
def helperOperand (t : NumType) (o : Operand) : Checked ValueId :=
  if t.isInt then castOperand 0 t.helperType o else materialize 0 o

def lowerHelper (f : HelperFunction) (args : List Operand) : Checked ValueId := do
  let o ← check fun _ => Operand.only args
  let t ← scalarType 0 o
  let symbol ← check fun _ => exported f.name false t.helperType t
  callRoutine symbol [← helperOperand t o] t.helperType

def lower (h : Handler) (args : List Operand) : Checked ValueId :=
  match h with
  | .cast t => lowerCast t args
  | .len => lowerLen args
  | .extremum which => lowerExtremum which args
  | .abs => lowerAbs args
  | .math f => lowerMath f args
  | .helper f => lowerHelper f args

section

variable {α β : Type} {k k' : Kernel}

def runIn (m : Checked α) (k : Kernel) : Except Violation (Except Decline α × Kernel) :=
  (ExceptT.run m).run k

theorem bind_of_ok {m : Checked α} {next : α → Checked β} {a : α}
    (first : m.runIn k = .ok (.ok a, k')) : (m >>= next).runIn k = (next a).runIn k' := by
  rw [runIn] at first
  rw [runIn, ExceptT.run_bind, StateT.run_bind, first]
  rfl

theorem bind_of_error {m : Checked α} {next : α → Checked β} {reason : Decline}
    (first : m.runIn k = .ok (.error reason, k')) :
    (m >>= next).runIn k = .ok (.error reason, k') := by
  rw [runIn] at first
  rw [runIn, ExceptT.run_bind, StateT.run_bind, first]
  rfl

theorem check_of_ok {c : Kernel → Except Decline α} {next : α → Checked β} {a : α}
    (passed : c k = .ok a) : (check c >>= next).runIn k = (next a).runIn k := by
  apply bind_of_ok
  rw [← passed]
  rfl

theorem check_of_error {c : Kernel → Except Decline α} {next : α → Checked β} {reason : Decline}
    (failed : c k = .error reason) : (check c >>= next).runIn k = .ok (.error reason, k) := by
  apply bind_of_error
  rw [← failed]
  rfl

theorem build_runIn (b : Build α) (k : Kernel) :
    runIn (liftM b) k = (fun p => (.ok p.1, p.2)) <$> b.run k := by
  simp [runIn]

theorem bind_of_build {m : Checked α} {next : α → Checked β} (b : Build α)
    (same : m.runIn k = (fun p => (.ok p.1, p.2)) <$> b.run k) :
    (m >>= next).runIn k = b.run k >>= fun p => (next p.1).runIn p.2 := by
  cases result : b.run k with
  | error violation =>
    rw [result] at same
    rw [runIn] at same
    rw [runIn, ExceptT.run_bind, StateT.run_bind, same]
    rfl
  | ok p =>
    rw [result] at same
    exact bind_of_ok same

theorem build_bind (b : Build α) (next : α → Checked β) (k : Kernel) :
    (liftM b >>= next).runIn k = b.run k >>= fun p => (next p.1).runIn p.2 :=
  bind_of_build b (build_runIn b k)

end

section

variable {k k' : Kernel} {o : Operand} {s : ScalarOperand}

theorem scalarType_of_ok {β : Type} {index : Nat} {next : NumType → Checked β}
    (scalar : o.scalarAt k index = .ok s) :
    (scalarType index o >>= next).runIn k = (next s.type).runIn k := by
  rw [scalarType, bind_assoc, check_of_ok scalar, pure_bind]

theorem castOperand_runIn {index : Nat} (scalar : o.scalarAt k index = .ok s) (t : NumType) :
    (castOperand index t o).runIn k = (fun p => (.ok p.1, p.2)) <$> (s.emitAs t).run k := by
  rw [castOperand, check_of_ok scalar, build_runIn]

theorem materialize_runIn {index : Nat} (scalar : o.scalarAt k index = .ok s) :
    (materialize index o).runIn k = (fun p => (.ok p.1, p.2)) <$> s.emit.run k := by
  rw [materialize, check_of_ok scalar, build_runIn]

theorem helperOperand_runIn (scalar : o.scalarAt k 0 = .ok s) :
    (helperOperand s.type o).runIn k =
      (fun p => (.ok p.1, p.2)) <$> (s.emitAs s.type.helperType).run k := by
  by_cases int : s.type.isInt = true
  · rw [helperOperand, if_pos int, castOperand_runIn scalar]
  · rw [helperOperand, if_neg int, materialize_runIn scalar, NumType.helperType, if_neg int,
      ScalarOperand.emit]

end

section

variable {k : Kernel} {h : Handler} {args : List Operand}

/-- A check that the plan makes as well declines what the plan declines. -/
theorem check_runIn {α : Type} {c : Kernel → Except Decline α} {m : α → Checked ValueId}
    {next : α → Except Decline Plan} (planned : h.plan k args = c k >>= next)
    (continued : ∀ a, c k = .ok a → h.plan k args = next a →
      (m a).runIn k = (h.lower args).run k) :
    (check c >>= m).runIn k = (h.lower args).run k := by
  cases result : c k with
  | error reason =>
    rw [result, error_bind] at planned
    rw [check_of_error result, Handler.lower_of_error planned]
  | ok a =>
    rw [result, ok_bind] at planned
    rw [check_of_ok result]
    exact continued a result planned

theorem scalarType_runIn {index : Nat} {o : Operand} {m : NumType → Checked ValueId}
    {next : ScalarOperand → Except Decline Plan}
    (planned : h.plan k args = o.scalarAt k index >>= next)
    (continued : ∀ s, o.scalarAt k index = .ok s → h.plan k args = next s →
      (m s.type).runIn k = (h.lower args).run k) :
    (scalarType index o >>= m).runIn k = (h.lower args).run k := by
  rw [scalarType, bind_assoc]
  apply check_runIn planned
  intro s scalar planned
  rw [pure_bind]
  exact continued s scalar planned

theorem routine_eq (name : String) (realMark : Bool) (operands : List ScalarOperand)
    (argType resultType declined : NumType) :
    Plan.routine name realMark operands argType resultType declined =
      exported name realMark argType declined >>= fun symbol =>
        .ok (.call symbol operands argType resultType) := by
  rw [Plan.routine, exported]
  cases mathSymbol? name argType realMark <;> rfl

theorem lowerCast_runIn (t : NumType) (args : List Operand) (k : Kernel) :
    (lowerCast t args).runIn k = ((Handler.cast t).lower args).run k := by
  have planned : (Handler.cast t).plan k args = Operand.only args >>= fun o =>
      o.scalarAt k 0 >>= fun s => .ok (.cast s t) := rfl
  apply check_runIn planned
  intro o _ planned
  apply check_runIn planned
  intro s _ planned
  rw [build_runIn, Handler.lower_of_ok planned, Plan.emit]

theorem plan_len (args : List Operand) (k : Kernel) :
    Handler.len.plan k args = staticLength args k >>= fun n => .ok (.length n) := by
  rw [Handler.plan, Plan.ofLen, staticLength]
  cases Operand.only args with
  | error reason => rfl
  | ok o =>
    rw [ok_bind, ok_bind]
    cases o.length? k with
    | none => rfl
    | some n =>
      by_cases small : (n : Int) ≤ Int64.maxValue.toInt
      · simp only [small, if_true]
        rfl
      · simp only [small, if_false]
        rfl

theorem lowerLen_runIn (args : List Operand) (k : Kernel) :
    (lowerLen args).runIn k = (Handler.len.lower args).run k := by
  apply check_runIn (plan_len args k)
  intro n _ planned
  rw [build_runIn, Handler.lower_of_ok planned, Plan.emit]

theorem lowerAbs_runIn (args : List Operand) (k : Kernel) :
    (lowerAbs args).runIn k = (Handler.abs.lower args).run k := by
  have planned : Handler.abs.plan k args = Operand.only args >>= fun o =>
      o.scalarAt k 0 >>= fun s =>
        if s.type.isInt then .ok (.integerAbs s)
        else Plan.routine Builtin.abs.name true [s] s.type s.type.realType s.type := rfl
  apply check_runIn planned
  intro o _ planned
  apply scalarType_runIn planned
  intro s scalar planned
  by_cases int : s.type.isInt = true
  · rw [if_pos int] at planned ⊢
    rw [bind_of_build _ (materialize_runIn scalar), Handler.lower_of_ok planned]
    simp [Plan.emit, build_bind, build_runIn]
  · rw [if_neg int] at planned ⊢
    rw [routine_eq] at planned
    apply check_runIn planned
    intro symbol _ planned
    rw [bind_of_build _ (materialize_runIn scalar), Handler.lower_of_ok planned]
    simp [Plan.emit, callRoutine, build_bind, build_runIn, ScalarOperand.emit]

theorem lowerHelper_runIn (f : HelperFunction) (args : List Operand) (k : Kernel) :
    (lowerHelper f args).runIn k = ((Handler.helper f).lower args).run k := by
  have planned : (Handler.helper f).plan k args = Operand.only args >>= fun o =>
      o.scalarAt k 0 >>= fun s =>
        Plan.routine f.name false [s] s.type.helperType s.type.helperType s.type := rfl
  apply check_runIn planned
  intro o _ planned
  apply scalarType_runIn planned
  intro s scalar planned
  rw [routine_eq] at planned
  apply check_runIn planned
  intro symbol _ planned
  rw [bind_of_build _ (helperOperand_runIn scalar), Handler.lower_of_ok planned]
  simp [Plan.emit, callRoutine, build_bind, build_runIn]

end

section

variable {k k' : Kernel}

theorem castFrom_runIn {t : NumType} {args : List Operand} {operands : List ScalarOperand}
    {index : Nat} {ids : List ValueId} (scalars : args.map (·.scalar? k) = operands.map some)
    (run : StateT.run (operands.mapM (·.emitAs t)) k = .ok (ids, k')) :
    (castFrom t index args).runIn k = .ok (.ok ids, k') := by
  induction args generalizing operands index ids k with
  | nil =>
    obtain rfl := List.map_eq_nil_iff.mp scalars.symm
    cases run
    rfl
  | cons o rest ih =>
    cases operands with
    | nil => cases scalars
    | cons s others =>
      obtain ⟨first, later⟩ := List.cons.inj scalars
      obtain ⟨id, k₁, runFirst, recorded⟩ :=
        ScalarOperand.emitAs_records (Operand.scalar?_in first) t
      rw [List.mapM_cons, StateT.run_bind, runFirst, ok_bind, StateT.run_bind] at run
      obtain ⟨⟨others', k₂⟩, runRest, run⟩ := bind_ok.mp run
      cases run
      have kept := Operand.scalars_mono later recorded.grows.continues
      have cast : (castOperand index t o).runIn k = .ok (.ok id, k₁) := by
        rw [castOperand_runIn (Operand.scalarAt_of_scalar? first index), runFirst]
        rfl
      rw [castFrom, bind_of_ok cast, bind_of_ok (ih kept runRest)]
      rfl

theorem callRoutine_emit {symbol : String} {t : NumType} {args : List Operand}
    {operands : List ScalarOperand} (scalars : args.map (·.scalar? k) = operands.map some) :
    (castFrom t 0 args >>= fun ids => liftM (callRoutine symbol ids t)).runIn k =
      (fun p => (.ok p.1, p.2)) <$> (Plan.call symbol operands t t).emit.run k := by
  obtain ⟨ids, k', run, _⟩ := ScalarOperand.emitAs_mapM t (Operand.in_of_scalars scalars)
  rw [bind_of_ok (castFrom_runIn scalars run), build_runIn, Plan.emit, StateT.run_bind, run]
  rfl

theorem lowerMath_runIn (f : MathFunction) (args : List Operand) (k : Kernel) :
    (lowerMath f args).runIn k = ((Handler.math f).lower args).run k := by
  match args with
  | [] =>
    have wrong : ([] : List Operand).length ≠ f.arity := by cases f <;> decide
    have declined : (Handler.math f).plan k [] = .error (.arity f.arity 0) := by
      rw [Handler.plan, Plan.ofMath, if_pos wrong]
      rfl
    rw [lowerMath, if_pos wrong, Handler.lower_of_error declined]
    rfl
  | first :: rest =>
    by_cases count : (first :: rest).length = f.arity
    · have planned : (Handler.math f).plan k (first :: rest) =
          first.scalarAt k 0 >>= fun s =>
            if s.type.isInt || s.type.isFloat then
              Plan.sameTypeFrom k s.type 1 rest >>= fun others =>
                Plan.routine f.name false (s :: others) s.type.mathType s.type.mathType s.type
            else .error (.operandType 0 s.type) := by
        rw [Handler.plan, Plan.ofMath, if_neg (not_not_intro count)]
        rfl
      rw [lowerMath, if_neg (not_not_intro count)]
      apply scalarType_runIn planned
      intro s scalar planned
      by_cases kind : (s.type.isInt || s.type.isFloat) = true
      · rw [if_pos kind] at planned ⊢
        apply check_runIn planned
        intro others later planned
        rw [routine_eq] at planned
        apply check_runIn planned
        intro symbol _ planned
        have scalars : (first :: rest).map (·.scalar? k) = (s :: others).map some := by
          rw [List.map_cons, List.map_cons, Operand.scalarAt_ok scalar,
            (Plan.sameTypeFrom_ok later).1]
        rw [Handler.lower_of_ok planned]
        exact callRoutine_emit scalars
      · rw [if_neg kind] at planned ⊢
        rw [Handler.lower_of_error planned]
        rfl
    · have declined : (Handler.math f).plan k (first :: rest) =
          .error (.arity f.arity (first :: rest).length) := by
        rw [Handler.plan, Plan.ofMath, if_pos count]
        rfl
      rw [lowerMath, if_pos count, Handler.lower_of_error declined]
      rfl

/-- The second operand is still a scalar when the first one has been recorded. -/
theorem combine_runIn (which : Extremum) (index : Nat) {lhs rhs : Operand} {l r : ScalarOperand}
    (left : lhs.scalar? k = some l) (right : rhs.scalar? k = some r)
    (real : (l.type.promote r.type).isComplex = false) :
    ∃ id k', (combine which index lhs rhs).runIn k = .ok (.ok id, k') ∧
      (which.combine l r).run k = .ok (.value id (l.type.promote r.type), k') ∧
      Recorded k k' (.value id (l.type.promote r.type)) (fun bound => do
        let a ← l.outcome k bound
        let b ← r.outcome k bound
        return a.choose which b) := by
  have leftIn := Operand.scalar?_in left
  have rightIn := Operand.scalar?_in right
  obtain ⟨id, k', run, recorded⟩ := which.combine_records leftIn rightIn real
  refine ⟨id, k', ?_, run, recorded⟩
  obtain ⟨a, k₁, runLeft, first⟩ :=
    ScalarOperand.emitAs_records leftIn (l.type.promote r.type)
  have right₁ := Operand.scalar?_mono right first.grows.continues
  rw [combine, scalarType_of_ok (Operand.scalarAt_of_scalar? left index),
    scalarType_of_ok (Operand.scalarAt_of_scalar? right (index + 1)),
    bind_of_build _ (castOperand_runIn (Operand.scalarAt_of_scalar? left index) _), runLeft,
    ok_bind, bind_of_build _ (castOperand_runIn (Operand.scalarAt_of_scalar? right₁ _) _)]
  rw [Extremum.combine, StateT.run_bind, runLeft, ok_bind, StateT.run_bind] at run
  obtain ⟨⟨b, k₂⟩, runRight, run⟩ := bind_ok.mp run
  rw [StateT.run_bind] at run
  obtain ⟨⟨condition, k₃⟩, runCompare, run⟩ := bind_ok.mp run
  rw [StateT.run_bind] at run
  obtain ⟨⟨chosen, k₄⟩, runSelect, run⟩ := bind_ok.mp run
  cases run
  rw [runRight, ok_bind, build_bind, runCompare, ok_bind, build_runIn, runSelect, map_ok]

/-- The operands that are still to come stay the scalars they are, and so does what the later ones
have been combined to. -/
theorem reduce_runIn (which : Extremum) (index : Nat) {o next : Operand} {rest : List Operand}
    {s last : ScalarOperand} {earlier : List ScalarOperand}
    (scalars : (o :: next :: rest).map (·.scalar? k) = (s :: earlier ++ [last]).map some)
    (real : ∀ s' ∈ s :: earlier ++ [last], s'.type.isComplex = false) :
    ∃ id t k', (reduce which index o next rest).runIn k = .ok (.ok id, k') ∧
      StateT.run ((s :: earlier).foldrM which.combine last) k = .ok (.value id t, k') ∧
      k'.scalarType? id = some t := by
  induction rest generalizing index o next s earlier with
  | nil =>
    cases earlier with
    | nil =>
      obtain ⟨first, later⟩ := List.cons.inj scalars
      have second := (List.cons.inj later).1
      have common : (s.type.promote last.type).isComplex = false := by
        rw [NumType.isComplex_promote, real s (by simp), real last (by simp)]
        rfl
      obtain ⟨id, k', run, combined, recorded⟩ := combine_runIn which index first second common
      refine ⟨id, _, k', run, ?_, recorded.inside⟩
      rw [List.foldrM_cons, List.foldrM_nil, pure_bind]
      exact combined
    | cons _ _ => simp at scalars
  | cons after rest ih =>
    cases earlier with
    | nil => simp at scalars
    | cons s' earlier =>
      obtain ⟨first, later⟩ := List.cons.inj scalars
      have realLater : ∀ s'' ∈ s' :: earlier ++ [last], s''.type.isComplex = false :=
        fun s'' member => real s'' (List.mem_cons_of_mem s member)
      obtain ⟨acc, t, k₁, reduced, folded, scalar⟩ := ih (index + 1) later realLater
      have fits : (Plan.extremum which (s' :: earlier) last).Fits k := fun s'' member =>
        ⟨Operand.in_of_scalars later s'' member, realLater s'' member⟩
      obtain ⟨_, _, folded', _, accReal, grown⟩ := Extremum.combineAll_records which fits
      cases folded.symm.trans folded'
      have common : (s.type.promote t).isComplex = false := by
        rw [NumType.isComplex_promote, real s (by simp)]
        exact accReal
      have first₁ := Operand.scalar?_mono first grown.grows.continues
      have acc₁ : (Operand.value acc).scalar? k₁ = some (.value acc t) := by
        rw [Operand.scalar?, scalar]
        rfl
      obtain ⟨id, k', run, combined, recorded⟩ := combine_runIn which index first₁ acc₁ common
      refine ⟨id, _, k', ?_, ?_, recorded.inside⟩
      · rw [reduce, bind_of_ok reduced]
        exact run
      · rw [List.foldrM_cons, StateT.run_bind, folded]
        exact combined

/-- Promotion is complex where an operand is. -/
theorem broadcastType_isComplex (operands : List ScalarOperand) :
    (broadcastType (operands.map (·.candidate))).any (·.isComplex) =
      operands.any (·.type.isComplex) := by
  cases operands with
  | nil => rfl
  | cons o rest =>
    rw [broadcastType_eq_common (mt List.map_eq_nil_iff.mp (List.cons_ne_nil o rest)),
      Option.any_some, NumType.common_any rfl NumType.isComplex_promote, List.any_map,
      List.any_map]
    rfl

theorem ordered_of_none {operands : List ScalarOperand}
    (absent : Plan.firstComplex? operands = none) : ordered operands = .ok () := by
  have real := Plan.real_of_firstComplex? absent
  have none : operands.any (·.type.isComplex) = false := by
    rw [List.any_eq_false]
    intro s member
    rw [real s member]
    exact Bool.false_ne_true
  rw [ordered, broadcastType_isComplex, none]
  rfl

theorem ordered_of_some {operands : List ScalarOperand} {o : ScalarOperand} {index : Nat}
    (found : Plan.firstComplex? operands = some (o, index)) :
    ordered operands = .error (.operandType index o.type) := by
  have complex : o.type.isComplex = true := by simpa using List.find?_some found
  have member : o ∈ operands := List.fst_mem_of_mem_zipIdx (List.mem_of_find?_eq_some found)
  have any : operands.any (·.type.isComplex) = true := List.any_eq_true.mpr ⟨o, member, complex⟩
  rw [ordered, broadcastType_isComplex, any, if_pos rfl, found]

theorem reduce_emit (which : Extremum) {first next : Operand} {rest : List Operand}
    {operands : List ScalarOperand} {last : ScalarOperand}
    (scalars : (first :: next :: rest).map (·.scalar? k) = operands.map some)
    (real : ∀ s ∈ operands, s.type.isComplex = false) (atEnd : operands.getLast? = some last) :
    (reduce which 0 first next rest).runIn k = (fun p => (.ok p.1, p.2)) <$>
      (Plan.extremum which operands.dropLast last).emit.run k := by
  have split := List.dropLast_append_getLast? last atEnd
  cases earlier : operands.dropLast with
  | nil =>
    rw [earlier] at split
    rw [← split] at scalars
    simp at scalars
  | cons s others =>
    rw [earlier] at split
    rw [← split] at scalars real
    obtain ⟨id, t, k', reduced, folded, scalar⟩ := reduce_runIn which 0 scalars real
    have emitted : (ScalarOperand.value id t).emit.run k' = .ok (id, k') := by
      simp [ScalarOperand.emit, ScalarOperand.emitAs, ScalarOperand.type, ScalarOperand.candidate,
        Candidate.type, Build.cast, scalar]
    rw [reduced, Plan.emit, StateT.run_bind, folded, ok_bind, emitted, map_ok]

theorem real_of_ordered {operands : List ScalarOperand} (passed : ordered operands = .ok ()) :
    ∀ s ∈ operands, s.type.isComplex = false := by
  cases complex : Plan.firstComplex? operands with
  | some entry =>
    obtain ⟨o, index⟩ := entry
    rw [ordered_of_some complex] at passed
    cases passed
  | none => exact Plan.real_of_firstComplex? complex

theorem plan_extremum (which : Extremum) {args : List Operand} (enough : ¬ args.length < 2) :
    (Handler.extremum which).plan k args = Operand.scalarsFrom k 0 args >>= fun operands =>
      ordered operands >>= fun _ =>
        match operands.getLast? with
        | some last => .ok (.extremum which operands.dropLast last)
        | none => .error (.minArity 2 args.length) := by
  rw [Handler.plan, Plan.ofExtremum, if_neg enough]
  cases Operand.scalarsFrom k 0 args with
  | error reason => rfl
  | ok operands =>
    simp only [ok_bind]
    cases complex : Plan.firstComplex? operands with
    | some entry =>
      obtain ⟨o, index⟩ := entry
      rw [ordered_of_some complex]
      rfl
    | none =>
      rw [ordered_of_none complex]
      cases operands.getLast? <;> rfl

theorem lowerExtremum_runIn (which : Extremum) (args : List Operand) (k : Kernel) :
    (lowerExtremum which args).runIn k = ((Handler.extremum which).lower args).run k := by
  match args with
  | [] | [_] => rfl
  | first :: next :: rest =>
    have enough : ¬ (first :: next :: rest).length < 2 := by
      rw [List.length_cons, List.length_cons]
      omega
    have planned := plan_extremum (k := k) which enough
    rw [lowerExtremum, if_neg enough]
    apply check_runIn planned
    intro operands found planned
    have scalars := Operand.scalarsFrom_ok found
    apply check_runIn planned
    intro _ passed planned
    cases atEnd : operands.getLast? with
    | none =>
      rw [List.getLast?_eq_none_iff.mp atEnd] at scalars
      cases scalars
    | some last =>
      rw [atEnd] at planned
      rw [Handler.lower_of_ok planned]
      exact reduce_emit which scalars (real_of_ordered passed) atEnd

/-- Checking on the way comes to what planning first does. -/
theorem lower_runIn (h : Handler) (args : List Operand) (k : Kernel) :
    (lower h args).runIn k = (h.lower args).run k := by
  cases h with
  | cast t => exact lowerCast_runIn t args k
  | len => exact lowerLen_runIn args k
  | extremum which => exact lowerExtremum_runIn which args k
  | abs => exact lowerAbs_runIn args k
  | math f => exact lowerMath_runIn f args k
  | helper f => exact lowerHelper_runIn f args k

end

end Checked

namespace Registry

/-- Lowers a call by handlers that check operands while they record. -/
def lowerCallChecked (r : Registry) (key : Key) (args : List Operand) :
    Build (Except LoweringError ValueId) := do
  match r.resolve? key with
  | none => return .error (.unknownBuiltin key)
  | some (name, handler) =>
    return (← (Checked.lower handler args).run).mapError (.unsupported name)

theorem lowerCallChecked_eq (r : Registry) (key : Key) (args : List Operand) :
    r.lowerCallChecked key args = r.lowerCall key args := by
  rw [lowerCallChecked, lowerCall]
  cases r.resolve? key with
  | none => rfl
  | some entry =>
    obtain ⟨name, h⟩ := entry
    have same : (Checked.lower h args).run = h.lower args :=
      funext fun k => Checked.lower_runIn h args k
    simp only [same]

/-- A call meets the requirements of every builder operation it uses, in whatever kernel it is
lowered. It is recorded as a whole behind the instructions that were there, or not at all, and it
does not matter whether all operands are checked first or anew at each use. -/
theorem lowerCall_all_or_nothing (r : Registry) (k : Kernel) (key : Key) (args : List Operand) :
    ∃ outcome k', (r.lowerCall key args).run k = .ok (outcome, k') ∧
      (r.lowerCallChecked key args).run k = .ok (outcome, k') ∧
      match outcome with
      | .error _ => k' = k
      | .ok id =>
        (∃ added,
          k'.definitions.toList = k.definitions.toList ++ Kernel.definitionsFrom k.size added ∧
          ∀ i ∈ added, ∀ index, i.operation ≠ .param index) ∧
        k'.paramCount = k.paramCount ∧ ∃ t, k'.scalarType? id = some t := by
  rw [lowerCallChecked_eq]
  rcases r.lowerCall_cases k key args with
    ⟨e, declined⟩ | ⟨name, h, plan, id, k', _, _, lowered, recorded⟩
  · exact ⟨.error e, k, declined, declined, rfl⟩
  · exact ⟨.ok id, k', lowered, lowered, recorded.grows.added, recorded.grows.params, plan.type,
      recorded.inside⟩

end Registry

end ScalarLowering
