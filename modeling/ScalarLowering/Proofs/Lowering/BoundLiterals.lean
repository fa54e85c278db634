import ScalarLowering.Proofs.Lowering.Meaning
import ScalarLowering.Proofs.Lowering.Parameters
import ScalarLowering.Proofs.Lowering.Signature

set_option autoImplicit false

/- Literals handed over as parameters. A literal is converted when a call is
lowered and the value of a parameter when it is computed, but a call on either
is accepted or declined for the same reason and has the same value. -/

namespace ScalarLowering

/-- An operand of a call. Each literal in it, at any depth, stays what it is or becomes a new
parameter that is bound to it. -/
inductive Passing where
  | literal (l : Literal) (asParam : Bool)
  | tuple (items : List Passing)
  | value (id : ValueId)

namespace Passing

mutual

/-- The operand with all of its literals. -/
def plain : Passing → Operand
  | .literal l _ => .literal l
  | .tuple items => .tuple (plainAll items)
  | .value id => .value id

def plainAll : List Passing → List Operand
  | [] => []
  | p :: ps => p.plain :: plainAll ps

end

mutual

/-- The operand with the chosen literals as parameters, and what these are bound to. -/
def handOver : Passing → Build (Operand × Bindings)
  | .literal l false => return (.literal l, [])
  | .literal l true => do
    let index := (← get).paramCount
    return (.value (← Build.param l.type), [(index, .ofLiteral l)])
  | .tuple items => do
    let (operands, bindings) ← handOverAll items
    return (.tuple operands, bindings)
  | .value id => return (.value id, [])

def handOverAll : List Passing → Build (List Operand × Bindings)
  | [] => return ([], [])
  | p :: ps => do
    let (operand, bindings) ← p.handOver
    let (operands, others) ← handOverAll ps
    return (operand :: operands, bindings ++ others)

end

theorem length_plainAll (ps : List Passing) : (plainAll ps).length = ps.length := by
  induction ps with
  | nil => rfl
  | cons p rest ih => rw [plainAll, List.length_cons, List.length_cons, ih]

/-- The bindings are those of the parameters by which `k` has grown to `k'`. -/
structure Fresh (k k' : Kernel) (bindings : Bindings) : Prop where
  adds : k.AddsParams k'
  count : k'.paramCount = k.paramCount + bindings.length
  indices : bindings.map (·.1) = List.range' k.paramCount bindings.length

theorem Fresh.nil (k : Kernel) : Fresh k k [] := ⟨.refl, rfl, rfl⟩

theorem Fresh.append {k k' k'' : Kernel} {bindings others : Bindings} (first : Fresh k k' bindings)
    (later : Fresh k' k'' others) : Fresh k k'' (bindings ++ others) where
  adds := first.adds.trans later.adds
  count := by
    rw [later.count, first.count, List.length_append]
    omega
  indices := by
    rw [List.map_append, first.indices, later.indices, first.count, List.length_append,
      List.range'_append_1]

mutual

/-- Handing literals over adds parameters and nothing else. -/
theorem handOver_run (p : Passing) (k : Kernel) :
    ∃ operand bindings k', p.handOver.run k = .ok ((operand, bindings), k') ∧
      Fresh k k' bindings := by
  cases p with
  | literal l asParam =>
    cases asParam with
    | false => exact ⟨_, _, k, rfl, .nil k⟩
    | true => exact ⟨_, _, _, rfl, .add .refl (.scalar l.type), rfl, rfl⟩
  | tuple items =>
    obtain ⟨operands, bindings, k', run, _, fresh⟩ := handOverAll_run items k
    refine ⟨.tuple operands, bindings, k', ?_, fresh⟩
    rw [handOver, StateT.run_bind, run]
    rfl
  | value id => exact ⟨_, _, k, rfl, .nil k⟩

theorem handOverAll_run (ps : List Passing) (k : Kernel) :
    ∃ operands bindings k', (handOverAll ps).run k = .ok ((operands, bindings), k') ∧
      operands.length = ps.length ∧ Fresh k k' bindings := by
  cases ps with
  | nil => exact ⟨[], [], k, rfl, rfl, .nil k⟩
  | cons p rest =>
    obtain ⟨operand, bindings, k₁, first, fresh⟩ := handOver_run p k
    obtain ⟨operands, others, k₂, later, length, freshLater⟩ := handOverAll_run rest k₁
    refine ⟨operand :: operands, bindings ++ others, k₂, ?_, ?_, fresh.append freshLater⟩
    · rw [handOverAll, StateT.run_bind, first, ok_bind, StateT.run_bind, later]
      rfl
    · rw [List.length_cons, List.length_cons, length]

end

end Passing

/-- The parameters of `k` keep their values, and new ones are bound as told. -/
structure Bindings.Extend (bindings : Bindings) (k : Kernel) (bound bound' : Nat → Option Value) :
    Prop where
  same : ∀ index < k.paramCount, bound' index = bound index
  given : ∀ b ∈ bindings, bound' b.1 = some b.2

namespace Operand

/-- `o'` is in `k'` what `o` is in `k`, for the checks of a handler and as a value. -/
structure Agrees (k k' : Kernel) (bindings : Bindings) (o o' : Operand) : Prop where
  shape : o'.shape k' = o.shape k
  meaning : ∀ bound bound', bindings.Extend k bound bound' →
    o'.meaning k' bound' = o.meaning k bound

variable {k k' : Kernel} {bindings : Bindings}

theorem Agrees.mono {others : Bindings} {o o' : Operand} (agrees : Agrees k k' bindings o o')
    (more : bindings ⊆ others) : Agrees k k' others o o' where
  shape := agrees.shape
  meaning := fun bound bound' extend =>
    agrees.meaning bound bound' ⟨extend.same, fun b member => extend.given b (more member)⟩

theorem agrees_of_defined (continues : k.Continues k') (numbered : k.Numbered) {id : ValueId}
    (defined : id.index < k.size) : Agrees k k' bindings (.value id) (.value id) := by
  have type : k'.typeOf? id = k.typeOf? id := by
    rw [Kernel.typeOf?, continues.instruction?_eq defined, Kernel.typeOf?]
  constructor
  · rw [shape, shape, type]
  · intro bound bound' extend
    have value : k'.demand bound' id = k.demand bound id := by
      rw [continues.demand_eq bound' defined, numbered.demand_congr_bound extend.same]
    rw [meaning, meaning, type, value]

/-- A parameter that is bound to a literal stands for the literal. -/
theorem agrees_of_param {l : Literal} {id : ValueId} {index : Nat}
    (recorded : k'.instruction? id = some ⟨.scalar l.type, .param index⟩) :
    Agrees k k' [(index, .ofLiteral l)] (.literal l) (.value id) := by
  have type : k'.typeOf? id = some (.scalar l.type) := by
    rw [Kernel.typeOf?, recorded]
    rfl
  have typed : (Value.ofLiteral l).type = l.type := by cases l <;> rfl
  constructor
  · rw [shape, shape, type]
  · intro bound bound' extend
    have given : bound' index = some (.ofLiteral l) := extend.given _ List.mem_cons_self
    have value : k'.demand bound' id = .ok (.ofLiteral l) := by
      rw [Kernel.demand_of_some bound' recorded (fun operand member => by cases member)]
      simp only [Instruction.demand, ValueType.demanded, ok_bind, boundValue, given, typed, if_true]
    rw [meaning, meaning, type, value]

end Operand

namespace Passing

variable {k k₀ k₁ k₂ : Kernel}

/-- Whatever is recorded behind it, an operand that was handed over stands for the plain one. -/
theorem handOver_agrees {p : Passing} {operand : Operand} {bindings : Bindings}
    (run : p.handOver.run k₀ = .ok ((operand, bindings), k₁)) (before : k.Continues k₀)
    (behind : k₁.Continues k₂) (numbered : k.Numbered)
    (defined : ∀ id, p = .value id → id.index < k.size) :
    Operand.Agrees k k₂ bindings p.plain operand := by
  cases p with
  | literal l asParam =>
    cases asParam with
    | false =>
      cases run
      exact ⟨rfl, fun _ _ _ => rfl⟩
    | true =>
      cases run
      have recorded : (k₀.addParam (.scalar l.type)).instruction? ⟨k₀.size⟩ =
          some ⟨.scalar l.type, .param k₀.paramCount⟩ := Kernel.instruction?_push _
      exact Operand.agrees_of_param (behind.instruction?_some recorded)
  | tuple items =>
    obtain ⟨operands, others, k', itemsRun, length, _⟩ := handOverAll_run items k₀
    rw [handOver, StateT.run_bind, itemsRun] at run
    cases run
    constructor
    · rw [plain, Operand.shape, Operand.shape, length, length_plainAll]
    · intro bound bound' _
      rw [plain, Operand.meaning, Operand.meaning, length, length_plainAll]
  | value id =>
    cases run
    exact Operand.agrees_of_defined (before.trans behind) numbered (defined id rfl)

theorem handOverAll_agrees {ps : List Passing} {operands : List Operand} {bindings : Bindings}
    (run : (handOverAll ps).run k₀ = .ok ((operands, bindings), k₁)) (before : k.Continues k₀)
    (behind : k₁.Continues k₂) (numbered : k.Numbered)
    (defined : ∀ id, .value id ∈ ps → id.index < k.size) :
    List.Forall₂ (Operand.Agrees k k₂ bindings) (plainAll ps) operands := by
  induction ps generalizing operands bindings k₀ with
  | nil =>
    cases run
    exact .nil
  | cons p rest ih =>
    obtain ⟨operand, firsts, k', first, fresh⟩ := handOver_run p k₀
    obtain ⟨others, laters, k'', later, _, freshLater⟩ := handOverAll_run rest k'
    rw [handOverAll, StateT.run_bind, first, ok_bind, StateT.run_bind, later] at run
    cases run
    have agrees := handOver_agrees first before (freshLater.adds.continues.trans behind) numbered
      fun id same => defined id (same ▸ List.mem_cons_self)
    have agree := ih later (before.trans fresh.adds.continues)
      fun id member => defined id (List.mem_cons_of_mem p member)
    refine .cons (agrees.mono (List.subset_append_left firsts laters)) ?_
    exact agree.imp fun _ _ agrees => agrees.mono (List.subset_append_right firsts laters)

end Passing

namespace Operand

variable {k k' : Kernel} {bindings : Bindings} {args args' : List Operand}

theorem shapes_of_agree (agree : List.Forall₂ (Agrees k k' bindings) args args') :
    args'.map (·.shape k') = args.map (·.shape k) := by
  induction agree with
  | nil => rfl
  | cons first _ ih => rw [List.map_cons, List.map_cons, first.shape, ih]

theorem meanings_of_agree (agree : List.Forall₂ (Agrees k k' bindings) args args')
    {bound bound' : Nat → Option Value} (extend : bindings.Extend k bound bound') :
    args'.map (·.meaning k' bound') = args.map (·.meaning k bound) := by
  induction agree with
  | nil => rfl
  | cons first _ ih => rw [List.map_cons, List.map_cons, first.meaning bound bound' extend, ih]

end Operand

namespace Handler

variable {k k' : Kernel} {h : Handler} {args args' : List Operand}

/-- The value of a lowered call is what the call means. -/
theorem eval?_of_lower (typed : k.WellTyped) {id : ValueId}
    (lowered : (h.lower args).run k = .ok (.ok id, k')) (bound : Nat → Option Value) :
    k'.eval? bound id = h.meaning? (args.map (·.meaning k bound)) := by
  obtain ⟨t, signature, _⟩ := signature_of_lower lowered
  obtain ⟨plan, id', grown, accepts, run, recorded⟩ := lower_of_signature signature
  cases lowered.symm.trans run
  have sound := typed.sound bound
  rw [(recorded.grows.wellTyped typed).ordered.eval?_eq bound id, recorded.demand_eq sound,
    accepts.meaning?_eq sound]

end Handler

namespace Passing

/-- Handing literals over as parameters that are bound to them does not change whether a call is
accepted, nor why it is declined, nor the type and the value of its result. The parameters take
the next indices of the kernel. -/
theorem lower_handOver {k : Kernel} (reachable : k.Reachable) (h : Handler) (ps : List Passing)
    (defined : ∀ id, .value id ∈ ps → id.index < k.size) :
    ∃ args bindings k', (handOverAll ps).run k = .ok ((args, bindings), k') ∧
      bindings.map (·.1) = List.range' k.paramCount bindings.length ∧
      ((∃ reason, (h.lower (plainAll ps)).run k = .ok (.error reason, k) ∧
          (h.lower args).run k' = .ok (.error reason, k')) ∨
        ∃ t id l id' l', (h.lower (plainAll ps)).run k = .ok (.ok id, l) ∧
          (h.lower args).run k' = .ok (.ok id', l') ∧
          l.scalarType? id = some t ∧ l'.scalarType? id' = some t ∧
          ∀ bound bound', bindings.Extend k bound bound' →
            l'.eval? bound' id' = l.eval? bound id) := by
  obtain ⟨args, bindings, k', run, _, fresh⟩ := handOverAll_run ps k
  refine ⟨args, bindings, k', run, fresh.indices, ?_⟩
  have agree := handOverAll_agrees run (.refl k) (.refl k') reachable.numbered defined
  have shapes := Operand.shapes_of_agree agree
  rcases h.signature_or_refuses ((plainAll ps).map (·.shape k)) with
    ⟨t, signature⟩ | ⟨reason, refuses⟩
  · have signature' : h.Signature (args.map (·.shape k')) t := by rwa [shapes]
    obtain ⟨_, id, l, _, lowered, recorded⟩ := Handler.lower_of_signature signature
    obtain ⟨_, id', l', _, lowered', recorded'⟩ := Handler.lower_of_signature signature'
    refine Or.inr ⟨t, id, l, id', l', lowered, lowered', recorded.inside, recorded'.inside, ?_⟩
    intro bound bound' extend
    have typed := reachable.wellTyped
    have typed' := (fresh.adds.reachable reachable).wellTyped
    rw [Handler.eval?_of_lower typed lowered, Handler.eval?_of_lower typed' lowered',
      Operand.meanings_of_agree agree extend]
  · have refuses' : h.Refuses (args.map (·.shape k')) reason := by rwa [shapes]
    exact Or.inl
      ⟨reason, Handler.lower_of_refuses refuses, Handler.lower_of_refuses refuses'⟩

/-- The lesser of a parameter and a literal. -/
def lesser : List Passing := [.value ⟨0⟩, .literal (.int 3) true]

theorem lesser_handOver :
    ∃ args k' id' l', (Kernel.empty.addParam (.scalar .int64)).Reachable ∧
      (handOverAll lesser).run (Kernel.empty.addParam (.scalar .int64)) =
        .ok ((args, [(1, .int .signed .w64 3)]), k') ∧
      ((Handler.extremum .min).lower args).run k' = .ok (.ok id', l') ∧
      l'.eval? (fun index => some (.int .signed .w64 (if index = 0 then 7 else 3))) id' =
        some (.ok (.int .signed .w64 3)) := by
  have reachable : (Kernel.empty.addParam (.scalar .int64)).Reachable :=
    .param .empty (Build.newParam_run (.scalar .int64) .empty)
  have defined : ∀ id, .value id ∈ lesser →
      id.index < (Kernel.empty.addParam (.scalar .int64)).size := by
    intro id member
    obtain rfl : id = ⟨0⟩ := by simpa [lesser] using member
    exact Nat.zero_lt_one
  have lowered : ((Handler.extremum .min).lower (plainAll lesser)).run
      (Kernel.empty.addParam (.scalar .int64)) =
      .ok (.ok ⟨3⟩, ((Kernel.empty.addParam (.scalar .int64)).push (.literal (.int 3) .int64)).push
        ⟨.scalar .bool, .compare .lt ⟨0⟩ ⟨1⟩⟩ |>.push ⟨.scalar .int64, .select ⟨2⟩ ⟨0⟩ ⟨1⟩⟩) := rfl
  obtain ⟨args, bindings, k', run, _, ⟨reason, declined, _⟩ |
      ⟨t, id, l, id', l', found, lowered', _, _, values⟩⟩ :=
    lower_handOver reachable (.extremum .min) lesser defined
  · cases lowered.symm.trans declined
  · cases lowered.symm.trans found
    cases run
    refine ⟨_, _, id', l', reachable, rfl, lowered', ?_⟩
    rw [values (fun _ => some (.int .signed .w64 7))]
    · rfl
    · constructor
      · intro index inside
        obtain rfl : index = 0 := Nat.lt_one_iff.mp inside
        rfl
      · intro b member
        obtain rfl := List.mem_singleton.mp member
        rfl

end Passing

end ScalarLowering
