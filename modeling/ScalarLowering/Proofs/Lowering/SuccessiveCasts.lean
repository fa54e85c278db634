import ScalarLowering.Proofs.Lowering.Signature
import ScalarLowering.Proofs.Lowering.Reachable
import ScalarLowering.Proofs.Value.Cast

set_option autoImplicit false

/- Casts of integers one after the other. The first of two casts can be left out if
its type is as wide as that of the second, or if it is a promotion and the second
cast leads back. -/

namespace ScalarLowering

/-- A cast from type `s` to type `u` may go through type `t`. -/
inductive NumType.Through : NumType → NumType → NumType → Prop
  | wider {s : NumType} (whole : s.isWhole = true) {sign sign' : Signedness} {n n' : IntWidth}
    (narrower : n'.bits ≤ n.bits) : Through s (.int sign n) (.int sign' n')
  | promoted {s u : NumType} (whole : s.isWhole = true) (whole' : u.isWhole = true) :
    Through s (s.promote u) s

namespace Value

variable {v : Value} {t u : NumType} {x : Int}

theorem cast_int_cast_int (whole : v.type.isWhole = true) (s s' : Signedness) {n n' : IntWidth}
    (narrower : n'.bits ≤ n.bits) :
    (v.cast (.int s n)).cast (.int s' n') = v.cast (.int s' n') := by
  obtain ⟨x, stands⟩ := exists_integer? whole
  have direct := integer?_cast_int stands s' n'
  have both := integer?_cast_int (integer?_cast_int stands s n) s' n'
  rw [s.residue_residue s' narrower] at both
  exact eq_of_integer? (by rw [type_cast, type_cast]) both direct

/-- From a type that holds the integer there is a way back. -/
theorem cast_cast_of_holds (stands : v.integer? = some x) (holds : t.Holds x) :
    (v.cast t).cast v.type = v := by
  have back := integer?_cast (integer?_cast stands holds) (holds_of_integer? stands)
  exact eq_of_integer? (type_cast _ _) back stands

theorem cast_promote_cast (whole : v.type.isWhole = true) (whole' : u.isWhole = true) :
    (v.cast (v.type.promote u)).cast v.type = v := by
  obtain ⟨x, stands⟩ := exists_integer? whole
  have holds := holds_of_integer? stands
  obtain ⟨lower, upper | ⟨widest, signed⟩⟩ := NumType.range_promote whole whole'
  · have range : (v.type.promote u).Holds x :=
      ⟨NumType.isWhole_promote whole whole', lower.trans holds.lower, holds.upper.trans upper⟩
    exact cast_cast_of_holds stands range
  · rw [signed, widest, cast_int_cast_int whole .signed .unsigned le_rfl, ← widest]
    exact cast_of_type rfl

/-- Promotion keeps every integer but those in the upper half of the widest unsigned type, and
these only beside a signed type. -/
theorem integer?_cast_promote_eq_iff (stands : v.integer? = some x) (whole : u.isWhole = true) :
    (v.cast (v.type.promote u)).integer? = some x ↔
      ¬ (v.type = .int .unsigned .w64 ∧ u.isSignedInt = true ∧ 2 ^ 63 ≤ x) := by
  have signed := NumType.isSignedInt_promote (isWhole_of_integer? stands) whole
  rw [integer?_cast_promote stands whole, Option.some.injEq, atCommonType_eq_iff, signed,
    not_iff_not]
  constructor
  · rintro ⟨either, large⟩
    have widest := type_of_large stands large
    rw [widest] at either
    exact ⟨widest, either, large⟩
  · rintro ⟨_, other, large⟩
    exact ⟨by rw [other, Bool.or_true], large⟩

theorem cast_cast (through : v.type.Through t u) : (v.cast t).cast u = v.cast u := by
  generalize type : v.type = s at through
  cases through with
  | wider whole narrower =>
    rw [← type] at whole
    exact cast_int_cast_int whole _ _ narrower
  | promoted whole whole' =>
    subst type
    rw [cast_promote_cast whole whole', cast_of_type rfl]

end Value

namespace Registry

variable {r : Registry} {key : Key} {k k' : Kernel} {o : Operand} {s : ScalarOperand}
variable {t : NumType} {id : ValueId}

theorem lowerCall_cast (found : r.lookup? key = some (.cast t)) (scalar : o.scalar? k = some s) :
    ∃ id k', (r.lowerCall key [o]).run k = .ok (.ok id, k') ∧
      Recorded k k' (.value id t) fun bound => (·.cast t) <$> s.outcome k bound := by
  obtain ⟨⟨name, h⟩, resolved, rfl⟩ := Option.map_eq_some_iff.mp found
  have planned : (Handler.cast t).plan k [o] = .ok (.cast s t) := by
    simp [Handler.plan, Plan.ofCast, Operand.only, Operand.scalarAt_of_scalar? scalar]
  exact lowerCall_of_plan resolved planned

theorem lowerCall_cast_records (found : r.lookup? key = some (.cast t))
    (scalar : o.scalar? k = some s) (lowered : (r.lowerCall key [o]).run k = .ok (.ok id, k')) :
    Recorded k k' (.value id t) fun bound => (·.cast t) <$> s.outcome k bound := by
  obtain ⟨id', l, lowered', recorded⟩ := lowerCall_cast found scalar
  cases lowered.symm.trans lowered'
  exact recorded

end Registry

namespace Operand

variable {k k₁ k₂ : Kernel} {r : Registry} {key key' : Key} {o : Operand} {s t u : NumType}
variable {id₁ id₂ : ValueId}

/-- The second of two casts evaluates to what the direct cast evaluates to, wherever that is
recorded. -/
theorem lowerCall_cast_cast (reachable : k.Reachable) (found : r.lookup? key = some (.cast t))
    (found' : r.lookup? key' = some (.cast u)) (shape : o.shape k = .scalar s)
    (through : s.Through t u) (first : (r.lowerCall key [o]).run k = .ok (.ok id₁, k₁))
    (second : (r.lowerCall key' [.value id₁]).run k₁ = .ok (.ok id₂, k₂)) (l : Kernel)
    (grows : k.Grows l) :
    ∃ id l', (r.lowerCall key' [o]).run l = .ok (.ok id, l') ∧
      ∀ bound, l'.eval? bound id = k₂.eval? bound id₂ := by
  obtain ⟨operand, scalar, rfl⟩ := scalar?_of_shape shape
  have inside := scalar?_in scalar
  have recorded := Registry.lowerCall_cast_records found scalar first
  have scalar' : (Operand.value id₁).scalar? k₁ = some (.value id₁ t) := by
    rw [scalar?, recorded.inside]
    rfl
  have recorded' := Registry.lowerCall_cast_records found' scalar' second
  obtain ⟨id, l', direct, recorded''⟩ :=
    Registry.lowerCall_cast found' (scalar?_mono scalar grows.continues)
  refine ⟨id, l', direct, ?_⟩
  intro bound
  have typed := reachable.wellTyped
  have typed₁ := recorded.grows.wellTyped typed
  have typed₂ := recorded'.grows.wellTyped typed₁
  have typedl := grows.wellTyped typed
  have typedl' := recorded''.grows.wellTyped typedl
  rw [typedl'.ordered.eval?_eq, typed₂.ordered.eval?_eq, recorded''.demand_eq (typedl.sound bound),
    recorded'.demand_eq (typed₁.sound bound), ScalarOperand.outcome,
    recorded.demand_eq (typed.sound bound), inside.outcome_eq grows.continues bound]
  -- Both ways compute the operand first, which has the same outcome in every kernel.
  have sound := inside.typed (typed.sound bound)
  cases computed : operand.outcome k bound with
  | error e => rfl
  | ok v =>
    rw [computed] at sound
    have type : v.type = operand.type := sound
    rw [← type] at through
    rw [map_ok, map_ok, map_ok, Value.cast_cast through]

end Operand

/-- Conversion of an integer by way of another type. A wider type makes no difference, and a
promotion leads back and keeps the integer, except that beside a signed type the upper half of the
widest unsigned type turns negative. Where this is so of the static types of two casts that are
lowered one after the other, they evaluate to what the direct cast evaluates to. -/
theorem Value.casts_compose :
    (∀ v : Value, v.type.isWhole = true → ∀ (s s' : Signedness) (n n' : IntWidth),
      n'.bits ≤ n.bits → (v.cast (.int s n)).cast (.int s' n') = v.cast (.int s' n')) ∧
    (∀ (v : Value) (u : NumType) (x : Int), v.integer? = some x → u.isWhole = true →
      (v.cast (v.type.promote u)).cast v.type = v ∧
        ((v.cast (v.type.promote u)).integer? = some x ↔
          ¬ (v.type = .int .unsigned .w64 ∧ u.isSignedInt = true ∧ 2 ^ 63 ≤ x))) ∧
    ∀ (k k₁ k₂ : Kernel) (r : Registry) (key key' : Key) (o : Operand) (s t u : NumType)
      (id₁ id₂ : ValueId), k.Reachable → r.lookup? key = some (.cast t) →
      r.lookup? key' = some (.cast u) → o.shape k = .scalar s → s.Through t u →
      (r.lowerCall key [o]).run k = .ok (.ok id₁, k₁) →
      (r.lowerCall key' [.value id₁]).run k₁ = .ok (.ok id₂, k₂) → ∀ l, k.Grows l →
      ∃ id l', (r.lowerCall key' [o]).run l = .ok (.ok id, l') ∧
        ∀ bound, l'.eval? bound id = k₂.eval? bound id₂ := by
  refine ⟨fun v whole s s' _ _ => cast_int_cast_int whole s s', ?_, ?_⟩
  · intro v u x stands whole
    exact ⟨cast_promote_cast (isWhole_of_integer? stands) whole,
      integer?_cast_promote_eq_iff stands whole⟩
  · intro k k₁ k₂ r key key' o s t u id₁ id₂ reachable found found' shape through first second
    exact Operand.lowerCall_cast_cast reachable found found' shape through first second

/-- Casts from the widest unsigned type to the signed type of its width and back. -/
def widestCasts : Registry :=
  (Registry.empty.register "there" (.cast .int64) none).register "back"
    (.cast (.int .unsigned .w64)) none

/-- A parameter that is cast there and back. -/
def thereAndBack : Kernel where
  definitions :=
    #[⟨⟨0⟩, .scalar (.int .unsigned .w64), .param 0⟩, ⟨⟨1⟩, .scalar .int64, .cast ⟨0⟩⟩,
      ⟨⟨2⟩, .scalar (.int .unsigned .w64), .cast ⟨1⟩⟩]
  paramCount := 1

/-- The direct cast is the parameter itself, since no cast to its own type is recorded. -/
theorem Value.there_and_back :
    ∀ bound, thereAndBack.eval? bound ⟨2⟩ = thereAndBack.eval? bound ⟨0⟩ := by
  have param : (Build.param (.int .unsigned .w64)).run .empty =
      .ok (⟨0⟩, Kernel.empty.addParam (.scalar (.int .unsigned .w64))) := rfl
  have reachable := Kernel.Reachable.param .empty param
  have there : (widestCasts.lowerCall (.name "there") [.value ⟨0⟩]).run
      (Kernel.empty.addParam (.scalar (.int .unsigned .w64))) =
      .ok (.ok ⟨1⟩, ⟨thereAndBack.definitions.pop, 1⟩) := rfl
  have back : (widestCasts.lowerCall (.name "back") [.value ⟨1⟩]).run
      ⟨thereAndBack.definitions.pop, 1⟩ = .ok (.ok ⟨2⟩, thereAndBack) := rfl
  have direct : (widestCasts.lowerCall (.name "back") [.value ⟨0⟩]).run thereAndBack =
      .ok (.ok ⟨0⟩, thereAndBack) := rfl
  have through : (NumType.int .unsigned .w64).Through .int64 (.int .unsigned .w64) :=
    .promoted (s := .int .unsigned .w64) (u := .int64) rfl rfl
  have grows := (Registry.lowerCall_grows there).trans (Registry.lowerCall_grows back)
  obtain ⟨id, l, lowered, same⟩ := casts_compose.2.2 _ _ thereAndBack widestCasts (.name "there")
    (.name "back") (.value ⟨0⟩) _ _ _ _ _ reachable rfl rfl rfl through there back thereAndBack
    grows
  cases lowered.symm.trans direct
  exact fun bound => (same bound).symm

end ScalarLowering
