import ScalarLowering.Lowering.Plan
import ScalarLowering.Proofs.NumType.Promotion
import ScalarLowering.Proofs.Outcome
import ScalarLowering.Proofs.Value.Integer

set_option autoImplicit false

/- The common type of operands, told by which types are present. The checks of a
call combine the types from the left and the choices of an extremum combine them
from the right, two at a time; neither shows in the type that comes of it. -/

namespace ScalarLowering

theorem IntWidth.bits_max (v w : IntWidth) : (max v w).bits = max v.bits w.bits := by
  cases v <;> cases w <;> rfl

theorem IntWidth.bits_doubled (w : IntWidth) : w.doubled.bits = min 64 (2 * w.bits) := by
  cases w <;> rfl

theorem IntWidth.bits_pos (w : IntWidth) : 0 < w.bits := by
  cases w <;> decide

namespace NumType

variable {t u : NumType} {types : List NumType} {s : Signedness} {w : IntWidth} {a b : Nat}

/-- Of floating and complex types, those with components of double precision. -/
def isDouble : NumType → Bool
  | .float .double | .complex .double => true
  | _ => false

/-- The width of an integer type of the given signedness, and 0 for every other type. -/
def widthAs (s : Signedness) : NumType → Nat
  | .int s' w => if s' = s then w.bits else 0
  | _ => 0

/-- The greatest width of the integer types of a signedness. -/
def widest (s : Signedness) (types : List NumType) : Nat :=
  (types.map (·.widthAs s)).foldr max 0

/-- The common type in closed form. Complex types come before floating ones and these before all
others, and precision counts only among them; signed integers reach over the unsigned ones as far
as 64 bits allow. -/
def ofPresent? (types : List NumType) : Option NumType :=
  let precision : Precision := if types.any (·.isDouble) then .double else .single
  if types.any (·.isComplex) then some (.complex precision)
  else if types.any (·.isFloat) then some (.float precision)
  else if types.all (·.isBool) then some .bool
  else if types.any (·.isSignedInt) && types.any (·.isUnsignedInt) then
    int? .signed (max (widest .signed types) (min 64 (2 * widest .unsigned types)))
  else if types.any (·.isSignedInt) then int? .signed (widest .signed types)
  else int? .unsigned (widest .unsigned types)

theorem int?_bits (s : Signedness) (w : IntWidth) : int? s w.bits = some (.int s w) := by
  cases w <;> rfl

theorem widest_cons (s : Signedness) (t : NumType) (types : List NumType) :
    widest s (t :: types) = max (t.widthAs s) (widest s types) := rfl

/-- The common type of booleans and integers whose widest signed and unsigned widths are given. -/
inductive Spans : Nat → Nat → NumType → Prop
  | bool : Spans 0 0 .bool
  | unsigned (w : IntWidth) : Spans 0 w.bits (.int .unsigned w)
  | signed {a b : Nat} {w : IntWidth} (present : 0 < a) (width : w.bits = max a (min 64 (2 * b))) :
    Spans a b (.int .signed w)

/-- One more boolean or integer widens the width of its own signedness. -/
theorem Spans.promote (spans : Spans a b u) (whole : t.isWhole = true) :
    Spans (max (t.widthAs .signed) a) (max (t.widthAs .unsigned) b) (t.promote u) := by
  cases t with
  | float p => cases whole
  | complex p => cases whole
  | bool => simpa [widthAs, NumType.promote] using spans
  | int s v =>
    have positive := v.bits_pos
    cases s with
    | signed =>
      have widths : widthAs .signed (.int .signed v) = v.bits ∧
          widthAs .unsigned (.int .signed v) = 0 := ⟨rfl, rfl⟩
      rw [widths.1, widths.2]
      cases spans with
      | bool => exact .signed (by omega) (by omega)
      | unsigned w =>
        refine .signed (by omega) ?_
        rw [IntWidth.bits_max, IntWidth.bits_doubled]
        omega
      | signed present width =>
        refine .signed (by omega) ?_
        rw [IntWidth.bits_max]
        omega
    | unsigned =>
      have widths : widthAs .signed (.int .unsigned v) = 0 ∧
          widthAs .unsigned (.int .unsigned v) = v.bits := ⟨rfl, rfl⟩
      rw [widths.1, widths.2]
      cases spans with
      | bool =>
        rw [Nat.max_self, Nat.max_zero]
        exact .unsigned v
      | unsigned w =>
        have wider := Spans.unsigned (max v w)
        rwa [IntWidth.bits_max] at wider
      | signed present width =>
        refine .signed (by omega) ?_
        rw [IntWidth.bits_max, IntWidth.bits_doubled]
        omega

theorem spans_common (whole : ∀ t ∈ types, t.isWhole = true) :
    Spans (widest .signed types) (widest .unsigned types) (common types) := by
  induction types with
  | nil => exact .bool
  | cons t rest ih =>
    obtain ⟨first, later⟩ := List.forall_mem_cons.mp whole
    exact (ih later).promote first

theorem any_iff_widest_pos {p : NumType → Bool} (s : Signedness)
    (same : ∀ t, p t = true ↔ 0 < t.widthAs s) (types : List NumType) :
    types.any p = true ↔ 0 < widest s types := by
  induction types with
  | nil => exact iff_of_false Bool.false_ne_true (Nat.lt_irrefl 0)
  | cons t rest ih =>
    rw [List.any_cons, Bool.or_eq_true_iff, same, ih, widest_cons]
    omega

theorem any_isSignedInt (types : List NumType) :
    types.any (·.isSignedInt) = true ↔ 0 < widest .signed types := by
  apply any_iff_widest_pos
  have table : ∀ t ∈ all, t.isSignedInt = true ↔ 0 < t.widthAs .signed := by decide
  exact fun t => table t (mem_all t)

theorem any_isUnsignedInt (types : List NumType) :
    types.any (·.isUnsignedInt) = true ↔ 0 < widest .unsigned types := by
  apply any_iff_widest_pos
  have table : ∀ t ∈ all, t.isUnsignedInt = true ↔ 0 < t.widthAs .unsigned := by decide
  exact fun t => table t (mem_all t)

theorem isDouble_promote (s t : NumType) : (s.promote t).isDouble = (s.isDouble || t.isDouble) := by
  have table : ∀ s ∈ all, ∀ t ∈ all,
      (s.promote t).isDouble = (s.isDouble || t.isDouble) := by decide
  exact table s (mem_all s) t (mem_all t)

theorem not_isWhole_promote (s t : NumType) :
    (!(s.promote t).isWhole) = (!s.isWhole || !t.isWhole) := by
  have table : ∀ s ∈ all, ∀ t ∈ all,
      (!(s.promote t).isWhole) = (!s.isWhole || !t.isWhole) := by decide
  exact table s (mem_all s) t (mem_all t)

theorem eq_complex (complex : t.isComplex = true) :
    t = .complex (if t.isDouble then .double else .single) := by
  have table : ∀ t ∈ all, t.isComplex = true →
      t = .complex (if t.isDouble then .double else .single) := by decide
  exact table t (mem_all t) complex

theorem eq_float (float : t.isFloat = true) :
    t = .float (if t.isDouble then .double else .single) := by
  have table : ∀ t ∈ all, t.isFloat = true →
      t = .float (if t.isDouble then .double else .single) := by decide
  exact table t (mem_all t) float

theorem isFloat_of_real (real : t.isComplex = false) : t.isFloat = !t.isWhole := by
  cases t with
  | complex p => cases real
  | _ => rfl

theorem all_isBool_iff (whole : ∀ t ∈ types, t.isWhole = true) :
    types.all (·.isBool) = true ↔ widest .signed types = 0 ∧ widest .unsigned types = 0 := by
  induction types with
  | nil => exact iff_of_true rfl ⟨rfl, rfl⟩
  | cons t rest ih =>
    obtain ⟨first, later⟩ := List.forall_mem_cons.mp whole
    have alone : ∀ t ∈ all, t.isWhole = true →
        (t.isBool = true ↔ t.widthAs .signed = 0 ∧ t.widthAs .unsigned = 0) := by decide
    rw [List.all_cons, Bool.and_eq_true_iff, alone t (mem_all t) first, ih later, widest_cons,
      widest_cons]
    omega

theorem any_isFloat (real : types.any (·.isComplex) = false) :
    types.any (·.isFloat) = !(common types).isWhole := by
  have none : ∀ t ∈ types, t.isComplex = false := by simpa using real
  rw [common_any (p := fun t => !t.isWhole) rfl not_isWhole_promote types]
  rw [Bool.eq_iff_iff, List.any_eq_true, List.any_eq_true]
  exact exists_congr fun t => and_congr_right fun member => by rw [isFloat_of_real (none t member)]

theorem ofPresent?_of_whole (whole : ∀ t ∈ types, t.isWhole = true) :
    (if types.all (·.isBool) then some .bool
      else if types.any (·.isSignedInt) && types.any (·.isUnsignedInt) then
        int? .signed (max (widest .signed types) (min 64 (2 * widest .unsigned types)))
      else if types.any (·.isSignedInt) then int? .signed (widest .signed types)
      else int? .unsigned (widest .unsigned types)) = some (common types) := by
  have spans := spans_common whole
  simp only [all_isBool_iff whole, any_isSignedInt, any_isUnsignedInt, Bool.and_eq_true_iff]
  generalize widest .signed types = a at spans
  generalize widest .unsigned types = b at spans
  generalize common types = t at spans
  cases spans with
  | bool => rfl
  | unsigned w =>
    have positive := w.bits_pos
    rw [if_neg (by omega), if_neg (by omega), if_neg (by omega), int?_bits]
  | @signed _ _ w present width =>
    rw [if_neg (by omega)]
    by_cases both : 0 < b
    · rw [if_pos ⟨present, both⟩, ← width, int?_bits]
    · have alone : a = w.bits := by omega
      rw [if_neg fun ⟨_, positive⟩ => both positive, if_pos present, alone, int?_bits]

/-- The fold comes to the closed form. -/
theorem ofPresent?_eq_common (types : List NumType) : ofPresent? types = some (common types) := by
  have complex := common_any rfl isComplex_promote types
  have double := common_any rfl isDouble_promote types
  rw [ofPresent?, ← double, ← complex]
  by_cases isComplex : (common types).isComplex = true
  · rw [if_pos isComplex, ← eq_complex isComplex]
  · rw [Bool.not_eq_true] at isComplex
    rw [isComplex] at complex
    rw [isComplex, if_neg Bool.false_ne_true, any_isFloat complex.symm]
    by_cases isWhole : (common types).isWhole = true
    · have every := common_any (p := fun t => !t.isWhole) rfl not_isWhole_promote types
      rw [isWhole, if_neg (by decide)]
      exact ofPresent?_of_whole (by simpa [isWhole] using every)
    · have isFloat : (common types).isFloat = true := by simp [isFloat_of_real isComplex, isWhole]
      rw [if_pos (by simp [isWhole]), ← eq_float isFloat]

end NumType

namespace Extremum

variable {k k' : Kernel} {o : ScalarOperand}

/-- A choice is a new value of the common type. -/
theorem combine_value {which : Extremum} {lhs rhs : ScalarOperand}
    (run : (which.combine lhs rhs).run k = .ok (o, k')) :
    ∃ id, o = .value id (lhs.type.promote rhs.type) := by
  simp only [combine, StateT.run_bind] at run
  obtain ⟨_, _, run⟩ := bind_ok.mp run
  obtain ⟨_, _, run⟩ := bind_ok.mp run
  obtain ⟨_, _, run⟩ := bind_ok.mp run
  obtain ⟨_, _, run⟩ := bind_ok.mp run
  cases run
  exact ⟨_, rfl⟩

theorem type_combineAll {which : Extremum} {earlier : List ScalarOperand} {last : ScalarOperand}
    (run : StateT.run (earlier.foldrM which.combine last) k = .ok (o, k')) :
    o.type = (earlier.map (·.type)).foldr .promote last.type := by
  induction earlier generalizing o k' with
  | nil =>
    cases run
    rfl
  | cons first rest ih =>
    rw [List.foldrM_cons, StateT.run_bind] at run
    obtain ⟨⟨acc, k₁⟩, runRest, run⟩ := bind_ok.mp run
    obtain ⟨id, rfl⟩ := combine_value run
    rw [List.map_cons, List.foldr_cons, ← ih runRest]
    rfl

end Extremum

/-- The common type of candidates depends only on which candidates there are, not on how they
are grouped, ordered or repeated. The choices of an extremum come to it as well. -/
theorem broadcastType_arrangement_free {xs ys : List Candidate} (nonempty : xs ≠ [])
    (nonempty' : ys ≠ []) : ∃ t u, broadcastType xs = some t ∧ broadcastType ys = some u ∧
      broadcastType (xs ++ ys) = some (t.promote u) ∧
      (xs.Perm ys → t = u) ∧ ((∀ c, c ∈ xs ↔ c ∈ ys) → t = u) ∧
      (∀ earlier last, xs = earlier ++ [last] →
        (earlier.map (·.type)).foldr .promote last.type = t) ∧
      (∀ (which : Extremum) (earlier : List ScalarOperand) (last o : ScalarOperand) (k k' : Kernel),
        xs = (earlier ++ [last]).map (·.candidate) →
        StateT.run (earlier.foldrM which.combine last) k = .ok (o, k') → o.type = t) ∧
      NumType.ofPresent? (xs.map (·.type)) = some t ∧
      (t.isComplex = true ↔ ∃ c ∈ xs, c.type.isComplex = true) := by
  have same (members : ∀ c, c ∈ xs ↔ c ∈ ys) :
      NumType.common (xs.map (·.type)) = NumType.common (ys.map (·.type)) := by
    apply NumType.common_congr
    intro t
    rw [List.mem_map, List.mem_map]
    exact exists_congr fun c => and_congr_left' (members c)
  have rightFold (earlier : List NumType) (last : NumType)
      (split : xs.map (·.type) = earlier ++ [last]) :
      earlier.foldr .promote last = .common (xs.map (·.type)) := by
    rw [split, NumType.common_append, NumType.foldr_promote, NumType.common_singleton]
  refine ⟨.common (xs.map (·.type)), .common (ys.map (·.type)), broadcastType_eq_common nonempty,
    broadcastType_eq_common nonempty', ?append, fun perm => same fun _ => perm.mem_iff, same,
    ?right, ?chosen, NumType.ofPresent?_eq_common _, ?complex⟩
  case append =>
    rw [broadcastType_eq_common (List.append_ne_nil_of_left_ne_nil nonempty ys), List.map_append,
      NumType.common_append]
  case right =>
    rintro earlier last rfl
    exact rightFold _ _ List.map_append
  case chosen =>
    rintro which earlier last o k k' rfl run
    rw [Extremum.type_combineAll run]
    apply rightFold
    rw [List.map_map, List.map_append]
    rfl
  case complex =>
    rw [NumType.common_any rfl NumType.isComplex_promote, List.any_map, List.any_eq_true]
    rfl

theorem broadcastType_mixed_arrangement_free :
    [Candidate.typed (.int .unsigned .w32), .typed (.int .signed .w8)] ≠ [] ∧
      [Candidate.floatLiteral] ≠ [] ∧
      broadcastType ([.typed (.int .unsigned .w32), .typed (.int .signed .w8)] ++ [.floatLiteral]) =
        some ((NumType.int .signed .w64).promote .float64) := by
  refine ⟨nofun, nofun, ?_⟩
  obtain ⟨t, u, left, right, both, _⟩ := @broadcastType_arrangement_free
    [.typed (.int .unsigned .w32), .typed (.int .signed .w8)] [.floatLiteral]
    nofun nofun
  cases left
  cases right
  exact both

end ScalarLowering
