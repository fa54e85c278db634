import ScalarLowering.Value.Comparison

set_option autoImplicit false

/- Which type a value has, and which operations a value of some type admits. -/

namespace ScalarLowering

theorem NumType.isComplex_promote (s t : NumType) :
    (s.promote t).isComplex = (s.isComplex || t.isComplex) := by
  cases s with
  | bool => rfl
  | int sign width =>
    cases t with
    | int sign' width' => cases sign <;> cases sign' <;> rfl
    | _ => cases sign <;> rfl
  | float p => cases t <;> rfl
  | complex p => cases t <;> rfl

theorem Number.type_toValue (n : Number) (t : NumType) : (n.toValue t).type = t := by
  cases t <;> cases n <;> rfl

namespace Value

@[simp] theorem type_cast (v : Value) (t : NumType) : (v.cast t).type = t := by
  by_cases same : v.type = t
  · rw [cast, if_pos same]
    exact same
  · rw [cast, if_neg same]
    exact v.number.type_toValue t

theorem cast_of_type {v : Value} {t : NumType} (same : v.type = t) : v.cast t = v := by
  rw [cast, if_pos same]

theorem eq_bool_of_type {v : Value} (typed : v.type = .bool) : ∃ b, v = .bool b := by
  cases v with
  | bool b => exact ⟨b, rfl⟩
  | _ => cases typed

theorem eq_int_of_type {v : Value} {s : Signedness} {w : IntWidth} (typed : v.type = .int s w) :
    ∃ bits, v = .int s w bits := by
  cases v with
  | int s' w' bits =>
    cases typed
    exact ⟨bits, rfl⟩
  | _ => cases typed

theorem eq_float_of_type {v : Value} {p : Precision} (typed : v.type = .float p) :
    ∃ x, v = .float p x := by
  cases v with
  | float q x =>
    cases typed
    exact ⟨x, rfl⟩
  | _ => cases typed

theorem eq_complex_of_type {v : Value} {p : Precision} (typed : v.type = .complex p) :
    ∃ re im, v = .complex p re im := by
  cases v with
  | complex q re im =>
    cases typed
    exact ⟨re, im, rfl⟩
  | _ => cases typed

/-- Values of one type other than complex are ordered. -/
theorem compare?_of_real (predicate : Predicate) {a b : Value} (same : a.type = b.type)
    (real : a.type.isComplex = false) : ∃ truth, a.compare? predicate b = some truth := by
  cases a with
  | bool x =>
    obtain ⟨y, rfl⟩ := eq_bool_of_type same.symm
    exact ⟨_, rfl⟩
  | int s w bits =>
    obtain ⟨bits', rfl⟩ := eq_int_of_type same.symm
    exact ⟨_, rfl⟩
  | float p x =>
    obtain ⟨y, rfl⟩ := eq_float_of_type same.symm
    exact ⟨_, rfl⟩
  | complex p re im => cases real

/-- Integers have an opposite, and it is one of their type. -/
theorem neg?_of_isInt {v : Value} (int : v.type.isInt = true) :
    ∃ w, v.neg? = some w ∧ w.type = v.type := by
  cases v with
  | int s w bits => exact ⟨_, rfl, rfl⟩
  | _ => cases int

end Value

end ScalarLowering
