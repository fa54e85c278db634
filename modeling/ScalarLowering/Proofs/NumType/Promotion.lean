import ScalarLowering.NumType.Promotion

set_option autoImplicit false

/- Promotion as an operation on types. Neither grouping nor order nor repetition
matters, so that a fold from either side over any arrangement of the same types
finds the same common type: the first one that all of them promote to. -/

namespace ScalarLowering

namespace NumType

variable {s t u : NumType} {types types' : List NumType}

theorem promote_assoc (s t u : NumType) : (s.promote t).promote u = s.promote (t.promote u) := by
  have table : ∀ s ∈ all, ∀ t ∈ all, ∀ u ∈ all,
      (s.promote t).promote u = s.promote (t.promote u) := by decide
  exact table s (mem_all s) t (mem_all t) u (mem_all u)

theorem promote_comm (s t : NumType) : s.promote t = t.promote s := by
  have table : ∀ s ∈ all, ∀ t ∈ all, s.promote t = t.promote s := by decide
  exact table s (mem_all s) t (mem_all t)

theorem promote_bool (t : NumType) : t.promote .bool = t := promote_comm t .bool

/-- The common type of some types; `bool`, which yields to every type, if there are none. -/
def common (types : List NumType) : NumType := types.foldr .promote .bool

theorem common_cons (t : NumType) (types : List NumType) :
    common (t :: types) = t.promote (common types) := rfl

theorem common_singleton (t : NumType) : common [t] = t := promote_bool t

theorem foldl_promote (t : NumType) (types : List NumType) :
    types.foldl .promote t = t.promote (common types) := by
  induction types generalizing t with
  | nil => exact (promote_bool t).symm
  | cons u rest ih => rw [List.foldl_cons, ih, common_cons, promote_assoc]

theorem foldr_promote (types : List NumType) (t : NumType) :
    types.foldr .promote t = (common types).promote t := by
  induction types with
  | nil => rfl
  | cons u rest ih => rw [List.foldr_cons, ih, common_cons, promote_assoc]

theorem common_append (types types' : List NumType) :
    common (types ++ types') = (common types).promote (common types') := by
  rw [common, List.foldr_append, ← common, foldr_promote]

theorem promote_promote_eq_iff :
    (s.promote t).promote u = u ↔ s.promote u = u ∧ t.promote u = u := by
  constructor
  · intro above
    constructor
    · rw [← above, ← promote_assoc, ← promote_assoc, promote_self]
    · rw [← above, ← promote_assoc, ← promote_assoc, promote_comm t s, promote_assoc s,
        promote_self]
  · rintro ⟨left, right⟩
    rw [promote_assoc, right, left]

/-- The common type promotes to the types that all of them promote to. -/
theorem common_promote_eq_iff :
    (common types).promote u = u ↔ ∀ t ∈ types, t.promote u = u := by
  induction types with
  | nil => exact iff_of_true rfl nofun
  | cons t rest ih => rw [common_cons, promote_promote_eq_iff, ih, List.forall_mem_cons]

/-- The same types have the same common type, however they are arranged and repeated. -/
theorem common_congr (same : ∀ t, t ∈ types ↔ t ∈ types') : common types = common types' := by
  have above (types : List NumType) : ∀ t ∈ types, t.promote (common types) = common types :=
    common_promote_eq_iff.mp (promote_self _)
  have one : (common types).promote (common types') = common types' :=
    common_promote_eq_iff.mpr fun t member => above types' t ((same t).mp member)
  have other : (common types').promote (common types) = common types :=
    common_promote_eq_iff.mpr fun t member => above types t ((same t).mpr member)
  rw [← other, promote_comm, one]

/-- If a promotion has a property exactly where one of its two types has it, the common type has
the property exactly where one of the types has it. -/
theorem common_any {p : NumType → Bool} (plain : p .bool = false)
    (joins : ∀ s t, p (s.promote t) = (p s || p t)) (types : List NumType) :
    p (common types) = types.any p := by
  induction types with
  | nil => exact plain
  | cons t rest ih => rw [common_cons, joins, ih, List.any_cons]

end NumType

/-- A broadcast from the left finds the common type. -/
theorem broadcastType_eq_common {cs : List Candidate} (nonempty : cs ≠ []) :
    broadcastType cs = some (.common (cs.map (·.type))) := by
  obtain ⟨c, rest, rfl⟩ := List.exists_cons_of_ne_nil nonempty
  rw [broadcastType, ← List.foldl_map, NumType.foldl_promote]
  rfl

theorem broadcastType_typed_eq_common {types : List NumType} (nonempty : types ≠ []) :
    broadcastType (types.map .typed) = some (.common types) := by
  have same : (types.map Candidate.typed).map (·.type) = types := by
    rw [List.map_map]
    exact List.map_id types
  rw [broadcastType_eq_common (mt List.map_eq_nil_iff.mp nonempty), same]

theorem broadcastType_typed (first : NumType) (rest : List NumType) :
    broadcastType ((first :: rest).map .typed) = some (rest.foldl .promote first) := by
  rw [broadcastType_typed_eq_common (List.cons_ne_nil first rest), NumType.foldl_promote]
  rfl

theorem broadcastType_typed_concat (earlier : List NumType) (last : NumType) :
    broadcastType ((earlier ++ [last]).map .typed) = some (earlier.foldr .promote last) := by
  have nonempty : earlier ++ [last] ≠ [] :=
    List.append_ne_nil_of_right_ne_nil earlier (List.cons_ne_nil last [])
  rw [broadcastType_typed_eq_common nonempty, NumType.common_append, NumType.foldr_promote,
    NumType.common_singleton]

/-- The order of the operands does not matter to their common type. -/
theorem broadcastType_perm {types types' : List NumType} (perm : types'.Perm types) :
    broadcastType (types'.map .typed) = broadcastType (types.map .typed) := by
  cases types with
  | nil => rw [perm.eq_nil]
  | cons t rest =>
    have nonempty : types' ≠ [] := by
      rintro rfl
      cases perm.symm.eq_nil
    rw [broadcastType_typed_eq_common nonempty,
      broadcastType_typed_eq_common (List.cons_ne_nil t rest),
      NumType.common_congr fun _ => perm.mem_iff]

end ScalarLowering
