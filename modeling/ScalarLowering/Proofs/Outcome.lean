import ScalarLowering.Kernel.Evaluation

set_option autoImplicit false

/- Computations that end in a value or in their first error. -/

namespace ScalarLowering

section

variable {ε α β : Type}

@[simp] theorem pure_eq_ok (a : α) : (pure a : Except ε α) = .ok a := rfl

@[simp] theorem throw_eq_error (e : ε) : (throw e : Except ε α) = .error e := rfl

@[simp] theorem ok_bind (a : α) (next : α → Except ε β) : (Except.ok a >>= next) = next a := rfl

@[simp] theorem error_bind (e : ε) (next : α → Except ε β) :
    (Except.error e >>= next) = .error e := rfl

@[simp] theorem map_ok (f : α → β) (a : α) : f <$> (Except.ok a : Except ε α) = .ok (f a) := rfl

@[simp] theorem map_error (f : α → β) (e : ε) :
    f <$> (Except.error e : Except ε α) = .error e := rfl

/-- A computation that comes to a value has come through its first part. -/
theorem bind_ok {first : Except ε α} {next : α → Except ε β} {b : β} :
    (first >>= next) = .ok b ↔ ∃ a, first = .ok a ∧ next a = .ok b := by
  cases first with
  | error e => simp
  | ok a => simp

/-- Two computations with the same first part up to a map differ by a map if what follows does. -/
theorem bind_map {α' β' : Type} {first : Except ε α} {first' : Except ε α'}
    {next : α → Except ε β} {next' : α' → Except ε β'} {f : α → α'} {g : β → β'}
    (same : first' = f <$> first) (follows : ∀ a, first = .ok a → next' (f a) = g <$> next a) :
    (first' >>= next') = g <$> (first >>= next) := by
  rw [same]
  cases first with
  | error e => rfl
  | ok a => exact follows a rfl

theorem mapM_congr_of_mem {f g : α → Except ε β} {items : List α}
    (agree : ∀ a ∈ items, f a = g a) : items.mapM f = items.mapM g := by
  induction items with
  | nil => rfl
  | cons a rest ih =>
    rw [List.mapM_cons, List.mapM_cons, agree a List.mem_cons_self,
      ih fun later member => agree later (List.mem_cons_of_mem a member)]

theorem mapM_map_result {γ : Type} (f : α → Except ε β) (g : β → γ) (items : List α) :
    items.mapM (fun a => g <$> f a) = List.map g <$> items.mapM f := by
  induction items with
  | nil => rfl
  | cons a rest ih =>
    rw [List.mapM_cons, List.mapM_cons, ih]
    cases f a with
    | error e => rfl
    | ok b => cases rest.mapM f <;> rfl

theorem mapM_concat (f : α → Except ε β) (items : List α) (a : α) :
    (items ++ [a]).mapM f = (do
      let bs ← items.mapM f
      let b ← f a
      return bs ++ [b]) := by
  simp [List.mapM_append]

theorem length_of_mapM {f : α → Except ε β} {items : List α} {results : List β}
    (computed : items.mapM f = .ok results) : results.length = items.length := by
  induction items generalizing results with
  | nil =>
    cases computed
    rfl
  | cons a rest ih =>
    rw [List.mapM_cons] at computed
    obtain ⟨b, _, computed⟩ := bind_ok.mp computed
    obtain ⟨others, later, computed⟩ := bind_ok.mp computed
    cases computed
    rw [List.length_cons, List.length_cons, ih later]

/-- A map that comes to results pairs each item with its own. -/
theorem pairs_of_mapM {f : α → Except ε β} {items : List α} {results : List β}
    (computed : items.mapM f = .ok results) : ∃ pairs : List (α × β),
      items = pairs.map (·.1) ∧ results = pairs.map (·.2) ∧
        ∀ pair ∈ pairs, f pair.1 = .ok pair.2 := by
  induction items generalizing results with
  | nil =>
    cases computed
    exact ⟨[], rfl, rfl, nofun⟩
  | cons a rest ih =>
    rw [List.mapM_cons] at computed
    obtain ⟨b, first, computed⟩ := bind_ok.mp computed
    obtain ⟨others, later, computed⟩ := bind_ok.mp computed
    cases computed
    obtain ⟨pairs, rfl, rfl, each⟩ := ih later
    exact ⟨(a, b) :: pairs, rfl, rfl, List.forall_mem_cons.mpr ⟨first, each⟩⟩

theorem mapM_ok_of_mem {f : α → Except ε β} {items : List α}
    (succeeds : ∀ a ∈ items, ∃ b, f a = .ok b) : ∃ results, items.mapM f = .ok results := by
  induction items with
  | nil => exact ⟨[], rfl⟩
  | cons a rest ih =>
    obtain ⟨b, first⟩ := succeeds a List.mem_cons_self
    obtain ⟨results, others⟩ := ih fun later member =>
      succeeds later (List.mem_cons_of_mem a member)
    exact ⟨b :: results, by simp [List.mapM_cons, first, others]⟩

/-- The first item that fails decides about the failure. -/
theorem mapM_error_of_first {f : α → Except ε β} {earlier : List α} {a : α} {e : ε}
    (before : ∀ b ∈ earlier, ∃ result, f b = .ok result) (failed : f a = .error e)
    (later : List α) : (earlier ++ a :: later).mapM f = .error e := by
  obtain ⟨results, computed⟩ := mapM_ok_of_mem before
  rw [List.mapM_append, computed, ok_bind, List.mapM_cons, failed]
  rfl

end

/-- The outcome is a value of type `t` or an error that is allowed. -/
def Outcome (allowed : EvalError → Prop) (t : NumType) : Except EvalError Value → Prop
  | .ok v => v.type = t
  | .error e => allowed e

namespace Outcome

variable {allowed : EvalError → Prop} {s t : NumType}

theorem mono {other : EvalError → Prop} {r : Except EvalError Value} (outcome : Outcome allowed t r)
    (weaker : ∀ e, allowed e → other e) : Outcome other t r := by
  cases r with
  | ok v => exact outcome
  | error e => exact weaker e outcome

theorem bind {r : Except EvalError Value} {next : Value → Except EvalError Value}
    (first : Outcome allowed s r) (continued : ∀ v, v.type = s → Outcome allowed t (next v)) :
    Outcome allowed t (r >>= next) := by
  cases r with
  | ok v => exact continued v first
  | error e => exact first

theorem mapM_bind {value : ValueId → Except EvalError Value} {ids : List ValueId}
    {next : List Value → Except EvalError Value} (each : ∀ id ∈ ids, Outcome allowed s (value id))
    (continued : ∀ vs : List Value, vs.length = ids.length → (∀ v ∈ vs, v.type = s) →
      Outcome allowed t (next vs)) : Outcome allowed t (ids.mapM value >>= next) := by
  induction ids generalizing next with
  | nil => exact continued [] rfl (by simp)
  | cons id rest ih =>
    rw [List.mapM_cons, bind_assoc]
    apply (each id List.mem_cons_self).bind
    intro v typed
    rw [bind_assoc]
    apply ih fun later member => each later (List.mem_cons_of_mem id member)
    intro vs count others
    apply continued (v :: vs) (by simp [count])
    intro w member
    rcases List.mem_cons.mp member with rfl | later
    · exact typed
    · exact others w later

end Outcome

end ScalarLowering
