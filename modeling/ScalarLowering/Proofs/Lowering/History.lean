import Mathlib.Data.List.Induction
import ScalarLowering.Lowering
import ScalarLowering.Proofs.Text.ByteOrder

set_option autoImplicit false

/- What a registry holds after any sequence of registrations. Names and aliases are
stored apart, and the last registration counts for each of them on its own. -/

namespace ScalarLowering

-- Host callables are ordered as they are declared.
deriving instance Ord for Builtin, MathFunction, HelperFunction, HostCallable

namespace HostCallable

theorem all_ascending : all.Pairwise fun c d => compare c d = .lt := by decide

theorem all_nodup : all.Nodup := by decide

end HostCallable

namespace Registration

variable {property : Registration → Bool} {history : List Registration}

/-- The last registration with a property. -/
def last? (property : Registration → Bool) (history : List Registration) : Option Registration :=
  history.reverse.find? property

theorem last?_concat (history : List Registration) (e : Registration) :
    last? property (history ++ [e]) = if property e then some e else last? property history := by
  rw [last?, List.reverse_concat, List.find?_cons, last?]
  cases property e <;> rfl

theorem mem_of_last? {e : Registration} (last : last? property history = some e) :
    e ∈ history ∧ property e = true :=
  ⟨List.mem_reverse.mp (List.mem_of_find?_eq_some last), List.find?_some last⟩

theorem last?_eq_none : last? property history = none ↔ ∀ e ∈ history, property e = false := by
  simp [last?, List.find?_eq_none]

theorem last?_of_mem (property : Registration → Bool) {e : Registration} (member : e ∈ history)
    (holds : property e = true) : ∃ last, last? property history = some last := by
  cases found : last? property history with
  | none =>
    rw [last?_eq_none.mp found e member] at holds
    cases holds
  | some last => exact ⟨last, rfl⟩

end Registration

namespace Registry

open Registration

variable {r : Registry} {history : List Registration}

/-- The registry after a sequence of registrations. -/
def ofHistory (history : List Registration) : Registry :=
  history.foldl (fun r e => r.register e.name e.handler e.callable) empty

theorem ofHistory_concat (history : List Registration) (e : Registration) :
    ofHistory (history ++ [e]) = (ofHistory history).register e.name e.handler e.callable := by
  rw [ofHistory, List.foldl_append, ofHistory]
  rfl

theorem lookupName?_register (r : Registry) (name : String) (h : Handler)
    (callable : Option HostCallable) (other : String) :
    (r.register name h callable).lookupName? other =
      if name = other then some h else r.lookupName? other := by
  have inserted : (r.register name h callable).handlers = r.handlers.insert name h := rfl
  rw [lookupName?, inserted, Std.TreeMap.getElem?_insert, lookupName?]
  simp only [compare_eq_iff_eq]

theorem alias_register (r : Registry) (name : String) (h : Handler)
    (callable : Option HostCallable) (c : HostCallable) :
    (r.register name h callable).aliases[c]? =
      if callable = some c then some name else r.aliases[c]? := by
  cases callable with
  | none => simp [register]
  | some d => simp [register, Std.HashMap.getElem?_insert]

theorem lookupName?_ofHistory (history : List Registration) (name : String) :
    (ofHistory history).lookupName? name =
      (last? (·.name == name) history).map (·.handler) := by
  induction history using List.reverseRecOn with
  | nil => rfl
  | append_singleton history e ih =>
    rw [ofHistory_concat, lookupName?_register, last?_concat, ih]
    by_cases same : e.name = name
    · simp [same]
    · simp [same]

theorem alias_ofHistory (history : List Registration) (c : HostCallable) :
    (ofHistory history).aliases[c]? =
      (last? (·.callable == some c) history).map (·.name) := by
  induction history using List.reverseRecOn with
  | nil => simp [ofHistory, empty, last?]
  | append_singleton history e ih =>
    rw [ofHistory_concat, alias_register, last?_concat, ih]
    by_cases same : e.callable = some c
    · simp [same]
    · simp [same]

/-- A registered name has a handler, whatever has been registered later. -/
theorem lookupName?_of_mem {e : Registration} (registered : e ∈ history) :
    ∃ h, (ofHistory history).lookupName? e.name = some h := by
  obtain ⟨last, found⟩ := last?_of_mem (·.name == e.name) registered (beq_self_eq_true e.name)
  rw [lookupName?_ofHistory, found]
  exact ⟨last.handler, rfl⟩

theorem names_ascending (r : Registry) : r.names.Pairwise fun a b => utf8 a < utf8 b := by
  apply Std.TreeMap.ordered_keys.imp
  intro a b less
  exact utf8_lt (compare_lt_iff_lt.mp less)

theorem mem_names {name : String} : name ∈ r.names ↔ ∃ h, r.lookupName? name = some h := by
  rw [names, Std.TreeMap.mem_keys, Std.TreeMap.mem_iff_isSome_getElem?, Option.isSome_iff_exists]
  rfl

theorem mem_aliasesOf {name : String} {c : HostCallable} :
    c ∈ r.aliasesOf name ↔ r.aliases[c]? = some name := by
  simp [aliasesOf, c.mem_all]

theorem resolve?_name {name : String} {h : Handler} (found : r.lookupName? name = some h) :
    r.resolve? (.name name) = some (name, h) := by
  simp [resolve?, found]

theorem resolve?_host_iff {c : HostCallable} {name : String} {h : Handler} :
    r.resolve? (.host c) = some (name, h) ↔
      r.aliases[c]? = some name ∧ r.lookupName? name = some h := by
  constructor
  · intro resolved
    obtain ⟨other, target, resolved⟩ := Option.bind_eq_some_iff.mp resolved
    obtain ⟨current, found, resolved⟩ := Option.bind_eq_some_iff.mp resolved
    cases resolved
    exact ⟨target, found⟩
  · rintro ⟨target, found⟩
    simp [resolve?, target, found]

/-- An alias calls what its name calls. -/
theorem lowerCall_host {c : HostCallable} {name : String} {h : Handler}
    (resolved : r.resolve? (.host c) = some (name, h)) (args : List Operand) :
    r.lowerCall (.host c) args = r.lowerCall (.name name) args := by
  have named := resolve?_name (resolve?_host_iff.mp resolved).2
  rw [lowerCall, resolved, lowerCall, named]

/-- What a registry tells of the registrations that it comes from. -/
structure Reflects (r : Registry) (history : List Registration) : Prop where
  lookup : ∀ name, r.lookupName? name = (last? (·.name == name) history).map (·.handler)
  /-- An alias stands for the name it was last registered with and for the handler that this name
  has now. -/
  aliased : ∀ c e, last? (·.callable == some c) history = some e →
    ∃ h, r.lookupName? e.name = some h ∧ r.resolve? (.host c) = some (e.name, h)
  noAlias : ∀ c, r.resolve? (.host c) = none ↔ ∀ e ∈ history, e.callable ≠ some c
  ascending : r.names.Pairwise fun a b => utf8 a < utf8 b
  registered : ∀ name, name ∈ r.names ↔ ∃ e ∈ history, e.name = name
  size : r.size = r.names.length
  aliasesAscending : ∀ name, (r.aliasesOf name).Pairwise fun c d => compare c d = .lt
  aliasesNodup : ∀ name, (r.aliasesOf name).Nodup
  aliases : ∀ name c, c ∈ r.aliasesOf name ↔
    (last? (·.callable == some c) history).map (·.name) = some name
  /-- An alias is listed under one name. -/
  listed : ∀ c, (∃ e ∈ history, e.callable = some c) →
    ∃! name, name ∈ r.names ∧ c ∈ r.aliasesOf name
  sameCall : ∀ c name h, r.resolve? (.host c) = some (name, h) →
    ∀ args, r.lowerCall (.host c) args = r.lowerCall (.name name) args

/-- An alias does not dangle. -/
theorem resolve?_of_last {c : HostCallable} {e : Registration}
    (last : last? (·.callable == some c) history = some e) :
    ∃ h, (ofHistory history).lookupName? e.name = some h ∧
      (ofHistory history).resolve? (.host c) = some (e.name, h) := by
  obtain ⟨h, found⟩ := lookupName?_of_mem (mem_of_last? last).1
  refine ⟨h, found, resolve?_host_iff.mpr ⟨?_, found⟩⟩
  rw [alias_ofHistory, last]
  rfl

theorem resolve?_eq_none_iff {c : HostCallable} :
    (ofHistory history).resolve? (.host c) = none ↔ ∀ e ∈ history, e.callable ≠ some c := by
  cases last : last? (·.callable == some c) history with
  | none =>
    have absent : (ofHistory history).resolve? (.host c) = none := by
      simp [resolve?, alias_ofHistory, last]
    simpa [absent] using last?_eq_none.mp last
  | some e =>
    obtain ⟨h, _, resolved⟩ := resolve?_of_last last
    obtain ⟨member, carried⟩ := mem_of_last? last
    rw [resolved]
    refine ⟨nofun, fun none => absurd (beq_iff_eq.mp carried) (none e member)⟩

theorem mem_names_ofHistory {name : String} :
    name ∈ (ofHistory history).names ↔ ∃ e ∈ history, e.name = name := by
  rw [mem_names]
  constructor
  · rintro ⟨h, found⟩
    rw [lookupName?_ofHistory] at found
    obtain ⟨e, last, _⟩ := Option.map_eq_some_iff.mp found
    obtain ⟨member, same⟩ := mem_of_last? last
    exact ⟨e, member, beq_iff_eq.mp same⟩
  · rintro ⟨e, member, rfl⟩
    exact lookupName?_of_mem member

theorem existsUnique_listed {c : HostCallable} {e : Registration} (member : e ∈ history)
    (carried : e.callable = some c) :
    ∃! name, name ∈ (ofHistory history).names ∧ c ∈ (ofHistory history).aliasesOf name := by
  obtain ⟨last, found⟩ := last?_of_mem (·.callable == some c) member (beq_iff_eq.mpr carried)
  have target : (ofHistory history).aliases[c]? = some last.name := by
    rw [alias_ofHistory, found]
    rfl
  refine ⟨last.name, ⟨?_, mem_aliasesOf.mpr target⟩, ?_⟩
  · exact mem_names_ofHistory.mpr ⟨last, (mem_of_last? found).1, rfl⟩
  · rintro name ⟨_, listed⟩
    exact Option.some.inj ((mem_aliasesOf.mp listed).symm.trans target)

/-- Whatever has been registered, the registry tells of it what the last registrations say. -/
theorem ofHistory_reflects (history : List Registration) :
    (ofHistory history).Reflects history where
  lookup := lookupName?_ofHistory history
  aliased := fun _ _ last => resolve?_of_last last
  noAlias := fun _ => resolve?_eq_none_iff
  ascending := names_ascending _
  registered := fun _ => mem_names_ofHistory
  size := Std.TreeMap.length_keys.symm
  aliasesAscending := fun _ => HostCallable.all_ascending.filter _
  aliasesNodup := fun _ => HostCallable.all_nodup.filter _
  aliases := by
    intro name c
    rw [mem_aliasesOf, alias_ofHistory]
  listed := fun _ ⟨_, member, carried⟩ => existsUnique_listed member carried
  sameCall := fun _ _ _ resolved args => lowerCall_host resolved args

end Registry

end ScalarLowering
