import ScalarLowering.Proofs.Lowering.History
import ScalarLowering.Proofs.Vocabulary.Keys

set_option autoImplicit false

/- Registries that are made from a configuration. Their names are the keys of the
vocabularies whose groups are enabled, each with the handler of its item, and
host callables stand for the keys of the same items. -/

namespace ScalarLowering

namespace KeyedItem

/-- The builtins that are named like types convert to 64 bits or to a truth value. -/
def handler : KeyedItem → Handler
  | .builtin .bool => .cast .bool
  | .builtin .int => .cast .int64
  | .builtin .float => .cast .float64
  | .builtin .len => .len
  | .builtin .min => .extremum .min
  | .builtin .max => .extremum .max
  | .builtin .abs => .abs
  | .cast t => .cast t
  | .math f => .math f
  | .helper f => .helper f

/-- The host callable of the same identity. -/
def callable? : KeyedItem → Option HostCallable
  | .builtin b => some (.builtin b)
  | .cast _ => none
  | .math f => some (.math f)
  | .helper f => some (.helper f)

/-- The configuration includes the group of the item. -/
def enabled (c : RegistryConfig) : KeyedItem → Bool
  | .builtin _ => true
  | .cast _ => c.numberCasts
  | .math _ => c.mathFunctions
  | .helper _ => c.helperFunctions

/-- How the item is registered, with or without its host callable. -/
def registration (item : KeyedItem) (aliased : Bool) : Registration :=
  ⟨item.key, item.handler, if aliased then item.callable? else none⟩

end KeyedItem

/-- The item of the same identity. -/
def HostCallable.item : HostCallable → KeyedItem
  | .builtin b => .builtin b
  | .math f => .math f
  | .helper f => .helper f

theorem KeyedItem.callable?_eq_some_iff {item : KeyedItem} {callable : HostCallable} :
    item.callable? = some callable ↔ item = callable.item := by
  cases item <;> cases callable <;> simp [callable?, HostCallable.item]

namespace Registry

open Registration

/-- A registry holds the items of the enabled groups, and nothing else. -/
structure Follows (r : Registry) (c : RegistryConfig) : Prop where
  lookup : ∀ s h, r.lookupName? s = some h ↔
    ∃ item : KeyedItem, item.ReadFrom s ∧ item.enabled c = true ∧ item.handler = h
  resolve : ∀ callable, r.resolve? (.host callable) =
    if c.hostAliases && callable.item.enabled c then
      some (callable.item.key, callable.item.handler)
    else none
  sameHandler : ∀ callable name h, r.resolve? (.host callable) = some (name, h) →
    r.lookupName? name = some h
  noCastAlias : ∀ t : NumType, r.aliasesOf t.castKey = []

/-- The registrations of a configuration as they are carried out. -/
def history (c : RegistryConfig) : List Registration :=
  (KeyedItem.all.filter (·.enabled c)).map (·.registration c.hostAliases)

variable {c : RegistryConfig} {item : KeyedItem} {callable : HostCallable}

theorem ofConfig_eq (c : RegistryConfig) : ofConfig c = ofHistory (history c) := by
  have listed : history c = c.registrations.map fun e =>
      ⟨e.name, e.handler, if c.hostAliases then e.callable else none⟩ := by
    obtain ⟨hostAliases, numberCasts, mathFunctions, helperFunctions⟩ := c
    cases numberCasts <;> cases mathFunctions <;> cases helperFunctions <;> rfl
  rw [ofHistory, listed, List.foldl_map, ofConfig]

theorem mem_history {e : Registration} :
    e ∈ history c ↔
      ∃ item : KeyedItem, item.enabled c = true ∧ item.registration c.hostAliases = e := by
  simp only [history, List.mem_map, List.mem_filter, KeyedItem.mem_all, true_and]

theorem last?_of_unique {property : Registration → Bool} {history : List Registration}
    {e : Registration} (member : e ∈ history) (holds : property e = true)
    (unique : ∀ other ∈ history, property other = true → other = e) :
    last? property history = some e :=
  find?_of_unique (List.mem_reverse.mpr member) holds fun other member =>
    unique other (List.mem_reverse.mp member)

/-- The keys of the items are different, so that none is registered twice. -/
theorem lookupName?_ofConfig_key (enabled : item.enabled c = true) :
    (ofConfig c).lookupName? item.key = some item.handler := by
  have last : last? (·.name == item.key) (history c) =
      some (item.registration c.hostAliases) := by
    apply last?_of_unique (mem_history.mpr ⟨item, enabled, rfl⟩) (beq_self_eq_true item.key)
    intro other member same
    obtain ⟨item', _, rfl⟩ := mem_history.mp member
    rw [KeyedItem.key_injective (beq_iff_eq.mp same)]
  rw [ofConfig_eq, lookupName?_ofHistory, last]
  rfl

theorem lookupName?_ofConfig_iff {s : String} {h : Handler} :
    (ofConfig c).lookupName? s = some h ↔
      ∃ item : KeyedItem, item.ReadFrom s ∧ item.enabled c = true ∧ item.handler = h := by
  constructor
  · intro found
    rw [ofConfig_eq, lookupName?_ofHistory] at found
    obtain ⟨e, last, rfl⟩ := Option.map_eq_some_iff.mp found
    obtain ⟨member, same⟩ := mem_of_last? last
    obtain ⟨item, enabled, rfl⟩ := mem_history.mp member
    exact ⟨item, KeyedItem.readFrom_iff.mpr (beq_iff_eq.mp same).symm, enabled, rfl⟩
  · rintro ⟨item, read, enabled, rfl⟩
    rw [KeyedItem.readFrom_iff.mp read]
    exact lookupName?_ofConfig_key enabled

theorem alias_ofConfig (c : RegistryConfig) (callable : HostCallable) :
    (ofConfig c).aliases[callable]? =
      if c.hostAliases && callable.item.enabled c then some callable.item.key else none := by
  rw [ofConfig_eq, alias_ofHistory]
  -- Whatever carries the callable is the registration of its item, while aliases are enabled.
  have carries {e : Registration} (member : e ∈ history c)
      (carried : (e.callable == some callable) = true) :
      (c.hostAliases && callable.item.enabled c) = true ∧
        e = callable.item.registration c.hostAliases := by
    obtain ⟨item, enabled, rfl⟩ := mem_history.mp member
    have carried := beq_iff_eq.mp carried
    simp only [KeyedItem.registration] at carried
    split_ifs at carried with aliased
    obtain rfl := KeyedItem.callable?_eq_some_iff.mp carried
    exact ⟨Bool.and_eq_true_iff.mpr ⟨aliased, enabled⟩, rfl⟩
  split_ifs with active
  · obtain ⟨aliased, enabled⟩ := Bool.and_eq_true_iff.mp active
    have callables : callable.item.callable? = some callable :=
      KeyedItem.callable?_eq_some_iff.mpr rfl
    have carried :
        ((callable.item.registration c.hostAliases).callable == some callable) = true := by
      simp [KeyedItem.registration, aliased, callables]
    rw [last?_of_unique (mem_history.mpr ⟨callable.item, enabled, rfl⟩) carried
      fun other member carried => (carries member carried).2]
    rfl
  · have none : last? (·.callable == some callable) (history c) = none := by
      rw [last?_eq_none]
      intro e member
      exact Bool.eq_false_iff.mpr fun carried => active (carries member carried).1
    rw [none]
    rfl

theorem resolve?_ofConfig_host (c : RegistryConfig) (callable : HostCallable) :
    (ofConfig c).resolve? (.host callable) =
      if c.hostAliases && callable.item.enabled c then
        some (callable.item.key, callable.item.handler)
      else none := by
  have target := alias_ofConfig c callable
  split_ifs at target ⊢ with active
  · have enabled := (Bool.and_eq_true_iff.mp active).2
    exact resolve?_host_iff.mpr ⟨target, lookupName?_ofConfig_key enabled⟩
  · simp [resolve?, target]

theorem aliasesOf_ofConfig_castKey (c : RegistryConfig) (t : NumType) :
    (ofConfig c).aliasesOf t.castKey = [] := by
  rw [List.eq_nil_iff_forall_not_mem]
  intro callable listed
  have target := mem_aliasesOf.mp listed
  rw [alias_ofConfig] at target
  split_ifs at target
  have same : callable.item = .cast t := KeyedItem.key_injective (Option.some.inj target)
  cases callable <;> cases same

theorem ofConfig_follows (c : RegistryConfig) : (ofConfig c).Follows c where
  lookup := fun _ _ => lookupName?_ofConfig_iff
  resolve := resolve?_ofConfig_host c
  sameHandler := fun _ _ _ resolved => (resolve?_host_iff.mp resolved).2
  noCastAlias := aliasesOf_ofConfig_castKey c

/-- Keys are read exactly as they are printed, no text as two items, and host spellings likewise;
and under every configuration the registry holds what the readers of the enabled groups accept. -/
theorem ofConfig_follows_vocabulary :
    (∀ (s : String) (item : KeyedItem), item.ReadFrom s ↔ s = item.key) ∧
    (∀ (s : String) (item other : KeyedItem), item.ReadFrom s → other.ReadFrom s → item = other) ∧
    (∀ (s : String) (callable : HostCallable),
      HostCallable.ofSpelling? s = some callable ↔ callable.spelling = s) ∧
    ∀ c : RegistryConfig, (ofConfig c).Follows c := by
  refine ⟨fun _ _ => KeyedItem.readFrom_iff, ?_, HostCallable.ofSpelling?_eq_some_iff,
    ofConfig_follows⟩
  intro s item other first second
  apply KeyedItem.key_injective
  rw [← KeyedItem.readFrom_iff.mp first, KeyedItem.readFrom_iff.mp second]

end Registry

end ScalarLowering
