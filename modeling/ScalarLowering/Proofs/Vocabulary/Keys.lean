import ScalarLowering.Proofs.Vocabulary.Spelling
import ScalarLowering.Vocabulary.Callable

set_option autoImplicit false

/- Registry keys and host spellings. Each reader accepts exactly what its writer
prints, and no key is read as two different items. -/

namespace ScalarLowering

theorem find?_of_unique {α : Type} {items : List α} {p : α → Bool} {a : α} (member : a ∈ items)
    (holds : p a = true) (unique : ∀ b ∈ items, p b = true → b = a) : items.find? p = some a := by
  cases found : items.find? p with
  | none => exact absurd holds (List.find?_eq_none.mp found a member)
  | some b => rw [unique b (List.mem_of_find?_eq_some found) (List.find?_some found)]

theorem afterLead?_eq_some_iff {lead text rest : String} :
    afterLead? lead text = some rest ↔ text = lead ++ rest := by
  rw [afterLead?, Option.map_eq_some_iff, ← String.toList_inj, String.toList_append]
  constructor
  · rintro ⟨cs, split, rfl⟩
    rw [← List.isPrefixOf?_eq_some_iff_append_eq.mp split, String.toList_ofList]
  · intro split
    refine ⟨rest.toList, ?_, String.ofList_toList⟩
    rw [List.isPrefixOf?_eq_some_iff_append_eq, split]

section

variable {α : Type} {read? : String → Option α} {name : α → String} {lead key : String} {a : α}

/-- If names are read exactly, so are names behind a lead. -/
theorem afterLead?_bind_eq_some_iff (names : ∀ s a, read? s = some a ↔ s = name a) :
    (afterLead? lead key).bind read? = some a ↔ key = lead ++ name a := by
  rw [Option.bind_eq_some_iff]
  constructor
  · rintro ⟨rest, split, named⟩
    rw [afterLead?_eq_some_iff.mp split, (names rest a).mp named]
  · intro split
    exact ⟨name a, afterLead?_eq_some_iff.mpr split, (names (name a) a).mpr rfl⟩

end

namespace Entry

variable {α : Type} {same : String → String → Bool} {items : List α} {entry : α → Entry}
  {spelling : String} {a : α}

/-- Without aliases, a vocabulary with distinct names finds exactly the item of that name. -/
theorem lookup?_eq_some_iff (exact : ∀ s t, same s t = true ↔ s = t) (complete : ∀ a, a ∈ items)
    (single : ∀ a ∈ items, (entry a).aliases = [])
    (distinct : ∀ a ∈ items, ∀ b ∈ items, (entry a).canonical = (entry b).canonical → a = b) :
    lookup? same items entry spelling = some a ↔ spelling = (entry a).canonical := by
  constructor
  · intro found
    obtain ⟨s, member, equal⟩ := spelled_of_lookup? found
    rw [single a (complete a), List.mem_singleton] at member
    rw [← member]
    exact ((exact s spelling).mp equal).symm
  · rintro rfl
    rw [lookup?, find?_of_unique (complete a) ((exact _ _).mpr rfl)]
    · rfl
    · intro b _ equal
      exact distinct b (complete b) a (complete a) ((exact _ _).mp equal)

end Entry

theorem Builtin.ofName?_eq_some_iff (s : String) (b : Builtin) :
    Builtin.ofName? s = some b ↔ s = b.name :=
  Entry.lookup?_eq_some_iff (fun _ _ => beq_iff_eq) Builtin.mem_all (by decide) (by decide)

namespace MathFunction

theorem ofName?_eq_some_iff (s : String) (f : MathFunction) : ofName? s = some f ↔ s = f.name :=
  Entry.lookup?_eq_some_iff (fun _ _ => beq_iff_eq) mem_all (by decide) (by decide)

theorem ofKey?_eq_some_iff (s : String) (f : MathFunction) : ofKey? s = some f ↔ s = f.key :=
  afterLead?_bind_eq_some_iff ofName?_eq_some_iff

end MathFunction

namespace HelperFunction

theorem ofName?_eq_some_iff (s : String) (f : HelperFunction) : ofName? s = some f ↔ s = f.name :=
  Entry.lookup?_eq_some_iff (fun _ _ => beq_iff_eq) mem_all (by decide) (by decide)

theorem ofKey?_eq_some_iff (s : String) (f : HelperFunction) : ofKey? s = some f ↔ s = f.key :=
  afterLead?_bind_eq_some_iff ofName?_eq_some_iff

theorem ofSpelling?_eq_some_iff (s : String) (f : HelperFunction) :
    ofSpelling? s = some f ↔ s = f.spelling :=
  afterLead?_bind_eq_some_iff ofName?_eq_some_iff

end HelperFunction

namespace NumType

theorem name_distinct : ∀ t ∈ all, ∀ u ∈ all, t.name = u.name → t = u := by decide

theorem ofCastKey?_eq_some_iff (s : String) (t : NumType) :
    ofCastKey? s = some t ↔ s = t.castKey := by
  have names (s : String) (t : NumType) : all.find? (·.name == s) = some t ↔ s = t.name := by
    constructor
    · intro found
      have same := List.find?_some found
      exact (beq_iff_eq.mp same).symm
    · rintro rfl
      apply find?_of_unique (mem_all t) (beq_self_eq_true t.name)
      intro u _ same
      exact name_distinct u (mem_all u) t (mem_all t) (beq_iff_eq.mp same)
  exact afterLead?_bind_eq_some_iff names

end NumType

/-- What a registry key can name. -/
inductive KeyedItem where
  | builtin (b : Builtin)
  /-- The explicit cast to a type. -/
  | cast (t : NumType)
  | math (f : MathFunction)
  | helper (f : HelperFunction)
deriving DecidableEq, Repr

namespace KeyedItem

def all : List KeyedItem :=
  Builtin.all.map .builtin ++ NumType.all.map .cast ++ MathFunction.all.map .math ++
    HelperFunction.all.map .helper

theorem mem_all (item : KeyedItem) : item ∈ all := by
  simp only [all, List.mem_append, List.mem_map]
  cases item with
  | builtin b => exact .inl (.inl (.inl ⟨b, b.mem_all, rfl⟩))
  | cast t => exact .inl (.inl (.inr ⟨t, t.mem_all, rfl⟩))
  | math f => exact .inl (.inr ⟨f, f.mem_all, rfl⟩)
  | helper f => exact .inr ⟨f, f.mem_all, rfl⟩

/-- The key that is printed for the item. -/
def key : KeyedItem → String
  | .builtin b => b.name
  | .cast t => t.castKey
  | .math f => f.key
  | .helper f => f.key

/-- The reader of the item's vocabulary takes a text for the item. -/
def ReadFrom (s : String) : KeyedItem → Prop
  | .builtin b => Builtin.ofName? s = some b
  | .cast t => NumType.ofCastKey? s = some t
  | .math f => MathFunction.ofKey? s = some f
  | .helper f => HelperFunction.ofKey? s = some f

theorem readFrom_iff {s : String} {item : KeyedItem} : item.ReadFrom s ↔ s = item.key := by
  cases item with
  | builtin b => exact Builtin.ofName?_eq_some_iff s b
  | cast t => exact NumType.ofCastKey?_eq_some_iff s t
  | math f => exact MathFunction.ofKey?_eq_some_iff s f
  | helper f => exact HelperFunction.ofKey?_eq_some_iff s f

theorem key_distinct : ∀ item ∈ all, ∀ other ∈ all, item.key = other.key → item = other := by
  decide +kernel

theorem key_injective {item other : KeyedItem} (same : item.key = other.key) : item = other :=
  key_distinct item item.mem_all other other.mem_all same

end KeyedItem

namespace HostCallable

theorem spelling_distinct : ∀ c ∈ all, ∀ d ∈ all, c.spelling = d.spelling → c = d := by
  decide +kernel

/-- What a spelling is read as has that spelling. -/
theorem spelling_of_ofSpelling? {s : String} {c : HostCallable} (read : ofSpelling? s = some c) :
    c.spelling = s := by
  simp only [ofSpelling?, Option.orElse_eq_orElse, Option.orElse_eq_or, Option.or_eq_some_iff,
    Option.map_eq_some_iff] at read
  rcases read with ⟨b, named, rfl⟩ | ⟨_, ⟨f, named, rfl⟩ | ⟨_, f, named, rfl⟩⟩
  · exact ((Builtin.ofName?_eq_some_iff s b).mp named).symm
  · exact ((MathFunction.ofKey?_eq_some_iff s f).mp named).symm
  · exact ((HelperFunction.ofSpelling?_eq_some_iff s f).mp named).symm

theorem ofSpelling?_eq_some_iff (s : String) (c : HostCallable) :
    ofSpelling? s = some c ↔ c.spelling = s := by
  refine ⟨spelling_of_ofSpelling?, ?_⟩
  rintro rfl
  cases read : ofSpelling? c.spelling with
  | some d =>
    have same := spelling_of_ofSpelling? read
    rw [spelling_distinct d d.mem_all c c.mem_all same]
  | none =>
    simp only [ofSpelling?, Option.orElse_eq_orElse, Option.orElse_eq_or, Option.or_eq_none_iff,
      Option.map_eq_none_iff] at read
    obtain ⟨builtin, math, helper⟩ := read
    cases c with
    | builtin b =>
      have named := (Builtin.ofName?_eq_some_iff b.name b).mpr rfl
      exact nomatch builtin.symm.trans named
    | math f =>
      have named := (MathFunction.ofKey?_eq_some_iff f.key f).mpr rfl
      exact nomatch math.symm.trans named
    | helper f =>
      have named := (HelperFunction.ofSpelling?_eq_some_iff f.spelling f).mpr rfl
      exact nomatch helper.symm.trans named

end HostCallable

end ScalarLowering
