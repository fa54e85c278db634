import ScalarLowering.Proofs.Text.Word
import ScalarLowering.Vocabulary.Numeric

set_option autoImplicit false

/- Spellings. What a vocabulary finds for a text has the text as one of its
spellings; the scalar types share no spelling, so for them the converse holds. -/

namespace ScalarLowering

variable {cs : List Char}

/-- The canonical name of a type or an alias of it, in any ASCII letter case. -/
def NumType.Spelled (t : NumType) (cs : List Char) : Prop :=
  ∃ spelling ∈ t.entry.canonical :: t.entry.aliases,
    cs.map Char.toLower = spelling.toList.map Char.toLower

namespace Entry

variable {α : Type} {same : String → String → Bool} {items : List α} {entry : α → Entry}
  {spelling : String} {a : α}

/-- What a vocabulary finds has the spelling. -/
theorem spelled_of_lookup? (found : lookup? same items entry spelling = some a) :
    ∃ s ∈ (entry a).canonical :: (entry a).aliases, same s spelling = true := by
  rw [lookup?, Option.orElse_apply, Option.orElse_eq_or, Option.or_eq_some_iff] at found
  rcases found with canonical | ⟨_, further⟩
  · have equal := List.find?_some canonical
    exact ⟨_, List.mem_cons_self, equal⟩
  · have aliases := List.find?_some further
    obtain ⟨s, member, equal⟩ := List.any_eq_true.mp aliases
    exact ⟨s, List.mem_cons_of_mem _ member, equal⟩

/-- Where it finds nothing, no item has the spelling. -/
theorem not_spelled_of_lookup? (missing : lookup? same items entry spelling = none)
    (member : a ∈ items) :
    ∀ s ∈ (entry a).canonical :: (entry a).aliases, same s spelling = false := by
  rw [lookup?, Option.orElse_apply, Option.orElse_eq_or, Option.or_eq_none_iff,
    List.find?_eq_none, List.find?_eq_none] at missing
  obtain ⟨canonical, aliases⟩ := missing
  refine List.forall_mem_cons.mpr ⟨Bool.eq_false_iff.mpr (canonical a member), ?_⟩
  intro s listed
  refine Bool.eq_false_iff.mpr fun equal => aliases a member ?_
  exact List.any_eq_true.mpr ⟨s, listed, equal⟩

end Entry

namespace NumType

variable {t u : NumType}

theorem spelling_letters : ∀ t ∈ all, ∀ spelling ∈ t.entry.canonical :: t.entry.aliases,
    (spelling.toList.map Char.toLower).head?.any Char.isAlpha = true ∧
      (spelling.toList.map Char.toLower).all Char.isAlphanum = true := by
  decide

theorem spelling_unique : ∀ t ∈ all, ∀ u ∈ all,
    ∀ spelling ∈ t.entry.canonical :: t.entry.aliases,
    ∀ other ∈ u.entry.canonical :: u.entry.aliases,
    spelling.toList.map Char.toLower = other.toList.map Char.toLower → t = u := by
  decide +kernel

theorem Spelled.unique (first : t.Spelled cs) (second : u.Spelled cs) : t = u := by
  obtain ⟨spelling, member, same⟩ := first
  obtain ⟨other, member', same'⟩ := second
  exact spelling_unique t (mem_all t) u (mem_all u) spelling member other member'
    (same.symm.trans same')

/-- A name starts with a letter and goes on with letters and digits. -/
theorem Spelled.letters (spelled : t.Spelled cs) :
    cs.head?.any Char.isAlpha = true ∧ ∀ c ∈ cs, c.isAlphanum = true := by
  obtain ⟨spelling, member, same⟩ := spelled
  obtain ⟨first, all⟩ := spelling_letters t (mem_all t) spelling member
  rw [← same] at first all
  constructor
  · rw [List.head?_map, Option.any_map] at first
    cases h : cs.head? with
    | none =>
      rw [h] at first
      cases first
    | some c =>
      rw [h] at first
      exact isAlpha_of_toLower first
  · intro c member
    exact isAlphanum_of_toLower (List.all_eq_true.mp all _ (List.mem_map_of_mem member))

theorem Spelled.word (spelled : t.Spelled cs) : Word cs := by
  obtain ⟨first, all⟩ := spelled.letters
  refine ⟨?_, fun c member => .inl (all c member)⟩
  rintro rfl
  cases first

/-- The vocabulary finds exactly the type that a text spells. -/
theorem ofName?_eq_some_iff : ofName? (String.ofList cs) = some t ↔ t.Spelled cs := by
  have spelled {u : NumType} (found : ofName? (String.ofList cs) = some u) : u.Spelled cs := by
    obtain ⟨spelling, member, same⟩ := Entry.spelled_of_lookup? found
    rw [sameUpToCase, beq_iff_eq, String.toList_ofList] at same
    exact ⟨spelling, member, same.symm⟩
  refine ⟨spelled, ?_⟩
  intro name
  cases found : ofName? (String.ofList cs) with
  | some u => rw [(spelled found).unique name]
  | none =>
    obtain ⟨spelling, member, same⟩ := name
    have different := Entry.not_spelled_of_lookup? found (mem_all t) spelling member
    rw [sameUpToCase, String.toList_ofList, same, beq_self_eq_true] at different
    cases different

end NumType

end ScalarLowering
