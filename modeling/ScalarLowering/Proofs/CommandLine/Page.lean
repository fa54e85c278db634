import ScalarLowering.CommandLine.Document
import ScalarLowering.Proofs.Text.Word

set_option autoImplicit false

/- Documents are told from their pages. A quoted text ends at the first quote that is
not escaped, and behind an entry of a block stands a comma or the end of its line, so
that nothing that is written goes on where something else has ended. -/

namespace ScalarLowering

/-- What is written for `a` tells `a` and where it ends, whatever comes behind. -/
def Delimited {α : Type} (write : α → String) (a : α) : Prop :=
  ∀ b rest rest', (write a).toList ++ rest = (write b).toList ++ rest' → a = b ∧ rest = rest'

namespace Document

/-- The characters that are not written as they are. -/
def specials : List Char := '"' :: '\\' :: (List.range 32).map Char.ofNat

theorem escaped_of_not_special {c : Char} (plain : c ∉ specials) : escaped c = [c] := by
  have visible : ¬ c.toNat < 32 := by
    intro control
    apply plain
    simp only [specials, List.mem_cons, List.mem_map, List.mem_range]
    exact .inr (.inr ⟨c.toNat, control, Char.ofNat_toNat c⟩)
  have apart {d : Char} (special : d ∈ specials) : c ≠ d := fun same => plain (same ▸ special)
  rw [escaped, if_neg (apart (by decide)), if_neg (apart (by decide)), if_neg (apart (by decide)),
    if_neg (apart (by decide)), if_neg (apart (by decide)), if_neg (by omega), if_neg (by omega),
    if_neg visible]

theorem head?_escaped {c : Char} (special : c ∈ specials) : (escaped c).head? = some '\\' := by
  have table : ∀ c ∈ specials, (escaped c).head? = some '\\' := forall_mem_of_all (by decide)
  exact table c special

/-- No escape goes on where another one has ended. -/
theorem eq_of_begins {c d : Char} (special : c ∈ specials) (special' : d ∈ specials)
    (begins : escaped c <+: escaped d) : c = d := by
  have table : specials.all (fun c =>
      specials.all fun d => decide (escaped c <+: escaped d → c = d)) = true := by decide +kernel
  have row := List.all_eq_true.mp table c special
  exact of_decide_eq_true (List.all_eq_true.mp row d special') begins

theorem head?_escaped_append (c : Char) (rest : List Char) :
    (escaped c ++ rest).head? = some (if c ∈ specials then '\\' else c) := by
  by_cases special : c ∈ specials
  · rw [List.head?_append, head?_escaped special, if_pos special]
    rfl
  · rw [escaped_of_not_special special, if_neg special]
    rfl

/-- What is written for a character inside quotes tells it and where it ends. -/
theorem escaped_append {c d : Char} {rest rest' : List Char}
    (same : escaped c ++ rest = escaped d ++ rest') : c = d ∧ rest = rest' := by
  have heads := congrArg List.head? same
  rw [head?_escaped_append, head?_escaped_append, Option.some.injEq] at heads
  have eq : c = d := by
    by_cases special : c ∈ specials
    · by_cases special' : d ∈ specials
      · have begins : escaped c <+: escaped d ++ rest' := ⟨rest, same⟩
        rcases List.prefix_or_prefix_of_prefix begins (List.prefix_append _ rest') with less | more
        · exact eq_of_begins special special' less
        · exact (eq_of_begins special' special more).symm
      · rw [if_pos special, if_neg special'] at heads
        exact absurd (heads ▸ special') (by decide)
    · by_cases special' : d ∈ specials
      · rw [if_neg special, if_pos special'] at heads
        exact absurd (heads ▸ special) (by decide)
      · rwa [if_neg special, if_neg special'] at heads
  subst eq
  exact ⟨rfl, List.append_cancel_left same⟩

theorem head?_escaped_append_ne (c : Char) (rest : List Char) :
    (escaped c ++ rest).head? ≠ some '"' := by
  rw [head?_escaped_append]
  intro quote
  split at quote
  · cases quote
  · next plain => exact plain (Option.some.inj quote ▸ by decide)

/-- The first quote that is not escaped ends a quoted text. -/
theorem escapedAll_append {cs ds rest rest' : List Char}
    (same : cs.flatMap escaped ++ '"' :: rest = ds.flatMap escaped ++ '"' :: rest') :
    cs = ds ∧ rest = rest' := by
  induction cs generalizing ds with
  | nil =>
    cases ds with
    | nil => exact ⟨rfl, (List.cons.inj same).2⟩
    | cons d ds =>
      rw [List.flatMap_cons, List.append_assoc] at same
      exact absurd (congrArg List.head? same).symm (head?_escaped_append_ne d _)
  | cons c cs ih =>
    cases ds with
    | nil =>
      rw [List.flatMap_cons, List.append_assoc] at same
      exact absurd (congrArg List.head? same) (head?_escaped_append_ne c _)
    | cons d ds =>
      rw [List.flatMap_cons, List.flatMap_cons, List.append_assoc, List.append_assoc] at same
      obtain ⟨rfl, behind⟩ := escaped_append same
      obtain ⟨rfl, after⟩ := ih behind
      exact ⟨rfl, after⟩

theorem quoted_delimited (s : String) : Delimited quoted s := by
  intro t rest rest' same
  have chars (s : String) (rest : List Char) :
      (quoted s).toList ++ rest = '"' :: (s.toList.flatMap escaped ++ '"' :: rest) := by
    simp [quoted]
  rw [chars, chars] at same
  obtain ⟨text, behind⟩ := escapedAll_append (List.cons.inj same).2
  exact ⟨String.toList_inj.mp text, behind⟩

section

variable {α : Type} {write : α → String} {opening indent closing : String}

/-- An entry of a block in its line. -/
def entry (write : α → String) (indent : String) (a : α) : List Char :=
  indent.toList ++ ' ' :: ' ' :: (write a).toList

/-- What stands behind the first entries of a block: the other ones and the closing. -/
def ending (write : α → String) (indent closing : String) : List α → List Char
  | [] => '\n' :: (indent.toList ++ closing.toList)
  | a :: rest => ',' :: '\n' :: (entry write indent a ++ ending write indent closing rest)

theorem toList_block_nil :
    (block opening closing indent (([] : List α).map write)).toList =
      opening.toList ++ closing.toList := by
  simp [block]

theorem toList_block_cons (a : α) (rest : List α) :
    (block opening closing indent ((a :: rest).map write)).toList =
      opening.toList ++ '\n' :: (entry write indent a ++ ending write indent closing rest) := by
  have lines : [',', '\n'].intercalate ((a :: rest).map (entry write indent)) ++
      '\n' :: (indent.toList ++ closing.toList) =
        entry write indent a ++ ending write indent closing rest := by
    induction rest generalizing a with
    | nil => simp [ending]
    | cons b rest ih =>
      rw [List.map_cons, List.map_cons, List.intercalate_cons_cons, ← List.map_cons,
        List.append_assoc, ih b]
      simp [ending]
  have entries : (((a :: rest).map write).map fun e => indent ++ "  " ++ e).map String.toList =
      (a :: rest).map (entry write indent) := by
    simp [entry]
  rw [block, if_neg (by simp), ← lines, ← entries]
  simp only [String.toList_append, String.toList_intercalate, List.append_assoc]
  rfl

theorem entry_append {a b : α} {rest rest' : List Char} (told : Delimited write a)
    (same : entry write indent a ++ rest = entry write indent b ++ rest') :
    a = b ∧ rest = rest' := by
  apply told
  simpa [entry] using same

theorem ending_append {as bs : List α} {rest rest' : List Char}
    (each : ∀ a ∈ as, Delimited write a)
    (same : ending write indent closing as ++ rest = ending write indent closing bs ++ rest') :
    as = bs ∧ rest = rest' := by
  induction as generalizing bs with
  | nil =>
    cases bs with
    | nil => exact ⟨rfl, List.append_cancel_left same⟩
    | cons b bs => simp [ending] at same
  | cons a as ih =>
    cases bs with
    | nil => simp [ending] at same
    | cons b bs =>
      obtain ⟨first, others⟩ := List.forall_mem_cons.mp each
      simp only [ending, List.cons_append, List.append_assoc, List.cons.injEq, true_and] at same
      obtain ⟨rfl, behind⟩ := entry_append first same
      obtain ⟨rfl, after⟩ := ih others behind
      exact ⟨rfl, after⟩

/-- Blocks are told by their entries where their end is not that of a line. -/
theorem block_delimited {c : Char} (ends : closing.toList = [c]) (visible : c ≠ '\n') {as : List α}
    (each : ∀ a ∈ as, Delimited write a) :
    Delimited (fun as => block opening closing indent (as.map write)) as := by
  intro bs rest rest' same
  dsimp only at same
  cases as with
  | nil =>
    cases bs with
    | nil => exact ⟨rfl, List.append_cancel_left same⟩
    | cons b bs =>
      rw [toList_block_nil, toList_block_cons, ends] at same
      simp [visible] at same
  | cons a as =>
    cases bs with
    | nil =>
      rw [toList_block_nil, toList_block_cons, ends] at same
      simp [visible.symm] at same
    | cons b bs =>
      obtain ⟨first, others⟩ := List.forall_mem_cons.mp each
      simp only [toList_block_cons, List.cons_append, List.append_assoc,
        List.append_cancel_left_eq, List.cons.injEq, true_and] at same
      obtain ⟨rfl, behind⟩ := entry_append first same
      obtain ⟨rfl, after⟩ := ending_append others behind
      exact ⟨rfl, after⟩

end

theorem prettyItems_eq (indent : String) (items : List Document) :
    prettyItems indent items = items.map (pretty indent) := by
  induction items with
  | nil => rfl
  | cons item rest ih => rw [prettyItems, ih, List.map_cons]

/-- The laid out form of a field. -/
def prettyField (indent : String) (field : String × Document) : String :=
  quoted field.1 ++ ": " ++ pretty indent field.2

theorem prettyFields_eq (indent : String) (fields : List (String × Document)) :
    prettyFields indent fields = fields.map (prettyField indent) := by
  induction fields with
  | nil => rfl
  | cons field rest ih => rw [prettyFields, ih, List.map_cons, prettyField]

theorem prettyField_delimited {indent : String} {field : String × Document}
    (value : Delimited (pretty indent) field.2) : Delimited (prettyField indent) field := by
  intro other rest rest' same
  simp only [prettyField, String.toList_append, List.append_assoc] at same
  obtain ⟨name, behind⟩ := quoted_delimited _ _ _ _ same
  obtain ⟨document, after⟩ := value _ _ _ (List.append_cancel_left behind)
  exact ⟨Prod.ext name document, after⟩

/-- The character that a document begins with. -/
def mark : Document → Char
  | .null => 'n'
  | .text _ => '"'
  | .array _ => '['
  | .object _ => '\x7b'

theorem head?_block (c : Char) (closing indent : String) (entries : List String) :
    (block (String.singleton c) closing indent entries).toList.head? = some c := by
  cases entries <;> simp [block]

theorem head?_pretty (indent : String) (d : Document) :
    (pretty indent d).toList.head? = some d.mark := by
  cases d with
  | null => simp [pretty, mark]
  | text s => simp [pretty, quoted, mark]
  | array items => exact head?_block '[' _ _ _
  | object fields => exact head?_block '\x7b' _ _ _

mutual

/-- No laid out form goes on where another one has ended. -/
theorem pretty_delimited (indent : String) (d : Document) : Delimited (pretty indent) d := by
  intro other rest rest' same
  have marks : d.mark = other.mark := by
    have head := congrArg List.head? same
    rw [List.head?_append, List.head?_append, head?_pretty, head?_pretty] at head
    exact Option.some.inj head
  -- The first character leaves one case for the other document.
  cases d with
  | null =>
    cases other with
    | null => exact ⟨rfl, List.append_cancel_left same⟩
    | _ => simp [mark] at marks
  | text s =>
    cases other with
    | text t =>
      rw [pretty, pretty] at same
      obtain ⟨rfl, after⟩ := quoted_delimited _ _ _ _ same
      exact ⟨rfl, after⟩
    | _ => simp [mark] at marks
  | array items =>
    cases other with
    | array others =>
      rw [pretty, pretty, prettyItems_eq, prettyItems_eq] at same
      have each := prettyItems_delimited (indent ++ "  ") items
      obtain ⟨rfl, after⟩ := block_delimited rfl (by decide) each _ _ _ same
      exact ⟨rfl, after⟩
    | _ => simp [mark] at marks
  | object fields =>
    cases other with
    | object others =>
      rw [pretty, pretty, prettyFields_eq, prettyFields_eq] at same
      have each := prettyFields_delimited (indent ++ "  ") fields
      obtain ⟨rfl, after⟩ := block_delimited rfl (by decide) each _ _ _ same
      exact ⟨rfl, after⟩
    | _ => simp [mark] at marks

theorem prettyItems_delimited (indent : String) (items : List Document) :
    ∀ item ∈ items, Delimited (pretty indent) item := by
  cases items with
  | nil => exact List.forall_mem_nil _
  | cons item rest =>
    exact List.forall_mem_cons.mpr
      ⟨pretty_delimited indent item, prettyItems_delimited indent rest⟩

theorem prettyFields_delimited (indent : String) (fields : List (String × Document)) :
    ∀ field ∈ fields, Delimited (prettyField indent) field := by
  cases fields with
  | nil => exact List.forall_mem_nil _
  | cons field rest =>
    obtain ⟨name, value⟩ := field
    exact List.forall_mem_cons.mpr
      ⟨prettyField_delimited (pretty_delimited indent value), prettyFields_delimited indent rest⟩

end

theorem page_injective : Function.Injective page := by
  intro d d' same
  have chars : (pretty "" d).toList ++ ['\n'] = (pretty "" d').toList ++ ['\n'] := by
    simpa [page] using congrArg String.toList same
  exact (pretty_delimited "" d d' _ _ chars).1

end Document

end ScalarLowering
