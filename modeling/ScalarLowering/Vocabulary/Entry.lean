set_option autoImplicit false

/- What a vocabulary table records about each of its items, and how a spelling
is looked up in such a table. -/

namespace ScalarLowering

inductive Stability where
  | stable
  | draft
  | deprecated
deriving DecidableEq, Repr

def Stability.label : Stability → String
  | .stable => "Stable"
  | .draft => "Draft"
  | .deprecated => "Deprecated"

structure Entry where
  /-- The spelling that is written. -/
  canonical : String
  /-- Further spellings that are read. -/
  aliases : List String := []
  description : String
  /-- The release that introduced the item. -/
  since : String := "0.1.0"
  stability : Stability := .stable
deriving Repr

/-- The item of a table that a spelling names, up to the equality `same` of spellings.
Canonical spellings win over aliases. -/
def Entry.lookup? {α : Type} (same : String → String → Bool) (items : List α)
    (entry : α → Entry) (spelling : String) : Option α :=
  (items.find? fun item => same (entry item).canonical spelling) <|>
    items.find? fun item => (entry item).aliases.any (same · spelling)

/-- What follows `lead` in a text that starts with it. -/
def afterLead? (lead text : String) : Option String :=
  (lead.toList.isPrefixOf? text.toList).map String.ofList

end ScalarLowering
