import EnipAdapter.Foundation.KeyedPages
import EnipAdapter.Interface.BrowseContract

/-!
# What a browse cursor is answered with

Both modes page an inventory whose entries stand under numbers: the fields of a push layout under
their index, the symbols of a poll device under their instance id. A cursor that is given names
the entry its page starts at, or the command fails.
-/

set_option autoImplicit false

namespace EnipAdapter.Interface

open EnipAdapter.Foundation EnipAdapter.Model

/-! ## Inventories -/

/-- The fields of a push device under their indices. -/
def layoutInventory (cfg : DeviceConfig) : Enumeration Json where
  entries := (pushFields layoutTag cfg).mapIdx Prod.mk
  ascending := by
    apply List.pairwise_iff_getElem.mpr
    intro i j hi hj hij
    rw [List.getElem_mapIdx, List.getElem_mapIdx]
    exact hij

/-- A tag as the paged form shows it. -/
def tagJson (cfg : DeviceConfig) (t : BrowsedTag) : Json :=
  .obj ([("name", .str t.name), ("type", .str t.typeName),
    ("configured", .bool (isConfigured cfg t.name)),
    ("supported", .bool (tagSupported t.typeName t.arrayDim))] ++ arrayDimMember t.arrayDim)

/-- The symbols of a poll device under their instance ids. -/
def tagInventory (cfg : DeviceConfig) (table : SymbolTable) : Enumeration Json where
  entries := table.entries.map fun s => (s.instanceId.toNat, tagJson cfg s.browsed)
  ascending := by
    rw [List.pairwise_map]
    exact table.ascending.imp fun {_ _} h => UInt32.lt_iff_toNat_lt.mp h

/-! ## Cursors -/

/-- The number that a cursor names: it is a string, and the parser of the mode reads it so. -/
def CursorNames (limit : ℕ) (cursor : Json) (n : ℕ) : Prop :=
  ∃ s, cursor = .str s ∧ parseUnsigned limit (trimText s.toList) = some n

/-- A cursor of some page of the inventory. -/
def CursorIssued (inv : Enumeration Json) (cursor : Json) : Prop :=
  ∃ i size n, (inv.page i size).next = some n ∧ cursor = .str (toString n)

/-- The cursor is a string, and a number it names is past the first entry. -/
def NamesPast (limit : ℕ) (inv : Enumeration Json) (cursor : Json) : Prop :=
  ∃ s, cursor = .str s ∧ ∀ n, parseUnsigned limit (trimText s.toList) = some n →
    ∀ first ∈ inv.entries.head?, first.1 < n

/-! ## Answers -/

/-- The answer is a page from that place on. -/
def ShowsFrom (inv : Enumeration Json) (i : ℕ) (reply : Json) : Prop :=
  ∃ size, 0 < size ∧
    replyPage reply = ⟨(inv.page i size).items, (inv.page i size).next.map fun n => toString n⟩

/-- The answer is a page from the first entry on. -/
def ShowsFirst (inv : Enumeration Json) (reply : Json) : Prop :=
  inv.entries ≠ [] ∧ ShowsFrom inv 0 reply

/-- The command fails, or its page starts at the entry that the cursor names and is not the first
page unless the cursor was issued. -/
structure Honours (limit : ℕ) (inv : Enumeration Json) (cursor : Json)
    (outcome : Except BrowseFailure Json) : Prop where
  followed : ∀ reply, outcome = .ok reply →
    ∃ n, CursorNames limit cursor n ∧ ShowsFrom inv (inv.place n) reply
  notFirst : ∀ reply, outcome = .ok reply → ¬ CursorIssued inv cursor → ¬ ShowsFirst inv reply

/-! ## A poll device -/

/-- What the target sends as a page is a page of its table; it may send none. -/
def ServesOrRefuses (table : SymbolTable) (client : EipClient) (peer : Peer) : Prop :=
  ∀ start page, listTags client peer 0 start .controller = .ok page →
    AnswersFrom table start (peer 0 (listTagsRequest start .controller))

/-- The target sends a page from an instance on, in time. -/
def PageServed (client : EipClient) (peer : Peer) (elapsed : ℕ → Bool) (start : UInt32) : Prop :=
  elapsed 0 = false ∧ ∃ page, listTags client peer 0 start .controller = .ok page

end EnipAdapter.Interface
