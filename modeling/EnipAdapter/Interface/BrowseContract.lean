import EnipAdapter.Foundation.PagedWalk
import EnipAdapter.Model.Browse

/-!
# What a browse walk promises

A walk asks without a cursor first and follows the cursor of every page. Against a device that
serves its symbol table in order, the pages of a walk are the table; against any device, a walk
whose cursors advance is finite. The walk of a push device is over its configured layout.
-/

set_option autoImplicit false

namespace EnipAdapter.Interface

open EnipAdapter.Foundation EnipAdapter.Model

/-! ## Walks -/

/-- The pages of a session, for a page size at each request. -/
def sessionPages (session : EipSession) (peer : Peer) (elapsed : ℕ → Bool) (sizes : ℕ → ℕ)
    (n : ℕ) (cursor : Option String) : Except DeviceError (Page String BrowsedTag) :=
  (session.browse peer elapsed n cursor (sizes n)).map fun page => ⟨page.tags, page.nextCursor⟩

/-- The device task that serves the hierarchical form from a session. -/
def browsingTask (describe : DeviceError → String) (session : EipSession) (peer : Peer)
    (elapsed : ℕ → Bool) (n : ℕ) (cursor : Option String) (maxTags : ℕ) :
    ChannelAnswer (Except BrowseError BrowsePage) :=
  .answered (pollBrowse describe (session.browse peer elapsed n cursor maxTags))

/-- The tags and the cursor a client reads in an answer to a paged browse. -/
def replyPage (reply : Json) : Page String Json :=
  ⟨((reply.get "tags").bind Json.asArray).getD [], (reply.get "cursor").bind Json.asStr⟩

/-- The pages of a push device. -/
def layoutPages (cfg : DeviceConfig) (sizes : ℕ → ℕ) (n : ℕ) (cursor : Option String) :
    Except CommandError (Page String Json) :=
  (browsePushLayout cfg cursor (sizes n)).map replyPage

/-- A walk has ended, within one request for each item and one more, and has brought the list. -/
def Exhausts {ε α : Type} (w : Walk ε String α) (items : List α) : Prop :=
  w.outcome = .complete ∧ w.items = items ∧ w.steps.length ≤ items.length + 1

/-! ## A device that serves its table -/

/-- A symbol table: instance ids ascend, and a name is as long as a record can say. -/
structure SymbolTable where
  entries : List SymbolInfo
  ascending : entries.Pairwise fun a b => a.instanceId < b.instanceId
  named : ∀ e ∈ entries, e.name.toUTF8.toList.length < 2 ^ 16

/-- The entries from an instance on. -/
def SymbolTable.startingAt (table : SymbolTable) (start : UInt32) : List SymbolInfo :=
  table.entries.filter fun e => start ≤ e.instanceId

/-- The record of a symbol on the wire. -/
def recordBytes (s : SymbolInfo) : Bytes :=
  let name := s.name.toUTF8.toList
  putU32 s.instanceId ++ putU16 (UInt16.ofNat name.length) ++ name ++ putU16 s.symbolType.word

/-- An answer with a front of the remaining entries, none of them only when none remains; it
says that more follow exactly when some do. -/
def AnswersFrom (table : SymbolTable) (start : UInt32) (answer : Except EnipError MessageReply) :
    Prop :=
  ∃ (count : ℕ) (status : CipStatus),
    answer = .ok ⟨serviceGetInstanceAttributeList ||| 0x80, status,
      ((table.startingAt start).take count).flatMap recordBytes⟩ ∧
    (table.startingAt start ≠ [] → 0 < count) ∧
    status.general =
      if count < (table.startingAt start).length then .partialTransfer else .success

/-- A target that serves its table in time, cutting each page where it likes. -/
def Serves (table : SymbolTable) (peer : Peer) (elapsed : ℕ → Bool) : Prop :=
  ∀ n start, elapsed n = false ∧
    AnswersFrom table start (peer n (listTagsRequest start .controller))

/-! ## Any device -/

/-- The cursor of a page that the session returns lies above the start of its request. -/
def CursorAdvances (session : EipSession) (peer : Peer) (elapsed : ℕ → Bool) (n : ℕ)
    (cursor : Option String) (start : UInt32) (maxTags : ℕ) : Prop :=
  ∀ page next, session.browse peer elapsed n cursor maxTags = .ok page →
    page.nextCursor = some next →
      ∃ resume, parseBrowseCursor (some next) = .ok resume ∧ start < resume

/-- A reply that is a tag-list page to the protocol crate: it answers the request, its records
decode and ascend, and it does not end below the start while more follow. -/
structure PassesGuards (start : UInt32) (reply : MessageReply) (records : List SymbolInfo) :
    Prop where
  service : reply.expectService serviceGetInstanceAttributeList = .ok ()
  status : reply.status.isOk = true ∨ reply.status.hasMore = true
  decodes : parseTagList reply.data = .ok records
  ascends : records.Pairwise fun a b => a.instanceId < b.instanceId
  advances : reply.status.hasMore = true → ∀ last ∈ records.getLast?, start ≤ last.instanceId

/-- The peer answers with a page that is longer than the caller's page size, and the record the
cut falls behind lies below the start of the request. -/
def CutsBelow (session : EipSession) (peer : Peer) (elapsed : ℕ → Bool) (n : ℕ) (start : UInt32)
    (maxTags : ℕ) : Prop :=
  elapsed n = false ∧
    ∃ reply records, session.client.sendCip peer n (listTagsRequest start .controller) = .ok reply ∧
      PassesGuards start reply records ∧ max maxTags 1 < records.length ∧
      ∃ last ∈ (records.take (max maxTags 1)).getLast?, last.instanceId < start

/-- No record of the page, up to the caller's page size, lies below the start of the request. -/
def NoneBelow (session : EipSession) (peer : Peer) (n : ℕ) (start : UInt32) (maxTags : ℕ) :
    Prop :=
  ∀ reply records, session.client.sendCip peer n (listTagsRequest start .controller) = .ok reply →
    parseTagList reply.data = .ok records →
      ∀ r ∈ records.take (max maxTags 1), start ≤ r.instanceId

/-- A condition on the start of a request, at every request of a walk that was answered. -/
def AtEveryRequest (w : Walk DeviceError String BrowsedTag)
    (condition : ℕ → UInt32 → Prop) : Prop :=
  ∀ step ∈ w.steps, ∀ start, parseBrowseCursor step.cursor = .ok start →
    condition step.place start

/-- No instance is on two pages of a walk. -/
def NeverTwice (w : Walk DeviceError String BrowsedTag) : Prop :=
  w.steps.Pairwise fun first second =>
    ∀ a ∈ first.page.items, ∀ b ∈ second.page.items, a.instanceId ≠ b.instanceId

end EnipAdapter.Interface
