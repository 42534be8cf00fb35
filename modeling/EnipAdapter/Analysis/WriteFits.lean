import EnipAdapter.Analysis.TagWrite

/-!
# Writes and the size of their connection

The chunk size of a write is taken from a fixed budget, less a constant for everything in front
of the chunk. The path in front of it has no such constant length, so whether the requests of a
write fit the connection is decided by the first of them: no later chunk is longer.
-/

set_option autoImplicit false

namespace EnipAdapter.Analysis

open EnipAdapter.Foundation EnipAdapter.Model EnipAdapter.Interface

/-- A class-3 connection negotiates 500 bytes. -/
theorem class3_size (conn : Class3Connection) : conn.size = 500 := by
  obtain ⟨opts, env, hopen⟩ := conn.opened
  rw [Class3Connection.size, hopen]
  rfl

/-- A request fits exactly where its path and its data leave room for four bytes. -/
theorem fitsConnection_iff (conn : Class3Connection) (t : WriteTurn) {pathBytes : Bytes}
    (hpath : t.request.path.encode = .ok pathBytes) :
    FitsConnection conn t ↔ pathBytes.length + t.request.data.length + 4 ≤ 500 := by
  obtain ⟨emb, hemb, hlen⟩ := encode_of_path hpath
  unfold FitsConnection
  rw [class3_size]
  constructor
  · intro h
    have hitem := h 0 (CpfItem.connectedData (putU16 0 ++ emb)) (by
      simp only [connectedItem, hemb, bind, Except.bind, pure, Except.pure])
    simp only [CpfItem.connectedData, List.length_append, putU16_length] at hitem
    omega
  · intro h seq item hitem
    simp only [connectedItem, hemb, bind, Except.bind, pure, Except.pure] at hitem
    cases hitem
    simp only [CpfItem.connectedData, List.length_append, putU16_length]
    omega

/-- A single write carries four bytes in front of its value. -/
theorem writeTagRequest_length (tag : TagAddress) (ty : CipType) (count : UInt16) (bytes : Bytes) :
    (writeTagRequest tag ty count bytes).data.length = bytes.length + 4 := by
  simp only [writeTagRequest, List.length_append, putU16_length]
  omega

/-- A fragmented one carries eight. -/
theorem writeTagFragmentedRequest_length (tag : TagAddress) (ty : CipType) (count : UInt16)
    (offset : UInt32) (chunk : Bytes) :
    (writeTagFragmentedRequest tag ty count offset chunk).data.length = chunk.length + 8 := by
  simp only [writeTagFragmentedRequest, List.length_append, putU16_length, putU32_length]
  omega

/-- A full chunk is 468 bytes, and 464 of an eight-byte type. -/
theorem chunkBytes_eq {ty : CipType} {size : ℕ} (h : ty.elementSize = some size) :
    chunkBytes size = if size = 8 then 464 else 468 := by
  cases ty <;> cases h <;> rfl

section Fits

variable (conn : Class3Connection) (client : EipClient) {tag : TagAddress} {pathBytes : Bytes}
  (hpath : tag.path.encode = .ok pathBytes) {ty : CipType} {size : ℕ}
  (hsize : ty.elementSize = some size) {value : CipValue} {bytes : Bytes}
  (hbytes : CipValue.encodeValue value = .ok bytes) (peer : Peer)

include hpath hsize hbytes

/-- A value that goes out in one request. -/
theorem writeFits_single (hfits : value.elementCount < 2 ^ 16)
    (hsingle : bytes.length + 8 ≤ maxRequestBytes) :
    WriteFits conn client peer tag ty value ↔ pathBytes.length + bytes.length ≤ 492 := by
  have hturn := fitsConnection_iff conn (singleTurn client tag ty
    (UInt16.ofNat value.elementCount) bytes peer) hpath
  have hdata : (singleTurn client tag ty (UInt16.ofNat value.elementCount) bytes
      peer).request.data.length = bytes.length + 4 := writeTagRequest_length tag ty _ bytes
  rw [hdata] at hturn
  unfold WriteFits
  simp only [writeTag_single hsize hbytes hfits client tag peer _ hsingle]
  constructor
  · intro h
    have hfirst := hturn.mp (h 0 _ _ rfl _ (List.mem_singleton_self _))
    omega
  · intro h fuel turns result hwrite t ht
    cases hwrite
    rw [List.mem_singleton.mp ht]
    apply hturn.mpr
    omega

/-- A value that goes out in chunks: the first is a full one, and no later one is longer. -/
theorem writeFits_chunked (hcount : value.elementCount ≤ 65535)
    (hlen : bytes.length = value.elementCount * size)
    (hlong : ¬ bytes.length + 8 ≤ maxRequestBytes) :
    WriteFits conn client peer tag ty value ↔ pathBytes.length + chunkBytes size ≤ 488 := by
  have hfits : value.elementCount < 2 ^ 16 := by omega
  have hchunk : chunkBytes size ≤ 468 := by
    rw [chunkBytes_eq hsize]
    split_ifs <;> omega
  unfold maxRequestBytes at hlong
  obtain ⟨turns, result, hloop, hrun, hhead⟩ := writeLoop_value client tag hsize hlen hcount peer
  have hfirst : ((bytes.take (chunkStop bytes (chunkBytes size) 0)).drop 0).length =
      chunkBytes size := by
    obtain ⟨hstop, -, -, -⟩ :=
      chunk_length (chunkBytes size) (Nat.zero_le bytes.length)
    rw [hstop, chunkStop]
    omega
  have hfull := fitsConnection_iff conn (chunkTurn client tag ty
    (UInt16.ofNat value.elementCount) bytes (chunkBytes size) peer 0 0 0) hpath
  have hdata : (chunkTurn client tag ty (UInt16.ofNat value.elementCount) bytes
      (chunkBytes size) peer 0 0 0).request.data.length = chunkBytes size + 8 := by
    have hlength := writeTagFragmentedRequest_length tag ty (UInt16.ofNat value.elementCount) 0
      ((bytes.take (chunkStop bytes (chunkBytes size) 0)).drop 0)
    rwa [hfirst] at hlength
  rw [hdata] at hfull
  unfold WriteFits
  simp only [writeTag_chunked hsize hbytes hfits client tag peer _ hlong]
  constructor
  · intro h
    obtain ⟨later, rfl⟩ := hhead (by omega)
    have hroom := hfull.mp (h _ _ _ (hloop _ (Nat.lt_succ_self _)) _ List.mem_cons_self)
    omega
  · intro h fuel turns' result' hwrite t ht
    have hsame := writeLoop_add hwrite (bytes.length + 1)
    rw [hloop _ (by omega)] at hsame
    cases hsame
    obtain ⟨offset, chunk, hrequest, hle, -, -⟩ := hrun.requests t ht
    have hlength : t.request.data.length = chunk.length + 8 := by
      rw [hrequest]
      exact writeTagFragmentedRequest_length tag ty _ offset chunk
    have hsamePath : t.request.path.encode = .ok pathBytes := by
      rw [hrequest]
      exact hpath
    rw [fitsConnection_iff conn t hsamePath, hlength]
    omega

omit hpath in
/-- A count that does not fit its field is refused before anything is sent. -/
theorem writeFits_many (hmany : ¬ value.elementCount < 2 ^ 16) :
    WriteFits conn client peer tag ty value := by
  intro fuel turns result hwrite t ht
  simp only [writeTag, hsize, hbytes, liftWire_ok, if_neg hmany] at hwrite
  cases hwrite
  cases ht

end Fits

/-- What a write sends of an elementary value fits a class-3 connection exactly where nothing is
sent at all, because there are too many elements, or where the path and the value leave room for
the overhead of the first request. -/
theorem write_fits_iff (conn : Class3Connection) (route : Option RoutePath) (cap : ℕ)
    {tag : TagAddress} {pathBytes : Bytes} (hpath : tag.path.encode = .ok pathBytes)
    {ty : CipType} {size : ℕ} (hsize : ty.elementSize = some size) {value : CipValue}
    (hvalue : ValueOf ty value) (peer : Peer) :
    WriteFits conn (conn.client route cap) peer tag ty value ↔
      65535 < value.elementCount ∨
        WithinBudget pathBytes.length (value.elementCount * size) size := by
  obtain ⟨bytes, hbytes, hlen⟩ := valueOf_encode hsize hvalue
  rw [← hlen, WithinBudget]
  by_cases hcount : value.elementCount ≤ 65535
  · have hfits : value.elementCount < 2 ^ 16 := by omega
    by_cases hshort : bytes.length ≤ 472
    · rw [if_pos hshort, writeFits_single conn _ hpath hsize hbytes peer hfits
        (by unfold maxRequestBytes; omega)]
      omega
    · have hchunk := chunkBytes_eq hsize
      rw [if_neg hshort, writeFits_chunked conn _ hpath hsize hbytes peer hcount hlen
        (by unfold maxRequestBytes; omega)]
      split_ifs at hchunk <;> omega
  · have hmany : WriteFits conn (conn.client route cap) peer tag ty value :=
      writeFits_many conn (conn.client route cap) hsize hbytes peer (by omega)
    exact ⟨fun _ => Or.inl (by omega), fun _ => hmany⟩

/-! ## A tag of a program -/

/-- A class-3 connection with the defaults of the client. -/
def defaultConnection : Class3Connection where
  state :=
    { oTConnectionId := 1
      tOConnectionId := 1
      sequence := 0
      openRequest := class3Open ⟨none, 1, 2000000000, .x16⟩ ⟨1, 1, 1, fun _ => .error .closed⟩
      inactivityWindow := 32000000000
      negotiatedInterval := 2000000000
      timeoutMultiplier := .x16 }
  opened := ⟨_, _, rfl⟩

/-- A tag of a program, as the parser reads its name. -/
def programTag : TagAddress :=
  ⟨⟨[.symbol "Program:Main", .symbol "RecipeSetpoints"]⟩, "Program:Main.RecipeSetpoints"⟩

/-- The sample path parses. -/
theorem parse_programTag : TagAddress.parse "Program:Main.RecipeSetpoints" = .ok programTag := by
  decide +kernel

/-- It takes 32 bytes. -/
theorem encode_programTag :
    ∃ pathBytes, programTag.path.encode = .ok pathBytes ∧ pathBytes.length = 32 := by
  have hlen : (programTag.path.encode.map List.length).toOption = some 32 := by decide +kernel
  cases hpath : programTag.path.encode with
  | error e =>
      rw [hpath] at hlen
      cases hlen
  | ok pathBytes =>
      rw [hpath] at hlen
      exact ⟨pathBytes, rfl, Option.some.inj hlen⟩

/-- A target that answers every request with status 0. -/
def obliging : Peer := answering fun _ => (⟨.success, []⟩, [])

/-- One DINT of the tag fits. -/
theorem write_fits_one :
    WriteFits defaultConnection (defaultConnection.client none 1024) obliging programTag .dint
      (.dint 7) := by
  obtain ⟨pathBytes, hpath, hlen⟩ := encode_programTag
  have hsize : CipType.dint.elementSize = some 4 := rfl
  have hvalue : ValueOf .dint (.dint 7) := Or.inl ⟨trivial, rfl⟩
  apply (write_fits_iff defaultConnection none 1024 hpath hsize hvalue obliging).mpr
  right
  rw [hlen]
  unfold WithinBudget
  decide

/-- One hundred and eighteen of them go out in one request, which is longer than the connection
takes. -/
theorem write_overflows_connection :
    ¬ ∀ text tag pathBytes, TagAddress.parse text = .ok tag → tag.path.encode = .ok pathBytes →
      ∀ (conn : Class3Connection) (route : Option RoutePath) (cap : ℕ) (ty : CipType) (size : ℕ)
        (value : CipValue) (peer : Peer), ty.elementSize = some size → ValueOf ty value →
          WriteFits conn (conn.client route cap) peer tag ty value := by
  intro hclaim
  obtain ⟨pathBytes, hpath, hlen⟩ := encode_programTag
  generalize helems : List.replicate 118 (CipValue.dint 7) = elems
  have hcount : elems.length = 118 := by
    rw [← helems]
    exact List.length_replicate
  have hvalue : ValueOf .dint (.array .dint elems) := by
    refine Or.inr ⟨elems, rfl, ?_⟩
    intro e he
    rw [← helems] at he
    rw [List.eq_of_mem_replicate he]
    exact ⟨trivial, rfl⟩
  have hdint : CipType.dint.elementSize = some 4 := rfl
  obtain ⟨bytes, hbytes, hsize⟩ := valueOf_encode hdint hvalue
  have hwidth : bytes.length = 472 := by
    rw [hsize]
    show elems.length * 4 = 472
    omega
  have hfits := hclaim _ _ pathBytes parse_programTag hpath defaultConnection none 1024 .dint 4
    (.array .dint elems) obliging rfl hvalue
  rw [writeFits_single defaultConnection _ hpath rfl hbytes obliging
    (by show elems.length < 2 ^ 16; omega) (by unfold maxRequestBytes; omega)] at hfits
  omega

end EnipAdapter.Analysis
