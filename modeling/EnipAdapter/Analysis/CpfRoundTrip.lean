import EnipAdapter.Interface.RoundTripContract

/-!
# Item lists, written and read back

A length that lies cannot shift the parse of the items behind it unseen: whatever the decoder
accepts is, byte for byte, what the encoder writes for the items it found.
-/

set_option autoImplicit false

namespace EnipAdapter.Analysis

open EnipAdapter.Foundation EnipAdapter.Model EnipAdapter.Interface

/-! ## One item -/

/-- The type of a code is written as that code. -/
theorem itemType_code_fromCode (code : UInt16) : (ItemType.fromCode code).code = code := by
  unfold ItemType.fromCode
  split_ifs <;> simp_all [ItemType.code]

/-- A type that some code names is read back from its own. -/
theorem itemType_fromCode_code {ty : ItemType} (h : ∃ code, ty = ItemType.fromCode code) :
    ItemType.fromCode ty.code = ty := by
  obtain ⟨code, rfl⟩ := h
  rw [itemType_code_fromCode]

/-- One pass of the decoder's loop. -/
def readCpfItem (r : WireReader) : Except WireError (CpfItem × WireReader) := do
  let typeId ← r.u16
  let len ← typeId.2.u16
  let data ← len.2.take len.1.toNat
  pure (⟨ItemType.fromCode typeId.1, data.1⟩, data.2)

/-- Items are read one after the other. -/
theorem decodeItems_eq (n : ℕ) (r : WireReader) :
    Cpf.decodeItems n r = readMany readCpfItem n r := by
  induction n generalizing r with
  | zero => rfl
  | succ n ih =>
      rw [Cpf.decodeItems, readMany]
      simp only [readCpfItem, bind, Except.bind, pure, Except.pure]
      cases r.u16 with
      | error e => rfl
      | ok typeId =>
          cases hlen : typeId.2.u16 with
          | error e => simp only [hlen]
          | ok len =>
              cases hdata : len.2.take len.1.toNat with
              | error e => simp only [hlen, hdata]
              | ok data => simp only [hlen, hdata, ih]

/-- Items are written one after the other. -/
theorem writeItems_eq (items : List CpfItem) :
    Cpf.writeItems items = writeMany CpfItem.write items := by
  induction items with
  | nil => rfl
  | cons i is ih => rw [Cpf.writeItems, writeMany, ih]

/-- An item can be written exactly where its length field holds the length of its payload. -/
theorem item_write_isOk_iff (i : CpfItem) :
    (∃ bytes, i.write = .ok bytes) ↔ i.data.length ≤ 65535 := by
  unfold CpfItem.write
  constructor
  · rintro ⟨bytes, h⟩
    split at h
    · omega
    · cases h
  · intro h
    exact ⟨_, if_pos (by omega)⟩

/-- A written item of a named type is read back. -/
theorem readCpfItem_write {i : CpfItem} {bytes : Bytes}
    (hknown : ItemType.fromCode i.typeId.code = i.typeId) (h : i.write = .ok bytes)
    (r : WireReader) : readCpfItem (r.unread bytes) = .ok (i, r) := by
  unfold CpfItem.write at h
  split at h
  · rename_i hlen
    cases h
    have hlength : (UInt16.ofNat i.data.length).toNat = i.data.length :=
      UInt16.toNat_ofNat_of_lt' hlen
    simp only [readCpfItem, WireReader.unread, List.append_assoc, WireReader.u16_append, bind,
      Except.bind, hlength, WireReader.take_append, hknown, pure, Except.pure]
  · cases h

/-- An item that was read is written as the bytes it was read from. -/
theorem write_readItem {r r' : WireReader} {i : CpfItem} (h : readCpfItem r = .ok (i, r')) :
    ∃ bytes, r = r'.unread bytes ∧ i.write = .ok bytes := by
  unfold readCpfItem at h
  obtain ⟨typeId, htype, h⟩ := bind_ok.mp h
  obtain ⟨len, hlen, h⟩ := bind_ok.mp h
  obtain ⟨data, hdata, h⟩ := bind_ok.mp h
  cases h
  obtain ⟨hcount, hrest⟩ := WireReader.eq_unread_of_take hdata
  have hfits : data.1.length < 2 ^ 16 := by
    rw [hcount]
    exact len.1.toNat_lt
  have hfield : UInt16.ofNat data.1.length = len.1 := by
    rw [hcount, UInt16.ofNat_toNat]
  refine ⟨putU16 typeId.1 ++ putU16 len.1 ++ data.1, ?_, ?_⟩
  · rw [WireReader.eq_unread_of_u16 htype, WireReader.eq_unread_of_u16 hlen, hrest]
    simp only [WireReader.unread, List.append_assoc]
  · rw [CpfItem.write, if_pos hfits, itemType_code_fromCode, hfield]

/-! ## Item lists -/

/-- The items of a list are read back one after the other. -/
theorem decodeItems_writeItems {items : List CpfItem} {bytes : Bytes}
    (hknown : ∀ i ∈ items, ItemType.fromCode i.typeId.code = i.typeId)
    (h : Cpf.writeItems items = .ok bytes) (r : WireReader) :
    Cpf.decodeItems items.length (r.unread bytes) = .ok (items, r) := by
  rw [decodeItems_eq]
  rw [writeItems_eq] at h
  exact readMany_of_writeMany wireTape
    (fun i hi bytes r hw => readCpfItem_write (hknown i hi) hw r) h r

/-- The items that were read are written as the bytes they were read from. -/
theorem writeItems_decodeItems {n : ℕ} {r r' : WireReader} {items : List CpfItem}
    (h : Cpf.decodeItems n r = .ok (items, r')) :
    items.length = n ∧ ∃ bytes, r = r'.unread bytes ∧ Cpf.writeItems items = .ok bytes := by
  rw [decodeItems_eq] at h
  obtain ⟨bytes, hr, hwrite⟩ := writeMany_of_readMany wireTape id (by
    intro s i s' hi
    rw [List.map_id_fun]
    exact write_readItem hi) h
  rw [List.map_id] at hwrite
  refine ⟨length_of_readMany h, bytes, hr, ?_⟩
  rw [writeItems_eq, hwrite]

/-- An item list of known types is read back from its encoding. -/
theorem cpf_decode_encode {cpf : Cpf} {bytes : Bytes}
    (hknown : ∀ i ∈ cpf.items, ItemType.fromCode i.typeId.code = i.typeId)
    (h : cpf.encode = .ok bytes) : Cpf.decode bytes = .ok cpf := by
  unfold Cpf.encode at h
  split at h
  · rename_i hlen
    cases hbody : Cpf.writeItems cpf.items with
    | error e =>
      rw [hbody] at h
      cases h
    | ok body =>
      rw [hbody] at h
      cases h
      have hlength : (UInt16.ofNat cpf.items.length).toNat = cpf.items.length :=
        UInt16.toNat_ofNat_of_lt' hlen
      have hitems := decodeItems_writeItems hknown hbody ⟨[], "cpf"⟩
      simp only [WireReader.unread, List.append_nil] at hitems
      simp [Cpf.decode, Cpf.decodeFrom, WireReader.withContext, WireReader.at_,
        WireReader.u16_append, bind, Except.bind, pure, Except.pure, hlength, hitems,
        WireReader.expectEnd, WireReader.remaining]
  · cases h

/-- An item list that was decoded is encoded as the bytes it was decoded from. -/
theorem cpf_encode_decode {bytes : Bytes} {cpf : Cpf} (h : Cpf.decode bytes = .ok cpf) :
    cpf.encode = .ok bytes := by
  unfold Cpf.decode at h
  obtain ⟨⟨cpf, r'⟩, hfrom, h⟩ := bind_ok.mp h
  obtain ⟨_, hend, h⟩ := bind_ok.mp h
  cases h
  unfold Cpf.decodeFrom at hfrom
  obtain ⟨⟨count, r⟩, hcount, hfrom⟩ := bind_ok.mp hfrom
  obtain ⟨⟨items, r₁⟩, hitems, hfrom⟩ := bind_ok.mp hfrom
  cases hfrom
  obtain ⟨hlen, body, hbody, hwrite⟩ := writeItems_decodeItems hitems
  have hfits : items.length < 2 ^ 16 := by
    rw [hlen]
    exact count.toNat_lt
  have hfield : UInt16.ofNat items.length = count := by
    rw [hlen, UInt16.ofNat_toNat]
  -- nothing is left behind the last item
  have hempty := WireReader.rest_of_expectEnd hend
  have hwhole := WireReader.eq_unread_of_u16 hcount
  rw [hbody] at hwhole
  have hbytes := congrArg WireReader.rest hwhole
  simp only [WireReader.withContext, WireReader.at_, WireReader.unread, hempty,
    List.append_nil] at hbytes
  simp only [Cpf.encode, if_pos hfits, hwrite, hfield, bind, Except.bind, pure, Except.pure, hbytes]

/-- An item list is encoded exactly where every length fits its field. -/
theorem cpf_encode_isOk_iff (c : Cpf) :
    (∃ bytes, c.encode = .ok bytes) ↔
      c.items.length ≤ 65535 ∧ ∀ i ∈ c.items, i.data.length ≤ 65535 := by
  have hbody : (∃ body, Cpf.writeItems c.items = .ok body) ↔
      ∀ i ∈ c.items, i.data.length ≤ 65535 := by
    rw [writeItems_eq, writeMany_isOk_iff]
    simp only [item_write_isOk_iff]
  rw [← hbody]
  unfold Cpf.encode
  by_cases hcount : c.items.length < 2 ^ 16
  · rw [if_pos hcount]
    cases hwrite : Cpf.writeItems c.items with
    | error e =>
        constructor
        · rintro ⟨bytes, h⟩
          cases h
        · rintro ⟨-, body, h⟩
          cases h
    | ok body => exact ⟨fun _ => ⟨by omega, body, rfl⟩, fun _ => ⟨_, rfl⟩⟩
  · rw [if_neg hcount]
    constructor
    · rintro ⟨bytes, h⟩
      cases h
    · rintro ⟨hle, -⟩
      omega

/-- What the decoder accepts is what the encoder writes, so no two byte strings decode to the
same items; every representable item list is read back from its encoding; and an item list with
a length that does not fit its field is refused. -/
theorem cpf_round_trip :
    (∀ b c, Cpf.decode b = .ok c → c.encode = .ok b) ∧
      (∀ b b' c, Cpf.decode b = .ok c → Cpf.decode b' = .ok c → b = b') ∧
      (∀ c, Representable c → ∃ b, c.encode = .ok b ∧ Cpf.decode b = .ok c) ∧
      (∀ c, Oversize c → ∃ e, c.encode = .error e) := by
  refine ⟨fun b c h => cpf_encode_decode h, ?_, ?_, ?_⟩
  · intro b b' c h h'
    have heq := (cpf_encode_decode h).symm.trans (cpf_encode_decode h')
    exact Except.ok.inj heq
  · intro c hc
    obtain ⟨b, hb⟩ := (cpf_encode_isOk_iff c).mpr ⟨hc.count_le, hc.payload_le⟩
    refine ⟨b, hb, cpf_decode_encode ?_ hb⟩
    intro i hi
    exact itemType_fromCode_code (hc.named i hi)
  · intro c hc
    cases hencode : c.encode with
    | error e => exact ⟨e, rfl⟩
    | ok b =>
        exfalso
        obtain ⟨hcount, hpayload⟩ := (cpf_encode_isOk_iff c).mp ⟨b, hencode⟩
        cases hc with
        | inl h => omega
        | inr h =>
            obtain ⟨i, hi, hlong⟩ := h
            have hle := hpayload i hi
            omega

end EnipAdapter.Analysis
