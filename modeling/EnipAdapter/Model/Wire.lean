import EnipAdapter.Foundation.Bytes

/-!
# The checked byte cursor and the byte writer

`WireReader` is the decode primitive of the protocol crate (`wire.rs`): a cursor over one
buffer that checks what is left before every read and answers `WireError.truncated`
instead of reading past the end. The cursor is kept as the bytes not yet consumed, which
is all any of its operations observe, together with the label that names the layer in an
error. `WireWriter` is the append-only encode side: a writer is the bytes written so far.
-/

set_option autoImplicit false

namespace EnipAdapter.Model

open EnipAdapter.Foundation

abbrev Bytes := List UInt8

/-- A decode failure (`error.rs`): every variant names the layer that failed. -/
inductive WireError where
  /-- The buffer ended before a read of `needed` bytes could complete. -/
  | truncated (needed remaining : ℕ) (context : String)
  /-- A structurally invalid field. -/
  | malformed (context detail : String)
  /-- Arithmetic on a wire-supplied length would overflow. -/
  | overflow (context : String)
  /-- A string field was not valid UTF-8. -/
  | invalidUtf8 (context : String)
deriving DecidableEq, Repr

/-- A cursor over the bytes of a buffer that are still to be read. -/
structure WireReader where
  /-- The bytes not yet consumed. -/
  rest : Bytes
  /-- The layer a truncation error names. -/
  context : String
deriving DecidableEq, Repr

namespace WireReader

/-- A cursor at the start of `buf`, labelled with the layer it decodes. -/
def withContext (buf : Bytes) (context : String) : WireReader := ⟨buf, context⟩

/-- The same cursor under another label. -/
def at_ (r : WireReader) (context : String) : WireReader := { r with context := context }

def remaining (r : WireReader) : ℕ := r.rest.length

/-- The trailing-garbage guard for exact layouts. -/
def expectEnd (r : WireReader) : Except WireError Unit :=
  if r.remaining = 0 then .ok ()
  else .error (.malformed r.context "trailing bytes after expected end")

/-- The next `n` bytes, or `truncated`. -/
def take (r : WireReader) (n : ℕ) : Except WireError (Bytes × WireReader) :=
  if n ≤ r.rest.length then .ok (r.rest.take n, { r with rest := r.rest.drop n })
  else .error (.truncated n r.remaining r.context)

def takeRest (r : WireReader) : Bytes × WireReader := (r.rest, { r with rest := [] })

def u8 (r : WireReader) : Except WireError (UInt8 × WireReader) := do
  let (bs, r) ← r.take 1
  pure (UInt8.ofNat (ofLeBytes bs), r)

def u16 (r : WireReader) : Except WireError (UInt16 × WireReader) := do
  let (bs, r) ← r.take 2
  pure (UInt16.ofNat (ofLeBytes bs), r)

def u32 (r : WireReader) : Except WireError (UInt32 × WireReader) := do
  let (bs, r) ← r.take 4
  pure (UInt32.ofNat (ofLeBytes bs), r)

def u64 (r : WireReader) : Except WireError (UInt64 × WireReader) := do
  let (bs, r) ← r.take 8
  pure (UInt64.ofNat (ofLeBytes bs), r)

/-- A big-endian `u16`: the socket-address exception. -/
def u16Be (r : WireReader) : Except WireError (UInt16 × WireReader) := do
  let (bs, r) ← r.take 2
  pure (UInt16.ofNat (ofBeBytes bs), r)

/-- A big-endian `u32`: the socket-address exception. -/
def u32Be (r : WireReader) : Except WireError (UInt32 × WireReader) := do
  let (bs, r) ← r.take 4
  pure (UInt32.ofNat (ofBeBytes bs), r)

end WireReader

/-! ## Writing -/

def putU8 (v : UInt8) : Bytes := [v]

def putU16 (v : UInt16) : Bytes := leBytes 2 v.toNat

def putU32 (v : UInt32) : Bytes := leBytes 4 v.toNat

def putU64 (v : UInt64) : Bytes := leBytes 8 v.toNat

def putU16Be (v : UInt16) : Bytes := beBytes 2 v.toNat

def putU32Be (v : UInt32) : Bytes := beBytes 4 v.toNat

@[simp] theorem putU8_length (v : UInt8) : (putU8 v).length = 1 := rfl

@[simp] theorem putU16_length (v : UInt16) : (putU16 v).length = 2 := by simp [putU16]

@[simp] theorem putU32_length (v : UInt32) : (putU32 v).length = 4 := by simp [putU32]

/-- Eight bytes identify the `u64` they were written from. -/
theorem putU64_inj {u v : UInt64} (h : putU64 u = putU64 v) : u = v := by
  apply UInt64.toNat_inj.mp
  exact leBytes_inj u.toNat_lt v.toNat_lt h

/-! ## Reading back what was written -/

/-- Bytes at the cursor are taken as they are. -/
theorem WireReader.take_append (bs rest : Bytes) (context : String) :
    (⟨bs ++ rest, context⟩ : WireReader).take bs.length = .ok (bs, ⟨rest, context⟩) := by
  simp [WireReader.take]

/-- A `u16` written at the cursor is read back. -/
theorem WireReader.u16_append (v : UInt16) (rest : Bytes) (context : String) :
    (⟨putU16 v ++ rest, context⟩ : WireReader).u16 = .ok (v, ⟨rest, context⟩) := by
  have htake := take_append (putU16 v) rest context
  rw [putU16_length] at htake
  have hlt : v.toNat < 256 ^ 2 := v.toNat_lt
  have hvalue : UInt16.ofNat (ofLeBytes (putU16 v)) = v := by
    rw [putU16, ofLeBytes_leBytes, Nat.mod_eq_of_lt hlt, UInt16.ofNat_toNat]
  simp only [WireReader.u16, htake]
  show Except.ok (UInt16.ofNat (ofLeBytes (putU16 v)), (⟨rest, context⟩ : WireReader)) = _
  rw [hvalue]

/-- A `u32` written at the cursor is read back. -/
theorem WireReader.u32_append (v : UInt32) (rest : Bytes) (context : String) :
    (⟨putU32 v ++ rest, context⟩ : WireReader).u32 = .ok (v, ⟨rest, context⟩) := by
  have htake := take_append (putU32 v) rest context
  rw [putU32_length] at htake
  have hlt : v.toNat < 256 ^ 4 := v.toNat_lt
  have hvalue : UInt32.ofNat (ofLeBytes (putU32 v)) = v := by
    rw [putU32, ofLeBytes_leBytes, Nat.mod_eq_of_lt hlt, UInt32.ofNat_toNat]
  simp only [WireReader.u32, htake]
  show Except.ok (UInt32.ofNat (ofLeBytes (putU32 v)), (⟨rest, context⟩ : WireReader)) = _
  rw [hvalue]

/-- A byte written at the cursor is read back. -/
theorem WireReader.u8_append (v : UInt8) (rest : Bytes) (context : String) :
    (⟨putU8 v ++ rest, context⟩ : WireReader).u8 = .ok (v, ⟨rest, context⟩) := by
  have htake := take_append (putU8 v) rest context
  rw [putU8_length] at htake
  have hvalue : UInt8.ofNat (ofLeBytes (putU8 v)) = v := by
    simp [putU8, ofLeBytes]
  simp only [WireReader.u8, htake]
  show Except.ok (UInt8.ofNat (ofLeBytes (putU8 v)), (⟨rest, context⟩ : WireReader)) = _
  rw [hvalue]

@[simp] theorem putU64_length (v : UInt64) : (putU64 v).length = 8 := by simp [putU64]

/-- A `u64` written at the cursor is read back. -/
theorem WireReader.u64_append (v : UInt64) (rest : Bytes) (context : String) :
    (⟨putU64 v ++ rest, context⟩ : WireReader).u64 = .ok (v, ⟨rest, context⟩) := by
  have htake := take_append (putU64 v) rest context
  rw [putU64_length] at htake
  have hlt : v.toNat < 256 ^ 8 := v.toNat_lt
  have hvalue : UInt64.ofNat (ofLeBytes (putU64 v)) = v := by
    rw [putU64, ofLeBytes_leBytes, Nat.mod_eq_of_lt hlt, UInt64.ofNat_toNat]
  simp only [WireReader.u64, htake]
  show Except.ok (UInt64.ofNat (ofLeBytes (putU64 v)), (⟨rest, context⟩ : WireReader)) = _
  rw [hvalue]

/-! ## Writing back what was read -/

/-- The cursor before some bytes were read off it. -/
def WireReader.unread (bs : Bytes) (r : WireReader) : WireReader := { r with rest := bs ++ r.rest }

/-- Bytes that were taken stood at the cursor. -/
theorem WireReader.eq_unread_of_take {r r' : WireReader} {n : ℕ} {bs : Bytes}
    (h : r.take n = .ok (bs, r')) : bs.length = n ∧ r = r'.unread bs := by
  unfold WireReader.take at h
  split at h
  · rename_i hle
    cases h
    refine ⟨List.length_take_of_le hle, ?_⟩
    simp [WireReader.unread, List.take_append_drop]
  · cases h

/-- Behind the end of an exact layout there is nothing. -/
theorem WireReader.rest_of_expectEnd {r : WireReader} {u : Unit} (h : r.expectEnd = .ok u) :
    r.rest = [] := by
  unfold WireReader.expectEnd WireReader.remaining at h
  split at h
  · rename_i hzero
    exact List.eq_nil_of_length_eq_zero hzero
  · cases h

/-- A byte that was read stood at the cursor. -/
theorem WireReader.eq_unread_of_u8 {r r' : WireReader} {v : UInt8} (h : r.u8 = .ok (v, r')) :
    r = r'.unread (putU8 v) := by
  unfold WireReader.u8 at h
  cases htake : r.take 1 with
  | error e =>
      rw [htake] at h
      cases h
  | ok p =>
      rw [htake] at h
      cases h
      obtain ⟨hlen, hr⟩ := eq_unread_of_take htake
      obtain ⟨b, hb⟩ := List.length_eq_one_iff.mp hlen
      have hvalue : putU8 (UInt8.ofNat (ofLeBytes p.1)) = p.1 := by
        rw [hb]
        simp [putU8, ofLeBytes]
      rw [hvalue]
      exact hr

/-- A `u16` that was read stood at the cursor. -/
theorem WireReader.eq_unread_of_u16 {r r' : WireReader} {v : UInt16} (h : r.u16 = .ok (v, r')) :
    r = r'.unread (putU16 v) := by
  unfold WireReader.u16 at h
  cases htake : r.take 2 with
  | error e =>
      rw [htake] at h
      cases h
  | ok p =>
      rw [htake] at h
      cases h
      obtain ⟨hlen, hr⟩ := eq_unread_of_take htake
      have hlt := ofLeBytes_lt p.1
      rw [hlen] at hlt
      have hvalue : putU16 (UInt16.ofNat (ofLeBytes p.1)) = p.1 := by
        rw [putU16, UInt16.toNat_ofNat_of_lt' hlt, ← hlen, leBytes_ofLeBytes]
      rw [hvalue]
      exact hr

/-- A `u32` that was read stood at the cursor. -/
theorem WireReader.eq_unread_of_u32 {r r' : WireReader} {v : UInt32} (h : r.u32 = .ok (v, r')) :
    r = r'.unread (putU32 v) := by
  unfold WireReader.u32 at h
  cases htake : r.take 4 with
  | error e =>
      rw [htake] at h
      cases h
  | ok p =>
      rw [htake] at h
      cases h
      obtain ⟨hlen, hr⟩ := eq_unread_of_take htake
      have hlt := ofLeBytes_lt p.1
      rw [hlen] at hlt
      have hvalue : putU32 (UInt32.ofNat (ofLeBytes p.1)) = p.1 := by
        rw [putU32, UInt32.toNat_ofNat_of_lt' hlt, ← hlen, leBytes_ofLeBytes]
      rw [hvalue]
      exact hr

/-- A `u64` that was read stood at the cursor. -/
theorem WireReader.eq_unread_of_u64 {r r' : WireReader} {v : UInt64} (h : r.u64 = .ok (v, r')) :
    r = r'.unread (putU64 v) := by
  unfold WireReader.u64 at h
  cases htake : r.take 8 with
  | error e =>
      rw [htake] at h
      cases h
  | ok p =>
      rw [htake] at h
      cases h
      obtain ⟨hlen, hr⟩ := eq_unread_of_take htake
      have hlt := ofLeBytes_lt p.1
      rw [hlen] at hlt
      have hvalue : putU64 (UInt64.ofNat (ofLeBytes p.1)) = p.1 := by
        rw [putU64, UInt64.toNat_ofNat_of_lt' hlt, ← hlen, leBytes_ofLeBytes]
      rw [hvalue]
      exact hr

/-! ## Reading is exact -/

/-- Bytes are put back in front of those put back before. -/
@[simp] theorem WireReader.unread_unread (a b : Bytes) (r : WireReader) :
    (r.unread b).unread a = r.unread (a ++ b) := by
  simp [WireReader.unread]

/-- What was taken can be put back. -/
theorem WireReader.take_ok {r r' : WireReader} {n : ℕ} {bs : Bytes} :
    r.take n = .ok (bs, r') ↔ bs.length = n ∧ r = r'.unread bs := by
  constructor
  · exact eq_unread_of_take
  · rintro ⟨rfl, rfl⟩
    exact take_append bs r'.rest r'.context

/-- A byte that was read can be put back. -/
theorem WireReader.u8_ok {r r' : WireReader} {v : UInt8} :
    r.u8 = .ok (v, r') ↔ r = r'.unread (putU8 v) := by
  constructor
  · exact eq_unread_of_u8
  · rintro rfl
    exact u8_append v r'.rest r'.context

/-- The bytes of a half word that was read can be put back. -/
theorem WireReader.u16_ok {r r' : WireReader} {v : UInt16} :
    r.u16 = .ok (v, r') ↔ r = r'.unread (putU16 v) := by
  constructor
  · exact eq_unread_of_u16
  · rintro rfl
    exact u16_append v r'.rest r'.context

/-- The bytes of a word that was read can be put back. -/
theorem WireReader.u32_ok {r r' : WireReader} {v : UInt32} :
    r.u32 = .ok (v, r') ↔ r = r'.unread (putU32 v) := by
  constructor
  · exact eq_unread_of_u32
  · rintro rfl
    exact u32_append v r'.rest r'.context

/-- The bytes of a half word can be put back in network order. -/
theorem WireReader.u16Be_ok {r r' : WireReader} {v : UInt16} :
    r.u16Be = .ok (v, r') ↔ r = r'.unread (putU16Be v) := by
  have hlt : v.toNat < 256 ^ 2 := v.toNat_lt
  have hlength : (putU16Be v).length = 2 := beBytes_length 2 v.toNat
  unfold WireReader.u16Be
  constructor
  · intro h
    cases htake : r.take 2 with
    | error e =>
        rw [htake] at h
        cases h
    | ok p =>
        rw [htake] at h
        cases h
        obtain ⟨hlen, hr⟩ := eq_unread_of_take htake
        have hbound := ofBeBytes_lt p.1
        rw [hlen] at hbound
        rw [putU16Be, UInt16.toNat_ofNat_of_lt' hbound, ← hlen, beBytes_ofBeBytes]
        exact hr
  · intro h
    have htake : r.take 2 = .ok (putU16Be v, r') := take_ok.mpr ⟨hlength, h⟩
    simp only [htake]
    show Except.ok (UInt16.ofNat (ofBeBytes (putU16Be v)), r') = _
    rw [putU16Be, ofBeBytes_beBytes, Nat.mod_eq_of_lt hlt, UInt16.ofNat_toNat]

/-- The bytes of a word can be put back in network order. -/
theorem WireReader.u32Be_ok {r r' : WireReader} {v : UInt32} :
    r.u32Be = .ok (v, r') ↔ r = r'.unread (putU32Be v) := by
  have hlt : v.toNat < 256 ^ 4 := v.toNat_lt
  have hlength : (putU32Be v).length = 4 := beBytes_length 4 v.toNat
  unfold WireReader.u32Be
  constructor
  · intro h
    cases htake : r.take 4 with
    | error e =>
        rw [htake] at h
        cases h
    | ok p =>
        rw [htake] at h
        cases h
        obtain ⟨hlen, hr⟩ := eq_unread_of_take htake
        have hbound := ofBeBytes_lt p.1
        rw [hlen] at hbound
        rw [putU32Be, UInt32.toNat_ofNat_of_lt' hbound, ← hlen, beBytes_ofBeBytes]
        exact hr
  · intro h
    have htake : r.take 4 = .ok (putU32Be v, r') := take_ok.mpr ⟨hlength, h⟩
    simp only [htake]
    show Except.ok (UInt32.ofNat (ofBeBytes (putU32Be v)), r') = _
    rw [putU32Be, ofBeBytes_beBytes, Nat.mod_eq_of_lt hlt, UInt32.ofNat_toNat]

end EnipAdapter.Model
