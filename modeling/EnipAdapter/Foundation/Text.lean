import Mathlib.Data.List.Basic
import Mathlib.Data.List.TakeWhile

/-!
# Text as bytes, numbers as text

Two encodings with their readers: a string as its UTF-8 bytes, and a natural number as its
decimal digits. What was written is read back in both.
-/

set_option autoImplicit false

namespace EnipAdapter.Foundation

/-! ## UTF-8 -/

/-- The text some bytes encode, if they are valid UTF-8. -/
def ofUtf8 (bytes : List UInt8) : Option String := String.fromUTF8? bytes.toByteArray

/-- The loop of `ByteArray.toList`, from a position on. -/
theorem byteArray_toList_loop (bs : ByteArray) (i : ℕ) (acc : List UInt8) :
    ByteArray.toList.loop bs i acc = acc.reverse ++ bs.data.toList.drop i := by
  induction hleft : bs.size - i generalizing i acc with
  | zero =>
      have hsize : bs.data.toList.length ≤ i := by
        show bs.size ≤ i
        omega
      rw [ByteArray.toList.loop, if_neg (by omega), List.drop_of_length_le hsize, List.append_nil]
  | succ left ih =>
      have hi : i < bs.data.toList.length := by
        show i < bs.size
        omega
      have hget : bs.get! i = bs.data.toList[i] := by
        show bs.data[i]! = bs.data.toList[i]
        rw [getElem!_pos bs.data i hi]
        rfl
      rw [ByteArray.toList.loop, if_pos (by omega), ih (i + 1) _ (by omega), hget,
        List.reverse_cons, List.append_assoc, List.singleton_append,
        List.getElem_cons_drop hi]

/-- A byte array and its data list the same bytes. -/
theorem byteArray_toList (bs : ByteArray) : bs.toList = bs.data.toList := by
  rw [ByteArray.toList, byteArray_toList_loop]
  rfl

/-- A byte array is recovered from its bytes. -/
theorem toByteArray_toList (bs : ByteArray) : bs.toList.toByteArray = bs := by
  apply ByteArray.ext
  apply Array.toList_inj.mp
  rw [List.toList_data_toByteArray, byteArray_toList]

/-- The bytes of a text are read back as the text. -/
theorem ofUtf8_toUTF8 (s : String) : ofUtf8 s.toUTF8.toList = some s := by
  have hvalid : s.toUTF8.IsValidUTF8 := s.isValidUTF8
  rw [ofUtf8, toByteArray_toList, String.fromUTF8?, dif_pos hvalid]
  rfl

/-- Some bytes are read as a text exactly when they are its bytes. -/
theorem ofUtf8_eq_some {bytes : List UInt8} {s : String} :
    ofUtf8 bytes = some s ↔ bytes = s.toUTF8.toList := by
  constructor
  · intro h
    unfold ofUtf8 String.fromUTF8? at h
    split_ifs at h with hvalid
    cases h
    rw [byteArray_toList]
    exact List.toList_data_toByteArray.symm
  · rintro rfl
    exact ofUtf8_toUTF8 s

/-- Texts that begin differently differ. -/
theorem append_ne_of_take {head head' : List Char} (n : ℕ) (hn : n ≤ head.length)
    (hn' : n ≤ head'.length) (h : head.take n ≠ head'.take n) (rest rest' : List Char) :
    head ++ rest ≠ head' ++ rest' := by
  intro heq
  have htake := congrArg (List.take n) heq
  rw [List.take_append_of_le_length hn, List.take_append_of_le_length hn'] at htake
  exact h htake

/-- A text begins as its first part does. -/
theorem head?_append {s : String} {c : Char} (h : s.toList.head? = some c) (t : String) :
    (s ++ t).toList.head? = some c := by
  rw [String.toList_append, List.head?_append, h, Option.some_or]

/-! ## Decimal numbers -/

/-- The Unicode white space that a trim removes. -/
def isWhiteSpace (c : Char) : Bool :=
  let n := c.toNat
  (9 ≤ n && n ≤ 13) || n == 0x20 || n == 0x85 || n == 0xA0 || n == 0x1680 ||
    (0x2000 ≤ n && n ≤ 0x200A) || n == 0x2028 || n == 0x2029 || n == 0x202F || n == 0x205F ||
    n == 0x3000

/-- The text without the white space around it. -/
def trimText (text : List Char) : List Char :=
  ((text.dropWhile isWhiteSpace).reverse.dropWhile isWhiteSpace).reverse

/-- The number a text denotes: digits behind an optional plus sign, below a bound. -/
def parseUnsigned (bound : ℕ) (text : List Char) : Option ℕ :=
  let digits :=
    match text with
    | '+' :: rest => rest
    | _ => text
  if digits = [] ∨ digits.all Char.isDigit = false then none
  else
    let n := Nat.ofDigitChars 10 digits 0
    if n < bound then some n else none

/-- A digit is no white space. -/
theorem isWhiteSpace_of_isDigit {c : Char} (h : c.isDigit = true) : isWhiteSpace c = false := by
  have hrange : 48 ≤ c.toNat ∧ c.toNat ≤ 57 := by
    simpa [Char.isDigit, UInt32.le_iff_toNat_le] using h
  simp only [isWhiteSpace, Bool.or_eq_false_iff, Bool.and_eq_false_iff, decide_eq_false_iff_not,
    beq_eq_false_iff_ne, ne_eq]
  omega

/-- There is no white space before a digit. -/
theorem dropWhile_digits {text : List Char} (h : ∀ c ∈ text, c.isDigit = true) :
    text.dropWhile isWhiteSpace = text := by
  cases text with
  | nil => rfl
  | cons c rest =>
      have hc := isWhiteSpace_of_isDigit (h c List.mem_cons_self)
      rw [List.dropWhile_cons, hc]
      rfl

/-- A run of digits is trimmed to itself. -/
theorem trimText_digits {text : List Char} (h : ∀ c ∈ text, c.isDigit = true) :
    trimText text = text := by
  have hreverse : ∀ c ∈ text.reverse, c.isDigit = true := by
    intro c hc
    exact h c (List.mem_reverse.mp hc)
  rw [trimText, dropWhile_digits h, dropWhile_digits hreverse, List.reverse_reverse]

/-- A number is spelled with digits. -/
theorem isDigit_of_mem_toString {n : ℕ} {c : Char} (h : c ∈ (toString n).toList) :
    c.isDigit = true := by
  have hmem : c ∈ Nat.toDigits 10 n := by
    rwa [Nat.toString_eq_ofList_toDigits, String.toList_ofList] at h
  exact Nat.isDigit_of_mem_toDigits (by omega) (by omega) hmem

/-- What is parsed is within the bound. -/
theorem parseUnsigned_lt {bound n : ℕ} {text : List Char} (h : parseUnsigned bound text = some n) :
    n < bound := by
  simp only [parseUnsigned] at h
  split_ifs at h with hdigits hbound
  cases h
  exact hbound

/-- A number that was written is read back. -/
theorem parseUnsigned_toString {bound n : ℕ} (h : n < bound) :
    parseUnsigned bound (toString n).toList = some n := by
  have htext : (toString n).toList = Nat.toDigits 10 n := by
    rw [Nat.toString_eq_ofList_toDigits, String.toList_ofList]
  have hdigits : ∀ c ∈ Nat.toDigits 10 n, c.isDigit = true := by
    intro c hc
    exact Nat.isDigit_of_mem_toDigits (by omega) (by omega) hc
  have hplain : (match Nat.toDigits 10 n with
      | '+' :: rest => rest
      | _ => Nat.toDigits 10 n) = Nat.toDigits 10 n := by
    split
    · rename_i rest heq
      rw [heq] at hdigits
      exact absurd (hdigits '+' List.mem_cons_self) (by decide)
    · rfl
  have hall : (Nat.toDigits 10 n).all Char.isDigit = true := List.all_eq_true.mpr hdigits
  simp only [parseUnsigned, htext, hplain, Nat.ofDigitChars_toDigits (show 1 < 10 by omega) le_rfl,
    if_pos h]
  rw [if_neg]
  rintro (hnil | hnot)
  · exact Nat.toDigits_ne_nil hnil
  · rw [hall] at hnot
    cases hnot

end EnipAdapter.Foundation
