/-
# CwTariWallet.FrbGenerated.Buffer -- numbers and texts, below the generated code

Both sides live in one process and put numbers in its byte order; all the generated code relies on is that one
side reads back what the other put.  A text crosses as UTF-8.  Dart's `utf8.encoder` writes U+FFFD for half a
surrogate pair, and its `utf8.decoder` drops a byte-order mark in front; so not every text comes back from
the other side as it went (`DartString.toRust_ofRust_iff`).
-/
import CwTariWallet.Codec
import CwTariWallet.Utf16

namespace CwTariWallet.FrbGenerated

open Codec (Bytes Reader Reads Format Endian)

/-! ## Numbers -/

/-- What one side's serializer puts for a number and the other side's deserializer takes for one.  A byte is
itself on both. -/
structure Buffer where
  u16 : Format UInt16
  u32 : Format UInt32
  u64 : Format UInt64
  i32 : Format Int32
  i64 : Format Int64

/-- `NativeEndian`, and Dart's `Endian.host`. -/
def Buffer.native (endian : Endian) : Buffer where
  u16 := .fixed endian 2 UInt16.toNat UInt16.ofNat UInt16.toNat_lt fun _ => UInt16.ofNat_toNat
  u32 := .fixed endian 4 UInt32.toNat UInt32.ofNat UInt32.toNat_lt fun _ => UInt32.ofNat_toNat
  u64 := .fixed endian 8 UInt64.toNat UInt64.ofNat UInt64.toNat_lt fun _ => UInt64.ofNat_toNat
  i32 := .fixed endian 4 (fun n => n.toUInt32.toNat) (fun n => (UInt32.ofNat n).toInt32)
    (fun n => n.toUInt32.toNat_lt) fun n => by
      show (UInt32.ofNat n.toUInt32.toNat).toInt32 = n
      rw [UInt32.ofNat_toNat, Int32.toInt32_toUInt32]
  i64 := .fixed endian 8 (fun n => n.toUInt64.toNat) (fun n => (UInt64.ofNat n).toInt64)
    (fun n => n.toUInt64.toNat_lt) fun n => by
      show (UInt64.ofNat n.toUInt64.toNat).toInt64 = n
      rw [UInt64.ofNat_toNat, Int64.toInt64_toUInt64]

instance nontrivial_int32 : Nontrivial Int32 := ⟨0, 1, by decide⟩

/-! ## Lengths -/

/-- How long a message may be: every length in it, and its own, is an `i32`. -/
def messageLimit : Nat := 2 ^ 31

/-- Read within a message no longer than one may be. -/
abbrev Arrives {α : Type} (r : Reader α) (bs : Bytes) (a : α) : Prop := Reads messageLimit r bs a

/-- A length that a message has room for is read back. -/
theorem toNatClampNeg_ofNat {n : Nat} (h : n < messageLimit) : (Int32.ofNat n).toNatClampNeg = n :=
  Int32.toNatClampNeg_ofNat_of_lt h

theorem ofNat_not_neg {n : Nat} (h : n < messageLimit) : ¬Int32.ofNat n < 0 := by
  rw [Int32.lt_iff_toInt_lt, Int32.toInt_ofNat_of_lt h, Int32.toInt_zero]
  omega

section

variable (b : Buffer)

/-- A length, and after it what has that length. -/
theorem counted_reads {α : Type} {next : Int32 → Reader α} {bs : Bytes} {n : Nat} {a : α}
    (hn : n ≤ bs.length) (h : n < messageLimit → Arrives (next (Int32.ofNat n)) bs a) :
    Arrives (do let len ← b.i32.get; next len) (List.flatten [b.i32.put (Int32.ofNat n), bs]) a := by
  intro hlimit
  have hshort : n < messageLimit := by
    rw [List.flatten_cons, List.length_append, List.flatten_cons, List.length_append] at hlimit
    omega
  have hnext : Arrives (next (Int32.ofNat n)) (List.flatten [bs]) a := by
    rw [List.flatten_cons, List.flatten_nil, List.append_nil]
    exact h hshort
  exact Reads.step (b.i32.reads _) hnext hlimit

/-- A loop of as many rounds as there are items. -/
theorem counted_times {α β : Type} {r : Reader β} {write : α → Bytes} {f : α → β}
    (hpos : ∀ a, 0 < (write a).length) (h : ∀ a, Arrives r (write a) (f a)) (items : List α) :
    Arrives (do let len ← b.i32.get; Reader.times r len.toNatClampNeg)
      (List.flatten [b.i32.put (Int32.ofNat items.length), items.flatMap write]) (items.map f) := by
  apply counted_reads b (Reads.length_le_length_flatMap hpos items)
  intro hshort
  rw [toNatClampNeg_ofNat hshort]
  exact Reads.times items fun a _ => h a

/-- What starts with a length is not empty. -/
theorem flatten_pos (n : Int32) (parts : List Bytes) : 0 < (List.flatten (b.i32.put n :: parts)).length := by
  have hpos := List.length_pos_of_ne_nil (b.i32.put_ne_nil n)
  rw [List.flatten_cons, List.length_append]
  omega

end

/-! ## Rust's texts -/

/-- `String::into_bytes`. -/
def intoBytes (text : String) : Bytes := text.toByteArray.data.toList

/-- `String::from_utf8`. -/
def fromUtf8 (bytes : Bytes) : Option String := String.fromUTF8? bytes.toByteArray

theorem intoBytes_ofList (text : List Char) :
    intoBytes (String.ofList text) = text.flatMap String.utf8EncodeChar := by
  rw [intoBytes, String.toByteArray_ofList, List.utf8Encode, List.toList_data_toByteArray]

theorem fromUtf8_intoBytes (text : String) : fromUtf8 (intoBytes text) = some text := by
  have hbytes : (intoBytes text).toByteArray = text.toByteArray := by
    apply ByteArray.ext
    rw [List.data_toByteArray, intoBytes, Array.toArray_toList]
  rw [fromUtf8, hbytes, String.fromUTF8?, dif_pos text.isValidUTF8]
  rfl

/-! ## Dart's texts -/

/-- A Dart `String`. -/
abbrev DartString := List UInt16

/-- U+FEFF. -/
def byteOrderMark : Char := '\uFEFF'

/-- The text without a byte-order mark in front. -/
def dropByteOrderMark : List Char → List Char
  | [] => []
  | c :: rest => if c = byteOrderMark then rest else c :: rest

namespace DartString

/-- `utf8.encoder.convert`. -/
def utf8Encode (text : DartString) : Bytes := (Utf16.decode text).flatMap String.utf8EncodeChar

/-- The Rust text that arrives for a Dart one. -/
def toRust (text : DartString) : String := String.ofList (Utf16.decode text)

/-- The Dart text that arrives for a Rust one. -/
def ofRust (text : String) : DartString := Utf16.encode (dropByteOrderMark text.toList)

/-- `utf8.decoder.convert`; `none` where it throws. -/
def utf8Decode (bytes : Bytes) : Option DartString := (fromUtf8 bytes).map ofRust

theorem fromUtf8_utf8Encode (text : DartString) : fromUtf8 text.utf8Encode = some text.toRust := by
  rw [utf8Encode, ← intoBytes_ofList]
  exact fromUtf8_intoBytes text.toRust

theorem utf8Decode_intoBytes (text : String) : utf8Decode (intoBytes text) = some (ofRust text) := by
  rw [utf8Decode, fromUtf8_intoBytes]
  rfl

/-! ### There and back -/

theorem dropByteOrderMark_eq_iff (text : List Char) :
    dropByteOrderMark text = text ↔ text.head? ≠ some byteOrderMark := by
  cases text with
  | nil => exact iff_of_true rfl (by decide)
  | cons c rest =>
    rw [dropByteOrderMark, List.head?_cons]
    split
    next hc =>
      constructor
      · intro h
        have hlength := congrArg List.length h
        rw [List.length_cons] at hlength
        omega
      · intro h
        exact absurd (congrArg some hc) h
    next hc => exact ⟨fun _ h => hc (Option.some.inj h), fun _ => rfl⟩

/-- A Rust text comes back from Dart as it went, unless it starts with a byte-order mark. -/
theorem toRust_ofRust_iff (text : String) :
    (ofRust text).toRust = text ↔ text.toList.head? ≠ some byteOrderMark := by
  rw [toRust, ofRust, Utf16.decode_encode, ← dropByteOrderMark_eq_iff]
  constructor
  · intro h
    have hlist := congrArg String.toList h
    rwa [String.toList_ofList] at hlist
  · intro h
    rw [h, String.ofList_toList]

end DartString

end CwTariWallet.FrbGenerated
