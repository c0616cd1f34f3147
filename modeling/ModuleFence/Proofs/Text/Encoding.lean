import Mathlib.Tactic.SplitIfs
import ModuleFence.Text.Utf8

/-!
Decoding of encoded texts. The bytes of a string are decoded to its characters: no character has an
encoding that the decoder takes for a fault, or for more or less than one character.
-/

set_option autoImplicit false

namespace ModuleFence.Utf8

theorem toList_loop (bytes : ByteArray) (index : Nat) (before : List UInt8) :
    ByteArray.toList.loop bytes index before =
      before.reverse ++ bytes.data.toList.drop index := by
  induction index, before using ByteArray.toList.loop.induct bytes with
  | case1 index before inside ih =>
    have within : index < bytes.data.toList.length := inside
    have here : bytes.get! index = bytes.data.toList[index] := getElem!_pos bytes.data index inside
    rw [ByteArray.toList.loop, if_pos inside, ih, List.drop_eq_getElem_cons within, here,
      List.reverse_cons, List.append_assoc, List.singleton_append]
  | case2 index before outside =>
    have beyond : bytes.data.toList.length ≤ index := Nat.le_of_not_lt outside
    rw [ByteArray.toList.loop, if_neg outside, List.drop_eq_nil_of_le beyond, List.append_nil]

/-- The bytes of a string are those of its characters, one behind the other. -/
theorem encode_eq (string : String) :
    encode string = string.toList.flatMap String.utf8EncodeChar := by
  have bytes : string.toUTF8 = string.toList.utf8Encode := String.utf8Encode_toList.symm
  rw [encode, bytes, ByteArray.toList, toList_loop]
  exact List.toList_data_toByteArray

/-- A byte begins a character: it carries some bits and asks for bytes in some ranges. -/
def Begins (byte : UInt8) (bits : Nat) (ranges : List (UInt8 × UInt8)) : Prop :=
  continuations? byte = some ranges ∧ leadingBits byte = bits

instance (byte : UInt8) (bits : Nat) (ranges : List (UInt8 × UInt8)) :
    Decidable (Begins byte bits ranges) :=
  inferInstanceAs (Decidable (_ ∧ _))

theorem begins_one : ∀ bits < 128, Begins (UInt8.ofNat bits) bits [] := by
  decide +kernel

theorem begins_two : ∀ bits < 32, 2 ≤ bits →
    Begins (UInt8.ofNat (bits + 192)) bits [(0x80, 0xBF)] := by
  decide +kernel

theorem begins_three : ∀ bits < 16, Begins (UInt8.ofNat (bits + 224)) bits
    [(if bits = 0 then 0xA0 else 0x80, if bits = 13 then 0x9F else 0xBF), (0x80, 0xBF)] := by
  decide +kernel

theorem begins_four : ∀ bits < 5, Begins (UInt8.ofNat (bits + 240)) bits
    [(if bits = 0 then 0x90 else 0x80, if bits = 4 then 0x8F else 0xBF), (0x80, 0xBF),
      (0x80, 0xBF)] := by
  decide +kernel

theorem Begins.step_eq {byte : UInt8} {bits : Nat} {ranges : List (UInt8 × UInt8)}
    (begins : Begins byte bits ranges) (rest : List UInt8) :
    step byte rest = continueWith bits 1 ranges rest := by
  rw [step, begins.1, begins.2]

/-- A continuation byte carries six bits. -/
theorem continueWith_cons (value width number : Nat) {low high : UInt8}
    (ranges : List (UInt8 × UInt8)) (rest : List UInt8) (above : low.toNat ≤ number % 64 + 128)
    (below : number % 64 + 128 ≤ high.toNat) :
    continueWith value width ((low, high) :: ranges) (UInt8.ofNat (number % 64 + 128) :: rest) =
      continueWith (value * 64 + number % 64) (width + 1) ranges rest := by
  have byte : (UInt8.ofNat (number % 64 + 128)).toNat = number % 64 + 128 := by
    rw [UInt8.toNat_ofNat']
    omega
  have carried : (number % 64 + 128) % 64 = number % 64 := by omega
  rw [continueWith, if_pos, byte, carried]
  rw [UInt8.le_iff_toNat_le, UInt8.le_iff_toNat_le, byte]
  exact ⟨above, below⟩

/-- The bytes behind the second one of a character are not restricted further. -/
theorem continueWith_cons_any (value width number : Nat) (ranges : List (UInt8 × UInt8))
    (rest : List UInt8) :
    continueWith value width ((0x80, 0xBF) :: ranges) (UInt8.ofNat (number % 64 + 128) :: rest) =
      continueWith (value * 64 + number % 64) (width + 1) ranges rest :=
  continueWith_cons value width number ranges rest (Nat.le_add_left 128 _)
    (Nat.add_le_add_right (Nat.le_of_lt_succ (Nat.mod_lt number (by decide))) 128)

/-- The first byte of a character and those behind it are read as the character. -/
theorem step_utf8EncodeChar (character : Char) :
    ∃ byte behind, String.utf8EncodeChar character = byte :: behind ∧
      ∀ rest, step byte (behind ++ rest) = .character character (behind.length + 1) := by
  have valid : character.val.toNat < 0xD800 ∨
      0xDFFF < character.val.toNat ∧ character.val.toNat < 0x110000 := character.valid
  have same : Char.ofNat character.val.toNat = character := Char.ofNat_toNat character
  rw [String.utf8EncodeChar]
  generalize character.val.toNat = value at valid same
  -- Overlong encodings, surrogates and numbers that are too large are what the second byte excludes.
  split_ifs with one two three
  · refine ⟨_, [], rfl, fun rest => ?_⟩
    rw [(begins_one value (by omega)).step_eq, continueWith, same]
    rfl
  · refine ⟨_, [_], rfl, fun rest => ?_⟩
    have whole : value / 64 % 32 * 64 + value % 64 = value := by omega
    rw [(begins_two (value / 64 % 32) (by omega) (by omega)).step_eq, List.singleton_append,
      continueWith_cons_any, continueWith, whole, same]
    rfl
  · refine ⟨_, [_, _], rfl, fun rest => ?_⟩
    have whole : (value / 4096 % 16 * 64 + value / 64 % 64) * 64 + value % 64 = value := by omega
    rw [(begins_three (value / 4096 % 16) (by omega)).step_eq, List.cons_append,
      List.singleton_append, continueWith_cons, continueWith_cons_any, continueWith, whole, same]
    · rfl
    · split
      · simp only [UInt8.reduceToNat]
        omega
      · exact Nat.le_add_left 128 _
    · split <;> simp <;> omega
  · refine ⟨_, [_, _, _], rfl, fun rest => ?_⟩
    have whole : ((value / 262144 % 8 * 64 + value / 4096 % 64) * 64 + value / 64 % 64) * 64 +
        value % 64 = value := by
      omega
    rw [(begins_four (value / 262144 % 8) (by omega)).step_eq, List.cons_append, List.cons_append,
      List.singleton_append, continueWith_cons, continueWith_cons_any, continueWith_cons_any,
      continueWith, whole, same]
    · rfl
    · split
      · simp only [UInt8.reduceToNat]
        omega
      · exact Nat.le_add_left 128 _
    · split <;> simp <;> omega

/-- The bytes of a character behind the first one are skipped. -/
theorem decodeFrom_skip (behind rest : List UInt8) (position : Nat) (before : List Char) :
    decodeFrom position behind.length before (behind ++ rest) =
      decodeFrom (position + behind.length) 0 before rest := by
  induction behind generalizing position with
  | nil => rfl
  | cons byte behind ih =>
    rw [List.length_cons, List.cons_append, decodeFrom, ih, Nat.add_assoc, Nat.add_comm 1]

theorem decodeFrom_flatMap (characters : List Char) (position : Nat) (before : List Char) :
    decodeFrom position 0 before (characters.flatMap String.utf8EncodeChar) =
      .ok (before.reverse ++ characters) := by
  induction characters generalizing position before with
  | nil => rw [List.flatMap_nil, decodeFrom, List.append_nil]
  | cons character rest ih =>
    obtain ⟨byte, behind, encoded, stepped⟩ := step_utf8EncodeChar character
    rw [List.flatMap_cons, encoded, List.cons_append, decodeFrom, stepped]
    simp only [Nat.add_sub_cancel]
    rw [decodeFrom_skip, ih, List.reverse_cons, List.append_assoc, List.singleton_append]

/-- What is encoded is decoded again. -/
theorem decode_encode (string : String) : decode (encode string) = .ok string.toList := by
  rw [encode_eq, decode, decodeFrom_flatMap]
  rfl

end ModuleFence.Utf8
