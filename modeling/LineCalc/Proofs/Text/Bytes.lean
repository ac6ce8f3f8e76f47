import LineCalc.Text
import Mathlib.Data.List.Basic
import Mathlib.Data.List.Induction

/-! The bytes of a text. They encode nothing but the text, and a byte of ASCII among them stands
    for its own character. -/
namespace LineCalc.Text

def bytes (t : Text) : List UInt8 := t.flatMap String.utf8EncodeChar

theorem bytes_append (s t : Text) : bytes (s ++ t) = s.bytes ++ t.bytes := List.flatMap_append

theorem ofBytes?_bytes (t : Text) : ofBytes? t.bytes = some t := by
  have encoded : (⟨t.bytes.toArray⟩ : ByteArray) = t.utf8Encode := by
    ext1
    exact (List.data_toByteArray).symm
  have valid : t.utf8Encode.IsValidUTF8 := ⟨t, rfl⟩
  rw [ofBytes?, encoded, String.fromUTF8?, dif_pos valid]
  exact congrArg some (String.toList_ofList (l := t))

section Ascii

variable {b : UInt8} {c : Char}

theorem utf8EncodeChar_of_ascii (ascii : b.toNat < 128) (same : c.toNat = b.toNat) :
    String.utf8EncodeChar c = [b] := by
  have small : c.val.toNat ≤ 127 := by
    rw [← same] at ascii
    exact Nat.le_of_lt_succ ascii
  have byte : UInt8.ofNat c.val.toNat = b := by
    rw [← UInt8.ofNat_toNat (x := b), ← same]
    rfl
  rw [String.utf8EncodeChar, if_pos small, byte]

theorem mem_utf8EncodeChar_iff (ascii : b.toNat < 128) :
    b ∈ String.utf8EncodeChar c ↔ c.toNat = b.toNat := by
  constructor
  · intro member
    have high {n : Nat} (beyond : 128 ≤ n % 256) : b ≠ UInt8.ofNat n := by
      rintro rfl
      rw [UInt8.toNat_ofNat'] at ascii
      omega
    rw [String.utf8EncodeChar] at member
    split_ifs at member with one two three
    all_goals simp only [List.mem_cons, List.not_mem_nil, or_false] at member
    · rw [member, UInt8.toNat_ofNat']
      exact (Nat.mod_eq_of_lt (Nat.lt_of_le_of_lt one (by decide))).symm
    · rcases member with byte | byte
      all_goals exact absurd byte (high (by omega))
    · rcases member with byte | byte | byte
      all_goals exact absurd byte (high (by omega))
    · rcases member with byte | byte | byte | byte
      all_goals exact absurd byte (high (by omega))
  · intro same
    rw [utf8EncodeChar_of_ascii ascii same]
    exact List.mem_singleton_self b

theorem mem_bytes_iff (ascii : b.toNat < 128) (same : c.toNat = b.toNat) (t : Text) :
    b ∈ t.bytes ↔ c ∈ t := by
  rw [bytes, List.mem_flatMap]
  constructor
  · rintro ⟨d, member, byte⟩
    have number := ((mem_utf8EncodeChar_iff ascii).mp byte).trans same.symm
    obtain rfl : d = c := Char.toNat_inj.mp number
    exact member
  · intro member
    exact ⟨c, member, (mem_utf8EncodeChar_iff ascii).mpr same⟩

theorem getLast?_bytes_iff (ascii : b.toNat < 128) (same : c.toNat = b.toNat) (t : Text) :
    t.bytes.getLast? = some b ↔ t.getLast? = some c := by
  induction t using List.reverseRecOn with
  | nil => simp [bytes]
  | append_singleton t d =>
    have last : bytes (t ++ [d]) = bytes t ++ String.utf8EncodeChar d := by simp [bytes]
    rw [last, List.getLast?_append_of_ne_nil _ String.utf8EncodeChar_ne_nil, List.getLast?_concat,
      Option.some.injEq]
    constructor
    · intro byte
      have code := (mem_utf8EncodeChar_iff ascii).mp (List.mem_of_getLast? byte)
      exact Char.toNat_inj.mp (code.trans same.symm)
    · rintro rfl
      rw [utf8EncodeChar_of_ascii ascii same]
      rfl

end Ascii

end LineCalc.Text
