import ChatHub.Text.Bytes
/-!
Texts as bytes and back.  Every text has one encoding; a character of seven bits is one byte, and
no byte of any other character could be taken for one.
-/

namespace ChatHub.Text

theorem bytesOf_eq (c : Char) : bytesOf c = String.utf8EncodeChar c := by
  simp [bytesOf, List.utf8Encode_singleton]

/-- The encoding of a text, character by character. -/
theorem toUTF8_ofList (cs : List Char) :
    (String.ofList cs).toUTF8.data.toList = cs.flatMap bytesOf := by
  have hchar : bytesOf = String.utf8EncodeChar := funext bytesOf_eq
  rw [hchar]
  simp [String.toByteArray_ofList, List.utf8Encode]

theorem ofBytes?_eq_some {bytes : List UInt8} {cs : List Char} :
    ofBytes? bytes = some cs ↔ bytes = cs.flatMap bytesOf := by
  rw [ofBytes?, String.fromUTF8?, ← toUTF8_ofList]
  constructor
  · intro h
    split at h
    next hvalid =>
      rw [← Option.some.inj h, String.ofList_toList]
      rfl
    next => cases h
  · rintro rfl
    have hvalid : ByteArray.IsValidUTF8 (String.ofList cs).toUTF8 := (String.ofList cs).isValidUTF8
    have hback : String.fromUTF8 (String.ofList cs).toUTF8 hvalid = String.ofList cs := rfl
    rw [Array.toArray_toList]
    change (if h : ByteArray.IsValidUTF8 (String.ofList cs).toUTF8 then
      some (String.fromUTF8 (String.ofList cs).toUTF8 h) else none).map String.toList = some cs
    rw [dif_pos hvalid, hback, Option.map_some, String.toList_ofList]

theorem bytesOf_of_lt {c : Char} (hc : c.toNat < 0x80) : bytesOf c = [c.toNat.toUInt8] := by
  rw [bytesOf_eq, String.utf8EncodeChar]
  exact if_pos (Nat.le_of_lt_succ hc)

theorem le_of_mem_bytesOf {c : Char} (hc : 0x80 ≤ c.toNat) {b : UInt8} (hb : b ∈ bytesOf c) :
    0x80 ≤ b.toNat := by
  have hlong : ¬c.val.toNat ≤ 0x7f := Nat.not_le_of_lt hc
  rw [bytesOf_eq, String.utf8EncodeChar] at hb
  simp only [if_neg hlong] at hb
  split at hb
  · simp only [List.mem_cons, List.not_mem_nil, or_false] at hb
    rcases hb with rfl | rfl <;> simp <;> omega
  · split at hb
    · simp only [List.mem_cons, List.not_mem_nil, or_false] at hb
      rcases hb with rfl | rfl | rfl <;> simp <;> omega
    · simp only [List.mem_cons, List.not_mem_nil, or_false] at hb
      rcases hb with rfl | rfl | rfl | rfl <;> simp <;> omega

end ChatHub.Text
