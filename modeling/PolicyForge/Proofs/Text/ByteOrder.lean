import PolicyForge.Text.Lines
/-!
# Texts in the order of their bytes

Texts are compared character by character.  In UTF-8 that is a comparison byte by byte
(`lt_iff_bytesLess`): the bytes of two different characters differ first where both still have
bytes, and there the smaller character has the smaller byte.
-/
namespace PolicyForge.Text

open String (utf8EncodeChar)

def bytes (s : String) : List UInt8 := s.toUTF8.data.toList

/-- The first text comes before the second in the order of their bytes. -/
def BytesLess (s t : String) : Prop := bytes s < bytes t

theorem bytes_eq (s : String) : bytes s = s.toList.flatMap utf8EncodeChar := by
  rw [bytes, String.toUTF8, ← String.utf8Encode_toList, List.utf8Encode, List.data_toByteArray]

theorem cons_lt_cons_byte {m n : Nat} (hm : m < 256) (hn : n < 256) (x y : List UInt8) :
    UInt8.ofNat m :: x < UInt8.ofNat n :: y ↔ m < n ∨ m = n ∧ x < y := by
  rw [List.cons_lt_cons_iff, UInt8.lt_iff_toNat_lt, ← UInt8.toNat_inj, UInt8.toNat_ofNat_of_lt' hm,
    UInt8.toNat_ofNat_of_lt' hn]

/-- The bytes of a smaller character are smaller, whatever comes after them. -/
theorem utf8EncodeChar_append_lt {c d : Char} (h : c < d) (x y : List UInt8) :
    utf8EncodeChar c ++ x < utf8EncodeChar d ++ y := by
  have hlt : c.val.toNat < d.val.toNat := h
  have hd : d.val.toNat < 0x110000 := by
    rcases d.valid with hv | ⟨-, hv⟩
    · omega
    · exact hv
  unfold utf8EncodeChar
  generalize c.val.toNat = v at hlt ⊢
  generalize d.val.toNat = w at hlt hd ⊢
  -- the first of four bytes holds what is left of a character above its last eighteen bits
  have hv : v / 262144 % 8 = v / 262144 := Nat.mod_eq_of_lt (by omega)
  have hw : w / 262144 % 8 = w / 262144 := Nat.mod_eq_of_lt (by omega)
  have hv' : v / 4096 / 64 = v / 262144 := Nat.div_div_eq_div_mul v 4096 64
  have hw' : w / 4096 / 64 = w / 262144 := Nat.div_div_eq_div_mul w 4096 64
  dsimp only
  -- one case for each pair of lengths; the second character has no fewer bytes than the first
  repeat' split
  all_goals try omega
  all_goals
    simp (disch := omega) only [List.cons_append, List.nil_append, cons_lt_cons_byte]
    omega

theorem append_lt_append_iff (l x y : List UInt8) : l ++ x < l ++ y ↔ x < y := by
  induction l with
  | nil => rfl
  | cons b l ih =>
    rw [List.cons_append, List.cons_append, List.cons_lt_cons_iff, ih]
    simp

theorem flatMap_lt_iff : ∀ (cs ds : List Char),
    cs.flatMap utf8EncodeChar < ds.flatMap utf8EncodeChar ↔ cs < ds
  | [], [] => by simp
  | [], d :: ds => by
    obtain ⟨b, bs, hb⟩ := List.exists_cons_of_ne_nil (String.utf8EncodeChar_ne_nil (c := d))
    simp [hb]
  | c :: cs, [] => by simp
  | c :: cs, d :: ds => by
    rw [List.flatMap_cons, List.flatMap_cons, List.cons_lt_cons_iff]
    rcases Nat.lt_trichotomy c.val.toNat d.val.toNat with hlt | heq | hgt
    · exact iff_of_true (utf8EncodeChar_append_lt hlt _ _) (.inl hlt)
    · obtain rfl : c = d := Char.ext (UInt32.toNat_inj.1 heq)
      rw [append_lt_append_iff, flatMap_lt_iff cs ds]
      simp
    · have hafter := utf8EncodeChar_append_lt hgt (ds.flatMap utf8EncodeChar) (cs.flatMap utf8EncodeChar)
      refine iff_of_false (List.lt_asymm hafter) ?_
      rintro (hlt | ⟨rfl, -⟩)
      · exact Nat.lt_asymm hgt hlt
      · exact Nat.lt_irrefl _ hgt

/-- **Texts are in the order of their bytes.** -/
theorem lt_iff_bytesLess (s t : String) : s < t ↔ BytesLess s t := by
  rw [BytesLess, bytes_eq, bytes_eq, flatMap_lt_iff]
  rfl

end PolicyForge.Text
