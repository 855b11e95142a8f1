import Mathlib.Data.List.Lex
import InferenceEngine.Proofs.OrderedMap

/-!
# The order of bytes

Texts are compared character by character, while a program that only knows their bytes compares
these.  Both orders are the same: the first byte of a character tells how many there are, and more
bytes stand for greater characters.
-/

namespace InferenceEngine

namespace Text

def bytes (text : String) : List UInt8 := text.toUTF8.data.toList

theorem bytes_eq_flatMap (text : String) :
    bytes text = text.toList.flatMap String.utf8EncodeChar := by
  have hencoded : text.toUTF8 = text.toList.utf8Encode := String.utf8Encode_toList.symm
  unfold bytes
  rw [hencoded]
  exact List.toList_data_toByteArray

theorem ofNat_lt {a b : Nat} (h : a < b) (hb : b < 256) : UInt8.ofNat a < UInt8.ofNat b := by
  rw [UInt8.lt_iff_toNat_lt, UInt8.toNat_ofNat', UInt8.toNat_ofNat', Nat.mod_eq_of_lt hb,
    Nat.mod_eq_of_lt (Nat.lt_trans h hb)]
  exact h

theorem length_bytes (text : String) : (bytes text).length = text.utf8ByteSize := rfl

/-- Of two lists of bytes the one with the smaller first byte comes first, and if the first bytes
are equal, the one whose rest does. -/
theorem ofNat_cons_lt {a b : Nat} {l m : List UInt8} (hb : b < 256)
    (h : a < b ∨ a = b ∧ l < m) : UInt8.ofNat a :: l < UInt8.ofNat b :: m := by
  rw [List.cons_lt_cons_iff]
  rcases h with hlt | ⟨rfl, hrest⟩
  · exact .inl (ofNat_lt hlt hb)
  · exact .inr ⟨rfl, hrest⟩

theorem lastByte_lt {v w : Nat} (h : v % 64 < w % 64) (rest more : List UInt8) :
    UInt8.ofNat (v % 64 + 128) :: rest < UInt8.ofNat (w % 64 + 128) :: more :=
  ofNat_cons_lt (by omega) (.inl (by omega))

theorem lastTwoBytes_lt {v w : Nat} (h : v % 4096 < w % 4096) (rest more : List UInt8) :
    UInt8.ofNat (v / 64 % 64 + 128) :: UInt8.ofNat (v % 64 + 128) :: rest <
      UInt8.ofNat (w / 64 % 64 + 128) :: UInt8.ofNat (w % 64 + 128) :: more := by
  have hsplit : v / 64 % 64 < w / 64 % 64 ∨ v / 64 % 64 = w / 64 % 64 ∧ v % 64 < w % 64 := by omega
  apply ofNat_cons_lt (by omega)
  exact hsplit.imp (by omega) fun hlast => ⟨by omega, lastByte_lt hlast.2 rest more⟩

theorem lastThreeBytes_lt {v w : Nat} (h : v % 262144 < w % 262144) (rest more : List UInt8) :
    UInt8.ofNat (v / 4096 % 64 + 128) :: UInt8.ofNat (v / 64 % 64 + 128) ::
        UInt8.ofNat (v % 64 + 128) :: rest <
      UInt8.ofNat (w / 4096 % 64 + 128) :: UInt8.ofNat (w / 64 % 64 + 128) ::
        UInt8.ofNat (w % 64 + 128) :: more := by
  have hsplit : v / 4096 % 64 < w / 4096 % 64 ∨
      v / 4096 % 64 = w / 4096 % 64 ∧ v % 4096 < w % 4096 := by omega
  apply ofNat_cons_lt (by omega)
  exact hsplit.imp (by omega) fun hlast => ⟨by omega, lastTwoBytes_lt hlast.2 rest more⟩

/-- The bytes of a character come before those of a greater one, whatever stands behind them. -/
theorem utf8EncodeChar_lt {c d : Char} (h : c < d) (rest more : List UInt8) :
    String.utf8EncodeChar c ++ rest < String.utf8EncodeChar d ++ more := by
  have hlt : c.val.toNat < d.val.toNat := UInt32.lt_iff_toNat_lt.1 (Char.lt_def.1 h)
  have hbound : d.val.toNat < 0x110000 := by
    have hvalid : d.toNat.isValidChar := d.valid
    unfold Nat.isValidChar at hvalid
    show d.toNat < _
    omega
  unfold String.utf8EncodeChar
  generalize c.val.toNat = v at *
  generalize d.val.toNat = w at *
  simp only
  -- the first bytes decide, unless both characters have as many bytes and these begin alike
  by_cases hone : w ≤ 127
  · rw [if_pos hone, if_pos (by omega)]
    exact ofNat_cons_lt (by omega) (.inl hlt)
  rw [if_neg hone]
  by_cases htwo : w ≤ 2047
  · rw [if_pos htwo]
    split
    · exact ofNat_cons_lt (by omega) (.inl (by omega))
    · rw [if_pos (by omega)]
      have hsplit : v / 64 < w / 64 ∨ v / 64 = w / 64 ∧ v % 64 < w % 64 := by omega
      apply ofNat_cons_lt (by omega)
      exact hsplit.imp (by omega) fun hlast => ⟨by omega, lastByte_lt hlast.2 rest more⟩
  rw [if_neg htwo]
  by_cases hthree : w ≤ 65535
  · rw [if_pos hthree]
    split
    · exact ofNat_cons_lt (by omega) (.inl (by omega))
    · split
      · exact ofNat_cons_lt (by omega) (.inl (by omega))
      · rw [if_pos (by omega)]
        have hsplit : v / 4096 < w / 4096 ∨ v / 4096 = w / 4096 ∧ v % 4096 < w % 4096 := by omega
        apply ofNat_cons_lt (by omega)
        exact hsplit.imp (by omega) fun hlast => ⟨by omega, lastTwoBytes_lt hlast.2 rest more⟩
  rw [if_neg hthree]
  split
  · exact ofNat_cons_lt (by omega) (.inl (by omega))
  · split
    · exact ofNat_cons_lt (by omega) (.inl (by omega))
    · split
      · exact ofNat_cons_lt (by omega) (.inl (by omega))
      · have hsplit : v / 262144 < w / 262144 ∨
            v / 262144 = w / 262144 ∧ v % 262144 < w % 262144 := by omega
        apply ofNat_cons_lt (by omega)
        exact hsplit.imp (by omega) fun hlast => ⟨by omega, lastThreeBytes_lt hlast.2 rest more⟩

theorem bytes_lt {text other : String} (h : text < other) : bytes text < bytes other := by
  rw [bytes_eq_flatMap, bytes_eq_flatMap]
  have hchars : List.Lex (· < ·) text.toList other.toList := String.lt_iff.1 h
  generalize text.toList = chars at hchars
  generalize other.toList = others at hchars
  induction hchars with
  | nil =>
      rename_i d rest
      rw [List.flatMap_nil, List.flatMap_cons]
      cases hbytes : String.utf8EncodeChar d with
      | nil => exact absurd hbytes String.utf8EncodeChar_ne_nil
      | cons b more => exact List.nil_lt_cons b _
  | cons _ ih =>
      rw [List.flatMap_cons, List.flatMap_cons]
      exact List.Lex.append_left _ ih _
  | rel hlt =>
      rw [List.flatMap_cons, List.flatMap_cons]
      exact utf8EncodeChar_lt hlt _ _

end Text

theorem OrderedMap.pairwise_bytes_keys {α : Type} (m : OrderedMap String α) :
    m.keys.Pairwise fun key other => Text.bytes key < Text.bytes other := by
  unfold keys
  rw [List.pairwise_map]
  exact m.ordered.imp fun h => Text.bytes_lt (compareOfLessAndEq_eq_lt.1 h)

end InferenceEngine
