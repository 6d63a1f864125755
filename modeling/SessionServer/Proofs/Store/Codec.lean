import Mathlib.Algebra.Group.Nat.Defs
import SessionServer.Player
import SessionServer.Proofs.Store.Utf8
import SessionServer.Store.Note

/-!
Contract: entities that have been written as bytes read back.

Owns:
- the laws of the single fields: what has been written is read back, and the bytes behind it stay;
- `LawfulCodec`, the same law for whole entities, with instances for notes and players.

The length of a string is written as a word of eight bytes, so a string longer than such a word can
tell would not read back. `Codec.FitsText` names this bound; it is far beyond any memory.
-/

namespace SessionServer

namespace Codec

/-! ## Words -/

theorem readWord_wordBytes (width value : Nat) (rest : List UInt8) :
    readWord width (wordBytes width value ++ rest) = .ok (value % 256 ^ width, rest) := by
  induction width generalizing value with
  | zero => rw [wordBytes, List.nil_append, readWord, Nat.pow_zero, Nat.mod_one]
  | succ width inductionHypothesis =>
      have low : (UInt8.ofNat (value % 256)).toNat = value % 256 :=
        UInt8.toNat_ofNat_of_lt' (Nat.mod_lt _ (by decide))
      rw [wordBytes, List.cons_append, readWord, inductionHypothesis, Nat.pow_succ,
        Nat.mul_comm (256 ^ width), Nat.mod_mul, low]
      rfl

theorem readUInt64_encodeUInt64 (value : UInt64) (rest : List UInt8) :
    readUInt64 (encodeUInt64 value ++ rest) = .ok (value, rest) := by
  have whole : value.toNat % 256 ^ 8 = value.toNat := Nat.mod_eq_of_lt value.toNat_lt
  rw [readUInt64, encodeUInt64, readWord_wordBytes, whole]
  show Except.ok (UInt64.ofNat value.toNat, rest) = _
  rw [UInt64.ofNat_toNat]

theorem readInt64_encodeInt64 (value : Int64) (rest : List UInt8) :
    readInt64 (encodeInt64 value ++ rest) = .ok (value, rest) := by
  have whole : value.toUInt64.toNat % 256 ^ 8 = value.toUInt64.toNat :=
    Nat.mod_eq_of_lt value.toUInt64.toNat_lt
  rw [readInt64, encodeInt64, readWord_wordBytes, whole]
  show Except.ok ((UInt64.ofNat value.toUInt64.toNat).toInt64, rest) = _
  rw [UInt64.ofNat_toNat, Int64.toInt64_toUInt64]

theorem readInt32_encodeInt32 (value : Int32) (rest : List UInt8) :
    readInt32 (encodeInt32 value ++ rest) = .ok (value, rest) := by
  have whole : value.toUInt32.toNat % 256 ^ 4 = value.toUInt32.toNat :=
    Nat.mod_eq_of_lt value.toUInt32.toNat_lt
  rw [readInt32, encodeInt32, readWord_wordBytes, whole]
  show Except.ok ((UInt32.ofNat value.toUInt32.toNat).toInt32, rest) = _
  rw [UInt32.ofNat_toNat, Int32.toInt32_toUInt32]

/-! ## Optional keys and strings -/

theorem readKey_encodeKey (key : Option Int64) (rest : List UInt8) :
    readKey (encodeKey key ++ rest) = .ok (key, rest) := by
  cases key with
  | none => rfl
  | some key =>
      have marked : encodeKey (some key) ++ rest = 1 :: (encodeInt64 key ++ rest) := rfl
      rw [marked, readKey, if_neg (by decide), if_pos rfl, readInt64_encodeInt64]
      rfl

/-- Strings whose length in bytes fits the word in front of them. -/
def FitsText (text : String) : Prop := (Utf8.encode text.toList).length < 2 ^ 64

instance (text : String) : Decidable (FitsText text) := inferInstanceAs (Decidable (_ < _))

theorem readString_encodeString {text : String} (fits : FitsText text) (rest : List UInt8) :
    readString (encodeString text ++ rest) = .ok (text, rest) := by
  have whole : (Utf8.encode text.toList).length % 256 ^ 8 = (Utf8.encode text.toList).length :=
    Nat.mod_eq_of_lt fits
  have present : ¬(Utf8.encode text.toList ++ rest).length < (Utf8.encode text.toList).length := by
    rw [List.length_append]
    omega
  have bytes : encodeString text =
      wordBytes 8 (Utf8.encode text.toList).length ++ Utf8.encode text.toList := rfl
  rw [readString, bytes, List.append_assoc, readWord_wordBytes, whole]
  show (if (Utf8.encode text.toList ++ rest).length < (Utf8.encode text.toList).length then _
    else _) = _
  rw [if_neg present, List.take_left, List.drop_left, Utf8.decode_encode]
  show Except.ok (String.ofList text.toList, rest) = _
  rw [String.ofList_toList]

end Codec

/-! ## Entities -/

/-- Entities that read back from their bytes as long as their texts fit. -/
class LawfulCodec (ε : Type) [Entity ε] [Codec ε] where
  Fits : ε → Prop
  fits_withKey : ∀ {entity : ε}, Fits entity → ∀ key, Fits (Entity.withKey entity key)
  read_encode : ∀ {entity : ε}, Fits entity → ∀ rest,
    Codec.read (Codec.encode entity ++ rest) = .ok (entity, rest)

/-- The key that a store gives out does not matter to whether an entity fits. -/
theorem LawfulCodec.fits_keyed {ε : Type} [Entity ε] [Codec ε] [LawfulCodec ε] {entity : ε}
    (fits : LawfulCodec.Fits entity) (key : EntityKey) :
    LawfulCodec.Fits
      (if (Entity.key? entity).isSome then entity else Entity.withKey entity key) := by
  split
  · exact fits
  · exact LawfulCodec.fits_withKey fits key

theorem Codec.decode_encode {ε : Type} [Entity ε] [Codec ε] [LawfulCodec ε] {entity : ε}
    (fits : LawfulCodec.Fits entity) : decode (encode entity) = .ok entity := by
  have read := LawfulCodec.read_encode fits []
  rw [List.append_nil] at read
  rw [decode, read]
  rfl

instance : LawfulCodec Note where
  Fits note := Codec.FitsText note.text
  fits_withKey fits _ := fits
  read_encode {note} fits rest := by
    simp only [Codec.encode, List.append_assoc, Codec.read, Codec.readKey_encodeKey,
      Codec.readString_encodeString fits, bind, Except.bind]

instance : LawfulCodec Player where
  Fits player := Codec.FitsText player.nickname
  fits_withKey fits _ := fits
  read_encode {player} fits rest := by
    simp only [Codec.encode, List.append_assoc, Codec.read, Codec.readKey_encodeKey,
      Codec.readString_encodeString fits, Codec.readInt64_encodeInt64,
      Codec.readInt32_encodeInt32, Codec.readUInt64_encodeUInt64, bind, Except.bind]

end SessionServer
