import Mathlib.Control.Monad.Basic
import SessionServer.Proofs.Store.Codec
import SessionServer.Store.File

/-!
Contract: bytes that read as an entity are the bytes that were written for it, up to what stands
behind them.

Owns:
- the laws of the single fields: whatever is read is the written form of a value and the rest;
- `CanonicalCodec`, the same law for whole entities, with instances for notes and players;
- `FileStore.SelfDelimiting`, what this means for files: trailing bytes are ignored, no other bytes
  load as an entity, and a file that has been cut short loads as none.

Does not own: that what has been written reads back, which is `LawfulCodec`.
-/

namespace SessionServer

namespace Codec

/-- The two steps of a reader that went well. -/
theorem of_bind_eq_ok {α β : Type} {first : Except CodecError α}
    {next : α → Except CodecError β} {result : β} (done : (first >>= next) = .ok result) :
    ∃ value, first = .ok value ∧ next value = .ok result := by
  cases first with
  | error cause => cases done
  | ok value => exact ⟨value, rfl, done⟩

/-! ## Words -/

theorem eq_wordBytes_of_readWord {width value : Nat} {bytes rest : List UInt8}
    (read : readWord width bytes = .ok (value, rest)) :
    value < 256 ^ width ∧ bytes = wordBytes width value ++ rest := by
  induction width generalizing value bytes with
  | zero =>
      cases read
      exact ⟨Nat.one_pos, rfl⟩
  | succ width inductionHypothesis =>
      cases bytes with
      | nil => cases read
      | cons byte behind =>
          obtain ⟨⟨high, left⟩, higher, done⟩ := of_bind_eq_ok read
          cases done
          obtain ⟨small, rfl⟩ := inductionHypothesis higher
          have low := byte.toNat_lt
          have digit : (byte.toNat + 256 * high) % 256 = byte.toNat := by omega
          have others : (byte.toNat + 256 * high) / 256 = high := by omega
          constructor
          · rw [Nat.pow_succ]
            omega
          · rw [wordBytes, digit, others, UInt8.ofNat_toNat, List.cons_append]

theorem eq_encodeUInt64_of_readUInt64 {value : UInt64} {bytes rest : List UInt8}
    (read : readUInt64 bytes = .ok (value, rest)) : bytes = encodeUInt64 value ++ rest := by
  obtain ⟨⟨number, left⟩, word, done⟩ := of_bind_eq_ok read
  cases done
  obtain ⟨small, rfl⟩ := eq_wordBytes_of_readWord word
  rw [encodeUInt64, UInt64.toNat_ofNat_of_lt' small]

theorem eq_encodeInt64_of_readInt64 {value : Int64} {bytes rest : List UInt8}
    (read : readInt64 bytes = .ok (value, rest)) : bytes = encodeInt64 value ++ rest := by
  obtain ⟨⟨number, left⟩, word, done⟩ := of_bind_eq_ok read
  cases done
  obtain ⟨small, rfl⟩ := eq_wordBytes_of_readWord word
  rw [encodeInt64, UInt64.toUInt64_toInt64, UInt64.toNat_ofNat_of_lt' small]

theorem eq_encodeInt32_of_readInt32 {value : Int32} {bytes rest : List UInt8}
    (read : readInt32 bytes = .ok (value, rest)) : bytes = encodeInt32 value ++ rest := by
  obtain ⟨⟨number, left⟩, word, done⟩ := of_bind_eq_ok read
  cases done
  obtain ⟨small, rfl⟩ := eq_wordBytes_of_readWord word
  rw [encodeInt32, UInt32.toUInt32_toInt32, UInt32.toNat_ofNat_of_lt' small]

/-! ## Optional keys and strings -/

theorem eq_encodeKey_of_readKey {key : Option Int64} {bytes rest : List UInt8}
    (read : readKey bytes = .ok (key, rest)) : bytes = encodeKey key ++ rest := by
  cases bytes with
  | nil => cases read
  | cons mark behind =>
      rw [readKey] at read
      split at read
      · next absent =>
          cases read
          rw [absent]
          rfl
      · split at read
        · next present =>
            obtain ⟨⟨number, left⟩, word, done⟩ := of_bind_eq_ok read
            cases done
            rw [present, eq_encodeInt64_of_readInt64 word]
            rfl
        · cases read

/-- A string that has been read is as long as it was announced, so its length fits a word. -/
theorem eq_encodeString_of_readString {text : String} {bytes rest : List UInt8}
    (read : readString bytes = .ok (text, rest)) :
    FitsText text ∧ bytes = encodeString text ++ rest := by
  obtain ⟨⟨length, behind⟩, word, done⟩ := of_bind_eq_ok read
  obtain ⟨small, rfl⟩ := eq_wordBytes_of_readWord word
  dsimp only at done
  split at done
  · cases done
  · next enough =>
      split at done
      · cases done
      · next chars decoded =>
          cases done
          have written : Utf8.encode (String.ofList chars).toList = behind.take length := by
            rw [String.toList_ofList]
            exact Utf8.encode_of_decode decoded
          have announced : (Utf8.encode (String.ofList chars).toList).length = length := by
            rw [written, List.length_take]
            omega
          constructor
          · rw [FitsText, announced]
            exact small
          · rw [encodeString, announced, written, List.append_assoc, List.take_append_drop]

end Codec

/-! ## Entities -/

/-- Entities that are read from nothing but their own bytes. -/
class CanonicalCodec (ε : Type) [Entity ε] [Codec ε] [LawfulCodec ε] : Prop where
  eq_encode_of_read : ∀ {bytes rest : List UInt8} {entity : ε},
    Codec.read bytes = .ok (entity, rest) →
      LawfulCodec.Fits entity ∧ bytes = Codec.encode entity ++ rest

instance : CanonicalCodec Note where
  eq_encode_of_read {bytes rest note} read := by
    obtain ⟨⟨id, behind⟩, first, read⟩ := Codec.of_bind_eq_ok read
    obtain ⟨⟨text, left⟩, second, done⟩ := Codec.of_bind_eq_ok read
    cases done
    obtain ⟨fits, rfl⟩ := Codec.eq_encodeString_of_readString second
    refine ⟨fits, ?_⟩
    rw [Codec.eq_encodeKey_of_readKey first]
    simp only [Codec.encode, List.append_assoc]

instance : CanonicalCodec Player where
  eq_encode_of_read {bytes rest player} read := by
    obtain ⟨⟨uid, behind⟩, first, read⟩ := Codec.of_bind_eq_ok read
    obtain ⟨⟨nickname, behind⟩, second, read⟩ := Codec.of_bind_eq_ok read
    obtain ⟨⟨gold, behind⟩, third, read⟩ := Codec.of_bind_eq_ok read
    obtain ⟨⟨scene, behind⟩, fourth, read⟩ := Codec.of_bind_eq_ok read
    obtain ⟨⟨createTime, behind⟩, fifth, read⟩ := Codec.of_bind_eq_ok read
    obtain ⟨⟨updateTime, left⟩, sixth, done⟩ := Codec.of_bind_eq_ok read
    cases done
    obtain ⟨fits, text⟩ := Codec.eq_encodeString_of_readString second
    refine ⟨fits, ?_⟩
    rw [Codec.eq_encodeKey_of_readKey first, text, Codec.eq_encodeInt64_of_readInt64 third,
      Codec.eq_encodeInt32_of_readInt32 fourth, Codec.eq_encodeUInt64_of_readUInt64 fifth,
      Codec.eq_encodeUInt64_of_readUInt64 sixth]
    simp only [Codec.encode, List.append_assoc]

namespace Codec

section Entities

variable {ε : Type} [Entity ε] [Codec ε] [LawfulCodec ε]

theorem decode_append {entity : ε} (fits : LawfulCodec.Fits entity) (trailing : List UInt8) :
    decode (encode entity ++ trailing) = .ok entity := by
  rw [decode, LawfulCodec.read_encode fits]
  rfl

variable [CanonicalCodec ε]

theorem prefix_of_decode {bytes : List UInt8} {entity : ε} (decoded : decode bytes = .ok entity) :
    LawfulCodec.Fits entity ∧ encode entity <+: bytes := by
  unfold decode at decoded
  rcases read : (Codec.read bytes : Except CodecError (ε × List UInt8)) with
    cause | ⟨other, rest⟩
  · rw [read] at decoded
    cases decoded
  · rw [read] at decoded
    cases decoded
    obtain ⟨fits, whole⟩ := CanonicalCodec.eq_encode_of_read read
    exact ⟨fits, rest, whole.symm⟩

/-- Bytes that break off inside the written form of an entity are no entity, since any that they
held would be read from the whole form as well. -/
theorem decode_of_truncated {entity : ε} {bytes : List UInt8} (fits : LawfulCodec.Fits entity)
    (cut : bytes <+: encode entity) (short : bytes ≠ encode entity) :
    ∃ cause, (decode bytes : Except CodecError ε) = .error cause := by
  cases decoded : (decode bytes : Except CodecError ε) with
  | error cause => exact ⟨cause, rfl⟩
  | ok other =>
      obtain ⟨otherFits, otherCut⟩ := prefix_of_decode decoded
      obtain ⟨trailing, whole⟩ := otherCut.trans cut
      have same : other = entity := by
        have again := decode_append otherFits trailing
        rw [whole, decode_encode fits] at again
        exact (Except.ok.inj again).symm
      rw [same] at otherCut
      exact absurd (cut.eq_of_length_le otherCut.length_le) short

end Entities

end Codec

/-! ## Files -/

namespace FileStore

/-- Entities whose files tell where they end. The bytes of an entity load as it with anything
behind them, whatever loads as an entity begins with its bytes, and a file that breaks off inside
them is reported as ill-formed. -/
structure SelfDelimiting (ε : Type) [Codec ε] (Fits : ε → Prop) : Prop where
  load_append : ∀ {store : FileStore} {key : EntityKey} {entity : ε} {trailing : List UInt8},
    Fits entity → store.disk.readFile key.fileName = .ok (Codec.encode entity ++ trailing) →
      store.load key = .ok (some entity)
  prefix_of_load : ∀ {store : FileStore} {key : EntityKey} {content : List UInt8} {entity : ε},
    store.disk.readFile key.fileName = .ok content → store.load key = .ok (some entity) →
      Fits entity ∧ Codec.encode entity <+: content
  load_of_truncated : ∀ {store : FileStore} {key : EntityKey} {content : List UInt8} {entity : ε},
    Fits entity → content <+: Codec.encode entity → content ≠ Codec.encode entity →
      store.disk.readFile key.fileName = .ok content →
      ∃ cause, (store.load key : Except StoreError (Option ε)) = .error (.codec cause)

section Files

variable {ε : Type} [Codec ε] {store : FileStore} {key : EntityKey} {content : List UInt8}

/-- A file that is there is decoded. -/
theorem load_of_file (present : store.disk.readFile key.fileName = .ok content) :
    (store.load key : Except StoreError (Option ε)) =
      match (Codec.decode content : Except CodecError ε) with
      | .error cause => .error (.codec cause)
      | .ok entity => .ok (some entity) := by
  cases decoded : (Codec.decode content : Except CodecError ε) with
  | error cause => simp only [load, present, decoded]
  | ok entity => simp only [load, present, decoded]

theorem selfDelimiting [Entity ε] [LawfulCodec ε] [CanonicalCodec ε] :
    SelfDelimiting ε LawfulCodec.Fits where
  load_append fits present := by
    rw [load_of_file present, Codec.decode_append fits]
  prefix_of_load {store key content entity} present loaded := by
    rw [load_of_file present] at loaded
    cases decoded : (Codec.decode content : Except CodecError ε) with
    | error cause =>
        rw [decoded] at loaded
        cases loaded
    | ok other =>
        rw [decoded] at loaded
        cases loaded
        exact Codec.prefix_of_decode decoded
  load_of_truncated fits cut short present := by
    obtain ⟨cause, refused⟩ := Codec.decode_of_truncated fits cut short
    exact ⟨cause, by rw [load_of_file present, refused]⟩

end Files

/-- Files of notes and of players are self-delimiting. -/
theorem entity_files_selfDelimiting :
    SelfDelimiting Note (fun note => Codec.FitsText note.text) ∧
      SelfDelimiting Player (fun player => Codec.FitsText player.nickname) :=
  ⟨selfDelimiting, selfDelimiting⟩

/-- A file with two bytes behind a note, and the same file cut short inside the note. -/
theorem entity_files_selfDelimiting_note :
    let note : Note := ⟨some 5, "five"⟩
    let files : FileStore := ⟨.directory (.ofList
      [("5.bin", .file (Codec.encode note ++ [0, 255])),
        ("6.bin", .file ((Codec.encode note).take 20))]), 7⟩
    Codec.FitsText note.text ∧
      (files.load 5 : Except StoreError (Option Note)) = .ok (some note) ∧
      Codec.encode note <+: Codec.encode note ++ [0, 255] ∧
      ∃ cause, (files.load 6 : Except StoreError (Option Note)) = .error (.codec cause) := by
  intro note files
  have fits : Codec.FitsText note.text := by decide
  have padded : files.disk.readFile (EntityKey.fileName 5) =
      .ok (Codec.encode note ++ [0, 255]) := by decide +kernel
  have cut : files.disk.readFile (EntityKey.fileName 6) =
      .ok ((Codec.encode note).take 20) := by decide +kernel
  have notes := entity_files_selfDelimiting.1
  have loaded : files.load 5 = .ok (some note) := notes.load_append fits padded
  exact ⟨fits, loaded, (notes.prefix_of_load padded loaded).2,
    notes.load_of_truncated fits (List.take_prefix 20 _) (by decide +kernel) cut⟩

end FileStore

end SessionServer
