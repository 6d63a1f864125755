import SessionServer.Store.Utf8

/-!
Contract: text that has been written as bytes reads back, and nothing else reads as that text.

Owns:
- what a lead byte and a continuation byte of given bits announce and contribute;
- `readChar_encodeChar`, one character with anything behind it, by the number of its bytes, and
  `eq_encodeChar_of_readChar`, the same the other way round;
- `decode_encode` and `encode_of_decode`, a whole text.
-/

namespace SessionServer.Utf8

/-! ## Bytes -/

private theorem toNat_ofNat {value : Nat} (small : value < 256) :
    (UInt8.ofNat value).toNat = value :=
  UInt8.toNat_ofNat_of_lt' small

/-- A byte in front of its bits, as `encodeChar` writes the bytes inside a character. -/
private theorem isContinuation_ofNat (bits : Nat) :
    isContinuation (UInt8.ofNat (bits % 64 + 128)) = true := by
  have small : bits % 64 + 128 < 256 := by omega
  rw [isContinuation, Bool.and_eq_true, decide_eq_true_iff, decide_eq_true_iff,
    UInt8.le_iff_toNat_le, UInt8.le_iff_toNat_le, toNat_ofNat small]
  exact ⟨Nat.le_add_left _ _, show _ ≤ 191 by omega⟩

private theorem continuationBits_ofNat (bits : Nat) :
    continuationBits (UInt8.ofNat (bits % 64 + 128)) = bits % 64 := by
  have small : bits % 64 + 128 < 256 := by omega
  unfold continuationBits
  rw [toNat_ofNat small, Nat.add_sub_cancel]

private theorem readMore_ofNat (more seen value bits : Nat) (rest : List UInt8) :
    readMore (more + 1) seen value (UInt8.ofNat (bits % 64 + 128) :: rest) =
      readMore more (seen + 1) (value * 64 + bits % 64) rest := by
  rw [readMore, if_pos (isContinuation_ofNat bits), continuationBits_ofNat]

private theorem shape?_ofNat {lead : Nat} (small : lead < 256) :
    shape? (UInt8.ofNat lead) =
      if 0xC2 ≤ lead ∧ lead ≤ 0xDF then some ⟨0x80, 0xBF, 0⟩
      else if lead = 0xE0 then some ⟨0xA0, 0xBF, 1⟩
      else if lead = 0xED then some ⟨0x80, 0x9F, 1⟩
      else if 0xE1 ≤ lead ∧ lead ≤ 0xEF then some ⟨0x80, 0xBF, 1⟩
      else if lead = 0xF0 then some ⟨0x90, 0xBF, 2⟩
      else if 0xF1 ≤ lead ∧ lead ≤ 0xF3 then some ⟨0x80, 0xBF, 2⟩
      else if lead = 0xF4 then some ⟨0x80, 0x8F, 2⟩
      else none := by
  simp only [shape?, UInt8.le_iff_toNat_le, ← UInt8.toNat_inj, toNat_ofNat small]
  rfl

private theorem leadBits_ofNat {lead : Nat} (small : lead < 256) :
    leadBits (UInt8.ofNat lead) =
      if lead < 0xE0 then lead - 0xC0
      else if lead < 0xF0 then lead - 0xE0
      else lead - 0xF0 := by
  simp only [leadBits, UInt8.lt_iff_toNat_lt, toNat_ofNat small]
  rfl

/-- A character of several bytes up to its second one. -/
private theorem readChar_of_shape {lead : Nat} {shape : Shape} {bits : Nat} (large : 128 ≤ lead)
    (small : lead < 256) (found : shape? (UInt8.ofNat lead) = some shape)
    (least : shape.least.toNat ≤ bits % 64 + 128)
    (greatest : bits % 64 + 128 ≤ shape.greatest.toNat) (rest : List UInt8) :
    readChar (UInt8.ofNat lead :: UInt8.ofNat (bits % 64 + 128) :: rest) =
      (readMore shape.more 2 (leadBits (UInt8.ofNat lead) * 64 + bits % 64) rest).map
        fun result => (Char.ofNat result.1, result.2) := by
  have notAscii : ¬UInt8.ofNat lead < 0x80 := by
    rw [UInt8.lt_iff_toNat_lt, toNat_ofNat small]
    exact Nat.not_lt.mpr large
  have within : shape.least ≤ UInt8.ofNat (bits % 64 + 128) ∧
      UInt8.ofNat (bits % 64 + 128) ≤ shape.greatest := by
    rw [UInt8.le_iff_toNat_le, UInt8.le_iff_toNat_le, toNat_ofNat (by omega)]
    exact ⟨least, greatest⟩
  rw [readChar.eq_def]
  dsimp only
  rw [if_neg notAscii, found]
  dsimp only
  rw [if_pos within, continuationBits_ofNat]
  cases readMore shape.more 2 (leadBits (UInt8.ofNat lead) * 64 + bits % 64) rest <;> rfl

/-! ## Characters -/

private theorem readChar_two {value : Nat} (least : 0x80 ≤ value) (greatest : value ≤ 0x7FF)
    (rest : List UInt8) :
    readChar (UInt8.ofNat (value / 64 % 32 + 192) :: UInt8.ofNat (value % 64 + 128) :: rest) =
      .ok (Char.ofNat value, rest) := by
  have found : shape? (UInt8.ofNat (value / 64 % 32 + 192)) = some ⟨0x80, 0xBF, 0⟩ := by
    rw [shape?_ofNat (by omega), if_pos (by omega)]
  have whole : leadBits (UInt8.ofNat (value / 64 % 32 + 192)) * 64 + value % 64 = value := by
    rw [leadBits_ofNat (by omega), if_pos (by omega)]
    omega
  rw [readChar_of_shape (by omega) (by omega) found (Nat.le_add_left _ _)
    (show _ ≤ 191 by omega), whole]
  rfl

private theorem readChar_three {value : Nat} (least : 0x800 ≤ value) (greatest : value ≤ 0xFFFF)
    (noSurrogate : value < 0xD800 ∨ 0xDFFF < value) (rest : List UInt8) :
    readChar (UInt8.ofNat (value / 4096 % 16 + 224) :: UInt8.ofNat (value / 64 % 64 + 128) ::
      UInt8.ofNat (value % 64 + 128) :: rest) = .ok (Char.ofNat value, rest) := by
  -- The lead bytes 0xE0 and 0xED narrow the second byte, by overlong forms and by surrogates.
  obtain ⟨shape, found, more, lower, upper⟩ : ∃ shape,
      shape? (UInt8.ofNat (value / 4096 % 16 + 224)) = some shape ∧ shape.more = 1 ∧
        shape.least.toNat ≤ value / 64 % 64 + 128 ∧
        value / 64 % 64 + 128 ≤ shape.greatest.toNat := by
    rw [shape?_ofNat (by omega), if_neg (by omega)]
    by_cases first : value / 4096 % 16 = 0
    · rw [if_pos (by omega)]
      exact ⟨_, rfl, rfl, show 160 ≤ _ by omega, show _ ≤ 191 by omega⟩
    rw [if_neg (by omega)]
    by_cases surrogates : value / 4096 % 16 = 13
    · rw [if_pos (by omega)]
      exact ⟨_, rfl, rfl, show 128 ≤ _ by omega, show _ ≤ 159 by omega⟩
    rw [if_neg (by omega), if_pos (by omega)]
    exact ⟨_, rfl, rfl, show 128 ≤ _ by omega, show _ ≤ 191 by omega⟩
  have whole : (leadBits (UInt8.ofNat (value / 4096 % 16 + 224)) * 64 + value / 64 % 64) * 64 +
      value % 64 = value := by
    rw [leadBits_ofNat (by omega), if_neg (by omega), if_pos (by omega)]
    omega
  rw [readChar_of_shape (by omega) (by omega) found lower upper, more, readMore_ofNat, whole]
  rfl

private theorem readChar_four {value : Nat} (least : 0x10000 ≤ value) (greatest : value < 0x110000)
    (rest : List UInt8) :
    readChar (UInt8.ofNat (value / 262144 % 8 + 240) :: UInt8.ofNat (value / 4096 % 64 + 128) ::
      UInt8.ofNat (value / 64 % 64 + 128) :: UInt8.ofNat (value % 64 + 128) :: rest) =
        .ok (Char.ofNat value, rest) := by
  -- The lead bytes 0xF0 and 0xF4 narrow the second byte, by overlong forms and by the last plane.
  obtain ⟨shape, found, more, lower, upper⟩ : ∃ shape,
      shape? (UInt8.ofNat (value / 262144 % 8 + 240)) = some shape ∧ shape.more = 2 ∧
        shape.least.toNat ≤ value / 4096 % 64 + 128 ∧
        value / 4096 % 64 + 128 ≤ shape.greatest.toNat := by
    rw [shape?_ofNat (by omega), if_neg (by omega), if_neg (by omega), if_neg (by omega),
      if_neg (by omega)]
    by_cases first : value / 262144 % 8 = 0
    · rw [if_pos (by omega)]
      exact ⟨_, rfl, rfl, show 144 ≤ _ by omega, show _ ≤ 191 by omega⟩
    rw [if_neg (by omega)]
    by_cases last : value / 262144 % 8 = 4
    · rw [if_neg (by omega), if_pos (by omega)]
      exact ⟨_, rfl, rfl, show 128 ≤ _ by omega, show _ ≤ 143 by omega⟩
    rw [if_pos (by omega)]
    exact ⟨_, rfl, rfl, show 128 ≤ _ by omega, show _ ≤ 191 by omega⟩
  have whole : ((leadBits (UInt8.ofNat (value / 262144 % 8 + 240)) * 64 + value / 4096 % 64) * 64 +
      value / 64 % 64) * 64 + value % 64 = value := by
    rw [leadBits_ofNat (by omega), if_neg (by omega), if_neg (by omega)]
    omega
  rw [readChar_of_shape (by omega) (by omega) found lower upper, more, readMore_ofNat,
    readMore_ofNat, whole]
  rfl

/-- The bytes of a character by its number. -/
private theorem encodeChar_eq (c : Char) :
    encodeChar c =
      if c.toNat ≤ 0x7F then [UInt8.ofNat c.toNat]
      else if c.toNat ≤ 0x7FF then
        [UInt8.ofNat (c.toNat / 64 % 32 + 192), UInt8.ofNat (c.toNat % 64 + 128)]
      else if c.toNat ≤ 0xFFFF then
        [UInt8.ofNat (c.toNat / 4096 % 16 + 224), UInt8.ofNat (c.toNat / 64 % 64 + 128),
          UInt8.ofNat (c.toNat % 64 + 128)]
      else
        [UInt8.ofNat (c.toNat / 262144 % 8 + 240), UInt8.ofNat (c.toNat / 4096 % 64 + 128),
          UInt8.ofNat (c.toNat / 64 % 64 + 128), UInt8.ofNat (c.toNat % 64 + 128)] := rfl

theorem readChar_encodeChar (c : Char) (rest : List UInt8) :
    readChar (encodeChar c ++ rest) = .ok (c, rest) := by
  have valid : c.toNat < 0xD800 ∨ 0xDFFF < c.toNat ∧ c.toNat < 0x110000 := c.valid
  have denotes : Char.ofNat c.toNat = c := Char.ofNat_toNat c
  rw [encodeChar_eq]
  split
  · next ascii =>
      have below : UInt8.ofNat c.toNat < 0x80 := by
        rw [UInt8.lt_iff_toNat_lt, toNat_ofNat (by omega)]
        exact Nat.lt_succ_of_le ascii
      rw [List.singleton_append, readChar.eq_def]
      dsimp only
      rw [if_pos below, toNat_ofNat (by omega), denotes]
  · split
    · have read := @readChar_two c.toNat (by omega) (by omega) rest
      rwa [denotes] at read
    · split
      · have read := @readChar_three c.toNat (by omega) (by omega) (by omega) rest
        rwa [denotes] at read
      · have read := @readChar_four c.toNat (by omega) (by omega) rest
        rwa [denotes] at read

/-! ## Texts -/

theorem readChars_encode {bound : Nat} (text : List Char) (enough : text.length ≤ bound)
    (index : Nat) : readChars bound index (encode text) = .ok text := by
  induction text generalizing bound index with
  | nil =>
      unfold readChars
      rfl
  | cons c later inductionHypothesis =>
      obtain ⟨smaller, rfl⟩ : ∃ smaller, bound = smaller + 1 :=
        Nat.exists_eq_succ_of_ne_zero (by rw [List.length_cons] at enough; omega)
      have bytes : encode (c :: later) = encodeChar c ++ encode later := List.flatMap_cons
      have occupied : encode (c :: later) ≠ [] := by
        rw [bytes]
        exact List.append_ne_nil_of_left_ne_nil String.utf8EncodeChar_ne_nil _
      obtain ⟨lead, behind, split⟩ := List.exists_cons_of_ne_nil occupied
      rw [split, readChars, ← split, bytes, readChar_encodeChar]
      · dsimp only
        rw [inductionHypothesis (Nat.le_of_succ_le_succ enough)]
        rfl
      · exact List.cons_ne_nil _ _

theorem length_le_length_encode (text : List Char) : text.length ≤ (encode text).length := by
  induction text with
  | nil => exact Nat.le_refl _
  | cons c later inductionHypothesis =>
      have occupied : 0 < (encodeChar c).length :=
        List.length_pos_iff.mpr String.utf8EncodeChar_ne_nil
      rw [encode, List.flatMap_cons, List.length_append, List.length_cons]
      change later.length ≤ (later.flatMap encodeChar).length at inductionHypothesis
      omega

theorem decode_encode (text : List Char) : decode (encode text) = .ok text :=
  readChars_encode text (length_le_length_encode text) 0

/-! ## Bytes that read -/

private theorem ofNat_toNat {byte : UInt8} {value : Nat} (same : value = byte.toNat) :
    UInt8.ofNat value = byte := by
  rw [same, UInt8.ofNat_toNat]

/-- The bytes of the character with a given number. -/
private theorem encodeChar_ofNat {value : Nat}
    (valid : value < 0xD800 ∨ 0xDFFF < value ∧ value < 0x110000) :
    encodeChar (Char.ofNat value) =
      if value ≤ 0x7F then [UInt8.ofNat value]
      else if value ≤ 0x7FF then
        [UInt8.ofNat (value / 64 % 32 + 192), UInt8.ofNat (value % 64 + 128)]
      else if value ≤ 0xFFFF then
        [UInt8.ofNat (value / 4096 % 16 + 224), UInt8.ofNat (value / 64 % 64 + 128),
          UInt8.ofNat (value % 64 + 128)]
      else
        [UInt8.ofNat (value / 262144 % 8 + 240), UInt8.ofNat (value / 4096 % 64 + 128),
          UInt8.ofNat (value / 64 % 64 + 128), UInt8.ofNat (value % 64 + 128)] := by
  have number : (Char.ofNat value).toNat = value := by
    rw [Char.ofNat, dif_pos valid]
    rfl
  rw [encodeChar_eq, number]

private theorem readMore_zero {seen value result : Nat} {bytes rest : List UInt8}
    (read : readMore 0 seen value bytes = .ok (result, rest)) : result = value ∧ bytes = rest := by
  cases read
  exact ⟨rfl, rfl⟩

/-- The bits of a byte inside a character that has been taken. -/
private theorem readMore_succ {more seen value result : Nat} {bytes rest : List UInt8}
    (read : readMore (more + 1) seen value bytes = .ok (result, rest)) :
    ∃ byte behind, bytes = byte :: behind ∧ 128 ≤ byte.toNat ∧ byte.toNat ≤ 191 ∧
      readMore more (seen + 1) (value * 64 + (byte.toNat - 128)) behind = .ok (result, rest) := by
  cases bytes with
  | nil => cases read
  | cons byte behind =>
      rw [readMore] at read
      split at read
      · next inside =>
          rw [isContinuation, Bool.and_eq_true, decide_eq_true_iff, decide_eq_true_iff,
            UInt8.le_iff_toNat_le, UInt8.le_iff_toNat_le] at inside
          exact ⟨byte, behind, rfl, inside.1, inside.2, read⟩
      · cases read

/-- The lead bytes and second bytes that go together, by the number of bytes behind them. -/
private theorem shape_cases {lead second : UInt8} {shape : Shape} (found : shape? lead = some shape)
    (least : shape.least ≤ second) (greatest : second ≤ shape.greatest) :
    (shape.more = 0 ∧ 194 ≤ lead.toNat ∧ lead.toNat ≤ 223 ∧
      128 ≤ second.toNat ∧ second.toNat ≤ 191) ∨
    (shape.more = 1 ∧ 224 ≤ lead.toNat ∧ lead.toNat ≤ 239 ∧
      128 ≤ second.toNat ∧ second.toNat ≤ 191 ∧
      (lead.toNat = 224 → 160 ≤ second.toNat) ∧ (lead.toNat = 237 → second.toNat ≤ 159)) ∨
    (shape.more = 2 ∧ 240 ≤ lead.toNat ∧ lead.toNat ≤ 244 ∧
      128 ≤ second.toNat ∧ second.toNat ≤ 191 ∧
      (lead.toNat = 240 → 144 ≤ second.toNat) ∧ (lead.toNat = 244 → second.toNat ≤ 143)) := by
  have numbered : shape? (UInt8.ofNat lead.toNat) = some shape := by rwa [UInt8.ofNat_toNat]
  rw [shape?_ofNat lead.toNat_lt] at numbered
  rw [UInt8.le_iff_toNat_le] at least greatest
  split at numbered
  · cases numbered
    exact .inl ⟨rfl, by omega, by omega, least, greatest⟩
  split at numbered
  · cases numbered
    have from160 : 160 ≤ second.toNat := least
    have upTo191 : second.toNat ≤ 191 := greatest
    exact .inr (.inl ⟨rfl, by omega⟩)
  split at numbered
  · cases numbered
    have from128 : 128 ≤ second.toNat := least
    have upTo159 : second.toNat ≤ 159 := greatest
    exact .inr (.inl ⟨rfl, by omega⟩)
  split at numbered
  · cases numbered
    have from128 : 128 ≤ second.toNat := least
    have upTo191 : second.toNat ≤ 191 := greatest
    exact .inr (.inl ⟨rfl, by omega⟩)
  split at numbered
  · cases numbered
    have from144 : 144 ≤ second.toNat := least
    have upTo191 : second.toNat ≤ 191 := greatest
    exact .inr (.inr ⟨rfl, by omega⟩)
  split at numbered
  · cases numbered
    have from128 : 128 ≤ second.toNat := least
    have upTo191 : second.toNat ≤ 191 := greatest
    exact .inr (.inr ⟨rfl, by omega⟩)
  split at numbered
  · cases numbered
    have from128 : 128 ≤ second.toNat := least
    have upTo143 : second.toNat ≤ 143 := greatest
    exact .inr (.inr ⟨rfl, by omega⟩)
  · cases numbered

/-- How a character can have been read: from one byte, or from a lead byte and what it announces. -/
private theorem readChar_cases {bytes rest : List UInt8} {c : Char}
    (read : readChar bytes = .ok (c, rest)) :
    (∃ lead : UInt8, lead.toNat < 128 ∧ bytes = lead :: rest ∧ c = Char.ofNat lead.toNat) ∨
      ∃ (lead second : UInt8) (behind : List UInt8) (shape : Shape) (value : Nat),
        bytes = lead :: second :: behind ∧ shape? lead = some shape ∧ shape.least ≤ second ∧
        second ≤ shape.greatest ∧
        readMore shape.more 2 (leadBits lead * 64 + continuationBits second) behind =
          .ok (value, rest) ∧ c = Char.ofNat value := by
  unfold readChar at read
  split at read
  · cases read
  · next lead behind =>
      split at read
      · next ascii =>
          cases read
          exact .inl ⟨lead, UInt8.lt_iff_toNat_lt.mp ascii, rfl, rfl⟩
      · split at read
        · cases read
        · cases read
        · next shape second behind found =>
            split at read
            · next within =>
                dsimp only at read
                rcases more : readMore shape.more 2 (leadBits lead * 64 + continuationBits second)
                  behind with stop | ⟨value, left⟩
                · rw [more] at read
                  cases read
                · rw [more] at read
                  cases read
                  exact .inr ⟨lead, second, behind, shape, value, rfl, found, within.1, within.2,
                    more, rfl⟩
            · cases read

/-- Only the bytes of a character read as it. -/
theorem eq_encodeChar_of_readChar {bytes rest : List UInt8} {c : Char}
    (read : readChar bytes = .ok (c, rest)) : bytes = encodeChar c ++ rest := by
  rcases readChar_cases read with ⟨lead, ascii, rfl, rfl⟩ |
    ⟨lead, second, behind, shape, value, rfl, found, least, greatest, more, rfl⟩
  · rw [encodeChar_ofNat (.inl (by omega)), if_pos (by omega), UInt8.ofNat_toNat]
    rfl
  have leading : leadBits lead = if lead.toNat < 0xE0 then lead.toNat - 0xC0
      else if lead.toNat < 0xF0 then lead.toNat - 0xE0 else lead.toNat - 0xF0 := by
    have bits := leadBits_ofNat lead.toNat_lt
    rwa [UInt8.ofNat_toNat] at bits
  have following : continuationBits second = second.toNat - 128 := rfl
  rw [leading, following] at more
  rcases shape_cases found least greatest with
    ⟨none, bounds⟩ | ⟨one, bounds⟩ | ⟨two, bounds⟩
  · rw [none, if_pos (by omega)] at more
    obtain ⟨whole, rfl⟩ := readMore_zero more
    have first : UInt8.ofNat (value / 64 % 32 + 192) = lead := ofNat_toNat (by omega)
    have last : UInt8.ofNat (value % 64 + 128) = second := ofNat_toNat (by omega)
    rw [encodeChar_ofNat (by omega), if_neg (by omega), if_pos (by omega), first, last]
    rfl
  · rw [one, if_neg (by omega), if_pos (by omega)] at more
    obtain ⟨third, behind, rfl, least, greatest, more⟩ := readMore_succ more
    obtain ⟨whole, rfl⟩ := readMore_zero more
    have first : UInt8.ofNat (value / 4096 % 16 + 224) = lead := ofNat_toNat (by omega)
    have middle : UInt8.ofNat (value / 64 % 64 + 128) = second := ofNat_toNat (by omega)
    have last : UInt8.ofNat (value % 64 + 128) = third := ofNat_toNat (by omega)
    rw [encodeChar_ofNat (by omega), if_neg (by omega), if_neg (by omega), if_pos (by omega),
      first, middle, last]
    rfl
  · rw [two, if_neg (by omega), if_neg (by omega)] at more
    obtain ⟨third, behind, rfl, least, greatest, more⟩ := readMore_succ more
    obtain ⟨fourth, behind, rfl, least, greatest, more⟩ := readMore_succ more
    obtain ⟨whole, rfl⟩ := readMore_zero more
    have first : UInt8.ofNat (value / 262144 % 8 + 240) = lead := ofNat_toNat (by omega)
    have high : UInt8.ofNat (value / 4096 % 64 + 128) = second := ofNat_toNat (by omega)
    have low : UInt8.ofNat (value / 64 % 64 + 128) = third := ofNat_toNat (by omega)
    have last : UInt8.ofNat (value % 64 + 128) = fourth := ofNat_toNat (by omega)
    rw [encodeChar_ofNat (by omega), if_neg (by omega), if_neg (by omega), if_neg (by omega),
      first, high, low, last]
    rfl

private theorem tail_of_cons {tail : Except Fault (List Char)} {c : Char} {text : List Char}
    (read : (do let later ← tail; .ok (c :: later)) = Except.ok text) :
    ∃ later, tail = .ok later ∧ text = c :: later := by
  cases tail with
  | error fault => cases read
  | ok later =>
      cases read
      exact ⟨later, rfl, rfl⟩

theorem encode_of_readChars {bound index : Nat} {bytes : List UInt8} {text : List Char}
    (read : readChars bound index bytes = .ok text) : encode text = bytes := by
  induction bound generalizing index bytes text with
  | zero =>
      cases bytes with
      | nil =>
          cases read
          rfl
      | cons lead behind => cases read
  | succ bound inductionHypothesis =>
      cases bytes with
      | nil =>
          cases read
          rfl
      | cons lead behind =>
          rw [readChars] at read
          · split at read
            · cases read
            · cases read
            · next c rest taken =>
                obtain ⟨later, others, rfl⟩ := tail_of_cons read
                rw [eq_encodeChar_of_readChar taken, encode, List.flatMap_cons]
                exact congrArg (encodeChar c ++ ·) (inductionHypothesis others)
          · exact List.cons_ne_nil _ _

/-- Only the bytes of a text read as it. -/
theorem encode_of_decode {bytes : List UInt8} {text : List Char} (read : decode bytes = .ok text) :
    encode text = bytes :=
  encode_of_readChars read

end SessionServer.Utf8
