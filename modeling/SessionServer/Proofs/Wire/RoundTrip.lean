import SessionServer.Proofs.Json.Numerals

/-!
Contract: an envelope comes back from its text exactly if its arguments are not nested too deeply.

Owns:
- `Envelope.argumentLevels`, the levels that an envelope leaves for its arguments;
- `Envelope.toChars_eq_print`, the text of an envelope as the print of one object;
- the round trip, from envelopes whose numbers are integers and from texts whose numbers are.
-/

namespace SessionServer

namespace Envelope

/-- How deeply arguments may be nested, the object of the arguments counted. -/
def argumentLevels : Nat := 126

/-- The members of an envelope in the order in which they are written. -/
def members (envelope : Envelope) : List (String × Json) :=
  [("value", .integer envelope.value.toInt), ("args", .object envelope.args)]

theorem toChars_eq_print (envelope : Envelope) :
    envelope.toChars = (Json.object envelope.members).print := by
  have spelled : envelope.toChars =
      '\x7b' :: (Json.quoted "value".toList ++ [':']) ++ Json.integerChars envelope.value.toInt ++
        ',' :: (Json.quoted "args".toList ++ [':']) ++ (Json.object envelope.args).print ++
          ['\x7d'] := rfl
  rw [spelled, members]
  simp only [Json.print, Json.printMembers_eq, Json.separated, Json.printMember,
    List.cons_append, List.append_assoc, List.nil_append]

theorem code?_toInt (code : Code) : (Json.integer code.toInt).code? = some code := by
  have least : -0x80000000 ≤ code.toInt := code.le_toInt
  have bound : code.toInt < 0x80000000 := code.toInt_lt
  have word : Json.leastInteger ≤ code.toInt ∧ code.toInt < Json.signedBound := by
    unfold Json.leastInteger Json.signedBound
    omega
  rw [Json.code?, Json.integer?, if_pos word, Option.bind_some, if_pos ⟨least, bound⟩,
    Int32.ofInt_toInt]

theorem whole_code (code : Code) : Json.Whole (.integer code.toInt) := by
  have least : -0x80000000 ≤ code.toInt := code.le_toInt
  have bound : code.toInt < 0x80000000 := code.toInt_lt
  apply Json.Whole.integer
  · unfold Json.leastInteger
    omega
  · unfold Json.unsignedBound
    omega

theorem ofMembers_members (envelope : Envelope) :
    ofMembers (Args.ofList envelope.members) = .ok envelope := by
  have inserted : Args.ofList envelope.members =
      (Args.empty.insert "value" (.integer envelope.value.toInt)).insert "args"
        (.object envelope.args) := rfl
  have value : (Args.ofList envelope.members).get? "value" =
      some (.integer envelope.value.toInt) := by
    rw [inserted, Args.get?_insert, if_neg (by decide), Args.get?_insert, if_pos rfl]
  have args : (Args.ofList envelope.members).get? "args" = some (.object envelope.args) := by
    rw [inserted, Args.get?_insert, if_pos rfl]
  rw [ofMembers, value, args, Option.bind_some, code?_toInt]
  rfl

/-! ## From an envelope -/

theorem readText_toChars {envelope : Envelope} (whole : (Json.object envelope.args).Whole)
    (sorted : (Json.object envelope.args).Sorted) :
    Json.readText Json.levelLimit envelope.toChars =
      if (Json.object envelope.args).depth ≤ argumentLevels then
        some (.object (Args.ofList envelope.members))
      else none := by
  have each : ∀ member ∈ envelope.members, Json.Recovers (Json.readValue argumentLevels)
      Json.print (fun value => decide (value.depth ≤ argumentLevels)) member.2 := by
    intro member listed
    rcases List.mem_cons.mp listed with rfl | listed
    · exact Json.recovers_print (whole_code envelope.value) (.integer _) argumentLevels
    · rw [List.mem_singleton.mp listed]
      exact Json.recovers_print whole sorted argumentLevels
  have depth : (Json.object envelope.members).depth ≤ argumentLevels + 1 ↔
      (Json.object envelope.args).depth ≤ argumentLevels := by
    rw [Json.depth, Nat.add_le_add_iff_right, Json.depthOfMembers_le_iff, members,
      List.forall_mem_cons, List.forall_mem_singleton]
    exact and_iff_right (Nat.zero_le _)
  have read := Json.readValue_object each []
  have start : Json.skipBlanks (Json.print (.object envelope.members)) =
      Json.print (.object envelope.members) := by
    rw [Json.print, List.cons_append]
    exact Json.skipBlanks_cons rfl _
  rw [List.append_nil] at read
  rw [toChars_eq_print, Json.readText, start,
    show Json.levelLimit = argumentLevels + 1 from rfl, read]
  by_cases shallow : (Json.object envelope.args).depth ≤ argumentLevels
  · rw [if_pos (depth.mpr shallow), if_pos shallow]
    rfl
  · rw [if_neg (fun deep => shallow (depth.mp deep)), if_neg shallow]

/-- The text of an envelope is parsed to the envelope, or it is no valid text because the arguments
are nested too deeply. -/
theorem parse_toText {envelope : Envelope} (whole : (Json.object envelope.args).Whole)
    (sorted : (Json.object envelope.args).Sorted) :
    parse envelope.toText =
      if (Json.object envelope.args).depth ≤ argumentLevels then .ok envelope
      else .error .invalid := by
  have occupied : envelope.toText.isEmpty = false := by
    rw [toText, toChars_eq_print, Json.print, List.cons_append]
    simp
  rw [parse, occupied, if_neg Bool.false_ne_true, Json.parse?, toText, String.toList_ofList,
    readText_toChars whole sorted]
  by_cases shallow : (Json.object envelope.args).depth ≤ argumentLevels
  · rw [if_pos shallow, if_pos shallow]
    exact ofMembers_members envelope
  · rw [if_neg shallow, if_neg shallow]

/-! ## From a text -/

theorem parse_whole {text : String} {envelope : Envelope} (parsed : parse text = .ok envelope)
    (integral : Json.IntegralText text.toList) : (Json.object envelope.args).Whole := by
  obtain ⟨members, read, made⟩ := parse_eq_ok parsed
  obtain ⟨rest, taken⟩ := Json.parse?_eq_some read
  obtain ⟨whole, -⟩ := Json.readValue_whole _ _ _ _ taken integral.skipBlanks
  cases whole with
  | object each => exact args_of_members Json.Whole made (.object (List.forall_mem_nil _)) each

theorem parse_depth {text : String} {envelope : Envelope} (parsed : parse text = .ok envelope) :
    (Json.object envelope.args).depth ≤ argumentLevels := by
  obtain ⟨members, read, made⟩ := parse_eq_ok parsed
  obtain ⟨rest, taken⟩ := Json.parse?_eq_some read
  have depth : (Json.object members).depth ≤ argumentLevels + 1 :=
    Json.readValue_depth _ _ _ _ taken
  have each := Json.depthOfMembers_le_iff.mp (Nat.le_of_succ_le_succ depth)
  exact args_of_members (fun value => value.depth ≤ argumentLevels) made (by decide) each

/-! ## The round trip -/

/-- An envelope whose numbers are integers of 64 bits is parsed from its text if its arguments are
nested at most `argumentLevels` deep, and its text is refused if they are nested deeper. An envelope
that was parsed from a text with such numbers is parsed from its own text again. -/
theorem round_trip :
    (∀ envelope : Envelope,
      (Json.object envelope.args).Whole → (Json.object envelope.args).Sorted →
        ((Json.object envelope.args).depth ≤ argumentLevels →
          parse envelope.toText = .ok envelope) ∧
        (argumentLevels < (Json.object envelope.args).depth →
          parse envelope.toText = .error .invalid)) ∧
    ∀ (text : String) (envelope : Envelope), Json.IntegralText text.toList →
      parse text = .ok envelope → parse envelope.toText = .ok envelope := by
  constructor
  · intro envelope whole sorted
    have parsed := parse_toText whole sorted
    constructor
    · intro shallow
      rw [parsed, if_pos shallow]
    · intro deep
      rw [parsed, if_neg (Nat.not_le_of_gt deep)]
  · intro text envelope integral parsed
    rw [parse_toText (parse_whole parsed integral) (parse_sorted parsed),
      if_pos (parse_depth parsed)]

/-- Arrays around one another, nothing else in them. -/
def nested : Nat → Json
  | 0 => .array []
  | levels + 1 => .array [nested levels]

private theorem nested_wellFormed (levels : Nat) :
    (nested levels).Whole ∧ (nested levels).Sorted ∧ (nested levels).depth = levels + 1 := by
  induction levels with
  | zero => exact ⟨.array (List.forall_mem_nil _), .array (List.forall_mem_nil _), rfl⟩
  | succ levels inductionHypothesis =>
      obtain ⟨whole, sorted, depth⟩ := inductionHypothesis
      refine ⟨.array (List.forall_mem_singleton.mpr whole),
        .array (List.forall_mem_singleton.mpr sorted), ?_⟩
      rw [nested, Json.depth, Json.depthOfItems, Json.depthOfItems, depth, Nat.max_zero]

/-- Arguments around nested arrays. -/
private theorem nestedArgs_wellFormed (levels : Nat) :
    (Json.object [("a", nested levels)]).Whole ∧ (Json.object [("a", nested levels)]).Sorted ∧
      (Json.object [("a", nested levels)]).depth = levels + 2 := by
  obtain ⟨whole, sorted, depth⟩ := nested_wellFormed levels
  refine ⟨.object (List.forall_mem_singleton.mpr whole),
    .object (List.pairwise_singleton _ _) (List.forall_mem_singleton.mpr sorted), ?_⟩
  rw [Json.depth, Json.depthOfMembers, Json.depthOfMembers, depth, Nat.max_zero]

theorem round_trip_nested :
    parse (toText ⟨7, [("a", nested 124)]⟩) = .ok ⟨7, [("a", nested 124)]⟩ ∧
      parse (toText ⟨7, [("a", nested 125)]⟩) = .error .invalid ∧
      parse (toText ⟨7, [("a", .string "\n"), ("b", .integer 0xffffffffffffffff)]⟩) =
        .ok ⟨7, [("a", .string "\n"), ("b", .integer 0xffffffffffffffff)]⟩ := by
  obtain ⟨fromEnvelope, fromText⟩ := round_trip
  refine ⟨?_, ?_, ?_⟩
  · obtain ⟨whole, sorted, depth⟩ := nestedArgs_wellFormed 124
    exact (fromEnvelope ⟨7, [("a", nested 124)]⟩ whole sorted).1 (Nat.le_of_eq depth)
  · obtain ⟨whole, sorted, depth⟩ := nestedArgs_wellFormed 125
    exact (fromEnvelope ⟨7, [("a", nested 125)]⟩ whole sorted).2 (Nat.le_of_eq depth.symm)
  · apply fromText ("\x7b \"args\": \x7b\"b\": 18446744073709551615, \"a\": \"\\u000a\"\x7d, " ++
      "\"value\": 7\x7d")
    · decide
    · rfl

end Envelope

end SessionServer
