import SessionServer.Envelope

/-!
Contract: every object that is read lists its members with their names ascending.

Owns:
- `Json.Sorted`, that order at every depth of a value;
- `Json.Yields`, what a reader guarantees of the values it takes, carried from the reader of an
  element to the readers of arrays, objects and whole texts;
- the consequence for the arguments of an envelope.
-/

namespace SessionServer

namespace Args

/-- Names strictly ascend. -/
abbrev Ascending (args : Args) : Prop := Entries.Ascending args

private theorem ascending_foldl (members : List (String × Json)) {args : Args}
    (ascending : args.Ascending) :
    Ascending (members.foldl (fun args member => args.insert member.1 member.2) args) := by
  induction members generalizing args with
  | nil => exact ascending
  | cons first rest inductionHypothesis =>
      exact inductionHypothesis (Entries.ascending_insert first.1 first.2 ascending)

theorem ascending_ofList (members : List (String × Json)) : (ofList members).Ascending :=
  ascending_foldl members List.Pairwise.nil

private theorem mem_foldl {members : List (String × Json)} {args : Args} {member : String × Json}
    (found : member ∈ members.foldl (fun args member => args.insert member.1 member.2) args) :
    member ∈ members ∨ member ∈ args := by
  induction members generalizing args with
  | nil => exact .inr found
  | cons first rest inductionHypothesis =>
      rcases inductionHypothesis found with later | earlier
      · exact .inl (List.mem_cons_of_mem _ later)
      · rcases Entries.mem_insert earlier with same | before
        · exact .inl (same ▸ List.mem_cons_self)
        · exact .inr before

theorem mem_of_mem_ofList {members : List (String × Json)} {member : String × Json}
    (found : member ∈ ofList members) : member ∈ members := by
  rcases mem_foldl found with listed | absurdity
  · exact listed
  · cases absurdity

end Args

namespace Json

/-- At every depth the members of an object stand with their names ascending. -/
inductive Sorted : Json → Prop where
  | null : Sorted .null
  | bool (value : Bool) : Sorted (.bool value)
  | integer (value : Int) : Sorted (.integer value)
  | double (value : Binary64) : Sorted (.double value)
  | string (value : String) : Sorted (.string value)
  | array {items : List Json} (each : ∀ item ∈ items, Sorted item) : Sorted (.array items)
  | object {members : Args} (ascending : members.Ascending)
      (each : ∀ member ∈ members, Sorted member.2) : Sorted (.object members)

/-! ## What readers yield -/

/-- Every value that the reader takes off a text has the property. -/
def Yields {α : Type} (property : α → Prop) (reader : Reader α) : Prop :=
  ∀ (text : List Char) (value : α) (rest : List Char),
    reader text = some (value, rest) → property value

section Combinators

variable {α : Type} {property : α → Prop} {element : Reader α} {close : Char}

theorem Yields.elements (yields : Yields property element) (bound : Nat) :
    Yields (fun items => ∀ item ∈ items, property item) (readElements close element bound) := by
  induction bound with
  | zero =>
      intro text items rest read
      cases read
  | succ bound inductionHypothesis =>
      intro text items rest read
      simp only [readElements, Option.bind_eq_bind, Option.bind_eq_some_iff] at read
      obtain ⟨⟨head, afterHead⟩, first, read⟩ := read
      have headHas := yields _ _ _ first
      dsimp only at read
      split at read
      · split at read
        · cases read
          intro item member
          rw [List.mem_singleton.mp member]
          exact headHas
        · split at read
          · simp only [Option.bind_eq_some_iff] at read
            obtain ⟨⟨tail, afterTail⟩, later, read⟩ := read
            cases read
            intro item member
            rcases List.mem_cons.mp member with rfl | member
            · exact headHas
            · exact inductionHypothesis _ _ _ later item member
          · cases read
      · cases read

theorem Yields.enclosed (yields : Yields property element) :
    Yields (fun items => ∀ item ∈ items, property item) (readEnclosed close element) := by
  intro text items rest read
  unfold readEnclosed at read
  split at read
  · split at read
    · cases read
      intro item member
      cases member
    · exact yields.elements text.length _ _ _ read
  · cases read

theorem Yields.member {property : Json → Prop} {value : Reader Json}
    (yields : Yields property value) :
    Yields (fun member => property member.2) (readMember value) := by
  intro text member rest read
  simp only [readMember, Option.bind_eq_bind, Option.bind_eq_some_iff] at read
  obtain ⟨⟨name, afterName⟩, -, read⟩ := read
  dsimp only at read
  split at read
  · simp only [Option.bind_eq_some_iff] at read
    obtain ⟨⟨content, afterContent⟩, taken, read⟩ := read
    cases read
    exact yields _ _ _ taken
  · cases read

end Combinators

/-! ## Values -/

theorem Numeral.sorted_value? {numeral : Numeral} {number : Json}
    (denotes : numeral.value? = some number) : Sorted number := by
  unfold Numeral.value? at denotes
  extract_lets digits size signed exact exponent at denotes
  split at denotes
  · cases denotes
    exact .integer signed
  · obtain ⟨value, -, rfl⟩ := Option.map_eq_some_iff.mp denotes
    exact .double value

theorem readScalar_sorted : Yields Sorted readScalar := by
  intro text value rest read
  unfold readScalar at read
  split at read
  · obtain ⟨_, -, same⟩ := Option.map_eq_some_iff.mp read
    cases same
    exact .null
  · obtain ⟨_, -, same⟩ := Option.map_eq_some_iff.mp read
    cases same
    exact .bool true
  · obtain ⟨_, -, same⟩ := Option.map_eq_some_iff.mp read
    cases same
    exact .bool false
  · obtain ⟨_, -, same⟩ := Option.map_eq_some_iff.mp read
    cases same
    exact .string _
  · simp only [readNumber, Option.bind_eq_bind, Option.bind_eq_some_iff] at read
    obtain ⟨⟨numeral, afterNumeral⟩, -, number, denotes, same⟩ := read
    cases same
    exact Numeral.sorted_value? denotes

theorem readValue_sorted (levels : Nat) : Yields Sorted (readValue levels) := by
  induction levels with
  | zero => exact readScalar_sorted
  | succ levels inductionHypothesis =>
      intro text value rest read
      unfold readValue at read
      split at read
      · obtain ⟨⟨items, afterItems⟩, taken, same⟩ := Option.map_eq_some_iff.mp read
        cases same
        exact .array (inductionHypothesis.enclosed _ _ _ taken)
      · obtain ⟨⟨members, afterMembers⟩, taken, same⟩ := Option.map_eq_some_iff.mp read
        cases same
        have each := inductionHypothesis.member.enclosed _ _ _ taken
        refine .object (Args.ascending_ofList members) ?_
        intro member found
        exact each member (Args.mem_of_mem_ofList found)
      · exact readScalar_sorted _ _ _ read

/-- A whole text is a value with nothing but blanks around it. -/
theorem parse?_eq_some {text : String} {value : Json} (read : parse? text = some value) :
    ∃ rest, readValue levelLimit (skipBlanks text.toList) = some (value, rest) := by
  unfold parse? readText at read
  split at read
  · next taken =>
      split at read
      · cases read
        exact ⟨_, taken⟩
      · cases read
  · cases read

theorem parse?_sorted {text : String} {value : Json} (read : parse? text = some value) :
    Sorted value := by
  obtain ⟨rest, taken⟩ := parse?_eq_some read
  exact readValue_sorted levelLimit _ _ _ taken

end Json

/-! ## Envelopes -/

namespace Envelope

theorem parse_eq_ok {text : String} {envelope : Envelope} (parsed : parse text = .ok envelope) :
    ∃ members, Json.parse? text = some (.object members) ∧ ofMembers members = .ok envelope := by
  unfold parse at parsed
  split at parsed
  · cases parsed
  · split at parsed
    · cases parsed
    · next members read => exact ⟨members, read, parsed⟩
    · cases parsed

/-- What holds of the empty object and of all members of an envelope's object holds of its
arguments. -/
theorem args_of_members (property : Json → Prop) {members : Args} {envelope : Envelope}
    (made : ofMembers members = .ok envelope) (bare : property (.object []))
    (each : ∀ member ∈ members, property member.2) : property (.object envelope.args) := by
  unfold ofMembers at made
  split at made
  · cases made
  · cases made
    dsimp only
    cases found : members.get? "args" with
    | none => exact bare
    | some content =>
        have has := each _ (Entries.mem_of_get? found)
        cases content with
        | object args => exact has
        | _ => exact bare

theorem parse_sorted {text : String} {envelope : Envelope} (parsed : parse text = .ok envelope) :
    Json.Sorted (.object envelope.args) := by
  obtain ⟨members, read, made⟩ := parse_eq_ok parsed
  cases Json.parse?_sorted read with
  | object _ each =>
      exact args_of_members Json.Sorted made (.object List.Pairwise.nil (List.forall_mem_nil _)) each

theorem parse_ascending {text : String} {envelope : Envelope}
    (parsed : parse text = .ok envelope) : envelope.args.Ascending := by
  cases parse_sorted parsed with
  | object ascending _ => exact ascending

end Envelope

end SessionServer
