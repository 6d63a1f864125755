import SessionServer.Delivery.Queue
import SessionServer.Proofs.Json.Numbers
import SessionServer.Proofs.Json.Sorted
import SessionServer.Proofs.Json.Strings

/-!
Contract: telling the envelopes on the wire from everything else by how they begin.

Owns:
- `Envelope.opening`, the characters of an envelope in front of its arguments;
- `Frame.beginsWith` and `Frame.carries`, whether a frame is a text that begins so;
- the proofs that an envelope carries its own code and no other, and that the plain text of
  arguments that came with an envelope carries no code at all. An object whose members stand in
  order cannot begin as an envelope does, since `args` would stand in front of `value`.
-/

namespace SessionServer

/-- The characters in front of the arguments of an envelope. -/
def Envelope.opening (code : Code) : List Char :=
  '\x7b' :: (Json.quoted "value".toList ++ ':' ::
    (Json.integerChars code.toInt ++ ',' :: (Json.quoted "args".toList ++ [':'])))

/-- The frame of an envelope. -/
def Frame.envelope (connection : ConnectionId) (code : Code) (args : Args) : Frame :=
  ⟨connection, .text (Envelope.toText ⟨code, args⟩)⟩

/-- Whether a frame is a text that begins with the given characters. -/
def Frame.beginsWith (frame : Frame) (start : List Char) : Bool :=
  match frame.payload with
  | .text content => start.isPrefixOf content.toList
  | .close => false

/-- Whether a frame is a text that begins as an envelope of the given code. -/
def Frame.carries (frame : Frame) (code : Code) : Bool := frame.beginsWith (Envelope.opening code)

/-! ## Envelopes -/

namespace Envelope

theorem toChars_eq_opening (envelope : Envelope) :
    envelope.toChars =
      opening envelope.value ++ ((Json.object envelope.args).print ++ ['\x7d']) := by
  -- The literals are spelled out in one go: matching one literal against another is slow.
  have spelled : envelope.toChars =
      '\x7b' :: (Json.quoted "value".toList ++ [':']) ++ Json.integerChars envelope.value.toInt ++
        ',' :: (Json.quoted "args".toList ++ [':']) ++ (Json.object envelope.args).print ++
          ['\x7d'] := rfl
  rw [spelled]
  simp only [opening, List.cons_append, List.append_assoc, List.nil_append]

private theorem opening_inj {left right : Code} {leftRest rightRest : List Char}
    (same : opening left ++ leftRest = opening right ++ rightRest) :
    left = right ∧ leftRest = rightRest := by
  simp only [opening, List.cons_append, List.append_assoc, List.cons.injEq, true_and,
    List.append_cancel_left_eq] at same
  obtain ⟨numbers, rest⟩ := Json.numeric_append_inj
    (fun _ member => Json.isNumeric_of_mem_integerChars member) (by decide)
    (fun _ member => Json.isNumeric_of_mem_integerChars member) (by decide) same
  simp only [List.cons.injEq, true_and, List.append_cancel_left_eq, List.nil_append] at rest
  exact ⟨Int32.toInt_inj.mp (Json.integerChars_injective numbers), rest⟩

end Envelope

namespace Frame

theorem beginsWith_envelope (connection : ConnectionId) (code other : Code) (args : Args)
    (more : List Char) :
    (envelope connection code args).beginsWith (Envelope.opening other ++ more) =
      (decide (code = other) && more.isPrefixOf ((Json.object args).print ++ ['\x7d'])) := by
  show (Envelope.opening other ++ more).isPrefixOf
    (String.ofList (Envelope.toChars ⟨code, args⟩)).toList = _
  rw [Bool.eq_iff_iff, Bool.and_eq_true, decide_eq_true_iff, String.toList_ofList,
    Envelope.toChars_eq_opening, List.isPrefixOf_iff_prefix, List.isPrefixOf_iff_prefix]
  constructor
  · rintro ⟨rest, same⟩
    rw [List.append_assoc] at same
    obtain ⟨codes, arguments⟩ := Envelope.opening_inj same
    exact ⟨codes.symm, rest, arguments⟩
  · rintro ⟨rfl, rest, arguments⟩
    exact ⟨rest, by rw [List.append_assoc, arguments]⟩

/-- An envelope carries its own code and no other. -/
theorem carries_envelope (connection : ConnectionId) (code other : Code) (args : Args) :
    (envelope connection code args).carries other = decide (code = other) := by
  have general := beginsWith_envelope connection code other args []
  rw [List.append_nil, List.isPrefixOf_nil_left, Bool.and_true] at general
  exact general

/-- A frame that is no envelope of the given codes. -/
def Avoids (frame : Frame) (codes : List Code) : Prop :=
  ∀ code ∈ codes, frame.carries code = false

theorem avoids_envelope {codes : List Code} (connection : ConnectionId) {code : Code}
    (args : Args) (apart : code ∉ codes) : (envelope connection code args).Avoids codes := by
  intro other listed
  rw [carries_envelope, decide_eq_false_iff_not]
  rintro rfl
  exact apart listed

theorem avoids_close (connection : ConnectionId) (codes : List Code) :
    Avoids ⟨connection, .close⟩ codes :=
  fun _ _ => rfl

end Frame

/-! ## Plain arguments -/

namespace Json

/-- A value whose text begins with an integer and a comma prints that integer and nothing else. -/
private theorem print_of_integerChars {value : Json} {number : Int} (close : Char)
    {rest more : List Char} (closing : isNumeric close = false)
    (same : value.print ++ close :: rest = integerChars number ++ ',' :: more) :
    close = ',' ∧ rest = more := by
  have numeric : ∀ c ∈ value.print, isNumeric c = true := by
    obtain ⟨first, later, digits⟩ := List.exists_cons_of_ne_nil (integerChars_ne_nil number)
    have start : isNumeric first = true :=
      isNumeric_of_mem_integerChars (digits ▸ List.mem_cons_self)
    rw [digits] at same
    cases value with
    | integer _ => exact fun c member => isNumeric_of_mem_integerChars member
    | double _ => exact fun c member => Binary64.isNumeric_of_mem_toChars member
    | bool content =>
        cases content <;> cases (List.cons.inj same).1 <;> exact absurd start (by decide)
    | _ => cases (List.cons.inj same).1; exact absurd start (by decide)
  obtain ⟨-, ends⟩ := numeric_append_inj numeric closing
    (fun _ member => isNumeric_of_mem_integerChars member) (by decide) same
  exact List.cons.inj ends

end Json

namespace Args

/-- What follows the value of a member: the closing brace, or a comma and the members behind. -/
private def behind : Args → List Char
  | [] => ['\x7d']
  | rest => ',' :: (Json.printMembers rest ++ ['\x7d'])

private theorem printMembers_cons (name : String) (value : Json) (rest : Args) :
    Json.printMembers ((name, value) :: rest) ++ ['\x7d'] =
      Json.quoted name.toList ++ ':' :: (value.print ++ behind rest) := by
  cases rest <;> simp only [Json.printMembers, behind, List.append_assoc, List.cons_append]

/-- Members in order do not begin with an integer under one name and a smaller name behind it. -/
private theorem printMembers_ne {args : Args} (ascending : args.Ascending) {first second : String}
    (disorder : compare first second ≠ .lt) (number : Int) (more : List Char) :
    Json.printMembers args ++ ['\x7d'] ≠
      Json.quoted first.toList ++ ':' ::
        (Json.integerChars number ++ ',' :: (Json.quoted second.toList ++ more)) := by
  intro same
  match args with
  | [] => cases (List.cons.inj same).1
  | (name, value) :: rest =>
      rw [printMembers_cons] at same
      obtain ⟨rfl, contents⟩ := Json.quoted_append_inj same
      have values := (List.cons.inj contents).2
      match rest with
      | [] =>
          have closing := (Json.print_of_integerChars '\x7d' (by decide) values).1
          exact absurd closing (by decide)
      | (next, content) :: others =>
          have members := (Json.print_of_integerChars ',' (by decide) values).2
          rw [printMembers_cons] at members
          obtain ⟨rfl, -⟩ := Json.quoted_append_inj members
          exact disorder ((List.pairwise_cons.mp ascending).1 _ List.mem_cons_self)

/-- Arguments in order do not begin as an envelope does. -/
theorem carries_text {args : Args} (ascending : args.Ascending) (connection : ConnectionId)
    (code : Code) : Frame.carries ⟨connection, .text args.toText⟩ code = false := by
  rw [Bool.eq_false_iff]
  intro carried
  have text : args.toText.toList = '\x7b' :: (Json.printMembers args ++ ['\x7d']) := by
    rw [toText, Json.toText, String.toList_ofList, Json.print, List.cons_append]
  have start : (Envelope.opening code).isPrefixOf args.toText.toList = true := carried
  obtain ⟨more, same⟩ := List.isPrefixOf_iff_prefix.mp start
  rw [text] at same
  simp only [Envelope.opening, List.cons_append, List.append_assoc, List.nil_append,
    List.cons.injEq, true_and] at same
  have disorder : compare "value" "args" ≠ .lt := by decide +kernel
  exact printMembers_ne ascending disorder code.toInt (':' :: more) same.symm

end Args

end SessionServer
