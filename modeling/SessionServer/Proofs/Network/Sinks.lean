import SessionServer.Network.Sinks

/-!
Contract: what is written to the clients, and what can still be.

Owns:
- `Sinks.Moves`, the three things that delivery and the serving of a client can do to the writing
  halves, and the proof that they do no others;
- `Sinks.Sealed`, by which a close is the last thing that is written to a connection. New
  connections have numbers that were not given out before, so none of them comes back to a
  connection that has been closed.
-/

namespace SessionServer

/-- The first frame is no close, or else the second is for another connection. -/
def Frame.MayPrecede (earlier later : Frame) : Prop :=
  earlier.payload = .close → later.connection ≠ earlier.connection

namespace Sinks

theorem isOpen_register (sinks : Sinks) (connection other : ConnectionId) :
    (sinks.register connection).isOpen other =
      (decide (connection = other) || sinks.isOpen other) :=
  OrderedSet.contains_add sinks.writable connection other

theorem isOpen_remove (sinks : Sinks) (connection other : ConnectionId) :
    (sinks.remove connection).isOpen other =
      (decide (connection ≠ other) && sinks.isOpen other) := by
  unfold isOpen remove OrderedMap.contains
  rw [OrderedMap.get?_erase]
  by_cases same : connection = other <;> simp [same]

/-- What can become of the writing halves once they are there. -/
inductive Moves (sinks : Sinks) : Sinks → Prop
  | idle : Moves sinks sinks
  | sent {connection : ConnectionId} (isOpen : sinks.isOpen connection = true)
      (content : String) : Moves sinks (sinks.write connection (.text content))
  | closed {connection : ConnectionId} (isOpen : sinks.isOpen connection = true) :
      Moves sinks ((sinks.remove connection).write connection .close)

theorem moves_send (sinks : Sinks) (connection : ConnectionId) (content : String) :
    sinks.Moves (sinks.send connection content).2 := by
  unfold send
  split
  · next isOpen => exact .sent isOpen content
  · exact .idle

theorem moves_close (sinks : Sinks) (connection : ConnectionId) :
    sinks.Moves (sinks.close connection).2 := by
  unfold close
  split
  · next isOpen => exact .closed isOpen
  · exact .idle

theorem not_isOpen_close (sinks : Sinks) (connection : ConnectionId) :
    (sinks.close connection).2.isOpen connection = false := by
  unfold close
  split
  · show (sinks.remove connection).isOpen connection = false
    rw [isOpen_remove]
    simp
  · next closed => exact Bool.eq_false_iff.mpr closed

/-- A step of delivery writes to an open connection or leaves the writing halves alone. -/
theorem moves_drainOnce (queue : DeliveryQueue) (sinks : Sinks) :
    sinks.Moves (drainOnce queue sinks).transport := by
  unfold drainOnce
  split
  · exact .idle
  · next frame rest _ =>
      split
      · obtain ⟨connection, payload⟩ := frame
        cases payload with
        | text content => exact sinks.moves_send connection content
        | close => exact sinks.moves_close connection
      · exact .idle

/-- Nothing but a new client can be written to that could not be before. -/
theorem Moves.isOpen_of_isOpen {sinks after : Sinks} (moves : sinks.Moves after)
    {connection : ConnectionId} (isOpen : after.isOpen connection = true) :
    sinks.isOpen connection = true := by
  cases moves with
  | idle => exact isOpen
  | sent _ content => exact isOpen
  | @closed closed _ =>
      have removed : (sinks.remove closed).isOpen connection = true := isOpen
      rw [isOpen_remove] at removed
      exact (Bool.and_eq_true _ _ ▸ removed).2

/-! ### Closed connections -/

/-- Of the numbers given out so far, those on which a close is written cannot be written to, and
nothing stands behind the close. -/
structure Sealed (given : Nat) (sinks : Sinks) : Prop where
  numbered : ∀ connection, sinks.isOpen connection = true → connection.number < given
  closed : ∀ connection, ⟨connection, .close⟩ ∈ sinks.wire →
    sinks.isOpen connection = false ∧ connection.number < given
  last : sinks.wire.Pairwise Frame.MayPrecede

section Sealing

variable {given : Nat} {sinks : Sinks}

theorem sealed_empty (given : Nat) : Sealed given {} := ⟨nofun, nofun, .nil⟩

theorem Sealed.of_le (intact : sinks.Sealed given) {more : Nat} (le : given ≤ more) :
    sinks.Sealed more where
  numbered connection isOpen := Nat.lt_of_lt_of_le (intact.numbered connection isOpen) le
  closed connection written :=
    ⟨(intact.closed connection written).1,
      Nat.lt_of_lt_of_le (intact.closed connection written).2 le⟩
  last := intact.last

/-- A new client has a new number, on which no close has been written. -/
theorem Sealed.register (intact : sinks.Sealed given) :
    (sinks.register ⟨given⟩).Sealed (given + 1) where
  numbered connection isOpen := by
    rw [isOpen_register, Bool.or_eq_true, decide_eq_true_eq] at isOpen
    rcases isOpen with rfl | before
    · exact Nat.lt_succ_self given
    · exact Nat.lt_succ_of_lt (intact.numbered connection before)
  closed connection written := by
    obtain ⟨shut, old⟩ := intact.closed connection written
    refine ⟨?_, Nat.lt_succ_of_lt old⟩
    rw [isOpen_register, shut, Bool.or_false, decide_eq_false_iff_not]
    rintro rfl
    exact Nat.lt_irrefl _ old
  last := intact.last

/-- What is written to an open connection does not stand behind a close of it. -/
theorem Sealed.last_write (intact : sinks.Sealed given) {connection : ConnectionId}
    (isOpen : sinks.isOpen connection = true) (payload : Payload) :
    (sinks.write connection payload).wire.Pairwise Frame.MayPrecede := by
  refine List.pairwise_append.mpr ⟨intact.last, List.pairwise_singleton _ _, ?_⟩
  rintro ⟨other, _⟩ written later member rfl same
  rw [List.mem_singleton.mp member] at same
  have shut := (intact.closed other written).1
  have own : connection = other := same
  rw [← own, isOpen] at shut
  cases shut

theorem Sealed.moves (intact : sinks.Sealed given) {after : Sinks} (moves : sinks.Moves after) :
    after.Sealed given := by
  have numbered : ∀ connection, after.isOpen connection = true → connection.number < given :=
    fun connection isOpen => intact.numbered connection (moves.isOpen_of_isOpen isOpen)
  have shut : ∀ connection, sinks.isOpen connection = false →
      after.isOpen connection = false := fun connection closed => by
    rw [Bool.eq_false_iff] at closed ⊢
    exact fun isOpen => closed (moves.isOpen_of_isOpen isOpen)
  cases moves with
  | idle => exact intact
  | @sent connection isOpen content =>
      refine ⟨numbered, ?_, intact.last_write isOpen _⟩
      intro other written
      rcases List.mem_append.mp written with before | new
      · exact intact.closed other before
      · cases List.mem_singleton.mp new
  | @closed connection isOpen =>
      refine ⟨numbered, ?_, intact.last_write isOpen _⟩
      intro other written
      rcases List.mem_append.mp written with before | new
      · exact ⟨shut other (intact.closed other before).1, (intact.closed other before).2⟩
      · cases List.mem_singleton.mp new
        refine ⟨?_, intact.numbered connection isOpen⟩
        show (sinks.remove connection).isOpen connection = false
        rw [isOpen_remove]
        simp

/-- Nothing is written to a connection behind a close of it. -/
theorem Sealed.not_written_behind (intact : sinks.Sealed given) {connection : ConnectionId}
    {before after : List Frame} (split : sinks.wire = before ++ ⟨connection, .close⟩ :: after) :
    ∀ frame ∈ after, frame.connection ≠ connection := by
  have last := intact.last
  rw [split] at last
  intro frame member
  exact (List.pairwise_cons.mp (List.pairwise_append.mp last).2.1).1 frame member rfl

theorem Sealed.count_close_le (intact : sinks.Sealed given) (connection : ConnectionId) :
    sinks.wire.count ⟨connection, .close⟩ ≤ 1 := by
  by_cases written : ⟨connection, .close⟩ ∈ sinks.wire
  · obtain ⟨before, after, split, fresh⟩ := List.eq_append_cons_of_mem written
    have behind : ⟨connection, .close⟩ ∉ after := fun member =>
      intact.not_written_behind split _ member rfl
    have once : sinks.wire.count ⟨connection, .close⟩ = 1 := by
      rw [split, List.count_append, List.count_cons_self, List.count_eq_zero.mpr fresh,
        List.count_eq_zero.mpr behind]
    exact Nat.le_of_eq once
  · rw [List.count_eq_zero.mpr written]
    exact Nat.zero_le 1

end Sealing

end Sinks

end SessionServer
