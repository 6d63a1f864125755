import SessionServer.Proofs.Store.FreshKeys

/-!
Contract: a save writes one file or nothing at all.

Owns:
- `saves_iff`, which saves a directory lets through;
- the theorem that a refused save leaves the disk as it was, and that a save that is let through
  shows in the file of its key only.

Does not own: the steps of a single replacement, which are `Disk.replaceFile`. Nothing here asks
how a store came about: the disk may hold anything, and the next key may be any.
-/

namespace SessionServer.FileStore

section Saves

variable {ε : Type} [Entity ε] [Codec ε]

/-- A save is let through where there is a directory and no sub-directory has the name of its
file. -/
theorem saves_iff (store : FileStore) (entity : ε) :
    (∃ saved, (store.save entity).1 = .ok saved) ↔
      ∃ entries, store.disk = .directory entries ∧
        entries.get? ((Entity.key? entity).getD store.nextKey).fileName ≠ some .directory := by
  obtain ⟨disk, nextKey⟩ := store
  cases disk with
  | missing => exact ⟨fun ⟨_, served⟩ => (by cases served), fun ⟨_, same, _⟩ => (by cases same)⟩
  | plainFile => exact ⟨fun ⟨_, served⟩ => (by cases served), fun ⟨_, same, _⟩ => (by cases same)⟩
  | belowFile => exact ⟨fun ⟨_, served⟩ => (by cases served), fun ⟨_, same, _⟩ => (by cases same)⟩
  | directory entries =>
      unfold save
      dsimp only
      rw [Disk.replaceFile_directory]
      by_cases blocked :
          entries.get? ((Entity.key? entity).getD nextKey).fileName = some .directory
      · rw [if_pos blocked]
        constructor
        · rintro ⟨_, served⟩
          cases served
        · rintro ⟨others, same, free⟩
          cases same
          exact absurd blocked free
      · rw [if_neg blocked]
        exact ⟨fun _ => ⟨entries, rfl, blocked⟩, fun _ => ⟨_, rfl⟩⟩

/-- A save that is refused leaves the disk as it was and takes no key back. One that is let through
makes or replaces the file of its key and nothing else, so that the entity loads from there and all
other keys load as before. A load changes nothing. -/
theorem save_atomic [LawfulEntity ε] [LawfulCodec ε] (store : FileStore) {entity : ε}
    (fits : LawfulCodec.Fits entity) :
    ((∃ saved, (store.save entity).1 = .ok saved) ↔
      ∃ entries, store.disk = .directory entries ∧
        entries.get? ((Entity.key? entity).getD store.nextKey).fileName ≠ some .directory) ∧
    (∀ error after, store.save entity = (.error error, after) →
      after.disk = store.disk ∧ store.nextKey ≤ after.nextKey) ∧
    (∀ saved after, store.save entity = (.ok saved, after) →
      ∃ key : EntityKey, Entity.key? saved = some key ∧
        (saved = entity ∨ Entity.key? entity = none ∧ saved = Entity.withKey entity key) ∧
        (∃ entries, store.disk = .directory entries ∧
          after.disk =
            .directory (entries.insert key.fileName (.file (Codec.encode saved)))) ∧
        after.load key = .ok (some saved) ∧
        ∀ (κ : Type) [Codec κ] (other : EntityKey), other ≠ key →
          (after.load other : Except StoreError (Option κ)) = store.load other) ∧
    ∀ key, (EntityStore.serve store (.load key : StoreRequest ε)).2 = store := by
  refine ⟨store.saves_iff entity, ?_, ?_, fun _ => rfl⟩
  · intro error after refused
    have advanced : store.nextKey ≤
        max store.nextKey ((Entity.key? entity).getD store.nextKey).next := by
      rw [Int64.le_iff_toInt_le, EntityKey.toInt_max]
      omega
    rcases store.save_cases entity with ⟨cause, outcome⟩ | ⟨entries, -, outcome⟩
    · rw [outcome] at refused
      cases refused
      exact ⟨rfl, advanced⟩
    · rw [outcome] at refused
      cases refused
  · intro saved after served
    rcases store.save_cases entity with ⟨cause, outcome⟩ | ⟨entries, directory, outcome⟩
    · rw [outcome] at served
      cases served
    · rw [outcome] at served
      cases served
      obtain ⟨keyed, origin⟩ := LawfulEntity.key?_keyed entity store.nextKey
      refine ⟨_, keyed, origin, ⟨entries, directory, rfl⟩, ?_, ?_⟩
      · simp only [load, Disk.readFile, OrderedMap.get?_insert_self,
          Codec.decode_encode (LawfulCodec.fits_keyed fits _)]
      · intro κ _ other apart
        -- Another key has another file name, so the file it is read from is the one there was.
        apply load_of_readFile
        have names := fun same => apart (EntityKey.fileName_injective same).symm
        simp only [directory, Disk.readFile, OrderedMap.get?_insert_ne _ names]

/-- A directory with a sub-directory in the place of a note, a file that is no note and a file in
the place of another note. -/
theorem save_atomic_notes :
    let files : FileStore := ⟨.directory
      (.ofList [("7.bin", .directory), ("8.bin", .file [9]), ("3.bin", .file [1])]), 3⟩
    let blocked : Note := ⟨some 7, "seven"⟩
    let next : Note := ⟨none, "three"⟩
    LawfulCodec.Fits blocked ∧ LawfulCodec.Fits next ∧
      (files.save blocked).1 = .error (.file .isDirectory) ∧
      (files.save blocked).2.disk = files.disk ∧
      files.nextKey ≤ (files.save blocked).2.nextKey ∧
      (files.save next).1 = .ok ⟨some 3, "three"⟩ ∧
      (files.save next).2.load 3 = .ok (some (⟨some 3, "three"⟩ : Note)) ∧
      (∀ other, other ≠ 3 →
        ((files.save next).2.load other : Except StoreError (Option Note)) = files.load other) ∧
      (files.load 8 : Except StoreError (Option Note)) = .error (.codec (.badMark 9)) := by
  intro files blocked next
  have blockedFits : LawfulCodec.Fits blocked := (by decide : Codec.FitsText "seven")
  have nextFits : LawfulCodec.Fits next := (by decide : Codec.FitsText "three")
  have refused : (files.save blocked).1 = .error (.file .isDirectory) := by decide +kernel
  have served : (files.save next).1 = .ok ⟨some 3, "three"⟩ := by decide +kernel
  obtain ⟨kept, counted⟩ := (save_atomic files blockedFits).2.1 _ _ (Prod.ext refused rfl)
  obtain ⟨key, given, -, -, present, others⟩ :=
    (save_atomic files nextFits).2.2.1 _ _ (Prod.ext served rfl)
  cases given
  exact ⟨blockedFits, nextFits, refused, kept, counted, served, present,
    fun other apart => others Note other apart, by decide +kernel⟩

end Saves

end SessionServer.FileStore
