import SessionServer.Proofs.Store.Codec
import SessionServer.Proofs.Store.FileNames
import SessionServer.Proofs.Store.Replacement
import SessionServer.Store.Memory

/-!
Contract: a file store that is closed and opened again answers as a memory store that lives on.

Owns:
- `StoreRequest` and `StoreAnswer`, what can be asked of a store and what it says to it, and
  `FileStore.Act`, a request to a file store or its opening anew;
- `Mirrors`, the link between the entries of a directory and the rows of a memory store. The two
  keep the next key differently, a counter on one side and the highest file name on the other, and
  both stand behind the same top of all keys in use;
- the theorem that no sequence of acts tells the two stores apart.

The directory belongs to the one store, and the file system refuses nothing.
-/

namespace SessionServer

variable {ε : Type}

/-! ## Requests -/

/-- What can be asked of a store. -/
inductive StoreRequest (ε : Type) where
  | load (key : EntityKey)
  | save (entity : ε)

inductive StoreAnswer (ε : Type) where
  | loaded (result : Except StoreError (Option ε))
  | saved (result : Except StoreError ε)

/-- The entities of a request have a written form. -/
def StoreRequest.Fits [Entity ε] [Codec ε] [LawfulCodec ε] : StoreRequest ε → Prop
  | .load _ => True
  | .save entity => LawfulCodec.Fits entity

namespace EntityStore

variable {σ : Type} [EntityStore σ ε]

/-- The answer of a store to a request, and the store afterwards. -/
def serve (store : σ) : StoreRequest ε → StoreAnswer ε × σ
  | .load key => (.loaded (load store key), store)
  | .save entity => (.saved (save store entity).1, (save store entity).2)

/-- The answers to requests that are made one after another. -/
def answers (store : σ) : List (StoreRequest ε) → List (StoreAnswer ε)
  | [] => []
  | request :: rest => (serve store request).1 :: answers (serve store request).2 rest

end EntityStore

namespace FileStore

/-- What can be done with a file store. -/
inductive Act (ε : Type) where
  | ask (request : StoreRequest ε)
  /-- The store is given up, and another one is opened on the same directory. -/
  | reopen

def Act.request? : Act ε → Option (StoreRequest ε)
  | .ask request => some request
  | .reopen => none

/-- The answers to the requests among acts, unless the store does not open again. -/
def answers [Entity ε] [Codec ε] (store : FileStore) :
    List (Act ε) → Except StoreError (List (StoreAnswer ε))
  | [] => .ok []
  | .ask request :: rest => do
      let later ← answers (EntityStore.serve store request).2 rest
      .ok ((EntityStore.serve store request).1 :: later)
  | .reopen :: rest => do
      let reopened ← FileStore.open store.disk
      answers reopened rest

end FileStore

/-! ## Directory and rows -/

/-- Every row has its file and every file its row, and the next key lies behind all of them. -/
structure Mirrors [Entity ε] [Codec ε] [LawfulCodec ε] (entries : OrderedMap String DiskEntry)
    (memory : MemoryStore ε) : Prop where
  content : ∀ key : EntityKey, entries.get? key.fileName =
    (memory.rows.get? key).map fun entity => .file (Codec.encode entity)
  named : ∀ {name : String} {entry : DiskEntry}, entries.get? name = some entry →
    ∃ key : EntityKey, name = key.fileName
  fits : ∀ {key : EntityKey} {entity : ε}, memory.rows.get? key = some entity →
    LawfulCodec.Fits entity
  counted : ∃ top, EntityKey.IsTop (fun key => ∃ entity, memory.rows.get? key = some entity) top ∧
    memory.nextKey = top.next

/-- The file store on a directory, with the next key of a memory store. -/
def MemoryStore.onDisk (memory : MemoryStore ε) (entries : OrderedMap String DiskEntry) :
    FileStore :=
  ⟨.directory entries, memory.nextKey⟩

/-- A save whose file could be written. -/
theorem FileStore.save_of_replaceFile [Entity ε] [Codec ε] {store : FileStore} {entity : ε}
    {disk : Disk}
    (replaced : store.disk.replaceFile ((Entity.key? entity).getD store.nextKey).fileName
      (Codec.encode (if (Entity.key? entity).isSome then entity
        else Entity.withKey entity ((Entity.key? entity).getD store.nextKey))) = (.ok (), disk)) :
    store.save entity =
      (.ok (if (Entity.key? entity).isSome then entity
          else Entity.withKey entity ((Entity.key? entity).getD store.nextKey)),
        ⟨disk, max store.nextKey (EntityKey.next ((Entity.key? entity).getD store.nextKey))⟩) := by
  unfold save
  dsimp only
  rw [replaced]

namespace Mirrors

variable [Entity ε] [Codec ε] [LawfulCodec ε] {entries : OrderedMap String DiskEntry}
  {memory : MemoryStore ε}

theorem empty : Mirrors (ε := ε) OrderedMap.empty MemoryStore.empty where
  content _ := rfl
  named found := by cases found
  fits found := by cases found
  counted := ⟨0, ⟨Int64.le_refl 0, fun ⟨_, found⟩ => (by cases found), .inl rfl⟩, rfl⟩

theorem load_eq (mirrors : Mirrors entries memory) (key : EntityKey) :
    (memory.onDisk entries).load key = .ok (memory.load key) := by
  have content := mirrors.content key
  unfold FileStore.load
  cases row : memory.rows.get? key with
  | none =>
      have missing : (memory.onDisk entries).disk.readFile key.fileName =
          .error .noSuchEntry := by
        rw [row] at content
        simp only [MemoryStore.onDisk, Disk.readFile, content, Option.map_none]
      rw [missing, MemoryStore.load, row]
  | some entity =>
      have present : (memory.onDisk entries).disk.readFile key.fileName =
          .ok (Codec.encode entity) := by
        rw [row] at content
        simp only [MemoryStore.onDisk, Disk.readFile, content, Option.map_some]
      rw [present, MemoryStore.load, row]
      simp only [Codec.decode_encode (mirrors.fits row)]

/-- A row and its file come in together. -/
theorem insert (mirrors : Mirrors entries memory) (key : EntityKey) {entity : ε}
    (fits : LawfulCodec.Fits entity) (saves : Nat) :
    Mirrors (entries.insert key.fileName (.file (Codec.encode entity)))
      { rows := memory.rows.insert key entity
        nextKey := max memory.nextKey (EntityKey.next key)
        saves } where
  content other := by
    rw [OrderedMap.get?_insert, OrderedMap.get?_insert]
    by_cases same : key = other
    · rw [if_pos same, if_pos (congrArg EntityKey.fileName same), Option.map_some]
    · have apart : key.fileName ≠ other.fileName :=
        fun names => same (EntityKey.fileName_injective names)
      rw [if_neg same, if_neg apart, mirrors.content other]
  named found := by
    rw [OrderedMap.get?_insert] at found
    split at found
    · next same => exact ⟨key, same.symm⟩
    · exact mirrors.named found
  fits found := by
    rw [OrderedMap.get?_insert] at found
    split at found
    · cases found
      exact fits
    · exact mirrors.fits found
  counted := by
    obtain ⟨top, isTop, counter⟩ := mirrors.counted
    refine ⟨max top key, ?_, ?_⟩
    · have shown : (fun other => ∃ found, (memory.rows.insert key entity).get? other = some found) =
          fun other => other = key ∨ ∃ found, memory.rows.get? other = some found := by
        funext other
        rw [OrderedMap.get?_insert]
        by_cases same : key = other
        · simp [same]
        · simp [same, Ne.symm same]
      rw [shown]
      exact isTop.insert key
    · dsimp only
      rw [counter, EntityKey.next_max]

theorem save_eq (mirrors : Mirrors entries memory) {entity : ε} (fits : LawfulCodec.Fits entity) :
    ∃ changed, Mirrors changed (memory.save entity).2 ∧
      (memory.onDisk entries).save entity =
        (.ok (memory.save entity).1, (memory.save entity).2.onDisk changed) := by
  let key := (Entity.key? entity).getD memory.nextKey
  let keyed := if (Entity.key? entity).isSome then entity else Entity.withKey entity key
  have keyedFits : LawfulCodec.Fits keyed := LawfulCodec.fits_keyed fits key
  have replaced : (Disk.directory entries).replaceFile key.fileName (Codec.encode keyed) =
      (.ok (), .directory (entries.insert key.fileName (.file (Codec.encode keyed)))) := by
    rw [Disk.replaceFile_directory, mirrors.content key, if_neg]
    rcases memory.rows.get? key with _ | _ <;> simp
  refine ⟨_, mirrors.insert key keyedFits (memory.saves + 1), ?_⟩
  exact FileStore.save_of_replaceFile replaced

/-- A directory that is opened again goes on with the next key. -/
theorem open_eq (mirrors : Mirrors entries memory) :
    FileStore.open (.directory entries) = .ok (memory.onDisk entries) := by
  obtain ⟨top, isTop, counter⟩ := mirrors.counted
  have shown : (fun key => ∃ name ∈ (Disk.directory entries).names,
      EntityKey.ofFileName? name = some key) =
        fun key => ∃ entity, memory.rows.get? key = some entity := by
    funext key
    apply propext
    constructor
    · rintro ⟨name, listed, shows⟩
      obtain ⟨entry, found⟩ := (entries.mem_keys_iff name).mp listed
      obtain ⟨own, rfl⟩ := mirrors.named found
      rw [EntityKey.ofFileName?_fileName] at shows
      cases shows
      rw [mirrors.content key] at found
      obtain ⟨entity, row, -⟩ := Option.map_eq_some_iff.mp found
      exact ⟨entity, row⟩
    · rintro ⟨entity, row⟩
      have content := mirrors.content key
      rw [row, Option.map_some] at content
      exact ⟨key.fileName, (entries.mem_keys_iff _).mpr ⟨_, content⟩,
        EntityKey.ofFileName?_fileName key⟩
  have highest := FileStore.isTop_highestKey (Disk.directory entries).names
  rw [shown] at highest
  rw [MemoryStore.onDisk, counter, isTop.unique highest]
  rfl

theorem answers_eq (mirrors : Mirrors entries memory) (acts : List (FileStore.Act ε))
    (fits : ∀ act ∈ acts, ∀ request ∈ act.request?, request.Fits) :
    (memory.onDisk entries).answers acts =
      .ok (EntityStore.answers memory (acts.filterMap FileStore.Act.request?)) := by
  induction acts generalizing entries memory with
  | nil => rfl
  | cons first rest inductionHypothesis =>
      have later : ∀ act ∈ rest, ∀ request ∈ act.request?, request.Fits :=
        fun act member => fits act (List.mem_cons_of_mem _ member)
      cases first with
      | reopen =>
          show (FileStore.open (.directory entries) >>= fun reopened =>
            reopened.answers rest) = _
          rw [mirrors.open_eq]
          exact inductionHypothesis mirrors later
      | ask request =>
          cases request with
          | load key =>
              show ((memory.onDisk entries).answers rest >>= fun later =>
                .ok (.loaded ((memory.onDisk entries).load key) :: later)) = _
              rw [mirrors.load_eq, inductionHypothesis mirrors later]
              rfl
          | save entity =>
              obtain ⟨changed, kept, saved⟩ :=
                mirrors.save_eq (fits _ List.mem_cons_self _ rfl)
              show (((memory.onDisk entries).save entity).2.answers rest >>= fun later =>
                .ok (.saved ((memory.onDisk entries).save entity).1 :: later)) = _
              rw [saved, inductionHypothesis kept later]
              rfl

end Mirrors

/-! ## The two stores side by side -/

/-- A file store on a directory of its own, which is missing or empty at first and in which it may be
opened again at any time, gives the answers of a single memory store. -/
theorem files_answer_as_memory [Entity ε] [Codec ε] [LawfulCodec ε] {disk : Disk}
    (unused : disk = .missing ∨ disk = .emptyDirectory) (acts : List (FileStore.Act ε))
    (fits : ∀ act ∈ acts, ∀ request ∈ act.request?, request.Fits) :
    (FileStore.open disk >>= fun store => store.answers acts) =
      .ok (EntityStore.answers (MemoryStore.empty : MemoryStore ε)
        (acts.filterMap FileStore.Act.request?)) := by
  have opened : FileStore.open disk =
      .ok ((MemoryStore.empty : MemoryStore ε).onDisk OrderedMap.empty) := by
    have made : FileStore.open disk = FileStore.open (.directory .empty) := by
      rcases unused with rfl | rfl <;> rfl
    rw [made, (Mirrors.empty (ε := ε)).open_eq]
  rw [opened]
  exact Mirrors.empty.answers_eq acts fits

/-- Notes under the least, the greatest and a given key, and players that are numbered across two
openings. -/
theorem files_answer_as_memory_notes_and_players :
    let notes : List (FileStore.Act Note) :=
      [.ask (.save ⟨some (-3), "é\n"⟩), .ask (.save ⟨none, ""⟩), .reopen,
        .ask (.save ⟨some Int64.maxValue, "top"⟩), .reopen, .ask (.save ⟨none, "again"⟩),
        .ask (.load (-3)), .ask (.load Int64.maxValue), .ask (.load 2)]
    let players : List (FileStore.Act Player) :=
      [.ask (.save (Player.fresh 41 0)), .reopen,
        .ask (.save { Player.fresh 1 7 with uid := none }), .reopen, .ask (.load 42)]
    ((FileStore.open .missing >>= fun store => store.answers notes) =
      .ok (EntityStore.answers (MemoryStore.empty : MemoryStore Note)
        (notes.filterMap FileStore.Act.request?))) ∧
      (FileStore.open .emptyDirectory >>= fun store => store.answers players) =
        .ok (EntityStore.answers (MemoryStore.empty : MemoryStore Player)
          (players.filterMap FileStore.Act.request?)) := by
  intro notes players
  constructor
  · refine files_answer_as_memory (.inl rfl) notes ?_
    simp only [notes, List.mem_cons, List.not_mem_nil, or_false, forall_eq_or_imp, forall_eq,
      FileStore.Act.request?, Option.mem_def, Option.some.injEq, reduceCtorEq, false_imp_iff,
      implies_true, forall_eq', StoreRequest.Fits, true_and, and_true]
    exact ⟨(by decide : Codec.FitsText _), (by decide : Codec.FitsText _),
      (by decide : Codec.FitsText _), (by decide : Codec.FitsText _)⟩
  · refine files_answer_as_memory (.inr rfl) players ?_
    simp only [players, List.mem_cons, List.not_mem_nil, or_false, forall_eq_or_imp, forall_eq,
      FileStore.Act.request?, Option.mem_def, Option.some.injEq, reduceCtorEq, false_imp_iff,
      implies_true, forall_eq', StoreRequest.Fits, true_and, and_true]
    exact ⟨(by decide : Codec.FitsText _), (by decide : Codec.FitsText _)⟩

end SessionServer
