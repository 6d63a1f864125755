import Mathlib.Data.List.Nodup
import Mathlib.Data.List.Perm.Subperm
import SessionServer.Proofs.Json.Numbers
import SessionServer.Store.Disk

/-!
Contract: a file is replaced as a whole, or the directory stays as it was.

Owns:
- `freeName_not_mem`: a passing name is not taken, so no step on the way touches another entry;
- `replaceFile_directory` and `replaceFile_cases`, what comes of the steps together.
-/

namespace SessionServer.Disk

/-! ## Passing names -/

theorem passingName_injective : Function.Injective passingName := by
  intro left right same
  have digits := congrArg String.toList same
  simp only [passingName, String.toList_append, String.toList_ofList] at digits
  exact Json.toDigits_injective (List.append_cancel_left digits)

/-- There are more passing names to try than names that are taken. -/
theorem exists_free (taken : List String) :
    ∃ name ∈ (List.range (taken.length + 1)).map passingName, name ∉ taken := by
  by_contra! allTaken
  have distinct : ((List.range (taken.length + 1)).map passingName).Nodup :=
    List.Nodup.map passingName_injective List.nodup_range
  have fewer := (List.subperm_of_subset distinct allTaken).length_le
  rw [List.length_map, List.length_range] at fewer
  omega

theorem freeName_not_mem (taken : List String) : freeName taken ∉ taken := by
  obtain ⟨name, tried, free⟩ := exists_free taken
  have found : (((List.range (taken.length + 1)).map passingName).find?
      fun name => !taken.contains name).isSome = true := by
    rw [List.find?_isSome]
    exact ⟨name, tried, by simpa using free⟩
  obtain ⟨first, chosen⟩ := Option.isSome_iff_exists.mp found
  have untaken := List.find?_some chosen
  rw [freeName, chosen, Option.getD_some]
  simpa using untaken

/-! ## Replacing a file -/

section Steps

variable {entries : OrderedMap String DiskEntry} {passing : String}

theorem createFile_of_free (free : entries.get? passing = none) :
    (directory entries).createFile passing =
      .ok (.directory (entries.insert passing (.file []))) := by
  simp only [createFile, listing, bind, Except.bind, free]

theorem writeFile_created (content : List UInt8) :
    (directory (entries.insert passing (.file []))).writeFile passing content =
      .ok (.directory (entries.insert passing (.file content))) := by
  simp only [writeFile, listing, bind, Except.bind, OrderedMap.get?_insert_self,
    OrderedMap.insert_insert]

theorem renameFile_written (free : entries.get? passing = none) (name : String)
    (content : List UInt8) :
    (directory (entries.insert passing (.file content))).renameFile passing name =
      if entries.get? name = some .directory then .error .isDirectory
      else .ok (.directory (entries.insert name (.file content))) := by
  have restored := OrderedMap.erase_insert_of_missing free (DiskEntry.file content)
  simp only [renameFile, listing, bind, Except.bind, OrderedMap.get?_insert_self, restored]
  by_cases same : passing = name
  · subst same
    rw [OrderedMap.get?_insert_self, free, if_neg (by simp)]
  · rw [OrderedMap.get?_insert_ne _ same]
    rcases entries.get? name with _ | _ | _ <;> rfl

end Steps

/-- In a directory only a sub-directory of that name stands in the way of a file. -/
theorem replaceFile_directory (entries : OrderedMap String DiskEntry) (name : String)
    (content : List UInt8) :
    (directory entries).replaceFile name content =
      if entries.get? name = some .directory then (.error .isDirectory, .directory entries)
      else (.ok (), .directory (entries.insert name (.file content))) := by
  have untaken : freeName (directory entries).names ∉ entries.keys := freeName_not_mem entries.keys
  have free : entries.get? (freeName (directory entries).names) = none := by
    rw [entries.mem_keys_iff] at untaken
    exact Option.eq_none_iff_forall_ne_some.mpr fun entry taken => untaken ⟨entry, taken⟩
  unfold replaceFile
  dsimp only
  rw [createFile_of_free free]
  dsimp only
  rw [writeFile_created]
  dsimp only
  rw [renameFile_written free]
  by_cases blocked : entries.get? name = some .directory
  · rw [if_pos blocked, if_pos blocked]
    dsimp only [remove]
    rw [OrderedMap.erase_insert_of_missing free]
  · rw [if_neg blocked, if_neg blocked]

/-- A replacement is refused and leaves the disk as it was, or it puts one file in its place. -/
theorem replaceFile_cases (disk : Disk) (name : String) (content : List UInt8) :
    (∃ cause, disk.replaceFile name content = (.error cause, disk)) ∨
      ∃ entries, disk = .directory entries ∧
        disk.replaceFile name content =
          (.ok (), .directory (entries.insert name (.file content))) := by
  cases disk with
  | missing => exact .inl ⟨_, rfl⟩
  | plainFile => exact .inl ⟨_, rfl⟩
  | belowFile => exact .inl ⟨_, rfl⟩
  | directory entries =>
      rw [replaceFile_directory]
      by_cases blocked : entries.get? name = some .directory
      · rw [if_pos blocked]
        exact .inl ⟨_, rfl⟩
      · rw [if_neg blocked]
        exact .inr ⟨entries, rfl, rfl⟩

end SessionServer.Disk
