import TaintFlow.Folder.Basic
import TaintFlow.Proofs.Data.Assoc

/-!
# Writing into folders

Writing a file makes no folders, so that paths lead where they led before, and
what could be written can be written again.  The main statements are
`Alike.write` and `alike_of_write`.
-/

namespace TaintFlow.Folder

variable {f f' : Folder} {p : Path} {names : List String} {content content' : File}

/-- A file is written at the place that its path leads to, which is no folder. -/
theorem write_eq_ok : f.write p content = .ok f' ↔
    f.isTooLong p = false ∧ f.hasFolder p = false ∧
      ∃ names, f.locate p = some names ∧ f' = { f with files := f.files.put names content } := by
  unfold write
  cases f.isTooLong p with
  | true => exact ⟨nofun, nofun⟩
  | false =>
      cases f.hasFolder p with
      | true => exact ⟨nofun, nofun⟩
      | false =>
          cases f.locate p with
          | none => exact ⟨nofun, nofun⟩
          | some names =>
              constructor
              · exact fun same => ⟨rfl, rfl, names, rfl, (Except.ok.inj same).symm⟩
              · rintro ⟨_, _, _, same, rfl⟩
                obtain rfl := Option.some.inj same
                rfl

/-! ## Folders that lead to the same places -/

/-- The same names lead to folders in both. -/
def Alike (f f' : Folder) : Prop := ∀ names, f'.isFolder names = f.isFolder names

namespace Alike

theorem refl (f : Folder) : Alike f f := fun _ => rfl

theorem trans {f'' : Folder} (first : Alike f f') (second : Alike f' f'') : Alike f f'' :=
  fun names => (second names).trans (first names)

theorem follow (alike : Alike f f') (reached rest : List String) :
    f'.follow reached rest = f.follow reached rest := by
  induction rest generalizing reached with
  | nil => rfl
  | cons name rest ih => simp only [Folder.follow, alike _, ih]

theorem locate (alike : Alike f f') (p : Path) : f'.locate p = f.locate p := alike.follow _ _

theorem hasFolder (alike : Alike f f') (p : Path) : f'.hasFolder p = f.hasFolder p := by
  unfold Folder.hasFolder
  rw [alike.locate, funext alike]

theorem meetsLongName (alike : Alike f f') (reached rest : List String) :
    f'.meetsLongName reached rest = f.meetsLongName reached rest := by
  induction rest generalizing reached with
  | nil => rfl
  | cons name rest ih => simp only [Folder.meetsLongName, alike _, ih]

theorem isTooLong (alike : Alike f f') (p : Path) : f'.isTooLong p = f.isTooLong p := by
  unfold Folder.isTooLong
  rw [alike.meetsLongName]

/-- What can be written into one folder can be written into the other. -/
theorem write {g : Folder} (alike : Alike f f') (written : f.write p content = .ok g)
    (content' : File) : ∃ g', f'.write p content' = .ok g' := by
  obtain ⟨short, free, names, there, _⟩ := write_eq_ok.mp written
  exact ⟨_, write_eq_ok.mpr ⟨(alike.isTooLong p).trans short, (alike.hasFolder p).trans free, names,
    (alike.locate p).trans there, rfl⟩⟩

end Alike

/-! ## Writing makes no folders -/

/-- All names that lead a part of the way are those of folders. -/
def LeadsThroughFolders (f : Folder) (names : List String) : Prop :=
  ∀ part, part <+: names → part ≠ names → f.isFolder part = true

theorem LeadsThroughFolders.of_prefix {part : List String} (leads : f.LeadsThroughFolders names)
    (front : part <+: names) : f.LeadsThroughFolders part := by
  intro first before other
  refine leads first (before.trans front) ?_
  rintro rfl
  exact other (before.eq_of_length (Nat.le_antisymm before.length_le front.length_le))

theorem LeadsThroughFolders.concat (leads : f.LeadsThroughFolders names)
    (folder : f.isFolder names = true) (name : String) :
    f.LeadsThroughFolders (names ++ [name]) := by
  intro part front other
  rcases List.prefix_concat_iff.mp front with same | before
  · exact absurd same other
  · by_cases whole : part = names
    · exact whole ▸ folder
    · exact leads part before whole

theorem leadsThroughFolders_start (isAbsolute : Bool) :
    f.LeadsThroughFolders (if isAbsolute then [root] else []).reverse := by
  intro part front other
  cases isAbsolute with
  | false => exact absurd (List.prefix_nil.mp front) other
  | true =>
      rcases List.prefix_cons_iff.mp front with rfl | ⟨rest, rfl, end_⟩
      · rfl
      · obtain rfl := List.prefix_nil.mp end_
        exact absurd rfl other

/-- Names that are followed lead through folders. -/
theorem leadsThroughFolders_of_follow {reached rest : List String}
    (leads : f.LeadsThroughFolders reached.reverse) (followed : f.follow reached rest = some names) :
    f.LeadsThroughFolders names := by
  induction rest generalizing reached with
  | nil => exact Option.some.inj followed ▸ leads
  | cons name rest ih =>
      unfold follow at followed
      split at followed
      · cases followed
      · rename_i folder
        have folder : f.isFolder reached.reverse = true := by simpa using folder
        split at followed
        · split at followed
          · cases followed
          · rename_i first _
            exact ih (leadsThroughFolders_start (first == root)) followed
          · rename_i last outer _
            refine ih (leads.of_prefix ?_) followed
            rw [List.reverse_cons]
            exact List.prefix_append _ _
        · refine ih ?_ followed
          rw [List.reverse_cons]
          exact leads.concat folder name

/-- What is a folder without any files, or leads a part of the way to one, is a folder. -/
theorem isFolder_iff : f.isFolder names = true ↔
    (names.isEmpty || names == [root] || f.folders.contains names) = true ∨
      ∃ file ∈ f.files.keys, names <+: file ∧ names ≠ file := by
  rw [isFolder, Bool.or_eq_true]
  simp [Assoc.keys]

/-- A file makes no folders if those on the way to it are there. -/
theorem alike_put (leads : f.LeadsThroughFolders names) (content : File) :
    Alike f { f with files := f.files.put names content } := by
  intro part
  rw [Bool.eq_iff_iff]
  constructor
  · intro folder
    rcases isFolder_iff.mp folder with before | ⟨file, inside, front, other⟩
    · exact isFolder_iff.mpr (.inl before)
    · rcases Assoc.mem_keys_put.mp inside with rfl | inside
      · exact leads part front other
      · exact isFolder_iff.mpr (.inr ⟨file, inside, front, other⟩)
  · intro folder
    refine isFolder_iff.mpr ((isFolder_iff.mp folder).imp_right ?_)
    rintro ⟨file, inside, both⟩
    exact ⟨file, Assoc.mem_keys_put.mpr (.inr inside), both⟩

/-- Writing a file makes no folders. -/
theorem alike_of_write (written : f.write p content = .ok f') : Alike f f' := by
  obtain ⟨_, _, names, there, rfl⟩ := write_eq_ok.mp written
  exact alike_put (leadsThroughFolders_of_follow (leadsThroughFolders_start p.isAbsolute) there) content

/-- A file that has been written is found. -/
theorem file?_of_write (written : f.write p content = .ok f') : f'.file? p = some content := by
  have alike := alike_of_write written
  obtain ⟨_, _, names, there, rfl⟩ := write_eq_ok.mp written
  unfold file?
  rw [alike.locate, there]
  exact Assoc.find?_put_self _ _ _

end TaintFlow.Folder
