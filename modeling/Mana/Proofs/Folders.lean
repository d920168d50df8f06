import Mana.CommandLine.Folder
import Mana.Proofs.Files

/-! Folders in memory keep files as a system does. A file that is put in its place leaves every other one as it was. -/
namespace Mana.CommandLine.Folder
variable {folder : Folder} {file : File} {path : Path}

theorem path_of_file? (found : folder.file? path = some file) : file.path = path :=
  beq_iff_eq.mp (@List.find?_some _ (fun file : File => file.path == path) _ _ found)

private theorem replaced_path (file other : File) : (if other.path = file.path then file else other).path = other.path := by
  split
  · rename_i same
    exact same.symm
  · rfl

theorem file?_put (kept : Path.devices.contains file.path = false) : (folder.put file).file? file.path = some file := by
  rw [put, kept]
  split
  · contradiction
  split
  · rename_i present
    obtain ⟨other, found⟩ := Option.isSome_iff_exists.mp present
    simp only [file?, List.find?_map, Function.comp_def, replaced_path]
    rw [← file?, found, Option.map_some, if_pos (path_of_file? found)]
  · rename_i absent
    rw [file?, List.find?_append, ← file?, Option.not_isSome_iff_eq_none.mp absent]
    simp

theorem file?_put_other (other : path ≠ file.path) : (folder.put file).file? path = folder.file? path := by
  rw [put]
  split
  · rfl
  split
  · simp only [file?, List.find?_map, Function.comp_def, replaced_path]
    rw [← file?]
    cases found : folder.file? path with
    | none => rfl
    | some present =>
      rw [Option.map_some, if_neg (path_of_file? found ▸ other)]
  · simp [file?, List.find?_append, Ne.symm other]

/-- Folders are seen by paths. -/
def view : files.View Path where
  place := id
  contents folder path := if Path.devices.contains path then none else (folder.file? path).map File.bytes
  Device path := Path.devices.contains path = true

theorem contents_put (folder : Folder) (bytes : List UInt8) (regular : ¬ view.Device path) :
    view.contents (folder.put ⟨path, bytes⟩) path = some bytes := by
  refine (if_neg regular).trans ?_
  rw [@file?_put folder ⟨path, bytes⟩ (Bool.eq_false_iff.mpr regular)]
  rfl

theorem contents_put_other (folder : Folder) (bytes : List UInt8) {place : Path} (other : place ≠ path) :
    view.contents (folder.put ⟨path, bytes⟩) place = view.contents folder place := by
  simp only [view, @file?_put_other folder ⟨path, bytes⟩ place other]

theorem create_refused (refused : folder.target name = .error obstacle) :
    (files.create name).run folder = (.error obstacle, folder) := by
  simp only [files, StateT.run_bind, StateT.run_get, pure_bind, refused]
  rfl

theorem create_opened (opened : folder.target name = .ok path) :
    (files.create name).run folder = (.ok path, folder.put ⟨path, []⟩) := by
  simp only [files, StateT.run_bind, StateT.run_get, pure_bind, opened]
  rfl

theorem create_run {answer : Except Obstacle Path} (ran : (files.create name).run folder = (answer, after)) :
    (∃ obstacle, answer = .error obstacle ∧ after = folder) ∨
      ∃ path, answer = .ok path ∧ after = folder.put ⟨path, []⟩ := by
  cases target : folder.target name with
  | error obstacle =>
    cases ran.symm.trans (create_refused target)
    exact .inl ⟨obstacle, rfl, rfl⟩
  | ok path =>
    cases ran.symm.trans (create_opened target)
    exact .inr ⟨path, rfl, rfl⟩

theorem write_run {answer : Except Obstacle Unit} (ran : (files.write path bytes).run folder = (answer, after)) :
    (∃ obstacle, answer = .error obstacle ∧ after = folder) ∨
      answer = .ok () ∧ after = folder.put ⟨path, bytes⟩ := by
  simp only [files] at ran
  split at ran <;> cases ran
  · exact .inl ⟨_, rfl, rfl⟩
  · exact .inr ⟨rfl, rfl⟩

/-- Folders keep files as a system does. -/
theorem view_lawful : view.Lawful where
  bare device := if_pos device
  read_kept ran := by cases ran; rfl
  refused_kept ran := by
    rcases create_run ran with ⟨_, _, rfl⟩ | ⟨_, opened, _⟩
    · rfl
    · cases opened
  create_kept ran other := by
    obtain ⟨_, closed, _⟩ | ⟨_, opened, rfl⟩ := create_run ran
    · cases closed
    · cases opened
      exact contents_put_other _ _ other
  created ran regular := by
    obtain ⟨_, closed, _⟩ | ⟨_, opened, rfl⟩ := create_run ran
    · cases closed
    · cases opened
      exact contents_put _ _ regular
  write_kept ran other := by
    obtain ⟨_, _, rfl⟩ | ⟨_, rfl⟩ := write_run ran
    · rfl
    · exact contents_put_other _ _ other
  written ran regular _ := by
    obtain ⟨_, closed, _⟩ | ⟨_, rfl⟩ := write_run ran
    · cases closed
    · exact contents_put _ _ regular

end Mana.CommandLine.Folder
