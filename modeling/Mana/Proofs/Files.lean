import Mana.CommandLine.Files

/-! What is relied on of a system that keeps files. -/
namespace Mana.CommandLine.Files
variable {σ ι : Type} {files : Files (StateM σ)}

/-- The files of a system by their places, whatever names lead there: where a handle writes, what each file holds, and
which places are those of devices. -/
structure View (files : Files (StateM σ)) (ι : Type) where
  place : files.Handle → ι
  contents : σ → ι → Option (List UInt8)
  Device : ι → Prop

namespace View
variable {view : files.View ι}

/-- No file changes but the one that a handle writes to. That one is made, or emptied, where it is opened, and then
holds what is written to it. Devices hold nothing. -/
structure Lawful (view : files.View ι) : Prop where
  bare : view.Device other → view.contents state other = none
  read_kept : (files.read name).run before = (answer, after) → view.contents after = view.contents before
  refused_kept : (files.create name).run before = (.error obstacle, after) →
    view.contents after = view.contents before
  create_kept : (files.create name).run before = (.ok handle, after) → other ≠ view.place handle →
    view.contents after other = view.contents before other
  created : (files.create name).run before = (.ok handle, after) → ¬ view.Device (view.place handle) →
    view.contents after (view.place handle) = some []
  write_kept : (files.write handle bytes).run before = (answer, after) → other ≠ view.place handle →
    view.contents after other = view.contents before other
  written : (files.write handle bytes).run before = (.ok (), after) → ¬ view.Device (view.place handle) →
    view.contents before (view.place handle) = some [] → view.contents after (view.place handle) = some bytes

/-- Bytes are written to the file that a name leads to. No other file changes, and that one holds the bytes then, unless
it is a device, which holds nothing. -/
structure Receives (view : files.View ι) (name : Text) (bytes : List UInt8) (handle : files.Handle)
    (before after : σ) : Prop where
  taken : ∃ between, (files.create name).run before = (.ok handle, between) ∧
    (files.write handle bytes).run between = (.ok (), after)
  others : ∀ other, other ≠ view.place handle → view.contents after other = view.contents before other
  kept : ¬ view.Device (view.place handle) → view.contents after (view.place handle) = some bytes
  lost : view.Device (view.place handle) → view.contents after = view.contents before

/-- The file that a name leads to is opened, but does not take bytes. No other file changes. -/
structure Spoils (view : files.View ι) (name : Text) (bytes : List UInt8) (handle : files.Handle)
    (before after : σ) : Prop where
  refused : ∃ between obstacle, (files.create name).run before = (.ok handle, between) ∧
    (files.write handle bytes).run between = (.error obstacle, after)
  others : ∀ other, other ≠ view.place handle → view.contents after other = view.contents before other

namespace Lawful
variable {name : Text} {handle : files.Handle} {before between after : σ}
variable (lawful : view.Lawful) (created : (files.create name).run before = (.ok handle, between))
include lawful created

theorem others_kept (written : (files.write handle bytes).run between = (answer, after))
    (different : other ≠ view.place handle) : view.contents after other = view.contents before other :=
  (lawful.write_kept written different).trans (lawful.create_kept created different)

theorem receives (written : (files.write handle bytes).run between = (.ok (), after)) :
    view.Receives name bytes handle before after where
  taken := ⟨between, created, written⟩
  others _ := lawful.others_kept created written
  kept regular := lawful.written written regular (lawful.created created regular)
  lost device := by
    funext other
    by_cases same : other = view.place handle
    · rw [same, lawful.bare device, lawful.bare device]
    · exact lawful.others_kept created written same

theorem spoils (refused : (files.write handle bytes).run between = (.error obstacle, after)) :
    view.Spoils name bytes handle before after where
  refused := ⟨between, obstacle, created, refused⟩
  others _ := lawful.others_kept created refused

end Lawful

end View

/-- The file that a name leads to can be opened, and takes bytes. -/
def Takes (files : Files (StateM σ)) (name : Text) (bytes : List UInt8) (before : σ) : Prop :=
  ∃ handle between after, (files.create name).run before = (.ok handle, between) ∧
    (files.write handle bytes).run between = (.ok (), after)

end Mana.CommandLine.Files
