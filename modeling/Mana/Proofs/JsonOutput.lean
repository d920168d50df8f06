import Mana.Rendering
import Mana.Proofs.Outline.Json
import Mana.Proofs.Outline.Types
import Mana.Proofs.Printing

/-! The JSON document of a program loses nothing that the program says. -/
namespace Mana

namespace Node

/-- Trees whose leaves hold values of their types have one JSON document just if they agree. -/
theorem json_eq_iff (typed : Typed node) (typed' : Typed node') :
    node.outline.json = node'.outline.json ↔ node.agrees node' = true := by
  rw [← outline_eq_iff typed typed']
  constructor
  · intro same
    exact Outline.json_injective same
  · intro same
    rw [same]

end Node

theorem program_typed (limit : Nat) (source : Text) : (parseWithin limit source).program.Typed := by
  obtain ⟨word, formed, among, _⟩ := Parsed.exists_formed limit (scan source)
  intro below member held holds
  rw [parseWithin, Parsed.program_eq, Node.preorder] at member
  rcases List.mem_cons.mp member with rfl | inner
  · cases holds
  · obtain ⟨place, part, here, inside⟩ := formed.each below inner
    have fits := here.fits fun token own => scan_genuine source token (among.subset (inside own))
    cases below with
    | bare => exact fits.1.elim
    | identifier | integer | boolean => cases holds; rfl
    | _ => cases holds

end Mana
