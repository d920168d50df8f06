import Mana.Proofs.Nesting.Limit
import Mana.Stack

/-! Renderings. What there is room for is rendered as if there were room for everything. -/
namespace Mana

theorem parseStrictly_clear (clear : (parseWithin limit source).diagnostics = []) :
    parseStrictly limit source = .ok (parseWithin limit source).program := by
  rw [parseStrictly, if_pos (List.isEmpty_iff.mpr clear)]

theorem parseStrictly_faulty (faulty : (parseWithin limit source).diagnostics ≠ []) :
    parseStrictly limit source = .error (parseWithin limit source).diagnostics := by
  rw [parseStrictly, if_neg ((not_congr List.isEmpty_iff).mpr faulty)]

theorem render_clear {format : Format} (parsed : format ≠ .tokens) (clear : (parseWithin limit source).diagnostics = []) :
    render limit source format = .ok ((parseWithin limit source).program.rendered format) := by
  cases format with
  | tokens => contradiction
  | string | json => simp only [render, parseStrictly_clear clear]; rfl

namespace Stack

theorem render_of_clear {stack : Stack} {format : Format} (parsed : format ≠ .tokens)
    (clear : (parseWithin stack.nesting source).diagnostics = []) : stack.render source format =
      (stack.shown? (parseWithin stack.nesting source).program format).elim (.error .exhausted) .ok := by
  cases format with
  | tokens => contradiction
  | string | json => simp only [render, parseStrictly_clear clear]

theorem render_of_faulty {stack : Stack} {format : Format} (parsed : format ≠ .tokens)
    (faulty : (parseWithin stack.nesting source).diagnostics ≠ []) :
    stack.render source format = .error (.faults (parseWithin stack.nesting source).diagnostics) := by
  cases format with
  | tokens => contradiction
  | string | json => simp only [render, parseStrictly_faulty faulty]

/-- The ways in which a source is rendered or not. -/
inductive Rendering (stack : Stack) (source : Text) : Format → Except Unrendered Text → Prop where
  | tokens : stack.Rendering source .tokens (.ok (tokenListing source))
  | shown {format : Format} (parsed : format ≠ .tokens) (clear : (parseWithin stack.nesting source).diagnostics = []) :
      stack.Rendering source format (.ok ((parseWithin stack.nesting source).program.rendered format))
  | exhausted {format : Format} (parsed : format ≠ .tokens) (clear : (parseWithin stack.nesting source).diagnostics = []) :
      stack.Rendering source format (.error .exhausted)
  | faulty {format : Format} (parsed : format ≠ .tokens) (faulty : (parseWithin stack.nesting source).diagnostics ≠ []) :
      stack.Rendering source format (.error (.faults (parseWithin stack.nesting source).diagnostics))

theorem rendering (stack : Stack) (source : Text) (format : Format) :
    stack.Rendering source format (stack.render source format) := by
  by_cases parsed : format = .tokens
  · subst parsed
    exact .tokens
  · by_cases clear : (parseWithin stack.nesting source).diagnostics = []
    · rw [render_of_clear parsed clear, shown?]
      split
      · exact .shown parsed clear
      · exact .exhausted parsed clear
    · rw [render_of_faulty parsed clear]
      exact .faulty parsed clear

variable {stack : Stack} {format : Format}

theorem render_ok (rendered : stack.render source format = .ok text) :
    (format = .tokens ∨ (parseWithin stack.nesting source).diagnostics = []) ∧
      Mana.render stack.nesting source format = .ok text := by
  have ways := stack.rendering source format
  rw [rendered] at ways
  cases ways with
  | tokens => exact ⟨.inl rfl, rfl⟩
  | shown parsed clear => exact ⟨.inr clear, render_clear parsed clear⟩

theorem render_faults (refused : stack.render source format = .error (.faults faults)) :
    format ≠ .tokens ∧ (parseWithin stack.nesting source).diagnostics ≠ [] ∧
      faults = (parseWithin stack.nesting source).diagnostics := by
  have ways := stack.rendering source format
  rw [refused] at ways
  cases ways with
  | faulty parsed faulty => exact ⟨parsed, faulty, rfl⟩

/-- There is room to parse a source and to show its program in every format. -/
structure Suffices (stack : Stack) (source : Text) : Prop where
  unstruck : (parseWithin stack.nesting source).Unstruck
  spelling : stack.holds .spelling (parseWithin stack.nesting source).program = true
  outlining : stack.holds .outlining (parseWithin stack.nesting source).program = true

theorem Suffices.shown? (enough : stack.Suffices source) : stack.shown? (parseWithin stack.nesting source).program format =
    some ((parseWithin stack.nesting source).program.rendered format) := by
  cases format with
  | string | tokens => exact if_pos enough.spelling
  | json => exact if_pos enough.outlining

theorem Suffices.parse_eq {other : Stack} (enough : stack.Suffices source) (room : other.Suffices source) :
    parseWithin stack.nesting source = parseWithin other.nesting source := by
  rcases Nat.le_total stack.nesting other.nesting with fewer | fewer
  · exact (Parsed.ofStream_of_le enough.unstruck fewer).symm
  · exact Parsed.ofStream_of_le room.unstruck fewer

/-- Wherever there is room, a source is rendered alike. -/
theorem Suffices.render_eq {other : Stack} (enough : stack.Suffices source) (room : other.Suffices source) :
    stack.render source format = other.render source format := by
  have same := enough.parse_eq room
  by_cases parsed : format = .tokens
  · subst parsed
    rfl
  · by_cases clear : (parseWithin stack.nesting source).diagnostics = []
    · rw [render_of_clear parsed clear, render_of_clear parsed (same ▸ clear), enough.shown?, room.shown?, same]
    · rw [render_of_faulty parsed clear, render_of_faulty parsed (same ▸ clear), same]

end Stack

end Mana
