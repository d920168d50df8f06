import Mana.Proofs.Acceptance
import Mana.Proofs.Grammar.Restore.Expression

/-! Printing and parsing. The text of a well-formed tree is parsed into a tree that says the same, and
whatever is parsed, even from a broken source, is a well-formed tree. -/
namespace Mana

namespace Parsed

open Grammar

variable {limit : Nat}

/-- What is parsed from genuine tokens is well formed, however many faults are found on the way. -/
theorem program_fits {stream : TokenStream} (genuine : stream.Genuine) :
    (ofStream limit stream).program.Fits .program := by
  obtain ⟨word, formed, among, _⟩ := exists_formed limit stream
  rw [program_eq]
  exact ⟨rfl, formed.fits fun token member => genuine token (among.subset member)⟩

/-- The text of a well-formed tree is free of faults, and is parsed into a tree that says the same. -/
theorem restores {tree : Node} (fits : tree.Fits .program)
    (unstruck : (parseWithin limit tree.source).Unstruck) :
    (parseWithin limit tree.source).diagnostics = [] ∧ (parseWithin limit tree.source).program.Says tree := by
  have spells : (scan tree.source).Spells tree.source := ⟨.start, rfl⟩
  rcases program_restores limit fits spells with strikes | ⟨node, rest, ran, alike⟩
  · exact absurd unstruck (strikes_iff.mp strikes)
  · have parsed : parseWithin limit tree.source = ⟨node, [], rest⟩ := by rw [parseWithin, ofStream, ran]
    rw [parsed]
    exact ⟨rfl, alike⟩

/-- The text of a well-formed tree is free of faults, and is parsed into an equal tree with the same text. -/
theorem restored {tree : Node} (fits : tree.Fits .program)
    (unstruck : (parseWithin limit tree.source).Unstruck) :
    (parseWithin limit tree.source).diagnostics = [] ∧
      (parseWithin limit tree.source).program.agrees tree = true ∧
      (parseWithin limit tree.source).program.spelled = .ok tree.source := by
  obtain ⟨clear, alike⟩ := restores fits unstruck
  have again : (parseWithin limit tree.source).program.Fits .program := program_fits (scan_genuine tree.source)
  exact ⟨clear, alike.agrees, again.spelled.trans (congrArg Except.ok alike.source)⟩

end Parsed

/-- The text of what is parsed from any source is a fixed point: unless it nests too deeply, it is parsed
without a diagnostic into an equal tree, whose text is the same. -/
theorem printed_fixed (limit again : Nat) (source : Text) :
    ∃ text, (parseWithin limit source).program.spelled = .ok text ∧
      ((parseWithin again text).Unstruck →
        (parseWithin again text).diagnostics = [] ∧
          (parseWithin again text).program.agrees (parseWithin limit source).program = true ∧
          (parseWithin again text).program.spelled = .ok text) := by
  have fits : (parseWithin limit source).program.Fits .program := Parsed.program_fits (scan_genuine source)
  exact ⟨_, fits.spelled, Parsed.restored fits⟩

/-- The text of what is left of a broken source is parsed without a diagnostic. -/
theorem printed_fixed_broken :
    (parseWithin 9 "let x 5; fn(a) \x7b 1 +; -a(b) * c \x7d".toList).diagnostics.length = 2 ∧
      (parseWithin 9 "let x 5; fn(a) \x7b 1 +; -a(b) * c \x7d".toList).program.spelled =
        .ok "fn(a) \x7b ((-a(b)) * c); \x7d;".toList ∧
      (parseWithin 9 "fn(a) \x7b ((-a(b)) * c); \x7d;".toList).diagnostics = [] := by
  have spelled : (parseWithin 9 "let x 5; fn(a) \x7b 1 +; -a(b) * c \x7d".toList).program.spelled =
      .ok "fn(a) \x7b ((-a(b)) * c); \x7d;".toList := rfl
  obtain ⟨text, same, fixed⟩ := printed_fixed 9 9 "let x 5; fn(a) \x7b 1 +; -a(b) * c \x7d".toList
  cases spelled.symm.trans same
  exact ⟨rfl, spelled, (fixed (by decide)).1⟩

/-- Every well-formed tree has a text that is parsed without a diagnostic into an equal tree, within every
limit on nesting that is large enough. -/
theorem printed_restored (tree : Node) (fits : tree.Fits .program) :
    ∃ text, tree.spelled = .ok text ∧ ∃ bound, ∀ limit, bound ≤ limit →
      (parseWithin limit text).diagnostics = [] ∧ (parseWithin limit text).program.agrees tree = true := by
  refine ⟨_, fits.spelled, (scan tree.source).count + 1, fun limit bound => ?_⟩
  obtain ⟨clear, agrees, _⟩ := Parsed.restored fits (Parsed.unstruck_of_count_lt bound)
  exact ⟨clear, agrees⟩

/-- A conditional that is called, and an integer that keeps its zeros. -/
theorem printed_restored_called :
    ∃ bound, ∀ limit, bound ≤ limit →
      (parseWithin limit "if (true) \x7b return x; \x7d((-007));".toList).diagnostics = [] ∧
        (parseWithin limit "if (true) \x7b return x; \x7d((-007));".toList).program.agrees
          (.program none [.expressionStatement none (.call none
            (.conditional none (.boolean none true)
              (.block none [.returnStatement none (.identifier none "x".toList)]) none)
            [.unary none "-".toList (.integer (some ⟨.int, "007".toList, ⟨1, 1⟩⟩) 7)])]) = true := by
  have name : IsName "x".toList := ⟨by decide, List.all_eq_true.mp rfl, rfl⟩
  have numeral : IsNumeral "007".toList 7 := ⟨List.all_eq_true.mp rfl, by decide, 7, rfl, rfl⟩
  have condition : Node.Fits (.conditional none (.boolean none true)
      (.block none [.returnStatement none (.identifier none "x".toList)]) none) .expression :=
    ⟨rfl, rfl, ⟨rfl, ⟨rfl, .inr rfl, name⟩, trivial⟩, trivial⟩
  have argument : Node.Fits
      (.unary none "-".toList (.integer (some ⟨.int, "007".toList, ⟨1, 1⟩⟩) 7)) .expression :=
    ⟨rfl, by decide, rfl, by decide, by decide, by rintro _ ⟨⟩; exact numeral⟩
  obtain ⟨text, spelled, restored⟩ :=
    printed_restored (.program none [.expressionStatement none (.call none _ [_])])
    ⟨rfl, ⟨rfl, rfl, condition, argument, trivial⟩, trivial⟩
  cases spelled
  exact restored

end Mana
