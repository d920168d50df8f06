import Mana.Proofs.JsonOutput
import Mana.Proofs.Layout
import Mana.Proofs.Token.Composed
import Mana.Text.LineEnding

/-! Line endings. A carriage return is white space just as the newline that is read in its place, so that a text and
the one with newlines for its line endings have the same words. Right before a newline it does not move anything. -/
namespace Mana

namespace Text

/-- Every carriage return of the text comes right before a newline. -/
def Paired (text : Text) : Prop := ∀ index : Nat, text[index]? = some '\r' → text[index + 1]? = some '\n'

instance (text : Text) : Decidable text.Paired :=
  decidable_of_iff (∀ index < text.length, text[index]? = some '\r' → text[index + 1]? = some '\n')
    ⟨fun paired index here => paired index (List.getElem?_eq_some_iff.mp here).1 here, fun paired index _ => paired index⟩

theorem Paired.of_append {text rest : Text} (paired : (text ++ rest).Paired) : rest.Paired := by
  intro index here
  have next := paired (text.length + index)
  rw [List.getElem?_append_right (by omega), List.getElem?_append_right (by omega), Nat.add_assoc,
    Nat.add_sub_cancel_left, Nat.add_sub_cancel_left] at next
  exact next here

theorem Paired.head? {rest : Text} (paired : Paired ('\r' :: rest)) : rest.head? = some '\n' := by
  rw [List.head?_eq_getElem?]
  exact paired 0 rfl

theorem withNewlines_pair (rest : Text) : withNewlines ('\r' :: '\n' :: rest) = withNewlines ('\n' :: rest) := by
  simp [withNewlines]

theorem withNewlines_lone {rest : Text} (alone : rest.head? ≠ some '\n') :
    withNewlines ('\r' :: rest) = '\n' :: withNewlines rest := by
  cases rest with
  | nil => rfl
  | cons c rest =>
    have other : c ≠ '\n' := fun same => alone (congrArg some same)
    simp [withNewlines, other]

theorem withNewlines_cons {c : Char} (other : c ≠ '\r') (rest : Text) :
    withNewlines (c :: rest) = c :: withNewlines rest := by
  simp [withNewlines, other]

theorem withNewlines_append {text : Text} (none : '\r' ∉ text) (rest : Text) :
    withNewlines (text ++ rest) = text ++ withNewlines rest := by
  induction text with
  | nil => rfl
  | cons c text ih =>
    obtain ⟨other, none⟩ := not_or.mp (List.mem_cons.not.mp none)
    rw [List.cons_append, withNewlines_cons (Ne.symm other), ih none, List.cons_append]

theorem head?_withNewlines {text : Text} (first : text.withNewlines.head? = some c) :
    c = '\n' ∨ text.head? = some c := by
  cases text with
  | nil => cases first
  | cons d rest =>
    by_cases same : d = '\r'
    · subst same
      by_cases next : rest.head? = some '\n'
      · obtain ⟨rest, rfl⟩ := List.head?_eq_some_iff.mp next
        rw [withNewlines_pair, withNewlines_cons (by decide)] at first
        exact .inl (Option.some.inj first).symm
      · rw [withNewlines_lone next] at first
        exact .inl (Option.some.inj first).symm
    · rw [withNewlines_cons same] at first
      exact .inr first

theorem apart_withNewlines {text rest : Text} (apart : Apart kind text rest) : Apart kind text rest.withNewlines := by
  intro c first
  rcases head?_withNewlines first with rfl | before
  · exact apart_space (by decide) kind text [] _ rfl
  · exact apart c before

theorem beforeNul_withNewlines {text : Text} (ended : text.beforeNul = []) : text.withNewlines.beforeNul = [] := by
  cases text with
  | nil => rfl
  | cons c rest =>
    obtain rfl := nul_of_beforeNul ended
    rw [withNewlines_cons (by decide)]
    exact ended

/-- No word is changed by reading every line ending as a newline. -/
theorem lexemes_withNewlines (text : Text) : text.withNewlines.lexemes = text.lexemes := by
  induction text using Text.induct with
  | ended text ended =>
    rw [lexemes, lexemes, scan, scan, scanFrom_ended ended, scanFrom_ended (beforeNul_withNewlines ended)]
  | space c rest space ih =>
    rw [lexemes_space space, ← ih]
    by_cases same : c = '\r'
    · subst same
      by_cases next : rest.head? = some '\n'
      · obtain ⟨rest, rfl⟩ := List.head?_eq_some_iff.mp next
        rw [withNewlines_pair]
      · rw [withNewlines_lone next, lexemes_space (by decide)]
    · rw [withNewlines_cons same, lexemes_space space]
  | token kind text rest lexical apart ih =>
    have none : '\r' ∉ text := fun member => absurd (lexical.isSpace_of_mem member) (by decide)
    rw [withNewlines_append none, lexemes_lexical lexical (apart_withNewlines apart), lexemes_lexical lexical apart, ih]

end Text

/-- A carriage return before a newline is passed without a trace, since the newline begins the same line after it. -/
theorem scanFrom_pair (location : Location) (rest : Text) :
    scanFrom location 0 ('\r' :: '\n' :: rest) = scanFrom location 0 ('\n' :: rest) := by
  rw [scanFrom_space (by decide), scanFrom_space (by decide), scanFrom_space (by decide)]
  rfl

theorem scanFrom_withNewlines {text : Text} (paired : text.Paired) (location : Location) :
    scanFrom location 0 text.withNewlines = scanFrom location 0 text := by
  induction text using Text.induct generalizing location with
  | ended text ended => rw [scanFrom_ended ended, scanFrom_ended (Text.beforeNul_withNewlines ended)]
  | space c rest space ih =>
    have others : rest.Paired := @Text.Paired.of_append [c] rest paired
    by_cases same : c = '\r'
    · subst same
      obtain ⟨rest, rfl⟩ := List.head?_eq_some_iff.mp paired.head?
      rw [Text.withNewlines_pair, scanFrom_pair, ih others]
    · rw [Text.withNewlines_cons same, scanFrom_space space, scanFrom_space space, ih others]
  | token kind text rest lexical apart ih =>
    have none : '\r' ∉ text := fun member => absurd (lexical.isSpace_of_mem member) (by decide)
    rw [Text.withNewlines_append none, scanFrom_lexical lexical (Text.apart_withNewlines apart),
      scanFrom_lexical lexical apart, ih paired.of_append]

/-- With every line ending read as a newline, a source has tokens of the same kinds and literals, and is parsed into an
equal program with the same text and document, and with the same messages. If all its carriage returns come before
newlines, not even a location differs. -/
theorem line_endings_irrelevant (limit : Nat) (source : Text) :
    (scan source.withNewlines).tokens.map Token.lexeme = (scan source).tokens.map Token.lexeme ∧
      (parseWithin limit source.withNewlines).program.agrees (parseWithin limit source).program = true ∧
      (∃ text, (parseWithin limit source.withNewlines).program.spelled = .ok text ∧
        (parseWithin limit source).program.spelled = .ok text) ∧
      (parseWithin limit source.withNewlines).program.outline.json = (parseWithin limit source).program.outline.json ∧
      (parseWithin limit source.withNewlines).diagnostics.map Diagnostic.message =
        (parseWithin limit source).diagnostics.map Diagnostic.message ∧
      (source.Paired → (scan source.withNewlines).tokens = (scan source).tokens ∧
        parseWithin limit source.withNewlines = parseWithin limit source) := by
  have same : (scan source).tokens.map Token.lexeme = (scan source.withNewlines).tokens.map Token.lexeme := by
    rw [TokenStream.tokens, TokenStream.tokens, List.map_append, List.map_append]
    exact congrArg (· ++ [(Kind.eof, [])]) source.lexemes_withNewlines.symm
  have reports := (Parsed.ofStream_closed limit (scan_closed same) (scan_abreast same)).2
  have alike : (parseWithin limit source.withNewlines).program.Says (parseWithin limit source).program :=
    Parsed.program_closed limit (scan_closed same) (scan_abreast same)
  have fits : (parseWithin limit source).program.Fits .program := Parsed.program_fits (scan_genuine source)
  have fits' : (parseWithin limit source.withNewlines).program.Fits .program := Parsed.program_fits (scan_genuine _)
  have documents := Node.json_eq_iff (program_typed limit source.withNewlines) (program_typed limit source)
  refine ⟨same.symm, alike.agrees, ⟨_, fits'.spelled, ?_⟩, documents.mpr alike.agrees, ?_, fun paired => ?_⟩
  · rw [fits.spelled, alike.source]
  · have messages := reports.imp fun _ _ report => congrArg Fault.message report.fault.symm
    exact (List.forall₂_eq_eq_eq ▸ List.forall₂_map_left_iff.mpr (List.forall₂_map_right_iff.mpr messages)).symm
  · have still : scan source.withNewlines = scan source := scanFrom_withNewlines paired .start
    rw [parseWithin, parseWithin, still]
    exact ⟨rfl, rfl⟩

/-- A missing equals sign and a stray parenthesis are reported on the lines on which they are. -/
theorem line_endings_irrelevant_paired :
    Text.Paired "let x\r\n5;\r\n)".toList ∧
      parseWithin 9 "let x\n5;\n)".toList = parseWithin 9 "let x\r\n5;\r\n)".toList ∧
      (parseWithin 9 "let x\r\n5;\r\n)".toList).diagnostics =
        [⟨.expected .assign .int, ⟨2, 1⟩⟩, ⟨.noOpening .rparen, ⟨3, 1⟩⟩] := by
  have paired : Text.Paired "let x\r\n5;\r\n)".toList := by decide
  obtain ⟨_, _, _, _, _, located⟩ := line_endings_irrelevant 9 "let x\r\n5;\r\n)".toList
  exact ⟨paired, (located paired).2, rfl⟩

end Mana
