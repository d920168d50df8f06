import Mana.Proofs.FirstFault
import Mana.Proofs.Grammar.Tracked.Closed
import Mana.Proofs.Printing

/-! Layout. Sources whose tokens differ in nothing but their locations are parsed alike, whatever is wrong with them:
what a parse tells, and at which token, does not depend on white space or on what comes after a NUL. -/
namespace Mana

/-- What is read of a text, but for its white space. -/
def Text.inked (text : Text) : Text := text.beforeNul.filter fun c => !isSpace c

/-- No token holds white space. -/
theorem Lexical.isSpace_of_mem (lexical : Lexical kind text) (member : c ∈ text) : isSpace c = false := by
  cases lexical with
  | word letters => exact (isLetter_visible (letters c member)).2.1
  | digits digits => exact (isDigit_visible (digits c member)).2.1
  | symbol found =>
    obtain rfl := List.mem_singleton.mp member
    exact (Kind.ofSymbol?_visible found).2.1
  | illegal _ visible =>
    obtain rfl := List.mem_singleton.mp member
    exact visible
  | assign | bang =>
    obtain rfl := List.mem_singleton.mp member
    rfl
  | eq | notEq =>
    simp only [List.mem_cons, List.not_mem_nil, or_false] at member
    rcases member with rfl | rfl <;> rfl

theorem scanFrom_inked (location : Location) (text : Text) :
    (scanFrom location 0 text).ahead.flatMap Token.literal = text.inked := by
  induction text using Text.induct generalizing location with
  | ended text ended =>
    rw [scanFrom_ended ended, Text.inked, ended]
    rfl
  | space c rest space ih =>
    rw [scanFrom_space space, ih, Text.inked, Text.inked, Text.beforeNul_space space, List.filter_cons_of_neg]
    simp [space]
  | token kind text rest lexical apart ih =>
    have visible : text.filter (fun c => !isSpace c) = text :=
      List.filter_eq_self.mpr fun c member => by rw [lexical.isSpace_of_mem member]; rfl
    rw [scanFrom_lexical lexical apart, Text.inked, Text.beforeNul_append lexical.nul_not_mem, List.filter_append,
      visible]
    exact congrArg (text ++ ·) (ih _)

namespace TokenStream

variable {stream other : TokenStream}

/-- Locations belong together if they are those of tokens with the same index. -/
def indexed (stream other : TokenStream) : Pairing where
  located location location' := ∃ index, stream.Locates location index ∧ other.Locates location' index
  stop := stream.stop
  beyond := .ofList [] other.stop

end TokenStream

theorem scan_locates {source : Text} (here : (scan source).tokens[index]? = some token) :
    (scan source).Locates token.location index := by
  obtain ⟨bound, rfl⟩ := List.getElem?_eq_some_iff.mp here
  have split : (scan source).tokens =
      (scan source).tokens.take index ++ (scan source).tokens[index] :: (scan source).tokens.drop (index + 1) := by
    rw [List.getElem_cons_drop, List.take_append_drop]
  have located := (scan_located split).1
  rwa [List.length_take_of_le (Nat.le_of_lt bound)] at located

section

variable {first second : Text}
  (same : (scan first).tokens.map Token.lexeme = (scan second).tokens.map Token.lexeme)
include same

/-- Tokens with the same index are the same, but for their locations. -/
theorem scan_indexed {index : Nat} {token token' : Token} (here : (scan first).tokens[index]? = some token)
    (there : (scan second).tokens[index]? = some token') :
    ((scan first).indexed (scan second)).Pairs token token' := by
  have lexemes : ((scan first).tokens.map Token.lexeme)[index]? = ((scan second).tokens.map Token.lexeme)[index]? := by
    rw [same]
  rw [List.getElem?_map, List.getElem?_map, here, there] at lexemes
  obtain ⟨kind, literal⟩ := Prod.mk.inj (Option.some.inj lexemes)
  exact ⟨kind.symm, literal.symm, index, scan_locates here, scan_locates there⟩

theorem scan_closed : ((scan first).indexed (scan second)).Closed := by
  have lengths := congrArg List.length (TokenStream.ahead_alike same)
  rw [List.length_map, List.length_map] at lengths
  have final : (scan second).tokens[(scan first).ahead.length]? = some (scan second).final := by
    rw [lengths]
    exact List.getElem?_concat_length
  exact ⟨rfl, (scan_indexed same List.getElem?_concat_length final).located⟩

/-- The tokens of both sources belong together one by one. -/
theorem scan_abreast : ((scan first).indexed (scan second)).Abreast (scan first) (scan second) := by
  have lengths := congrArg List.length (TokenStream.ahead_alike same)
  rw [List.length_map, List.length_map] at lengths
  refine (scan_closed same).abreast (List.forall₂_iff_get.mpr ⟨lengths, fun index before before' => ?_⟩) rfl rfl
  apply scan_indexed same
  · rw [TokenStream.tokens, List.getElem?_append_left before]
    exact List.getElem?_eq_getElem before
  · rw [TokenStream.tokens, List.getElem?_append_left before']
    exact List.getElem?_eq_getElem before'

/-- There is nothing but white space by which the sources can differ before their ends. -/
theorem inked_eq : first.inked = second.inked := by
  have literals := congrArg (List.flatMap Prod.snd) (TokenStream.ahead_alike same)
  rw [List.flatMap_map, List.flatMap_map] at literals
  exact (scanFrom_inked .start first).symm.trans (literals.trans (scanFrom_inked .start second))

end

/-- Sources with the same kinds and literals of tokens, which therefore differ in white space and behind a NUL only,
are parsed into equal programs with the same text, and with the same messages, each at tokens of the same index. -/
theorem layout_irrelevant (limit : Nat) (first second : Text)
    (same : (scan first).tokens.map Token.lexeme = (scan second).tokens.map Token.lexeme) :
    first.inked = second.inked ∧
      (parseWithin limit first).program.agrees (parseWithin limit second).program = true ∧
      (∃ text, (parseWithin limit first).program.spelled = .ok text ∧
        (parseWithin limit second).program.spelled = .ok text) ∧
      (parseWithin limit first).diagnostics.map Diagnostic.message =
        (parseWithin limit second).diagnostics.map Diagnostic.message ∧
      List.Forall₂ (fun diagnostic other => ∃ index,
          (scan first).Locates diagnostic.location index ∧ (scan second).Locates other.location index)
        (parseWithin limit first).diagnostics (parseWithin limit second).diagnostics := by
  have reports := (Parsed.ofStream_closed limit (scan_closed same) (scan_abreast same)).2
  have alike : (parseWithin limit first).program.Says (parseWithin limit second).program :=
    Parsed.program_closed limit (scan_closed same.symm) (scan_abreast same.symm)
  have fits : (parseWithin limit first).program.Fits .program := Parsed.program_fits (scan_genuine first)
  have fits' : (parseWithin limit second).program.Fits .program := Parsed.program_fits (scan_genuine second)
  refine ⟨inked_eq same, alike.agrees, ⟨_, fits.spelled, ?_⟩, ?_, ?_⟩
  · rw [fits'.spelled, alike.source]
  · have messages := reports.imp fun _ _ report => congrArg Fault.message report.fault.symm
    exact List.forall₂_eq_eq_eq ▸ List.forall₂_map_left_iff.mpr (List.forall₂_map_right_iff.mpr messages)
  · exact reports.imp fun _ _ report => report.located

/-- A missing equals sign and a statement that nests too deeply are reported at the same tokens, whatever comes
between them and behind the NUL. -/
theorem layout_irrelevant_lines :
    (scan "let x 5; ((((a; b".toList).tokens.map Token.lexeme =
        (scan "let\nx\t5 ;( ( ((a;\r\nb\x00 c )".toList).tokens.map Token.lexeme ∧
      (parseWithin 3 "let x 5; ((((a; b".toList).program.agrees
        (parseWithin 3 "let\nx\t5 ;( ( ((a;\r\nb\x00 c )".toList).program = true ∧
      (parseWithin 3 "let x 5; ((((a; b".toList).diagnostics =
        [⟨.expected .assign .int, ⟨1, 7⟩⟩, ⟨.tooDeep, ⟨1, 10⟩⟩] ∧
      (parseWithin 3 "let\nx\t5 ;( ( ((a;\r\nb\x00 c )".toList).diagnostics =
        [⟨.expected .assign .int, ⟨2, 3⟩⟩, ⟨.tooDeep, ⟨2, 6⟩⟩] := by
  have same : (scan "let x 5; ((((a; b".toList).tokens.map Token.lexeme =
      (scan "let\nx\t5 ;( ( ((a;\r\nb\x00 c )".toList).tokens.map Token.lexeme := by decide +kernel
  obtain ⟨_, agrees, _⟩ := layout_irrelevant 3 _ _ same
  exact ⟨same, agrees, by decide +kernel, by decide +kernel⟩

end Mana
