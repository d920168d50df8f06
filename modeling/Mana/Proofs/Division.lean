import Mana.Proofs.Token.Joined
import Mana.Proofs.Token.Leads

/-! The division of a source into words. White space may stand anywhere between them, each word is of the class of
its kind and as long as it can be, and no source has more than one such division. -/
namespace Mana

/-- A text divided into words, with white space before, between and after them. Nothing that follows a word would
have made its token longer. -/
inductive Divided : List Word → Text → Prop where
  | blank (spaces : ∀ c ∈ blank, isSpace c = true) : Divided [] blank
  | word (spaces : ∀ c ∈ blank, isSpace c = true) (lexical : Lexical kind text) (apart : Apart kind text rest)
      (others : Divided words rest) : Divided ((kind, text) :: words) (blank ++ (text ++ rest))

namespace Divided

theorem space (space : isSpace c = true) (divided : Divided words text) : Divided words (c :: text) := by
  cases divided with
  | blank spaces => exact .blank (List.forall_mem_cons.mpr ⟨space, spaces⟩)
  | word spaces lexical apart others =>
    rw [← List.cons_append]
    exact .word (List.forall_mem_cons.mpr ⟨space, spaces⟩) lexical apart others

/-- The words of a division are what a scan finds. -/
theorem scanned (divided : Divided words text) (location : Location) :
    (scanFrom location 0 text).ahead.map Token.lexeme = words := by
  induction divided generalizing location with
  | @blank blank spaces =>
    have only := scanFrom_blank spaces location []
    rw [List.append_nil] at only
    rw [only]
    rfl
  | word spaces lexical apart _ ih =>
    rw [scanFrom_blank spaces, scanFrom_lexical lexical apart]
    exact congrArg (_ :: ·) (ih _)

end Divided

/-- A scan divides all that comes before the first NUL. -/
theorem scanFrom_divided (location : Location) (text : Text) :
    Divided ((scanFrom location 0 text).ahead.map Token.lexeme) text.beforeNul := by
  induction text using Text.induct generalizing location with
  | ended text ended =>
    rw [scanFrom_ended ended, ended]
    exact .blank (by simp)
  | space c rest space ih =>
    rw [scanFrom_space space, Text.beforeNul_space space]
    exact (ih _).space space
  | token kind text rest lexical apart ih =>
    rw [scanFrom_lexical lexical apart, Text.beforeNul_append lexical.nul_not_mem]
    have apart' : Apart kind text rest.beforeNul := fun c first => apart c (Text.head?_of_beforeNul first)
    have none : ∀ c ∈ ([] : Text), isSpace c = true := by simp
    exact .word none lexical apart' (ih _)

/-- The tokens of a source end with the only one that marks an end. The words of those before it divide the source
up to its first NUL, and no other words do. -/
theorem scan_divided (source : Text) :
    ∃ words, (scan source).tokens.map Token.lexeme = words ++ [(.eof, [])] ∧ .eof ∉ words.map Prod.fst ∧
      ∀ others, Divided others source.beforeNul ↔ others = words := by
  refine ⟨source.lexemes, ?_, ?_, fun others => ⟨fun divided => ?_, ?_⟩⟩
  · rw [TokenStream.tokens, List.map_append]
    rfl
  · intro ended
    simp only [Text.lexemes, List.map_map, List.mem_map] at ended
    obtain ⟨token, member, kind⟩ := ended
    exact (scan_genuine source token member).kind_ne_eof kind
  · exact (divided.scanned .start).symm.trans ((scanFrom_divided .start source).scanned .start)
  · rintro rfl
    exact scanFrom_divided .start source

end Mana
