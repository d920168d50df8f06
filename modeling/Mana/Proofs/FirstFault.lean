import Mana.Proofs.Acceptance
import Mana.Proofs.Token.Cut

/-! The first diagnostic. It is located at the earliest token at which the source can no longer be
completed: the text before that token can be, and nothing that goes on with that token is accepted. -/
namespace Mana

namespace TokenStream

/-- The only token of the stream at the location is the one with the index. -/
def Locates (stream : TokenStream) (location : Location) (index : Nat) : Prop :=
  ∀ other, (∃ token, stream.tokens[other]? = some token ∧ token.location = location) ↔ other = index

theorem ahead_alike {stream other : TokenStream}
    (same : stream.tokens.map Token.lexeme = other.tokens.map Token.lexeme) :
    stream.ahead.map Token.lexeme = other.ahead.map Token.lexeme := by
  rw [tokens, tokens, List.map_append, List.map_append] at same
  exact (List.append_inj' same rfl).1

/-- A list that differs from the tokens of a stream in locations alone is the tokens of a stream. -/
theorem exists_of_alike {stream : TokenStream} {word : List Token}
    (same : word.map Token.lexeme = stream.tokens.map Token.lexeme) :
    ∃ other : TokenStream, other.tokens = word := by
  rw [tokens, List.map_append, List.map_eq_append_iff] at same
  obtain ⟨front, last, rfl, _, ended⟩ := same
  obtain ⟨token, rest, rfl, lexeme, empty⟩ := List.map_eq_cons_iff.mp ended
  obtain rfl := List.map_eq_nil_iff.mp empty
  obtain ⟨kind, literal⟩ := Prod.mk.inj lexeme
  obtain ⟨_, _, location⟩ := token
  cases kind
  cases literal
  exact ⟨ofList front location, rfl⟩

end TokenStream

/-- The only beginning of the source that ends at the location is the text. -/
def Text.Reaches (source : Text) (location : Location) (text : Text) : Prop :=
  ∀ beginning, (beginning <+: source ∧ Location.start.past beginning = location) ↔ beginning = text

/-- Where a token of a source is located, no other one is, and the text before it is known. -/
theorem scan_located {source : Text} (split : (scan source).tokens = word ++ token :: later) :
    (scan source).Locates token.location word.length ∧
      ∃ text, source.Reaches token.location text ∧ ∀ others, ∃ location,
        (scan (text ++ ' ' :: others)).tokens = word ++ (scanFrom location 0 others).tokens := by
  obtain ⟨front, back, divided, scanned, begins⟩ := exists_scanned split
  have cut (others) (fresh : Fresh others) := (scanned.behind fresh).tokens_append
  refine ⟨fun other => ⟨?_, ?_⟩, front, fun beginning => ⟨?_, ?_⟩, fun others =>
    ⟨(Location.start.past front).after ' ', ?_⟩⟩
  · intro holds
    obtain ⟨token', found, location⟩ := holds
    obtain ⟨bound, same⟩ := List.getElem?_eq_some_iff.mp found
    have split' : (scan source).tokens =
        (scan source).tokens.take other ++ token' :: (scan source).tokens.drop (other + 1) := by
      rw [← same, List.getElem_cons_drop, List.take_append_drop]
    obtain ⟨front', back', divided', scanned', begins'⟩ := exists_scanned split'
    have text : front' = front := Location.past_injective .start (divided'.symm.trans divided)
      (begins'.located.symm.trans (location.trans begins.located))
    subst text
    have tokens := (scanned'.behind .nil).tokens_append.symm.trans (cut [] .nil)
    have lengths := congrArg List.length (List.append_cancel_right tokens)
    rw [List.length_take] at lengths
    omega
  · rintro rfl
    exact ⟨token, by rw [split]; simp, rfl⟩
  · intro holds
    obtain ⟨⟨rest, divided'⟩, location⟩ := holds
    exact Location.past_injective .start (divided'.trans divided) (location.trans begins.located)
  · rintro rfl
    exact ⟨⟨back, divided.symm⟩, begins.located.symm⟩
  · rw [← scanFrom_space (c := ' ') (by decide)]
    exact cut _ (.space (by decide))

namespace Parsed

open Grammar

variable {limit : Nat} {stream : TokenStream} {diagnostic : Diagnostic} {others : List Diagnostic}

/-- The first diagnostic is at a token that is rejected, after a word that can be completed. -/
theorem rejected (unstruck : (ofStream limit stream).Unstruck)
    (found : (ofStream limit stream).diagnostics = diagnostic :: others) :
    ∃ word offender more, stream.tokens = word ++ offender :: more ∧ offender.location = diagnostic.location ∧
      (∃ completion, (∀ token ∈ completion, token.Genuine) ∧ Derives [.part .program] (word ++ completion)) ∧
      ∀ others, (Grammar.program (expression .standard limit)).Rejects .due (word ++ offender :: others)
        offender := by
  cases program_judged limit stream with
  | struck strikes => exact absurd unstruck (strikes_iff.mp strikes)
  | reads word result next more split _ reads =>
    obtain ⟨rest, ran, _⟩ := reads more stream split
    rw [run_ofStream, found] at ran
    cases congrArg Step.found ran
  | rejects word offender more split viable rejects =>
    obtain ⟨fault, later, complaint⟩ := rejects more stream split
    rw [run_ofStream, found] at complaint
    obtain ⟨rfl, _⟩ := List.cons.inj complaint
    obtain ⟨completion, _, _, genuine, statements, _⟩ := viable
    exact ⟨word, offender, more, split, rfl,
      ⟨completion, genuine, .part _ (List.mem_singleton.mpr rfl) statements⟩, rejects⟩

/-- No stream is accepted that begins with the kinds and literals of the tokens up to the first
diagnostic. -/
theorem not_accepted_beyond (unstruck : (ofStream limit stream).Unstruck)
    (found : (ofStream limit stream).diagnostics = diagnostic :: others)
    (located : stream.Locates diagnostic.location index) {other : TokenStream}
    (beginning : (stream.tokens.take (index + 1)).map Token.lexeme <+: other.tokens.map Token.lexeme) :
    ¬ Derives [.part .program] other.ahead := by
  intro derives
  obtain ⟨rest, split⟩ := beginning
  obtain ⟨front, back, divided, alike, _⟩ := List.map_eq_append_iff.mp split.symm
  have same : (stream.tokens.take (index + 1) ++ back).map Token.lexeme = other.tokens.map Token.lexeme := by
    rw [divided, List.map_append, List.map_append, alike]
  obtain ⟨spliced, tokens⟩ := TokenStream.exists_of_alike same
  have spliced_derives : Derives [.part .program] spliced.ahead :=
    derives.alike (TokenStream.ahead_alike (tokens ▸ same))
  have larger := ofStream_of_le unstruck (le_max_left limit (spliced.count + 1))
  have high : spliced.count < max limit (spliced.count + 1) := by omega
  obtain ⟨word, offender, more, split, location, _, rejects⟩ :=
    rejected (larger.symm ▸ unstruck) (larger.symm ▸ found)
  have here : word.length = index :=
    (located word.length).mp ⟨offender, by rw [split]; simp, location⟩
  have taken : stream.tokens.take (index + 1) = word ++ [offender] := by
    rw [split, ← here, List.take_append, List.take_of_length_le (Nat.le_succ _)]
    simp
  rw [taken, List.append_assoc] at tokens
  obtain ⟨fault, later, complaint⟩ := rejects back spliced tokens
  rw [run_ofStream, diagnostics_eq_nil spliced_derives (unstruck_of_count_lt high)] at complaint
  cases complaint

end Parsed

/-- Where a parse that does not strike the limit has a first diagnostic, that is at a token of the source
such that the text before it can be completed to one that is accepted, and no source is accepted whose
tokens begin with the same kinds and literals up to and including that token. The tokens include the one
at the end, so that a diagnostic there rules out sources with the same tokens. -/
theorem first_diagnostic_located (limit : Nat) (source : Text) (diagnostic : Diagnostic)
    (others : List Diagnostic) (unstruck : (parseWithin limit source).Unstruck)
    (found : (parseWithin limit source).diagnostics = diagnostic :: others) :
    ∃ index text, (scan source).Locates diagnostic.location index ∧
      source.Reaches diagnostic.location text ∧
      (∃ completion bound, ∀ limit, bound ≤ limit →
        (parseWithin limit (text ++ ' ' :: completion)).diagnostics = []) ∧
      ∀ limit other, ((scan source).tokens.take (index + 1)).map Token.lexeme <+:
          (scan other).tokens.map Token.lexeme →
        (parseWithin limit other).diagnostics ≠ [] := by
  obtain ⟨word, offender, more, split, location, ⟨completion, genuine, derives⟩, _⟩ :=
    Parsed.rejected unstruck found
  obtain ⟨located, text, reaches, cut⟩ := scan_located split
  rw [location] at located reaches
  refine ⟨word.length, text, located, reaches, ?_, fun limit other beginning clear => ?_⟩
  · obtain ⟨start, tokens⟩ := cut (spaced completion)
    refine ⟨spaced completion, (scan (text ++ ' ' :: spaced completion)).count + 1, fun limit bound => ?_⟩
    refine Parsed.diagnostics_eq_nil ?_ (Parsed.unstruck_of_count_lt bound)
    rw [TokenStream.ahead_eq_of_tokens tokens]
    apply derives.alike
    rw [List.map_append, List.map_append, scanFrom_spaced start genuine]
  · exact Parsed.not_accepted_beyond unstruck found located beginning
      (Parsed.derives_of_diagnostics (scan_genuine other) clear)

/-- The text before the missing equals sign can be completed. -/
theorem first_diagnostic_located_missing_assign :
    (parseWithin 9 "let x 5;".toList).diagnostics = [⟨.expected .assign .int, ⟨1, 7⟩⟩] ∧
      ∃ text, Text.Reaches "let x 5;".toList ⟨1, 7⟩ text ∧ ∃ completion bound, ∀ limit, bound ≤ limit →
        (parseWithin limit (text ++ ' ' :: completion)).diagnostics = [] := by
  have found : (parseWithin 9 "let x 5;".toList).diagnostics = [⟨.expected .assign .int, ⟨1, 7⟩⟩] :=
    rfl
  have unstruck : (parseWithin 9 "let x 5;".toList).Unstruck := by decide
  obtain ⟨_, text, _, reaches, completed, _⟩ := first_diagnostic_located 9 _ _ _ unstruck found
  exact ⟨found, text, reaches, completed⟩

end Mana
