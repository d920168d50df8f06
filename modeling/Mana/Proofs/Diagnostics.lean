import Mana.Proofs.Acceptance
import Mana.Proofs.Text.Numeral
import Mana.Proofs.Token.Cut

/-! Diagnostics. What a diagnostic says is so of the token at which it is located, and diagnostics follow each other
as their tokens do. -/
namespace Mana

/-- What a fault says is so of a token. The limit on nesting and remarks say nothing of a token. -/
def Fault.TrueOf : Fault → Token → Prop
  | .expected wanted found, token => found = token.kind ∧ wanted ≠ token.kind
  | .noOpening found, token => found = token.kind ∧ Grammar.Rules.standard.opening token.kind = none
  | .badInteger literal, token => token.kind = .int ∧ literal = token.literal ∧
      (4300 < literal.length ∨ ∃ value, Numeral.read? literal = some value ∧ 0x7fffffffffffffff < value)
  | .tooDeep, _ => False
  | .remark _, _ => False

/-- An integer that is not read is too long, or its value is too large. -/
theorem Grammar.integerValue?_eq_none (digits : ∀ c ∈ text, isDigit c = true) (visible : text ≠ [])
    (unread : integerValue? text = none) :
    4300 < text.length ∨ ∃ value, Numeral.read? text = some value ∧ 0x7fffffffffffffff < value := by
  obtain ⟨value, read⟩ := Numeral.read?_of_isDigit digits visible
  unfold integerValue? at unread
  split at unread
  · rw [read, Option.filter_eq_none_iff] at unread
    have high := unread value rfl
    simp only [decide_eq_true_eq] at high
    exact .inr ⟨value, read, by omega⟩
  · rename_i long
    exact .inl (Nat.lt_of_not_le long)

theorem Fault.RaisedAt.trueOf {fault : Fault} {token : Token} (raised : fault.RaisedAt token)
    (genuine : token.kind ≠ .eof → token.Genuine) : fault.TrueOf token := by
  cases raised with
  | expected other => exact ⟨rfl, other.symm⟩
  | noOpening none => exact ⟨rfl, none⟩
  | badInteger kind unread =>
    have lexical : Lexical .int token.literal := kind ▸ genuine (by rw [kind]; decide)
    obtain ⟨visible, digits⟩ := lexical.digits_of_int
    exact ⟨kind, rfl, Grammar.integerValue?_eq_none digits visible unread⟩

/-- What a parse finds wrong that does not strike the limit is a trail along its tokens. -/
theorem Parsed.trail {limit : Nat} {stream : TokenStream} (unstruck : (ofStream limit stream).Unstruck) :
    Trail stream (ofStream limit stream).diagnostics (ofStream limit stream).rest := by
  induction stream using induct limit with
  | ended stream ended =>
    obtain ⟨_, rest, nothing⟩ := run_of_ended limit ended
    rw [rest, nothing]
    exact .clear (.refl stream)
  | done stream rest node found going _ ran ih =>
    obtain ⟨_, last, split⟩ := run_of_item (Grammar.Program.round_done going ran)
    have proceeds := ((Grammar.expression_ensures limit).statement stream).toProceeds
    rw [ran] at proceeds
    rw [last, split]
    exact proceeds.trail.append (ih (unstruck.of_append split))
  | failed stream rest found going _ ran ih =>
    obtain ⟨_, last, split⟩ := run_of_nothing (Grammar.Program.round_failed going ran)
    have proceeds := ((Grammar.expression_ensures limit).statement stream).toProceeds
    rw [ran] at proceeds
    rw [last, split]
    have trail := proceeds.trail.later (Grammar.recovered_within stream [] rest).both_advanced
    exact trail.append (ih (unstruck.of_append split))
  | struck stream rest found going _ ran => exact absurd unstruck (not_unstruck going ran)

/-- Every diagnostic of a parse that does not strike the limit on nesting is located at a token of the source, maybe
the one at the end, of which it is true. No diagnostic is located before an earlier one. -/
theorem diagnostics_truthful (limit : Nat) (source : Text) (unstruck : (parseWithin limit source).Unstruck) :
    (∀ diagnostic ∈ (parseWithin limit source).diagnostics, ∃ token ∈ (scan source).tokens,
        diagnostic.location = token.location ∧ diagnostic.fault.TrueOf token) ∧
      ((parseWithin limit source).diagnostics.map Diagnostic.location).Pairwise
        fun earlier later => earlier = later ∨ earlier.Precedes later := by
  have trail := Parsed.trail unstruck
  refine ⟨fun diagnostic member => ?_, trail.ordered (scanFrom_increasing .start source)⟩
  obtain ⟨place, within, raised, here⟩ := trail.raised_of_mem member
  have genuine : place.Genuine := (scan_genuine source).within within
  exact ⟨place.current, within.current_mem, here, raised.trueOf genuine.current⟩

/-- A name, an integer, an expression and a parenthesis are missing, the last one at the end. -/
theorem diagnostics_truthful_missing :
    (parseWithin 9 "let 5; x\n9223372036854775808 ) if".toList).diagnostics =
        [⟨.expected .ident .int, ⟨1, 5⟩⟩, ⟨.badInteger "9223372036854775808".toList, ⟨2, 1⟩⟩,
          ⟨.noOpening .rparen, ⟨2, 21⟩⟩, ⟨.expected .lparen .eof, ⟨2, 25⟩⟩] ∧
      ∃ token ∈ (scan "let 5; x\n9223372036854775808 ) if".toList).tokens,
        token.location = ⟨2, 1⟩ ∧ (Fault.badInteger "9223372036854775808".toList).TrueOf token := by
  have found : (parseWithin 9 "let 5; x\n9223372036854775808 ) if".toList).diagnostics =
      [⟨.expected .ident .int, ⟨1, 5⟩⟩, ⟨.badInteger "9223372036854775808".toList, ⟨2, 1⟩⟩,
        ⟨.noOpening .rparen, ⟨2, 21⟩⟩, ⟨.expected .lparen .eof, ⟨2, 25⟩⟩] := by
    decide
  have unstruck : (parseWithin 9 "let 5; x\n9223372036854775808 ) if".toList).Unstruck := by decide
  have member : (⟨.badInteger "9223372036854775808".toList, ⟨2, 1⟩⟩ : Diagnostic) ∈
      (parseWithin 9 "let 5; x\n9223372036854775808 ) if".toList).diagnostics := by
    rw [found]
    decide
  obtain ⟨token, among, here, holds⟩ := (diagnostics_truthful 9 _ unstruck).1 _ member
  exact ⟨found, token, among, here.symm, holds⟩

end Mana
