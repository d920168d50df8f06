import Mana.Proofs.Grammar.Complete.Expression
import Mana.Proofs.Grammar.Sound.Expression
import Mana.Proofs.Nesting.Limit
import Mana.Proofs.Token.Pieces

/-! The language that is accepted: sources whose tokens the grammar derives, and no others. -/
namespace Mana

namespace Parsed

open Grammar

variable {limit : Nat} {stream : TokenStream}

theorem strikes_iff :
    ((Grammar.program (expression .standard limit)).run stream).Strikes ↔
      ¬ (ofStream limit stream).Unstruck := by
  rw [run_ofStream, Step.strikes_done, Unstruck]
  simp only [ne_eq, not_forall, not_not, exists_prop]

/-- Words of the grammar are accepted, within every limit that they do not strike. -/
theorem diagnostics_eq_nil (derives : Derives [.part .program] stream.ahead)
    (unstruck : (ofStream limit stream).Unstruck) : (ofStream limit stream).diagnostics = [] := by
  rcases program_accepts limit derives with strikes | ⟨result, rest, ran, _⟩
  · exact absurd unstruck (strikes_iff.mp strikes)
  · rw [run_ofStream] at ran
    exact congrArg Step.found ran

/-- A stream that is accepted is a word of the grammar up to its end. -/
theorem derives_of_diagnostics (genuine : stream.Genuine) (clear : (ofStream limit stream).diagnostics = []) :
    Derives [.part .program] stream.ahead := by
  have unstruck : (ofStream limit stream).Unstruck := .of_nil clear
  cases program_judged limit stream with
  | struck strikes => exact absurd unstruck (strikes_iff.mp strikes)
  | rejects word offender more split viable rejects =>
    obtain ⟨fault, others, found⟩ := rejects more stream split
    rw [run_ofStream, clear] at found
    cases found
  | reads word result next more split member _ =>
    obtain ⟨statements, ended⟩ := member
    have whole : stream.ahead = word := by
      rcases List.append_eq_append_iff.mp split with ⟨longer, same, rest⟩ | ⟨longer, same, rest⟩
      · cases longer with
        | nil => simpa using same.symm
        | cons token longer =>
          have bound := congrArg List.length rest
          simp at bound
      · cases longer with
        | nil => simpa using same
        | cons token longer =>
          obtain ⟨rfl, _⟩ := List.cons.inj rest
          exact absurd ended (genuine next (by simp [same])).kind_ne_eof
    exact whole ▸ .part _ (List.mem_singleton.mpr rfl) statements

end Parsed

/-- A parse that does not strike the limit on nesting is free of diagnostics exactly if the grammar derives
the tokens of the source. -/
theorem accepted_iff_derived (limit : Nat) (source : Text) (unstruck : (parseWithin limit source).Unstruck) :
    (parseWithin limit source).diagnostics = [] ↔ Grammar.Derives [.part .program] (scan source).ahead :=
  ⟨Parsed.derives_of_diagnostics (scan_genuine source), fun derives =>
    Parsed.diagnostics_eq_nil derives unstruck⟩

/-- What the grammar can split in more than one way is accepted all the same. -/
theorem accepted_iff_derived_ambiguous :
    (parseWithin 9 "a (b) -c".toList).Unstruck ∧
      Grammar.Derives [.part .program] (scan "a (b) -c".toList).ahead := by
  have unstruck : (parseWithin 9 "a (b) -c".toList).Unstruck := by decide
  exact ⟨unstruck, (accepted_iff_derived 9 "a (b) -c".toList unstruck).mp rfl⟩

end Mana
