import Mana.Proofs.Grammar.Parsed
import Mana.Proofs.Nesting.Refinement

/-! The limit on nesting. A limit that is not struck changes nothing, and the tokens ahead bound how deeply
expressions can nest, so that a limit above their number is never struck. -/
namespace Mana.Parsed

open Grammar

/-- A limit that is not struck might as well be larger. -/
theorem ofStream_of_le (unstruck : (ofStream limit stream).Unstruck) {larger : Nat} (fewer : limit ≤ larger) :
    ofStream larger stream = ofStream limit stream := by
  have shallow : ¬ ((Grammar.program (expression .standard limit)).run stream).Strikes := by
    rw [run_ofStream, Step.strikes_done]
    exact fun ⟨diagnostic, member, deep⟩ => unstruck diagnostic member deep
  rw [ofStream, ← program_eq_of_unstruck fewer shallow]
  rfl

/-- A limit above the number of tokens is never struck. -/
theorem unstruck_of_count_lt {stream : TokenStream} (enough : stream.count < limit) :
    (ofStream limit stream).Unstruck := by
  have shallow {stream rest : TokenStream} {found : List Diagnostic} {outcome : Outcome Node}
      (ran : (statement (expression .standard limit)).run stream = ⟨outcome, rest, found⟩) :
      ∀ diagnostic ∈ found, diagnostic.fault ≠ .tooDeep := by
    have own := (expression_ensures limit).statement stream
    rw [ran] at own
    exact own.shallow
  induction stream using induct limit with
  | ended stream ended => exact .of_nil (ofStream_ended limit ended).2
  | done stream rest node found going within ran ih =>
    rw [Unstruck, (ofStream_done going ran).2]
    exact List.forall_mem_append.mpr
      ⟨shallow ran, ih (Nat.lt_trans (within.advanced_count_lt (TokenStream.count_pos going)) enough)⟩
  | failed stream rest found going within ran ih =>
    rw [Unstruck, (ofStream_failed going ran).2]
    exact List.forall_mem_append.mpr
      ⟨shallow ran, ih (Nat.lt_trans (recovered_shorter stream [] within going) enough)⟩
  | struck stream rest found going within ran ih =>
    have unstruck := ((expression_ensures limit).statement _).unstruck enough
    exact absurd (ran ▸ Step.strikes_struck) unstruck

end Mana.Parsed
