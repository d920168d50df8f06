import Mana.Proofs.Token.Trail

/-! Tokens by their index in a stream. -/
namespace Mana

namespace TokenStream

variable {rest stream other : TokenStream} {found : Token}

/-- The token at an index, where the end of the tokens repeats for ever. -/
def tokenAt (stream : TokenStream) (index : Nat) : Token := stream.ahead[index]?.getD stream.final

/-- The first tokens, as many as given. -/
def firsts (stream : TokenStream) (number : Nat) : List Token := (List.range number).map stream.tokenAt

theorem current_eq_token (stream : TokenStream) : stream.current = stream.tokenAt 0 := by
  rw [current, tokenAt, List.head?_eq_getElem?]

theorem upcoming_eq_token (stream : TokenStream) : stream.upcoming = stream.tokenAt 1 := by
  rw [upcoming, tokenAt, List.head?_eq_getElem?, List.getElem?_tail]

theorem token_of_lt (within : index < stream.ahead.length) : stream.tokenAt index = stream.ahead[index] := by
  rw [tokenAt, List.getElem?_eq_getElem within, Option.getD_some]

theorem token_of_le (beyond : stream.count ≤ index) : stream.tokenAt index = stream.final := by
  rw [tokenAt, List.getElem?_eq_none (stream.count_eq ▸ beyond), Option.getD_none]

theorem tokenAt_advanced (stream : TokenStream) (index : Nat) :
    stream.advanced.tokenAt index = stream.tokenAt (index + 1) := by
  rw [tokenAt, tokenAt, advanced, List.getElem?_tail]
  rfl

theorem getElem?_tokens (stream : TokenStream) (index : Nat) :
    stream.tokens[min index stream.count]? = some (stream.tokenAt index) := by
  rcases Nat.lt_or_ge index stream.count with before | beyond
  · rw [Nat.min_eq_left (Nat.le_of_lt before), tokens, List.getElem?_append_left (stream.count_eq ▸ before),
      token_of_lt (stream.count_eq ▸ before), List.getElem?_eq_getElem]
  · rw [Nat.min_eq_right beyond, token_of_le beyond, stream.count_eq, tokens, List.getElem?_concat_length]

theorem exists_token (member : found ∈ stream.tokens) : ∃ index, found = stream.tokenAt index := by
  rcases List.mem_append.mp member with ahead | final
  · obtain ⟨index, within, rfl⟩ := List.mem_iff_getElem.mp ahead
    exact ⟨index, (token_of_lt within).symm⟩
  · exact ⟨stream.count, by rw [token_of_le (Nat.le_refl _), List.mem_singleton.mp final]⟩

/-- The tokens of a later stream are those of the earlier one, from as many on as were passed. -/
theorem Within.tokenAt (within : rest.Within stream) (index : Nat) :
    rest.tokenAt index = stream.tokenAt (stream.count - rest.count + index) := by
  obtain ⟨before, split⟩ := within.ahead
  have passed : stream.count - rest.count = before.length := by
    rw [stream.count_eq, rest.count_eq, ← split, List.length_append, Nat.add_sub_cancel]
  rw [TokenStream.tokenAt, TokenStream.tokenAt, passed, ← split, List.getElem?_append_right (Nat.le_add_right _ _),
    Nat.add_sub_cancel_left, final, final, within.stop]

theorem mem_firsts : found ∈ stream.firsts number ↔ ∃ index < number, found = stream.tokenAt index := by
  simp only [firsts, List.mem_map, List.mem_range, eq_comm]

theorem firsts_succ (stream : TokenStream) (number : Nat) :
    stream.firsts (number + 1) = stream.current :: stream.advanced.firsts number := by
  rw [firsts, List.range_succ_eq_map, List.map_cons, List.map_map, current_eq_token]
  exact congrArg (_ :: ·) (List.map_congr_left fun index _ => (stream.tokenAt_advanced index).symm)

theorem firsts_eq_take (enough : number ≤ stream.count) : stream.firsts number = stream.ahead.take number := by
  rw [stream.count_eq] at enough
  apply List.ext_getElem
  · rw [firsts, List.length_map, List.length_range, List.length_take, Nat.min_eq_left enough]
  · intro index within _
    rw [firsts, List.length_map, List.length_range] at within
    rw [List.getElem_take, ← token_of_lt (by omega)]
    simp [firsts]

theorem token_of_firsts (agree : stream.firsts number = other.firsts number) (within : index < number) :
    stream.tokenAt index = other.tokenAt index :=
  List.map_inj_left.mp agree index (List.mem_range.mpr within)

/-- A genuine stream has as many tokens ahead as come before its first end. -/
theorem count_le_of_firsts (genuine : other.Genuine) (agree : stream.firsts number = other.firsts number)
    (ends : stream.count < number) : other.count ≤ stream.count := by
  by_contra more
  have here := token_of_firsts agree ends
  rw [token_of_le (Nat.le_refl _), token_of_lt (other.count_eq ▸ Nat.not_le.mp more)] at here
  exact (genuine _ (here ▸ List.getElem_mem _)).kind_ne_eof rfl

/-- Streams that agree up to an end are the same. -/
theorem eq_of_firsts (genuine : stream.Genuine) (genuine' : other.Genuine)
    (agree : stream.firsts number = other.firsts number) (ends : stream.count < number) : stream = other := by
  have fewer := count_le_of_firsts genuine' agree ends
  have more := count_le_of_firsts genuine agree.symm (Nat.lt_of_le_of_lt fewer ends)
  have same : stream.count = other.count := Nat.le_antisymm more fewer
  refine TokenStream.ext (List.ext_getElem ?_ fun index within within' => ?_) ?_
  · rw [← stream.count_eq, ← other.count_eq, same]
  · rw [← token_of_lt within, ← token_of_lt within', token_of_firsts agree]
    rw [← stream.count_eq] at within
    omega
  · have final := token_of_firsts agree ends
    rw [token_of_le (Nat.le_refl _), same, token_of_le (Nat.le_refl _)] at final
    exact congrArg Token.location final

end TokenStream

/-- A token before the end of a source is located before those with a larger index. -/
theorem scan_token_precedes {source : Text} (before : index < (scan source).count) (later : index < other) :
    ((scan source).tokenAt index).location.Precedes ((scan source).tokenAt other).location := by
  have increasing := List.pairwise_iff_getElem.mp (List.pairwise_map.mp (scanFrom_increasing .start source))
  obtain ⟨within, here⟩ := List.getElem?_eq_some_iff.mp ((scan source).getElem?_tokens index)
  obtain ⟨within', there⟩ := List.getElem?_eq_some_iff.mp ((scan source).getElem?_tokens other)
  rw [← here, ← there]
  exact increasing _ _ within within' (by omega)

end Mana
