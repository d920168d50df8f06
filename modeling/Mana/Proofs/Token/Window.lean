import Mana.Token.Stream

/-! The window of a stream: its current and its upcoming token, and what passing a token does to them. -/
namespace Mana.TokenStream

variable {rest stream : TokenStream}

@[simp] theorem advanced_count (stream : TokenStream) : stream.advanced.count = stream.count - 1 := rfl

theorem upcoming_eq (stream : TokenStream) : stream.upcoming = stream.advanced.current := rfl

theorem current_kind_of_count (empty : stream.count = 0) : stream.current.kind = .eof := by
  rw [stream.count_eq, List.length_eq_zero_iff] at empty
  simp [current, empty, final]

theorem current_mem (some : 0 < stream.count) : stream.current ∈ stream.ahead := by
  rcases stream with ⟨ahead, _, rfl, _⟩
  cases ahead with
  | nil => exact absurd some (Nat.lt_irrefl 0)
  | cons token rest => exact List.mem_cons_self

/-- The last token is the current one. -/
theorem ahead_of_last (last : stream.count = 1) : stream.ahead = [stream.current] := by
  rcases stream with ⟨ahead, _, rfl, _⟩
  obtain ⟨token, rfl⟩ := List.length_eq_one_iff.mp last
  rfl

/-- The current token comes before those after it, unless the end is reached. -/
theorem ahead_of_going (going : stream.current.kind ≠ .eof) :
    stream.ahead = stream.current :: stream.advanced.ahead := by
  cases split : stream.ahead with
  | nil => simp [current, split, final] at going
  | cons token rest => simp [current, advanced, split]

/-- A current token that is not the end is still ahead. -/
theorem count_pos (going : stream.current.kind ≠ .eof) : 0 < stream.count :=
  Nat.pos_of_ne_zero fun empty => going (current_kind_of_count empty)

/-- An upcoming token that is not the end comes after one that is still ahead. -/
theorem one_lt_count (going : stream.upcoming.kind ≠ .eof) : 1 < stream.count := by
  have positive : 0 < stream.advanced.count := count_pos going
  rw [advanced_count] at positive
  omega

/-- A stream whose tokens are the last ones of another. -/
structure Within (rest stream : TokenStream) : Prop where
  ahead : rest.ahead <:+ stream.ahead
  stop : rest.stop = stream.stop

namespace Within

theorem refl (stream : TokenStream) : stream.Within stream := ⟨List.suffix_refl _, rfl⟩

theorem trans {first second third : TokenStream} (later : first.Within second)
    (earlier : second.Within third) : first.Within third :=
  ⟨later.ahead.trans earlier.ahead, later.stop.trans earlier.stop⟩

theorem advanced (stream : TokenStream) : stream.advanced.Within stream :=
  ⟨List.tail_suffix _, rfl⟩

theorem both_advanced (within : rest.Within stream) : rest.advanced.Within stream.advanced := by
  refine ⟨?_, within.stop⟩
  obtain ⟨before, split⟩ := within.ahead
  change rest.ahead.tail <:+ stream.ahead.tail
  rw [← split]
  cases before with
  | nil => exact List.suffix_refl _
  | cons token before => exact (List.tail_suffix _).trans (List.suffix_append _ _)

theorem skippedTo (stops : Kind → Bool) (stream : TokenStream) :
    (stream.skippedTo stops).Within stream := by
  rw [skippedTo_eq]
  exact ⟨List.dropWhile_suffix _, rfl⟩

theorem count_le (within : rest.Within stream) :
    rest.count ≤ stream.count := by
  rw [rest.count_eq, stream.count_eq]
  exact within.ahead.length_le

/-- After something ahead was passed or kept, passing one more token makes progress. -/
theorem advanced_count_lt (within : rest.Within stream) (going : 0 < stream.count) :
    rest.advanced.count < stream.count := by
  have bound := within.count_le
  rw [advanced_count]
  omega

end Within

/-- Every token before the end has the origin. -/
def From (origin : Token → Prop) (stream : TokenStream) : Prop := ∀ token ∈ stream.ahead, origin token

theorem From.within (tokens : stream.From origin) (within : rest.Within stream) : rest.From origin :=
  fun token member => tokens token (within.ahead.subset member)

theorem From.advanced (tokens : stream.From origin) : stream.advanced.From origin :=
  tokens.within (.advanced stream)

theorem From.current (tokens : stream.From origin) (going : stream.current.kind ≠ .eof) :
    origin stream.current := by
  apply tokens
  rw [ahead_of_going going]
  exact List.mem_cons_self

end Mana.TokenStream
