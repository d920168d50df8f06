import Mana.Diagnostic
import Mana.Proofs.Token.Window
import Mathlib.Data.List.Forall2

/-! Streams side by side: the tokens of one stream are repeated, at locations of their own, by another
stream that may go on beyond them. -/
namespace Mana

/-- How a stream stands beside one that repeats its tokens: which locations belong together, where the
stream stops, and what is beyond it in the other one. -/
structure Pairing where
  located : Location → Location → Prop
  stop : Location
  beyond : TokenStream

namespace Pairing

variable (pairing : Pairing)

/-- Nothing is beyond the stream, so that both streams end alike. -/
def Closed : Prop := pairing.beyond.ahead = [] ∧ pairing.located pairing.stop pairing.beyond.stop

/-- The other token is the same but for its location, which belongs to that of the token. -/
structure Pairs (token other : Token) : Prop where
  kind : other.kind = token.kind
  literal : other.literal = token.literal
  located : pairing.located token.location other.location

/-- The other diagnostic reports the same fault, at the location that belongs to that of the diagnostic. -/
structure Reports (diagnostic other : Diagnostic) : Prop where
  fault : other.fault = diagnostic.fault
  located : pairing.located diagnostic.location other.location

/-- The other stream repeats what is left of the stream, and goes on beyond it. What is beyond never comes
right after an opening parenthesis. -/
structure Abreast (stream other : TokenStream) : Prop where
  ahead : ∃ word, List.Forall₂ pairing.Pairs stream.ahead word ∧ other.ahead = word ++ pairing.beyond.ahead
  stop : stream.stop = pairing.stop
  beyond : other.stop = pairing.beyond.stop
  ends : pairing.Closed ∨ ∀ token, [token] <:+ stream.ahead → token.kind ≠ .lparen

/-- More tokens are ahead than given, unless it makes no difference. -/
def Covers (number : Nat) (stream : TokenStream) : Prop := pairing.Closed ∨ number < stream.count

variable {pairing} {stream other rest : TokenStream}

theorem Covers.of_lt (more : number < stream.count) : pairing.Covers number stream := .inr more

theorem Covers.mono (covers : pairing.Covers number stream) (fewer : less ≤ number) :
    pairing.Covers less stream :=
  covers.imp_right (Nat.lt_of_le_of_lt fewer)

theorem Covers.advanced (covers : pairing.Covers (number + 1) stream) :
    pairing.Covers number stream.advanced := by
  rcases covers with closed | more
  · exact .inl closed
  · right
    rw [TokenStream.advanced_count]
    omega

/-- Where a number of tokens is not covered, there is something beyond and not more is ahead. -/
theorem not_covers_iff : ¬ pairing.Covers number stream ↔ ¬ pairing.Closed ∧ stream.count ≤ number := by
  rw [Covers, not_or, Nat.not_lt]

namespace Abreast

theorem count (abreast : pairing.Abreast stream other) :
    other.count = stream.count + pairing.beyond.count := by
  obtain ⟨word, paired, split⟩ := abreast.ahead
  rw [other.count_eq, stream.count_eq, pairing.beyond.count_eq, split, List.length_append, paired.length_eq]

theorem count_eq_iff (abreast : pairing.Abreast stream other) {rest rest' : TokenStream}
    (later : pairing.Abreast rest rest') : rest'.count = other.count ↔ rest.count = stream.count := by
  rw [abreast.count, later.count]
  omega

theorem count_lt_iff (abreast : pairing.Abreast stream other) {rest rest' : TokenStream}
    (later : pairing.Abreast rest rest') : rest'.count < other.count ↔ rest.count < stream.count := by
  rw [abreast.count, later.count]
  omega

theorem current (abreast : pairing.Abreast stream other) (covers : pairing.Covers 0 stream) :
    pairing.Pairs stream.current other.current := by
  obtain ⟨word, paired, split⟩ := abreast.ahead
  rcases stream with ⟨ahead, _, rfl, _⟩
  cases paired with
  | cons first others => simpa [TokenStream.current, split] using first
  | nil =>
    have closed : pairing.Closed := covers.resolve_right (Nat.lt_irrefl 0)
    have empty : other.ahead = [] := split.trans (closed.1)
    have ends : pairing.located pairing.stop pairing.beyond.stop := closed.2
    refine ⟨?_, ?_, ?_⟩
    · simp [TokenStream.current, empty, TokenStream.final]
    · simp [TokenStream.current, empty, TokenStream.final]
    · have here := abreast.stop
      simp only at here
      simpa [TokenStream.current, empty, TokenStream.final, here, abreast.beyond] using ends

theorem ends_within (abreast : pairing.Abreast stream other) (within : rest.Within stream) :
    pairing.Closed ∨ ∀ token, [token] <:+ rest.ahead → token.kind ≠ .lparen :=
  abreast.ends.imp_right fun ends token last => ends token (last.trans within.ahead)

theorem advanced (abreast : pairing.Abreast stream other) (covers : pairing.Covers 0 stream) :
    pairing.Abreast stream.advanced other.advanced := by
  obtain ⟨word, paired, split⟩ := abreast.ahead
  refine ⟨?_, abreast.stop, abreast.beyond, abreast.ends_within (.advanced stream)⟩
  rcases stream with ⟨ahead, _, rfl, _⟩
  cases paired with
  | cons first others => exact ⟨_, others, by simp [TokenStream.advanced, split]⟩
  | nil =>
    have closed : pairing.Closed := covers.resolve_right (Nat.lt_irrefl 0)
    exact ⟨[], .nil, by simp [TokenStream.advanced, split, closed.1]⟩

theorem upcoming (abreast : pairing.Abreast stream other) (covers : pairing.Covers 1 stream) :
    pairing.Pairs stream.upcoming other.upcoming := by
  rw [stream.upcoming_eq, other.upcoming_eq]
  exact (abreast.advanced (covers.mono (Nat.zero_le 1))).current covers.advanced

/-- After an opening parenthesis another token is ahead. -/
theorem covers_opened (abreast : pairing.Abreast stream other) (covers : pairing.Covers 0 stream)
    (opened : stream.current.kind = .lparen) : pairing.Covers 1 stream := by
  by_contra few
  obtain ⟨apart, few⟩ := not_covers_iff.mp few
  have some := covers.resolve_left apart
  have last : stream.ahead = [stream.current] := TokenStream.ahead_of_last (by omega)
  exact abreast.ends.resolve_left apart stream.current (last ▸ List.suffix_refl _) opened

/-- A stream without tokens stands beside what is beyond. -/
theorem beyond_eq (abreast : pairing.Abreast stream other) (empty : stream.count = 0) : other = pairing.beyond := by
  obtain ⟨word, paired, split⟩ := abreast.ahead
  have none : stream.ahead = [] := List.eq_nil_of_length_eq_zero (stream.count_eq.symm.trans empty)
  rw [none, List.forall₂_nil_left_iff] at paired
  exact TokenStream.ext (by rw [split, paired, List.nil_append]) abreast.beyond

/-- Where one token is ahead, the next one of the other stream is the first beyond. -/
theorem upcoming_beyond (abreast : pairing.Abreast stream other) (last : stream.count = 1) :
    other.upcoming = pairing.beyond.current := by
  rw [other.upcoming_eq]
  have covers : pairing.Covers 0 stream := .of_lt (by omega)
  rw [(abreast.advanced covers).beyond_eq (by rw [TokenStream.advanced_count, last])]

theorem skippedTo (abreast : pairing.Abreast stream other) (stops : Kind → Bool)
    (covers : pairing.Covers 0 (stream.skippedTo stops)) :
    pairing.Abreast (stream.skippedTo stops) (other.skippedTo stops) := by
  obtain ⟨word, paired, split⟩ := abreast.ahead
  have ends := abreast.ends_within (.skippedTo stops stream)
  rw [TokenStream.skippedTo_eq] at covers ends ⊢
  rw [TokenStream.skippedTo_eq, split]
  refine ⟨?_, abreast.stop, abreast.beyond, ends⟩
  simp only [TokenStream.ahead_ofList]
  clear split
  generalize stream.ahead = ahead at paired covers
  induction paired with
  | nil =>
    have closed : pairing.Closed := covers.resolve_right (Nat.lt_irrefl 0)
    exact ⟨[], .nil, by rw [closed.1]; rfl⟩
  | @cons token token' ahead word first others ih =>
    rw [List.dropWhile_cons] at covers ⊢
    rw [List.cons_append, List.dropWhile_cons, first.kind]
    cases found : stops token.kind with
    | true => exact ⟨token' :: word, .cons first others, rfl⟩
    | false =>
      rw [found] at covers
      exact ih covers

end Abreast

end Pairing

end Mana
