import Mana.Proofs.Token.Trail

/-! Streams that begin alike. Two streams share a word, and each goes on with a rest of its own. -/
namespace Mana

namespace TokenStream

/-- The stream with a word in front. -/
def behind (stream : TokenStream) : List Token → TokenStream
  | [] => stream
  | token :: word => (stream.behind word).preceded token

variable {stream : TokenStream} {word : List Token}

theorem ahead_behind (stream : TokenStream) (word : List Token) : (stream.behind word).ahead = word ++ stream.ahead := by
  induction word with
  | nil => rfl
  | cons token word ih => exact congrArg (token :: ·) ih

theorem stop_behind (stream : TokenStream) (word : List Token) : (stream.behind word).stop = stream.stop := by
  induction word with
  | nil => rfl
  | cons token word ih => exact ih

theorem count_behind (stream : TokenStream) (word : List Token) :
    (stream.behind word).count = word.length + stream.count := by
  rw [count_eq, ahead_behind, List.length_append, stream.count_eq]

/-- A stream whose first tokens are known is its rest behind them. -/
theorem eq_behind (split : stream.ahead = word ++ more) : stream = (ofList more stream.stop).behind word :=
  TokenStream.ext (by rw [ahead_behind, split]; rfl) (by rw [stop_behind]; rfl)

theorem skippedTo_behind (stops : Kind → Bool) (word : List Token) :
    (∃ token left, ∀ stream : TokenStream, (stream.behind word).skippedTo stops = stream.behind (token :: left)) ∨
      ∀ stream : TokenStream, (stream.behind word).skippedTo stops = stream.skippedTo stops := by
  have dropped (stream : TokenStream) : (stream.behind word).skippedTo stops =
      ofList ((word ++ stream.ahead).dropWhile fun token => !stops token.kind) stream.stop := by
    rw [skippedTo_eq, ahead_behind, stop_behind]
  cases left : word.dropWhile fun token => !stops token.kind with
  | nil =>
    right
    intro stream
    rw [dropped, List.dropWhile_append, left, skippedTo_eq]
    rfl
  | cons token left' =>
    refine .inl ⟨token, left', fun stream => ?_⟩
    rw [dropped, List.dropWhile_append, left]
    exact TokenStream.ext (by rw [ahead_behind]; rfl) (by rw [stop_behind]; rfl)

end TokenStream

/-- Where two streams go different ways: what is left of one and of the other. -/
structure Fork where
  one : TokenStream
  other : TokenStream

namespace Fork

/-- Two streams share the tokens of a word, which come next at a stage of both, before they go different ways. -/
inductive Shares (fork : Fork) : Stage → List Token → TokenStream → TokenStream → Prop where
  | due : Shares fork .due word (fork.one.behind word) (fork.other.behind word)
  | read : Shares fork .read word (fork.one.behind (token :: word)) (fork.other.behind (token :: word))

namespace Shares

variable {fork : Fork} {stage stage' : Stage} {word word' : List Token} {token : Token}
  {stream other rest rest' : TokenStream}

theorem of_eq (first : stream = fork.one.behind word) (second : other = fork.other.behind word) :
    fork.Shares .due word stream other := by
  subst first second
  exact .due

theorem take (shares : fork.Shares .due (token :: word) stream other) : fork.Shares .read word stream other := by
  cases shares
  exact .read

theorem advanced (shares : fork.Shares .read word stream other) :
    fork.Shares .due word stream.advanced other.advanced := by
  cases shares
  exact .due

theorem current (shares : fork.Shares .read word stream other) : other.current = stream.current := by
  cases shares
  rfl

theorem next (shares : fork.Shares stage (token :: word) stream other) :
    stream.next stage = token ∧ other.next stage = token := by
  cases shares <;> exact ⟨rfl, rfl⟩

/-- Where no word is left, both streams have come to what is their own. -/
theorem onward (shares : fork.Shares stage [] stream other) :
    stream.onward stage = fork.one ∧ other.onward stage = fork.other := by
  cases shares <;> exact ⟨rfl, rfl⟩

theorem count (shares : fork.Shares stage word stream other) :
    stream.count + fork.other.count = other.count + fork.one.count := by
  cases shares <;> simp only [TokenStream.count_behind] <;> omega

theorem count_lt_iff (shares : fork.Shares stage word stream other) (later : fork.Shares stage' word' rest rest') :
    rest'.count < other.count ↔ rest.count < stream.count := by
  have before := shares.count
  have after := later.count
  omega

theorem count_eq_iff (shares : fork.Shares stage word stream other) (later : fork.Shares stage' word' rest rest') :
    rest'.count = other.count ↔ rest.count = stream.count := by
  have before := shares.count
  have after := later.count
  omega

theorem skippedTo (shares : fork.Shares .read word stream other) (stops : Kind → Bool) :
    (∃ left, fork.Shares .read left (stream.skippedTo stops) (other.skippedTo stops)) ∨
      (stream.skippedTo stops).Within fork.one ∧ (other.skippedTo stops).Within fork.other := by
  cases shares with
  | @read word token =>
    rcases TokenStream.skippedTo_behind stops (token :: word) with ⟨token, left, same⟩ | same
    · rw [same, same]
      exact .inl ⟨left, .read⟩
    · rw [same, same]
      exact .inr ⟨.skippedTo stops _, .skippedTo stops _⟩

end Shares

end Fork

end Mana
