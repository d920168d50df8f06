import Mana.Token.Stream
import Mana.Diagnostic

/-! Parsing steps. A step reads a token stream, finds diagnostics, and is done with a result, fails, or
is struck down by the limit on nesting. The diagnostics of a step are only those that it found itself,
so that what came before can neither be changed nor matter. -/
namespace Mana

/-- How a parsing step ends. -/
inductive Outcome (α : Type) where
  | done (result : α)
  | failed
  | struck

/-- What a parsing step leaves behind. -/
structure Step (α : Type) where
  outcome : Outcome α
  rest : TokenStream
  found : List Diagnostic

namespace Step

/-- The step with earlier diagnostics in front of its own. -/
def since (found : List Diagnostic) (step : Step α) : Step α :=
  { step with found := found ++ step.found }

/-- The step with its result changed. -/
def map (change : α → β) : Step α → Step β
  | ⟨.done result, rest, found⟩ => ⟨.done (change result), rest, found⟩
  | ⟨.failed, rest, found⟩ => ⟨.failed, rest, found⟩
  | ⟨.struck, rest, found⟩ => ⟨.struck, rest, found⟩

/-- Go on from a result, and keep any other ending. -/
def andThen (next : α → TokenStream → Step β) : Step α → Step β
  | ⟨.done result, rest, found⟩ => (next result rest).since found
  | ⟨.failed, rest, found⟩ => ⟨.failed, rest, found⟩
  | ⟨.struck, rest, found⟩ => ⟨.struck, rest, found⟩

@[simp] theorem since_nil (step : Step α) : step.since [] = step := rfl

@[simp] theorem since_since (first second : List Diagnostic) (step : Step α) :
    (step.since second).since first = step.since (first ++ second) := by
  simp only [since, List.append_assoc]

@[simp] theorem found_since (found : List Diagnostic) (step : Step α) :
    (step.since found).found = found ++ step.found := rfl

@[simp] theorem andThen_done (next : α → TokenStream → Step β) (result : α) (rest : TokenStream)
    (found : List Diagnostic) :
    Step.andThen next ⟨.done result, rest, found⟩ = (next result rest).since found := rfl

/-- Earlier diagnostics stay in front, whatever follows. -/
theorem andThen_since (next : α → TokenStream → Step β) (found : List Diagnostic) (step : Step α) :
    (step.since found).andThen next = (step.andThen next).since found := by
  obtain ⟨outcome, rest, own⟩ := step
  cases outcome with
  | done result => exact (since_since found own (next result rest)).symm
  | failed => rfl
  | struck => rfl

/-- Steps that follow each other may be grouped either way. -/
theorem andThen_assoc (step : Step α) (second : α → TokenStream → Step β)
    (third : β → TokenStream → Step γ) :
    (step.andThen second).andThen third =
      step.andThen fun result rest => (second result rest).andThen third := by
  obtain ⟨outcome, rest, found⟩ := step
  cases outcome with
  | done result => exact andThen_since third found (second result rest)
  | failed => rfl
  | struck => rfl

end Step

/-- A parsing step, by what it does with the tokens ahead. -/
structure Parse (α : Type) where
  run : TokenStream → Step α

namespace Parse

instance : Monad Parse where
  pure result := ⟨fun stream => ⟨.done result, stream, []⟩⟩
  bind first second := ⟨fun stream => (first.run stream).andThen fun result => (second result).run⟩

@[simp] theorem run_pure (result : α) (stream : TokenStream) :
    (pure result : Parse α).run stream = ⟨.done result, stream, []⟩ := rfl

@[simp] theorem run_bind (first : Parse α) (second : α → Parse β) (stream : TokenStream) :
    (first >>= second).run stream =
      (first.run stream).andThen fun result => (second result).run := rfl

instance : LawfulMonad Parse :=
  LawfulMonad.mk' Parse
    (fun step => congrArg Parse.mk (funext fun stream => by
      show (step.run stream).andThen (fun result rest => ⟨.done result, rest, []⟩) = step.run stream
      obtain ⟨outcome, rest, found⟩ := step.run stream
      cases outcome <;> simp [Step.andThen, Step.since]))
    (fun _ _ => rfl)
    (fun step second third => congrArg Parse.mk (funext fun stream =>
      Step.andThen_assoc (step.run stream) (fun result => (second result).run)
        fun result => (third result).run))

/-- Give up. -/
def fail : Parse α := ⟨fun stream => ⟨.failed, stream, []⟩⟩

/-- Give up because the nesting limit is reached. -/
def strike : Parse α := ⟨fun stream => ⟨.struck, stream, []⟩⟩

/-- The tokens ahead. -/
def position : Parse TokenStream := ⟨fun stream => ⟨.done stream, stream, []⟩⟩

/-- The token under examination. -/
def current : Parse Token := ⟨fun stream => ⟨.done stream.current, stream, []⟩⟩

/-- The token after the current one. -/
def upcoming : Parse Token := ⟨fun stream => ⟨.done stream.upcoming, stream, []⟩⟩

/-- Move the tokens ahead. -/
def move (change : TokenStream → TokenStream) : Parse Unit :=
  ⟨fun stream => ⟨.done (), change stream, []⟩⟩

/-- Pass the current token. -/
def advance : Parse Unit := move TokenStream.advanced

/-- Record a fault at a token. -/
def complain (fault : Fault) (token : Token) : Parse Unit :=
  ⟨fun stream => ⟨.done (), stream, [⟨fault, token.location⟩]⟩⟩

/-- The result of a step, or nothing when it fails. -/
def attempt (step : Parse α) : Parse (Option α) := ⟨fun stream =>
  match step.run stream with
  | ⟨.done result, rest, found⟩ => ⟨.done (some result), rest, found⟩
  | ⟨.failed, rest, found⟩ => ⟨.done none, rest, found⟩
  | ⟨.struck, rest, found⟩ => ⟨.struck, rest, found⟩⟩

/-- A step, and where it is struck another one from there. -/
def orWhenStruck (step other : Parse α) : Parse α := ⟨fun stream =>
  match step.run stream with
  | ⟨.struck, rest, found⟩ => (other.run rest).since found
  | finished => finished⟩

/-- What a round of a loop decides: to end the loop with a result, or to go on from a state and change
the result of the rounds that follow. -/
inductive Round (σ α : Type) where
  | stop (result : α)
  | again (state : σ) (finish : α → α)

/-- At most as many rounds as given. A round that goes on must have passed a token. -/
def rounds (round : σ → Parse (Round σ α)) : Nat → σ → TokenStream → Step α
  | 0, _, stream => ⟨.struck, stream, []⟩
  | most + 1, state, stream =>
    ((round state).run stream).andThen fun decision rest =>
      match decision with
      | .stop result => ⟨.done result, rest, []⟩
      | .again next finish =>
        if rest.count < stream.count then (rounds round most next rest).map finish
        else ⟨.struck, rest, []⟩

/-- Repeat rounds until one is over. -/
def iterate (round : σ → Parse (Round σ α)) (state : σ) : Parse α :=
  ⟨fun stream => rounds round (stream.count + 1) state stream⟩

private theorem rounds_enough (round : σ → Parse (Round σ α)) (most other : Nat) (state : σ)
    (stream : TokenStream) (enough : stream.count < most) (sufficient : stream.count < other) :
    rounds round most state stream = rounds round other state stream := by
  induction most generalizing other state stream with
  | zero => omega
  | succ most ih =>
    cases other with
    | zero => omega
    | succ other =>
      simp only [rounds]
      congr 1
      funext decision rest
      split
      · rfl
      · split
        · rw [ih other _ _ (by omega) (by omega)]
        · rfl

/-- A loop is its first round and, where that goes on, the loop from there. -/
theorem run_iterate (round : σ → Parse (Round σ α)) (state : σ) (stream : TokenStream) :
    (iterate round state).run stream =
      ((round state).run stream).andThen fun decision rest =>
        match decision with
        | .stop result => ⟨.done result, rest, []⟩
        | .again next finish =>
          if rest.count < stream.count then ((iterate round next).run rest).map finish
          else ⟨.struck, rest, []⟩ := by
  simp only [iterate]
  rw [rounds]
  congr 1
  funext decision rest
  split
  · rfl
  · split
    · rw [rounds_enough round stream.count (rest.count + 1) _ _ (by omega) (by omega)]
    · rfl

/-- What a round of a collection finds. -/
inductive Gain (α : Type) where
  | stop
  | nothing
  | item (value : α)

/-- The items that repeated rounds find, until one is over. -/
def collect (round : Parse (Gain α)) : Parse (List α) :=
  iterate (σ := Unit) (fun _ => do
    match ← round with
    | .stop => return .stop []
    | .nothing => return .again () id
    | .item value => return .again () (value :: ·)) ()

end Parse

end Mana
