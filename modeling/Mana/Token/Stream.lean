import Mana.Token.Lexeme

/-! Token streams: the tokens of a source that are still ahead, how many they are, and the location where
they end. The end is a token of its own kind that repeats for ever. -/
namespace Mana

structure TokenStream where
  ahead : List Token
  count : Nat
  count_eq : count = ahead.length
  stop : Location

namespace TokenStream

/-- The tokens of a list, ending at a location. -/
def ofList (ahead : List Token) (stop : Location) : TokenStream := ⟨ahead, ahead.length, rfl, stop⟩

/-- A stream is its tokens ahead and its end; the count follows. -/
@[ext] theorem ext {first second : TokenStream} (ahead : first.ahead = second.ahead)
    (stop : first.stop = second.stop) : first = second := by
  obtain ⟨_, _, counted, _⟩ := first
  obtain ⟨_, _, counted', _⟩ := second
  cases ahead
  cases stop
  cases counted
  cases counted'
  rfl

@[simp] theorem ahead_ofList (ahead : List Token) (stop : Location) : (ofList ahead stop).ahead = ahead := rfl

@[simp] theorem stop_ofList (ahead : List Token) (stop : Location) : (ofList ahead stop).stop = stop := rfl

/-- The token at the end of the stream. -/
def final (stream : TokenStream) : Token := ⟨.eof, [], stream.stop⟩

/-- The token under examination. -/
def current (stream : TokenStream) : Token := stream.ahead.head?.getD stream.final

/-- The token after the current one. -/
def upcoming (stream : TokenStream) : Token := stream.ahead.tail.head?.getD stream.final

/-- The stream after its current token. -/
def advanced (stream : TokenStream) : TokenStream where
  ahead := stream.ahead.tail
  count := stream.count - 1
  count_eq := by rw [stream.count_eq, List.length_tail]
  stop := stream.stop

/-- The stream with one more token in front. -/
def preceded (stream : TokenStream) (token : Token) : TokenStream where
  ahead := token :: stream.ahead
  count := stream.count + 1
  count_eq := by rw [stream.count_eq, List.length_cons]
  stop := stream.stop

@[simp] theorem advanced_preceded (stream : TokenStream) (token : Token) :
    (stream.preceded token).advanced = stream := TokenStream.ext rfl rfl

@[simp] theorem current_preceded (stream : TokenStream) (token : Token) :
    (stream.preceded token).current = token := rfl

/-- All tokens of the stream, up to and including the first one at its end. -/
def tokens (stream : TokenStream) : List Token := stream.ahead ++ [stream.final]

/-- Pass the given tokens up to the first one that may be a stop, or all of them. -/
def passing (stops : Kind → Bool) (stream : TokenStream) : List Token → TokenStream
  | [] => stream
  | token :: rest => if stops token.kind then stream else stream.advanced.passing stops rest

/-- The stream from its first token on whose kind is a stop, or at its end. -/
def skippedTo (stops : Kind → Bool) (stream : TokenStream) : TokenStream :=
  stream.passing stops stream.ahead

private theorem passing_eq (stops : Kind → Bool) (stream : TokenStream) (tokens : List Token)
    (same : stream.ahead = tokens) :
    stream.passing stops tokens =
      ofList (tokens.dropWhile fun token => !stops token.kind) stream.stop := by
  induction tokens generalizing stream with
  | nil => exact TokenStream.ext same rfl
  | cons token rest ih =>
    rw [passing, List.dropWhile_cons]
    cases stops token.kind with
    | true => exact TokenStream.ext same rfl
    | false =>
      simp only [Bool.false_eq_true, ↓reduceIte, Bool.not_false]
      exact ih stream.advanced (congrArg List.tail same)

/-- Skipping drops tokens up to the first stop. -/
theorem skippedTo_eq (stops : Kind → Bool) (stream : TokenStream) :
    stream.skippedTo stops =
      ofList (stream.ahead.dropWhile fun token => !stops token.kind) stream.stop :=
  passing_eq stops stream stream.ahead rfl

end TokenStream

/-- Read tokens from a location on, after as many characters as still belong to the last token. The
end is at the end of the input or at its first NUL. -/
def scanFrom (location : Location) (held : Nat) : Text → TokenStream
  | [] => .ofList [] location
  | c :: rest =>
    match held with
    | held + 1 => scanFrom (location.after c) held rest
    | 0 =>
      if c = nul then .ofList [] location
      else if isSpace c then scanFrom (location.after c) 0 rest
      else
        let (kind, literal) := lexeme c rest
        (scanFrom (location.after c) (literal.length - 1) rest).preceded ⟨kind, literal, location⟩

/-- Characters that are held are passed over, and count for the location. -/
theorem scanFrom_held (location : Location) (held : Nat) (text : Text) :
    scanFrom location held text = scanFrom (location.past (text.take held)) 0 (text.drop held) := by
  induction text generalizing location held with
  | nil => cases held <;> simp [scanFrom]
  | cons c rest ih =>
    cases held with
    | zero => rfl
    | succ held => rw [scanFrom, ih, List.take_succ_cons, List.drop_succ_cons, Location.past_cons]

/-- A token is read at its first character, and the rest of the input after its text. -/
theorem scanFrom_lexeme (location : Location) (first : Char) (rest more left : Text) (kind : Kind)
    (found : lexeme first rest = (kind, first :: more)) (divided : rest = more ++ left)
    (going : first ≠ nul) (visible : isSpace first = false) :
    scanFrom location 0 (first :: rest) =
      (scanFrom (location.past (first :: more)) 0 left).preceded ⟨kind, first :: more, location⟩ := by
  subst divided
  simp [scanFrom, going, visible, found, scanFrom_held _ more.length, Location.past_cons]

/-- The tokens of a source text. -/
def scan (source : Text) : TokenStream := scanFrom .start 0 source

end Mana
