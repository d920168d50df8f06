import Mana.Proofs.Token.Pieces

/-! Cutting a source at one of its tokens: the text before the token is known by the token's location, and
scanned for itself it gives the tokens that come before. The text of the token follows, and what comes later. -/
namespace Mana

/-- A location lies on an earlier line than another, or further left on the same line. -/
def Location.Precedes (first second : Location) : Prop :=
  first.line < second.line ∨ first.line = second.line ∧ first.column < second.column

namespace Location.Precedes

theorem irrefl (location : Location) : ¬ location.Precedes location := by
  rintro (line | ⟨_, column⟩)
  · exact Int.lt_irrefl _ line
  · exact Int.lt_irrefl _ column

theorem trans {first second third : Location} (earlier : first.Precedes second)
    (later : second.Precedes third) : first.Precedes third := by
  unfold Precedes at *
  omega

/-- Every character moves the location on. -/
theorem after (location : Location) (c : Char) : location.Precedes (location.after c) := by
  unfold Precedes Location.after
  split
  · exact .inl (Int.lt_succ _)
  · exact .inr ⟨rfl, Int.lt_succ _⟩

theorem past (location : Location) (c : Char) (rest : Text) :
    location.Precedes (location.past (c :: rest)) := by
  induction rest generalizing location c with
  | nil => exact after location c
  | cons next rest ih => exact (after location c).trans (ih (location.after c) next)

theorem ne {first second : Location} (precedes : first.Precedes second) : first ≠ second := by
  rintro rfl
  exact irrefl _ precedes

end Location.Precedes

/-- The beginnings of a text are known by where they end. -/
theorem Location.past_injective {first second rest rest' : Text} (location : Location)
    (both : first ++ rest = second ++ rest') (same : location.past first = location.past second) :
    first = second := by
  rcases List.append_eq_append_iff.mp both with ⟨more, longer, _⟩ | ⟨more, longer, _⟩
  · subst longer
    cases more with
    | nil => exact (List.append_nil first).symm
    | cons c more =>
      rw [past_append] at same
      have precedes := Precedes.past (location.past first) c more
      rw [← same] at precedes
      exact absurd precedes (Precedes.irrefl _)
  · subst longer
    cases more with
    | nil => exact List.append_nil second
    | cons c more =>
      rw [past_append] at same
      have precedes := Precedes.past (location.past second) c more
      rw [same] at precedes
      exact absurd precedes (Precedes.irrefl _)

namespace TokenStream

@[simp] theorem tokens_preceded (stream : TokenStream) (token : Token) :
    (stream.preceded token).tokens = token :: stream.tokens := rfl

theorem ahead_eq_of_tokens {stream other : TokenStream} (same : stream.tokens = word ++ other.tokens) :
    stream.ahead = word ++ other.ahead := by
  rw [tokens, tokens, ← List.append_assoc] at same
  exact (List.append_inj' same rfl).1

theorem stop_eq_of_tokens {stream other : TokenStream} (same : stream.tokens = word ++ other.tokens) :
    stream.stop = other.stop := by
  rw [tokens, tokens, ← List.append_assoc] at same
  exact congrArg Token.location (List.cons.inj (List.append_inj' same rfl).2).1

end TokenStream

/-- A text makes no token longer that comes right before it. -/
def Fresh (rest : Text) : Prop := ∀ kind text, Apart kind text rest

theorem Fresh.nil : Fresh [] := by rintro kind text c ⟨⟩

theorem Fresh.space (space : isSpace c = true) : Fresh (c :: rest) :=
  fun kind text => apart_space space kind text rest

/-- The front of a text is scanned to tokens, with the back behind it. It is made of white space and of the texts of
these tokens, none of which is longer with what follows. -/
inductive Scanned : Location → Text → Text → List Token → Prop where
  | done (location : Location) (back : Text) : Scanned location [] back []
  | space (space : isSpace c = true) (further : Scanned (location.after c) front back tokens) :
      Scanned location (c :: front) back tokens
  | token (lexical : Lexical kind text) (apart : Apart kind text (front ++ back))
      (further : Scanned (location.past text) front back tokens) :
      Scanned location (text ++ front) back (⟨kind, text, location⟩ :: tokens)

namespace Scanned

variable {location : Location} {front back others : Text} {tokens : List Token}

theorem tokens_append (scanned : Scanned location front back tokens) :
    (scanFrom location 0 (front ++ back)).tokens = tokens ++ (scanFrom (location.past front) 0 back).tokens := by
  induction scanned with
  | done => rfl
  | space space _ ih =>
    rw [List.cons_append, scanFrom_space space, ih]
    rfl
  | token lexical apart _ ih =>
    rw [List.append_assoc, scanFrom_lexical lexical apart, TokenStream.tokens_preceded, ih, Location.past_append]
    rfl

theorem behind (scanned : Scanned location front back tokens) (fresh : Fresh others) :
    Scanned location front others tokens := by
  induction scanned with
  | done => exact .done _ _
  | space space _ ih => exact .space space ih
  | @token kind text front back location tokens lexical apart _ ih =>
    refine .token lexical ?_ ih
    cases front with
    | nil => exact fresh kind text
    | cons next front => exact fun d head => apart d head

theorem going (scanned : Scanned location front back tokens) : nul ∉ front := by
  induction scanned with
  | done => exact List.not_mem_nil
  | space space _ ih =>
    refine List.not_mem_cons_of_ne_of_not_mem ?_ ih
    rintro rfl
    exact absurd space (by decide)
  | token lexical _ _ ih => exact fun member => (List.mem_append.mp member).elim lexical.nul_not_mem ih

/-- The end comes after all that is read. -/
theorem eq_beforeNul (scanned : Scanned location front back tokens) (ended : back.beforeNul = []) :
    front = (front ++ back).beforeNul := by
  rw [Text.beforeNul_append scanned.going, ended, List.append_nil]

end Scanned

/-- A text begins with a token, and others come later. The end is where nothing is read. -/
inductive Begins (location : Location) : Text → Token → List Token → Prop where
  | ended (ended : text.beforeNul = []) : Begins location text ⟨.eof, [], location⟩ []
  | token (lexical : Lexical kind text) (apart : Apart kind text rest) :
      Begins location (text ++ rest) ⟨kind, text, location⟩ (scanFrom (location.past text) 0 rest).tokens

namespace Begins

variable {location : Location} {text : Text} {token : Token} {later : List Token}

theorem located (begins : Begins location text token later) : token.location = location := by
  cases begins <;> rfl

/-- The text of the token stands there. What comes later is scanned from where it ends, if there is more to read. -/
theorem divided (begins : Begins location text token later) :
    ∃ rest, text = token.literal ++ rest ∧
      (token.kind ≠ .eof → (scanFrom (location.past token.literal) 0 rest).tokens = later) := by
  cases begins with
  | ended => exact ⟨text, rfl, fun going => absurd rfl going⟩
  | token => exact ⟨_, rfl, fun _ => rfl⟩

theorem beforeNul (begins : Begins location text token later) (kind : token.kind = .eof) : text.beforeNul = [] := by
  cases begins with
  | ended ended => exact ended
  | token lexical => exact absurd kind lexical.kind_ne_eof

end Begins

/-- A text is cut at each of its tokens, and scanned up to there. -/
theorem exists_scanned {location : Location} {text : Text}
    (split : (scanFrom location 0 text).tokens = before ++ token :: later) :
    ∃ front back, text = front ++ back ∧ Scanned location front back before ∧
      Begins (location.past front) back token later := by
  induction text using Text.induct generalizing location before with
  | ended text ended =>
    rw [scanFrom_ended ended] at split
    cases before with
    | cons first before => simp [TokenStream.tokens] at split
    | nil =>
      obtain ⟨rfl, rfl⟩ := List.cons.inj split
      exact ⟨[], text, rfl, .done location text, .ended ended⟩
  | space c rest space ih =>
    rw [scanFrom_space space] at split
    obtain ⟨front, back, rfl, scanned, begins⟩ := ih split
    exact ⟨c :: front, back, rfl, .space space scanned, begins⟩
  | token kind text rest lexical apart ih =>
    rw [scanFrom_lexical lexical apart, TokenStream.tokens_preceded] at split
    cases before with
    | nil =>
      obtain ⟨rfl, rfl⟩ := List.cons.inj split
      exact ⟨[], text ++ rest, rfl, .done location _, .token lexical apart⟩
    | cons first before =>
      obtain ⟨rfl, remaining⟩ := List.cons.inj split
      obtain ⟨front, back, rfl, scanned, begins⟩ := ih remaining
      rw [← Location.past_append] at begins
      exact ⟨text ++ front, back, (List.append_assoc ..).symm, .token lexical apart scanned, begins⟩

/-- Every token is located before those that follow it. -/
theorem scanFrom_increasing (location : Location) (text : Text) :
    ((scanFrom location 0 text).tokens.map Token.location).Pairwise Location.Precedes := by
  induction text using Text.induct generalizing location with
  | ended text ended =>
    rw [scanFrom_ended ended]
    exact List.pairwise_singleton _ _
  | space c rest space ih =>
    rw [scanFrom_space space]
    exact ih _
  | token kind text rest lexical apart ih =>
    rw [scanFrom_lexical lexical apart, TokenStream.tokens_preceded, List.map_cons, List.pairwise_cons]
    refine ⟨fun other member => ?_, ih _⟩
    obtain ⟨token, among, rfl⟩ := List.mem_map.mp member
    obtain ⟨before, later, split⟩ := List.append_of_mem among
    obtain ⟨front, _, _, _, begins⟩ := exists_scanned split
    obtain ⟨c, more, rfl⟩ := List.exists_cons_of_ne_nil lexical.visible
    rw [begins.located, ← Location.past_append]
    exact .past location c (more ++ front)

/-- The texts of tokens, each with a space after it. -/
def spaced (tokens : List Token) : Text := tokens.flatMap fun token => token.literal ++ [' ']

/-- Genuine tokens are read back from their texts. -/
theorem scanFrom_spaced (location : Location) {tokens : List Token}
    (genuine : ∀ token ∈ tokens, token.Genuine) :
    (scanFrom location 0 (spaced tokens)).ahead.map Token.lexeme = tokens.map Token.lexeme := by
  induction tokens generalizing location with
  | nil => rfl
  | cons token tokens ih =>
    obtain ⟨own, others⟩ := List.forall_mem_cons.mp genuine
    have text : spaced (token :: tokens) = token.literal ++ ' ' :: spaced tokens := by simp [spaced]
    rw [text, scanFrom_lexical own apart_blank, scanFrom_space (by decide)]
    exact congrArg (_ :: ·) (ih _ others)

end Mana
