import Mana.Proofs.Token.Window
import Mathlib.Data.List.TakeWhile

/-! Lexical classes: which texts the tokens of each kind may have, and where such a text is read back. -/
namespace Mana

/-- The texts that the tokens of a kind may have. -/
inductive Lexical : Kind → Text → Prop where
  | word (letters : ∀ c ∈ text, isLetter c = true) (visible : text ≠ []) :
      Lexical (Kind.ofWord text) text
  | digits (digits : ∀ c ∈ text, isDigit c = true) (visible : text ≠ []) : Lexical .int text
  | symbol (found : Kind.ofSymbol? c = some kind) : Lexical kind [c]
  | assign : Lexical .assign ['=']
  | bang : Lexical .bang ['!']
  | eq : Lexical .eq ['=', '=']
  | notEq : Lexical .notEq ['!', '=']
  | illegal (going : c ≠ nul) (visible : isSpace c = false) (letter : isLetter c = false)
      (digit : isDigit c = false) (symbol : Kind.ofSymbol? c = none) (assign : c ≠ '=')
      (bang : c ≠ '!') : Lexical .illegal [c]

/-- Nothing that follows a text would have made its token longer: no letter after a word, no digit
after an integer, and no equals sign after an equals sign or an exclamation mark that stands alone. -/
def Apart (kind : Kind) (text rest : Text) : Prop :=
  ∀ c, rest.head? = some c → ((∃ d ∈ text, isLetter d = true) → isLetter c = false) ∧
    (kind = .int → isDigit c = false) ∧ (kind = .assign ∨ kind = .bang → c ≠ '=')

/-- Letters come after the digits. -/
theorem isLetter_not_isDigit (letter : isLetter c = true) : isDigit c = false := by
  by_contra digit
  obtain ⟨_, high⟩ := Char.isDigit_iff_toNat.mp (by simpa [isDigit] using digit)
  have nine : '9'.toNat = 57 := rfl
  have cases : isLetter c = (decide ('A'.val ≤ c.val ∧ c.val ≤ 'Z'.val) ||
    (decide ('a'.val ≤ c.val) && decide (c.val ≤ 'z'.val)) || decide (c = '_')) := rfl
  simp only [cases, Bool.or_eq_true, Bool.and_eq_true, decide_eq_true_eq, UInt32.le_iff_toNat_le] at letter
  rcases letter with (⟨upper, _⟩ | ⟨lower, _⟩) | underscore
  · have first : 'A'.val.toNat = 65 := rfl
    have same : c.val.toNat = c.toNat := rfl
    omega
  · have first : 'a'.val.toNat = 97 := rfl
    have same : c.val.toNat = c.toNat := rfl
    omega
  · have first : '_'.toNat = 95 := rfl
    rw [underscore] at high
    omega

theorem isLetter_visible (letter : isLetter c = true) : c ≠ nul ∧ isSpace c = false ∧ c ≠ '=' ∧ c ≠ '!' := by
  refine ⟨?_, ?_, ?_, ?_⟩
  · rintro rfl
    exact absurd letter (by decide)
  · by_contra space
    simp only [isSpace, Bool.not_eq_false, Bool.or_eq_true, decide_eq_true_eq] at space
    rcases space with ((rfl | rfl) | rfl) | rfl <;> exact absurd letter (by decide)
  · rintro rfl
    exact absurd letter (by decide)
  · rintro rfl
    exact absurd letter (by decide)

theorem isDigit_visible (digit : isDigit c = true) : c ≠ nul ∧ isSpace c = false ∧ c ≠ '=' ∧ c ≠ '!' := by
  refine ⟨?_, ?_, ?_, ?_⟩
  · rintro rfl
    exact absurd digit (by decide)
  · by_contra space
    simp only [isSpace, Bool.not_eq_false, Bool.or_eq_true, decide_eq_true_eq] at space
    rcases space with ((rfl | rfl) | rfl) | rfl <;> exact absurd digit (by decide)
  · rintro rfl
    exact absurd digit (by decide)
  · rintro rfl
    exact absurd digit (by decide)

theorem Kind.ofSymbol?_mem (found : ofSymbol? c = some kind) : (c, kind) ∈ symbols := by
  obtain ⟨first, last, split, _⟩ := List.lookup_eq_some_iff.mp found
  rw [split]
  exact List.mem_append_right _ List.mem_cons_self

/-- The characters of symbols are in no other class. -/
theorem Kind.ofSymbol?_visible (found : ofSymbol? c = some kind) :
    c ≠ nul ∧ isSpace c = false ∧ isLetter c = false ∧ isDigit c = false ∧ c ≠ '=' ∧ c ≠ '!' := by
  have all : ∀ entry ∈ symbols, entry.1 ≠ nul ∧ isSpace entry.1 = false ∧ isLetter entry.1 = false ∧
      isDigit entry.1 = false ∧ entry.1 ≠ '=' ∧ entry.1 ≠ '!' := by decide
  exact all _ (ofSymbol?_mem found)

/-- A symbol is spelled by its character. -/
theorem Kind.spelling_ofSymbol? (found : ofSymbol? c = some kind) : kind.spelling = [c] := by
  have all : ∀ entry ∈ symbols, entry.2.spelling = [entry.1] := by decide
  exact all _ (ofSymbol?_mem found)

private theorem ofSymbol?_none (other : isLetter c = true ∨ isDigit c = true) :
    Kind.ofSymbol? c = none := by
  cases found : Kind.ofSymbol? c with
  | none => rfl
  | some kind =>
    obtain ⟨_, _, letter, digit, _⟩ := Kind.ofSymbol?_visible found
    simp [letter, digit] at other

theorem Kind.ofWord_mem (text : Text) :
    ofWord text ∈ [ident, function, letKeyword, ifKeyword, elseKeyword, trueKeyword, falseKeyword,
      returnKeyword] := by
  unfold ofWord
  cases found : keywords.lookup text with
  | none => exact List.mem_cons_self
  | some kind =>
    obtain ⟨first, last, split, _⟩ := List.lookup_eq_some_iff.mp found
    have all : ∀ entry ∈ keywords, entry.2 ∈ [ident, function, letKeyword, ifKeyword, elseKeyword,
        trueKeyword, falseKeyword, returnKeyword] := by simp [keywords]
    exact all (text, kind) (split ▸ List.mem_append_right _ List.mem_cons_self)

theorem Kind.ofWord_plain (text : Text) : ofWord text ≠ .int ∧ ofWord text ≠ .assign ∧ ofWord text ≠ .bang := by
  have member := ofWord_mem text
  refine ⟨?_, ?_, ?_⟩ <;>
  · intro same
    rw [same] at member
    exact absurd member (by decide)

theorem Kind.ofSymbol?_plain (found : ofSymbol? c = some kind) : kind ≠ .int ∧ kind ≠ .assign ∧ kind ≠ .bang := by
  have all : ∀ entry ∈ symbols, entry.2 ≠ .int ∧ entry.2 ≠ .assign ∧ entry.2 ≠ .bang := by decide
  exact all _ (ofSymbol?_mem found)

namespace Apart

/-- A text without letters that is no integer may be longer only as a sign. -/
theorem of_unlettered (letters : text.any isLetter = false) (number : kind ≠ .int)
    (alone : kind = .assign ∨ kind = .bang → rest.head? ≠ some '=') : Apart kind text rest := by
  refine fun c next => ⟨?_, fun same => absurd same number, ?_⟩
  · rintro ⟨d, member, letter⟩
    exact absurd letter (List.any_eq_false.mp letters d member)
  · rintro sign rfl
    exact alone sign next

private theorem head?_dropWhile {p : Char → Bool} {rest : Text} (next : (rest.dropWhile p).head? = some c) :
    p c = false := by
  have stop := List.head?_dropWhile_not p rest
  rwa [next] at stop

theorem word (text rest : Text) : Apart (Kind.ofWord text) text (rest.dropWhile isLetter) := by
  obtain ⟨number, assign, bang⟩ := Kind.ofWord_plain text
  exact fun c next => ⟨fun _ => head?_dropWhile next, fun same => absurd same number,
    fun sign => absurd sign (not_or.mpr ⟨assign, bang⟩)⟩

theorem digits (digits : ∀ c ∈ text, isDigit c = true) (rest : Text) : Apart .int text (rest.dropWhile isDigit) := by
  refine fun c next => ⟨?_, fun _ => head?_dropWhile next, by simp⟩
  rintro ⟨d, member, letter⟩
  have digit := digits d member
  rw [isLetter_not_isDigit letter] at digit
  cases digit

end Apart

namespace Lexical

theorem visible (lexical : Lexical kind text) : text ≠ [] := by
  cases lexical <;> first | assumption | exact List.cons_ne_nil _ _

theorem kind_ne_eof (lexical : Lexical kind text) : kind ≠ .eof := by
  cases lexical with
  | word letters visible =>
    intro same
    have member := Kind.ofWord_mem text
    simp [same] at member
  | symbol found =>
    have all : ∀ entry ∈ Kind.symbols, entry.2 ≠ .eof := by decide
    exact all _ (Kind.ofSymbol?_mem found)
  | _ => decide

/-- Reserved words are tokens of their kind. -/
theorem reserved (found : Kind.keywords.lookup text = some kind) : Lexical kind text := by
  obtain ⟨first, last, split, _⟩ := List.lookup_eq_some_iff.mp found
  have all : ∀ entry ∈ Kind.keywords, entry.1.all isLetter = true ∧ entry.1 ≠ [] := by decide
  obtain ⟨letters, visible⟩ := all (text, kind) (split ▸ List.mem_append_right _ List.mem_cons_self)
  have ofWord : Kind.ofWord text = kind := by rw [Kind.ofWord, found, Option.getD_some]
  exact ofWord ▸ .word (List.all_eq_true.mp letters) visible

/-- The characters of a class at the front of a text are all there are, if what follows begins with no such character. -/
theorem takeWhile_apart {p : Char → Bool} {more rest : Text} (all : ∀ c ∈ more, p c = true)
    (stop : ∀ c, rest.head? = some c → p c = false) : (more ++ rest).takeWhile p = more := by
  rw [List.takeWhile_append_of_pos all]
  cases rest with
  | nil => simp
  | cons c rest => simp [stop c rfl]

/-- A text of a class is read back as a token of its kind, unless what follows makes it longer. -/
theorem lexeme_eq (lexical : Lexical kind (first :: more)) (apart : Apart kind (first :: more) rest) :
    lexeme first (more ++ rest) = (kind, first :: more) ∧ first ≠ nul ∧ isSpace first = false := by
  generalize same : first :: more = text at lexical apart
  cases lexical with
  | word letters visible =>
    subst same
    have letter := letters first List.mem_cons_self
    obtain ⟨going, visible, assign, bang⟩ := isLetter_visible letter
    have taken := takeWhile_apart (fun c member => letters c (List.mem_cons_of_mem _ member))
      fun c next => (apart c next).1 ⟨first, List.mem_cons_self, letter⟩
    refine ⟨?_, going, visible⟩
    simp [lexeme, assign, bang, ofSymbol?_none (.inl letter), letter, taken]
  | digits digits visible =>
    subst same
    have digit := digits first List.mem_cons_self
    obtain ⟨going, visible, assign, bang⟩ := isDigit_visible digit
    have letter : isLetter first = false := by
      by_contra letter
      simp [isLetter_not_isDigit (by simpa using letter)] at digit
    have taken := takeWhile_apart (fun c member => digits c (List.mem_cons_of_mem _ member))
      fun c next => (apart c next).2.1 rfl
    refine ⟨?_, going, visible⟩
    simp [lexeme, assign, bang, ofSymbol?_none (.inr digit), letter, digit, taken]
  | symbol found =>
    cases same
    obtain ⟨going, visible, _, _, assign, bang⟩ := Kind.ofSymbol?_visible found
    refine ⟨?_, going, visible⟩
    simp [lexeme, assign, bang, found]
  | assign =>
    cases same
    have alone : rest.head? ≠ some '=' := fun next => (apart '=' next).2.2 (.inl rfl) rfl
    exact ⟨by simp [lexeme, alone], by decide, by decide⟩
  | bang =>
    cases same
    have alone : rest.head? ≠ some '=' := fun next => (apart '=' next).2.2 (.inr rfl) rfl
    exact ⟨by simp [lexeme, alone], by decide, by decide⟩
  | eq =>
    cases same
    exact ⟨by simp [lexeme], by decide, by decide⟩
  | notEq =>
    cases same
    exact ⟨by simp [lexeme], by decide, by decide⟩
  | illegal going visible letter digit symbol assign bang =>
    cases same
    exact ⟨by simp [lexeme, assign, bang, symbol, letter, digit], going, visible⟩

end Lexical

/-- What is read at a character that may begin a token is a text of the class of its kind, and what is left would not
have made it longer. -/
theorem exists_lexical (going : first ≠ nul) (visible : isSpace first = false) (rest : Text) :
    ∃ kind more left, lexeme first rest = (kind, first :: more) ∧ rest = more ++ left ∧
      Lexical kind (first :: more) ∧ Apart kind (first :: more) left := by
  unfold lexeme
  split
  · rename_i assign
    subst assign
    split
    · rename_i next
      obtain ⟨left, rfl⟩ := List.head?_eq_some_iff.mp next
      exact ⟨_, ['='], left, rfl, rfl, .eq, .of_unlettered (by decide) (by decide) (by simp)⟩
    · rename_i alone
      exact ⟨_, [], rest, rfl, rfl, .assign, .of_unlettered (by decide) (by decide) fun _ => alone⟩
  split
  · rename_i bang
    subst bang
    split
    · rename_i next
      obtain ⟨left, rfl⟩ := List.head?_eq_some_iff.mp next
      exact ⟨_, ['='], left, rfl, rfl, .notEq, .of_unlettered (by decide) (by decide) (by simp)⟩
    · rename_i alone
      exact ⟨_, [], rest, rfl, rfl, .bang, .of_unlettered (by decide) (by decide) fun _ => alone⟩
  rename_i assign bang
  split
  · rename_i kind found
    obtain ⟨_, _, letter, _⟩ := Kind.ofSymbol?_visible found
    obtain ⟨number, sign, bang⟩ := Kind.ofSymbol?_plain found
    refine ⟨_, [], rest, rfl, rfl, .symbol found, .of_unlettered (by simp [letter]) number fun same => ?_⟩
    exact absurd same (not_or.mpr ⟨sign, bang⟩)
  rename_i symbol
  split
  · rename_i letter
    have letters : ∀ c ∈ first :: rest.takeWhile isLetter, isLetter c = true :=
      List.forall_mem_cons.mpr ⟨letter, fun c => List.mem_takeWhile_imp⟩
    exact ⟨_, _, rest.dropWhile isLetter, rfl, List.takeWhile_append_dropWhile.symm,
      .word letters (List.cons_ne_nil _ _), .word _ rest⟩
  rename_i letter
  split
  · rename_i digit
    have digits : ∀ c ∈ first :: rest.takeWhile isDigit, isDigit c = true :=
      List.forall_mem_cons.mpr ⟨digit, fun c => List.mem_takeWhile_imp⟩
    exact ⟨_, _, rest.dropWhile isDigit, rfl, List.takeWhile_append_dropWhile.symm,
      .digits digits (List.cons_ne_nil _ _), .digits digits rest⟩
  · rename_i digit
    rw [Bool.not_eq_true] at letter digit
    exact ⟨_, [], rest, rfl, rfl, .illegal going visible letter digit symbol assign bang,
      .of_unlettered (by simp [letter]) (by decide) (by simp)⟩

/-- White space follows every text without making it longer. -/
theorem apart_space (space : isSpace c = true) (kind : Kind) (text rest : Text) :
    Apart kind text (c :: rest) := by
  rintro _ ⟨⟩
  simp only [isSpace, Bool.or_eq_true, decide_eq_true_eq] at space
  rcases space with ((rfl | rfl) | rfl) | rfl <;>
    exact ⟨fun _ => by decide, fun _ => by decide, fun _ => by decide⟩

/-- A space follows every text. -/
theorem apart_blank {kind : Kind} {text rest : Text} : Apart kind text (' ' :: rest) :=
  apart_space (by decide) kind text rest

/-- White space is passed over. -/
theorem scanFrom_space (space : isSpace c = true) (location : Location) (rest : Text) :
    scanFrom location 0 (c :: rest) = scanFrom (location.after c) 0 rest := by
  have going : c ≠ nul := by
    rintro rfl
    exact absurd space (by decide)
  simp [scanFrom, going, space]

/-- A text of a class is one token, and what follows is read after it. -/
theorem scanFrom_lexical (lexical : Lexical kind text) (apart : Apart kind text rest)
    (location : Location) :
    scanFrom location 0 (text ++ rest) =
      (scanFrom (location.past text) 0 rest).preceded ⟨kind, text, location⟩ := by
  cases text with
  | nil => exact absurd rfl lexical.visible
  | cons first more =>
    obtain ⟨found, going, visible⟩ := lexical.lexeme_eq apart
    exact scanFrom_lexeme location first (more ++ rest) more rest kind found rfl going visible

/-- What a token is without its location. -/
def Token.lexeme (token : Token) : Kind × Text := (token.kind, token.literal)

/-- A token whose text is of the class of its kind. -/
def Token.Genuine (token : Token) : Prop := Lexical token.kind token.literal

/-- A stream whose tokens before the end are all genuine. -/
def TokenStream.Genuine (stream : TokenStream) : Prop := stream.From Token.Genuine

theorem TokenStream.Genuine.count_of_ended {stream : TokenStream} (genuine : stream.Genuine)
    (ended : stream.current.kind = .eof) : stream.count = 0 :=
  Nat.eq_zero_of_not_pos fun some => (genuine _ (TokenStream.current_mem some)).kind_ne_eof ended

theorem TokenStream.Genuine.ahead_of_ended {stream : TokenStream} (genuine : stream.Genuine)
    (ended : stream.current.kind = .eof) : stream.ahead = [] :=
  List.eq_nil_of_length_eq_zero (stream.count_eq.symm.trans (genuine.count_of_ended ended))

end Mana
