import Mana.Proofs.Token.Lexical
import Mana.Proofs.Grammar.Dispatch

/-! The grammar of the language as data, and the words that it derives. Semicolons may be left out, so that
it is ambiguous where one statement ends and the next begins. -/
namespace Mana

/-- An integer has at most 4300 digits and a value below two to the power of 63. -/
def Token.InRange (token : Token) : Prop :=
  token.kind = .int → token.literal.length ≤ 4300 ∧
    ∃ value, Numeral.read? token.literal = some value ∧ value < 0x8000000000000000

namespace Grammar

/-- The integers in range are those that have a value. -/
theorem integerValue?_iff : (∃ value, integerValue? literal = some value) ↔
    literal.length ≤ 4300 ∧ ∃ value, Numeral.read? literal = some value ∧ value < 0x8000000000000000 := by
  unfold integerValue? Numeral.longest
  split
  · rename_i short
    refine ⟨fun ⟨value, read⟩ => ?_, fun ⟨_, value, read, bound⟩ => ⟨value, ?_⟩⟩
    · obtain ⟨read, bound⟩ := Option.filter_eq_some_iff.mp read
      simp only [decide_eq_true_eq] at bound
      exact ⟨short, value, read, bound⟩
    · refine Option.filter_eq_some_iff.mpr ⟨read, ?_⟩
      simpa only [decide_eq_true_eq] using bound
  · rename_i long
    exact ⟨fun ⟨_, read⟩ => absurd read (by simp), fun ⟨short, _⟩ => absurd short long⟩

inductive Category where
  | program | statement | expression | binaryOperator | unary | unaryOperator | primary | block

/-- A piece of the right side of a rule. -/
inductive Form where
  | token (kind : Kind)
  | part (category : Category)
  /-- The forms once or not at all. -/
  | optional (forms : List Form)
  /-- The forms any number of times. -/
  | many (forms : List Form)

namespace Form

/-- A form once or more, with commas between, or not at all. -/
abbrev series (form : Form) : Form := .optional [form, .many [.token .comma, form]]

/-- The calls after what is called. -/
abbrev calls : Form := .many [.token .lparen, series (.part .expression), .token .rparen]

/-- The operations after their first operand. -/
abbrev operations : Form := .many [.part .binaryOperator, .part .unary]

end Form

/-- The right sides of the rules for a category. -/
def Category.rules : Category → List (List Form)
  | program => [[.many [.part statement]]]
  | statement =>
    [[.token .letKeyword, .token .ident, .token .assign, .part expression, .optional [.token .semicolon]],
     [.token .returnKeyword, .part expression, .optional [.token .semicolon]],
     [.part expression, .optional [.token .semicolon]]]
  | expression => [[.part unary, .operations]]
  | binaryOperator => binaryOperators.map fun kind => [.token kind]
  | unary => [[.many [.part unaryOperator], .part primary, .calls]]
  | unaryOperator => unaryOperators.map fun kind => [.token kind]
  | primary =>
    [[.token .ident], [.token .int], [.token .trueKeyword], [.token .falseKeyword],
     [.token .lparen, .part expression, .token .rparen],
     [.token .ifKeyword, .token .lparen, .part expression, .token .rparen, .part block,
      .optional [.token .elseKeyword, .part block]],
     [.token .function, .token .lparen, .series (.token .ident), .token .rparen, .part block]]
  | block => [[.token .lbrace, .many [.part statement], .token .rbrace]]

/-- The words that forms in a row derive, leftmost form first. -/
inductive Derives : List Form → List Token → Prop where
  | nil : Derives [] []
  | token (kind : token.kind = wanted) (range : token.InRange) (rest : Derives forms word) :
      Derives (.token wanted :: forms) (token :: word)
  | part (rule : List Form) (member : rule ∈ category.rules) (rest : Derives (rule ++ forms) word) :
      Derives (.part category :: forms) word
  | without (rest : Derives forms word) : Derives (.optional body :: forms) word
  | within (rest : Derives (body ++ forms) word) : Derives (.optional body :: forms) word
  | enough (rest : Derives forms word) : Derives (.many body :: forms) word
  | again (rest : Derives (body ++ .many body :: forms) word) : Derives (.many body :: forms) word

namespace Derives

variable {forms more body : List Form} {word later : List Token}

theorem append (first : Derives forms word) (second : Derives more later) :
    Derives (forms ++ more) (word ++ later) := by
  induction first with
  | nil => exact second
  | token kind range _ ih => exact .token kind range ih
  | part rule member _ ih => exact .part rule member (List.append_assoc .. ▸ ih)
  | without _ ih => exact .without ih
  | within _ ih => exact .within (List.append_assoc .. ▸ ih)
  | enough _ ih => exact .enough ih
  | again _ ih =>
    rw [List.append_assoc] at ih
    exact .again ih

theorem token_iff : Derives (.token wanted :: forms) word ↔
    ∃ token later, word = token :: later ∧ token.kind = wanted ∧ token.InRange ∧ Derives forms later := by
  constructor
  · rintro (_ | ⟨kind, range, rest⟩)
    exact ⟨_, _, rfl, kind, range, rest⟩
  · intro holds
    obtain ⟨token, later, rfl, kind, range, rest⟩ := holds
    exact .token kind range rest

theorem not_token_nil : ¬ Derives (.token wanted :: forms) [] := fun derives => by
  obtain ⟨_, _, impossible, _⟩ := token_iff.mp derives
  cases impossible

theorem part_iff : Derives (.part category :: forms) word ↔
    ∃ rule ∈ category.rules, Derives (rule ++ forms) word := by
  constructor
  · rintro (_ | _ | ⟨rule, member, rest⟩)
    exact ⟨rule, member, rest⟩
  · intro holds
    obtain ⟨rule, member, rest⟩ := holds
    exact .part rule member rest

theorem optional_iff : Derives (.optional body :: forms) word ↔
    Derives forms word ∨ Derives (body ++ forms) word := by
  constructor
  · intro derives
    cases derives with
    | without rest => exact .inl rest
    | within rest => exact .inr rest
  · rintro (rest | rest)
    · exact .without rest
    · exact .within rest

theorem many_iff : Derives (.many body :: forms) word ↔
    Derives forms word ∨ Derives (body ++ .many body :: forms) word := by
  constructor
  · intro derives
    cases derives with
    | enough rest => exact .inl rest
    | again rest => exact .inr rest
  · rintro (rest | rest)
    · exact .enough rest
    · exact .again rest

/-! A category of one rule is what the rule says. -/

theorem expression_iff : Derives (.part .expression :: forms) word ↔
    Derives (.part .unary :: .operations :: forms) word := by
  apply part_iff.trans
  simp [Category.rules]

theorem unary_iff : Derives (.part .unary :: forms) word ↔
    Derives (.many [.part .unaryOperator] :: .part .primary :: .calls :: forms) word := by
  apply part_iff.trans
  simp [Category.rules]

/-- Locations do not matter. -/
theorem alike (derives : Derives forms word) {other : List Token}
    (same : other.map Token.lexeme = word.map Token.lexeme) : Derives forms other := by
  induction derives generalizing other with
  | nil =>
    rw [List.map_nil, List.map_eq_nil_iff] at same
    exact same ▸ .nil
  | @token token _ _ _ kind range _ ih =>
    rw [List.map_cons, List.map_eq_cons_iff] at same
    obtain ⟨token', other, rfl, equal, same⟩ := same
    obtain ⟨kind', literal'⟩ := Prod.mk.inj equal
    refine .token (kind'.trans kind) (fun int => ?_) (ih same)
    rw [literal']
    exact range (kind'.symm.trans int)
  | part rule member _ ih => exact .part rule member (ih same)
  | without _ ih => exact .without (ih same)
  | within _ ih => exact .within (ih same)
  | enough _ ih => exact .enough (ih same)
  | again _ ih => exact .again (ih same)

end Derives

/-! Expressions that calls and operations may still extend. -/

/-- The word is an expression, whatever calls and operations follow it. -/
def Extensible (word : List Token) : Prop :=
  ∀ later, Derives [.calls, .operations] later → Derives [.part .expression] (word ++ later)

namespace Extensible

variable {word later : List Token} {token : Token}

theorem derives (extensible : Extensible word) : Derives [.part .expression] word :=
  List.append_nil word ▸ extensible [] (.enough (.enough .nil))

theorem of_primary (primary : Derives [.part .primary] word) : Extensible word := fun _ derives =>
  Derives.expression_iff.mpr (Derives.unary_iff.mpr (.enough (primary.append derives)))

theorem unary (extensible : Extensible word) (kind : token.kind ∈ unaryOperators) :
    Extensible (token :: word) := by
  intro later derives
  have operand := Derives.unary_iff.mp (Derives.expression_iff.mp (extensible later derives))
  refine Derives.expression_iff.mpr (Derives.unary_iff.mpr (.again ?_))
  have range : token.InRange := fun int => by rw [int] at kind; exact absurd kind (by decide)
  exact .part [.token token.kind] (List.mem_map_of_mem kind) (.token rfl range operand)

theorem call (extensible : Extensible word)
    (call : Derives [.token .lparen, .series (.part .expression), .token .rparen] later) :
    Extensible (word ++ later) := by
  intro others derives
  rw [List.append_assoc]
  exact extensible _ (.again (call.append derives))

theorem binary (extensible : Extensible word) (kind : token.kind ∈ binaryOperators)
    (right : Extensible later) : Extensible (word ++ token :: later) := by
  intro others derives
  rw [List.append_assoc]
  have operand := Derives.expression_iff.mp (right others derives)
  have range : token.InRange := fun int => by rw [int] at kind; exact absurd kind (by decide)
  refine extensible _ (.enough (.again ?_))
  exact .part [.token token.kind] (List.mem_map_of_mem kind) (.token rfl range operand)

end Extensible

/-- Genuine tokens are derived by the forms. -/
def Completable (forms : List Form) : Prop :=
  ∃ word, Derives forms word ∧ ∀ token ∈ word, token.Genuine

namespace Completable

variable {forms : List Form}

theorem nil : Completable [] := ⟨[], .nil, by simp⟩

private theorem sample (kind : Kind) (going : kind ≠ .eof) :
    ∃ token : Token, token.kind = kind ∧ token.Genuine ∧ token.InRange := by
  have keyword (text : Text) (found : Kind.keywords.lookup text = some kind) (other : kind ≠ .int) :
      ∃ token : Token, token.kind = kind ∧ token.Genuine ∧ token.InRange :=
    ⟨⟨kind, text, .start⟩, rfl, .reserved found, fun int => absurd int other⟩
  have symbol (c : Char) (found : Kind.ofSymbol? c = some kind) (other : kind ≠ .int) :
      ∃ token : Token, token.kind = kind ∧ token.Genuine ∧ token.InRange :=
    ⟨⟨kind, [c], .start⟩, rfl, .symbol found, fun int => absurd int other⟩
  cases kind with
  | eof => exact absurd rfl going
  | illegal =>
    have lexical : Lexical .illegal ['@'] :=
      .illegal (by decide) (by decide) (by decide) (by decide) (by decide) (by decide) (by decide)
    exact ⟨⟨.illegal, ['@'], .start⟩, rfl, lexical, nofun⟩
  | int =>
    have range : Token.InRange ⟨.int, ['0'], .start⟩ := fun _ => ⟨by decide, 0, by decide, by decide⟩
    exact ⟨⟨.int, ['0'], .start⟩, rfl, .digits (List.all_eq_true.mp rfl) (List.cons_ne_nil _ _), range⟩
  | assign => exact ⟨⟨.assign, ['='], .start⟩, rfl, .assign, nofun⟩
  | bang => exact ⟨⟨.bang, ['!'], .start⟩, rfl, .bang, nofun⟩
  | eq => exact ⟨⟨.eq, ['=', '='], .start⟩, rfl, .eq, nofun⟩
  | notEq => exact ⟨⟨.notEq, ['!', '='], .start⟩, rfl, .notEq, nofun⟩
  | ident =>
    have lexical : Lexical (Kind.ofWord ['x']) ['x'] := .word (List.all_eq_true.mp rfl) (List.cons_ne_nil _ _)
    exact ⟨⟨.ident, ['x'], .start⟩, rfl, lexical, nofun⟩
  | function => exact keyword "fn".toList rfl nofun
  | letKeyword => exact keyword "let".toList rfl nofun
  | ifKeyword => exact keyword "if".toList rfl nofun
  | elseKeyword => exact keyword "else".toList rfl nofun
  | trueKeyword => exact keyword "true".toList rfl nofun
  | falseKeyword => exact keyword "false".toList rfl nofun
  | returnKeyword => exact keyword "return".toList rfl nofun
  | plus => exact symbol '+' rfl nofun
  | minus => exact symbol '-' rfl nofun
  | asterisk => exact symbol '*' rfl nofun
  | slash => exact symbol '/' rfl nofun
  | lt => exact symbol '<' rfl nofun
  | gt => exact symbol '>' rfl nofun
  | comma => exact symbol ',' rfl nofun
  | semicolon => exact symbol ';' rfl nofun
  | lparen => exact symbol '(' rfl nofun
  | rparen => exact symbol ')' rfl nofun
  | lbrace => exact symbol '\x7b' rfl nofun
  | rbrace => exact symbol '\x7d' rfl nofun

theorem token (going : kind ≠ .eof) (rest : Completable forms) : Completable (.token kind :: forms) := by
  obtain ⟨word, derives, genuine⟩ := rest
  obtain ⟨token, same, own, range⟩ := sample kind going
  exact ⟨token :: word, .token same range derives, List.forall_mem_cons.mpr ⟨own, genuine⟩⟩

theorem rule {category : Category} (rule : List Form) (member : rule ∈ category.rules)
    (rest : Completable (rule ++ forms)) : Completable (.part category :: forms) := by
  obtain ⟨word, derives, genuine⟩ := rest
  exact ⟨word, .part rule member derives, genuine⟩

theorem optional (rest : Completable forms) : Completable (.optional body :: forms) := by
  obtain ⟨word, derives, genuine⟩ := rest
  exact ⟨word, .without derives, genuine⟩

theorem many (rest : Completable forms) : Completable (.many body :: forms) := by
  obtain ⟨word, derives, genuine⟩ := rest
  exact ⟨word, .enough derives, genuine⟩

private theorem expression (rest : Completable forms) : Completable (.part .expression :: forms) := by
  apply rule _ (List.mem_singleton.mpr rfl)
  apply rule _ (List.mem_singleton.mpr rfl)
  apply many
  apply rule [.token .ident] (by simp [Category.rules])
  exact token (by decide) (many (many rest))

/-- Every category derives something. -/
theorem part (category : Category) (rest : Completable forms) : Completable (.part category :: forms) := by
  cases category with
  | program => exact rule _ (List.mem_singleton.mpr rfl) (many rest)
  | statement =>
    exact rule [.part .expression, .optional [.token .semicolon]] (by simp [Category.rules])
      (expression (optional rest))
  | expression => exact expression rest
  | binaryOperator =>
    exact rule [.token .plus] (by simp [Category.rules, binaryOperators]) (token (by decide) rest)
  | unary =>
    refine rule _ (List.mem_singleton.mpr rfl) (many ?_)
    exact rule [.token .ident] (by simp [Category.rules]) (token (by decide) (many rest))
  | unaryOperator =>
    exact rule [.token .bang] (by simp [Category.rules, unaryOperators]) (token (by decide) rest)
  | primary => exact rule [.token .ident] (by simp [Category.rules]) (token (by decide) rest)
  | block =>
    exact rule _ (List.mem_singleton.mpr rfl) (token (by decide) (many (token (by decide) rest)))

end Completable

/-- Forms without the end of the tokens derive something. -/
theorem completable (forms : List Form) (going : ∀ form ∈ forms, form ≠ .token .eof) : Completable forms := by
  induction forms with
  | nil => exact .nil
  | cons form forms ih =>
    have rest : Completable forms := ih fun form member => going form (List.mem_cons_of_mem _ member)
    cases form with
    | token kind => exact rest.token fun same => going _ List.mem_cons_self (congrArg Form.token same)
    | part category => exact rest.part category
    | optional body => exact rest.optional
    | many body => exact rest.many

end Grammar

end Mana
