import Mana.Node.Agreement
import Mana.Proofs.Text.Numeral
import Mana.Proofs.Tree.Words

/-! Trees that say the same in the same words: they agree, and have one source text. -/
namespace Mana

namespace Node

theorem braced_eq (statements : List Text) :
    braced statements = '\x7b' :: (statements.flatMap ([' '] ++ ·) ++ [' ', '\x7d']) := by
  cases statements with
  | nil => rfl
  | cons first others => simp [braced, Text.joined_cons]

section Source

variable (token : Option Token) (name value left right condition consequence body callee : Node)
  (statements parameters arguments : List Node) (alternative : Option Node) (operator : Text)

theorem source_program : (program token statements).source = (sources statements).flatten := rfl

theorem source_letStatement : (letStatement token name value).source =
    "let ".toList ++ name.source ++ " = ".toList ++ value.source ++ [';'] := rfl

theorem source_returnStatement : (returnStatement token value).source =
    "return ".toList ++ value.source ++ [';'] := rfl

theorem source_expressionStatement : (expressionStatement token value).source = value.source ++ [';'] := rfl

theorem source_block : (block token statements).source = braced (sources statements) := rfl

theorem source_unary : (unary token operator right).source = ['('] ++ operator ++ right.source ++ [')'] := rfl

theorem source_binary : (binary token left operator right).source =
    ['('] ++ left.source ++ [' '] ++ operator ++ [' '] ++ right.source ++ [')'] := rfl

theorem source_conditional : (conditional token condition consequence alternative).source =
    "if (".toList ++ condition.source ++ ") ".toList ++ consequence.source ++
      alternativeSource alternative := rfl

theorem source_some : alternativeSource (some body) = " else ".toList ++ body.source := rfl

theorem source_function : (function token parameters body).source =
    "fn(".toList ++ Text.joined ", ".toList (sources parameters) ++ ") ".toList ++ body.source := rfl

theorem source_call : (call token callee arguments).source =
    callee.source ++ ['('] ++ Text.joined ", ".toList (sources arguments) ++ [')'] := rfl

/-! The same with a text that follows. -/

variable (rest : Text)

theorem append_letStatement : (letStatement token name value).source ++ rest =
    "let".toList ++ ' ' :: (name.source ++ ' ' :: (['='] ++ ' ' :: (value.source ++ ';' :: rest))) := by
  simp [source_letStatement]

theorem append_returnStatement : (returnStatement token value).source ++ rest =
    "return".toList ++ ' ' :: (value.source ++ ';' :: rest) := by
  simp [source_returnStatement]

theorem append_expressionStatement : (expressionStatement token value).source ++ rest =
    value.source ++ ';' :: rest := by
  simp [source_expressionStatement]

theorem append_block : (block token statements).source ++ rest =
    '\x7b' :: ((sources statements).flatMap ([' '] ++ ·) ++ ' ' :: '\x7d' :: rest) := by
  simp [source_block, braced_eq]

theorem append_unary : (unary token operator right).source ++ rest =
    '(' :: (operator ++ (right.source ++ ')' :: rest)) := by
  simp [source_unary]

theorem append_binary : (binary token left operator right).source ++ rest =
    '(' :: (left.source ++ ' ' :: (operator ++ ' ' :: (right.source ++ ')' :: rest))) := by
  simp [source_binary]

theorem append_conditional : (conditional token condition consequence alternative).source ++ rest =
    "if".toList ++ ' ' :: '(' :: (condition.source ++ ')' :: ' ' :: (consequence.source ++
      (alternativeSource alternative ++ rest))) := by
  simp [source_conditional]

theorem append_some : alternativeSource (some body) ++ rest =
    ' ' :: ("else".toList ++ ' ' :: (body.source ++ rest)) := by
  simp [source_some]

theorem append_function : (function token parameters body).source ++ rest =
    "fn".toList ++ '(' :: (Text.joined ", ".toList (sources parameters) ++
      ')' :: ' ' :: (body.source ++ rest)) := by
  simp [source_function]

theorem append_call : (call token callee arguments).source ++ rest =
    callee.source ++ '(' :: (Text.joined ", ".toList (sources arguments) ++ ')' :: rest) := by
  simp [source_call]

end Source

/-- The node agrees with the tree, and is spelled alike. -/
structure Says (node tree : Node) : Prop where
  agrees : node.agrees tree = true
  source : node.source = tree.source
  words : node.words = tree.words

/-- The nodes say one by one what the trees do. -/
structure SayAll (nodes trees : List Node) : Prop where
  agree : agree nodes trees = true
  sources : sources nodes = sources trees
  wordLists : wordLists nodes = wordLists trees

theorem SayAll.nil : SayAll [] [] := ⟨rfl, rfl, rfl⟩

theorem SayAll.cons (first : node.Says tree) (others : SayAll nodes trees) :
    SayAll (node :: nodes) (tree :: trees) where
  agree := by
    change (node.agrees tree && Node.agree nodes trees) = true
    rw [first.agrees, others.agree, Bool.and_self]
  sources := congrArg₂ List.cons first.source others.sources
  wordLists := congrArg₂ List.cons first.words others.wordLists

namespace Says

variable {token token' : Option Token} {name name' value value' left left' right right' : Node}
  {condition condition' consequence consequence' body body' callee callee' : Node}
  {statements statements' parameters parameters' arguments arguments' : List Node}

theorem program (all : SayAll statements statements') :
    (Node.program token statements).Says (.program token' statements') where
  agrees := all.agree
  source := by rw [source_program, source_program, all.sources]
  words := by rw [words_program, words_program, all.wordLists]

theorem letStatement (names : name.Says name') (values : value.Says value') :
    (Node.letStatement token name value).Says (.letStatement token' name' value') where
  agrees := by
    change (name.agrees name' && value.agrees value') = true
    rw [names.agrees, values.agrees, Bool.and_self]
  source := by rw [source_letStatement, source_letStatement, names.source, values.source]
  words := by rw [words_letStatement, words_letStatement, names.words, values.words]

theorem returnStatement (values : value.Says value') :
    (Node.returnStatement token value).Says (.returnStatement token' value') where
  agrees := values.agrees
  source := by rw [source_returnStatement, source_returnStatement, values.source]
  words := by rw [words_returnStatement, words_returnStatement, values.words]

theorem expressionStatement (values : value.Says value') :
    (Node.expressionStatement token value).Says (.expressionStatement token' value') where
  agrees := values.agrees
  source := by rw [source_expressionStatement, source_expressionStatement, values.source]
  words := values.words

theorem block (all : SayAll statements statements') :
    (Node.block token statements).Says (.block token' statements') where
  agrees := all.agree
  source := by rw [source_block, source_block, all.sources]
  words := by rw [words_block, words_block, all.wordLists]

theorem identifier (text : Text) : (Node.identifier token text).Says (.identifier token' text) where
  agrees := decide_eq_true rfl
  source := rfl
  words := rfl

theorem integer {kept : Token} {value : Int} (literal : kept.literal = (Node.integer token value).source) :
    (Node.integer (some kept) value).Says (.integer token value) where
  agrees := decide_eq_true rfl
  source := literal
  words := congrArg (fun text => [(Kind.int, text)]) literal

theorem boolean (value : Bool) : (Node.boolean token value).Says (.boolean token' value) where
  agrees := decide_eq_true rfl
  source := by cases value <;> rfl
  words := rfl

theorem unary (operator : Text) (rights : right.Says right') :
    (Node.unary token operator right).Says (.unary token' operator right') where
  agrees := by
    change (decide (operator = operator) && right.agrees right') = true
    rw [rights.agrees, decide_eq_true rfl, Bool.and_self]
  source := by rw [source_unary, source_unary, rights.source]
  words := by rw [words_unary, words_unary, rights.words]

theorem binary (operator : Text) (lefts : left.Says left') (rights : right.Says right') :
    (Node.binary token left operator right).Says (.binary token' left' operator right') where
  agrees := by
    change (left.agrees left' && decide (operator = operator) && right.agrees right') = true
    rw [lefts.agrees, rights.agrees, decide_eq_true rfl, Bool.and_self, Bool.and_self]
  source := by rw [source_binary, source_binary, lefts.source, rights.source]
  words := by rw [words_binary, words_binary, lefts.words, rights.words]

theorem conditional (conditions : condition.Says condition') (consequences : consequence.Says consequence') :
    (Node.conditional token condition consequence none).Says
      (.conditional token' condition' consequence' none) where
  agrees := by
    change (condition.agrees condition' && consequence.agrees consequence' && true) = true
    rw [conditions.agrees, consequences.agrees, Bool.and_self, Bool.and_self]
  source := by rw [source_conditional, source_conditional, conditions.source, consequences.source]
  words := by rw [words_conditional, words_conditional, conditions.words, consequences.words]

theorem conditionalElse {alternative alternative' : Node} (conditions : condition.Says condition')
    (consequences : consequence.Says consequence') (alternatives : alternative.Says alternative') :
    (Node.conditional token condition consequence (some alternative)).Says
      (.conditional token' condition' consequence' (some alternative')) where
  agrees := by
    change (condition.agrees condition' && consequence.agrees consequence' &&
      alternative.agrees alternative') = true
    rw [conditions.agrees, consequences.agrees, alternatives.agrees, Bool.and_self, Bool.and_self]
  source := by
    rw [source_conditional, source_conditional, conditions.source, consequences.source, source_some, source_some,
      alternatives.source]
  words := by
    rw [words_conditional, words_conditional, conditions.words, consequences.words, words_some, words_some,
      alternatives.words]

theorem function (all : SayAll parameters parameters') (bodies : body.Says body') :
    (Node.function token parameters body).Says (.function token' parameters' body') where
  agrees := by
    change (agree parameters parameters' && body.agrees body') = true
    rw [all.agree, bodies.agrees, Bool.and_self]
  source := by rw [source_function, source_function, all.sources, bodies.source]
  words := by rw [words_function, words_function, all.wordLists, bodies.words]

theorem call (callees : callee.Says callee') (all : SayAll arguments arguments') :
    (Node.call token callee arguments).Says (.call token' callee' arguments') where
  agrees := by
    change (callee.agrees callee' && agree arguments arguments') = true
    rw [callees.agrees, all.agree, Bool.and_self]
  source := by rw [source_call, source_call, all.sources, callees.source]
  words := by rw [words_call, words_call, all.wordLists, callees.words]

end Says

/-! Leaves and their texts. -/

/-- Where only a name may stand there is an identifier. -/
theorem Fits.name {node : Node} (fits : node.Fits .name) :
    ∃ token text, node = .identifier token text ∧ IsName text := by
  cases node with
  | identifier token text => exact ⟨token, text, rfl, fits.2⟩
  | bare => exact fits.elim
  | boolean => cases fits
  | _ => cases fits.1

theorem Fits.block {node : Node} (fits : node.Fits .block) :
    ∃ token statements, node = .block token statements := by
  cases node with
  | block token statements => exact ⟨token, statements, rfl⟩
  | bare => exact fits.elim
  | boolean => cases fits
  | identifier => exact absurd fits.1 (by simp)
  | _ => cases fits.1

theorem Fits.integer {token : Option Token} {value : Int} (fits : (Node.integer token value).Fits .expression) :
    IsNumeral (Node.integer token value).source value := by
  obtain ⟨_, low, high, kept⟩ := fits
  cases token with
  | some token => exact kept token rfl
  | none =>
    obtain ⟨n, rfl⟩ := Int.eq_ofNat_of_zero_le low
    refine ⟨fun c member => ?_, ?_, n, ?_, rfl⟩
    · exact Nat.isDigit_of_mem_toDigits (by decide) (by decide) member
    · have short : n < 10 ^ 19 := by omega
      have length := (Nat.length_toDigits_le_iff (by decide) (by decide)).mpr short
      exact length.trans (by decide)
    · exact Numeral.read?_toDigits n

private theorem neither {first second : Option Unspellable} (absent : first = none) (missing : second = none) :
    (first <|> second) = none := by
  rw [absent, missing]
  rfl

theorem isShort_of_lt {value : Int} (low : 0 ≤ value) (high : value < 0x8000000000000000) :
    Numeral.isShort value = true := by
  have few : value.natAbs < 10 ^ 19 := by omega
  have longer (length : Nat) (enough : 19 ≤ length) : value.natAbs < Nat.pow 10 length :=
    few.trans_le (Nat.pow_le_pow_right (by decide) enough)
  exact decide_eq_true (longer Numeral.longest (by decide))

theorem AllFit.untextual? : (nodes : List Node) → (index : Nat) → AllFit nodes place → untextual? nodes index = none
  | [], _, _ => rfl
  | node :: rest, index, ⟨fits, all⟩ => by
    cases node with
    | bare => exact fits.elim
    | _ => exact AllFit.untextual? rest (index + 1) all

mutual

/-- Every node of a well-formed tree has a text. -/
theorem Fits.unspellable? : (node : Node) → node.Fits place → node.unspellable? = none
  | bare _ _, fits => fits.elim
  | program _ statements, ⟨_, all⟩ => AllFit.series statements all
  | letStatement _ _ _, ⟨_, nameFits, valueFits⟩ => neither nameFits.unspellable? valueFits.unspellable?
  | returnStatement _ _, ⟨_, fits⟩ => fits.unspellable?
  | expressionStatement _ _, ⟨_, fits⟩ => fits.unspellable?
  | block _ statements, ⟨_, all⟩ => AllFit.series statements all
  | identifier _ _, _ => rfl
  | integer token value, ⟨_, low, high, _⟩ => by
    rw [Node.unspellable?, isShort_of_lt low high, Bool.or_true]
    rfl
  | boolean _ _, _ => rfl
  | unary _ _ _, ⟨_, _, fits⟩ => fits.unspellable?
  | binary _ _ _ _, ⟨_, leftFits, _, rightFits⟩ => neither leftFits.unspellable? rightFits.unspellable?
  | conditional _ _ _ none, ⟨_, conditionFits, consequenceFits, _⟩ =>
    neither conditionFits.unspellable? (neither consequenceFits.unspellable? rfl)
  | conditional _ _ _ (some alternative), ⟨_, conditionFits, consequenceFits, fits⟩ =>
    neither conditionFits.unspellable?
      (neither consequenceFits.unspellable? (Fits.unspellable? alternative fits))
  | function _ parameters _, ⟨_, all, fits⟩ => neither (AllFit.firstUnspellable? parameters all)
      (neither (AllFit.untextual? parameters 0 all) fits.unspellable?)
  | call _ _ arguments, ⟨_, fits, all⟩ => neither (AllFit.firstUnspellable? arguments all)
      (neither (AllFit.untextual? arguments 0 all) fits.unspellable?)

theorem AllFit.firstUnspellable? : (nodes : List Node) → AllFit nodes place → firstUnspellable? nodes = none
  | [], _ => rfl
  | _ :: rest, ⟨fits, all⟩ => neither fits.unspellable? (AllFit.firstUnspellable? rest all)

theorem AllFit.series (nodes : List Node) (all : AllFit nodes place) :
    (firstUnspellable? nodes <|> untextual? nodes 0) = none :=
  neither (AllFit.firstUnspellable? nodes all) (AllFit.untextual? nodes 0 all)

end

theorem Fits.spelled {node : Node} (fits : node.Fits place) : node.spelled = .ok node.source := by
  rw [Node.spelled, fits.unspellable?]

end Node

end Mana
