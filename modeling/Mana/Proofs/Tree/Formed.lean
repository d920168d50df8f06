import Mana.Proofs.Tree.Tokens
import Mana.Proofs.Tree.Words

/-! Trees formed of tokens. A rule for every form of the language says which tokens it is read from and what it
becomes; what a tree keeps and says follows by induction on the rules. -/
namespace Mana

/-- After a statement there may be a semicolon. -/
inductive Semicolon : List Token → Prop where
  | left_out : Semicolon []
  | put (kind : token.kind = .semicolon) : Semicolon [token]

/-- How nodes follow each other: one alone, one right after the other, with commas between them, or with a comma
before each of them. -/
inductive Row where
  | one | all | listed | further

namespace Token

variable {token : Token}

theorem words_ident (kind : token.kind = .ident) : token.words = [(.ident, token.literal)] := by
  simp [words, lexeme, kind, Kind.isSilent]

theorem words_int (kind : token.kind = .int) : token.words = [(.int, token.literal)] := by
  simp [words, lexeme, kind, Kind.isSilent]

theorem words_silent (kind : token.kind = silent) (unsaid : silent.isSilent = true) : token.words = [] := by
  rw [words, kind, if_pos unsaid]

theorem words_operator (genuine : token.Genuine)
    (operator : token.kind ∈ unaryOperators ∨ token.kind ∈ binaryOperators) :
    token.words = [operatorWord token.literal] := by
  have spoken : token.kind.isSilent = false := by
    revert operator
    cases token.kind <;> decide
  rw [words, if_neg (by rw [spoken]; decide), operatorWord_eq genuine operator]

end Token

theorem Semicolon.words (ends : Semicolon last) : last.flatMap Token.words = [] := by
  cases ends with
  | left_out => rfl
  | put kind => simp [Token.words_silent kind rfl]

namespace Token.Genuine

variable {token : Token} (genuine : token.Genuine)
include genuine

theorem isName (kind : token.kind = .ident) : IsName token.literal := by
  rw [Token.Genuine, kind] at genuine
  exact Lexical.isName genuine

theorem isNumeral (kind : token.kind = .int) (read : Grammar.integerValue? token.literal = some value) :
    value < 0x8000000000000000 ∧ IsNumeral token.literal value := by
  rw [Token.Genuine, kind] at genuine
  exact Grammar.integerValue?_isNumeral genuine.digits_of_int.2 read

theorem spelled (operator : token.kind ∈ kinds) (operators : kinds = unaryOperators ∨ kinds = binaryOperators) :
    token.literal ∈ kinds.map Kind.spelling := by
  refine List.mem_map.mpr ⟨token.kind, operator, (Lexical.operator genuine ?_).symm⟩
  rcases operators with rfl | rfl
  · exact .inl operator
  · exact .inr operator

end Token.Genuine

namespace Node

/-- The nodes, which may stand at a place, are read from the tokens. -/
inductive Formed : Row → Place → List Node → List Token → Prop
  | letStatement (keyword : token.kind = .letKeyword) (named : name.kind = .ident) (assigns : sign.kind = .assign)
      (value : Formed .one .expression [node] word) (ends : Semicolon last) :
      Formed .one .statement [.letStatement (some token) (.identifier (some name) name.literal) node]
        (token :: name :: sign :: (word ++ last))
  | returnStatement (keyword : token.kind = .returnKeyword) (value : Formed .one .expression [node] word)
      (ends : Semicolon last) : Formed .one .statement [.returnStatement (some token) node] (token :: (word ++ last))
  | expressionStatement (value : Formed .one .expression [node] (token :: word)) (ends : Semicolon last) :
      Formed .one .statement [.expressionStatement (some token) node] (token :: (word ++ last))
  | block (opens : token.kind = .lbrace) (statements : Formed .all .statement nodes word)
      (closes : close.kind = .rbrace) : Formed .one .block [.block (some token) nodes] (token :: (word ++ [close]))
  | name (kind : token.kind = .ident) : Formed .one .name [.identifier (some token) token.literal] [token]
  | identifier (kind : token.kind = .ident) : Formed .one .expression [.identifier (some token) token.literal] [token]
  | integer (kind : token.kind = .int) (read : Grammar.integerValue? token.literal = some value) :
      Formed .one .expression [.integer (some token) value] [token]
  | boolean (kind : token.kind ∈ [.trueKeyword, .falseKeyword]) :
      Formed .one .expression [.boolean (some token) (token.kind = .trueKeyword)] [token]
  | unary (operator : token.kind ∈ unaryOperators) (right : Formed .one .expression [node] word) :
      Formed .one .expression [.unary (some token) token.literal node] (token :: word)
  | binary (left : Formed .one .expression [node] word) (operator : token.kind ∈ binaryOperators)
      (right : Formed .one .expression [node'] word') :
      Formed .one .expression [.binary (some token) node token.literal node'] (word ++ token :: word')
  | grouped (opens : token.kind = .lparen) (inner : Formed .one .expression [node] word)
      (closes : close.kind = .rparen) : Formed .one .expression [node] (token :: (word ++ [close]))
  | conditional (keyword : token.kind = .ifKeyword) (opens : paren.kind = .lparen)
      (condition : Formed .one .expression [node] word) (closes : close.kind = .rparen)
      (consequence : Formed .one .block [body] word') :
      Formed .one .expression [.conditional (some token) node body none] (token :: paren :: (word ++ close :: word'))
  | conditionalElse (keyword : token.kind = .ifKeyword) (opens : paren.kind = .lparen)
      (condition : Formed .one .expression [node] word) (closes : close.kind = .rparen)
      (consequence : Formed .one .block [body] word') (otherwise : turn.kind = .elseKeyword)
      (alternative : Formed .one .block [other] word'') :
      Formed .one .expression [.conditional (some token) node body (some other)]
        (token :: paren :: (word ++ close :: (word' ++ turn :: word'')))
  | function (keyword : token.kind = .function) (opens : paren.kind = .lparen)
      (parameters : Formed .listed .name nodes word) (closes : close.kind = .rparen)
      (inner : Formed .one .block [body] word') :
      Formed .one .expression [.function (some token) nodes body] (token :: paren :: (word ++ close :: word'))
  | call (callee : Formed .one .expression [node] word) (opens : token.kind = .lparen)
      (arguments : Formed .listed .expression nodes word') (closes : close.kind = .rparen) :
      Formed .one .expression [.call (some token) node nodes] (word ++ token :: (word' ++ [close]))
  | noStatement : Formed .all place [] []
  | statement (first : Formed .one place [node] word) (others : Formed .all place nodes word') :
      Formed .all place (node :: nodes) (word ++ word')
  | noItem : Formed .listed place [] []
  | item (first : Formed .one place [node] word) (others : Formed .further place nodes word') :
      Formed .listed place (node :: nodes) (word ++ word')
  | nothing : Formed .further place [] []
  | another (comma : token.kind = .comma) (first : Formed .one place [node] word)
      (others : Formed .further place nodes word') :
      Formed .further place (node :: nodes) (token :: (word ++ word'))

variable {row : Row} {place : Place} {node : Node} {nodes others : List Node} {word more : List Token}

theorem Formed.ne_nil (formed : Formed .one place [node] word) : word ≠ [] := by
  cases formed <;> simp

/-- The tokens that nodes keep are among those that they are read from, in the same order. -/
theorem Formed.tokens (formed : Formed row place nodes word) : (tokenLists nodes).Sublist word := by
  induction formed with
  | letStatement _ _ _ _ _ value =>
    simp only [tokenLists, Node.tokens, List.append_nil] at value ⊢
    exact .cons_cons _ (.cons_cons _ (.cons _ (value.trans (List.sublist_append_left _ _))))
  | returnStatement _ _ _ value =>
    simp only [tokenLists, Node.tokens, List.append_nil] at value ⊢
    exact .cons_cons _ (value.trans (List.sublist_append_left _ _))
  | expressionStatement _ _ value =>
    exact value.trans (List.sublist_append_left (_ :: _) _)
  | block _ _ _ statements =>
    simp only [tokenLists, Node.tokens, List.append_nil]
    exact .cons_cons _ (statements.trans (List.sublist_append_left _ _))
  | name | identifier | integer | boolean => exact .refl _
  | unary _ _ right =>
    simp only [tokenLists, Node.tokens, List.append_nil] at right ⊢
    exact .cons_cons _ right
  | binary _ _ _ left right =>
    simp only [tokenLists, Node.tokens, List.append_nil] at left right ⊢
    exact left.append (.cons_cons _ right)
  | grouped _ _ _ inner => exact .cons _ (inner.trans (List.sublist_append_left _ _))
  | conditional _ _ _ _ _ condition consequence =>
    simp only [tokenLists, Node.tokens, alternativeTokens, List.append_nil] at condition consequence ⊢
    exact .cons_cons _ (.cons _ (condition.append (.cons _ consequence)))
  | conditionalElse _ _ _ _ _ _ _ condition consequence alternative =>
    simp only [tokenLists, Node.tokens, alternativeTokens, List.append_nil] at condition consequence alternative ⊢
    exact .cons_cons _ (.cons _ (condition.append (.cons _ (consequence.append (.cons _ alternative)))))
  | function _ _ _ _ _ parameters inner =>
    simp only [tokenLists, Node.tokens, List.append_nil] at inner ⊢
    exact .cons_cons _ (.cons _ (parameters.append (.cons _ inner)))
  | call _ _ _ _ callee arguments =>
    simp only [tokenLists, Node.tokens, List.append_nil] at callee ⊢
    exact callee.append (.cons_cons _ (arguments.trans (List.sublist_append_left _ _)))
  | noStatement | noItem | nothing => exact .refl _
  | statement _ _ first others | item _ _ first others =>
    simp only [tokenLists, List.append_nil] at first ⊢
    exact first.append others
  | another _ _ _ first others =>
    simp only [tokenLists, List.append_nil] at first ⊢
    exact .cons _ (first.append others)

/-- Every one of the nodes is read from some of the tokens. -/
def FormedEach (nodes : List Node) (word : List Token) : Prop :=
  ∀ node ∈ nodes, ∃ place part, Formed .one place [node] part ∧ part ⊆ word

theorem FormedEach.cons (first : Formed .one place [node] word) (others : FormedEach nodes word) :
    FormedEach (node :: nodes) word :=
  List.forall_mem_cons.mpr ⟨⟨place, word, first, List.Subset.refl word⟩, others⟩

theorem FormedEach.append (front : FormedEach nodes word) (back : FormedEach others word) :
    FormedEach (nodes ++ others) word := List.forall_mem_append.mpr ⟨front, back⟩

theorem FormedEach.mono (each : FormedEach nodes word) (sub : word ⊆ more) : FormedEach nodes more := by
  intro node member
  obtain ⟨place, part, formed, inside⟩ := each node member
  exact ⟨place, part, formed, List.Subset.trans inside sub⟩

/-- What is read is made of nodes that are read, too. -/
theorem Formed.each (formed : Formed row place nodes word) : FormedEach (preorders nodes) word := by
  induction formed with
  | letStatement keyword named assigns value ends inner =>
    simp only [preorders, preorder, List.append_nil] at inner ⊢
    refine .cons (.letStatement keyword named assigns value ends) (.append (.mono (.cons (.name named) nofun) ?_)
      (inner.mono ?_))
    · exact fun token member => by simp_all
    · exact fun token member => by simp [member]
  | returnStatement keyword value ends inner =>
    simp only [preorders, preorder, List.append_nil] at inner ⊢
    exact .cons (.returnStatement keyword value ends) (inner.mono fun token member => by simp [member])
  | expressionStatement value ends inner =>
    simp only [preorders, preorder, List.append_nil] at inner ⊢
    exact .cons (.expressionStatement value ends) (inner.mono (List.subset_append_left (_ :: _) _))
  | block opens statements closes inner =>
    simp only [preorders, preorder, List.append_nil]
    exact .cons (.block opens statements closes) (inner.mono fun token member => by simp [member])
  | name kind => exact .cons (.name kind) nofun
  | identifier kind => exact .cons (.identifier kind) nofun
  | integer kind read => exact .cons (.integer kind read) nofun
  | boolean kind => exact .cons (.boolean kind) nofun
  | unary operator right inner =>
    simp only [preorders, preorder, List.append_nil] at inner ⊢
    exact .cons (.unary operator right) (inner.mono (List.subset_cons_self _ _))
  | binary left operator right first second =>
    simp only [preorders, preorder, List.append_nil] at first second ⊢
    refine .cons (.binary left operator right) (.append (first.mono ?_) (second.mono ?_))
    · exact List.subset_append_left _ _
    · exact fun token member => by simp [member]
  | grouped _ _ _ inner => exact inner.mono fun token member => by simp [member]
  | conditional keyword opens condition closes consequence first second =>
    simp only [preorders, preorder, alternativePreorder, List.append_nil] at first second ⊢
    refine .cons (.conditional keyword opens condition closes consequence) (.append (first.mono ?_) (second.mono ?_))
    · exact fun token member => by simp [member]
    · exact fun token member => by simp [member]
  | conditionalElse keyword opens condition closes consequence otherwise alternative first second third =>
    simp only [preorders, preorder, alternativePreorder, List.append_nil] at first second third ⊢
    refine .cons (.conditionalElse keyword opens condition closes consequence otherwise alternative)
      (.append (.append (first.mono ?_) (second.mono ?_)) (third.mono ?_))
    · exact fun token member => by simp [member]
    · exact fun token member => by simp [member]
    · exact fun token member => by simp [member]
  | function keyword opens parameters closes inner first second =>
    simp only [preorders, preorder, List.append_nil] at second ⊢
    refine .cons (.function keyword opens parameters closes inner) (.append (first.mono ?_) (second.mono ?_))
    · exact fun token member => by simp [member]
    · exact fun token member => by simp [member]
  | call callee opens arguments closes first second =>
    simp only [preorders, preorder, List.append_nil] at first ⊢
    refine .cons (.call callee opens arguments closes) (.append (first.mono ?_) (second.mono ?_))
    · exact List.subset_append_left _ _
    · exact fun token member => by simp [member]
  | noStatement | noItem | nothing => exact nofun
  | statement _ _ first others | item _ _ first others =>
    simp only [preorders, List.append_nil] at first ⊢
    exact .append (first.mono (List.subset_append_left _ _)) (others.mono (List.subset_append_right _ _))
  | another _ _ _ first others =>
    simp only [preorders, List.append_nil] at first ⊢
    refine .append (first.mono ?_) (others.mono ?_)
    · exact fun token member => by simp [member]
    · exact fun token member => by simp [member]

/-- What is read from genuine tokens is well formed. -/
theorem Formed.fits (formed : Formed row place nodes word) (genuine : ∀ token ∈ word, token.Genuine) :
    AllFit nodes place := by
  induction formed with
  | letStatement _ named _ _ _ inner =>
    have value := inner fun token member => genuine token (by simp [member])
    have name := (genuine _ (List.mem_cons_of_mem _ List.mem_cons_self)).isName named
    exact ⟨⟨rfl, ⟨.inl rfl, name⟩, value.1⟩, trivial⟩
  | returnStatement _ _ _ inner =>
    have value := inner fun token member => genuine token (by simp [member])
    exact ⟨⟨rfl, value.1⟩, trivial⟩
  | expressionStatement _ _ inner =>
    have value := inner fun token member => genuine token (List.mem_append_left _ member)
    exact ⟨⟨rfl, value.1⟩, trivial⟩
  | block _ _ _ inner =>
    have all := inner fun token member => genuine token (by simp [member])
    exact ⟨⟨rfl, all⟩, trivial⟩
  | name kind => exact ⟨⟨.inl rfl, (genuine _ List.mem_cons_self).isName kind⟩, trivial⟩
  | identifier kind => exact ⟨⟨.inr rfl, (genuine _ List.mem_cons_self).isName kind⟩, trivial⟩
  | integer kind read =>
    obtain ⟨bound, numeral⟩ := (genuine _ List.mem_cons_self).isNumeral kind read
    refine ⟨⟨rfl, by omega, by omega, ?_⟩, trivial⟩
    rintro _ ⟨⟩
    exact numeral
  | boolean => exact ⟨rfl, trivial⟩
  | unary operator _ inner =>
    have right := inner fun token member => genuine token (by simp [member])
    exact ⟨⟨rfl, (genuine _ List.mem_cons_self).spelled operator (.inl rfl), right.1⟩, trivial⟩
  | binary _ operator _ first second =>
    have left := first fun token member => genuine token (by simp [member])
    have right := second fun token member => genuine token (by simp [member])
    have spelled := (genuine _ (List.mem_append_right _ List.mem_cons_self)).spelled operator (.inr rfl)
    exact ⟨⟨rfl, left.1, spelled, right.1⟩, trivial⟩
  | grouped _ _ _ inner => exact inner fun token member => genuine token (by simp [member])
  | conditional _ _ _ _ _ first second =>
    have condition := first fun token member => genuine token (by simp [member])
    have consequence := second fun token member => genuine token (by simp [member])
    exact ⟨⟨rfl, condition.1, consequence.1, trivial⟩, trivial⟩
  | conditionalElse _ _ _ _ _ _ _ first second third =>
    have condition := first fun token member => genuine token (by simp [member])
    have consequence := second fun token member => genuine token (by simp [member])
    have alternative := third fun token member => genuine token (by simp [member])
    exact ⟨⟨rfl, condition.1, consequence.1, alternative.1⟩, trivial⟩
  | function _ _ _ _ _ first second =>
    have parameters := first fun token member => genuine token (by simp [member])
    have body := second fun token member => genuine token (by simp [member])
    exact ⟨⟨rfl, parameters, body.1⟩, trivial⟩
  | call _ _ _ _ first second =>
    have callee := first fun token member => genuine token (by simp [member])
    have arguments := second fun token member => genuine token (by simp [member])
    exact ⟨⟨rfl, callee.1, arguments⟩, trivial⟩
  | noStatement | noItem | nothing => trivial
  | statement _ _ first others | item _ _ first others =>
    have own := first fun token member => genuine token (by simp [member])
    exact ⟨own.1, others fun token member => genuine token (by simp [member])⟩
  | another _ _ _ first others =>
    have own := first fun token member => genuine token (by simp [member])
    exact ⟨own.1, others fun token member => genuine token (by simp [member])⟩

/-- The words of nodes that follow each other. -/
def rowWords : Row → List (List Word) → List Word
  | .one, lists | .all, lists => lists.flatten
  | .listed, lists => commaWords lists
  | .further, lists => lists.flatMap (Kind.comma.word :: ·)

theorem rowWords_one (node : Node) : rowWords .one (wordLists [node]) = node.words := List.append_nil _

/-- What is read from genuine tokens says the words of just those tokens. -/
theorem Formed.words (formed : Formed row place nodes word) (genuine : ∀ token ∈ word, token.Genuine) :
    word.flatMap Token.words = rowWords row (wordLists nodes) := by
  induction formed with
  | letStatement keyword named assigns _ ends inner =>
    have value := inner fun token member => genuine token (by simp [member])
    have first := Token.words_eq (genuine _ (by simp)) keyword (by decide)
    have third := Token.words_eq (genuine _ (by simp)) assigns (by decide)
    rw [rowWords_one] at value ⊢
    simp [Node.words, first, Token.words_ident named, third, value, ends.words, Kind.words, Kind.isSilent]
  | returnStatement keyword _ ends inner =>
    have value := inner fun token member => genuine token (by simp [member])
    have first := Token.words_eq (genuine _ List.mem_cons_self) keyword (by decide)
    rw [rowWords_one] at value ⊢
    simp [Node.words, first, value, ends.words, Kind.words, Kind.isSilent]
  | expressionStatement _ ends inner =>
    have value := inner fun token member => genuine token (List.mem_append_left _ member)
    rw [rowWords_one, ← List.cons_append, List.flatMap_append, ends.words, List.append_nil]
    exact value.trans (rowWords_one _)
  | block opens _ closes inner =>
    have all := inner fun token member => genuine token (by simp [member])
    have first := Token.words_eq (genuine _ List.mem_cons_self) opens (by decide)
    have last := Token.words_eq (genuine _ (by simp)) closes (by decide)
    rw [rowWords_one]
    simp [Node.words, first, last, all, rowWords, Kind.words, Kind.isSilent]
  | name kind | identifier kind =>
    rw [rowWords_one, List.flatMap_singleton, Token.words_ident kind, Node.words]
  | integer kind =>
    rw [rowWords_one, List.flatMap_singleton, Token.words_int kind]
    rfl
  | boolean kind =>
    rw [rowWords_one, List.flatMap_singleton]
    simp only [List.mem_cons, List.not_mem_nil, or_false] at kind
    rcases kind with same | same
    all_goals
      rw [Token.words_eq (genuine _ List.mem_cons_self) same (by decide), same]
      rfl
  | unary operator _ inner =>
    have right := inner fun token member => genuine token (by simp [member])
    rw [rowWords_one] at right ⊢
    rw [List.flatMap_cons, Token.words_operator (genuine _ List.mem_cons_self) (.inl operator), right]
    rfl
  | binary _ operator _ first second =>
    have left := first fun token member => genuine token (by simp [member])
    have right := second fun token member => genuine token (by simp [member])
    have own := genuine _ (List.mem_append_right _ List.mem_cons_self)
    rw [rowWords_one] at left right ⊢
    rw [List.flatMap_append, List.flatMap_cons, Token.words_operator own (.inr operator), left, right]
    rfl
  | grouped opens _ closes inner =>
    have own := inner fun token member => genuine token (by simp [member])
    simp [Token.words_silent opens rfl, Token.words_silent closes rfl, own]
  | conditional keyword opens _ closes _ first second =>
    have condition := first fun token member => genuine token (by simp [member])
    have consequence := second fun token member => genuine token (by simp [member])
    have own := Token.words_eq (genuine _ List.mem_cons_self) keyword (by decide)
    rw [rowWords_one] at condition consequence ⊢
    simp [words_conditional, alternativeWords, own, Token.words_silent opens rfl, Token.words_silent closes rfl,
      condition, consequence, Kind.words, Kind.isSilent]
  | conditionalElse keyword opens _ closes _ otherwise _ first second third =>
    have condition := first fun token member => genuine token (by simp [member])
    have consequence := second fun token member => genuine token (by simp [member])
    have alternative := third fun token member => genuine token (by simp [member])
    have own := Token.words_eq (genuine _ List.mem_cons_self) keyword (by decide)
    have turn := Token.words_eq (genuine _ (by simp)) otherwise (by decide)
    rw [rowWords_one] at condition consequence alternative ⊢
    simp [words_conditional, words_some, own, turn, Token.words_silent opens rfl, Token.words_silent closes rfl,
      condition, consequence, alternative, Kind.words, Kind.isSilent]
  | function keyword opens _ closes _ first second =>
    have parameters := first fun token member => genuine token (by simp [member])
    have body := second fun token member => genuine token (by simp [member])
    have own := Token.words_eq (genuine _ List.mem_cons_self) keyword (by decide)
    rw [rowWords_one] at body ⊢
    simp [words_function, own, Token.words_silent opens rfl, Token.words_silent closes rfl, parameters, body,
      rowWords, Kind.words, Kind.isSilent]
  | call _ opens _ closes first second =>
    have callee := first fun token member => genuine token (by simp [member])
    have arguments := second fun token member => genuine token (by simp [member])
    rw [rowWords_one] at callee ⊢
    simp [words_call, Token.words_silent opens rfl, Token.words_silent closes rfl, callee, arguments, rowWords]
  | noStatement | noItem | nothing => rfl
  | statement _ _ first others =>
    have own := first fun token member => genuine token (by simp [member])
    have later := others fun token member => genuine token (by simp [member])
    rw [List.flatMap_append, own, later, rowWords_one]
    rfl
  | item _ _ first others =>
    have own := first fun token member => genuine token (by simp [member])
    have later := others fun token member => genuine token (by simp [member])
    rw [List.flatMap_append, own, later, rowWords_one]
    rfl
  | another comma _ _ first others =>
    have own := first fun token member => genuine token (by simp [member])
    have later := others fun token member => genuine token (by simp [member])
    have sign := Token.words_eq (genuine _ List.mem_cons_self) comma (by decide)
    rw [List.flatMap_cons, List.flatMap_append, own, later, sign, rowWords_one]
    rfl

theorem Formed.words_one (formed : Formed .one place [node] word) (genuine : ∀ token ∈ word, token.Genuine) :
    node.words = word.flatMap Token.words := (rowWords_one node).symm.trans (formed.words genuine).symm

/-- The kinds of the last tokens of names, expressions and blocks. -/
def endings : List Kind := [.ident, .int, .trueKeyword, .falseKeyword, .rparen, .rbrace]

theorem last_of_suffix {whole : List Token} (last : [token] <:+ whole) (suffix : word <:+ whole) (some : word ≠ []) :
    [token] <:+ word :=
  List.suffix_of_suffix_length_le last suffix (List.length_pos_iff.mpr some)

theorem last_kind {whole : List Token} (last : [token] <:+ whole) (suffix : [close] <:+ whole)
    (kind : close.kind ∈ endings) : token.kind ∈ endings := by
  have same := (last_of_suffix last suffix (List.cons_ne_nil close [])).eq_of_length rfl
  exact List.singleton_inj.mp same ▸ kind

/-- What is read and is no statement ends with such a token. -/
theorem Formed.ends (formed : Formed row place nodes word) (one : row = .one) (inner : place ≠ .statement)
    (last : [token] <:+ word) : token.kind ∈ endings := by
  induction formed with
  | letStatement | returnStatement | expressionStatement => exact absurd rfl inner
  | block _ _ closes | grouped _ _ closes =>
    exact last_kind last ((List.suffix_append _ _).trans (List.suffix_cons _ _)) (by rw [closes]; decide)
  | name kind | identifier kind | integer kind => exact last_kind last (List.suffix_refl _) (by rw [kind]; decide)
  | boolean kind =>
    refine last_kind last (List.suffix_refl _) ?_
    simp only [List.mem_cons, List.not_mem_nil, or_false] at kind
    rcases kind with same | same <;> rw [same] <;> decide
  | unary _ right ih => exact ih rfl inner (last_of_suffix last (List.suffix_cons _ _) right.ne_nil)
  | binary _ _ right _ ih =>
    refine ih rfl inner (last_of_suffix last ?_ right.ne_nil)
    exact (List.suffix_cons _ _).trans (List.suffix_append _ _)
  | conditional _ _ _ _ body _ ih | function _ _ _ _ body _ ih =>
    refine ih rfl nofun (last_of_suffix last ?_ body.ne_nil)
    exact ((List.suffix_cons _ _).trans (List.suffix_append _ _)).trans
      ((List.suffix_cons _ _).trans (List.suffix_cons _ _))
  | conditionalElse _ _ _ _ _ _ alternative _ _ ih =>
    refine ih rfl nofun (last_of_suffix last ?_ alternative.ne_nil)
    have after : ∀ {front back : List Token} {token : Token}, back <:+ front ++ token :: back :=
      (List.suffix_cons _ _).trans (List.suffix_append _ _)
    exact (after.trans after).trans ((List.suffix_cons _ _).trans (List.suffix_cons _ _))
  | call _ _ _ closes =>
    refine last_kind last ?_ (by rw [closes]; decide)
    exact ((List.suffix_append _ _).trans (List.suffix_cons _ _)).trans (List.suffix_append _ _)
  | noStatement | statement | noItem | item | nothing | another => cases one

/-- A statement ends with its expression or with the semicolon after that. -/
theorem Formed.closes (formed : Formed .one .statement [node] word) (last : [token] <:+ word) :
    token.kind ∈ .semicolon :: endings := by
  have closes {node : Node} {word tail : List Token} (value : Formed .one .expression [node] word)
      (ends : Semicolon tail) (last : [token] <:+ word ++ tail) : token.kind ∈ .semicolon :: endings := by
    cases ends with
    | left_out =>
      rw [List.append_nil] at last
      exact List.mem_cons_of_mem _ (value.ends rfl nofun last)
    | put kind =>
      have same := last_of_suffix last (List.suffix_append _ _) (List.cons_ne_nil _ _)
      obtain rfl := List.singleton_inj.mp (same.eq_of_length rfl)
      exact kind ▸ List.mem_cons_self
  cases formed with
  | letStatement _ _ _ value ends =>
    refine closes value ends (last_of_suffix last ?_ (List.append_ne_nil_of_left_ne_nil value.ne_nil _))
    exact ((List.suffix_cons _ _).trans (List.suffix_cons _ _)).trans (List.suffix_cons _ _)
  | returnStatement _ value ends =>
    exact closes value ends (last_of_suffix last (List.suffix_cons _ _)
      (List.append_ne_nil_of_left_ne_nil value.ne_nil _))
  | expressionStatement value ends => exact closes value ends last

end Node

end Mana
