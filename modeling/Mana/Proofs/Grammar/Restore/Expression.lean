import Mana.Proofs.Grammar.Restore.Statement

/-! Restoring expressions, and whole programs within any limit on nesting. Operations are printed between
parentheses, so that the strengths of their operators do not matter. -/
namespace Mana.Grammar

open Parse

variable {stream : TokenStream} {rest : Text}

theorem expression_apart (tree : Node) (fits : tree.Fits .expression) (joint : Joint rest)
    (next : (tree.source ++ rest).head? = some c) : c ≠ '=' := by
  rintro rfl
  obtain ⟨more, same⟩ := List.head?_eq_some_iff.mp next
  have spells : (scanFrom .start 0 ('=' :: more)).Spells (tree.source ++ rest) := ⟨.start, same ▸ rfl⟩
  obtain ⟨opening, found⟩ := expression_begins tree rest fits joint spells
  rw [same] at spells
  have letter : isLetter '=' = false := by decide
  by_cases double : more.head? = some '='
  · obtain ⟨more, rfl⟩ := List.head?_eq_some_iff.mp double
    have operator : (scanFrom .start 0 ('=' :: '=' :: more)).Spells (['=', '='] ++ more) := spells
    rw [(operator.token .eq fun d _ => ⟨by simp [letter], by simp, by simp⟩).1] at found
    cases found
  · have operator : (scanFrom .start 0 ('=' :: more)).Spells (['='] ++ more) := spells
    rw [(operator.token .assign fun d next => ⟨by simp [letter], by simp, ?_⟩).1] at found
    · cases found
    · exact fun _ same => double (same ▸ next)

/-! Items between commas, up to a closing parenthesis. -/

theorem stops_others (others : List Node) :
    Stops Level.lowest.strength ((Node.sources others).flatMap (", ".toList ++ ·) ++ ')' :: rest) := by
  cases others with
  | nil => exact .symbol _ rfl rfl
  | cons next others =>
    have comma : Kind.ofSymbol? ',' = some .comma := rfl
    exact .symbol _ comma rfl

section Series

variable {item : Parse Node} {place : Place}
  (each : ∀ (tree : Node) (stream : TokenStream) (rest : Text), tree.Fits place →
    Stops Level.lowest.strength rest → stream.Spells (tree.source ++ rest) →
      (item.run stream).Accepts (Leaves tree rest))
  (passes : GainsPass (seriesRound item))
include each passes

theorem restores_others {others : List Node} (fits : Node.AllFit others place)
    (spells : stream.advanced.Spells ((Node.sources others).flatMap (", ".toList ++ ·) ++ ')' :: rest)) :
    ((collect (seriesRound item)).run stream).Accepts fun nodes after =>
      Node.SayAll nodes others ∧ after.advanced.Spells (')' :: rest) := by
  induction others generalizing stream with
  | nil =>
    have closed : stream.upcoming.kind = .rparen := (spells.symbol rfl).1
    refine .collect ?_
    simp only [seriesRound, run_upcoming_bind, closed]
    exact .done ⟨.nil, spells⟩
  | cons tree others ih =>
    obtain ⟨treeFits, othersFit⟩ := fits
    have text : stream.advanced.Spells (',' :: ' ' :: (tree.source ++
        ((Node.sources others).flatMap (", ".toList ++ ·) ++ ')' :: rest))) := by
      simpa [Node.sources] using spells
    obtain ⟨comma, _, text⟩ := text.symbol rfl
    have found : ((seriesRound item).run stream).Accepts fun gain after => ∃ node : Node, gain = .item node ∧
        node.Says tree ∧ after.advanced.Spells
          ((Node.sources others).flatMap (", ".toList ++ ·) ++ ')' :: rest) := by
      simp only [seriesRound, run_upcoming_bind]
      rw [if_pos (stream.upcoming_eq ▸ comma)]
      apply (each tree _ _ treeFits (stops_others others) text.blank).andThen
      intro node after leaves
      obtain ⟨alike, spells⟩ := leaves
      exact .done ⟨node, rfl, alike, spells⟩
    refine .collect ((found.ensured fun _ _ ran => passes ran).imp ?_)
    intro gain after leaves
    obtain ⟨⟨node, rfl, alike, spells⟩, passed⟩ := leaves
    refine ⟨passed.2, (ih othersFit spells).imp ?_⟩
    intro nodes _ leaves
    obtain ⟨all, closed⟩ := leaves
    exact ⟨.cons alike all, closed⟩

theorem restores_series {trees : List Node} (fits : Node.AllFit trees place)
    (begins : ∀ (tree : Node) (stream : TokenStream) (rest : Text), tree.Fits place → Joint rest →
      stream.Spells (tree.source ++ rest) → stream.current.kind ≠ .rparen)
    (spells : stream.advanced.Spells (Text.joined ", ".toList (Node.sources trees) ++ ')' :: rest)) :
    ((series item .rparen).run stream).Accepts fun nodes after =>
      Node.SayAll nodes trees ∧ after.advanced.Spells rest := by
  simp only [series, run_upcoming_bind]
  cases trees with
  | nil =>
    obtain ⟨closed, _, spells⟩ := spells.symbol rfl
    rw [if_pos (stream.upcoming_eq ▸ closed)]
    exact .done ⟨.nil, spells⟩
  | cons tree others =>
    obtain ⟨treeFits, othersFit⟩ := fits
    rw [Node.sources, Text.joined_cons, List.append_assoc] at spells
    rw [if_neg (stream.upcoming_eq ▸ begins tree _ _ treeFits (stops_others others).toJoint spells)]
    apply (each tree _ _ treeFits (stops_others others) spells).andThen
    intro first after leaves
    obtain ⟨alike, spells⟩ := leaves
    apply (restores_others each passes othersFit spells).andThen
    intro nodes after leaves
    obtain ⟨all, spells⟩ := leaves
    obtain ⟨closed, _, spells⟩ := spells.symbol rfl
    exact accepts_expect closed (.done ⟨.cons alike all, spells⟩)

end Series

theorem restores_parameter (tree : Node) (stream : TokenStream) (rest : Text) (fits : tree.Fits .name)
    (stops : Stops Level.lowest.strength rest) (spells : stream.Spells (tree.source ++ rest)) :
    (parameter.run stream).Accepts (Leaves tree rest) := by
  obtain ⟨token, text, rfl, isName⟩ := fits.name
  obtain ⟨kind, literal, spells⟩ := spells.token isName.lexical (stops.apart_of _ (by decide))
  simp only [parameter, run_current_bind]
  rw [if_pos kind]
  refine .done ⟨?_, spells⟩
  rw [literal]
  exact .identifier text

theorem restores_integer {token : Option Token} {value : Int}
    (fits : (Node.integer token value).Fits .expression)
    (literal : stream.current.literal = (Node.integer token value).source)
    (spells : stream.advanced.Spells rest) :
    (integer.run stream).Accepts (Leaves (.integer token value) rest) := by
  obtain ⟨n, read, rfl⟩ := integerValue?_of_isNumeral fits.integer fits.2.2.1
  simp only [integer, run_current_bind, literal, read]
  exact .done ⟨.integer literal, spells⟩

/-- What restores the operations in parentheses, from the texts between them. -/
structure Nested.Operates (nested : Nested) : Prop where
  unary : ∀ token operator (right : Node) stream rest, (Node.unary token operator right).Fits .expression →
    stream.Spells (operator ++ (right.source ++ ')' :: rest)) →
      ((whole nested).run stream).Accepts (Leaves (.unary token operator right) (')' :: rest))
  binary : ∀ token (left : Node) operator (right : Node) stream rest,
    (Node.binary token left operator right).Fits .expression →
      stream.Spells (left.source ++ ' ' :: (operator ++ ' ' :: (right.source ++ ')' :: rest))) →
        ((whole nested).run stream).Accepts (Leaves (.binary token left operator right) (')' :: rest))

theorem accepts_grouped {nested : Nested} {tree : Node}
    (inner : ((whole nested).run stream.advanced).Accepts (Leaves tree (')' :: rest))) :
    ((grouped nested).run stream).Accepts (Leaves tree rest) := by
  apply inner.andThen
  intro node after leaves
  obtain ⟨alike, spells⟩ := leaves
  obtain ⟨closed, _, spells⟩ := spells.symbol rfl
  exact accepts_expect closed (.done ⟨alike, spells⟩)

theorem accepts_opened {nested : Nested} {post : Node → TokenStream → Prop} (opening : Opening)
    (current : stream.current.kind = kind) (found : Rules.standard.opening kind = some opening)
    (accepts : ((opening.parse nested).run stream).Accepts post) :
    ((opened .standard nested).run stream).Accepts post := by
  simp only [opened, run_current_bind, current, found]
  exact accepts

theorem accepts_extended {nested : Nested} {left : Node} {post : Node → TokenStream → Prop}
    (halts : Halts strength stream.upcoming) (holds : post left stream) :
    ((extended .standard nested strength left).run stream).Accepts post := by
  refine .iterate ?_
  simp only [extendedRound, run_upcoming_bind]
  split
  · exact .done holds
  · rename_i strong
    simp only [Bool.or_eq_true, decide_eq_true_eq, not_or] at strong
    have none := (halts.resolve_left strong.1).resolve_left strong.2
    rw [none]
    exact .done holds

theorem accepts_extendedBy {nested : Nested} (ensures : nested.Ensures depth) {extension : Extension}
    {left : Node} {post : Node → TokenStream → Prop}
    (found : Rules.standard.extension stream.upcoming.kind = some extension)
    (strong : strength < stream.upcoming.kind.strength)
    (longer : ((extension.parse nested left).run stream.advanced).Accepts fun longer after =>
      ((extended .standard nested strength longer).run after).Accepts post) :
    ((extended .standard nested strength left).run stream).Accepts post := by
  have round : ((extendedRound .standard nested strength left).run stream).Accepts fun decision after =>
      ∃ longer, decision = .again longer id ∧
        ((extended .standard nested strength longer).run after).Accepts post := by
    have going : ¬ (stream.upcoming.kind = .semicolon ∨ stream.upcoming.kind.strength ≤ strength) := by
      rintro (semicolon | weak)
      · rw [semicolon] at found
        cases found
      · omega
    simp only [extendedRound, run_upcoming_bind, found]
    rw [if_neg (by simpa using going)]
    exact longer.andThen fun longer _ holds => .done ⟨longer, rfl, holds⟩
  refine .iterate ((round.ensured fun _ _ ran => ran).imp ?_)
  rintro _ after ⟨⟨longer, rfl, holds⟩, ran⟩
  exact ⟨ensures.extendedRound_passes strength ran, holds⟩

namespace Nested.Restores

variable {nested : Nested} (restores : nested.Restores) (ensures : nested.Ensures depth)
include restores ensures

theorem conditional {token : Option Token} {condition consequence : Node} {alternative : Option Node}
    (fits : (Node.conditional token condition consequence alternative).Fits .expression) (joint : Joint rest)
    (spells : stream.Spells ((Node.conditional token condition consequence alternative).source ++ rest)) :
    ((conditional nested).run stream).Accepts
      (Leaves (.conditional token condition consequence alternative) rest) := by
  obtain ⟨_, conditionFits, consequenceFits, alternativeFits⟩ := fits
  rw [Node.append_conditional] at spells
  obtain ⟨_, _, spells⟩ := spells.token (.reserved rfl) apart_blank
  obtain ⟨opened, _, spells⟩ := spells.blank.symbol rfl
  apply accepts_expect opened
  apply (restores.whole conditionFits (.symbol _ rfl rfl) spells).andThen
  intro _ after leaves
  obtain ⟨conditions, spells⟩ := leaves
  obtain ⟨closed, _, spells⟩ := spells.symbol rfl
  obtain ⟨brace, read⟩ := restores.block ensures consequenceFits spells.blank
  refine accepts_expect closed (accepts_expect brace ?_)
  apply read.andThen
  intro _ after leaves
  obtain ⟨consequences, spells⟩ := leaves
  simp only [run_upcoming_bind]
  cases alternative with
  | none =>
    rw [if_neg (after.upcoming_eq ▸ joint.notElse _ spells)]
    exact .done ⟨.conditional conditions consequences, spells⟩
  | some body =>
    rw [Node.append_some] at spells
    obtain ⟨otherwise, _, spells⟩ :=
      spells.blank.token (.reserved rfl) apart_blank
    obtain ⟨brace, read⟩ := restores.block ensures alternativeFits spells.blank
    rw [if_pos (after.upcoming_eq ▸ otherwise)]
    refine accepts_expect brace (read.andThen fun _ after ⟨alternatives, spells⟩ => ?_)
    exact .done ⟨.conditionalElse conditions consequences alternatives, spells⟩

theorem function {token : Option Token} {parameters : List Node} {body : Node}
    (fits : (Node.function token parameters body).Fits .expression)
    (spells : stream.Spells ((Node.function token parameters body).source ++ rest)) :
    ((function nested).run stream).Accepts (Leaves (.function token parameters body) rest) := by
  obtain ⟨_, parametersFit, bodyFits⟩ := fits
  rw [Node.append_function] at spells
  obtain ⟨_, _, spells⟩ := spells.token (.reserved rfl) ((Joint.symbol rfl).apart_of _ (by decide))
  obtain ⟨opened, _, spells⟩ := spells.symbol rfl
  apply accepts_expect opened
  refine (restores_series restores_parameter parametersRound_passes parametersFit ?_ spells).andThen
    fun _ after ⟨all, spells⟩ => ?_
  · intro tree stream rest fits joint spells
    obtain ⟨token, text, rfl, isName⟩ := fits.name
    rw [(spells.token isName.lexical (joint.apart_of _ (by decide))).1]
    decide
  · obtain ⟨brace, read⟩ := restores.block ensures bodyFits spells.blank
    exact accepts_expect brace (read.andThen fun _ _ ⟨bodies, spells⟩ => .done ⟨.function all bodies, spells⟩)

theorem call {token : Option Token} {callee callee' : Node} {arguments : List Node}
    (callees : callee'.Says callee) (fits : Node.AllFit arguments .expression)
    (spells : stream.advanced.Spells (Text.joined ", ".toList (Node.sources arguments) ++ ')' :: rest)) :
    ((call nested callee').run stream).Accepts (Leaves (.call token callee arguments) rest) := by
  refine (restores_series (fun _ _ _ fits stops spells => restores.whole fits stops spells)
    (seriesRound_passes (ensures.expression _)) fits ?_ spells).andThen fun _ after ⟨all, spells⟩ =>
      .done ⟨.call callees all, spells⟩
  intro tree stream rest fits joint spells
  have excludes := opening_excludes (expression_begins tree rest fits joint spells)
  simp only [List.mem_cons, not_or] at excludes
  exact excludes.2.2.2.1

theorem opened (operates : nested.Operates) (tree : Node) (fits : tree.Fits .expression) (joint : Joint rest)
    (apart : ∀ token callee arguments, tree ≠ .call token callee arguments)
    (spells : stream.Spells (tree.source ++ rest)) :
    ((opened .standard nested).run stream).Accepts (Leaves tree rest) := by
  cases tree with
  | identifier token name =>
    obtain ⟨kind, literal, spells⟩ := spells.token fits.2.lexical (joint.apart_of _ (by decide))
    refine accepts_opened .identifier kind rfl (.done ⟨?_, spells⟩)
    rw [literal]
    exact .identifier name
  | integer token value =>
    obtain ⟨kind, literal, spells⟩ := spells.token fits.integer.lexical (joint.apart_of _ (by decide))
    exact accepts_opened .integer kind rfl (restores_integer fits literal spells)
  | boolean token value =>
    have reserved : Kind.keywords.lookup (Node.boolean token value).source =
        some (if value then .trueKeyword else .falseKeyword) := by cases value <;> rfl
    obtain ⟨kind, _, spells⟩ := spells.token (.reserved reserved) (joint.apart_of _ (by cases value <;> decide))
    refine accepts_opened .boolean kind (by cases value <;> rfl) (.done ⟨?_, spells⟩)
    rw [kind]
    cases value with
    | true => exact .boolean true
    | false => exact .boolean false
  | unary token operator right =>
    rw [Node.append_unary] at spells
    obtain ⟨kind, _, spells⟩ := spells.symbol rfl
    have inner := operates.unary token operator right _ rest fits spells
    exact accepts_opened .grouped kind rfl (accepts_grouped inner)
  | binary token left operator right =>
    rw [Node.append_binary] at spells
    obtain ⟨kind, _, spells⟩ := spells.symbol rfl
    have inner := operates.binary token left operator right _ rest fits spells
    exact accepts_opened .grouped kind rfl (accepts_grouped inner)
  | conditional token condition consequence alternative =>
    have text := spells
    rw [Node.append_conditional] at text
    have kind := (text.token (.reserved rfl) apart_blank).1
    exact accepts_opened .conditional kind rfl (restores.conditional ensures fits joint spells)
  | function token parameters body =>
    have text := spells
    rw [Node.append_function] at text
    have kind := (text.token (.reserved rfl) ((Joint.symbol rfl).apart_of _ (by decide))).1
    exact accepts_opened .function kind rfl (restores.function ensures fits spells)
  | call token callee arguments => exact absurd rfl (apart token callee arguments)
  | bare => exact fits.elim
  | _ => cases fits.1

variable (operates : nested.Operates)
include operates

/-- An expression is read as its innermost callee, and extended by one call after the other until nothing of
it is left. -/
theorem extended {strength : Int} (weak : strength < Level.call.strength) {post : Node → TokenStream → Prop}
    (tree : Node) (rest : Text) (fits : tree.Fits .expression) (joint : Joint rest)
    (spells : stream.Spells (tree.source ++ rest))
    (last : ∀ left after, Leaves tree rest left after →
      ((extended .standard nested strength left).run after).Accepts post) :
    ((Grammar.opened .standard nested >>= Grammar.extended .standard nested strength).run stream).Accepts
      post := by
  have opened (apart : ∀ token callee arguments, tree ≠ .call token callee arguments) :
      ((Grammar.opened .standard nested >>= Grammar.extended .standard nested strength).run stream).Accepts
        post :=
    (restores.opened ensures operates tree fits joint apart spells).andThen last
  cases tree with
  | call token callee arguments =>
    obtain ⟨_, calleeFits, argumentsFit⟩ := fits
    rw [Node.append_call] at spells
    apply extended weak callee _ calleeFits (.symbol rfl) spells
    intro left after leaves
    obtain ⟨alike, spells⟩ := leaves
    obtain ⟨paren, _, spells⟩ := spells.symbol rfl
    have kind : after.upcoming.kind = .lparen := paren
    have found : Rules.standard.extension after.upcoming.kind = some .call := by
      rw [kind]
      rfl
    have strong : strength < after.upcoming.kind.strength := by
      rw [kind]
      exact weak
    apply accepts_extendedBy ensures found strong
    exact (restores.call ensures alike argumentsFit spells).imp last
  | _ => exact opened nofun

end Nested.Restores

/-! The next level of nesting restores as much. -/

/-- An expression of one more level. -/
def Nested.deeper (nested : Nested) : Nested := fun strength =>
  opened .standard nested >>= extended .standard nested strength

theorem expression_succ (levels : Nat) :
    expression .standard (levels + 1) = (expression .standard levels).deeper := rfl

namespace Nested

variable {nested : Nested} (restores : nested.Restores) (ensures : nested.Ensures depth)
  (operates : nested.Operates)
include restores ensures operates

theorem Restores.deeper : nested.deeper.Restores := by
  intro tree fits strength stream rest weak stops spells
  apply restores.extended ensures operates weak tree rest fits stops.toJoint spells
  intro left after leaves
  exact accepts_extended (stops.halts _ leaves.2) leaves

omit ensures operates in
theorem Restores.unary {token : Option Token} {operator : Text} {right : Node}
    (fits : (Node.unary token operator right).Fits .expression)
    (spells : stream.Spells (operator ++ (right.source ++ ')' :: rest))) :
    ((Grammar.whole nested.deeper).run stream).Accepts (Leaves (.unary token operator right) (')' :: rest)) := by
  obtain ⟨_, member, rightFits⟩ := fits
  obtain ⟨kind, operator, rfl⟩ := List.mem_map.mp member
  have stops strength : Stops strength (')' :: rest) := .symbol strength rfl rfl
  have apart : Apart kind kind.spelling (right.source ++ ')' :: rest) := by
    have plain : ∀ kind ∈ unaryOperators, kind.spelling.any isLetter = false ∧ kind ≠ .int := by decide
    obtain ⟨letters, int⟩ := plain kind operator
    exact .of_unlettered letters int fun _ next => expression_apart right rightFits (stops 0).toJoint next rfl
  obtain ⟨current, literal, spells⟩ := spells.token (.of_operator (.inl operator)) apart
  have read : ((Grammar.unary nested).run stream).Accepts (Leaves (.unary token kind.spelling right) (')' :: rest)) := by
    apply (restores right rightFits _ _ _ (by decide) (stops _) spells).andThen
    intro node _ leaves
    obtain ⟨alike, spells⟩ := leaves
    refine .done ⟨?_, spells⟩
    rw [literal]
    exact .unary kind.spelling alike
  have found : ∀ kind ∈ unaryOperators, Rules.standard.opening kind = some .unary := by decide
  exact (accepts_opened .unary current (found kind operator) read).andThen fun left after leaves =>
    accepts_extended ((stops _).halts _ leaves.2) leaves

theorem Restores.binary {token : Option Token} {left right : Node} {operator : Text}
    (fits : (Node.binary token left operator right).Fits .expression)
    (spells : stream.Spells (left.source ++ ' ' :: (operator ++ ' ' :: (right.source ++ ')' :: rest)))) :
    ((Grammar.whole nested.deeper).run stream).Accepts (Leaves (.binary token left operator right) (')' :: rest)) := by
  obtain ⟨_, leftFits, member, rightFits⟩ := fits
  obtain ⟨kind, operator, rfl⟩ := List.mem_map.mp member
  have stops strength : Stops strength (')' :: rest) := .symbol strength rfl rfl
  have lexical := Lexical.of_operator (.inr operator)
  have facts : ∀ kind ∈ binaryOperators, kind ≠ .elseKeyword ∧ Rules.standard.extension kind = some .binary ∧
      Level.lowest.strength < kind.strength ∧ kind.strength < Level.call.strength := by decide
  obtain ⟨notElse, found, strong, weak⟩ := facts kind operator
  have joint : Joint (' ' :: (kind.spelling ++ ' ' :: (right.source ++ ')' :: rest))) :=
    .space fun stream spells => by
      rw [(spells.token lexical apart_blank).1]
      exact notElse
  apply restores.extended ensures operates (by decide) left _ leftFits joint spells
  intro left' after leaves
  obtain ⟨lefts, spells⟩ := leaves
  obtain ⟨current, literal, spells⟩ := spells.blank.token lexical apart_blank
  rw [← after.upcoming_eq] at current
  apply accepts_extendedBy ensures (current ▸ found) (current ▸ strong)
  have tight : after.advanced.current.kind.strength < Level.call.strength := by
    rw [← after.upcoming_eq, current]
    exact weak
  apply (restores right rightFits _ _ _ tight (stops _) spells.blank).andThen
  intro right' last leaves
  obtain ⟨rights, spells⟩ := leaves
  refine .done (accepts_extended ((stops _).halts _ spells) ⟨?_, spells⟩)
  rw [literal]
  exact .binary kind.spelling lefts rights

theorem Operates.deeper : nested.deeper.Operates where
  unary _ _ _ _ _ fits spells := restores.unary fits spells
  binary _ _ _ _ _ _ fits spells := restores.binary ensures operates fits spells

end Nested

theorem expression_restores (levels : Nat) :
    (expression .standard levels).Restores ∧ (expression .standard levels).Operates := by
  induction levels with
  | zero =>
    refine ⟨fun _ _ _ _ _ _ _ _ => .inl (.inl rfl), ?_, ?_⟩
    · exact fun _ _ _ _ _ _ _ => .inl (.inl rfl)
    · exact fun _ _ _ _ _ _ _ _ => .inl (.inl rfl)
  | succ levels ih =>
    obtain ⟨restores, operates⟩ := ih
    have ensures := expression_ensures levels
    rw [expression_succ]
    exact ⟨restores.deeper ensures operates, .deeper restores ensures operates⟩

/-- Within any limit on nesting, the text of a well-formed program is read back. -/
theorem program_restores (levels : Nat) {tree : Node} (fits : tree.Fits .program)
    (spells : stream.Spells tree.source) :
    ((program (expression .standard levels)).run stream).Accepts fun node _ => node.Says tree := by
  cases tree with
  | program token statements =>
    exact (expression_restores levels).1.program (expression_ensures levels) fits spells
  | bare => exact fits.elim
  | boolean => cases fits
  | identifier => exact absurd fits.1 (by simp)
  | _ => cases fits.1

end Mana.Grammar
