import Mana.Proofs.Grammar.Extended
import Mana.Proofs.Grammar.Series
import Mana.Proofs.Tree.Grouped

/-! Precedence climbing. An expression of a strength takes the operations that bind more tightly, and they are
grouped as if they were split at the weakest of them. -/
namespace Mana

open Grammar Parse

/-- An operand: operators in front of a primary expression, and argument lists after it. -/
structure Operand where
  operators : List Kind
  primary : Text
  calls : List (List Text)

/-- The words of arguments in parentheses. -/
def argumentLexemes (arguments : List Text) : List Word :=
  (.lparen, ['(']) :: (commaWords (arguments.map Text.lexemes) ++ [(.rparen, [')'])])

namespace Operand

/-- The operators and the primary expression are what they are called, and so are the arguments. -/
structure Sound (operand : Operand) : Prop where
  operators : ∀ operator ∈ operand.operators, operator ∈ unaryOperators
  primary : Derives [.part .primary] (scan operand.primary).ahead
  arguments : ∀ arguments ∈ operand.calls, ∀ argument ∈ arguments, Derives [.part .expression] (scan argument).ahead

def lexemes (operand : Operand) : List Word :=
  operand.operators.map (fun operator => (operator, operator.spelling)) ++
    (operand.primary.lexemes ++ operand.calls.flatMap argumentLexemes)

/-- The primary expression is called from left to right, and then the operators are applied, the first one last. -/
def tree (operand : Operand) : Node :=
  operand.operators.foldr (fun operator right => .unary none operator.spelling right)
    (operand.calls.foldl (fun callee arguments => .call none callee (arguments.map Text.expression))
      operand.primary.expression)

end Operand

/-- The words of operators and the operands after them. -/
def chainLexemes (others : List (Kind × Operand)) : List Word :=
  others.flatMap fun (operator, operand) => (operator, operator.spelling) :: operand.lexemes

/-- Every operator stands between operands. -/
def ChainSound (others : List (Kind × Operand)) : Prop :=
  ∀ entry ∈ others, entry.1 ∈ binaryOperators ∧ entry.2.Sound

def chainTrees (others : List (Kind × Operand)) : List (Kind × Node) :=
  others.map fun (operator, operand) => (operator, operand.tree)

theorem argument_length {arguments : List Text} (member : argument ∈ arguments) :
    argument.lexemes.length < (argumentLexemes arguments).length := by
  have sublist : argument.lexemes.Sublist (commaWords (arguments.map Text.lexemes)) := by
    cases arguments with
    | nil => cases member
    | cons first others =>
      rw [List.map_cons, commaWords]
      rcases List.mem_cons.mp member with rfl | member
      · exact List.sublist_append_left _ _
      · have part : (Kind.comma.word :: argument.lexemes).Sublist
            ((others.map Text.lexemes).flatMap (Kind.comma.word :: ·)) :=
          List.sublist_flatten_of_mem (List.mem_map_of_mem (List.mem_map_of_mem member))
        exact (List.sublist_append_of_sublist_right ((List.sublist_cons_self _ _).trans part))
  have bound := sublist.length_le
  rw [argumentLexemes, List.length_cons, List.length_append]
  omega

/-- The step takes the operations that bind more tightly than the strength, and stops before the others. -/
def Step.Climbs (step : Step Node) (strength : Int) (first : Node) (others : List (Kind × Operand))
    (ending : TokenStream) : Prop :=
  ∃ taken left tree beyond, others = taken ++ left ∧ (∀ entry ∈ taken, strength < entry.1.strength) ∧
    (∀ entry ∈ left.head?, entry.1.strength ≤ strength) ∧ Grouped first (chainTrees taken) tree ∧
    step.Yields tree beyond ∧ beyond.Leads (chainLexemes left) ending

namespace Grammar

variable {nested : Nested} {levels : Nat} {strength : Int} {stream rest beyond ending : TokenStream}
  {left longer tree : Node}

/-- Arguments in parentheses extend an expression by a call. -/
theorem extended_call {arguments : List Text}
    (derives : ∀ argument ∈ arguments, Derives [.part .expression] (scan argument).ahead)
    (deep : ∀ argument ∈ arguments, (scan argument).count < levels) (weak : strength < Level.call.strength)
    (leads : stream.advanced.Leads (argumentLexemes arguments ++ more) ending) (alike : left.Says tree) :
    ∃ longer rest, (extended .standard (expression .standard levels) strength left).run stream =
        (extended .standard (expression .standard levels) strength longer).run rest ∧
      longer.Says (.call none tree (arguments.map Text.expression)) ∧ rest.advanced.Leads more ending ∧
      rest.count < stream.count := by
  obtain ⟨middle, front, leads⟩ := leads.append
  obtain ⟨opened, _, inner⟩ := front.cons
  have items : List.Forall₂ (whole (expression .standard levels)).Itemizes (arguments.map Text.lexemes)
      (arguments.map Text.expression) :=
    List.forall₂_map_left_iff.mpr (List.forall₂_map_right_iff.mpr (List.forall₂_same.mpr fun argument member =>
      itemizes_argument (derives argument member) (deep argument member)))
  obtain ⟨nodes, rest, ran, all, after⟩ := run_series items inner
  have called : (call (expression .standard levels) left).run stream.advanced =
      ⟨.done (.call (some stream.advanced.current) left nodes), rest, []⟩ := by
    rw [call, run_current_bind, run_bind_done ran]
    rfl
  have ahead : 0 < stream.advanced.count := TokenStream.count_pos (by rw [opened]; decide)
  have within : rest.Within stream.advanced :=
    (ensures_series ((expression_ensures levels).expression _) (by decide)).within_of ran
  have shorter : rest.count < stream.count := by
    have bound := within.count_le
    rw [TokenStream.advanced_count] at bound ahead
    omega
  have upcoming : stream.upcoming.kind = .lparen := by rw [stream.upcoming_eq, opened]
  refine ⟨.call (some stream.advanced.current) left nodes, rest, ?_, .call alike all, after ▸ leads, shorter⟩
  have extension : Extension.parse (expression .standard levels) left .call = call (expression .standard levels) left :=
    rfl
  exact run_extended_again (by rw [upcoming]; rfl) (by rw [upcoming]; exact weak) (extension ▸ called) shorter

theorem strength_eq (operator : kind ∈ binaryOperators) : kind.strength = kind.rank + 2 := by
  revert operator
  cases kind <;> decide

theorem rank_lt (operator : kind ∈ binaryOperators) (other : kind' ∈ binaryOperators)
    (binds : kind.strength < kind'.strength) : kind.rank < kind'.rank := by
  rw [strength_eq operator, strength_eq other] at binds
  omega

theorem rank_le (operator : kind ∈ binaryOperators) (other : kind' ∈ binaryOperators)
    (weak : kind.strength ≤ kind'.strength) : kind.rank ≤ kind'.rank := by
  rw [strength_eq operator, strength_eq other] at weak
  omega

/-- Operations bind less tightly than operators before an operand. -/
theorem binary_weak (operator : kind ∈ binaryOperators) :
    Level.lowest.strength < kind.strength ∧ kind.strength < Level.unary.strength := by
  revert operator
  cases kind <;> decide

theorem grouped_append {operator : Kind} {operand : Operand} {taken later : List (Kind × Operand)}
    {first right tree : Node} (sound : ChainSound ((operator, operand) :: (taken ++ later)))
    (strong : ∀ entry ∈ taken, operator.strength < entry.1.strength)
    (next : ∀ entry ∈ later.head?, entry.1.strength ≤ operator.strength)
    (inner : Grouped operand.tree (chainTrees taken) right)
    (outer : Grouped (.binary none first operator.spelling right) (chainTrees later) tree) :
    Grouped first (chainTrees ((operator, operand) :: taken ++ later)) tree := by
  obtain ⟨⟨own, _⟩, others⟩ := List.forall_mem_cons.mp sound
  rw [chainTrees, List.map_append]
  refine inner.absorb (fun entry member => ?_) (fun entry head => ?_) outer
  · obtain ⟨source, origin, rfl⟩ := List.mem_map.mp member
    exact rank_lt own (others source (List.mem_append_left _ origin)).1 (strong source origin)
  · cases later with
    | nil => cases head
    | cons source later =>
      cases head
      exact rank_le (others source (by simp)).1 own (next source rfl)

end Grammar

/-- What climbs from the result of an operation on climbs from its first operand on, if the operation binds. -/
theorem Step.Climbs.operation {step : Step Node} {strength : Int} {operator : Kind} {operand : Operand}
    {taken others : List (Kind × Operand)} {first right : Node} {ending : TokenStream}
    (climbs : step.Climbs strength (.binary none first operator.spelling right) others ending)
    (sound : ChainSound ((operator, operand) :: (taken ++ others))) (binds : strength < operator.strength)
    (strong : ∀ entry ∈ taken, operator.strength < entry.1.strength)
    (next : ∀ entry ∈ others.head?, entry.1.strength ≤ operator.strength)
    (inner : Grouped operand.tree (chainTrees taken) right) :
    step.Climbs strength first ((operator, operand) :: (taken ++ others)) ending := by
  obtain ⟨later, left, tree, beyond, rfl, binding, weak, outer, yields, leaves⟩ := climbs
  refine ⟨(operator, operand) :: (taken ++ later), left, tree, beyond, by simp, ?_, weak, ?_, yields, leaves⟩
  · intro entry member
    rcases List.mem_cons.mp member with rfl | member
    · exact binds
    · rcases List.mem_append.mp member with member | member
      · exact Int.lt_trans binds (strong entry member)
      · exact binding entry member
  · refine Grammar.grouped_append (fun entry member => sound entry ?_) strong (fun entry head => ?_) inner outer
    · simp only [List.mem_cons, List.mem_append] at member ⊢
      tauto
    · refine next entry ?_
      rw [List.head?_append, Option.mem_def.mp head]
      rfl

namespace Grammar

variable {nested : Nested} {levels : Nat} {strength : Int} {stream rest ending : TokenStream} {left tree : Node}

/-- An operation extends an expression by what its operator takes. -/
theorem extended_binary (left : Node) {operator : Kind} (own : operator ∈ binaryOperators)
    (binds : strength < operator.strength) (kind : stream.advanced.current.kind = operator)
    (ran : (expression .standard levels operator.strength).run stream.advanced.advanced = ⟨.done right, rest, []⟩) :
    (extended .standard (expression .standard levels) strength left).run stream =
        (extended .standard (expression .standard levels) strength
          (.binary (some stream.advanced.current) left stream.advanced.current.literal right)).run rest ∧
      rest.count < stream.count := by
  have upcoming : stream.upcoming.kind = operator := by rw [stream.upcoming_eq, kind]
  have chosen : Rules.standard.extension stream.upcoming.kind = some .binary :=
    Rules.extension_binary (upcoming ▸ own)
  have longer : 1 < stream.count := TokenStream.one_lt_count (Rules.ne_eof_of_extension chosen)
  have within : rest.Within stream.advanced.advanced :=
    (expression_ensures levels operator.strength stream.advanced.advanced).within_of ran
  have shorter : rest.count < stream.count := by
    have bound := within.count_le
    rw [TokenStream.advanced_count, TokenStream.advanced_count] at bound
    omega
  have operation : (Extension.binary.parse (expression .standard levels) left).run stream.advanced =
      ⟨.done (.binary (some stream.advanced.current) left stream.advanced.current.literal right), rest, []⟩ := by
    change (expression .standard levels stream.advanced.current.kind.strength >>= fun right =>
      pure (Node.binary (some stream.advanced.current) left stream.advanced.current.literal right)).run
        stream.advanced.advanced = _
    rw [kind, run_bind_done ran]
    rfl
  exact ⟨run_extended_again chosen (upcoming ▸ binds) operation shorter, shorter⟩

/-- An operator before what is read as its operand. -/
theorem yields_unary {operator : Kind} (own : operator ∈ unaryOperators) (kind : stream.current.kind = operator)
    (literal : stream.current.literal = operator.spelling)
    (yields : ((expression .standard levels Level.unary.strength).run stream.advanced).Yields right beyond) :
    ((opened .standard (expression .standard levels)).run stream).Yields (.unary none operator.spelling right)
      beyond := by
  obtain ⟨node, rest, ran, alike, after⟩ := yields
  refine ⟨.unary (some stream.current) stream.current.literal node, rest, ?_, literal ▸ .unary _ alike, after⟩
  have chosen := Rules.opening_unary (kind ▸ own)
  simp only [opened, run_current_bind, chosen]
  change (expression .standard levels Level.unary.strength >>= fun right =>
    pure (Node.unary (some stream.current) stream.current.literal right)).run stream.advanced = _
  rw [run_bind_done ran]
  rfl

/-- Nested expressions climb chains of operations with fewer tokens than the depth, up to the end. -/
def Nested.Climbs (nested : Nested) (depth : Nat) : Prop :=
  ∀ strength first others stream ending, stream.count < depth → strength < Level.call.strength →
    Operand.Sound first → ChainSound others → ending.current.kind = .eof →
      stream.Leads (first.lexemes ++ chainLexemes others) ending →
        ((nested strength).run stream).Climbs strength first.tree others ending

theorem climbs_halted {others : List (Kind × Operand)} (halts : Halts strength stream.upcoming)
    (weak : ∀ entry ∈ others.head?, entry.1.strength ≤ strength)
    (leads : stream.advanced.Leads (chainLexemes others) ending) (alike : left.Says tree) :
    ((extended .standard nested strength left).run stream).Climbs strength tree others ending :=
  ⟨[], others, tree, stream.advanced, rfl, nofun, weak, .operand tree,
    ⟨left, stream, run_extended_halts nested left halts, alike, rfl⟩, leads⟩

namespace Nested.Climbs

variable (climbs : Nested.Climbs (expression .standard levels) levels) (ended : ending.current.kind = .eof)
include climbs ended

/-- An expression is extended by the operations that bind more tightly, each of which takes those that bind more
tightly than itself. -/
theorem operations {others : List (Kind × Operand)} {first : Node} (sound : ChainSound others)
    (deep : stream.count ≤ levels) (leads : stream.advanced.Leads (chainLexemes others) ending)
    (alike : left.Says first) :
    ((extended .standard (expression .standard levels) strength left).run stream).Climbs strength first others
      ending := by
  induction measure : others.length using Nat.strongRecOn generalizing others first stream left with
  | ind length ih =>
    cases others with
    | nil =>
      have last : stream.upcoming.kind = .eof := by rw [stream.upcoming_eq, leads.eq_rest, ended]
      exact climbs_halted (.inr (.inr (by rw [last]; rfl))) nofun leads alike
    | cons entry others =>
      obtain ⟨operator, operand⟩ := entry
      obtain ⟨⟨own, operandSound⟩, othersSound⟩ := List.forall_mem_cons.mp sound
      obtain ⟨kind, literal, inner⟩ := leads.cons
      by_cases binds : strength < operator.strength
      · have shallow : stream.advanced.advanced.count < levels := by
          have longer : 1 < stream.count := TokenStream.one_lt_count (by
            rw [stream.upcoming_eq, kind]
            exact ne_eof_of_binary own)
          rw [TokenStream.advanced_count, TokenStream.advanced_count]
          omega
        obtain ⟨taken, others, right, beyond, rfl, strong, next, nested, yields, follows⟩ :=
          climbs operator.strength operand others _ ending shallow
            (Int.lt_trans (binary_weak own).2 (by decide)) operandSound othersSound ended inner
        obtain ⟨node, rest, ran, nodeAlike, after⟩ := yields
        obtain ⟨going, shorter⟩ := extended_binary left own binds kind ran
        have fewer : others.length < length := by
          rw [← measure, List.length_cons, List.length_append]
          omega
        have longer : (Node.binary (some stream.advanced.current) left stream.advanced.current.literal node).Says
            (.binary none first operator.spelling right) := literal ▸ .binary _ alike nodeAlike
        have later := ih others.length fewer (fun entry member => othersSound entry (List.mem_append_right _ member))
          (by omega) (after ▸ follows) longer rfl
        exact going ▸ later.operation sound binds strong next nested
      · have upcoming : stream.upcoming.kind = operator := by rw [stream.upcoming_eq, kind]
        refine climbs_halted (.inr (.inl (by rw [upcoming]; omega))) (fun _ same => ?_) leads alike
        obtain rfl := Option.some.inj same
        exact Int.not_lt.mp binds

/-- An expression is called with all the arguments after it before it takes operations. -/
theorem calls {calls : List (List Text)} {others : List (Kind × Operand)} {callee : Node}
    (derives : ∀ arguments ∈ calls, ∀ argument ∈ arguments, Derives [.part .expression] (scan argument).ahead)
    (sound : ChainSound others) (weak : strength < Level.call.strength) (deep : stream.count ≤ levels)
    (leads : stream.advanced.Leads (calls.flatMap argumentLexemes ++ chainLexemes others) ending)
    (alike : left.Says callee) :
    ((extended .standard (expression .standard levels) strength left).run stream).Climbs strength
      (calls.foldl (fun callee arguments => .call none callee (arguments.map Text.expression)) callee) others
      ending := by
  induction calls generalizing stream left callee with
  | nil => exact climbs.operations ended sound deep leads alike
  | cons arguments calls ih =>
    obtain ⟨own, derives⟩ := List.forall_mem_cons.mp derives
    rw [List.flatMap_cons, List.append_assoc] at leads
    have shallow (argument : Text) (member : argument ∈ arguments) : (scan argument).count < levels := by
      have bound := leads.count
      have shorter := argument_length member
      rw [Text.lexemes, List.length_map, ← TokenStream.count_eq] at shorter
      rw [TokenStream.advanced_count, List.length_append] at bound
      omega
    obtain ⟨longer, rest, going, called, follows, shorter⟩ := extended_call own shallow weak leads alike
    rw [going]
    exact ih derives (by omega) follows called

/-- An operand that begins with an operator is what that takes, and no operation binds as tightly. -/
theorem unary {operator : Kind} {operand : Operand} {others : List (Kind × Operand)}
    (own : operator ∈ unaryOperators) (operandSound : operand.Sound) (sound : ChainSound others)
    (deep : stream.count ≤ levels)
    (leads : stream.Leads ((operator, operator.spelling) :: (operand.lexemes ++ chainLexemes others)) ending) :
    ∃ node rest, (opened .standard (expression .standard levels)).run stream = ⟨.done node, rest, []⟩ ∧
      node.Says (.unary none operator.spelling operand.tree) ∧ rest.advanced.Leads (chainLexemes others) ending := by
  obtain ⟨kind, literal, inner⟩ := leads.cons
  have shallow : stream.advanced.count < levels := by
    have some := leads.count
    rw [List.length_cons] at some
    rw [TokenStream.advanced_count]
    omega
  obtain ⟨taken, left, tree, beyond, rfl, strong, _, grouped, yields, follows⟩ :=
    climbs Level.unary.strength operand others _ ending shallow (by decide) operandSound sound ended inner
  obtain rfl : taken = [] := by
    refine List.eq_nil_iff_forall_not_mem.mpr fun entry member => ?_
    have weak := (binary_weak (sound entry (List.mem_append_left _ member)).1).2
    have binds := strong entry member
    omega
  obtain rfl : tree = operand.tree := grouped.unique (.operand _)
  obtain ⟨node, rest, ran, alike, after⟩ := yields_unary own kind literal yields
  exact ⟨node, rest, ran, alike, after ▸ follows⟩

end Nested.Climbs

theorem follows_not_else {calls : List (List Text)} {others : List (Kind × Operand)} (sound : ChainSound others)
    (ended : ending.current.kind = .eof)
    (leads : stream.Leads (calls.flatMap argumentLexemes ++ chainLexemes others) ending) :
    stream.current.kind ≠ .elseKeyword := by
  cases calls with
  | cons arguments calls =>
    rw [List.flatMap_cons, List.append_assoc] at leads
    rw [leads.cons.1]
    decide
  | nil =>
    cases others with
    | nil =>
      rw [leads.eq_rest, ended]
      decide
    | cons entry others =>
      intro same
      have own := (sound entry List.mem_cons_self).1
      rw [← leads.cons.1, same] at own
      exact absurd own (by decide)

/-- Expressions climb every chain of operations with fewer tokens than levels. -/
theorem expression_climbs (levels : Nat) : Nested.Climbs (expression .standard levels) levels := by
  induction levels with
  | zero => exact fun _ _ _ _ _ deep => absurd deep (Nat.not_lt_zero _)
  | succ levels ih =>
    intro strength first others stream ending deep weak firstSound sound ended leads
    obtain ⟨operators, primary, calls⟩ := first
    cases operators with
    | nil =>
      rw [Operand.lexemes, List.map_nil, List.nil_append, List.append_assoc] at leads
      obtain ⟨beyond, front, follows⟩ := leads.append
      have shallow : (scan primary).count ≤ levels := by
        have bound : stream.count = primary.lexemes.length + beyond.count := front.count
        rw [Text.lexemes, List.length_map, ← TokenStream.count_eq] at bound
        omega
      obtain ⟨node, rest, ran, alike, after⟩ :=
        Text.primary_yields firstSound.primary shallow front (follows_not_else sound ended follows)
      have within := ((expression_ensures levels).opened stream).within_of ran
      rw [expression, run_bind_done ran, Step.since_nil]
      exact ih.calls ended firstSound.arguments sound weak (Nat.le_trans within.count_le (Nat.le_of_lt_succ deep))
        (after ▸ follows) alike
    | cons operator operators =>
      obtain ⟨own, operatorsSound⟩ := List.forall_mem_cons.mp firstSound.operators
      have inner : Operand.Sound ⟨operators, primary, calls⟩ :=
        ⟨operatorsSound, firstSound.primary, firstSound.arguments⟩
      obtain ⟨node, rest, ran, alike, follows⟩ := ih.unary ended own inner sound (Nat.le_of_lt_succ deep) leads
      have within := ((expression_ensures levels).opened stream).within_of ran
      rw [expression, run_bind_done ran, Step.since_nil]
      exact ih.operations ended sound (Nat.le_trans within.count_le (Nat.le_of_lt_succ deep)) follows alike

end Grammar

end Mana
