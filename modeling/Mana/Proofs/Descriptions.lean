import Mana.Proofs.Outline.Description
import Mana.Proofs.Outline.Types
import Mana.Stack

/-! Trees can be told apart by their descriptions as well as by their outlines, whatever names, operators and numbers
they hold. Comparing them tells the same, but for truth values, which equal numbers. -/
namespace Mana.Node

open Outline

mutual

/-- The classes of nodes and their fields have words for names. -/
theorem outline_named : (node : Node) → node.outline.Named
  | bare _ (.leaf kind value) => by
    cases kind <;> cases value <;> exact ⟨by decide, ⟨by decide, trivial⟩, trivial⟩
  | bare _ .node | bare _ .statement | bare _ .expression => ⟨by decide, trivial⟩
  | program _ statements => ⟨by decide, ⟨by decide, outlines_named statements⟩, trivial⟩
  | letStatement _ name value =>
    ⟨by decide, ⟨by decide, outline_named name⟩, ⟨by decide, outline_named value⟩, trivial⟩
  | returnStatement _ value => ⟨by decide, ⟨by decide, outline_named value⟩, trivial⟩
  | expressionStatement _ expression => ⟨by decide, ⟨by decide, outline_named expression⟩, trivial⟩
  | block _ statements => ⟨by decide, ⟨by decide, outlines_named statements⟩, trivial⟩
  | identifier _ _ => ⟨by decide, ⟨by decide, trivial⟩, trivial⟩
  | integer _ _ => ⟨by decide, ⟨by decide, trivial⟩, trivial⟩
  | boolean _ _ => ⟨by decide, ⟨by decide, trivial⟩, trivial⟩
  | unary _ _ right => ⟨by decide, ⟨by decide, trivial⟩, ⟨by decide, outline_named right⟩, trivial⟩
  | binary _ left _ right =>
    ⟨by decide, ⟨by decide, outline_named left⟩, ⟨by decide, trivial⟩, ⟨by decide, outline_named right⟩, trivial⟩
  | conditional _ condition consequence alternative =>
    ⟨by decide, ⟨by decide, outline_named condition⟩, ⟨by decide, outline_named consequence⟩,
      ⟨by decide, alternativeOutline_named alternative⟩, trivial⟩
  | function _ parameters body =>
    ⟨by decide, ⟨by decide, outlines_named parameters⟩, ⟨by decide, outline_named body⟩, trivial⟩
  | call _ callee arguments =>
    ⟨by decide, ⟨by decide, outline_named callee⟩, ⟨by decide, outlines_named arguments⟩, trivial⟩

theorem outlines_named : (nodes : List Node) → AllNamed (outlines nodes)
  | [] => trivial
  | node :: nodes => ⟨outline_named node, outlines_named nodes⟩

theorem alternativeOutline_named : (alternative : Option Node) → (alternativeOutline alternative).Named
  | none => trivial
  | some node => outline_named node

end

theorem description_eq_iff (node node' : Node) :
    node.description = node'.description ↔ node.outline = node'.outline := by
  constructor
  · exact description_injective (outline_named node) (outline_named node')
  · exact congrArg Outline.description

theorem describe?_eq_some_iff (room : Stack.holds stack .describing node = true) :
    stack.describe? node = some text ↔ node.isShort = true ∧ node.description = text := by
  rw [Stack.describe?, room, Bool.true_and]
  split <;> simp [*]

/-- Trees that there is room to compare agree just if their outlines are alike. They have descriptions unless some
number in them is too long, and these are one just if the outlines are. Trees with one description agree, and trees that
agree have one if their leaves hold values of their types. -/
theorem agrees_iff_described (stack : Stack) (node node' : Node) (room : stack.holds .describing node = true)
    (room' : stack.holds .describing node' = true) :
    (node.agrees node' = true ↔ node.outline.Alike node'.outline) ∧
      ((∃ text, stack.describe? node = some text) ↔ node.isShort = true) ∧
      ∀ text text', stack.describe? node = some text → stack.describe? node' = some text' →
        (text = text' ↔ node.outline = node'.outline) ∧ (text = text' → node.agrees node' = true) ∧
          (node.Typed → node'.Typed → node.agrees node' = true → text = text') := by
  refine ⟨(alike_iff node node').symm, ?_, fun text text' described described' => ?_⟩
  · simp only [describe?_eq_some_iff room, exists_and_left, exists_eq', and_true]
  · obtain ⟨_, rfl⟩ := (describe?_eq_some_iff room).mp described
    obtain ⟨_, rfl⟩ := (describe?_eq_some_iff room').mp described'
    refine ⟨description_eq_iff node node', fun same => ?_, fun typed typed' agrees => ?_⟩
    · have one := (description_eq_iff node node').mp same
      exact (alike_iff node node').mp (congrArg Outline.leveled one)
    · exact (description_eq_iff node node').mpr ((outline_eq_iff typed typed').mpr agrees)

theorem typed_identifier (token : Option Token) (name : Text) : (identifier token name).Typed := by
  intro below member held holds
  cases List.mem_singleton.mp member
  cases holds
  rfl

/-- A name that spells fields and another class is still one name. -/
theorem agrees_iff_described_quoted :
    (identifier none "a', token='b".toList).agrees (identifier none "a".toList) = false ∧
      Stack.standard.describe? (identifier none "a', token='b".toList) =
        some "Identifier(value=\"a', token='b\")".toList ∧
      Stack.standard.describe? (identifier none "a".toList) = some "Identifier(value='a')".toList := by
  have spelled : Stack.standard.describe? (identifier none "a', token='b".toList) =
      some "Identifier(value=\"a', token='b\")".toList := rfl
  have plain : Stack.standard.describe? (identifier none "a".toList) = some "Identifier(value='a')".toList :=
    rfl
  obtain ⟨_, _, told⟩ := agrees_iff_described .standard (identifier none "a', token='b".toList)
    (identifier none "a".toList) rfl rfl
  obtain ⟨_, _, whole⟩ := told _ _ spelled plain
  refine ⟨Bool.eq_false_iff.mpr fun agrees => ?_, spelled, plain⟩
  exact absurd (whole (typed_identifier none _) (typed_identifier none _) agrees) (by decide)

/-- A number of more than 4300 digits equals itself without having a description, and a leaf that holds one equals
another that holds the truth value, under another description. -/
theorem agrees_not_described :
    (integer none (10 ^ 4300)).agrees (integer none (10 ^ 4300)) = true ∧
      (∀ stack : Stack, stack.describe? (integer none (10 ^ 4300)) = none) ∧
      (bare none (.leaf .boolean (.number 1))).agrees (boolean none true) = true ∧
      Stack.standard.describe? (bare none (.leaf .boolean (.number 1))) = some "Boolean(value=1)".toList ∧
      Stack.standard.describe? (boolean none true) = some "Boolean(value=True)".toList := by
  have long : (integer none (10 ^ 4300)).isShort = false := by decide +kernel
  refine ⟨decide_eq_true rfl, fun stack => ?_, by decide, by decide +kernel, rfl⟩
  rw [Stack.describe?, long, Bool.and_false]
  rfl

end Mana.Node
