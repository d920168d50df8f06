import Mana.Node.Agreement
import Mana.Node.Outline

/-! Trees agree just if their outlines are alike: an outline names the class of every node, and leaves nothing out but
the tokens. -/
namespace Mana

namespace Outline

@[simp] theorem alike_words : (words text).Alike (words text') ↔ text = text' := iff_of_eq (words.injEq ..)

@[simp] theorem alike_number : (number value).Alike (number value') ↔ value = value' := iff_of_eq (number.injEq ..)

@[simp] theorem alike_series : (series items).Alike (series items') ↔ leveledAll items = leveledAll items' :=
  iff_of_eq (series.injEq ..)

@[simp] theorem alike_record : (record name fields).Alike (record name' fields') ↔
    name = name' ∧ leveledFields fields = leveledFields fields' := iff_of_eq (record.injEq ..)

@[simp] theorem alike_fields : leveledFields ((name, value) :: rest) = leveledFields ((name', value') :: rest') ↔
    (name = name' ∧ value.Alike value') ∧ leveledFields rest = leveledFields rest' :=
  List.cons_eq_cons.trans (and_congr_left' (iff_of_eq (Prod.mk.injEq ..)))

@[simp] theorem alike_items : leveledAll (item :: rest) = leveledAll (item' :: rest') ↔
    item.Alike item' ∧ leveledAll rest = leveledAll rest' := List.cons_eq_cons

end Outline

theorem Scalar.alike_iff (value value' : Scalar) : value.outline.Alike value'.outline ↔ value.agrees value' = true := by
  cases value <;> cases value' <;> simp only [agrees, decide_eq_true_eq] <;>
    simp [Outline.Alike, outline, Outline.leveled, amount]

theorem Leaf.name_eq_iff (kind kind' : Leaf) : kind.name = kind'.name ↔ kind = kind' := by
  cases kind <;> cases kind' <;> decide

theorem Node.outline_held {node : Node} (held : node.held? = some (kind, value)) :
    node.outline = .record kind.name [("value".toList, value.outline)] := by
  cases node with
  | identifier | integer | boolean => cases held; rfl
  | bare token base => cases base <;> cases held; rfl
  | _ => cases held

namespace Base

theorem alike_leaf (kind : Leaf) (value : Scalar) (node : Node) :
    (leaf kind value).outline.Alike node.outline ↔ (leaf kind value).agrees node = true := by
  cases held : node.held? with
  | some held' =>
    rw [Node.outline_held held, outline, Outline.alike_record, agrees, held]
    simp only [Outline.leveledFields, Option.any_some, Leaf.name_eq_iff, List.cons.injEq, Prod.mk.injEq, true_and, and_true,
      Bool.and_eq_true, decide_eq_true_eq, ← Scalar.alike_iff, Outline.Alike]
  | none =>
    simp only [agrees, held, Option.any_none, outline]
    cases node with
    | bare token base => cases base <;> cases held <;> simp [Node.outline, outline, Outline.alike_record, Outline.leveledFields]
    | identifier | integer | boolean => cases held
    | _ => simp [Node.outline, Outline.alike_record, Outline.leveledFields]

theorem alike_iff (base : Base) (node : Node) : base.outline.Alike node.outline ↔ base.agrees node = true := by
  cases base with
  | leaf kind value => exact alike_leaf kind value node
  | _ =>
    cases node with
    | bare token other =>
      simp only [agrees, decide_eq_true_eq, Node.outline]
      cases other <;> simp only [outline, Outline.alike_record, Outline.leveledFields, reduceCtorEq, and_false, and_true,
        iff_false]
      all_goals decide
    | _ => simp [Node.outline, outline, agrees, Outline.alike_record, Outline.leveledFields]

end Base

namespace Node

theorem alike_bare (node : Node) (base : Base) : node.outline.Alike base.outline ↔ base.agrees node = true :=
  eq_comm.trans (base.alike_iff node)

theorem alike_absent (node : Node) : ¬ Outline.Alike .absent node.outline := by
  cases node with
  | bare _ base => cases base <;> exact nofun
  | _ => exact nofun

mutual

theorem alike_iff : (node node' : Node) → (node.outline.Alike node'.outline ↔ node.agrees node' = true)
  | bare _ base, node' => by
    rw [agrees]
    exact base.alike_iff node'
  | program _ statements, node' => by
    cases node' with
    | bare _ base => exact alike_bare _ base
    | _ => simp [outline, agrees, outlines_alike_iff statements]
  | letStatement _ name value, node' => by
    cases node' with
    | bare _ base => exact alike_bare _ base
    | _ => simp [outline, agrees, alike_iff name, alike_iff value]
  | returnStatement _ value, node' => by
    cases node' with
    | bare _ base => exact alike_bare _ base
    | _ => simp [outline, agrees, alike_iff value]
  | expressionStatement _ expression, node' => by
    cases node' with
    | bare _ base => exact alike_bare _ base
    | _ => simp [outline, agrees, alike_iff expression]
  | block _ statements, node' => by
    cases node' with
    | bare _ base => exact alike_bare _ base
    | _ => simp [outline, agrees, outlines_alike_iff statements]
  | identifier _ name, node' => by
    cases node' with
    | bare _ base => exact alike_bare _ base
    | _ => simp [outline, agrees, Leaf.name_eq_iff]
  | integer _ value, node' => by
    cases node' with
    | bare _ base => exact alike_bare _ base
    | _ => simp [outline, agrees, Leaf.name_eq_iff]
  | boolean _ value, node' => by
    cases node' with
    | bare _ base => exact alike_bare _ base
    | boolean _ value' => cases value <;> cases value' <;> simp [outline, agrees, Outline.Alike, Outline.leveled]
    | _ => simp [outline, agrees, Leaf.name_eq_iff]
  | unary _ operator right, node' => by
    cases node' with
    | bare _ base => exact alike_bare _ base
    | _ => simp [outline, agrees, alike_iff right]
  | binary _ left operator right, node' => by
    cases node' with
    | bare _ base => exact alike_bare _ base
    | _ => simp [outline, agrees, alike_iff left, alike_iff right, and_assoc]
  | conditional _ condition consequence alternative, node' => by
    cases node' with
    | bare _ base => exact alike_bare _ base
    | _ => simp [outline, agrees, alike_iff condition, alike_iff consequence, alternativeOutline_alike_iff alternative, and_assoc]
  | function _ parameters body, node' => by
    cases node' with
    | bare _ base => exact alike_bare _ base
    | _ => simp [outline, agrees, outlines_alike_iff parameters, alike_iff body]
  | call _ callee arguments, node' => by
    cases node' with
    | bare _ base => exact alike_bare _ base
    | _ => simp [outline, agrees, outlines_alike_iff arguments, alike_iff callee]

theorem outlines_alike_iff : (nodes nodes' : List Node) →
    (Outline.leveledAll (outlines nodes) = Outline.leveledAll (outlines nodes') ↔ agree nodes nodes' = true)
  | [], nodes' => by cases nodes' <;> simp [outlines, agree, Outline.leveledAll]
  | node :: nodes, nodes' => by
    cases nodes' with
    | nil => simp [outlines, agree, Outline.leveledAll]
    | cons => simp [outlines, agree, alike_iff node, outlines_alike_iff nodes]

theorem alternativeOutline_alike_iff : (alternative alternative' : Option Node) →
    ((alternativeOutline alternative).Alike (alternativeOutline alternative') ↔
      alternativesAgree alternative alternative' = true)
  | none, none => by simp [alternativesAgree, Outline.Alike]
  | none, some node' => iff_of_false (alike_absent node') Bool.false_ne_true
  | some node, none => iff_of_false (fun same => alike_absent node same.symm) Bool.false_ne_true
  | some node, some node' => by simp [alternativeOutline, alternativesAgree, alike_iff node node']

end

end Node

end Mana
