import Mana.Proofs.Outline.Agreement

/-! Trees whose leaves hold values of their types. Among those, trees that agree have one outline: which numbers stand
for truth values is told by the classes of the leaves. -/
namespace Mana

namespace Outline

/-- A truth value for the number that it counts as. -/
def truth : Outline → Outline
  | number value => .flag (value != 0)
  | outline => outline

mutual

/-- The outline with truth values for numbers wherever a truth value belongs. -/
def restored : Outline → Outline
  | series items => .series (restoredAll items)
  | record name fields => .record name
      (if name = Leaf.boolean.name then fields.map fun (name, value) => (name, value.truth) else restoredFields fields)
  | outline => outline

def restoredAll : List Outline → List Outline
  | [] => []
  | item :: rest => item.restored :: restoredAll rest

def restoredFields : List (Text × Outline) → List (Text × Outline)
  | [] => []
  | (name, value) :: rest => (name, value.restored) :: restoredFields rest

end

theorem restored_leveled_record (other : name ≠ Leaf.boolean.name) (fields : List (Text × Outline)) :
    (record name fields).leveled.restored = record name (restoredFields (leveledFields fields)) := by
  rw [leveled, restored, if_neg other]

end Outline

/-- Whether a leaf of a class may hold a value, by its type. -/
def Leaf.admits : Leaf → Scalar → Bool
  | .identifier, .words _ | .integer, .number _ | .boolean, .flag _ => true
  | _, _ => false

namespace Node

/-- The leaves of a tree hold values of the types of their classes. -/
def Typed (node : Node) : Prop := ∀ below ∈ node.preorder, ∀ held ∈ below.held?, held.1.admits held.2 = true

def AllTyped (nodes : List Node) : Prop := ∀ below ∈ preorders nodes, ∀ held ∈ below.held?, held.1.admits held.2 = true

mutual

theorem restored_leveled : (node : Node) → node.Typed → node.outline.leveled.restored = node.outline
  | bare _ base, typed => by
    have admitted := (List.forall_mem_cons.mp typed).1
    cases base with
    | leaf kind value =>
      have admitted : kind.admits value = true := admitted _ rfl
      cases kind <;> cases value <;> cases admitted
      · rfl
      · rfl
      · rename_i value
        cases value <;> rfl
    | _ => rfl
  | identifier _ _, _ => rfl
  | integer _ _, _ => rfl
  | boolean _ true, _ => rfl
  | boolean _ false, _ => rfl
  | program _ statements, typed => by
    have all : AllTyped statements := (List.forall_mem_cons.mp typed).2
    rw [outline, Outline.restored_leveled_record (by decide)]
    simp only [Outline.leveledFields, Outline.restoredFields, Outline.leveled, Outline.restored,
      restoredAll_leveledAll statements all]
  | letStatement _ name value, typed => by
    obtain ⟨nameTyped, valueTyped⟩ := List.forall_mem_append.mp (List.forall_mem_cons.mp typed).2
    rw [outline, Outline.restored_leveled_record (by decide)]
    simp only [Outline.leveledFields, Outline.restoredFields, restored_leveled name nameTyped,
      restored_leveled value valueTyped]
  | returnStatement _ value, typed => by
    have valueTyped : value.Typed := (List.forall_mem_cons.mp typed).2
    rw [outline, Outline.restored_leveled_record (by decide)]
    simp only [Outline.leveledFields, Outline.restoredFields, restored_leveled value valueTyped]
  | expressionStatement _ expression, typed => by
    have expressionTyped : expression.Typed := (List.forall_mem_cons.mp typed).2
    rw [outline, Outline.restored_leveled_record (by decide)]
    simp only [Outline.leveledFields, Outline.restoredFields, restored_leveled expression expressionTyped]
  | block _ statements, typed => by
    have all : AllTyped statements := (List.forall_mem_cons.mp typed).2
    rw [outline, Outline.restored_leveled_record (by decide)]
    simp only [Outline.leveledFields, Outline.restoredFields, Outline.leveled, Outline.restored,
      restoredAll_leveledAll statements all]
  | unary _ operator right, typed => by
    have rightTyped : right.Typed := (List.forall_mem_cons.mp typed).2
    rw [outline, Outline.restored_leveled_record (by decide)]
    simp only [Outline.leveledFields, Outline.restoredFields, Outline.leveled, Outline.restored,
      restored_leveled right rightTyped]
  | binary _ left operator right, typed => by
    obtain ⟨leftTyped, rightTyped⟩ := List.forall_mem_append.mp (List.forall_mem_cons.mp typed).2
    rw [outline, Outline.restored_leveled_record (by decide)]
    simp only [Outline.leveledFields, Outline.restoredFields, Outline.leveled, Outline.restored,
      restored_leveled left leftTyped, restored_leveled right rightTyped]
  | conditional _ condition consequence none, typed => by
    obtain ⟨both, _⟩ := List.forall_mem_append.mp (List.forall_mem_cons.mp typed).2
    obtain ⟨conditionTyped, consequenceTyped⟩ := List.forall_mem_append.mp both
    rw [outline, Outline.restored_leveled_record (by decide)]
    simp only [Outline.leveledFields, Outline.restoredFields, alternativeOutline, Outline.leveled, Outline.restored,
      restored_leveled condition conditionTyped, restored_leveled consequence consequenceTyped]
  | conditional _ condition consequence (some alternative), typed => by
    obtain ⟨both, alternativeTyped⟩ := List.forall_mem_append.mp (List.forall_mem_cons.mp typed).2
    obtain ⟨conditionTyped, consequenceTyped⟩ := List.forall_mem_append.mp both
    rw [outline, Outline.restored_leveled_record (by decide)]
    simp only [Outline.leveledFields, Outline.restoredFields, alternativeOutline,
      restored_leveled condition conditionTyped, restored_leveled consequence consequenceTyped, restored_leveled alternative alternativeTyped]
  | function _ parameters body, typed => by
    obtain ⟨all, bodyTyped⟩ := List.forall_mem_append.mp (List.forall_mem_cons.mp typed).2
    rw [outline, Outline.restored_leveled_record (by decide)]
    simp only [Outline.leveledFields, Outline.restoredFields, Outline.leveled, Outline.restored,
      restoredAll_leveledAll parameters all, restored_leveled body bodyTyped]
  | call _ callee arguments, typed => by
    obtain ⟨calleeTyped, all⟩ := List.forall_mem_append.mp (List.forall_mem_cons.mp typed).2
    rw [outline, Outline.restored_leveled_record (by decide)]
    simp only [Outline.leveledFields, Outline.restoredFields, Outline.leveled, Outline.restored,
      restored_leveled callee calleeTyped, restoredAll_leveledAll arguments all]

theorem restoredAll_leveledAll : (nodes : List Node) → AllTyped nodes →
    Outline.restoredAll (Outline.leveledAll (outlines nodes)) = outlines nodes
  | [], _ => rfl
  | node :: nodes, typed => by
    obtain ⟨first, others⟩ : node.Typed ∧ AllTyped nodes := List.forall_mem_append.mp typed
    simp only [outlines, Outline.leveledAll, Outline.restoredAll, restored_leveled node first,
      restoredAll_leveledAll nodes others]

end

/-- Trees whose leaves hold values of their types have one outline just if they agree. -/
theorem outline_eq_iff (typed : Typed node) (typed' : Typed node') :
    node.outline = node'.outline ↔ node.agrees node' = true := by
  rw [← alike_iff]
  constructor
  · intro same
    exact congrArg Outline.leveled same
  · intro alike
    rw [← restored_leveled node typed, ← restored_leveled node' typed']
    exact congrArg Outline.restored alike

end Node

end Mana
