import Mana.Node

/-! Operations by precedence: a chain of operands with operators between them is split at the last one of its
weakest operators, and so are both sides of that. -/
namespace Mana

/-- How tightly an operator between operands binds: equalities bind weakest, then comparisons, sums and
products. -/
def Kind.rank : Kind → Nat
  | eq | notEq => 0
  | lt | gt => 1
  | plus | minus => 2
  | asterisk | slash => 3
  | _ => 4

/-- The tree of a first operand and of the others, each with the operator in front of it. -/
inductive Grouped : Node → List (Kind × Node) → Node → Prop where
  | operand (first : Node) : Grouped first [] first
  | operation {before after : List (Kind × Node)} {operator : Kind} {operand : Node}
      (weak : ∀ earlier ∈ before, operator.rank ≤ earlier.1.rank)
      (weakest : ∀ later ∈ after, operator.rank < later.1.rank)
      (left : Grouped first before leftTree) (right : Grouped operand after rightTree) :
      Grouped first (before ++ (operator, operand) :: after)
        (.binary none leftTree operator.spelling rightTree)

namespace Grouped

variable {first operand left tree result : Node} {taken rest : List (Kind × Node)} {operator : Kind}

private theorem split_unique {before before' after after' : List (Kind × Node)} {entry entry' : Kind × Node}
    (weak : ∀ earlier ∈ before, entry.1.rank ≤ earlier.1.rank)
    (weakest' : ∀ later ∈ after', entry'.1.rank < later.1.rank)
    (weakest : ∀ later ∈ after, entry.1.rank < later.1.rank)
    (weak' : ∀ earlier ∈ before', entry'.1.rank ≤ earlier.1.rank)
    (same : before ++ entry :: after = before' ++ entry' :: after') :
    before = before' ∧ entry = entry' ∧ after = after' := by
  rcases List.append_eq_append_iff.mp same with ⟨more, rfl, split⟩ | ⟨more, rfl, split⟩
  · cases more with
    | nil => simpa using split
    | cons other more =>
      obtain ⟨rfl, rfl⟩ := List.cons.inj split
      have below := weakest entry' (by simp)
      have above := weak' entry (by simp)
      omega
  · cases more with
    | nil => simpa using split.symm
    | cons other more =>
      obtain ⟨rfl, rfl⟩ := List.cons.inj split
      have below := weakest' entry (by simp)
      have above := weak entry' (by simp)
      omega

theorem unique (one : Grouped first rest tree) (other : Grouped first rest result) : tree = result := by
  induction one generalizing result with
  | operand first =>
    generalize same : [] = rest at other
    cases other with
    | operand => rfl
    | operation => exact absurd same (by simp)
  | @operation first leftTree rightTree before after operator operand weak weakest _ _ left right =>
    generalize same : before ++ (operator, operand) :: after = rest at other
    cases other with
    | operand => exact absurd same (by simp)
    | operation weak' weakest' left' right' =>
      obtain ⟨rfl, entries, rfl⟩ := split_unique weak weakest' weakest weak' same
      obtain ⟨rfl, rfl⟩ := Prod.mk.inj entries
      rw [left left', right right']

/-- An operation and what its right operand takes come before weaker operators as one operand. -/
theorem absorb (right : Grouped operand taken tree)
    (strong : ∀ later ∈ taken, operator.rank < later.1.rank)
    (weaker : ∀ next ∈ rest.head?, next.1.rank ≤ operator.rank)
    (whole : Grouped (.binary none left operator.spelling tree) rest result) :
    Grouped left ((operator, operand) :: taken ++ rest) result := by
  generalize same : Node.binary none left operator.spelling tree = first at whole
  induction whole with
  | operand first =>
    subst same
    rw [List.append_nil]
    have whole : Grouped left ([] ++ (operator, operand) :: taken) _ :=
      .operation nofun strong (.operand left) right
    exact whole
  | @operation first leftTree rightTree before after last other weak weakest _ others ih _ =>
    have least : last.rank ≤ operator.rank := by
      cases before with
      | nil => exact weaker (last, other) rfl
      | cons next before =>
        exact Nat.le_trans (weak next List.mem_cons_self) (weaker next rfl)
    have before' : ∀ next ∈ before.head?, next.1.rank ≤ operator.rank := by
      cases before with
      | nil => nofun
      | cons next before => exact weaker
    rw [← List.append_assoc]
    refine .operation (fun earlier member => ?_) weakest (ih before' same) others
    rcases List.mem_append.mp member with member | member
    · rcases List.mem_cons.mp member with rfl | member
      · exact least
      · exact Nat.le_trans least (Nat.le_of_lt (strong earlier member))
    · exact weak earlier member

end Grouped

end Mana
