import Mana.Kind

/-! Binding levels of operators, weakest first, and the level at which each kind extends an
expression. -/
namespace Mana

inductive Level where
  | lowest | equality | comparison | sum | product | unary | call
  deriving DecidableEq

namespace Level

def all : List Level := [lowest, equality, comparison, sum, product, unary, call]

def name : Level → Text
  | lowest => "LOWEST".toList
  | equality => "EQUALS".toList
  | comparison => "LESSGREATER".toList
  | sum => "SUM".toList
  | product => "PRODUCT".toList
  | unary => "PREFIX".toList
  | call => "CALL".toList

/-- Levels count upwards from one. -/
def strength : Level → Int
  | lowest => 1
  | equality => 2
  | comparison => 3
  | sum => 4
  | product => 5
  | unary => 6
  | call => 7

end Level

namespace Kind

/-- The level at which a kind extends an expression on its left. -/
def level? : Kind → Option Level
  | eq | notEq => some .equality
  | lt | gt => some .comparison
  | plus | minus => some .sum
  | asterisk | slash => some .product
  | lparen => some .call
  | _ => none

/-- The strength with which a kind binds to its left; a kind that extends nothing has the lowest. -/
def strength (kind : Kind) : Int := (kind.level?.getD .lowest).strength

end Kind

end Mana
