import Mathlib.Data.List.Infix
import Mana.Proofs.Token.Left

/-! Braces: how many more of them are opened than closed, and what is left of that while a form is parsed. -/
namespace Mana

/-- How many braces a token of the kind opens. One that is closed counts against those. -/
def Kind.turn : Kind → Int
  | lbrace => 1
  | rbrace => -1
  | _ => 0

/-- How many more braces are opened than closed. -/
def excess : List Kind → Int
  | [] => 0
  | kind :: kinds => kind.turn + excess kinds

/-- Every closing brace has an earlier partner, and no brace is left open. -/
structure Balanced (kinds : List Kind) : Prop where
  partnered : ∀ before, before <+: kinds → 0 ≤ excess before
  closed : excess kinds = 0

instance (kinds : List Kind) : Decidable (Balanced kinds) :=
  decidable_of_iff ((∀ before ∈ kinds.inits, 0 ≤ excess before) ∧ excess kinds = 0)
    ⟨fun balanced => ⟨fun before starts => balanced.1 before ((List.mem_inits _ _).mpr starts), balanced.2⟩,
      fun balanced =>
        ⟨fun before starts => balanced.partnered before ((List.mem_inits _ _).mp starts), balanced.closed⟩⟩

@[simp] theorem excess_nil : excess [] = 0 := rfl

@[simp] theorem excess_cons (kind : Kind) (kinds : List Kind) : excess (kind :: kinds) = kind.turn + excess kinds := rfl

@[simp] theorem excess_append (first second : List Kind) : excess (first ++ second) = excess first + excess second := by
  induction first with
  | nil => simp
  | cons kind first ih => rw [List.cons_append, excess_cons, excess_cons, ih, Int.add_assoc]

theorem excess_eq (kinds : List Kind) : excess kinds = kinds.count .lbrace - kinds.count .rbrace := by
  induction kinds with
  | nil => rfl
  | cons kind kinds ih =>
    rw [excess_cons, ih, List.count_cons, List.count_cons]
    cases kind <;> simp [Kind.turn] <;> omega

/-- Balanced braces and a closing one after them end with that one, where they are no longer open. -/
theorem Balanced.end_of_closed {kinds before after : List Kind} (balanced : Balanced kinds)
    (split : kinds ++ [.rbrace] = before ++ after) (closed : excess before ≤ -1) : after = [] := by
  rcases List.eq_nil_or_concat after with none | ⟨front, last, rfl⟩
  · exact none
  · rw [List.concat_eq_append, ← List.append_assoc] at split
    have whole := (List.append_inj' split rfl).1
    have open' := balanced.partnered before ⟨front, whole.symm⟩
    omega

namespace TokenStream

variable {bound : Int} {stage : Stage} {rest stream : TokenStream}

/-- The kinds of the tokens ahead. -/
def kinds (stream : TokenStream) : List Kind := stream.ahead.map Token.kind

theorem kinds_eq (stream : TokenStream) :
    stream.kinds = stream.current.kind :: stream.advanced.kinds ∨
      stream.current.kind = .eof ∧ stream.kinds = [] ∧ stream.advanced.kinds = [] := by
  cases split : stream.ahead with
  | nil => exact .inr (by simp [kinds, advanced, current, final, split])
  | cons token rest => exact .inl (by simp [kinds, advanced, current, split])

theorem kinds_cons (split : stream.kinds = kind :: others) :
    stream.current.kind = kind ∧ stream.advanced.kinds = others := by
  rcases stream.kinds_eq with same | ⟨_, none, _⟩
  · rw [same] at split
    exact List.cons.inj split
  · rw [none] at split
    cases split

theorem kinds_of_going (going : stream.current.kind ≠ .eof) :
    stream.kinds = stream.current.kind :: stream.advanced.kinds :=
  stream.kinds_eq.resolve_right fun ended => going ended.1

theorem Within.kinds_suffix (within : rest.Within stream) : rest.kinds <:+ stream.kinds := within.ahead.map Token.kind

/-- To pass a token of another kind is to pass none of this one. -/
theorem count_kinds (other : stream.current.kind ≠ kind) :
    stream.advanced.kinds.count kind = stream.kinds.count kind := by
  rcases stream.kinds_eq with split | ⟨_, none, nothing⟩
  · rw [split, List.count_cons_of_ne other]
  · rw [none, nothing]

theorem excess_kinds (stream : TokenStream) :
    excess stream.kinds = stream.current.kind.turn + excess stream.advanced.kinds := by
  rcases stream.kinds_eq with split | ⟨ended, none, nothing⟩
  · rw [split, excess_cons]
  · rw [ended, none, nothing]
    rfl

/-- What is left at the stage opens at most so many more braces than it closes. An opening brace is not read
but together with its block. -/
def Opens (stream : TokenStream) (bound : Int) : Stage → Prop
  | .due => excess stream.kinds ≤ bound
  | .read => excess stream.advanced.kinds ≤ bound ∧ stream.current.kind ≠ .lbrace

namespace Opens

theorem advanced (opens : stream.Opens bound .read) : stream.advanced.Opens bound .due := opens.1

theorem take (opens : stream.Opens bound .due) (plain : stream.current.kind.turn = 0) : stream.Opens bound .read := by
  refine ⟨?_, fun brace => ?_⟩
  · have same := stream.excess_kinds
    have left : excess stream.kinds ≤ bound := opens
    omega
  · rw [brace] at plain
    exact absurd plain (by decide)

/-- A closing brace is read after all else that comes before it. -/
theorem close (opens : stream.Opens (bound - 1) .due) (brace : stream.current.kind = .rbrace) :
    stream.Opens bound .read := by
  refine ⟨?_, by rw [brace]; decide⟩
  have same := stream.excess_kinds
  have left : excess stream.kinds ≤ bound - 1 := opens
  rw [brace, show Kind.turn .rbrace = -1 from rfl] at same
  omega

/-- An opening brace counts no more once it is passed. -/
theorem enter (opens : stream.Opens bound .due) (brace : stream.current.kind = .lbrace) :
    stream.advanced.Opens (bound - 1) .due := by
  have same := stream.excess_kinds
  have left : excess stream.kinds ≤ bound := opens
  rw [brace, show Kind.turn .lbrace = 1 from rfl] at same
  change excess stream.advanced.kinds ≤ bound - 1
  omega

/-- To give back the current token is to leave no more braces open. -/
theorem due (opens : stream.Opens bound stage) : stream.Opens bound .due := by
  cases stage with
  | due => exact opens
  | read =>
    obtain ⟨left, other⟩ := opens
    have least : stream.current.kind.turn ≤ 0 := by
      revert other
      cases stream.current.kind <;> decide
    have same := stream.excess_kinds
    change excess stream.kinds ≤ bound
    omega

theorem mono {larger : Int} (opens : stream.Opens bound .due) (more : bound ≤ larger) : stream.Opens larger .due :=
  Int.le_trans opens more

/-- To pass a token is to leave no more braces open, unless it is a closing one. -/
theorem pass (opens : stream.Opens bound .due) (other : stream.current.kind ≠ .rbrace) :
    stream.advanced.Opens bound .due := by
  have least : 0 ≤ stream.current.kind.turn := by
    revert other
    cases stream.current.kind <;> decide
  have same := stream.excess_kinds
  have left : excess stream.kinds ≤ bound := opens
  change excess stream.advanced.kinds ≤ bound
  omega

theorem skippedTo {stops : Kind → Bool} (opens : stream.Opens bound .due) (stop : stops .rbrace = true) :
    (stream.skippedTo stops).Opens bound .due := by
  rw [skippedTo_eq]
  change excess ((stream.ahead.dropWhile fun token => !stops token.kind).map Token.kind) ≤ bound
  have left : excess (stream.ahead.map Token.kind) ≤ bound := opens
  generalize stream.ahead = tokens at left
  induction tokens with
  | nil => exact left
  | cons token rest ih =>
    rw [List.dropWhile_cons]
    split
    · rename_i going
      have least : 0 ≤ token.kind.turn := by
        have other : token.kind ≠ .rbrace := fun same => by
          rw [same, stop] at going
          cases going
        revert other
        cases token.kind <;> decide
      rw [List.map_cons, excess_cons] at left
      exact ih (by omega)
    · exact left

end Opens

end TokenStream

end Mana
