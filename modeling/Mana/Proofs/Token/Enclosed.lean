import Mana.Diagnostic
import Mana.Proofs.Token.Leads

/-! Tokens without braces in front of a closing brace. Where a stream of such tokens ends, the other one has the
brace. -/
namespace Mana

/-- The kind of the token that stands where a kind is found: the end gives way to the closing brace. -/
def Kind.enclosed : Kind → Kind
  | .eof => .rbrace
  | kind => kind

/-- The fault that takes the place of another one, where the end of the tokens gives way to the closing brace. -/
def Fault.enclosed : Fault → Fault
  | .expected wanted found => .expected wanted found.enclosed
  | .noOpening found => .noOpening found.enclosed
  | fault => fault

/-- Only the end turns into a brace. -/
theorem Kind.enclosed_eq_iff {kind wanted : Kind} (plain : wanted ∉ [.eof, .rbrace]) :
    kind.enclosed = wanted ↔ kind = wanted := by
  revert plain
  cases kind <;> cases wanted <;> decide

namespace TokenStream

/-- The kinds that do not stand between braces. -/
def outer : List Kind := [.lbrace, .rbrace, .eof]

/-- The other stream has the words of the stream in front of a closing brace, and none of them is a brace. -/
structure Enclosed (beyond stream other : TokenStream) : Prop where
  leads : other.Leads (stream.ahead.map Token.lexeme) beyond
  plain : ∀ token ∈ stream.ahead, token.kind ∉ outer
  closed : beyond.current.kind = .rbrace

namespace Enclosed

variable {beyond stream other rest rest' : TokenStream}

/-- Where the stream has ended, the other one is at the brace. -/
theorem eq_beyond (enclosed : Enclosed beyond stream other) (ended : stream.count = 0) : other = beyond := by
  have none : stream.ahead = [] := List.eq_nil_of_length_eq_zero (stream.count_eq.symm.trans ended)
  have leads := enclosed.leads
  rw [none] at leads
  exact leads.eq_rest

theorem count (enclosed : Enclosed beyond stream other) : other.count = stream.count + beyond.count := by
  rw [enclosed.leads.count, List.length_map, stream.count_eq]

theorem count_lt_iff (enclosed : Enclosed beyond stream other) (later : Enclosed beyond rest rest') :
    rest'.count < other.count ↔ rest.count < stream.count := by
  rw [enclosed.count, later.count]
  omega

theorem count_eq_iff (enclosed : Enclosed beyond stream other) (later : Enclosed beyond rest rest') :
    rest'.count = other.count ↔ rest.count = stream.count := by
  rw [enclosed.count, later.count]
  omega

theorem going (enclosed : Enclosed beyond stream other) (some : 0 < stream.count) :
    stream.current.kind ∉ outer := enclosed.plain _ (current_mem some)

theorem count_of_ended (enclosed : Enclosed beyond stream other) (ended : stream.current.kind = .eof) :
    stream.count = 0 := by
  by_contra some
  have plain := enclosed.going (Nat.pos_of_ne_zero some)
  rw [ended] at plain
  exact absurd plain (by decide)

theorem current (enclosed : Enclosed beyond stream other) (some : 0 < stream.count) :
    other.current.kind = stream.current.kind ∧ other.current.literal = stream.current.literal ∧
      Enclosed beyond stream.advanced other.advanced := by
  rcases stream with ⟨ahead, _, rfl, stop⟩
  cases ahead with
  | nil => exact absurd some (Nat.lt_irrefl 0)
  | cons token ahead =>
    obtain ⟨kind, literal, leads⟩ := enclosed.leads.cons
    exact ⟨kind, literal, leads, fun other member => enclosed.plain other (List.mem_cons_of_mem token member),
      enclosed.closed⟩

/-- The brace takes the place of the end. -/
theorem current_kind (enclosed : Enclosed beyond stream other) :
    other.current.kind = stream.current.kind.enclosed := by
  rcases Nat.eq_zero_or_pos stream.count with ended | some
  · rw [enclosed.eq_beyond ended, current_kind_of_count ended, enclosed.closed]
    rfl
  · have plain := enclosed.going some
    rw [(enclosed.current some).1]
    revert plain
    cases stream.current.kind <;> decide

theorem advanced (enclosed : Enclosed beyond stream other) (some : 0 < stream.count) :
    Enclosed beyond stream.advanced other.advanced := (enclosed.current some).2.2

theorem skippedTo (enclosed : Enclosed beyond stream other) {stops stops' : Kind → Bool}
    (same : ∀ kind ∉ outer, stops' kind = stops kind) (brace : stops' .rbrace = true) :
    Enclosed beyond (stream.skippedTo stops) (other.skippedTo stops') := by
  have closed := enclosed.closed
  have kept : beyond.ahead.dropWhile (fun token => !stops' token.kind) = beyond.ahead := by
    rw [ahead_of_going (by rw [closed]; decide), List.dropWhile_cons, closed, brace]
    rfl
  obtain ⟨tokens, split, lexemes⟩ := enclosed.leads.ahead
  have plain := enclosed.plain
  rw [skippedTo_eq, skippedTo_eq, split]
  refine ⟨⟨?_, enclosed.leads.stop⟩, fun token member => plain token ((List.dropWhile_suffix _).subset member), closed⟩
  simp only [ahead_ofList]
  clear split
  generalize stream.ahead = ahead at lexemes plain
  induction ahead generalizing tokens with
  | nil =>
    obtain rfl : tokens = [] := List.map_eq_nil_iff.mp lexemes
    exact ⟨[], kept, rfl⟩
  | cons token ahead ih =>
    obtain ⟨other, others, rfl, lexeme, later⟩ := List.map_eq_cons_iff.mp lexemes
    obtain ⟨own, plain⟩ := List.forall_mem_cons.mp plain
    have kind : other.kind = token.kind := congrArg Prod.fst lexeme
    rw [List.cons_append, List.dropWhile_cons, List.dropWhile_cons, kind, same _ own]
    cases stops token.kind with
    | true => exact ⟨other :: others, rfl, List.cons_eq_cons.mpr ⟨lexeme, later⟩⟩
    | false => exact ih others later plain

end Enclosed

end TokenStream

end Mana
