import Mana.Grammar.Expression
import Mana.Proofs.Token.Cut
import Mana.Proofs.Token.Left

/-! Trails of diagnostics along a stream. -/
namespace Mana

namespace TokenStream

variable {rest stream : TokenStream}

/-- What is left of a stream at a stage. -/
def onward (stream : TokenStream) : Stage → TokenStream
  | .due => stream
  | .read => stream.advanced

@[simp] theorem onward_due (stream : TokenStream) : stream.onward .due = stream := rfl

theorem onward_current (stream : TokenStream) (stage : Stage) :
    (stream.onward stage).current = stream.next stage := by cases stage <;> rfl

theorem advanced_within_onward (stream : TokenStream) (stage : Stage) :
    stream.advanced.Within (stream.onward stage) := by
  cases stage with
  | due => exact .advanced stream
  | read => exact .refl _

theorem Within.tokens (within : rest.Within stream) : rest.tokens <:+ stream.tokens := by
  obtain ⟨before, split⟩ := within.ahead
  exact ⟨before, by simp [TokenStream.tokens, final, within.stop, ← split]⟩

theorem Within.current_mem (within : rest.Within stream) : rest.current ∈ stream.tokens := by
  obtain ⟨more, same⟩ := rest.tokens_eq
  exact within.tokens.subset (same ▸ List.mem_cons_self)

theorem Within.current_location (within : rest.Within stream)
    (increasing : (stream.tokens.map Token.location).Pairwise Location.Precedes) :
    stream.current.location = rest.current.location ∨ stream.current.location.Precedes rest.current.location := by
  obtain ⟨more, same⟩ := stream.tokens_eq
  have member := within.current_mem
  rw [same] at member increasing
  rcases List.mem_cons.mp member with equal | later
  · exact .inl (congrArg Token.location equal.symm)
  · exact .inr ((List.pairwise_cons.mp increasing).1 _ (List.mem_map_of_mem later))

end TokenStream

/-- The faults that a token is complained about for. -/
inductive Fault.RaisedAt : Fault → Token → Prop where
  | expected {token : Token} (other : token.kind ≠ wanted) : RaisedAt (.expected wanted token.kind) token
  | noOpening {token : Token} (none : Grammar.Rules.standard.opening token.kind = none) :
      RaisedAt (.noOpening token.kind) token
  | badInteger {token : Token} (kind : token.kind = .int) (unread : Grammar.integerValue? token.literal = none) :
      RaisedAt (.badInteger token.literal) token

/-- Diagnostics on the way from a stream to a later one. Each is raised at the current token of a stream on that way,
and none is raised before the one in front of it. -/
inductive Trail : TokenStream → List Diagnostic → TokenStream → Prop where
  | clear (later : last.Within first) : Trail first [] last
  | raised {place : TokenStream} (later : place.Within first) (raised : fault.RaisedAt place.current)
      (others : Trail place found last) : Trail first (⟨fault, place.current.location⟩ :: found) last

namespace Trail

variable {first middle last : TokenStream} {found more : List Diagnostic}

theorem earlier (trail : Trail middle found last) (within : middle.Within first) : Trail first found last := by
  cases trail with
  | clear later => exact .clear (later.trans within)
  | raised later raised others => exact .raised (later.trans within) raised others

theorem append (trail : Trail first found middle) (following : Trail middle more last) :
    Trail first (found ++ more) last := by
  induction trail with
  | clear later => exact following.earlier later
  | raised later raised _ ih => exact .raised later raised (ih following)

theorem later (trail : Trail first found middle) (within : last.Within middle) : Trail first found last := by
  rw [← List.append_nil found]
  exact trail.append (.clear within)

/-- Every diagnostic is raised at a token on the way. -/
theorem raised_of_mem (trail : Trail first found last) (member : diagnostic ∈ found) :
    ∃ place : TokenStream, place.Within first ∧ diagnostic.fault.RaisedAt place.current ∧
      diagnostic.location = place.current.location := by
  induction trail with
  | clear => cases member
  | raised later raised _ ih =>
    rcases List.mem_cons.mp member with rfl | member
    · exact ⟨_, later, raised, rfl⟩
    · obtain ⟨place, within, rest⟩ := ih member
      exact ⟨place, within.trans later, rest⟩

/-- Along tokens that are located one after the other, no diagnostic is located before an earlier one. -/
theorem ordered (trail : Trail first found last)
    (increasing : (first.tokens.map Token.location).Pairwise Location.Precedes) :
    (found.map Diagnostic.location).Pairwise fun earlier later => earlier = later ∨ earlier.Precedes later := by
  induction trail with
  | clear => exact .nil
  | raised later _ others ih =>
    have onward := increasing.sublist (later.tokens.sublist.map Token.location)
    rw [List.map_cons, List.pairwise_cons]
    refine ⟨fun location among => ?_, ih onward⟩
    obtain ⟨diagnostic, member, rfl⟩ := List.mem_map.mp among
    obtain ⟨place, within, _, here⟩ := others.raised_of_mem member
    rw [here]
    exact within.current_location onward

end Trail

end Mana
