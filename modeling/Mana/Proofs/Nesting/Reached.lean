import Mana.Proofs.Grammar.Parsed
import Mana.Proofs.Nesting.Refinement

/-! How far a parse has got before each of its rounds, and which statements are struck on the way. -/
namespace Mana

/-- What is left of a stream behind its next semicolon, which may be the current token. -/
def TokenStream.behindSemicolon (stream : TokenStream) : TokenStream :=
  (ofList (stream.ahead.dropWhile fun token => !decide (token.kind = .semicolon)) stream.stop).advanced

namespace Parsed

open Grammar

/-- Before one of its rounds, the parse of a stream has appended the statements, recorded the diagnostics, and come
to the place. -/
inductive Reaches (limit : Nat) (stream : TokenStream) : List Node → List Diagnostic → TokenStream → Prop where
  | start : Reaches limit stream [] [] stream
  | item (earlier : Reaches limit stream nodes found place)
      (ran : (programRound (expression .standard limit)).run place = ⟨.done (.item node), next, own⟩) :
      Reaches limit stream (nodes ++ [node]) (found ++ own) next
  | nothing (earlier : Reaches limit stream nodes found place)
      (ran : (programRound (expression .standard limit)).run place = ⟨.done .nothing, next, own⟩) :
      Reaches limit stream nodes (found ++ own) next

/-- The statement that begins at a place is struck by the limit. The parser then stands somewhere behind, and has found
something wrong before. -/
structure Strikes (limit : Nat) (place stand : TokenStream) (own : List Diagnostic) : Prop where
  going : place.current.kind ≠ .eof
  ran : (statement (expression .standard limit)).run place = ⟨.struck, stand, own⟩

/-- Whether a statement is struck is found by parsing it. -/
instance (limit : Nat) (place stand : TokenStream) (own : List Diagnostic) : Decidable (Strikes limit place stand own) :=
  match ran : (statement (expression .standard limit)).run place with
  | ⟨.struck, rest, found⟩ =>
    decidable_of_iff (place.current.kind ≠ .eof ∧ (rest.ahead = stand.ahead ∧ rest.stop = stand.stop) ∧ found = own) <| by
      constructor
      · rintro ⟨going, ⟨ahead, stop⟩, rfl⟩
        exact ⟨going, by rw [ran, TokenStream.ext ahead stop]⟩
      · rintro ⟨going, struck⟩
        cases ran.symm.trans struck
        exact ⟨going, ⟨rfl, rfl⟩, rfl⟩
  | ⟨.done _, _, _⟩ => isFalse fun strikes => nomatch ran.symm.trans strikes.ran
  | ⟨.failed, _, _⟩ => isFalse fun strikes => nomatch ran.symm.trans strikes.ran

/-- No statement is struck that begins before a place. -/
def UnstruckBefore (limit : Nat) (stream place : TokenStream) : Prop :=
  ∀ nodes found earlier stand own, Reaches limit stream nodes found earlier → place.count < earlier.count →
    ¬ Strikes limit earlier stand own

variable {limit larger : Nat} {stream place stand next : TokenStream} {nodes : List Node} {found own : List Diagnostic}

theorem round_shallow (ran : (programRound (expression .standard limit)).run place = ⟨.done gain, next, own⟩)
    (unstruck : ∀ stand own, ¬ Strikes limit place stand own) :
    ∀ diagnostic ∈ own, diagnostic.fault ≠ .tooDeep := by
  by_cases ended : place.current.kind = .eof
  · cases (Program.round_ended ended).symm.trans ran
    simp
  · have proceeds := ((expression_ensures limit).statement place).toProceeds
    rcases one : (statement (expression .standard limit)).run place with ⟨outcome, stand, before⟩
    rw [one] at proceeds
    cases outcome with
    | done node =>
      cases (Program.round_done ended one).symm.trans ran
      exact proceeds.shallow
    | failed =>
      cases (Program.round_failed ended one).symm.trans ran
      exact proceeds.shallow
    | struck => exact absurd ⟨ended, one⟩ (unstruck stand before)

namespace Reaches

variable (reaches : Reaches limit stream nodes found place)
include reaches

theorem within : place.Within stream := by
  induction reaches with
  | start => exact .refl stream
  | item _ ran ih => exact (round_within ran).trans ih
  | nothing _ ran ih => exact (round_within ran).trans ih

/-- What a parse has appended and recorded before one of its rounds comes first in what it leaves behind, and the rest
of that is what the parse from the place leaves behind. -/
theorem parsed : (ofStream limit stream).program.statements = nodes ++ (ofStream limit place).program.statements ∧
    (ofStream limit stream).diagnostics = found ++ (ofStream limit place).diagnostics := by
  induction reaches with
  | start => exact ⟨rfl, rfl⟩
  | item _ ran ih =>
    obtain ⟨statements, diagnostics⟩ := ofStream_item ran
    rw [ih.1, ih.2, statements, diagnostics, List.append_assoc, List.append_assoc, List.singleton_append]
    exact ⟨rfl, rfl⟩
  | nothing _ ran ih =>
    obtain ⟨statements, diagnostics⟩ := ofStream_nothing ran
    rw [ih.1, ih.2, statements, diagnostics, List.append_assoc]
    exact ⟨rfl, rfl⟩

/-- Up to the first statement that is struck, a larger limit makes no difference. -/
theorem within_larger (fewer : limit ≤ larger) (unstruck : UnstruckBefore limit stream place) :
    Reaches larger stream nodes found place := by
  have unchanged {place next : TokenStream} {gain : Parse.Gain Node} {own : List Diagnostic}
      (ran : (programRound (expression .standard limit)).run place = ⟨.done gain, next, own⟩)
      (unstruck : ∀ stand own, ¬ Strikes limit place stand own) :
      (programRound (expression .standard larger)).run place = ⟨.done gain, next, own⟩ := by
    refine (programRound_eq_of_unstruck fewer fun strikes => ?_) ▸ ran
    rw [ran, Step.strikes_done] at strikes
    obtain ⟨diagnostic, member, deep⟩ := strikes
    exact round_shallow ran unstruck diagnostic member deep
  induction reaches with
  | start => exact .start
  | item earlier ran ih =>
    have shorter : _ < _ := (round_passes ran).2
    refine .item (ih fun _ _ _ _ _ reached before => ?_) (unchanged ran fun stand own => ?_)
    · exact unstruck _ _ _ _ _ reached (shorter.trans before)
    · exact unstruck _ _ _ _ _ earlier shorter
  | nothing earlier ran ih =>
    have shorter : _ < _ := round_passes ran
    refine .nothing (ih fun _ _ _ _ _ reached before => ?_) (unchanged ran fun stand own => ?_)
    · exact unstruck _ _ _ _ _ reached (Nat.lt_trans shorter before)
    · exact unstruck _ _ _ _ _ earlier shorter

end Reaches

/-- Where no statement is struck, no diagnostic is about nesting. -/
theorem unstruck_of_reaches (unstruck : ∀ nodes found place stand own, Reaches limit stream nodes found place →
    ¬ Strikes limit place stand own) : (ofStream limit stream).Unstruck := by
  have from_place (place : TokenStream) : ∀ nodes found, Reaches limit stream nodes found place →
      (ofStream limit place).Unstruck := by
    induction place using induct limit with
    | ended place ended => exact fun _ _ _ => .of_nil (ofStream_ended limit ended).2
    | done place next node own going within ran ih =>
      intro nodes found reached
      have round := Program.round_done going ran
      have later := ih _ _ (reached.item round)
      rw [Unstruck, (ofStream_item round).2]
      exact List.forall_mem_append.mpr ⟨round_shallow round fun _ _ => unstruck _ _ _ _ _ reached, later⟩
    | failed place next own going within ran ih =>
      intro nodes found reached
      have round := Program.round_failed going ran
      have later := ih _ _ (reached.nothing round)
      rw [Unstruck, (ofStream_nothing round).2]
      exact List.forall_mem_append.mpr ⟨round_shallow round fun _ _ => unstruck _ _ _ _ _ reached, later⟩
    | struck place next own going within ran ih =>
      exact fun nodes found reached => absurd ⟨going, ran⟩ (unstruck _ _ _ _ _ reached)
  exact from_place stream [] [] .start

private theorem dropWhile_semicolon {tokens : List Token} (going : ∀ token ∈ tokens, token.kind ≠ .eof) :
    tokens.dropWhile (fun token => !(token.kind = .semicolon || token.kind = .eof || [].contains token.kind)) =
      tokens.dropWhile fun token => !decide (token.kind = .semicolon) := by
  induction tokens with
  | nil => rfl
  | cons token tokens ih =>
    obtain ⟨first, others⟩ := List.forall_mem_cons.mp going
    rw [List.dropWhile_cons, List.dropWhile_cons, ih others]
    simp [first]

namespace Strikes

variable (strikes : Strikes limit place stand own)
include strikes

theorem shallow : ∀ diagnostic ∈ own, diagnostic.fault ≠ .tooDeep := by
  have proceeds := ((expression_ensures limit).statement place).toProceeds
  rw [strikes.ran] at proceeds
  exact proceeds.shallow

theorem stand_within : stand.Within place := ((expression_ensures limit).statement place).within_of strikes.ran

/-- Where at least one level is allowed, a statement that is struck is given up with one complaint at its first token,
after what it has found, and skipped up to its next semicolon. -/
theorem round (positive : 0 < limit) (genuine : place.Genuine) :
    (programRound (expression .standard limit)).run place =
      ⟨.done .nothing, stand.behindSemicolon, own ++ [⟨.tooDeep, place.current.location⟩]⟩ := by
  have ensures := (expression_ensures limit).statement place
  rw [strikes.ran] at ensures
  have passed : limit + stand.count ≤ place.count := ensures.struck rfl
  have skipped : recovered place [] stand =
      .ofList (stand.ahead.dropWhile fun token => !decide (token.kind = .semicolon)) stand.stop := by
    unfold recovered
    rw [if_neg (by omega), TokenStream.skippedTo_eq]
    exact congrArg (TokenStream.ofList · stand.stop)
      (dropWhile_semicolon fun token member => (genuine.within strikes.stand_within token member).kind_ne_eof)
  rw [Program.round_struck strikes.going strikes.ran, skipped, TokenStream.behindSemicolon]

end Strikes

end Parsed

end Mana
