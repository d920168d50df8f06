import Mana.Proofs.Token.Abreast
import Mana.Proofs.Token.Words

/-! Streams that begin with given words, whatever comes after those. -/
namespace Mana

/-- The kinds and texts of the tokens of a source. -/
def Text.lexemes (source : Text) : List Word := (scan source).ahead.map Token.lexeme

namespace TokenStream

/-- The stream has tokens of the words in front, and then is the rest. -/
structure Leads (stream : TokenStream) (words : List Word) (rest : TokenStream) : Prop where
  ahead : ∃ tokens, stream.ahead = tokens ++ rest.ahead ∧ tokens.map Token.lexeme = words
  stop : stream.stop = rest.stop

namespace Leads

variable {stream rest : TokenStream} {words more : List Word} {kind : Kind} {text : Text}

theorem eq_rest (leads : stream.Leads [] rest) : stream = rest := by
  obtain ⟨tokens, split, none⟩ := leads.ahead
  obtain rfl := List.map_eq_nil_iff.mp none
  exact TokenStream.ext split leads.stop

theorem count (leads : stream.Leads words rest) : stream.count = words.length + rest.count := by
  obtain ⟨tokens, split, rfl⟩ := leads.ahead
  rw [stream.count_eq, rest.count_eq, split, List.length_append, List.length_map]

theorem cons (leads : stream.Leads ((kind, text) :: words) rest) :
    stream.current.kind = kind ∧ stream.current.literal = text ∧ stream.advanced.Leads words rest := by
  obtain ⟨tokens, split, same⟩ := leads.ahead
  obtain ⟨token, tokens, rfl, lexeme, others⟩ := List.map_eq_cons_iff.mp same
  obtain ⟨kind, text⟩ := Prod.mk.inj lexeme
  have current : stream.current = token := by simp [TokenStream.current, split]
  exact ⟨current ▸ kind, current ▸ text, ⟨tokens, by simp [advanced, split], others⟩, leads.stop⟩

theorem append (leads : stream.Leads (words ++ more) rest) :
    ∃ middle, stream.Leads words middle ∧ middle.Leads more rest := by
  obtain ⟨tokens, split, same⟩ := leads.ahead
  obtain ⟨first, second, rfl, own, others⟩ := List.map_eq_append_iff.mp same
  refine ⟨ofList (second ++ rest.ahead) rest.stop, ⟨⟨first, ?_, own⟩, leads.stop⟩, ⟨⟨second, rfl, others⟩, rfl⟩⟩
  rw [split, List.append_assoc]
  rfl

/-- A source begins with all its words. -/
theorem scan (source : Text) : (scan source).Leads source.lexemes (ofList [] (Mana.scan source).stop) :=
  ⟨⟨_, (List.append_nil _).symm, rfl⟩, rfl⟩

end Leads

end TokenStream

/-- How a stream alone stands beside one that has its tokens in front. -/
def Pairing.before (alone rest : TokenStream) : Pairing := ⟨fun _ _ => True, alone.stop, rest⟩

theorem TokenStream.Leads.abreast {alone stream rest : TokenStream}
    (leads : stream.Leads (alone.ahead.map Token.lexeme) rest)
    (ends : ∀ token, [token] <:+ alone.ahead → token.kind ≠ .lparen) :
    (Pairing.before alone rest).Abreast alone stream := by
  obtain ⟨tokens, split, same⟩ := leads.ahead
  refine ⟨⟨tokens, ?_, split⟩, rfl, leads.stop, .inr ends⟩
  have all := List.forall₂_map_left_iff.mp (List.forall₂_map_right_iff.mp (List.forall₂_eq_eq_eq ▸ same.symm))
  refine all.imp fun token other lexemes => ?_
  obtain ⟨kind, literal⟩ := Prod.mk.inj lexemes
  exact ⟨kind.symm, literal.symm, trivial⟩

end Mana
