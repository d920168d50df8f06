import Mana.Proofs.Token.Lexical

/-! Streams that spell a text. Tokens are passed while their texts are taken off the front, so that a text
is read without its tokens ever being listed. -/
namespace Mana

namespace TokenStream

/-- The stream is what a scan finds in the text, wherever the text begins. -/
def Spells (stream : TokenStream) (text : Text) : Prop := ∃ location, stream = scanFrom location 0 text

namespace Spells

variable {stream : TokenStream} {text rest : Text}

theorem space (spells : stream.Spells (c :: rest)) (space : isSpace c = true) : stream.Spells rest := by
  obtain ⟨location, rfl⟩ := spells
  exact ⟨_, scanFrom_space space location rest⟩

theorem blank (spells : stream.Spells (' ' :: rest)) : stream.Spells rest := spells.space (by decide)

theorem spaces {blank : Text} (spells : stream.Spells (blank ++ rest))
    (spaces : ∀ c ∈ blank, isSpace c = true) :
    stream.Spells rest := by
  induction blank with
  | nil => exact spells
  | cons c blank ih =>
    obtain ⟨first, others⟩ := List.forall_mem_cons.mp spaces
    exact ih (Spells.space spells first) others

theorem token (spells : stream.Spells (text ++ rest)) (lexical : Lexical kind text)
    (apart : Apart kind text rest) :
    stream.current.kind = kind ∧ stream.current.literal = text ∧ stream.advanced.Spells rest := by
  obtain ⟨location, rfl⟩ := spells
  rw [scanFrom_lexical lexical apart]
  exact ⟨rfl, rfl, _, advanced_preceded _ _⟩

theorem symbol (spells : stream.Spells (c :: rest)) (found : Kind.ofSymbol? c = some kind) :
    stream.current.kind = kind ∧ stream.current.literal = [c] ∧ stream.advanced.Spells rest := by
  obtain ⟨_, _, letter, _⟩ := Kind.ofSymbol?_visible found
  have all : ∀ entry ∈ Kind.symbols, entry.2 ≠ .int ∧ entry.2 ≠ .assign ∧ entry.2 ≠ .bang := by decide
  obtain ⟨int, assign, bang⟩ := all _ (Kind.ofSymbol?_mem found)
  have text : stream.Spells ([c] ++ rest) := spells
  refine text.token (.symbol found) fun d _ => ⟨by simp [letter], ?_, ?_⟩
  · exact fun same => absurd same int
  · exact fun same => absurd same (by simp [assign, bang])

theorem ended (spells : stream.Spells []) : stream.current.kind = .eof := by
  obtain ⟨location, rfl⟩ := spells
  rfl

end Spells

end TokenStream

/-- A text that may follow any word or integer: it begins with neither a letter nor a digit, and not with
`else`. -/
structure Joint (rest : Text) : Prop where
  apart : ∀ c, rest.head? = some c → isLetter c = false ∧ isDigit c = false
  notElse : ∀ stream : TokenStream, stream.Spells rest → stream.current.kind ≠ .elseKeyword

namespace Joint

variable {rest : Text}

theorem apart_of (joint : Joint rest) (text : Text) (plain : kind ≠ .assign ∧ kind ≠ .bang) :
    Apart kind text rest :=
  fun c next => ⟨fun _ => (joint.apart c next).1, fun _ => (joint.apart c next).2,
    fun operator => absurd operator (by simp [plain])⟩

theorem symbol (found : Kind.ofSymbol? c = some kind) : Joint (c :: rest) where
  apart := by
    rintro _ ⟨⟩
    obtain ⟨_, _, letter, digit, _⟩ := Kind.ofSymbol?_visible found
    exact ⟨letter, digit⟩
  notElse stream spells := by
    have all : ∀ entry ∈ Kind.symbols, entry.2 ≠ .elseKeyword := by decide
    rw [(spells.symbol found).1]
    exact all _ (Kind.ofSymbol?_mem found)

theorem space (notElse : ∀ stream : TokenStream, stream.Spells rest → stream.current.kind ≠ .elseKeyword) :
    Joint (' ' :: rest) where
  apart := by
    rintro _ ⟨⟩
    exact ⟨by decide, by decide⟩
  notElse stream spells := notElse stream (spells.space (by decide))

end Joint

end Mana
