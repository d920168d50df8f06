import Mana.Proofs.Token.Lexical

/-! The pieces of a source up to its first NUL, which are white space and the texts of tokens, and the induction
along them. -/
namespace Mana

/-- The part of a text that is read, which is all before its first NUL. -/
def Text.beforeNul (text : Text) : Text := text.takeWhile (· ≠ nul)

namespace Text

theorem beforeNul_append {text : Text} (going : nul ∉ text) (rest : Text) :
    beforeNul (text ++ rest) = text ++ beforeNul rest :=
  List.takeWhile_append_of_pos fun _ member => decide_eq_true fun ended => going (ended ▸ member)

theorem beforeNul_space {c : Char} (space : isSpace c = true) (rest : Text) :
    beforeNul (c :: rest) = c :: beforeNul rest := by
  refine List.takeWhile_cons_of_pos (decide_eq_true ?_)
  rintro rfl
  exact absurd space (by decide)

theorem beforeNul_of_going {text : Text} (going : nul ∉ text) : text.beforeNul = text :=
  List.takeWhile_eq_self_iff.mpr fun _ member => decide_eq_true fun ended => going (ended ▸ member)

/-- Where nothing is read though there is a character, that is a NUL. -/
theorem nul_of_beforeNul {c : Char} {rest : Text} (ended : beforeNul (c :: rest) = []) : c = nul := by
  by_contra going
  simp [beforeNul, going] at ended

/-- What comes first in the part that is read comes first in the text. -/
theorem head?_of_beforeNul {text : Text} {c : Char} (first : text.beforeNul.head? = some c) :
    text.head? = some c := by
  cases text with
  | nil => cases first
  | cons d rest =>
    rw [beforeNul, List.takeWhile_cons] at first
    split at first
    · exact first
    · cases first

end Text

/-- No token holds a NUL. -/
theorem Lexical.nul_not_mem (lexical : Lexical kind text) : nul ∉ text := by
  cases lexical with
  | word letters => exact fun member => absurd (letters _ member) (by decide)
  | digits digits => exact fun member => absurd (digits _ member) (by decide)
  | symbol found =>
    intro member
    obtain rfl := List.mem_singleton.mp member
    exact absurd rfl (Kind.ofSymbol?_visible found).1
  | illegal going =>
    intro member
    exact going (List.mem_singleton.mp member).symm
  | _ => decide

/-- To show something of every text, show it of texts of which nothing is read, and of those that begin with a
white space or with a token if it holds of what follows. -/
theorem Text.induct {motive : Text → Prop} (ended : ∀ text : Text, text.beforeNul = [] → motive text)
    (space : ∀ c rest, isSpace c = true → motive rest → motive (c :: rest))
    (token : ∀ kind text rest, Lexical kind text → Apart kind text rest → motive rest → motive (text ++ rest))
    (text : Text) : motive text := by
  induction measure : text.length using Nat.strongRecOn generalizing text with
  | ind length ih =>
    cases text with
    | nil => exact ended [] rfl
    | cons c rest =>
      by_cases going : c = nul
      · exact ended _ (List.takeWhile_cons_of_neg (by simp [going]))
      · by_cases blank : isSpace c = true
        · exact space c rest blank (ih rest.length (by simp [← measure]) rest rfl)
        · obtain ⟨kind, more, left, _, divided, lexical, apart⟩ := exists_lexical going (by simpa using blank) rest
          have shorter : left.length < length := by
            rw [← measure, divided, List.length_cons, List.length_append]
            omega
          rw [divided, ← List.cons_append]
          exact token kind _ left lexical apart (ih left.length shorter left rfl)

/-- Where nothing is read no token is found. -/
theorem scanFrom_ended {text : Text} (ended : text.beforeNul = []) (location : Location) :
    scanFrom location 0 text = .ofList [] location := by
  cases text with
  | nil => rfl
  | cons c rest =>
    rw [scanFrom, if_pos (Text.nul_of_beforeNul ended)]

theorem scanFrom_genuine (location : Location) (text : Text) : (scanFrom location 0 text).Genuine := by
  induction text using Text.induct generalizing location with
  | ended text ended =>
    rw [scanFrom_ended ended]
    exact List.forall_mem_nil _
  | space c rest space ih =>
    rw [scanFrom_space space]
    exact ih _
  | token kind text rest lexical apart ih =>
    rw [scanFrom_lexical lexical apart]
    exact List.forall_mem_cons.mpr ⟨lexical, ih _⟩

theorem scan_genuine (source : Text) : (scan source).Genuine := scanFrom_genuine .start source

/-- A text is scanned up to its end, or to its first NUL. -/
theorem scanFrom_stop (location : Location) (text : Text) :
    (scanFrom location 0 text).stop = location.past text.beforeNul := by
  induction text using Text.induct generalizing location with
  | ended text ended =>
    rw [scanFrom_ended ended, ended]
    rfl
  | space c rest space ih =>
    rw [scanFrom_space space, ih, Text.beforeNul_space space, Location.past_cons]
  | token kind text rest lexical apart ih =>
    rw [scanFrom_lexical lexical apart, Text.beforeNul_append lexical.nul_not_mem, Location.past_append]
    exact ih _

end Mana
