import Mana.Proofs.Token.Cut

/-! Texts in a row. A text without NUL gives its tokens whatever fresh text follows it, and the text that
follows gives its own, at locations that are moved to where it begins. -/
namespace Mana

/-- The location in a text that begins at a base, by the location in the text alone. -/
def Location.moved (base location : Location) : Location :=
  if location.line = 1 then ⟨base.line, base.column + (location.column - 1)⟩
  else ⟨base.line + (location.line - 1), location.column⟩

/-- The token as it is in a text that begins at a base. -/
def Token.moved (base : Location) (token : Token) : Token :=
  { token with location := base.moved token.location }

namespace Location

variable (base : Location)

@[simp] theorem moved_start : base.moved .start = base := by
  simp [moved, start]

theorem moved_after {location : Location} (counted : 1 ≤ location.line) (c : Char) :
    base.moved (location.after c) = (base.moved location).after c := by
  simp only [moved, after]
  split
  · have later : location.line + 1 ≠ 1 := by omega
    rw [if_neg later]
    split <;> simp <;> omega
  · split <;> simp
    omega

theorem line_after {location : Location} (counted : 1 ≤ location.line) (c : Char) :
    1 ≤ (location.after c).line := by
  unfold after
  split
  · exact Int.le_add_one counted
  · exact counted

end Location

/-- A scan from a moved location finds the moved tokens. -/
theorem scanFrom_moved (base location : Location) (counted : 1 ≤ location.line) (held : Nat)
    (text : Text) :
    (scanFrom (base.moved location) held text).ahead = (scanFrom location held text).ahead.map (Token.moved base) ∧
      (scanFrom (base.moved location) held text).stop = base.moved (scanFrom location held text).stop := by
  induction text generalizing location held with
  | nil => exact ⟨rfl, rfl⟩
  | cons c rest ih =>
    have next := ih (location.after c) (location.line_after counted c)
    rw [base.moved_after counted c] at next
    cases held with
    | succ held => exact next held
    | zero =>
      rw [scanFrom, scanFrom]
      split
      · exact ⟨rfl, rfl⟩
      · split
        · exact next 0
        · obtain ⟨ahead, stop⟩ := next ((lexeme c rest).2.length - 1)
          exact ⟨congrArg (_ :: ·) ahead, stop⟩

/-- The tokens of a text, and after it those of a fresh one. -/
theorem scanFrom_append (going : nul ∉ text) (fresh : Fresh others) (location : Location) :
    (scanFrom location 0 (text ++ others)).ahead =
        (scanFrom location 0 text).ahead ++ (scanFrom (location.past text) 0 others).ahead ∧
      (scanFrom location 0 (text ++ others)).stop = (scanFrom (location.past text) 0 others).stop := by
  have ended : (scanFrom location 0 text).tokens =
      (scanFrom location 0 text).ahead ++ (scanFrom location 0 text).final :: [] := rfl
  obtain ⟨front, back, divided, scanned, begins⟩ := exists_scanned ended
  have whole := scanned.eq_beforeNul (begins.beforeNul rfl)
  rw [← divided, Text.beforeNul_of_going going] at whole
  subst whole
  have tokens := (scanned.behind fresh).tokens_append
  exact ⟨TokenStream.ahead_eq_of_tokens tokens, TokenStream.stop_eq_of_tokens tokens⟩

/-- White space in front of a text only moves it. -/
theorem scanFrom_blank (spaces : ∀ c ∈ blank, isSpace c = true) (location : Location) (text : Text) :
    scanFrom location 0 (blank ++ text) = scanFrom (location.past blank) 0 text := by
  induction blank generalizing location with
  | nil => rfl
  | cons c blank ih =>
    obtain ⟨first, others⟩ := List.forall_mem_cons.mp spaces
    rw [List.cons_append, scanFrom_space first, ih others, Location.past_cons]

end Mana
