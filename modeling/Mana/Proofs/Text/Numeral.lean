import Mana.Text.Numeral

/-! Numerals that are written are read back. -/
namespace Mana.Numeral

theorem digit?_digitChar {n : Nat} (small : n < 10) : digit? n.digitChar = some n := by
  revert n
  decide

private theorem digits_toDigits (n : Nat) :
    ∃ digits, (Nat.toDigits 10 n).mapM digit? = some digits ∧ ofDigits digits = n := by
  induction n using Nat.strongRecOn with
  | ind n ih =>
    rw [Nat.toDigits_eq_if (by decide)]
    split
    · rename_i small
      exact ⟨[n], by simp [digit?_digitChar small], by simp [ofDigits]⟩
    · obtain ⟨digits, read, value⟩ := ih (n / 10) (by omega)
      refine ⟨digits ++ [n % 10], ?_, ?_⟩
      · simp [List.mapM_append, read, digit?_digitChar (Nat.mod_lt n (by decide))]
      · unfold ofDigits at value ⊢
        rw [List.foldl_append, value]
        exact Nat.div_add_mod n 10

theorem read?_toDigits (n : Nat) : read? (Nat.toDigits 10 n) = some n := by
  obtain ⟨digits, read, value⟩ := digits_toDigits n
  have visible : (Nat.toDigits 10 n).isEmpty = false := by simp
  simp [read?, visible, read, value]

theorem digit?_of_isDigit (digit : c.isDigit = true) : digit? c = some (c.toNat - 0x30) := by
  obtain ⟨low, high⟩ := Char.isDigit_iff_toNat.mp digit
  have first : zeros.find? (fun start => start ≤ c.toNat && c.toNat < start + 10) = some 0x30 := by
    apply List.find?_cons_of_pos
    rw [Bool.and_eq_true, decide_eq_true_eq, decide_eq_true_eq]
    exact ⟨low, Nat.lt_succ_of_le high⟩
  rw [digit?, first, Option.map_some]

/-- ASCII digits always stand for a number, however many they are. -/
theorem read?_of_isDigit (digits : ∀ c ∈ text, c.isDigit = true) (visible : text ≠ []) :
    ∃ value, read? text = some value := by
  have each : ∃ values, text.mapM digit? = some values := by
    clear visible
    induction text with
    | nil => exact ⟨[], rfl⟩
    | cons c rest ih =>
      obtain ⟨values, read⟩ := ih fun d member => digits d (List.mem_cons_of_mem c member)
      exact ⟨_, by rw [List.mapM_cons, digit?_of_isDigit (digits c List.mem_cons_self), read]; rfl⟩
  obtain ⟨values, read⟩ := each
  exact ⟨ofDigits values, by rw [read?, if_neg (by simpa using visible), read]; rfl⟩

end Mana.Numeral
