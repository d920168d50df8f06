import Mana.Proofs.Text.Legible

/-! Quoted texts are printable, whatever they quote, and legible: an escape tells its character by the letter behind
the backslash, which fixes how many digits follow. -/
namespace Mana

namespace Quoted

/-- The first character of what an escaped text stands for, and what follows. -/
def unescaped : Text → Option (Char × Text)
  | [] => none
  | '\\' :: 'n' :: rest => some ('\n', rest)
  | '\\' :: 'r' :: rest => some ('\r', rest)
  | '\\' :: 't' :: rest => some ('\t', rest)
  | '\\' :: 'x' :: rest => some (Char.ofNat (hexadecimalValue (rest.take 2)), rest.drop 2)
  | '\\' :: 'u' :: rest => some (Char.ofNat (hexadecimalValue (rest.take 4)), rest.drop 4)
  | '\\' :: 'U' :: rest => some (Char.ofNat (hexadecimalValue (rest.take 8)), rest.drop 8)
  | '\\' :: c :: rest => some (c, rest)
  | c :: rest => some (c, rest)

variable {mark : Char}

theorem mark_cases (text : Text) : Quoted.mark text = '\x27' ∨ Quoted.mark text = '\x22' := by
  unfold Quoted.mark
  split
  · exact .inr rfl
  · exact .inl rfl

variable (marks : mark = '\x27' ∨ mark = '\x22')
include marks

theorem unescaped_escaped (c : Char) (rest : Text) : unescaped (escaped mark c ++ rest) = some (c, rest) := by
  have digits (width : Nat) (positive : 0 < width) (small : c.toNat < 16 ^ width) :
      Char.ofNat (hexadecimalValue ((hexadecimal width c.toNat ++ rest).take width)) = c ∧
        (hexadecimal width c.toNat ++ rest).drop width = rest := by
    obtain ⟨value, left⟩ := read_hexadecimal positive small rest
    exact ⟨by rw [value, Char.ofNat_toNat], left⟩
  fun_cases escaped mark c with
  | case1 special =>
    simp only [Bool.or_eq_true, decide_eq_true_eq] at special
    rcases special with rfl | rfl
    · rcases marks with rfl | rfl <;> rfl
    · rfl
  | case2 _ same => rw [same]; rfl
  | case3 _ _ same => rw [same]; rfl
  | case4 _ _ _ same => rw [same]; rfl
  | case5 special =>
    have plain : c ≠ '\\' := fun same => special (by simp [same])
    simp [unescaped, plain]
  | case6 _ _ _ _ _ small =>
    obtain ⟨value, left⟩ := digits 2 (by decide) (by omega)
    rw [List.cons_append, List.cons_append, unescaped, value, left]
  | case7 _ _ _ _ _ _ small =>
    obtain ⟨value, left⟩ := digits 4 (by decide) (by omega)
    rw [List.cons_append, List.cons_append, unescaped, value, left]
  | case8 =>
    have small : c.toNat < 16 ^ 8 := c.val.toNat_lt
    obtain ⟨value, left⟩ := digits 8 (by decide) small
    rw [List.cons_append, List.cons_append, unescaped, value, left]

theorem escaped_apart (c : Char) (rest rest' : Text) : escaped mark c ++ rest ≠ [mark] ++ rest' := by
  have backslash : '\\' ≠ mark := by rcases marks with rfl | rfl <;> decide
  fun_cases escaped mark c with
  | case5 special =>
    intro same
    exact special (by simp [(List.cons.inj same).1])
  | _ => exact fun same => backslash (List.cons.inj same).1

theorem mark_printable : isPrintable mark = true := by rcases marks with rfl | rfl <;> decide

theorem escaped_printable (c : Char) : ∀ d ∈ escaped mark c, isPrintable d = true := by
  have letters (letter : Char) (printable : isPrintable letter = true) :
      ∀ d ∈ ['\\', letter], isPrintable d = true :=
    List.forall_mem_cons.mpr ⟨by decide, List.forall_mem_singleton.mpr printable⟩
  have digits (letter : Char) (printable : isPrintable letter = true) (width : Nat) :
      ∀ d ∈ '\\' :: letter :: hexadecimal width c.toNat, isPrintable d = true :=
    List.forall_mem_cons.mpr ⟨by decide, List.forall_mem_cons.mpr ⟨printable, hexadecimal_printable width _⟩⟩
  fun_cases escaped mark c with
  | case1 special =>
    simp only [Bool.or_eq_true, decide_eq_true_eq] at special
    rcases special with rfl | rfl
    · exact letters c (mark_printable marks)
    · exact letters '\\' (by decide)
  | case2 => exact letters 'n' (by decide)
  | case3 => exact letters 'r' (by decide)
  | case4 => exact letters 't' (by decide)
  | case5 _ _ _ _ printable => exact List.forall_mem_singleton.mpr printable
  | case6 => exact digits 'x' (by decide) 2
  | case7 => exact digits 'u' (by decide) 4
  | case8 => exact digits 'U' (by decide) 8

end Quoted

open Quoted

/-- Nothing in a quoted text is unprintable, whatever it quotes. -/
theorem quoted_printable (text : Text) : ∀ c ∈ quoted text, isPrintable c = true := by
  have marks := mark_cases text
  refine List.forall_mem_append.mpr ⟨List.forall_mem_cons.mpr ⟨mark_printable marks, ?_⟩, ?_⟩
  · exact List.forall_mem_flatMap.mpr fun c _ => escaped_printable marks c
  · exact List.forall_mem_singleton.mpr (mark_printable marks)

/-- A text is legible in its quoted form, whatever follows. -/
theorem quoted_legible (text : Text) : Legible quoted (fun _ => True) text := by
  intro other rest rest' _ _ same
  have marks := mark_cases text
  obtain ⟨mark, inside⟩ := List.cons.inj same
  rw [← mark] at inside
  have escapes (c : Char) : Legible (escaped (Quoted.mark text)) (fun _ => True) c :=
    .of_read unescaped (fun c rest _ => unescaped_escaped marks c rest) c
  have sequence := Legible.sequence (fun c (_ : c ∈ text) => escapes c) (fun _ _ => trivial) (fun _ => trivial)
    (escaped_apart marks)
  exact sequence trivial trivial inside

end Mana
