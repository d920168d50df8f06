import Mana.Text.Numeral
import Mana.Text.Quoted
import Mathlib.Data.Nat.Digits.Defs

/-! Legible writing. A value is legible if it can be told from its written form, and where that ends, whatever
follows. Numerals are legible and printable. -/
namespace Mana

/-- Wherever texts of a class follow it, what is written for a value is written for no other one. -/
def Legible (write : α → Text) (closes : Text → Prop) (value : α) : Prop :=
  ∀ ⦃other rest rest'⦄, closes rest → closes rest' → write value ++ rest = write other ++ rest' →
    value = other ∧ rest = rest'

namespace Legible

variable {write : α → Text} {closes : Text → Prop}

/-- Values are legible if they can be read back. -/
theorem of_read (read : Text → Option (α × Text))
    (reads : ∀ value rest, closes rest → read (write value ++ rest) = some (value, rest)) (value : α) :
    Legible write closes value := by
  intro other rest rest' ends ends' same
  have both := reads value rest ends
  rw [same, reads other rest' ends'] at both
  obtain ⟨rfl, rfl⟩ := Prod.mk.inj (Option.some.inj both)
  exact ⟨rfl, rfl⟩

/-- A value is legible in what is written for it alone. -/
theorem eq (legible : Legible write closes value) (closed : closes []) (same : write value = write other) :
    value = other :=
  (legible closed closed (congrArg (· ++ []) same)).1

/-- Values in a row are legible up to a stop, if each of them is, and none begins like the stop. -/
theorem sequence {stop : Text} {values : List α} (legible : ∀ value ∈ values, Legible write closes value)
    (goes : ∀ value rest, closes (write value ++ rest)) (stopped : ∀ rest, closes (stop ++ rest))
    (apart : ∀ value rest rest', write value ++ rest ≠ stop ++ rest') :
    Legible (fun values => values.flatMap write ++ stop) (fun _ => True) values := by
  have closed (values : List α) (rest : Text) : closes (values.flatMap write ++ (stop ++ rest)) := by
    cases values with
    | nil => exact stopped rest
    | cons value values =>
      rw [List.flatMap_cons, List.append_assoc]
      exact goes value _
  intro others rest rest' _ _ same
  simp only [List.append_assoc] at same
  induction values generalizing others with
  | nil =>
    cases others with
    | nil => exact ⟨rfl, List.append_cancel_left same⟩
    | cons other others =>
      rw [List.flatMap_cons, List.append_assoc] at same
      exact absurd same.symm (apart other _ _)
  | cons value values ih =>
    cases others with
    | nil =>
      rw [List.flatMap_cons, List.append_assoc] at same
      exact absurd same (apart value _ _)
    | cons other others =>
      rw [List.flatMap_cons, List.flatMap_cons, List.append_assoc, List.append_assoc] at same
      obtain ⟨rfl, later⟩ := legible value List.mem_cons_self (closed values rest) (closed others rest') same
      obtain ⟨rfl, left⟩ := ih (fun value member => legible value (List.mem_cons_of_mem _ member)) later
      exact ⟨rfl, left⟩

end Legible

/-! Numerals. -/

/-- A numeral is over before a text that begins with no digit. -/
def Undigited (rest : Text) : Prop := ∀ c, rest.head? = some c → c.isDigit = false

theorem Undigited.nil : Undigited [] := nofun

theorem Undigited.cons (other : c.isDigit = false) (rest : Text) : Undigited (c :: rest) := by
  rintro _ ⟨⟩
  exact other

theorem toDigits_legible (n : Nat) : Legible (Nat.toDigits 10) Undigited n := by
  refine .of_read (fun text => some (Nat.ofDigitChars 10 (text.takeWhile Char.isDigit) 0, text.dropWhile Char.isDigit))
    (fun n rest ends => ?_) n
  have digits : ∀ c ∈ Nat.toDigits 10 n, c.isDigit = true :=
    fun c member => Nat.isDigit_of_mem_toDigits (by decide) (by decide) member
  have none : rest.takeWhile Char.isDigit = [] ∧ rest.dropWhile Char.isDigit = rest := by
    cases rest with
    | nil => exact ⟨rfl, rfl⟩
    | cons c rest => simp [ends c rfl]
  rw [List.takeWhile_append_of_pos digits, List.dropWhile_append_of_pos digits, none.1, none.2, List.append_nil,
    Nat.ofDigitChars_toDigits (by decide) (by decide)]

/-- The first character of a numeral of natural numbers is a digit. -/
theorem toDigits_head (n : Nat) (rest : Text) : ∃ c more, Nat.toDigits 10 n ++ rest = c :: more ∧ c.isDigit = true := by
  cases digits : Nat.toDigits 10 n with
  | nil => exact absurd digits Nat.toDigits_ne_nil
  | cons c more =>
    have member : c ∈ Nat.toDigits 10 n := digits ▸ List.mem_cons_self
    exact ⟨c, more ++ rest, rfl, Nat.isDigit_of_mem_toDigits (by decide) (by decide) member⟩

/-- A number is legible in its numeral, before anything but a digit. -/
theorem decimal_legible (value : Int) : Legible decimal Undigited value := by
  have apart (n m : Nat) (rest rest' : Text) : decimal (.ofNat n) ++ rest ≠ decimal (.negSucc m) ++ rest' := by
    intro same
    obtain ⟨c, more, begins, digit⟩ := toDigits_head n rest
    obtain ⟨rfl, _⟩ := List.cons.inj (begins.symm.trans same)
    exact absurd digit (by decide)
  intro other rest rest' ends ends' same
  cases value with
  | ofNat n =>
    cases other with
    | ofNat m =>
      obtain ⟨rfl, left⟩ := toDigits_legible n ends ends' same
      exact ⟨rfl, left⟩
    | negSucc m => exact absurd same (apart n m rest rest')
  | negSucc n =>
    cases other with
    | ofNat m => exact absurd same.symm (apart m n rest' rest)
    | negSucc m =>
      obtain ⟨next, left⟩ := toDigits_legible (n + 1) ends ends' (List.cons.inj same).2
      obtain rfl := Nat.succ.inj next
      exact ⟨rfl, left⟩

/-- The value of a hexadecimal digit in lower case. -/
def hexadecimalDigit (c : Char) : Nat := if c.isDigit then c.toNat - '0'.toNat else c.toNat - 'a'.toNat + 10

theorem hexadecimalDigit_digitChar {n : Nat} (small : n < 16) : hexadecimalDigit n.digitChar = n := by
  revert n
  decide

/-- The number that hexadecimal digits in lower case stand for. -/
def hexadecimalValue (text : Text) : Nat := text.foldl (fun value c => 16 * value + hexadecimalDigit c) 0

theorem hexadecimalValue_append (text : Text) (c : Char) :
    hexadecimalValue (text ++ [c]) = 16 * hexadecimalValue text + hexadecimalDigit c := by
  rw [hexadecimalValue, List.foldl_append]
  rfl

theorem hexadecimalValue_toDigits (n : Nat) : hexadecimalValue (Nat.toDigits 16 n) = n := by
  induction n using Nat.strongRecOn with
  | ind n ih =>
    rw [Nat.toDigits_eq_if (by decide)]
    by_cases small : n < 16
    · rw [if_pos small]
      have single := hexadecimalValue_append [] n.digitChar
      rw [hexadecimalDigit_digitChar small] at single
      exact single.trans (Nat.zero_add n)
    · rw [if_neg small, hexadecimalValue_append, ih (n / 16) (by omega),
        hexadecimalDigit_digitChar (Nat.mod_lt n (by decide))]
      exact Nat.div_add_mod n 16

theorem hexadecimalValue_hexadecimal (width n : Nat) : hexadecimalValue (hexadecimal width n) = n := by
  have zeros (count : Nat) : hexadecimalValue (List.replicate count '0') = 0 := by
    induction count with
    | zero => rfl
    | succ count ih => rw [List.replicate_succ', hexadecimalValue_append, ih]; rfl
  rw [hexadecimal, List.leftpad, hexadecimalValue, List.foldl_append]
  change List.foldl _ (hexadecimalValue _) _ = n
  rw [zeros]
  exact hexadecimalValue_toDigits n

theorem length_hexadecimal (positive : 0 < width) (small : n < 16 ^ width) : (hexadecimal width n).length = width := by
  rw [hexadecimal, List.length_leftpad]
  exact Nat.max_eq_left ((Nat.length_toDigits_le_iff (by decide) positive).mpr small)

/-- A number in digits of a fixed width is read back, whatever follows. -/
theorem read_hexadecimal (positive : 0 < width) (small : n < 16 ^ width) (rest : Text) :
    hexadecimalValue ((hexadecimal width n ++ rest).take width) = n ∧ (hexadecimal width n ++ rest).drop width = rest := by
  have length := length_hexadecimal positive small
  rw [List.take_left' length, List.drop_left' length]
  exact ⟨hexadecimalValue_hexadecimal width n, rfl⟩

/-! Numerals are printable. -/

theorem digitChar_printable {n : Nat} (small : n < 16) : isPrintable n.digitChar = true := by
  revert n
  decide

theorem toDigits_printable (several : 1 < base) (few : base ≤ 16) (n : Nat) :
    ∀ c ∈ Nat.toDigits base n, isPrintable c = true := by
  induction n using Nat.strongRecOn with
  | ind n ih =>
    have last : n % base < 16 := Nat.lt_of_lt_of_le (Nat.mod_lt n (by omega)) few
    rw [Nat.toDigits_eq_if several]
    by_cases small : n < base
    · rw [if_pos small]
      exact List.forall_mem_singleton.mpr (digitChar_printable (Nat.lt_of_lt_of_le small few))
    · rw [if_neg small]
      have fewer : n / base < n := Nat.div_lt_self (by omega) several
      exact List.forall_mem_append.mpr ⟨ih _ fewer, List.forall_mem_singleton.mpr (digitChar_printable last)⟩

theorem decimal_printable (value : Int) : ∀ c ∈ decimal value, isPrintable c = true := by
  cases value with
  | ofNat n => exact toDigits_printable (by decide) (by decide) n
  | negSucc n => exact List.forall_mem_cons.mpr ⟨by decide, toDigits_printable (by decide) (by decide) (n + 1)⟩

theorem hexadecimal_printable (width n : Nat) : ∀ c ∈ hexadecimal width n, isPrintable c = true := by
  rw [hexadecimal, List.leftpad]
  refine List.forall_mem_append.mpr ⟨fun c member => ?_, toDigits_printable (by decide) (by decide) n⟩
  rw [List.eq_of_mem_replicate member]
  decide

end Mana
