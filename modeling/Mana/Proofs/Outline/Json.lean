import Mana.Outline.Json
import Mana.Proofs.Text.Legible

/-! JSON documents are legible: the first character tells the form of an outline, a comma or a line break whether
another member follows, and a bracket where an array or an object ends. -/
namespace Mana

/-! Strings. -/

namespace JsonString

/-- The first character of what the text inside a JSON string stands for, and what follows. A surrogate is the first of
a pair. -/
def unescaped : Text → Option (Char × Text)
  | [] => none
  | '\\' :: 'n' :: rest => some ('\n', rest)
  | '\\' :: 'r' :: rest => some ('\r', rest)
  | '\\' :: 't' :: rest => some ('\t', rest)
  | '\\' :: 'f' :: rest => some ('\x0c', rest)
  | '\\' :: 'b' :: rest => some ('\x08', rest)
  | '\\' :: 'u' :: rest =>
    let unit := hexadecimalValue (rest.take 4)
    let left := rest.drop 4
    if 0xd800 ≤ unit ∧ unit < 0xe000 then
      let low := hexadecimalValue ((left.drop 2).take 4)
      some (Char.ofNat (0x10000 + 0x400 * (unit - 0xd800) + (low - 0xdc00)), (left.drop 2).drop 4)
    else some (Char.ofNat unit, left)
  | '\\' :: c :: rest => some (c, rest)
  | c :: rest => some (c, rest)

theorem unescaped_basic (small : unit < 16 ^ 4) (plain : ¬(0xd800 ≤ unit ∧ unit < 0xe000)) (rest : Text) :
    unescaped ('\\' :: 'u' :: (hexadecimal 4 unit ++ rest)) = some (Char.ofNat unit, rest) := by
  obtain ⟨value, left⟩ := read_hexadecimal (by decide) small rest
  rw [unescaped, value, left, if_neg plain]

theorem unescaped_pair (surrogate : 0xd800 ≤ high ∧ high < 0xe000) (small : low < 16 ^ 4) (rest : Text) :
    unescaped ('\\' :: 'u' :: (hexadecimal 4 high ++ '\\' :: 'u' :: (hexadecimal 4 low ++ rest))) =
      some (Char.ofNat (0x10000 + 0x400 * (high - 0xd800) + (low - 0xdc00)), rest) := by
  have bound : high < 16 ^ 4 := by omega
  obtain ⟨value, left⟩ := read_hexadecimal (by decide) bound ('\\' :: 'u' :: (hexadecimal 4 low ++ rest))
  obtain ⟨value', left'⟩ := read_hexadecimal (by decide) small rest
  rw [unescaped, value, left, if_pos surrogate, List.drop_succ_cons, List.drop_succ_cons, List.drop_zero, value', left']

theorem utf16Units_cases (c : Char) :
    (utf16Units c = [c.toNat] ∧ c.toNat < 16 ^ 4 ∧ ¬(0xd800 ≤ c.toNat ∧ c.toNat < 0xe000)) ∨
      ∃ high low, utf16Units c = [high, low] ∧ (0xd800 ≤ high ∧ high < 0xe000) ∧ low < 16 ^ 4 ∧
        0x10000 + 0x400 * (high - 0xd800) + (low - 0xdc00) = c.toNat := by
  have scalar : c.toNat < 0xd800 ∨ (0xdfff < c.toNat ∧ c.toNat < 0x110000) := c.valid
  by_cases small : c.toNat < 0x10000
  · exact .inl ⟨if_pos small, small, by omega⟩
  · exact .inr ⟨_, _, if_neg small, by omega, by omega, by omega⟩

theorem unescaped_units (c : Char) (rest : Text) :
    unescaped ((utf16Units c).flatMap (fun unit => '\\' :: 'u' :: hexadecimal 4 unit) ++ rest) = some (c, rest) := by
  rcases utf16Units_cases c with ⟨units, small, plain⟩ | ⟨high, low, units, surrogate, small, whole⟩
  · have read := unescaped_basic small plain rest
    rw [Char.ofNat_toNat] at read
    rw [units, List.flatMap_singleton]
    exact read
  · have read := unescaped_pair surrogate small rest
    rw [whole, Char.ofNat_toNat] at read
    rw [units, List.flatMap_cons, List.flatMap_singleton, List.append_assoc]
    exact read

theorem unescaped_jsonEscaped (c : Char) (rest : Text) : unescaped (jsonEscaped c ++ rest) = some (c, rest) := by
  fun_cases jsonEscaped c with
  | case1 special =>
    simp only [Bool.or_eq_true, decide_eq_true_eq] at special
    rcases special with rfl | rfl <;> rfl
  | case2 _ same => rw [same]; rfl
  | case3 _ _ same => rw [same]; rfl
  | case4 _ _ _ same => rw [same]; rfl
  | case5 _ _ _ _ same => rw [same]; rfl
  | case6 _ _ _ _ _ same => rw [same]; rfl
  | case7 special =>
    have plain : c ≠ '\\' := fun same => special (by simp [same])
    simp [unescaped, plain]
  | case8 => exact unescaped_units c rest

theorem jsonEscaped_apart (c : Char) (rest rest' : Text) : jsonEscaped c ++ rest ≠ ['\x22'] ++ rest' := by
  have backslash : '\\' ≠ '\x22' := by decide
  fun_cases jsonEscaped c with
  | case7 special =>
    intro same
    exact special (by simp [(List.cons.inj same).1])
  | case8 =>
    rcases utf16Units_cases c with ⟨units, _⟩ | ⟨high, low, units, _⟩
    · rw [units]
      exact fun same => backslash (List.cons.inj same).1
    · rw [units]
      exact fun same => backslash (List.cons.inj same).1
  | _ => exact fun same => backslash (List.cons.inj same).1

end JsonString

theorem jsonQuoted_legible (text : Text) : Legible jsonQuoted (fun _ => True) text := by
  intro other rest rest' _ _ same
  have escapes (c : Char) : Legible jsonEscaped (fun _ => True) c :=
    .of_read JsonString.unescaped (fun c rest _ => JsonString.unescaped_jsonEscaped c rest) c
  have sequence := Legible.sequence (fun c (_ : c ∈ text) => escapes c) (fun _ _ => trivial) (fun _ => trivial)
    JsonString.jsonEscaped_apart
  exact sequence trivial trivial (List.cons.inj same).2

/-! Outlines. -/

namespace Outline

/-- A member of an object: a name and a value. -/
def jsonMember (depth : Nat) (field : Text × Outline) : Text :=
  jsonQuoted field.1 ++ ": ".toList ++ field.2.jsonAt depth

theorem jsonItems_eq_map (depth : Nat) (items : List Outline) : jsonItems depth items = items.map (jsonAt depth) := by
  induction items with
  | nil => rfl
  | cons item items ih => exact congrArg (item.jsonAt depth :: ·) ih

theorem jsonFields_eq_map (depth : Nat) (fields : List (Text × Outline)) :
    jsonFields depth fields = fields.map (jsonMember depth) := by
  induction fields with
  | nil => rfl
  | cons field fields ih =>
    obtain ⟨name, value⟩ := field
    exact congrArg (jsonMember depth (name, value) :: ·) ih

theorem jsonAt_series (depth : Nat) (items : List Outline) :
    (series items).jsonAt depth = bracketed '[' ']' depth (items.map (jsonAt (depth + 1))) :=
  congrArg (bracketed '[' ']' depth) (jsonItems_eq_map (depth + 1) items)

theorem jsonAt_record (depth : Nat) (name : Text) (fields : List (Text × Outline)) :
    (record name fields).jsonAt depth =
      bracketed '\x7b' '\x7d' depth ((("node".toList, words name) :: fields).map (jsonMember (depth + 1))) :=
  congrArg (fun others => bracketed '\x7b' '\x7d' depth (jsonMember (depth + 1) ("node".toList, words name) :: others))
    (jsonFields_eq_map (depth + 1) fields)

theorem bracketed_cons (opening closing : Char) (depth : Nat) (first : Text) (others : List Text) :
    ∃ inside, bracketed opening closing depth (first :: others) = opening :: '\n' :: inside ∧
      ',' :: '\n' :: inside =
        (first :: others).flatMap ((',' :: lineBreak (depth + 1)) ++ ·) ++ (lineBreak depth ++ [closing]) := by
  refine ⟨List.replicate (2 * (depth + 1)) ' ' ++ first ++ others.flatMap ((',' :: lineBreak (depth + 1)) ++ ·) ++
    (lineBreak depth ++ [closing]), ?_, ?_⟩
  · simp [bracketed, lineBreak, Text.joined_cons]
  · simp [lineBreak]

section Bracketed

variable {write : α → Text} {values : List α} (opening : Char) {closing : Char} (depth : Nat)

theorem members_legible (legible : ∀ value ∈ values, Legible write Undigited value) :
    Legible (fun values => values.flatMap (fun value => (',' :: lineBreak (depth + 1)) ++ write value) ++
      (lineBreak depth ++ [closing])) (fun _ => True) values := by
  have each : ∀ value ∈ values,
      Legible (fun value => (',' :: lineBreak (depth + 1)) ++ write value) Undigited value := by
    intro value member other rest rest' ends ends' same
    rw [List.append_assoc, List.append_assoc] at same
    exact legible value member ends ends' (List.append_cancel_left same)
  refine .sequence each (fun _ _ => .cons (by decide) _) (fun _ => .cons (by decide) _) (fun _ _ _ same => ?_)
  exact absurd (List.cons.inj same).1 (by decide)

theorem bracketed_legible (visible : closing ≠ '\n') (legible : ∀ value ∈ values, Legible write Undigited value) :
    Legible (fun values => bracketed opening closing depth (values.map write)) (fun _ => True) values := by
  have apart (first : Text) (others : List Text) (rest rest' : Text) :
      bracketed opening closing depth [] ++ rest ≠ bracketed opening closing depth (first :: others) ++ rest' := by
    obtain ⟨inside, shown, _⟩ := bracketed_cons opening closing depth first others
    rw [shown]
    intro same
    exact visible (List.cons.inj (List.cons.inj same).2).1
  intro values' rest rest' _ _ same
  cases values with
  | nil =>
    cases values' with
    | nil => exact ⟨rfl, List.append_cancel_left same⟩
    | cons value' others' => exact absurd same (apart _ _ _ _)
  | cons value others =>
    cases values' with
    | nil => exact absurd same.symm (apart _ _ _ _)
    | cons value' others' =>
      obtain ⟨inside, shown, divided⟩ := bracketed_cons opening closing depth (write value) (others.map write)
      obtain ⟨inside', shown', divided'⟩ := bracketed_cons opening closing depth (write value') (others'.map write)
      simp only [List.map_cons, shown, shown'] at same
      have lines : (',' :: '\n' :: inside) ++ rest = (',' :: '\n' :: inside') ++ rest' :=
        congrArg (',' :: ·) (List.cons.inj same).2
      rw [divided, divided', ← List.map_cons, ← List.map_cons, List.flatMap_map, List.flatMap_map] at lines
      exact members_legible depth legible trivial trivial lines

end Bracketed

/-! The form of an outline. -/

/-- What the first character of a document tells: any digit stands for a number, as the minus sign does, and the letter
of either truth value for both. -/
def leader (c : Char) : Char := if c.isDigit then '-' else if c = 'f' then 't' else c

/-- The leader of the documents of an outline. -/
def leading : Outline → Char
  | absent => 'n'
  | flag _ => 't'
  | number _ => '-'
  | words _ => '\x22'
  | series _ => '['
  | record .. => '\x7b'

theorem leader_jsonAt (depth : Nat) (outline : Outline) (rest : Text) :
    (outline.jsonAt depth ++ rest).head?.map leader = some outline.leading := by
  have brackets (opening closing : Char) (members : List Text) :
      (bracketed opening closing depth members ++ rest).head? = some opening := by
    cases members with
    | nil => rfl
    | cons first others =>
      obtain ⟨inside, shown, _⟩ := bracketed_cons opening closing depth first others
      rw [shown]
      rfl
  cases outline with
  | absent => rfl
  | flag value => cases value <;> rfl
  | number value =>
    cases value with
    | ofNat n =>
      obtain ⟨c, more, shown, digit⟩ := toDigits_head n rest
      change (Nat.toDigits 10 n ++ rest).head?.map leader = some '-'
      rw [shown, List.head?_cons, Option.map_some, leader, if_pos digit]
    | negSucc n => rfl
  | words value => rfl
  | series items => rw [jsonAt_series, brackets]; rfl
  | record name fields => rw [jsonAt_record, brackets]; rfl

theorem leading_eq {depth : Nat} {outline other : Outline}
    (same : outline.jsonAt depth ++ rest = other.jsonAt depth ++ rest') : outline.leading = other.leading :=
  Option.some.inj (by rw [← leader_jsonAt depth outline rest, same, leader_jsonAt])

theorem jsonMember_legible {depth : Nat} {field : Text × Outline} (legible : Legible (jsonAt depth) Undigited field.2) :
    Legible (jsonMember depth) Undigited field := by
  intro other rest rest' ends ends' same
  simp only [jsonMember, List.append_assoc] at same
  obtain ⟨name, left⟩ := jsonQuoted_legible field.1 trivial trivial same
  obtain ⟨value, left⟩ := legible ends ends' (List.append_cancel_left left)
  exact ⟨Prod.ext name value, left⟩

section Forms

variable (depth : Nat)

theorem absent_legible : Legible (jsonAt depth) Undigited absent := by
  intro other rest rest' _ _ same
  have form := leading_eq same
  cases other with
  | absent => exact ⟨rfl, List.append_cancel_left same⟩
  | _ => cases form

theorem flag_legible (value : Bool) : Legible (jsonAt depth) Undigited (flag value) := by
  have apart (rest rest' : Text) : "true".toList ++ rest ≠ "false".toList ++ rest' :=
    fun same => absurd (List.cons.inj same).1 (by decide)
  intro other rest rest' _ _ same
  have form := leading_eq same
  cases other with
  | flag value' =>
    cases value with
    | true =>
      cases value' with
      | true => exact ⟨rfl, List.append_cancel_left same⟩
      | false => exact absurd same (apart rest rest')
    | false =>
      cases value' with
      | true => exact absurd same.symm (apart rest' rest)
      | false => exact ⟨rfl, List.append_cancel_left same⟩
  | _ => cases form

theorem number_legible (value : Int) : Legible (jsonAt depth) Undigited (number value) := by
  intro other rest rest' ends ends' same
  have form := leading_eq same
  cases other with
  | number value' => exact (decimal_legible value ends ends' same).imp_left (congrArg number)
  | _ => cases form

theorem words_legible (value : Text) : Legible (jsonAt depth) Undigited (words value) := by
  intro other rest rest' _ _ same
  have form := leading_eq same
  cases other with
  | words value' => exact (jsonQuoted_legible value trivial trivial same).imp_left (congrArg words)
  | _ => cases form

theorem series_legible {items : List Outline} (legible : ∀ item ∈ items, Legible (jsonAt (depth + 1)) Undigited item) :
    Legible (jsonAt depth) Undigited (series items) := by
  intro other rest rest' _ _ same
  have form := leading_eq same
  cases other with
  | series items' =>
    rw [jsonAt_series, jsonAt_series] at same
    have all := bracketed_legible '[' depth (by decide : ']' ≠ '\n') legible
    exact (all trivial trivial same).imp_left (congrArg series)
  | _ => cases form

theorem record_legible (name : Text) {fields : List (Text × Outline)}
    (legible : ∀ field ∈ fields, Legible (jsonMember (depth + 1)) Undigited field) :
    Legible (jsonAt depth) Undigited (record name fields) := by
  intro other rest rest' _ _ same
  have form := leading_eq same
  cases other with
  | record name' fields' =>
    rw [jsonAt_record, jsonAt_record] at same
    have title : Legible (jsonMember (depth + 1)) Undigited ("node".toList, words name) :=
      jsonMember_legible (words_legible (depth + 1) name)
    have all := bracketed_legible '\x7b' depth (by decide : '\x7d' ≠ '\n') (List.forall_mem_cons.mpr ⟨title, legible⟩)
    obtain ⟨both, left⟩ := all trivial trivial same
    obtain ⟨named, rfl⟩ := List.cons.inj both
    cases named
    exact ⟨rfl, left⟩
  | _ => cases form

end Forms

mutual

theorem jsonAt_legible (depth : Nat) : (outline : Outline) → Legible (jsonAt depth) Undigited outline
  | absent => absent_legible depth
  | flag value => flag_legible depth value
  | number value => number_legible depth value
  | words value => words_legible depth value
  | series items => series_legible depth (jsonItems_legible (depth + 1) items)
  | record name fields => record_legible depth name (jsonFields_legible (depth + 1) fields)

theorem jsonItems_legible (depth : Nat) : (items : List Outline) →
    ∀ item ∈ items, Legible (jsonAt depth) Undigited item
  | [] => nofun
  | item :: items => List.forall_mem_cons.mpr ⟨jsonAt_legible depth item, jsonItems_legible depth items⟩

theorem jsonFields_legible (depth : Nat) : (fields : List (Text × Outline)) →
    ∀ field ∈ fields, Legible (jsonMember depth) Undigited field
  | [] => nofun
  | (_, value) :: fields =>
    List.forall_mem_cons.mpr ⟨jsonMember_legible (jsonAt_legible depth value), jsonFields_legible depth fields⟩

end

/-- Outlines with one document are one outline. -/
theorem json_injective {outline other : Outline} (same : outline.json = other.json) : outline = other :=
  (jsonAt_legible 0 outline).eq .nil same

end Outline

end Mana
