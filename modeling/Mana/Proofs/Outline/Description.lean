import Mana.Outline
import Mana.Proofs.Text.Quoted
import Mana.Proofs.Token.Lexical

/-! Descriptions are read in one way only, if records and fields have words for names: the letters at the front and the
character behind them tell the form of an outline, a comma whether another member follows, and a bracket where the
members end. Quotes, commas and brackets inside a text do no harm, since that is told from its quoted form. -/
namespace Mana

/-- A text of letters only. -/
def IsWord (text : Text) : Prop := ∀ c ∈ text, isLetter c = true

instance (text : Text) : Decidable (IsWord text) :=
  decidable_of_iff (text.all isLetter = true) List.all_eq_true

namespace Outline

mutual

/-- The records of an outline and their fields have words for names. -/
def Named : Outline → Prop
  | absent | flag _ | number _ | words _ => True
  | series items => AllNamed items
  | record name fields => IsWord name ∧ FieldsNamed fields

def AllNamed : List Outline → Prop
  | [] => True
  | item :: items => item.Named ∧ AllNamed items

def FieldsNamed : List (Text × Outline) → Prop
  | [] => True
  | (name, value) :: fields => (IsWord name ∧ value.Named) ∧ FieldsNamed fields

end

theorem allNamed_iff {items : List Outline} : AllNamed items ↔ ∀ item ∈ items, item.Named := by
  induction items with
  | nil => exact iff_of_true trivial nofun
  | cons item items ih => exact (and_congr_right' ih).trans List.forall_mem_cons.symm

theorem fieldsNamed_iff {fields : List (Text × Outline)} :
    FieldsNamed fields ↔ ∀ field ∈ fields, IsWord field.1 ∧ field.2.Named := by
  induction fields with
  | nil => exact iff_of_true trivial nofun
  | cons field fields ih =>
    rw [List.forall_mem_cons]
    exact and_congr_right' ih

/-- What may come behind a description: nothing, a comma or a closing bracket. -/
def Closing (rest : Text) : Prop := ∀ c, rest.head? = some c → c ∈ [',', ')', ']']

theorem Closing.nil : Closing [] := nofun

theorem Closing.cons (closes : c ∈ [',', ')', ']']) (rest : Text) : Closing (c :: rest) := by
  rintro _ ⟨⟩
  exact closes

theorem Closing.cases (closing : Closing rest) (first : rest.head? = some c) : c = ',' ∨ c = ')' ∨ c = ']' := by
  simpa using closing c first

theorem Closing.undigited (closing : Closing rest) : Undigited rest := by
  intro c first
  rcases closing.cases first with rfl | rfl | rfl <;> decide

theorem Closing.unlettered (closing : Closing rest) : ∀ c, rest.head? = some c → isLetter c = false := by
  intro c first
  rcases closing.cases first with rfl | rfl | rfl <;> decide

/-! The form of an outline. -/

/-- What the character behind the letters at the front tells: any digit stands for a number, as the minus sign does,
either quote for a text, and all that may come behind a description for its end. -/
def mark : Option Char → Char
  | none => ','
  | some c => if c.isDigit then '-' else if c = '\x22' then '\x27' else if c ∈ [',', ')', ']'] then ',' else c

/-- The letters at the front of a text, and what the character behind them tells. -/
def sign (text : Text) : Text × Char := (text.takeWhile isLetter, mark (text.dropWhile isLetter).head?)

/-- The sign of the descriptions of an outline. -/
def signed : Outline → Text × Char
  | absent => ("None".toList, ',')
  | flag true => ("True".toList, ',')
  | flag false => ("False".toList, ',')
  | number _ => ([], '-')
  | words _ => ([], '\x27')
  | series _ => ([], '[')
  | record name _ => (name, '(')

theorem sign_append {word rest : Text} (letters : IsWord word) (apart : ∀ c, rest.head? = some c → isLetter c = false) :
    sign (word ++ rest) = (word, mark rest.head?) := by
  have front : (word ++ rest).takeWhile isLetter = word := Lexical.takeWhile_apart letters apart
  have whole := List.takeWhile_append_dropWhile (p := isLetter) (l := word ++ rest)
  rw [front] at whole
  rw [sign, front, List.append_cancel_left whole]

theorem sign_cons (other : isLetter c = false) (rest : Text) : sign (c :: rest) = ([], mark (some c)) :=
  sign_append (show IsWord [] from nofun) (by rintro _ ⟨⟩; exact other)

theorem Closing.mark (closing : Closing rest) : Outline.mark rest.head? = ',' := by
  cases first : rest.head? with
  | none => rfl
  | some c => rcases closing.cases first with rfl | rfl | rfl <;> decide

theorem sign_description {outline : Outline} (named : outline.Named) (closing : Closing rest) :
    sign (outline.description ++ rest) = outline.signed := by
  have constant (word : Text) (letters : IsWord word) : sign (word ++ rest) = (word, ',') := by
    rw [sign_append letters closing.unlettered, closing.mark]
  cases outline with
  | absent => exact constant _ (by decide)
  | flag value =>
    cases value with
    | true => exact constant _ (by decide)
    | false => exact constant _ (by decide)
  | number value =>
    cases value with
    | ofNat n =>
      obtain ⟨c, more, shown, digit⟩ := toDigits_head n rest
      have plain : isLetter c = false := by
        by_contra letter
        exact absurd ((isLetter_not_isDigit (by simpa using letter)).symm.trans digit) Bool.false_ne_true
      change sign (Nat.toDigits 10 n ++ rest) = _
      rw [shown, sign_cons plain, Outline.mark, if_pos digit]
      rfl
    | negSucc n => exact sign_cons (by decide) _
  | words value =>
    change sign (Quoted.mark value :: _) = _
    rcases Quoted.mark_cases value with quote | quote
    · rw [quote, sign_cons (by decide)]
      rfl
    · rw [quote, sign_cons (by decide)]
      rfl
  | series items => exact sign_cons (by decide) _
  | record name fields =>
    obtain ⟨letters, _⟩ := named
    have opening : (record name fields).description ++ rest =
        name ++ '(' :: (Text.joined ", ".toList (fieldDescriptions fields) ++ ')' :: rest) := by
      simp [description]
    rw [opening, sign_append letters (by rintro _ ⟨⟩; decide)]
    rfl

/-! Members. -/

/-- What is written for a value, before anything that may come behind a description, is not written for the other one,
and tells where it ends. -/
def Parted (write : α → Text) (value other : α) : Prop :=
  ∀ ⦃rest rest'⦄, Closing rest → Closing rest' → write value ++ rest = write other ++ rest' →
    value = other ∧ rest = rest'

private theorem followers_closing (write : α → Text) (values : List α) (closes : closing ∈ [',', ')', ']'])
    (rest : Text) : Closing (values.flatMap (fun value => ", ".toList ++ write value) ++ closing :: rest) := by
  cases values with
  | nil => exact .cons closes rest
  | cons value values => exact .cons (by decide) _

section Members

variable {write : α → Text} {values others : List α} {closing : Char} (closes : closing ∈ [',', ')', ']'])
  (bracket : closing ≠ ',') (apart : ∀ value ∈ values, ∀ other ∈ others, Parted write value other)
include closes bracket apart

private theorem followers_parted (same : values.flatMap (fun value => ", ".toList ++ write value) ++ closing :: rest =
    others.flatMap (fun value => ", ".toList ++ write value) ++ closing :: rest') : values = others ∧ rest = rest' := by
  induction values generalizing others with
  | nil =>
    cases others with
    | nil => exact ⟨rfl, (List.cons.inj same).2⟩
    | cons other others => exact absurd (List.cons.inj same).1 bracket
  | cons value values ih =>
    cases others with
    | nil => exact absurd (List.cons.inj same).1.symm bracket
    | cons other others =>
      rw [List.flatMap_cons, List.flatMap_cons, List.append_assoc, List.append_assoc, List.append_assoc,
        List.append_assoc] at same
      obtain ⟨rfl, later⟩ := apart value List.mem_cons_self other List.mem_cons_self
        (followers_closing write values closes rest) (followers_closing write others closes rest')
        (List.append_cancel_left same)
      obtain ⟨rfl, left⟩ := ih (fun value member other member' =>
        apart value (List.mem_cons_of_mem _ member) other (List.mem_cons_of_mem _ member')) later
      exact ⟨rfl, left⟩

theorem members_parted
    (visible : ∀ value, value ∈ values ∨ value ∈ others → ∀ rest, Closing rest →
      (write value ++ rest).head? ≠ some closing)
    (same : Text.joined ", ".toList (values.map write) ++ closing :: rest =
      Text.joined ", ".toList (others.map write) ++ closing :: rest') : values = others ∧ rest = rest' := by
  have shown (value : α) (values : List α) (rest : Text) :
      Text.joined ", ".toList ((value :: values).map write) ++ closing :: rest =
        write value ++ (values.flatMap (fun value => ", ".toList ++ write value) ++ closing :: rest) := by
    rw [List.map_cons, Text.joined_cons, List.flatMap_map, List.append_assoc]
  cases values with
  | nil =>
    cases others with
    | nil => exact ⟨rfl, (List.cons.inj same).2⟩
    | cons other others =>
      rw [shown other others rest'] at same
      have later := followers_closing write others closes rest'
      exact absurd (congrArg List.head? same.symm) (visible other (.inr List.mem_cons_self) _ later)
  | cons value values =>
    rw [shown value values rest] at same
    have later := followers_closing write values closes rest
    cases others with
    | nil => exact absurd (congrArg List.head? same) (visible value (.inl List.mem_cons_self) _ later)
    | cons other others =>
      rw [shown other others rest'] at same
      obtain ⟨rfl, later⟩ := apart value List.mem_cons_self other List.mem_cons_self later
        (followers_closing write others closes rest') same
      obtain ⟨rfl, left⟩ := followers_parted closes bracket (fun value member other member' =>
        apart value (List.mem_cons_of_mem _ member) other (List.mem_cons_of_mem _ member')) later
      exact ⟨rfl, left⟩

end Members

theorem descriptions_eq_map (items : List Outline) : descriptions items = items.map description := by
  induction items with
  | nil => rfl
  | cons item items ih => exact congrArg (item.description :: ·) ih

/-- A field: its name and its value. -/
def fieldDescription (field : Text × Outline) : Text := field.1 ++ ['='] ++ field.2.description

theorem fieldDescriptions_eq_map (fields : List (Text × Outline)) :
    fieldDescriptions fields = fields.map fieldDescription := by
  induction fields with
  | nil => rfl
  | cons field fields ih =>
    obtain ⟨name, value⟩ := field
    exact congrArg (fieldDescription (name, value) :: ·) ih

theorem description_visible {outline : Outline} (named : outline.Named) (closes : c ∈ [',', ')', ']'])
    (closing : Closing rest) : (outline.description ++ rest).head? ≠ some c := by
  intro first
  have signed := sign_description named closing
  have plain : isLetter c = false := Closing.unlettered (.cons closes []) c rfl
  have ending : mark (some c) = ',' := Closing.mark (.cons closes [])
  cases shown : outline.description ++ rest with
  | nil => simp [shown] at first
  | cons d more =>
    rw [shown] at first signed
    obtain rfl := Option.some.inj first
    rw [sign_cons plain, ending] at signed
    cases outline with
    | flag value => cases value <;> cases signed
    | _ => cases signed

theorem fieldDescription_visible (field : Text × Outline) (letters : IsWord field.1) (closes : c ∈ [',', ')', ']'])
    (rest : Text) : (fieldDescription field ++ rest).head? ≠ some c := by
  obtain ⟨name, value⟩ := field
  intro first
  have plain : isLetter c = false := Closing.unlettered (.cons closes []) c rfl
  cases name with
  | nil =>
    obtain rfl : '=' = c := Option.some.inj first
    revert closes
    decide
  | cons d name =>
    obtain rfl : d = c := Option.some.inj first
    exact absurd ((letters d List.mem_cons_self).symm.trans plain) (by decide)

theorem fieldDescription_parted {field other : Text × Outline} (letters : IsWord field.1) (letters' : IsWord other.1)
    (apart : Parted description field.2 other.2) : Parted fieldDescription field other := by
  intro rest rest' closing closing' same
  simp only [fieldDescription, List.append_assoc] at same
  have title (field : Text × Outline) (rest : Text) (letters : IsWord field.1) :
      sign (field.1 ++ (['='] ++ (field.2.description ++ rest))) = (field.1, '=') :=
    sign_append letters (by rintro _ ⟨⟩; decide)
  have name : field.1 = other.1 := by
    have signs := congrArg sign same
    rw [title field rest letters, title other rest' letters'] at signs
    exact (Prod.mk.inj signs).1
  rw [name] at same
  obtain ⟨value, left⟩ := apart closing closing' (List.append_cancel_left (List.append_cancel_left same))
  exact ⟨Prod.ext name value, left⟩

/-! Outlines. -/

/-- The outline is told from every other one whose names are words. -/
def Told (outline : Outline) : Prop := ∀ other : Outline, other.Named → Parted description outline other

theorem signed_eq {outline other : Outline} (named : outline.Named) (named' : other.Named) (closing : Closing rest)
    (closing' : Closing rest') (same : outline.description ++ rest = other.description ++ rest') :
    outline.signed = other.signed := by
  rw [← sign_description named closing, same, sign_description named' closing']

theorem absent_told : Told absent := by
  intro other named rest rest' closing closing' same
  have own : absent.Named := trivial
  have form := signed_eq own named closing closing' same
  cases other with
  | absent => exact ⟨rfl, List.append_cancel_left same⟩
  | flag value => cases value <;> cases form
  | _ => cases form

theorem flag_told (value : Bool) : Told (flag value) := by
  intro other named rest rest' closing closing' same
  have own : (flag value).Named := trivial
  have form := signed_eq own named closing closing' same
  cases other with
  | flag value' =>
    obtain rfl : value = value' := by
      cases value with
      | true =>
        cases value' with
        | true => rfl
        | false => cases form
      | false =>
        cases value' with
        | true => cases form
        | false => rfl
    exact ⟨rfl, List.append_cancel_left same⟩
  | _ => cases value <;> cases form

theorem number_told (value : Int) : Told (number value) := by
  intro other named rest rest' closing closing' same
  have own : (number value).Named := trivial
  have form := signed_eq own named closing closing' same
  cases other with
  | number value' => exact (decimal_legible value closing.undigited closing'.undigited same).imp_left (congrArg number)
  | flag value' => cases value' <;> cases form
  | _ => cases form

theorem words_told (value : Text) : Told (words value) := by
  intro other named rest rest' closing closing' same
  have own : (words value).Named := trivial
  have form := signed_eq own named closing closing' same
  cases other with
  | words value' => exact (quoted_legible value trivial trivial same).imp_left (congrArg words)
  | flag value' => cases value' <;> cases form
  | _ => cases form

theorem series_told {items : List Outline} (named : AllNamed items) (told : ∀ item ∈ items, Told item) :
    Told (series items) := by
  intro other named' rest rest' closing closing' same
  have own : (series items).Named := named
  have form := signed_eq own named' closing closing' same
  have shown (items : List Outline) (rest : Text) : (series items).description ++ rest =
      '[' :: (Text.joined ", ".toList (items.map description) ++ ']' :: rest) := by
    simp [description, descriptions_eq_map]
  cases other with
  | series items' =>
    rw [shown, shown] at same
    have all : ∀ item, item ∈ items ∨ item ∈ items' → item.Named := fun item member =>
      member.elim (allNamed_iff.mp named item) (allNamed_iff.mp named' item)
    obtain ⟨rfl, left⟩ := members_parted (by decide) (by decide)
      (fun item member other member' => told item member other (all other (.inr member')))
      (fun item member rest closing => description_visible (all item member) (by decide) closing)
      (List.cons.inj same).2
    exact ⟨rfl, left⟩
  | flag value' => cases value' <;> cases form
  | _ => cases form

theorem record_told {name : Text} {fields : List (Text × Outline)} (letters : IsWord name) (named : FieldsNamed fields)
    (told : ∀ field ∈ fields, Told field.2) : Told (record name fields) := by
  intro other named' rest rest' closing closing' same
  have own : (record name fields).Named := ⟨letters, named⟩
  have form := signed_eq own named' closing closing' same
  have shown (name : Text) (fields : List (Text × Outline)) (rest : Text) : (record name fields).description ++ rest =
      name ++ '(' :: (Text.joined ", ".toList (fields.map fieldDescription) ++ ')' :: rest) := by
    simp [description, fieldDescriptions_eq_map]
  cases other with
  | record name' fields' =>
    obtain rfl : name = name' := (Prod.mk.inj form).1
    rw [shown, shown] at same
    have all : ∀ field, field ∈ fields ∨ field ∈ fields' → IsWord field.1 ∧ field.2.Named := fun field member =>
      member.elim (fieldsNamed_iff.mp named field) (fieldsNamed_iff.mp named'.2 field)
    obtain ⟨rfl, left⟩ := members_parted (by decide) (by decide)
      (fun field member other member' => fieldDescription_parted (all field (.inl member)).1
        (all other (.inr member')).1 (told field member other.2 (all other (.inr member')).2))
      (fun field member rest _ => fieldDescription_visible field (all field member).1 (by decide) rest)
      (List.cons.inj (List.append_cancel_left same)).2
    exact ⟨rfl, left⟩
  | flag value' => cases value' <;> cases form
  | _ => cases form

mutual

theorem told_of_named : (outline : Outline) → outline.Named → Told outline
  | absent, _ => absent_told
  | flag value, _ => flag_told value
  | number value, _ => number_told value
  | words value, _ => words_told value
  | series items, named => series_told named (all_told items named)
  | record _ fields, named => record_told named.1 named.2 (fields_told fields named.2)

theorem all_told : (items : List Outline) → AllNamed items → ∀ item ∈ items, Told item
  | [], _ => nofun
  | item :: items, named => List.forall_mem_cons.mpr ⟨told_of_named item named.1, all_told items named.2⟩

theorem fields_told : (fields : List (Text × Outline)) → FieldsNamed fields → ∀ field ∈ fields, Told field.2
  | [], _ => nofun
  | (_, value) :: fields, named =>
    List.forall_mem_cons.mpr ⟨told_of_named value named.1.2, fields_told fields named.2⟩

end

/-- Outlines with one description are one outline, if their names are words. -/
theorem description_injective {outline other : Outline} (named : outline.Named) (named' : other.Named)
    (same : outline.description = other.description) : outline = other :=
  (told_of_named outline named other named' .nil .nil (congrArg (· ++ []) same)).1

end Outline

end Mana
